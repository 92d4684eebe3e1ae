import BalanceFit.Api
import BalanceFit.Config
import BalanceFit.Decimal.Binary64
import BalanceFit.Decimal.CommonPlace
import BalanceFit.Decimal.Reading
import BalanceFit.Decimal.Scientific
import BalanceFit.Decimal.Shortest
import BalanceFit.Design
import BalanceFit.Dimension
import BalanceFit.Divergence
import BalanceFit.Entry
import BalanceFit.Fault
import BalanceFit.FitResult
import BalanceFit.Fitter
import BalanceFit.Fitter.Session
import BalanceFit.Grid
import BalanceFit.Grid.Arithmetic
import BalanceFit.Grid.Solution
import BalanceFit.Grid.System
import BalanceFit.LeastSquares
import BalanceFit.LeastSquares.Jacobi
import BalanceFit.Model
import BalanceFit.Model.Affine
import BalanceFit.Model.Columns
import BalanceFit.Model.CubeRoot
import BalanceFit.Model.Family
import BalanceFit.Model.GeneralizedLinear
import BalanceFit.Model.Given
import BalanceFit.Model.Polynomials
import BalanceFit.Model.Response
import BalanceFit.Model.Script
import BalanceFit.Nested
import BalanceFit.Newton
import BalanceFit.Newton.Interference
import BalanceFit.Newton.Start
import BalanceFit.NormalEquations
import BalanceFit.Outcome
import BalanceFit.Proofs.Decimal.Binary64
import BalanceFit.Proofs.Decimal.Digits
import BalanceFit.Proofs.Decimal.Interval
import BalanceFit.Proofs.Decimal.Layout
import BalanceFit.Proofs.Decimal.PowersOfTen
import BalanceFit.Proofs.Decimal.RoundTrip
import BalanceFit.Proofs.Decimal.Rounding
import BalanceFit.Proofs.Decimal.Shortest
import BalanceFit.Proofs.Fitter.Collection
import BalanceFit.Proofs.Fitter.Diagnostics
import BalanceFit.Proofs.Fitter.Independence
import BalanceFit.Proofs.Fitter.Labels
import BalanceFit.Proofs.Fitter.LeastSquares
import BalanceFit.Proofs.Fitter.NoiseFree
import BalanceFit.Proofs.Fitter.NonFiniteData
import BalanceFit.Proofs.Fitter.Reconciliation
import BalanceFit.Proofs.Fitter.Symmetry
import BalanceFit.Proofs.Fitter.Units
import BalanceFit.Proofs.Fitter.WarmStart
import BalanceFit.Proofs.Fitter.WeightZero
import BalanceFit.Proofs.Grid.Rows
import BalanceFit.Proofs.Grid.Solution
import BalanceFit.Proofs.Grid.System
import BalanceFit.Proofs.Model.Basis
import BalanceFit.Proofs.Model.Certificate
import BalanceFit.Proofs.Model.Derivative
import BalanceFit.Proofs.Model.Evaluation
import BalanceFit.Proofs.Model.Family
import BalanceFit.Proofs.Model.Gram
import BalanceFit.Proofs.Model.Intercept
import BalanceFit.Proofs.Model.LeastNorm
import BalanceFit.Proofs.Model.Monotone
import BalanceFit.Proofs.Model.Ridge
import BalanceFit.Proofs.Model.Shrinkage
import BalanceFit.Proofs.Model.Singularity
import BalanceFit.Proofs.Model.Sums
import BalanceFit.Proofs.Newton.Affine
import BalanceFit.Proofs.Newton.Agreement
import BalanceFit.Proofs.Newton.Assess
import BalanceFit.Proofs.Newton.Breakdown
import BalanceFit.Proofs.Newton.Budget
import BalanceFit.Proofs.Newton.Convergence
import BalanceFit.Proofs.Newton.Coordinates
import BalanceFit.Proofs.Newton.Ending
import BalanceFit.Proofs.Newton.FirstStop
import BalanceFit.Proofs.Newton.FirstVisit
import BalanceFit.Proofs.Newton.History
import BalanceFit.Proofs.Newton.Report
import BalanceFit.Proofs.Newton.Restart
import BalanceFit.Proofs.Newton.Round
import BalanceFit.Proofs.Newton.Symmetry
import BalanceFit.Proofs.Newton.Totality
import BalanceFit.Proofs.Newton.Trail
import BalanceFit.Proofs.Newton.Units
import BalanceFit.Proofs.Newton.Unscaled
import BalanceFit.Proofs.Newton.Visit
import BalanceFit.Proofs.Run
import BalanceFit.Proofs.Run.Effect
import BalanceFit.Proofs.Run.Lines
import BalanceFit.Proofs.Run.Relation
import BalanceFit.Proofs.Scalar.Field
import BalanceFit.Proofs.Scalar.NonFinite
import BalanceFit.Proofs.Scalar.Ranged
import BalanceFit.Proofs.Scalar.Zero
import BalanceFit.Proofs.Store.Extend
import BalanceFit.Proofs.Store.LeastSquares
import BalanceFit.Proofs.Store.Ledger
import BalanceFit.Proofs.Store.Refinement
import BalanceFit.Proofs.Store.Snapshot
import BalanceFit.Proofs.System.Scaling
import BalanceFit.Proofs.System.Singular
import BalanceFit.Proofs.System.Solved
import BalanceFit.Proofs.Trace.Vector
import BalanceFit.Resize
import BalanceFit.Run
import BalanceFit.Scalar
import BalanceFit.Scalar.Double
import BalanceFit.Scalar.PairwiseSum
import BalanceFit.Settings
import BalanceFit.Store
import BalanceFit.Store.Session
import BalanceFit.Store.Width
import BalanceFit.System
import BalanceFit.System.Buffers
import BalanceFit.System.Diagonal
import BalanceFit.System.Elimination
import BalanceFit.System.Scaling
import BalanceFit.System.Solution
import BalanceFit.Text.Digit
import BalanceFit.Text.Hidden
import BalanceFit.Text.Quoted
import BalanceFit.Trace
import BalanceFit.Trace.Style
import BalanceFit.Value
import BalanceFit.Vec
