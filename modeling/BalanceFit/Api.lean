/-!
# The public face of the library

## Main definitions

* `Api.version` : the version
* `Api.names` : what users can import, in the order in which it is listed
-/

namespace BalanceFit.Api

/-- The version of the library. -/
def version : String := "0.1.0"

/-- The public names. -/
def names : List String :=
  ["__version__", "NewtonFitter", "LinearFitter", "FitterConfig", "FitResult", "Converged",
    "Diverged", "DivergenceReason", "MaxIterationsExceeded", "InvalidStateError", "Observation",
    "ObservationStore", "VectorFnWithJacobian", "LinearModel", "LogisticModel", "PoissonModel"]

end BalanceFit.Api
