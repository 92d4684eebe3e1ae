import BalanceFit.Text.Hidden

/-!
# Texts in quotes

A text is written in single quotes, or in double ones if it holds single and no double quotes.
Inside, a backslash is written before the quote in use and before a backslash. Line breaks and tabs
are written as a backslash and a letter, and all other hidden characters as a backslash, a letter
and their code points in hexadecimal digits.

## Main definitions

* `Text.quoted` : a text in quotes
-/

namespace BalanceFit.Text

/-- The hexadecimal digits of a number, with zeros in front up to a width. -/
def hexDigits (width n : Nat) : List Char :=
  let digits := Nat.toDigits 16 n
  List.replicate (width - digits.length) '0' ++ digits

/-- A character by its code point, in two, four or eight digits as it needs. -/
def codeEscape (c : Char) : List Char :=
  let n := c.toNat
  if n < 0x100 then '\\' :: 'x' :: hexDigits 2 n
  else if n < 0x10000 then '\\' :: 'u' :: hexDigits 4 n
  else '\\' :: 'U' :: hexDigits 8 n

/-- A character of a text between quotes. -/
def escape (quote c : Char) : List Char :=
  if c = quote || c = '\\' then ['\\', c]
  else if c = '\n' then ['\\', 'n']
  else if c = '\r' then ['\\', 'r']
  else if c = '\t' then ['\\', 't']
  else if isHidden c then codeEscape c
  else [c]

/-- A text in quotes. -/
def quoted (s : String) : String :=
  let quote := if s.contains '\'' && !s.contains '"' then '"' else '\''
  String.ofList (quote :: s.toList.flatMap (escape quote) ++ [quote])

end BalanceFit.Text
