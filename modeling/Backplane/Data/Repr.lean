import Mathlib.Data.Nat.Notation

/-!
# Python text

How the router's error messages render the values they mention.

* `pyRepr` : `repr` of a string; `isPrintable` is `str.isprintable` on one character.
* `pyReprOption`, `pyReprList` : `repr` of an optional string and of a list of strings.
* `twoDecimals` : `:.2f` of a number given in hundredths.
-/

namespace Backplane

/-- `n` in hexadecimal, padded with zeros to `w` digits. -/
def hexPadded (w n : ℕ) : List Char :=
  let ds := Nat.toDigits 16 n
  List.replicate (w - ds.length) '0' ++ ds

/-- One character as `repr` renders it between quotes `q`. -/
def pyReprChar (isPrintable : Char → Bool) (q c : Char) : List Char :=
  if c = q ∨ c = '\\' then ['\\', c]
  else if c = '\t' then ['\\', 't']
  else if c = '\n' then ['\\', 'n']
  else if c = '\r' then ['\\', 'r']
  else if isPrintable c then [c]
  else if c.toNat < 256 then '\\' :: 'x' :: hexPadded 2 c.toNat
  else if c.toNat < 65536 then '\\' :: 'u' :: hexPadded 4 c.toNat
  else '\\' :: 'U' :: hexPadded 8 c.toNat

/-- `repr` of a string: in double quotes if it contains single quotes and no double ones. -/
def pyRepr (isPrintable : Char → Bool) (s : String) : String :=
  let q := if '\'' ∈ s.toList ∧ '"' ∉ s.toList then '"' else '\''
  String.ofList (q :: s.toList.flatMap (pyReprChar isPrintable q) ++ [q])

/-- `repr` of an optional string. -/
def pyReprOption (isPrintable : Char → Bool) : Option String → String
  | none => "None"
  | some s => pyRepr isPrintable s

/-- `repr` of a list of strings. -/
def pyReprList (isPrintable : Char → Bool) (l : List String) : String :=
  "[" ++ ", ".intercalate (l.map (pyRepr isPrintable)) ++ "]"

/-- A number of hundredths with two decimals. -/
def twoDecimals (n : ℕ) : String :=
  toString (n / 100) ++ "." ++ toString (n % 100 / 10) ++ toString (n % 10)

end Backplane
