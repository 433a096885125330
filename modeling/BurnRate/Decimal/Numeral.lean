import BurnRate.Decimal.Shortest

/-!
Numerals: how a number is written with digits and a point, never an exponent, and how a numeral
with sign, point and exponent is read.
-/

namespace BurnRate.Decimal

/-- Plain decimal digits, with a point where the exponent is negative. -/
def Scaled.numeral (s : Scaled) : List Char :=
  let ds := Nat.toDigits 10 s.digits
  if 0 ≤ s.exponent then ds ++ List.replicate s.exponent.toNat '0'
  else
    let places := (-s.exponent).toNat
    let padded := List.replicate (places + 1 - ds.length) '0' ++ ds
    padded.take (padded.length - places) ++ '.' :: padded.drop (padded.length - places)

/-- The number in the fewest digits that read back as it; zero keeps its sign. -/
def Binary.numeral : Binary → List Char
  | .nan => ['N', 'a', 'N']
  | .infinite negative => (if negative then ['-'] else []) ++ ['i', 'n', 'f']
  | .finite negative m q =>
    (if negative then ['-'] else []) ++ if m = 0 then ['0'] else (shortest m q).numeral

/-- The shortest plain numeral of a number. -/
def numeral (x : Float) : String := String.ofList (Binary.ofFloat x).numeral

/-- As `numeral`, but a whole number ends in `.0`. -/
def pointedNumeral (x : Float) : String :=
  let cs := (Binary.ofFloat x).numeral
  if cs.all (fun c => c.isDigit || c == '-') then String.ofList (cs ++ ['.', '0'])
  else String.ofList cs

/-- Value of a run of decimal digits. -/
def digitsValue (ds : List Char) : Nat := ds.foldl (fun n c => 10 * n + (c.toNat - 48)) 0

/-- Splits a numeral's text without sign into whole digits, fraction digits and exponent. -/
def splitNumeral? (cs : List Char) : Option (List Char × List Char × Int) := do
  let whole := cs.takeWhile Char.isDigit
  let rest := cs.dropWhile Char.isDigit
  let (fraction, rest) := match rest with
    | '.' :: r => (r.takeWhile Char.isDigit, r.dropWhile Char.isDigit)
    | r => ([], r)
  if whole.isEmpty && fraction.isEmpty then none
  match rest with
  | [] => some (whole, fraction, 0)
  | c :: r =>
    if c != 'e' && c != 'E' then none
    let (negative, ds) := match r with
      | '-' :: ds => (true, ds)
      | '+' :: ds => (false, ds)
      | ds => (false, ds)
    if ds.isEmpty || !ds.all Char.isDigit then none
    let e : Int := digitsValue ds
    some (whole, fraction, if negative then -e else e)

/-- The number nearest to `m · 10^e`. Beyond the range of numbers nothing is computed. -/
def nearest (m : Nat) (e : Int) : Float :=
  let size : Int := (Nat.toDigits 10 m).length
  if m = 0 || e + size < -330 then 0
  else if 310 < e + size then 1 / 0
  else if 0 ≤ e then Float.ofScientific m false e.toNat
  else Float.ofScientific m true (-e).toNat

/-- The number nearest to a decimal numeral, if the text is one and the number is finite. -/
def read? (cs : List Char) : Option Float := do
  let (negative, ds) := match cs with
    | '-' :: ds => (true, ds)
    | '+' :: ds => (false, ds)
    | ds => (false, ds)
  let (whole, fraction, e) ← splitNumeral? ds
  let x := nearest (digitsValue (whole ++ fraction)) (e - fraction.length)
  if x.isFinite then some (if negative then -x else x) else none

end BurnRate.Decimal
