/-!
What a binary floating point number denotes: nothing, an infinity, or `± m · 2^q` exactly.
-/

namespace BurnRate.Decimal

inductive Binary where
  | nan
  | infinite (negative : Bool)
  | finite (negative : Bool) (m : Nat) (q : Int)
  deriving DecidableEq, Repr

/-- Reads the three fields of a binary64 word: sign, eleven bits of exponent, 52 of fraction. -/
def Binary.ofBits (w : UInt64) : Binary :=
  let n : Nat := w.toNat
  let negative : Bool := n / 0x8000000000000000 == 1
  let exponent : Nat := n / 0x10000000000000 % 0x800
  let fraction : Nat := n % 0x10000000000000
  if exponent = 2047 then
    if fraction = 0 then .infinite negative else .nan
  else if exponent = 0 then .finite negative fraction (-1074)
  else .finite negative (0x10000000000000 + fraction) (exponent - 1075)

def Binary.ofFloat (x : Float) : Binary := .ofBits x.toBits

/-- The number has neighbours at unequal distances: it is a power of two above the smallest. -/
def Binary.isBoundary (m : Nat) (q : Int) : Bool := m == 0x10000000000000 && decide (-1074 < q)

/-- The number is at least zero, of either sign, and less than one. -/
def Binary.isFraction : Binary → Bool
  | .finite negative m q => (!negative || m == 0) && (m == 0 || (q < 0 && m < Nat.pow 2 (-q).toNat))
  | _ => false

end BurnRate.Decimal
