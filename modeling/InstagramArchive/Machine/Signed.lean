import InstagramArchive.Machine.Unsigned
import Mathlib.Algebra.Group.Int.Defs

/-!
# Signed machine arithmetic

Products and powers in two's complement that say when they leave their width.
-/

namespace Machine

abbrev I64 := BitVec 64

variable {w : Nat}

/-- `checked_mul`. -/
def checkedMul (a b : BitVec w) : Option (BitVec w) :=
  if -2 ^ (w - 1) ≤ a.toInt * b.toInt ∧ a.toInt * b.toInt < 2 ^ (w - 1) then some (a * b) else none

/-- `saturating_mul`. -/
def saturatingMul (a b : BitVec w) : BitVec w :=
  match checkedMul a b with
  | some product => product
  | none => if a.toInt * b.toInt < 0 then BitVec.intMin w else BitVec.intMax w

/-- `checked_pow`: `none` when a product on the way overflows. -/
def checkedPow (base : BitVec w) : Nat → Option (BitVec w)
  | 0 => some 1
  | n + 1 => (checkedPow base n).bind fun power => checkedMul power base

/-- `min` of signed integers. -/
def signedMin (a b : BitVec w) : BitVec w := if a.sle b then a else b

end Machine
