import Mathlib.Algebra.Group.Nat.Defs
import Mathlib.Tactic.Basic

/-!
# Unsigned machine arithmetic

The additions and subtractions of a fixed width that do not wrap around.
-/

namespace Machine

abbrev U32 := BitVec 32

abbrev U64 := BitVec 64

variable {w : Nat}

/-- `saturating_add`. -/
def saturatingAdd (a b : BitVec w) : BitVec w :=
  if a.toNat + b.toNat < 2 ^ w then a + b else BitVec.allOnes w

/-- `saturating_sub`. -/
def saturatingSub (a b : BitVec w) : BitVec w :=
  if b.toNat ≤ a.toNat then a - b else 0#w

/-- `checked_add`. -/
def checkedAdd (a b : BitVec w) : Option (BitVec w) :=
  if a.toNat + b.toNat < 2 ^ w then some (a + b) else none

theorem toNat_add_of_lt {a b : BitVec w} (h : a.toNat + b.toNat < 2 ^ w) :
    (a + b).toNat = a.toNat + b.toNat := by
  rw [BitVec.toNat_add, Nat.mod_eq_of_lt h]

theorem toNat_saturatingAdd {a b : BitVec w} (h : a.toNat + b.toNat < 2 ^ w) :
    (saturatingAdd a b).toNat = a.toNat + b.toNat := by
  unfold saturatingAdd
  rw [if_pos h, toNat_add_of_lt h]

theorem toNat_saturatingSub (a b : BitVec w) :
    (saturatingSub a b).toNat = a.toNat - b.toNat := by
  unfold saturatingSub
  by_cases h : b.toNat ≤ a.toNat
  · rw [if_pos h, BitVec.toNat_sub_of_le (BitVec.le_def.mpr h)]
  · rw [if_neg h, BitVec.toNat_ofNat, Nat.zero_mod]
    omega

theorem checkedAdd_eq_some {a b c : BitVec w} :
    checkedAdd a b = some c ↔ a.toNat + b.toNat = c.toNat := by
  unfold checkedAdd
  constructor
  · intro h
    split at h
    · rename_i hlt
      rw [← Option.some.inj h, toNat_add_of_lt hlt]
    · cases h
  · intro h
    have hlt : a.toNat + b.toNat < 2 ^ w := by
      rw [h]
      exact c.isLt
    rw [if_pos hlt]
    congr 1
    apply BitVec.eq_of_toNat_eq
    rw [toNat_add_of_lt hlt, h]

theorem checkedAdd_eq_none {a b : BitVec w} : checkedAdd a b = none ↔ 2 ^ w ≤ a.toNat + b.toNat := by
  unfold checkedAdd
  constructor
  · intro h
    split at h
    · cases h
    · omega
  · intro h
    rw [if_neg (by omega)]

end Machine
