import Mathlib.Algebra.Order.Ring.Nat

/-!
# Capped geometric waits

The `n`-th wait is a base times a power of a ratio, never above a cap. An implementation clamps the
exponent; that changes nothing when the cap has won by then.
-/

namespace Machine

/-- The wait of exponent `n`. -/
def cappedWait (base ratio cap n : Nat) : Nat := min (base * ratio ^ n) cap

/-- The same wait computed with a clamped exponent. -/
def clampedWait (clamp base ratio cap n : Nat) : Nat := min (base * ratio ^ min n clamp) cap

section Waits

variable {base ratio cap clamp n m : Nat}

theorem cappedWait_le_cap : cappedWait base ratio cap n ≤ cap := min_le_right ..

theorem cappedWait_mono (hratio : 1 ≤ ratio) (h : n ≤ m) :
    cappedWait base ratio cap n ≤ cappedWait base ratio cap m := by
  unfold cappedWait
  have hpow : base * ratio ^ n ≤ base * ratio ^ m :=
    Nat.mul_le_mul_left base (Nat.pow_le_pow_right hratio h)
  omega

/-- From an exponent at which the cap has won, it wins. -/
theorem cappedWait_eq_cap (hratio : 1 ≤ ratio) (hcap : cap ≤ base * ratio ^ clamp) (h : clamp ≤ n) :
    cappedWait base ratio cap n = cap := by
  have hpow : base * ratio ^ clamp ≤ base * ratio ^ n :=
    Nat.mul_le_mul_left base (Nat.pow_le_pow_right hratio h)
  exact min_eq_right (hcap.trans hpow)

/-- The clamp is invisible. -/
theorem clampedWait_eq (hratio : 1 ≤ ratio) (hcap : cap ≤ base * ratio ^ clamp) :
    clampedWait clamp base ratio cap n = cappedWait base ratio cap n := by
  unfold clampedWait
  rcases Nat.le_total n clamp with h | h
  · rw [min_eq_left h]
    rfl
  · rw [min_eq_right h, min_eq_right hcap, cappedWait_eq_cap hratio hcap h]

end Waits

end Machine
