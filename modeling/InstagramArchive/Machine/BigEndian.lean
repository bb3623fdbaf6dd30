import Mathlib.Data.UInt

/-!
# Big-endian bytes

A number as a given count of bytes, most significant first.
-/

namespace Machine

/-- The last `k` bytes of `n`. -/
def beBytes : Nat → Nat → List UInt8
  | 0, _ => []
  | k + 1, n => beBytes k (n / 256) ++ [UInt8.ofNat n]

/-- The number that bytes stand for. -/
def ofBeBytes (bytes : List UInt8) : Nat :=
  bytes.foldl (fun n byte => n * 256 + byte.toNat) 0

theorem beBytes_length (k n : Nat) : (beBytes k n).length = k := by
  induction k generalizing n with
  | zero => rfl
  | succ k ih =>
    unfold beBytes
    rw [List.length_append, ih]
    rfl

theorem ofBeBytes_concat (bytes : List UInt8) (byte : UInt8) :
    ofBeBytes (bytes ++ [byte]) = ofBeBytes bytes * 256 + byte.toNat := by
  unfold ofBeBytes
  rw [List.foldl_append]
  rfl

theorem ofBeBytes_beBytes (k n : Nat) : ofBeBytes (beBytes k n) = n % 256 ^ k := by
  induction k generalizing n with
  | zero => simp [beBytes, ofBeBytes, Nat.mod_one]
  | succ k ih =>
    unfold beBytes
    rw [ofBeBytes_concat, ih, Nat.pow_succ', Nat.mod_mul, UInt8.toNat_ofNat']
    omega

theorem beBytes_ofBeBytes (bytes : List UInt8) :
    beBytes bytes.length (ofBeBytes bytes) = bytes := by
  induction bytes using List.reverseRecOn with
  | nil => rfl
  | append_singleton bytes byte ih =>
    have hbyte : byte.toNat < 256 := byte.toNat_lt
    have hlow : UInt8.ofNat (ofBeBytes bytes * 256 + byte.toNat) = byte := by
      apply UInt8.toNat_inj.mp
      rw [UInt8.toNat_ofNat']
      omega
    have hhigh : (ofBeBytes bytes * 256 + byte.toNat) / 256 = ofBeBytes bytes := by omega
    rw [List.length_append, List.length_singleton, ofBeBytes_concat]
    unfold beBytes
    rw [hlow, hhigh, ih]

theorem ofBeBytes_lt (bytes : List UInt8) : ofBeBytes bytes < 256 ^ bytes.length := by
  rw [← beBytes_ofBeBytes bytes, ofBeBytes_beBytes, beBytes_length]
  exact Nat.mod_lt _ (Nat.pow_pos (by decide))

/-- Numbers that fit are told apart by their bytes. -/
theorem beBytes_inj {k n m : Nat} (hn : n < 256 ^ k) (hm : m < 256 ^ k)
    (h : beBytes k n = beBytes k m) : n = m := by
  have hvalue := congrArg ofBeBytes h
  rw [ofBeBytes_beBytes, ofBeBytes_beBytes, Nat.mod_eq_of_lt hn, Nat.mod_eq_of_lt hm] at hvalue
  exact hvalue

end Machine
