import Mathlib

/-!
# Big-endian bytes

A number in a fixed count of bytes, the most significant first.
-/

namespace SharedContext.BigEndian

def toBytes : Nat → Nat → List UInt8
  | 0, _ => []
  | count + 1, value => toBytes count (value / 256) ++ [UInt8.ofNat value]

/-- The number that bytes stand for. -/
def ofBytes (bytes : List UInt8) : Nat :=
  bytes.foldl (fun value byte => value * 256 + byte.toNat) 0

@[simp]
theorem length_toBytes (count value : Nat) : (toBytes count value).length = count := by
  induction count generalizing value with
  | zero => rfl
  | succ count ih => rw [toBytes, List.length_append, ih, List.length_singleton]

@[simp]
theorem ofBytes_toBytes (count value : Nat) :
    ofBytes (toBytes count value) = value % 256 ^ count := by
  induction count generalizing value with
  | zero => simp [toBytes, ofBytes, Nat.mod_one]
  | succ count ih =>
      have last : (UInt8.ofNat value).toNat = value % 256 := by simp
      rw [toBytes, ofBytes, List.foldl_append, ← ofBytes, ih, List.foldl_cons, List.foldl_nil,
        last, pow_succ, Nat.mul_comm (256 ^ count), Nat.mod_mul]
      omega

end SharedContext.BigEndian
