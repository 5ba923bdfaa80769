import Mathlib
import RiscvMachine.Panic

set_option autoImplicit false

/-! # Sizes that are reckoned with

An operation in 64 bits has a value as long as that is below 2^64, and it is the exact one
(`add_of_lt`, `multiply_eq_ok`). Memory that has been asked for is less than 2^63 bytes
(`allocate_eq_ok`).
-/

namespace RiscvMachine

/-- Both parts of what has a value have one. -/
theorem ok_of_except_bind {ε α β : Type} {x : Except ε α} {f : α → Except ε β} {b : β}
    (h : (x >>= f) = .ok b) : ∃ a, x = .ok a ∧ f a = .ok b := by
  cases x with
  | error e => cases h
  | ok a => exact ⟨a, rfl, h⟩

theorem ok_of_mapError {ε ε' α : Type} {f : ε → ε'} {x : Except ε α} {a : α}
    (h : x.mapError f = .ok a) : x = .ok a := by
  cases x with
  | error e => cases h
  | ok b =>
      cases h
      rfl

namespace Checked

theorem add_of_lt {a b : Nat} (h : a + b < 2 ^ 64) : add a b = .ok (UInt64.ofNat (a + b)) :=
  if_pos h

theorem add_of_le {a b : Nat} (h : 2 ^ 64 ≤ a + b) : add a b = .error .addition :=
  if_neg (Nat.not_lt.mpr h)

theorem multiply_of_lt {a b : Nat} (h : a * b < 2 ^ 64) :
    multiply a b = .ok (UInt64.ofNat (a * b)) :=
  if_pos h

theorem multiply_eq_ok {a b : Nat} {product : UInt64} (h : multiply a b = .ok product) :
    a * b < 2 ^ 64 ∧ product.toNat = a * b := by
  unfold multiply at h
  split at h
  · rename_i hlt
    cases h
    exact ⟨hlt, UInt64.toNat_ofNat_of_lt hlt⟩
  · cases h

theorem allocate_of_lt {count size : Nat} (h : count * size < 2 ^ 63) :
    allocate count size = .ok () :=
  if_pos h

theorem allocate_eq_ok {count size : Nat} (h : allocate count size = .ok ()) :
    count * size < 2 ^ 63 := by
  unfold allocate at h
  split at h
  · assumption
  · cases h

end Checked

end RiscvMachine
