import Mathlib
import RiscvMachine.Config.Basic
import RiscvMachine.Proofs.Cache.Geometry
import RiscvMachine.Proofs.Panic

set_option autoImplicit false

/-! # Valid configurations

What validation checks, as a list of facts (`Config.Accepted`), and what follows for the parts that
are built from a configuration. It asks for no more bytes in the units than 64 bits can count, but
leaves open how large a line is, which stands apart (`Config.InMemory`).
-/

namespace RiscvMachine

namespace Config

structure Accepted (c : Config) : Prop where
  ramSize_ne_zero : c.ramSize ≠ 0
  ramSize_mod_four : c.ramSize % 4 = 0
  ramSize_le : c.ramSize ≤ maxRamSize
  units_lt : c.backing.unitCount.toNat * c.backing.unitCapacity.toNat < 2 ^ 64
  ramSize_le_units :
    c.ramSize.toNat ≤ c.backing.unitCount.toNat * c.backing.unitCapacity.toNat
  four_le_lineSize : 4 ≤ c.cache.lineSize
  lineSize_isPowerOfTwo : c.cache.lineSize.toNat.isPowerOfTwo
  lineCount_isPowerOfTwo : c.cache.lineCount.toNat.isPowerOfTwo
  instructionsPerBatch_ne_zero : c.instructionsPerBatch ≠ 0
  timeDivisor_ne_zero : c.timeDivisor ≠ 0
  imageChunkSize_ne_zero : c.imageChunkSize ≠ 0

/-- A check that is passed. -/
theorem ite_error_eq_ok_iff {ε α : Type} {p : Prop} [Decidable p] {error : ε} {a : α}
    {rest : Except ε α} :
    (if p then Except.error error else rest) = .ok a ↔ ¬ p ∧ rest = .ok a := by
  by_cases hp : p
  · simp [hp]
  · simp [hp]

/-- The total is told just if it is less than 2^64, and then exactly. -/
theorem totalCapacity_eq {b : BackingConfig}
    (h : b.unitCount.toNat * b.unitCapacity.toNat < 2 ^ 64) :
    ∃ capacity, b.totalCapacity = .ok capacity ∧
      capacity.toNat = b.unitCount.toNat * b.unitCapacity.toNat :=
  ⟨_, if_pos h, UInt64.toNat_ofNat_of_lt h⟩

/-- RAM finds room in the units just if their bytes can be counted and are enough. -/
theorem room_iff (c : Config) :
    (∃ capacity, c.backing.totalCapacity = .ok capacity ∧ ¬ capacity < c.ramSize.toUInt64) ↔
      c.backing.unitCount.toNat * c.backing.unitCapacity.toNat < 2 ^ 64 ∧
        c.ramSize.toNat ≤ c.backing.unitCount.toNat * c.backing.unitCapacity.toNat := by
  constructor
  · rintro ⟨capacity, htotal, hle⟩
    obtain ⟨hlt, hexact⟩ := Checked.multiply_eq_ok htotal
    rw [UInt64.not_lt, UInt64.le_iff_toNat_le, hexact, UInt32.toNat_toUInt64] at hle
    exact ⟨hlt, hle⟩
  · rintro ⟨hlt, hle⟩
    obtain ⟨capacity, htotal, hexact⟩ := totalCapacity_eq hlt
    refine ⟨capacity, htotal, ?_⟩
    rw [UInt64.not_lt, UInt64.le_iff_toNat_le, hexact, UInt32.toNat_toUInt64]
    exact hle

/-- Validation accepts just the configurations that meet the conditions. -/
theorem validate_eq_ok_iff (c : Config) : c.validate = .ok () ↔ c.Accepted := by
  have hroom := c.room_iff
  unfold validate
  cases htotal : c.backing.totalCapacity with
  | error why =>
      simp only [htotal, reduceCtorEq, false_and, exists_false, false_iff] at hroom
      simp only [Except.mapError, bind, Except.bind, throw, throwThe, MonadExceptOf.throw,
        ite_error_eq_ok_iff, reduceCtorEq, and_false, false_iff]
      exact fun h => hroom ⟨h.units_lt, h.ramSize_le_units⟩
  | ok capacity =>
      simp only [htotal, Except.ok.injEq, exists_eq_left'] at hroom
      simp only [Except.mapError, bind, Except.bind, pure, Except.pure, throw, throwThe,
        MonadExceptOf.throw, ite_error_eq_ok_iff, Bool.not_eq_true', ne_eq, not_or,
        UInt32.not_lt, Bool.not_eq_false, Decidable.not_not, isPowerOfTwo_iff, and_true, hroom]
      constructor
      · rintro ⟨⟨h₁, h₂⟩, h₃, ⟨h₄, h₅⟩, ⟨h₆, h₇⟩, h₈, h₉, h₁₀, h₁₁⟩
        exact ⟨h₁, h₂, h₃, h₄, h₅, UInt64.not_lt.mp h₆, h₇, h₈, h₉, h₁₀, h₁₁⟩
      · rintro ⟨h₁, h₂, h₃, h₄, h₅, h₆, h₇, h₈, h₉, h₁₀, h₁₁⟩
        exact ⟨⟨h₁, h₂⟩, h₃, ⟨h₄, h₅⟩, ⟨UInt64.not_lt.mpr h₆, h₇⟩, h₈, h₉, h₁₀, h₁₁⟩

/-- Units in host memory, and lines of which an address can tell the bytes apart. -/
structure InMemory (c : Config) : Prop where
  kind : c.backing.kind = .memory
  lineSize_le : c.cache.lineSize.toNat ≤ 2 ^ 31

/-- There is a unit. -/
theorem Accepted.unitCount_pos {c : Config} (h : c.Accepted) : 0 < c.backing.unitCount.toNat := by
  apply Nat.pos_of_ne_zero
  intro hzero
  have hle := h.ramSize_le_units
  rw [hzero, Nat.zero_mul, Nat.le_zero] at hle
  exact h.ramSize_ne_zero (UInt32.toNat_inj.mp hle)

end Config

end RiscvMachine
