import RiscvMachine.Proofs.Hart.Edits

set_option autoImplicit false

/-! # Invariants of a hart and its bus

No instruction changes the fault policy of the hart or the size of RAM that it knows. So what is
said of these two and of the bus, and is kept by every aligned call on the bus (`Core.Invariant`),
is kept by every instruction (`Core.Invariant.after`).
-/

namespace RiscvMachine

/-- Policy and RAM size are those of `h`. -/
structure Hart.Remains (h h' : Hart) : Prop where
  faultPolicy : h'.faultPolicy = h.faultPolicy
  ramSize : h'.ramSize = h.ramSize

theorem Hart.Remains.refl (h : Hart) : h.Remains h := ⟨rfl, rfl⟩

theorem Hart.Remains.trans {h h' h'' : Hart} (hfirst : h.Remains h') (hsecond : h'.Remains h'') :
    h.Remains h'' :=
  ⟨hsecond.faultPolicy.trans hfirst.faultPolicy, hsecond.ramSize.trans hfirst.ramSize⟩

/-- Writing a register and the program counter changes neither. -/
theorem Hart.remains_setRegister (h : Hart) (rd : RegIndex) (value pc : UInt32) :
    h.Remains { h.setRegister rd value with pc := pc } := by
  unfold setRegister
  split <;> exact ⟨rfl, rfl⟩

theorem Hart.Edit.remains {h h' : Hart} (hedit : h.Edit h') : h.Remains h' := by
  obtain ⟨change, rfl⟩ := hedit
  cases change with
  | finish rd value => exact h.remains_setRegister rd value _
  | link rd target => exact h.remains_setRegister rd _ target
  | drop addr =>
      simp only [Change.apply]
      split <;> exact ⟨rfl, rfl⟩
  | _ => exact ⟨rfl, rfl⟩

/-- `P` says nothing of the hart but of its policy and its RAM size, and every call on the bus keeps
it. -/
structure Core.Invariant {σ : Type} [Bus σ] (P : Core σ → Prop) : Prop where
  hart {h h' : Hart} {bus : σ} : h.Remains h' → P ⟨h, bus⟩ → P ⟨h', bus⟩
  read {width : Width} {addr : UInt32} {h : Hart} {bus : σ} : width.aligned addr →
    P ⟨h, bus⟩ → P ⟨h, stateOf (Bus.read width addr bus)⟩
  write {width : Width} {addr : UInt32} {h : Hart} {bus : σ} (value : UInt32) :
    width.aligned addr → P ⟨h, bus⟩ → P ⟨h, stateOf (Bus.write width addr value bus)⟩
  readCsr {h : Hart} {bus : σ} (number : UInt32) :
    P ⟨h, bus⟩ → P ⟨h, stateOf (Bus.readCsr number bus)⟩
  writeCsr {h : Hart} {bus : σ} (number value : UInt32) :
    P ⟨h, bus⟩ → P ⟨h, stateOf (Bus.writeCsr number value bus)⟩

theorem Core.Invariant.stable {σ : Type} [Bus σ] {P : Core σ → Prop} (hP : Core.Invariant P) :
    Core.Stable P where
  edit hedit := hP.hart hedit.remains
  read := hP.read
  write := hP.write
  readCsr := hP.readCsr
  writeCsr := hP.writeCsr

theorem Exec.executeOne_behaves {σ : Type} [Bus σ] {P : Core σ → Prop} (hP : Core.Invariant P) :
    Behaves P (executeOne : Exec σ Flow) :=
  executeOne_closed (behaves_closed hP.stable) fun core h =>
    .ok (hP.hart (h := core.hart) ⟨rfl, rfl⟩ h)

/-- An instruction keeps every invariant, whether or not it retires. -/
theorem Core.Invariant.after {σ : Type} [Bus σ] {P : Core σ → Prop} (hP : Core.Invariant P)
    {c : Core σ} (h : P c) : P c.after :=
  (Exec.executeOne_behaves hP).keeps c h

end RiscvMachine
