import RiscvMachine.Config.Basic
import RiscvMachine.Proofs.Alignment
import RiscvMachine.Proofs.Hart.Invariants

set_option autoImplicit false

/-! # The calls of an instruction, made again

An instruction acts on its bus by its calls alone, so making them again leaves the bus as the
instruction does (`Core.replay_calls`). All that is said of an instruction and its bus can thus be
said call by call (`BusCall.notes`).

Every call is naturally aligned (`Core.calls_aligned`), and the calls start with that of the fetch,
which lies in RAM (`Core.fetchCalls_eq`, `fetch_in_ram`).
-/

namespace RiscvMachine

namespace BusCall

/-- The access is naturally aligned; control registers have no alignment. -/
def Aligned : BusCall → Prop
  | .read width addr => width.aligned addr = true
  | .write width addr _ => width.aligned addr = true
  | .readCsr _ => True
  | .writeCsr _ _ => True

variable {σ α : Type} [Bus σ]

/-- The bus after the call, whether or not it fails. -/
def after (bus : σ) : BusCall → σ
  | .read width addr => stateOf (Bus.read width addr bus)
  | .write width addr value => stateOf (Bus.write width addr value bus)
  | .readCsr number => stateOf (Bus.readCsr number bus)
  | .writeCsr number value => stateOf (Bus.writeCsr number value bus)

def replay (bus : σ) (calls : List BusCall) : σ :=
  calls.foldl after bus

/-- What is noted of each call, given the bus that it finds. -/
def notes (note : σ → BusCall → List α) (bus : σ) : List BusCall → List α
  | [] => []
  | call :: rest => note bus call ++ notes note (after bus call) rest

theorem replay_append (bus : σ) (calls : List BusCall) (call : BusCall) :
    replay bus (calls ++ [call]) = after (replay bus calls) call := by
  rw [replay, List.foldl_append]
  rfl

end BusCall

namespace Core

variable {σ : Type} [Bus σ]

/-- The calls of an instruction, without what came of them. -/
def busCalls (c : Core σ) : List BusCall :=
  c.calls.map BusEvent.call

/-- The calls that the fetch of an instruction makes. -/
def fetchCalls (c : Core σ) : List BusEvent :=
  (stateOf (Exec.fetch c.traced)).bus.calls

omit [Bus σ] in
theorem stateOf_record {α : Type} (call : BusCall) (request : EStateM BusFault σ α)
    (t : Traced σ) : ∃ fault, stateOf (Traced.record call request t) =
      ⟨stateOf (request t.bus), t.calls ++ [⟨call, fault⟩]⟩ := by
  unfold Traced.record
  cases request t.bus with
  | ok value bus => exact ⟨none, rfl⟩
  | error fault bus => exact ⟨some fault, rfl⟩

/-- What holds of the calls made so far and of the bus that they have left, and is kept by every
further call, is kept by an instruction. -/
theorem traced_invariant {P : List BusCall → σ → Prop}
    (hcall : ∀ calls bus call, call.Aligned → P calls bus →
      P (calls ++ [call]) (BusCall.after bus call)) :
    Core.Invariant fun c : Core (Traced σ) => P (c.bus.calls.map BusEvent.call) c.bus.bus := by
  have hrecord {α : Type} {call : BusCall} {request : EStateM BusFault σ α} {t : Traced σ}
      (haligned : call.Aligned) (hafter : BusCall.after t.bus call = stateOf (request t.bus))
      (h : P (t.calls.map BusEvent.call) t.bus) :
      P ((stateOf (Traced.record call request t)).calls.map BusEvent.call)
        (stateOf (Traced.record call request t)).bus := by
    obtain ⟨fault, hstate⟩ := stateOf_record call request t
    rw [hstate, List.map_append, ← hafter]
    exact hcall _ _ call haligned h
  exact
    { hart := fun _ h => h
      read := fun haligned h => hrecord haligned rfl h
      write := fun value haligned h => hrecord haligned rfl h
      readCsr := fun number h => hrecord trivial rfl h
      writeCsr := fun number value h => hrecord trivial rfl h }

/-- Every call of an instruction is naturally aligned. -/
theorem calls_aligned (c : Core σ) : ∀ call ∈ c.busCalls, call.Aligned := by
  have hinvariant := traced_invariant (σ := σ)
    (P := fun calls _ => ∀ call ∈ calls, call.Aligned) fun calls bus call haligned h => by
      intro call' hmem
      rcases List.mem_append.mp hmem with hmem | hmem
      · exact h call' hmem
      · exact List.mem_singleton.mp hmem ▸ haligned
  exact hinvariant.after (c := c.traced) nofun

/-- The calls of an instruction, made again, leave the bus as the instruction does. -/
theorem replay_calls (c : Core σ) : BusCall.replay c.bus c.busCalls = c.after.bus := by
  have hinvariant := traced_invariant (σ := σ)
    (P := fun calls bus => BusCall.replay c.bus calls = bus) fun calls bus call _ h => by
      rw [BusCall.replay_append, h]
  rw [c.after_eq]
  exact hinvariant.after (c := c.traced) rfl

/-- An instruction starts with its fetch. -/
theorem fetchCalls_prefix (c : Core σ) : c.fetchCalls <+: c.calls := by
  have hstable : Core.Stable fun c' : Core (Traced σ) => c.fetchCalls <+: c'.bus.calls := by
    have hrecord {α : Type} {call : BusCall} {request : EStateM BusFault σ α} {t : Traced σ}
        (h : c.fetchCalls <+: t.calls) :
        c.fetchCalls <+: (stateOf (Traced.record call request t)).calls := by
      obtain ⟨fault, hstate⟩ := stateOf_record call request t
      rw [hstate]
      exact h.trans (List.prefix_append _ _)
    exact ⟨fun _ h => h, fun _ h => hrecord h, fun _ _ h => hrecord h, fun _ h => hrecord h,
      fun _ _ h => hrecord h⟩
  have hfetch : c.fetchCalls <+: (stateOf (Exec.fetch c.traced)).bus.calls := List.prefix_refl _
  unfold calls after
  simp only [Exec.executeOne_eq, Bind.bind, EStateM.bind]
  revert hfetch
  cases Exec.fetch c.traced with
  | ok word core => exact Exec.executeDecoded_keeps hstable word core
  | error why core => exact id

/-- A fetch makes no call, or reads the word at the program counter, which is aligned and below the
end of RAM. -/
theorem fetchCalls_eq (c : Core σ) :
    c.fetchCalls = [] ∨ ∃ fault, c.fetchCalls = [⟨.read .word c.hart.pc, fault⟩] ∧
      Width.word.aligned c.hart.pc = true ∧ c.hart.pc - ramBase < c.hart.ramSize := by
  unfold fetchCalls
  simp only [Exec.fetch, Exec.raise_bind, Exec.getHart_bind_apply]
  split
  · exact .inl rfl
  rename_i haligned
  split
  · exact .inl rfl
  rename_i hsize
  right
  have hrange : Width.word.aligned c.hart.pc = true ∧ c.hart.pc - ramBase < c.hart.ramSize :=
    ⟨Exec.aligned_word haligned, UInt32.not_le.mp hsize⟩
  simp only [Bind.bind, EStateM.bind, Exec.callBus, Bus.read, Traced.record, traced]
  cases Bus.read .word c.hart.pc c.bus with
  | ok word bus => exact ⟨none, rfl, hrange⟩
  | error fault bus => cases fault <;> exact ⟨_, rfl, hrange⟩

end Core

/-- A fetch lies wholly in RAM, if that is of a valid size. -/
theorem fetch_in_ram {pc ramSize : UInt32} (hwhole : ramSize % 4 = 0)
    (hle : ramSize ≤ maxRamSize) (haligned : Width.word.aligned pc = true)
    (hlt : pc - ramBase < ramSize) :
    ramBase.toNat ≤ pc.toNat ∧ pc.toNat + 4 ≤ ramBase.toNat + ramSize.toNat := by
  obtain ⟨k, hpc⟩ : 4 ∣ pc.toNat := Width.bytes_dvd_of_aligned haligned
  have hbase : ramBase.toNat = 2 ^ 31 := rfl
  have hmax : ramSize.toNat ≤ 2 ^ 31 := UInt32.le_iff_toNat_le.mp hle
  have hdvd : ramSize.toNat % 4 = 0 := by
    have hmod := congrArg UInt32.toNat hwhole
    rwa [UInt32.toNat_mod] at hmod
  rw [UInt32.lt_iff_toNat_lt, UInt32.toNat_sub] at hlt
  have hpcLt := pc.toNat_lt
  omega

end RiscvMachine
