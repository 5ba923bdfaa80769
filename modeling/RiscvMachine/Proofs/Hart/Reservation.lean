import RiscvMachine.Proofs.Alignment
import RiscvMachine.Proofs.Hart.PreciseTraps

set_option autoImplicit false

/-! # Reservations

A reservation is made by a load-reserved that retires, and by nothing else. It lasts as long as
no such load, no store-conditional and no write to the reserved word comes between
(`Core.after_reserves`), and a store-conditional uses it up
(`Core.Fetches.storeConditional_reservation`).

The instructions are put together from computations that spare the reservation
(`Exec.Spares`): they may drop it, and while they keep it they write nothing to its word. Stores
drop the reservation before they write, and atomic updates after they have written; either way
the two steps spare it together, though the write alone does not.
-/

namespace RiscvMachine

/-! ## Calls that write a word -/

/-- The call writes the byte at address `a`. -/
def BusCall.Covers : BusCall → Nat → Prop
  | .write width addr _, a => addr.toNat ≤ a ∧ a < addr.toNat + width.bytes
  | _, _ => False

/-- The call was completed and has written the byte at address `a`. -/
def BusEvent.Writes (event : BusEvent) (a : Nat) : Prop :=
  event.fault = none ∧ event.call.Covers a

/-- One of the calls has written a byte of the word at `addr`. -/
def Overwrites (calls : List BusEvent) (addr : UInt32) : Prop :=
  ∃ event ∈ calls, ∃ i < 4, event.Writes (addr.toNat + i)

theorem overwrites_append {calls calls' : List BusEvent} {addr : UInt32} :
    Overwrites (calls ++ calls') addr ↔ Overwrites calls addr ∨ Overwrites calls' addr := by
  constructor
  · rintro ⟨event, hevent, hwrites⟩
    rcases List.mem_append.mp hevent with hevent | hevent
    · exact .inl ⟨event, hevent, hwrites⟩
    · exact .inr ⟨event, hevent, hwrites⟩
  · rintro (⟨event, hevent, hwrites⟩ | ⟨event, hevent, hwrites⟩)
    · exact ⟨event, List.mem_append_left _ hevent, hwrites⟩
    · exact ⟨event, List.mem_append_right _ hevent, hwrites⟩

theorem NoWrites.not_overwrites {calls : List BusEvent} (h : NoWrites calls) (addr : UInt32) :
    ¬ Overwrites calls addr := by
  rintro ⟨event, hevent, i, hi, hfault, hcovers⟩
  have hquiet := h event hevent
  revert hquiet hcovers
  cases event.call with
  | write width addr' value => exact fun _ hquiet => nomatch hquiet
  | read width addr' => exact fun hcovers _ => hcovers
  | readCsr number => exact fun hcovers _ => hcovers
  | writeCsr number value => exact fun hcovers _ => hcovers

/-- An aligned write overwrites no other word than its own, and none at all if it fails. -/
theorem overwrites_write {width : Width} {addr value word : UInt32} {fault : Option BusFault}
    (haligned : width.aligned addr) (hword : Width.word.aligned word)
    (h : Overwrites [⟨.write width addr value, fault⟩] word) :
    fault = none ∧ addr &&& 0xFFFFFFFC = word := by
  obtain ⟨event, hevent, i, hi, hfault, hcovers⟩ := h
  obtain rfl := List.mem_singleton.mp hevent
  obtain ⟨hfrom, hto⟩ := hcovers
  exact ⟨hfault, Width.word_of_mem haligned hword hi hfrom hto⟩

/-- The hart after an instruction that has a result. -/
def Hart.finished (h : Hart) (rd : RegIndex) (value : UInt32) : Hart :=
  { h.setRegister rd value with pc := h.pc + 4 }

/-- The hart after a store-conditional that has come to an answer. -/
def Hart.afterConditional (h : Hart) (rd : RegIndex) (answer : UInt32) : Hart :=
  { h.counted with reservation := none }.finished rd answer

theorem Hart.Change.Frees.reservation_ne {addr : UInt32} {change : Change}
    (hfrees : change.Frees addr) (h : Hart) : (change.apply h).reservation ≠ some addr := by
  cases hfrees with
  | release => exact (Option.some_ne_none addr).symm
  | drop =>
      simp only [Change.apply]
      split
      · exact (Option.some_ne_none addr).symm
      · assumption

@[simp] theorem Hart.reservation_setRegister (h : Hart) (rd : RegIndex) (value : UInt32) :
    (h.setRegister rd value).reservation = h.reservation := by
  unfold setRegister
  split <;> rfl

/-! ## Computations that spare the reservation -/

namespace Exec

variable {σ : Type} {α β : Type}

/-- The reservation is gone, or it is the same and nothing has been written to its word. -/
def Spared (core core' : Core (Traced σ)) : Prop :=
  core'.hart.reservation = none ∨
    core'.hart.reservation = core.hart.reservation ∧
      ∃ calls, core'.bus.calls = core.bus.calls ++ calls ∧
        ∀ addr, core.hart.reservation = some addr → Width.word.aligned addr →
          ¬ Overwrites calls addr

theorem Spared.trans {core core' core'' : Core (Traced σ)} (h : Spared core core')
    (h' : Spared core' core'') : Spared core core'' := by
  rcases h' with hgone | ⟨hsame', calls', hlog', hspared'⟩
  · exact .inl hgone
  rcases h with hgone | ⟨hsame, calls, hlog, hspared⟩
  · exact .inl (hsame'.trans hgone)
  right
  refine ⟨hsame'.trans hsame, calls ++ calls', by rw [hlog', hlog, List.append_assoc], ?_⟩
  intro addr haddr haligned hover
  rcases overwrites_append.mp hover with hover | hover
  · exact hspared addr haddr haligned hover
  · exact hspared' addr (hsame.trans haddr) haligned hover

/-- What is reserved afterwards was reserved before, and its word has not been written. -/
theorem Spared.of_some {core core' : Core (Traced σ)} {addr : UInt32} (h : Spared core core')
    (hkept : core'.hart.reservation = some addr) :
    core.hart.reservation = some addr ∧ ∃ calls, core'.bus.calls = core.bus.calls ++ calls ∧
      (Width.word.aligned addr → ¬ Overwrites calls addr) := by
  rcases h with hgone | ⟨hsame, calls, hlog, hclean⟩
  · rw [hkept] at hgone
    cases hgone
  · have hreserved : core.hart.reservation = some addr := hsame.symm.trans hkept
    exact ⟨hreserved, calls, hlog, hclean addr hreserved⟩

/-- Nothing is written. -/
theorem Spared.of_noWrites {core core' : Core (Traced σ)} {calls : List BusEvent}
    (hcalls : NoWrites calls) (hsame : core'.hart.reservation = core.hart.reservation)
    (hlog : core'.bus.calls = core.bus.calls ++ calls) : Spared core core' :=
  .inr ⟨hsame, calls, hlog, fun addr _ _ => hcalls.not_overwrites addr⟩

/-- The computation spares the reservation, whether it succeeds or fails. -/
def Spares (x : Exec (Traced σ) α) : Prop :=
  ∀ core, Spared core (stateOf (x core))

theorem Spared.bind {x : Exec (Traced σ) α} {f : α → Exec (Traced σ) β} {core : Core (Traced σ)}
    (hx : Spared core (stateOf (x core))) (hf : ∀ a, Spares (f a)) :
    Spared core (stateOf ((x >>= f) core)) := by
  simp only [Bind.bind, EStateM.bind]
  revert hx
  cases x core with
  | ok a core₁ => exact fun hx => hx.trans (hf a core₁)
  | error why core₁ => exact id

theorem Spares.bind {x : Exec (Traced σ) α} {f : α → Exec (Traced σ) β} (hx : Spares x)
    (hf : ∀ a, Spares (f a)) : Spares (x >>= f) :=
  fun core => (hx core).bind hf

theorem Spares.onHart {change : Hart → Hart}
    (hchange : ∀ h, (change h).reservation = none ∨ (change h).reservation = h.reservation) :
    Spares (σ := σ) (onHart change) := by
  intro core
  rcases hchange core.hart with hgone | hsame
  · exact .inl hgone
  · exact .of_noWrites noWrites_nil hsame (List.append_nil _).symm

theorem Quiet.spares {x : Exec (Traced σ) α} (hx : Quiet x) : Spares x := by
  intro core
  obtain ⟨calls, hcalls, hafter⟩ := hx core
  revert hafter
  cases x core <;>
    exact fun ⟨hhart, hlog⟩ => .of_noWrites hcalls (congrArg Hart.reservation hhart) hlog

theorem Counts.spares {x : Exec (Traced σ) α} (hx : Counts x) : Spares x := by
  intro core
  obtain ⟨calls, hcalls, hafter⟩ := hx core
  revert hafter
  cases x core with
  | ok a core₁ =>
      rintro ⟨hhart, hlog⟩
      have hsame : core₁.hart.reservation = core.hart.counted.reservation := by rw [hhart]
      exact .of_noWrites hcalls hsame hlog
  | error why core₁ =>
      rintro ⟨hhart, hlog⟩
      exact .of_noWrites hcalls (congrArg Hart.reservation hhart) hlog

/-- A call that is made, whatever comes of it, is the last one on record. -/
theorem callBus_record (call : BusCall) (request : EStateM BusFault σ α) (cause : Trap)
    (core : Core (Traced σ)) :
    (stateOf (callBus (Traced.record call request) cause core)).hart = core.hart ∧
      ∃ fault, (stateOf (callBus (Traced.record call request) cause core)).bus.calls =
        core.bus.calls ++ [⟨call, fault⟩] := by
  obtain ⟨hart, bus, calls⟩ := core
  unfold callBus Traced.record
  simp only
  cases request bus with
  | ok a bus' => exact ⟨rfl, none, rfl⟩
  | error fault bus' => cases fault <;> exact ⟨rfl, _, rfl⟩

/-- A write spares the reservation of any other word. -/
theorem spared_write {width : Width} {addr value : UInt32} (haligned : width.aligned addr)
    (request : EStateM BusFault σ α) (cause : Trap) {core : Core (Traced σ)}
    (hother : core.hart.reservation ≠ some (addr &&& 0xFFFFFFFC)) :
    Spared core
      (stateOf (callBus (Traced.record (.write width addr value) request) cause core)) := by
  obtain ⟨hhart, fault, hlog⟩ := callBus_record (.write width addr value) request cause core
  refine .inr ⟨by rw [hhart], _, hlog, ?_⟩
  intro word hreserved hword hover
  obtain ⟨-, heq⟩ := overwrites_write haligned hword hover
  exact hother (heq ▸ hreserved)

theorem Spares.writeCsr (number value : UInt32) (request : EStateM BusFault σ α) (cause : Trap) :
    Spares (callBus (Traced.record (.writeCsr number value) request) cause) := by
  intro core
  obtain ⟨hhart, fault, hlog⟩ := callBus_record (.writeCsr number value) request cause core
  refine .inr ⟨by rw [hhart], _, hlog, ?_⟩
  rintro word - - ⟨event, hevent, i, -, -, hcovers⟩
  obtain rfl := List.mem_singleton.mp hevent
  exact hcovers

theorem Spares.dropReservation (addr : UInt32) : Spares (σ := σ) (dropReservation addr) := by
  refine .onHart fun h => ?_
  split
  · exact .inl rfl
  · exact .inr rfl

/-- A write to a word of which there is no reservation any more. -/
theorem Spares.freeThenWrite {width : Width} {addr value : UInt32} {change : Hart.Change}
    (haligned : width.aligned addr) (hchange : Spares (σ := σ) (Exec.onHart change.apply))
    (hfrees : change.Frees (addr &&& 0xFFFFFFFC)) (request : EStateM BusFault σ α)
    (cause : Trap) :
    Spares (Exec.onHart change.apply >>= fun _ =>
      callBus (Traced.record (.write width addr value) request) cause) := by
  intro core
  refine (hchange core).trans ?_
  exact spared_write haligned request cause (hfrees.reservation_ne core.hart)

/-- What drops the reservation of the word after it has written there. A write that fails does
not come to that, but then the word is as it was. -/
theorem Spares.writeThenDrop {addr value : UInt32} (haligned : Width.word.aligned addr)
    (request : EStateM BusFault σ α) (cause : Trap) :
    Spares (callBus (Traced.record (.write .word addr value) request) cause >>= fun _ =>
      Exec.dropReservation addr) := by
  have hword := Width.and_eq_of_aligned haligned
  intro core
  by_cases hreserved : core.hart.reservation = some addr
  · obtain ⟨hart, bus, calls⟩ := core
    simp only [Bind.bind, EStateM.bind, callBus, Traced.record]
    cases request bus with
    | ok a bus' =>
        left
        show (if hart.reservation = some addr then { hart with reservation := none }
          else hart).reservation = none
        rw [if_pos hreserved]
    | error fault bus' =>
        have hfailed (word : UInt32) (hword : Width.word.aligned word) :
            ¬ Overwrites [⟨.write .word addr value, some fault⟩] word :=
          fun hover => Option.some_ne_none fault (overwrites_write haligned hword hover).1
        cases fault <;> exact .inr ⟨rfl, _, rfl, fun word _ => hfailed word⟩
  · have hother : core.hart.reservation ≠ some (addr &&& 0xFFFFFFFC) := by rwa [hword]
    exact (spared_write haligned request cause hother).bind fun _ => .dropReservation addr

/-! ## The functions of an instruction -/

variable [Bus σ]

theorem spares_walk : Walk (σ := Traced σ) (τ := Traced σ) (fun _ => True)
    (fun change => Spares (σ := σ) (Exec.onHart change.apply))
    (fun _ x _ => Quiet x) (fun _ x _ => Spares x) fun _ x _ => Spares x where
  pure := precise_walk.pure
  raise := precise_walk.raise
  peek := precise_walk.peek
  read := precise_walk.read
  readCsr := precise_walk.readCsr
  bind := .bind
  done a := (Quiet.pure a).spares
  change := id
  next := .bind
  of_reads := Quiet.spares
  of_closes := id
  look _ hf := Quiet.getHart.spares.bind fun h => hf h trivial
  after hx hf := hx.spares.bind hf
  write _ haligned hchange hfrees _ hf := by
    rw [← bind_assoc]
    exact (Spares.freeThenWrite haligned hchange hfrees _ _).bind hf
  update _ haligned _ _ hf := by
    rw [← bind_assoc]
    exact (Spares.writeThenDrop haligned _ _).bind hf
  writeCsr _ _ _ hf := (Spares.writeCsr _ _ _ _).bind hf

/-- Every instruction but a load-reserved spares the reservation. -/
theorem execute_spares (word : UInt32) {instruction : Isa.Instruction}
    (hother : ∀ rd rs1, instruction ≠ .loadReserved rd rs1) :
    Spares (σ := σ) (execute word instruction) := by
  refine execute_walks spares_walk (fun change hmakes => .onHart fun h => ?_) word
  cases change with
  | reserve addr =>
      obtain ⟨rd, rs1, heq⟩ := hmakes
      exact absurd heq (hother rd rs1)
  | release => exact .inl rfl
  | drop addr =>
      simp only [Hart.Change.apply]
      split
      · exact .inl rfl
      · exact .inr rfl
  | finish rd value => exact .inr (h.reservation_setRegister rd value)
  | link rd target => exact .inr (h.reservation_setRegister rd (h.pc + 4))
  | _ => exact .inr rfl

/-- A load-reserved that does not retire has not come to make its reservation. -/
theorem loadReserved_error {rd : RegIndex} {addr : UInt32} {core core' : Core (Traced σ)}
    {why : Interruption} (h : loadReserved rd addr core = .error why core') :
    Spared core core' := by
  simp only [loadReserved, raise_bind] at h
  split at h
  · have hspared := (Quiet.raise (α := Flow) (.loadAddressMisaligned addr)).spares core
    rwa [h] at hspared
  · have hcall := error_of_bind (fun _ _ => ⟨_, _, rfl⟩) h
    have hspared : Spared core
        (stateOf (callBus (Bus.read .word addr) (.loadAccessFault addr) core)) :=
      (Quiet.callBus rfl _ _).spares core
    rwa [hcall] at hspared

end Exec

/-! ## What an instruction does to the reservation -/

namespace Core

variable {σ : Type} [Bus σ]

/-- The instruction is fetched, which leaves `c₁` to execute it. -/
def Fetches (c : Core σ) (instruction : Isa.Instruction) (c₁ : Core σ) : Prop :=
  ∃ word, Exec.fetch c = .ok word c₁ ∧ Isa.decode word = some instruction

/-- The instruction that is executed retires. -/
def Retires (c : Core σ) : Prop :=
  ∃ flow c', Exec.executeOne c = .ok flow c'

/-- A load-reserved reads `value` from the word at `addr` and retires. -/
def LoadsReserved (c : Core σ) (addr value : UInt32) : Prop :=
  ∃ rd rs1 c₁ bus, c.Fetches (.loadReserved rd rs1) c₁ ∧ c.hart.register rs1 = addr ∧
    Bus.read .word addr c₁.bus = .ok value bus ∧
    Exec.executeOne c =
      .ok .next ⟨{ c.hart.counted with reservation := some addr }.finished rd value, bus⟩

/-- The instruction is none that bears upon a reservation of the word at `addr`: no load-reserved
that retires, no store-conditional that passes the check of its alignment, and none that
completes a write to a byte of the word. -/
structure LeavesAlone (c : Core σ) (addr : UInt32) : Prop where
  loadReserved {rd rs1 : RegIndex} {c₁ : Core σ} :
    c.Fetches (.loadReserved rd rs1) c₁ → ¬ c.Retires
  storeConditional {rd rs1 rs2 : RegIndex} {c₁ : Core σ} :
    c.Fetches (.storeConditional rd rs1 rs2) c₁ → ¬ Width.word.aligned (c.hart.register rs1)
  writes : ¬ Overwrites c.calls addr

/-- How the reservation after an instruction comes about: there is none, the instruction has made
it, or it was there before and has been left alone. -/
inductive Reserves (c : Core σ) : Option UInt32 → Prop
  | gone : Reserves c none
  | made {addr value : UInt32} : c.LoadsReserved addr value → Width.word.aligned addr →
      Reserves c (some addr)
  | kept {addr : UInt32} : c.hart.reservation = some addr → c.LeavesAlone addr →
      Reserves c (some addr)

theorem Fetches.hart_eq {c c₁ : Core σ} {instruction : Isa.Instruction}
    (h : c.Fetches instruction c₁) : c₁.hart = c.hart.counted := by
  obtain ⟨word, hfetch, -⟩ := h
  exact (Exec.fetch_traced hfetch).1

theorem Fetches.executeOne_eq {c c₁ : Core σ} {instruction : Isa.Instruction}
    (h : c.Fetches instruction c₁) :
    ∃ word, Exec.executeOne c = Exec.execute word instruction c₁ := by
  obtain ⟨word, hfetch, hdecode⟩ := h
  refine ⟨word, ?_⟩
  simp only [Exec.executeOne, bind, EStateM.bind, hfetch, hdecode]

/-- A load-reserved that retires has made a reservation of the word that it has read. -/
theorem Fetches.loadReserved_ok {c c₁ c' : Core σ} {rd rs1 : RegIndex} {flow : Flow}
    (h : c.Fetches (.loadReserved rd rs1) c₁) (hok : Exec.executeOne c = .ok flow c') :
    ∃ value, c.LoadsReserved (c.hart.register rs1) value ∧
      Width.word.aligned (c.hart.register rs1) ∧
      c'.hart.reservation = some (c.hart.register rs1) := by
  obtain ⟨word, hone⟩ := h.executeOne_eq
  have hhart := h.hart_eq
  have hrest : Exec.loadReserved rd (c.hart.register rs1) c₁ = .ok flow c' := by
    rw [← hok, hone]
    simp only [Exec.execute, Exec.getHart_bind_apply, hhart, Hart.register_counted]
  simp only [Exec.loadReserved, Exec.raise_bind] at hrest
  split at hrest
  · cases hrest
  rename_i haligned
  simp only [bind, EStateM.bind, Exec.callBus] at hrest
  cases hread : Bus.read .word (c.hart.register rs1) c₁.bus with
  | error fault bus =>
      rw [hread] at hrest
      cases fault <;> cases hrest
  | ok value bus =>
      rw [hread, hhart] at hrest
      cases hrest
      refine ⟨value, ⟨rd, rs1, c₁, bus, h, rfl, hread, hok⟩, Exec.aligned_of_not haligned, ?_⟩
      exact Hart.reservation_setRegister _ rd value

section

variable {c c₁ : Core σ} {rd rs1 rs2 : RegIndex}

theorem Fetches.storeConditional_eq (h : c.Fetches (.storeConditional rd rs1 rs2) c₁) :
    Exec.executeOne c =
      Exec.storeConditional rd (c.hart.register rs1) (c.hart.register rs2) c₁ := by
  obtain ⟨word, hone⟩ := h.executeOne_eq
  have hhart := h.hart_eq
  rw [hone]
  simp only [Exec.execute, Exec.getHart_bind_apply, hhart, Hart.register_counted]

/-- With another word reserved, or none, a store-conditional answers one and is done. -/
theorem Fetches.storeConditional_declines (h : c.Fetches (.storeConditional rd rs1 rs2) c₁)
    (haligned : Width.word.aligned (c.hart.register rs1))
    (hother : c.hart.reservation ≠ some (c.hart.register rs1)) :
    Exec.executeOne c = .ok .next ⟨c.hart.afterConditional rd 1, c₁.bus⟩ := by
  rw [h.storeConditional_eq]
  simp only [Exec.storeConditional, Exec.raise_bind, haligned, Bool.not_true, Bool.false_eq_true,
    if_false, Exec.getHart_bind_apply, Exec.onHart_bind_apply, h.hart_eq,
    Hart.reservation_counted, hother]
  rfl

/-- With its word reserved, a store-conditional stores and answers zero. -/
theorem Fetches.storeConditional_stores (h : c.Fetches (.storeConditional rd rs1 rs2) c₁)
    (haligned : Width.word.aligned (c.hart.register rs1))
    (hreserved : c.hart.reservation = some (c.hart.register rs1)) :
    Exec.executeOne c =
      match Bus.write .word (c.hart.register rs1) (c.hart.register rs2) c₁.bus with
      | .ok () bus => .ok .next ⟨c.hart.afterConditional rd 0, bus⟩
      | .error .unmapped bus =>
        .error (.trap (.storeAccessFault (c.hart.register rs1)))
          ⟨{ c.hart.counted with reservation := none }, bus⟩
      | .error (.storage error) bus =>
        .error (.storage error) ⟨{ c.hart.counted with reservation := none }, bus⟩ := by
  rw [h.storeConditional_eq]
  simp only [Exec.storeConditional, Exec.raise_bind, haligned, Bool.not_true, Bool.false_eq_true,
    if_false, Exec.getHart_bind_apply, Exec.onHart_bind_apply, h.hart_eq,
    Hart.reservation_counted, hreserved, if_true]
  simp only [bind, EStateM.bind, Exec.callBus]
  cases Bus.write .word (c.hart.register rs1) (c.hart.register rs2) c₁.bus with
  | ok _ bus => rfl
  | error fault bus => cases fault <;> rfl

/-- In any case the reservation is used up. -/
theorem Fetches.storeConditional_reservation (h : c.Fetches (.storeConditional rd rs1 rs2) c₁)
    (haligned : Width.word.aligned (c.hart.register rs1)) :
    c.after.hart.reservation = none := by
  unfold after
  by_cases hreserved : c.hart.reservation = some (c.hart.register rs1)
  · rw [h.storeConditional_stores haligned hreserved]
    split
    · exact Hart.reservation_setRegister _ rd 0
    · rfl
    · rfl
  · rw [h.storeConditional_declines haligned hreserved]
    exact Hart.reservation_setRegister _ rd 1

end

/-- An instruction spares the reservation, unless it is a load-reserved that retires. -/
theorem loadReserved_or_spared (c : Core σ) :
    (∃ rd rs1 c₁, c.Fetches (.loadReserved rd rs1) c₁ ∧ c.Retires) ∨
      Exec.Spared c.traced c.traced.after := by
  have hfirst := Exec.fetch_counts.spares c.traced
  have hfetch : Exec.fetch c = Traced.forget (Exec.fetch c.traced) :=
    Traced.fetch_forget c.traced
  have hone : Exec.executeOne c = Traced.forget (Exec.executeOne c.traced) :=
    Traced.executeOne_forget c.traced
  have hrest := congrFun Exec.executeOne_eq c.traced
  simp only [bind, EStateM.bind] at hrest
  revert hfirst hfetch hrest
  cases Exec.fetch c.traced with
  | error why t =>
      intro hfirst _ hrest
      right
      rw [after, hrest]
      exact hfirst
  | ok word t =>
      intro hfirst hfetch hrest
      replace hrest : Exec.executeOne c.traced = Exec.executeDecoded word t := hrest
      unfold Exec.executeDecoded at hrest
      cases hdecode : Isa.decode word with
      | none =>
          right
          rw [after, hrest, hdecode]
          exact hfirst.trans ((Exec.Quiet.raise _).spares t)
      | some instruction =>
          have hexecute : Exec.executeOne c.traced = Exec.execute word instruction t := by
            rw [hrest, hdecode]
          -- nothing but a load-reserved can make a reservation, and it must retire for that
          by_cases hload : ∃ rd rs1, instruction = .loadReserved rd rs1
          · obtain ⟨rd, rs1, rfl⟩ := hload
            cases hresult : Exec.executeOne c.traced with
            | ok flow t' =>
                left
                rw [hresult] at hone
                exact ⟨rd, rs1, _, ⟨word, hfetch, hdecode⟩, flow, _, hone⟩
            | error why t' =>
                right
                rw [after, hresult]
                have herror : Exec.loadReserved rd (t.hart.register rs1) t = .error why t' :=
                  hexecute.symm.trans hresult
                exact hfirst.trans (Exec.loadReserved_error herror)
          · right
            rw [after, hexecute]
            exact hfirst.trans
              (Exec.execute_spares word (fun rd rs1 heq => hload ⟨rd, rs1, heq⟩) t)

/-- Reservations come about in three ways only. -/
theorem after_reserves {c : Core σ}
    (haligned : ∀ addr, c.hart.reservation = some addr → Width.word.aligned addr) :
    c.Reserves c.after.hart.reservation := by
  by_cases hload : ∃ rd rs1 c₁, c.Fetches (.loadReserved rd rs1) c₁ ∧ c.Retires
  · obtain ⟨rd, rs1, c₁, hfetch, flow, c', hok⟩ := hload
    obtain ⟨value, hloads, hword, hreserved⟩ := hfetch.loadReserved_ok hok
    have hafter : c.after = c' := by rw [after, hok, stateOf]
    rw [hafter, hreserved]
    exact .made hloads hword
  · have hspared := c.loadReserved_or_spared.resolve_left hload
    cases hkept : c.after.hart.reservation with
    | none => exact .gone
    | some addr =>
        have htraced : c.traced.after.hart.reservation = some addr := by
          rwa [after_eq] at hkept
        obtain ⟨hreserved, calls, hlog, hclean⟩ := hspared.of_some htraced
        have hcalls : c.calls = calls := hlog
        refine .kept hreserved ⟨fun hfetch hretires => hload ⟨_, _, _, hfetch, hretires⟩, ?_, ?_⟩
        · -- a store-conditional would have used it up
          intro rd rs1 rs2 c₁ hfetch hword
          rw [hfetch.storeConditional_reservation hword] at hkept
          cases hkept
        · rw [hcalls]
          exact hclean (haligned addr hreserved)

end Core

end RiscvMachine
