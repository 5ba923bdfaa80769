import RiscvMachine.Proofs.Machine.FixedTime

set_option autoImplicit false

/-! # Waiting for the timer

A guest that waits lets the cycles of a batch pass in every turn, so the cycle counter reaches
every time that it can count to, and with it the timer reaches its match value. Until then a turn
changes no more of the hart than the counter, the timer and the timer's interrupt bit
(`Session.Expects.turn`). In a run that is entered after a boot the timer is never ahead of the
cycle counter, which tells the very turn that wakes the guest (`Session.wakes_at_deadline`).
-/

namespace RiscvMachine

namespace Hart

/-- `h'` is `h` after so many cycles in which it has only waited: time has passed, and the
interrupt bit of the timer may be set or not. -/
def Waits (cycles : UInt64) (h h' : Hart) : Prop :=
  ∃ timer mip, mip &&& ~~~Mip.timer = h.csr.mip &&& ~~~Mip.timer ∧
    h' = { h with csr :=
      { h.csr with cycle := h.csr.cycle + cycles, timer := timer, mip := mip } }

theorem Waits.refl (h : Hart) : h.Waits 0 h :=
  ⟨h.csr.timer, h.csr.mip, rfl, by rw [UInt64.add_zero]⟩

theorem Waits.trans {m n : UInt64} {h h' h'' : Hart} (hfirst : h.Waits m h')
    (hsecond : h'.Waits n h'') : h.Waits (m + n) h'' := by
  obtain ⟨timer, mip, hmip, rfl⟩ := hfirst
  obtain ⟨timer', mip', hmip', rfl⟩ := hsecond
  exact ⟨timer', mip', hmip'.trans hmip, by rw [UInt64.add_assoc]⟩

theorem Waits.waiting {n : UInt64} {h h' : Hart} (h₁ : h.Waits n h') : h'.waiting = h.waiting := by
  obtain ⟨timer, mip, -, rfl⟩ := h₁
  rfl

theorem Waits.timerMatch {n : UInt64} {h h' : Hart} (h₁ : h.Waits n h') :
    h'.csr.timerMatch = h.csr.timerMatch := by
  obtain ⟨timer, mip, -, rfl⟩ := h₁
  rfl

theorem Waits.cycle {n : UInt64} {h h' : Hart} (h₁ : h.Waits n h') :
    h'.csr.cycle = h.csr.cycle + n := by
  obtain ⟨timer, mip, -, rfl⟩ := h₁
  rfl

/-- A hart whose timer does not expire goes on waiting. -/
theorem waits_advanceTimer {h : Hart} {elapsed : UInt64}
    (hbefore : (h.csr.advanceTimer elapsed).timerExpired = false) :
    h.Waits 0 (h.advanceTimer elapsed) := by
  refine ⟨h.csr.timer + elapsed, h.csr.mip &&& ~~~Mip.timer, ?_, ?_⟩
  · rw [UInt32.and_assoc, UInt32.and_self]
  · have hmip : (h.csr.advanceTimer elapsed).mip = h.csr.mip &&& ~~~Mip.timer :=
      if_neg (Bool.eq_false_iff.mp hbefore)
    have hwaiting : (h.waiting && !(h.csr.advanceTimer elapsed).timerExpired) = h.waiting := by
      rw [hbefore, Bool.not_false, Bool.and_true]
    simp only [advanceTimer, hwaiting, ← hmip, UInt64.add_zero]
    rfl

/-- A hart whose timer expires does not wait any longer. -/
theorem waiting_advanceTimer {h : Hart} {elapsed : UInt64}
    (hexpired : (h.csr.advanceTimer elapsed).timerExpired = true) :
    (h.advanceTimer elapsed).waiting = false ∧
      (h.advanceTimer elapsed).csr.mip &&& Mip.timer = Mip.timer := by
  constructor
  · change (h.waiting && !(h.csr.advanceTimer elapsed).timerExpired) = false
    rw [hexpired, Bool.not_true, Bool.and_false]
  · have hmip : (h.advanceTimer elapsed).csr.mip = h.csr.mip ||| Mip.timer := if_pos hexpired
    rw [hmip]
    apply UInt32.eq_of_toBitVec_eq
    ext i hi
    simp only [UInt32.toBitVec_and, UInt32.toBitVec_or, BitVec.getElem_and, BitVec.getElem_or]
    cases Mip.timer.toBitVec[i] <;> simp

end Hart

namespace Session

variable {υ τ : Type}

/-- `s'` is `s` after so many cycles in which the guest has only waited: nothing of the machine has
changed but its hart, which has waited, and the keys typed. -/
def Waited (cycles : UInt64) (s s' : Session υ τ) : Prop :=
  ∃ hart keys, s.machine.hart.Waits cycles hart ∧
    s'.machine =
      { s.machine with hart := hart }.withConsole ⟨keys, s.machine.platform.console.output⟩

theorem Waited.refl (s : Session υ τ) : s.Waited 0 s :=
  ⟨s.machine.hart, s.machine.platform.console.keys, .refl _, rfl⟩

theorem Waited.trans {m n : UInt64} {s s' s'' : Session υ τ} (hfirst : s.Waited m s')
    (hsecond : s'.Waited n s'') : s.Waited (m + n) s'' := by
  obtain ⟨hart, keys, hwaits, hmachine⟩ := hfirst
  obtain ⟨hart', keys', hwaits', hmachine'⟩ := hsecond
  rw [hmachine] at hwaits' hmachine'
  exact ⟨hart', keys', hwaits.trans hwaits', hmachine'⟩

theorem Waited.config {n : UInt64} {s s' : Session υ τ} (h : s.Waited n s') :
    s'.machine.config = s.machine.config := by
  obtain ⟨hart, keys, -, hmachine⟩ := h
  rw [hmachine]
  rfl

theorem Waited.output {n : UInt64} {s s' : Session υ τ} (h : s.Waited n s') :
    s'.machine.platform.console.output = s.machine.platform.console.output := by
  obtain ⟨hart, keys, -, hmachine⟩ := h
  rw [hmachine]
  rfl

theorem Waited.hart {n : UInt64} {s s' : Session υ τ} (h : s.Waited n s') :
    s.machine.hart.Waits n s'.machine.hart := by
  obtain ⟨hart, keys, hwaits, hmachine⟩ := h
  rw [hmachine]
  exact hwaits

theorem waited_host (s : Session υ τ) (terminal : τ) (keys : List UInt8) :
    s.Waited 0 ⟨keys.foldl Machine.sendKey s.machine, terminal, s.time⟩ := by
  obtain ⟨queue, hqueue⟩ := foldl_sendKey keys s.machine
  exact ⟨s.machine.hart, queue, .refl _, hqueue⟩

/-- The count of cycles that the timer takes to reach its match value. -/
def deadline (s : Session υ τ) : Nat :=
  s.machine.hart.csr.timerMatch.toNat * s.machine.config.timeDivisor.toNat

theorem Waited.deadline {n : UInt64} {s s' : Session υ τ} (h : s.Waited n s') :
    s'.deadline = s.deadline := by
  rw [Session.deadline, Session.deadline, h.hart.timerMatch, h.config]

variable [Terminal τ]

/-! ## When the timer expires -/

/-- In the batch that is started next, the timer has reached its match value just if the cycle
counter has reached the deadline. -/
theorem Timed.expired_iff {s : Session υ τ} (h : s.Timed 0)
    (hmatch : s.machine.hart.csr.timerMatch ≠ 0) (hdivisor : s.machine.config.timeDivisor ≠ 0) :
    s.begun.machine.hart.csr.timerExpired = true ↔ s.deadline ≤ s.cycle.toNat := by
  have htimer : s.begun.machine.hart.csr.timer = s.now := by
    have hbegun := h.timer_begun
    rwa [UInt64.zero_add, h.time_begun] at hbegun
  have hpos : 0 < s.machine.config.timeDivisor.toNat :=
    Nat.pos_of_ne_zero fun hzero => hdivisor (UInt32.toNat_inj.mp hzero)
  have hsame : s.begun.machine.hart.csr.timerMatch = s.machine.hart.csr.timerMatch := rfl
  rw [deadline, ← Nat.le_div_iff_mul_le hpos, ← toNat_now h.fixed, ← htimer,
    ← UInt64.le_iff_toNat_le]
  simp [ControlRegisters.timerExpired, hsame, hmatch]

/-- The guest waits and is to be woken by the timer. -/
structure Expects (s : Session υ τ) : Prop where
  timed : s.Timed 0
  waiting : s.machine.hart.waiting = true
  shown : s.machine.platform.console.output = ByteArray.empty
  timerMatch : s.machine.hart.csr.timerMatch ≠ 0
  timeDivisor : s.machine.config.timeDivisor ≠ 0
  fits : s.deadline + s.machine.config.instructionsPerBatch.toNat < 2 ^ 64

theorem Expects.of_waited {n : UInt64} {s s' : Session υ τ} (h : s.Expects)
    (hwaited : s.Waited n s') (htimed : s'.Timed 0) : s'.Expects where
  timed := htimed
  waiting := hwaited.hart.waiting.trans h.waiting
  shown := hwaited.output.trans h.shown
  timerMatch := hwaited.hart.timerMatch ▸ h.timerMatch
  timeDivisor := hwaited.config ▸ h.timeDivisor
  fits := by
    rw [hwaited.deadline, hwaited.config]
    exact h.fits

/-- Before the deadline, the batch that is started finds the hart waiting. -/
theorem Expects.waited_begun {s : Session υ τ} (h : s.Expects)
    (hbefore : s.cycle.toNat < s.deadline) : s.Waited 0 s.begun := by
  have hexpired : s.begun.machine.hart.csr.timerExpired = false :=
    Bool.eq_false_iff.mpr fun hexpired =>
      Nat.not_le.mpr hbefore ((h.timed.expired_iff h.timerMatch h.timeDivisor).mp hexpired)
  exact ⟨s.begun.machine.hart, s.machine.platform.console.keys, Hart.waits_advanceTimer hexpired,
    rfl⟩

/-- At the deadline, the batch that is started finds the hart released by the timer. -/
theorem Expects.released {s : Session υ τ} (h : s.Expects)
    (hreached : s.deadline ≤ s.cycle.toNat) :
    s.begun.machine.hart.csr.timerExpired = true ∧ s.begun.machine.hart.waiting = false ∧
      s.begun.machine.hart.csr.mip &&& Mip.timer = Mip.timer := by
  have hexpired := (h.timed.expired_iff h.timerMatch h.timeDivisor).mpr hreached
  exact ⟨hexpired, Hart.waiting_advanceTimer hexpired⟩

/-! ## A turn of waiting -/

/-- The session after a turn in which the guest only waits. -/
def rested (s : Session υ τ) : Session υ τ := stateOf (await s.begun)

theorem Expects.waited_rested {s : Session υ τ} (h : s.Expects)
    (hbefore : s.cycle.toNat < s.deadline) :
    s.Waited s.machine.config.instructionsPerBatch.toUInt64 s.rested := by
  have hawait : s.begun.Waited s.machine.config.instructionsPerBatch.toUInt64 s.rested :=
    ⟨s.rested.machine.hart, s.machine.platform.console.keys, ⟨_, _, rfl, rfl⟩, rfl⟩
  have hwaited := (h.waited_begun hbefore).trans hawait
  rwa [UInt64.zero_add] at hwaited

theorem Expects.cycle_rested {s : Session υ τ} (h : s.Expects)
    (hbefore : s.cycle.toNat < s.deadline) :
    s.rested.cycle.toNat = s.cycle.toNat + s.machine.config.instructionsPerBatch.toNat := by
  have hcycle : s.rested.cycle = s.cycle + s.machine.config.instructionsPerBatch.toUInt64 :=
    (h.waited_rested hbefore).hart.cycle
  have hfits := h.fits
  rw [hcycle, UInt64.toNat_add, UInt32.toNat_toUInt64, Nat.mod_eq_of_lt (by omega)]

theorem Expects.rested {s : Session υ τ} (h : s.Expects) (hbefore : s.cycle.toNat < s.deadline) :
    s.rested.Expects := by
  have hle : s.begun.cycle ≤ s.rested.cycle := by
    rw [UInt64.le_iff_toNat_le, h.cycle_rested hbefore]
    exact Nat.le_add_right _ _
  exact h.of_waited (h.waited_rested hbefore)
    (h.timed.begun.of_counts (counting_await s.begun) hle)

theorem showOutput_nothing {s : Session υ τ}
    (hshown : s.machine.platform.console.output = ByteArray.empty) :
    showOutput s = .ok () s := by
  obtain ⟨⟨config, hart, ⟨cache, ⟨keys, output⟩, ramSize⟩, tree⟩, terminal, time⟩ := s
  obtain rfl : output = ByteArray.empty := hshown
  rfl

omit [Terminal τ] in
theorem machine_onTerminal {α : Type} {request : EStateM Unit τ α} {a : α} {s s' : Session υ τ}
    (h : onTerminal request s = .ok a s') : s'.machine = s.machine := by
  obtain ⟨machine, terminal, time⟩ := s
  simp only [onTerminal] at h
  revert h
  cases request terminal with
  | ok a terminal' =>
      rintro ⟨⟩
      rfl
  | error e terminal' => nofun

theorem output_showOutput {s s' : Session υ τ} (hshow : showOutput s = .ok () s') :
    s'.machine.platform.console.output = ByteArray.empty := by
  obtain ⟨output, s₁, htake, hrest⟩ := ok_of_bind hshow
  have htaken : s₁.machine.platform.console.output = ByteArray.empty := by
    cases htake
    rfl
  split at hrest
  · obtain ⟨_, s₂, hwrite, hflush⟩ := ok_of_bind hrest
    rw [machine_onTerminal hflush, machine_onTerminal hwrite, htaken]
  · cases hrest
    exact htaken

/-- To go on, the session prints nothing and takes nothing from the console. -/
theorem output_conclude {outcome : Outcome} {s s' : Session υ τ}
    (hconclude : conclude outcome s = .ok none s') :
    s'.machine.platform.console.output = s.machine.platform.console.output := by
  obtain ⟨_, s₁, hget, hrest⟩ := ok_of_bind hconclude
  cases hget
  cases outcome with
  | ran =>
      cases hrest
      rfl
  | waitForInterrupt =>
      obtain ⟨_, s₂, hawait, hnone⟩ := ok_of_bind hrest
      cases hawait
      cases hnone
      rfl
  | _ =>
      obtain ⟨_, s₂, -, hsome⟩ := ok_of_bind hrest
      cases hsome

/-! ## Turn after turn -/

variable [StorageUnit υ]

omit [Terminal τ] in
theorem proceedBatch_waiting {s : Session υ τ} (hwaits : s.machine.hart.waiting = true) :
    proceedBatch s = .ok .waitForInterrupt s := by
  obtain ⟨⟨config, hart, platform, tree⟩, terminal, time⟩ := s
  simp only [proceedBatch, bind, EStateM.bind, get, getThe, MonadStateOf.get, EStateM.get,
    onMachine, Machine.proceed, Core.proceed, show hart.waiting = true from hwaits, if_true]

theorem Expects.turn {s : Session υ τ} (h : s.Expects) (hbefore : s.cycle.toNat < s.deadline)
    (hgo : Terminal.stopRequested s.terminal = false) : turn s = .ok none s.rested := by
  have hbegun := h.waited_begun hbefore
  have hwaits := hbegun.hart.waiting.trans h.waiting
  have hshown := hbegun.output.trans h.shown
  rw [turn_eq hgo]
  simp only [proceed, bind, EStateM.bind, proceedBatch_waiting hwaits, showOutput_nothing hshown]
  rfl

/-- A turn that does not end the session was not asked to. -/
theorem not_stopped_of_turn {s s' : Session υ τ} (hturn : turn s = .ok none s') :
    Terminal.stopRequested s.terminal = false := by
  cases hstop : Terminal.stopRequested s.terminal with
  | false => rfl
  | true =>
      rw [turn_eq_stop hstop, map_eq_pure_bind] at hturn
      obtain ⟨exit, s₁, -, hsome⟩ := ok_of_bind hturn
      cases hsome

/-- A turn that does not end the session has shown all that the guest has printed. -/
theorem output_of_turn {s s' : Session υ τ} (hturn : turn s = .ok none s') :
    s'.machine.platform.console.output = ByteArray.empty := by
  rw [turn_eq (not_stopped_of_turn hturn)] at hturn
  obtain ⟨outcome, s₁, -, hrest⟩ := ok_of_bind hturn
  obtain ⟨_, s₂, hshow, hconclude⟩ := ok_of_bind hrest
  rw [output_conclude hconclude, output_showOutput hshow]

/-- In the first run after a boot, a guest that waits has had its output shown. -/
theorem Since.shown {m : Machine υ} (hm : m.hart.waiting = false) {s : Session υ τ}
    (h : Since m [] s) (hwaits : s.machine.hart.waiting = true) :
    s.machine.platform.console.output = ByteArray.empty := by
  generalize hpast : ([] : List UInt64) = past at h
  induction h with
  | start terminal =>
      have hmachine : (Session.start m terminal).machine = m := by
        unfold Session.start
        cases m.config.timing <;> rfl
      rw [hmachine, hm] at hwaits
      cases hwaits
  | @host past s terminal keys _ ih =>
      obtain ⟨queue, hqueue⟩ := foldl_sendKey keys s.machine
      rw [hqueue] at hwaits ⊢
      exact ih hwaits hpast
  | turn _ hturn _ _ => exact output_of_turn hturn
  | again terminal _ _ _ _ => cases hpast

/-- `s'` is `s` after `k` turns, none of which ends the session, with nothing between them but keys
typed and changes of the terminal. -/
inductive Onward : Nat → Session υ τ → Session υ τ → Prop
  | refl (s : Session υ τ) : Onward 0 s s
  | host {k : Nat} {s s' : Session υ τ} (terminal : τ) (keys : List UInt8) : Onward k s s' →
      Onward k s ⟨keys.foldl Machine.sendKey s'.machine, terminal, s'.time⟩
  | turn {k : Nat} {s s' s'' : Session υ τ} : Onward k s s' → turn s' = .ok none s'' →
      Onward (k + 1) s s''

/-- Turn after turn the guest waits, as long as the cycles of the turns before do not reach the
deadline. -/
theorem Expects.onward {s : Session υ τ} (h : s.Expects) {k : Nat} {s' : Session υ τ}
    (honward : Onward k s s')
    (hbefore : ∀ j < k,
      s.cycle.toNat + j * s.machine.config.instructionsPerBatch.toNat < s.deadline) :
    s'.Expects ∧ s.Waited (UInt64.ofNat (k * s.machine.config.instructionsPerBatch.toNat)) s' ∧
      s'.cycle.toNat = s.cycle.toNat + k * s.machine.config.instructionsPerBatch.toNat := by
  induction honward with
  | refl s =>
      rw [Nat.zero_mul]
      exact ⟨h, .refl s, rfl⟩
  | @host k s s' terminal keys _ ih =>
      obtain ⟨hexpects, hwaited, hcycle⟩ := ih h hbefore
      have hhost := waited_host s' terminal keys
      have hall := hwaited.trans hhost
      rw [UInt64.add_zero] at hall
      refine ⟨hexpects.of_waited hhost (hexpects.timed.host terminal keys), hall, ?_⟩
      rw [← hcycle]
      exact congrArg UInt64.toNat (hhost.hart.cycle.trans (UInt64.add_zero _))
  | @turn k s s' s'' _ hturn ih =>
      obtain ⟨hexpects, hwaited, hcycle⟩ := ih h fun j hj => hbefore j (hj.trans k.lt_succ_self)
      have hreached : s'.cycle.toNat < s'.deadline := by
        rw [hcycle, hwaited.deadline]
        exact hbefore k k.lt_succ_self
      have hrested := (hexpects.turn hreached (not_stopped_of_turn hturn)).symm.trans hturn
      cases hrested
      refine ⟨hexpects.rested hreached, ?_, ?_⟩
      · have htrans := hwaited.trans (hexpects.waited_rested hreached)
        rw [hwaited.config, ← UInt64.ofNat_uInt32ToNat, ← UInt64.ofNat_add] at htrans
        rwa [Nat.succ_mul]
      · rw [hexpects.cycle_rested hreached, hwaited.config, hcycle, Nat.succ_mul, Nat.add_assoc]

/-- A guest that waits in the first run after a boot, for a timer set so that the cycles to count do
not wrap around. It takes `turns` turns in which nothing happens but that the cycles of a batch pass
each time, and none of them fails. The turn after them is the first that is started with the
deadline reached, and it is started with the guest woken by the timer. -/
theorem wakes_at_deadline {m₀ m : Machine υ} {source : InputSource} {info : BootInfo}
    (hboot : Machine.boot source m₀ = .ok info m) (hfixed : m.config.timing = .fixed)
    {s : Session υ τ} (hs : Since m [] s) (hwaits : s.machine.hart.waiting = true)
    (hmatch : s.machine.hart.csr.timerMatch ≠ 0)
    (hdivisor : s.machine.config.timeDivisor ≠ 0)
    (hlimit : s.machine.config.instructionsPerBatch ≠ 0)
    (hfits : s.machine.hart.csr.timerMatch.toNat * s.machine.config.timeDivisor.toNat +
      s.machine.config.instructionsPerBatch.toNat < 2 ^ 64) :
    let deadline := s.machine.hart.csr.timerMatch.toNat * s.machine.config.timeDivisor.toNat
    let batch := s.machine.config.instructionsPerBatch.toNat
    let turns := (deadline - s.cycle.toNat) ⌈/⌉ batch
    ∀ k ≤ turns, ∀ s', Onward k s s' →
      s.Waited (UInt64.ofNat (k * batch)) s' ∧ s'.cycle.toNat = s.cycle.toNat + k * batch ∧
      (k < turns → s'.cycle.toNat < deadline ∧ (Terminal.stopRequested s'.terminal = false →
        turn s' = .ok none (stateOf (await s'.begun)))) ∧
      (k = turns → deadline ≤ s'.cycle.toNat ∧ s'.begun.machine.hart.csr.timerExpired = true ∧
        s'.begun.machine.hart.waiting = false ∧
        s'.begun.machine.hart.csr.mip &&& Mip.timer = Mip.timer ∧
        (Terminal.stopRequested s'.terminal = false → turn s' = proceed s'.begun)) := by
  intro deadline batch turns k hk s' honward
  have hstart := Machine.hart_boot hboot
  have hexpects : s.Expects :=
    ⟨hs.timed hfixed (congrArg (·.timer) hstart.1), hwaits, hs.shown hstart.2 hwaits, hmatch,
      hdivisor, hfits⟩
  have hbatch : 0 < batch :=
    Nat.pos_of_ne_zero fun hzero => hlimit (UInt32.toNat_inj.mp hzero)
  -- the deadline lies behind the turns before the last one
  have hturns (j : Nat) : j < turns ↔ s.cycle.toNat + j * batch < deadline := by
    have hceil : turns ≤ j ↔ deadline - s.cycle.toNat ≤ batch * j := ceilDiv_le_iff_le_mul hbatch
    rw [← not_le, hceil, Nat.mul_comm batch j]
    omega
  obtain ⟨hexpects', hwaited, hcycle⟩ :=
    hexpects.onward honward fun j hj => (hturns j).mp (hj.trans_le hk)
  have hdeadline : s'.deadline = deadline := hwaited.deadline
  refine ⟨hwaited, hcycle, fun hlt => ?_, fun heq => ?_⟩
  · have hbefore : s'.cycle.toNat < deadline := by
      rw [hcycle]
      exact (hturns k).mp hlt
    exact ⟨hbefore, hexpects'.turn (hbefore.trans_eq hdeadline.symm)⟩
  · have hreached : deadline ≤ s'.cycle.toNat := by
      rw [hcycle, ← not_lt]
      exact mt (hturns k).mpr (not_lt.mpr heq.ge)
    obtain ⟨hexpired, hreleased, hpending⟩ := hexpects'.released (hdeadline.trans_le hreached)
    exact ⟨hreached, hexpired, hreleased, hpending, turn_eq⟩

/-- Four instructions in each batch, and a tick for every second cycle. -/
def waitingConfig : Config :=
  { Machine.smallConfig with timing := .fixed, timeDivisor := 2, instructionsPerBatch := 4 }

/-- The guest sets the timer's match register to nine and waits. -/
def waitingGuest : InputSource :=
  .ofBytes ⟨#[0xB7, 0x42, 0x00, 0x11, 0x13, 0x03, 0x90, 0x00,
    0x23, 0xA0, 0x62, 0x00, 0x73, 0x00, 0x50, 0x10]⟩

/-- After its first turn the guest waits with eight cycles counted. It is woken at the 18th, by the
fourth turn from then on, which is started with twenty. -/
theorem wakes_at_deadline_fourth :
    ∃ info m, ∃ s s' : Session Medium CommandLine.HeldTerminal,
      Machine.boot waitingGuest
        (Machine.new waitingConfig Machine.smallCache Machine.smallTree) =
          .ok info m ∧
      Since m [] s ∧ s.machine.hart.waiting = true ∧ s.cycle = 8 ∧ Onward 3 s s' ∧
      s.Waited 12 s' ∧ s'.begun.machine.hart.waiting = false := by
  let terminal : CommandLine.HeldTerminal := {}
  let booted := Machine.boot waitingGuest
    (Machine.new waitingConfig Machine.smallCache Machine.smallTree)
  let s := stateOf (Session.run 1 (.start (stateOf booted) terminal))
  let s₁ := stateOf (Session.turn s)
  let s₂ := stateOf (Session.turn s₁)
  have hbooted : answer? booted = some ⟨16, 0x80000018, 24⟩ := by decide +kernel
  have hfixed : (stateOf booted).config.timing = .fixed := by decide +kernel
  have hfirst : answer? (Session.run 1 (.start (stateOf booted) terminal)) = some none := by
    decide +kernel
  have hcounts : CountsOn 1 (.start (stateOf booted) terminal) = true := by decide +kernel
  have hwaits : s.machine.hart.waiting = true := by decide +kernel
  have hcycle : s.cycle = 8 := by decide +kernel
  have hmatch : s.machine.hart.csr.timerMatch = 9 := by decide +kernel
  have hdivisor : s.machine.config.timeDivisor = 2 := by decide +kernel
  have hlimit : s.machine.config.instructionsPerBatch = 4 := by decide +kernel
  have hturn₁ : answer? (Session.turn s) = some none := by decide +kernel
  have hturn₂ : answer? (Session.turn s₁) = some none := by decide +kernel
  have hturn₃ : answer? (Session.turn s₂) = some none := by decide +kernel
  have hs : Since (stateOf booted) [] s := by
    have hrun := (Since.start terminal).run 1 hcounts
    rwa [show Session.run 1 (.start (stateOf booted) terminal) = _ from
      eq_ok_of_answer? hfirst] at hrun
  have honward : Onward 3 s (stateOf (Session.turn s₂)) :=
    (((Onward.refl s).turn (eq_ok_of_answer? hturn₁)).turn (eq_ok_of_answer? hturn₂)).turn
      (eq_ok_of_answer? hturn₃)
  -- the match value takes two cycles for each of nine ticks, and a turn passes four
  have hwakes := wakes_at_deadline (eq_ok_of_answer? hbooted) hfixed hs hwaits
    (by rw [hmatch]; decide) (by rw [hdivisor]; decide) (by rw [hlimit]; decide)
    (by rw [hmatch, hdivisor, hlimit]; decide) 3
  simp only [hmatch, hdivisor, hlimit, hcycle] at hwakes
  obtain ⟨hwaited, -, -, hend⟩ := hwakes (by decide) _ honward
  obtain ⟨-, -, hreleased, -⟩ := hend (by decide)
  exact ⟨_, _, _, _, eq_ok_of_answer? hbooted, hs, hwaits, hcycle, honward, hwaited, hreleased⟩

end Session

end RiscvMachine
