import RiscvMachine.CommandLine.Terminal
import RiscvMachine.Proofs.Hart.Edits
import RiscvMachine.Proofs.Machine.Reboot

set_option autoImplicit false

/-! # Time by the cycle counter

When time is fixed, a session hands its timer one tick for every so many cycles. A turn is a batch
that is started with the timer advanced (`Session.begun`) and then counts cycles, but moves the
timer no more (`Session.turn_eq`, `Session.counting_proceed`). So what the session has handed out
is never ahead of the cycle counter, and in the batch that is started it catches up with it
(`Session.Timed`).

A session that is entered again starts at time zero while the cycle counter goes on. The ticks of
the runs before it are therefore counted again, and the timer is ahead by exactly their sum
(`Session.timer_since_boot`).
-/

namespace RiscvMachine

/-- What a step of a machine does once the timer has been advanced. -/
def Machine.proceed {υ : Type} [StorageUnit υ] (limit : UInt32) :
    EStateM MachineError (Machine υ) Outcome := fun ⟨config, hart, platform, tree⟩ =>
  match Core.proceed limit (⟨hart, platform⟩ : Core (Platform υ)) with
  | .ok outcome ⟨hart, platform⟩ => .ok outcome ⟨config, hart, platform, tree⟩
  | .error error ⟨hart, platform⟩ => .error (.storage error) ⟨config, hart, platform, tree⟩

namespace Session

variable {υ τ : Type}

def cycle (s : Session υ τ) : UInt64 := s.machine.hart.csr.cycle

def timer (s : Session υ τ) : UInt64 := s.machine.hart.csr.timer

/-! ## What is counted -/

/-- `s'` has counted at most the cycles of `k` batches since `s`, and no time has been handed to the
timer. -/
structure Counts (k : Nat) (s s' : Session υ τ) : Prop where
  config : s'.machine.config = s.machine.config
  time : s'.time = s.time
  hart : s.machine.hart.CountsTo (k * s.machine.config.instructionsPerBatch.toNat) s'.machine.hart

/-- The computation counts at most the cycles of `k` batches, whether it succeeds or fails. -/
def Counting {α : Type} (k : Nat) (x : EStateM MachineError (Session υ τ) α) : Prop :=
  ∀ s : Session υ τ, s.Counts k (stateOf (x s))

theorem Counts.refl (k : Nat) (s : Session υ τ) : s.Counts k s :=
  ⟨rfl, rfl, .refl _ _⟩

theorem Counts.mono {j k : Nat} {s s' : Session υ τ} (h : s.Counts j s') (hjk : j ≤ k) :
    s.Counts k s' :=
  ⟨h.config, h.time, h.hart.mono (Nat.mul_le_mul_right _ hjk)⟩

theorem Counting.pure {α : Type} (a : α) :
    Counting 0 (Pure.pure a : EStateM MachineError (Session υ τ) α) :=
  fun s => .refl 0 s

theorem Counting.bind {α β : Type} {j k : Nat} {x : EStateM MachineError (Session υ τ) α}
    {f : α → EStateM MachineError (Session υ τ) β} (hx : Counting j x)
    (hf : ∀ a, Counting k (f a)) : Counting (j + k) (x >>= f) := by
  intro s
  have hfirst := hx s
  simp only [Bind.bind, EStateM.bind]
  revert hfirst
  cases x s with
  | ok a s₁ =>
      intro (hfirst : s.Counts j s₁)
      have hsecond := hf a s₁
      have hhart := hsecond.hart
      rw [hfirst.config] at hhart
      refine ⟨hsecond.config.trans hfirst.config, hsecond.time.trans hfirst.time, ?_⟩
      rw [Nat.add_mul]
      exact hfirst.hart.trans hhart
  | error error s₁ =>
      intro (hfirst : s.Counts j s₁)
      exact hfirst.mono (Nat.le_add_right j k)

/-- What comes after a computation that counts nothing. -/
theorem Counting.then {α β : Type} {k : Nat} {x : EStateM MachineError (Session υ τ) α}
    {f : α → EStateM MachineError (Session υ τ) β} (hx : Counting 0 x)
    (hf : ∀ a, Counting k (f a)) : Counting k (x >>= f) := by
  have hbind := hx.bind hf
  rwa [Nat.zero_add] at hbind

theorem Counting.onTerminal {α : Type} (request : EStateM Unit τ α) :
    Counting (υ := υ) 0 (onTerminal request) := by
  rintro ⟨machine, terminal, time⟩
  unfold Session.onTerminal
  simp only
  cases request terminal <;> exact ⟨rfl, rfl, .refl _ _⟩

/-- Typing keys leaves all but the keyboard as it is. -/
theorem foldl_sendKey (keys : List UInt8) (m : Machine υ) :
    ∃ queue, keys.foldl Machine.sendKey m =
      m.withConsole ⟨queue, m.platform.console.output⟩ := by
  induction keys generalizing m with
  | nil => exact ⟨m.platform.console.keys, rfl⟩
  | cons key rest ih => exact ih (m.sendKey key)

variable [Terminal τ]

theorem counting_showOutput : Counting (υ := υ) (τ := τ) 0 showOutput := by
  have htake : Counting (υ := υ) (τ := τ) 0 (onMachine fun m =>
      .ok m.takeOutput.1 m.takeOutput.2) :=
    fun s => ⟨rfl, rfl, .refl _ _⟩
  unfold showOutput
  refine htake.then fun output => ?_
  split
  · exact (Counting.onTerminal _).then fun _ => .onTerminal _
  · exact .pure _

/-- Waiting with the guest takes the cycles of a batch. -/
theorem counting_await : Counting (υ := υ) (τ := τ) 1 await := by
  intro s
  refine ⟨rfl, rfl, rfl, s.machine.config.instructionsPerBatch.toNat, (Nat.one_mul _).ge, ?_⟩
  rw [UInt64.ofNat_uInt32ToNat]
  rfl

theorem counting_conclude (outcome : Outcome) :
    Counting (υ := υ) (τ := τ) 1 (conclude outcome) := by
  have hget : Counting (υ := υ) (τ := τ) 0 get := fun s => .refl 0 s
  have hnone : Counting (υ := υ) (τ := τ) 1 (Pure.pure none : EStateM _ _ (Option MachineExit)) :=
    fun s => .refl 1 s
  have hshow (text : String) (exit : MachineExit) :
      Counting (υ := υ) (τ := τ) 1 (showLine text >>= fun _ => Pure.pure (some exit)) :=
    (Counting.onTerminal _).then fun _ s => .refl 1 s
  unfold conclude
  refine hget.then fun s => ?_
  cases outcome with
  | ran => exact hnone
  | waitForInterrupt => exact counting_await.bind fun _ => .pure none
  | _ => exact hshow _ _

theorem counting_stop : Counting (υ := υ) (τ := τ) 0 (some <$> stop) := by
  have hget : Counting (υ := υ) (τ := τ) 0 get := fun s => .refl 0 s
  have hstop : Counting (υ := υ) (τ := τ) 0 stop :=
    hget.then fun _ => (Counting.onTerminal _).then fun _ =>
      (Counting.onTerminal _).then fun _ => .pure _
  rw [map_eq_pure_bind]
  exact hstop.then fun _ => .pure _

/-! ## What the timer shows -/

def elapsed (s : Session υ τ) : UInt64 :=
  if s.time ≤ s.now then s.now - s.time else 0

/-- The session when its next batch has just been started. -/
def begun (s : Session υ τ) : Session υ τ :=
  ⟨s.machine.onHart (Hart.advanceTimer · s.elapsed), s.terminal, s.time + s.elapsed⟩

theorem now_eq {s : Session υ τ} (hfixed : s.machine.config.timing = .fixed) :
    s.now = s.cycle / s.machine.config.timeDivisor.toUInt64 := by
  simp only [now, hfixed]
  rfl

theorem toNat_now {s : Session υ τ} (hfixed : s.machine.config.timing = .fixed) :
    s.now.toNat = s.cycle.toNat / s.machine.config.timeDivisor.toNat := by
  rw [now_eq hfixed, UInt64.toNat_div, UInt32.toNat_toUInt64]

/-- The timer is ahead of the session by `offset`, and the session is not ahead of the cycle
counter. -/
structure Timed (offset : UInt64) (s : Session υ τ) : Prop where
  fixed : s.machine.config.timing = .fixed
  timer : s.timer = offset + s.time
  time_le : s.time ≤ s.now

/-- When a batch is started the session catches up with the cycle counter. -/
theorem Timed.time_begun {offset : UInt64} {s : Session υ τ} (h : s.Timed offset) :
    s.begun.time = s.now := by
  change s.time + s.elapsed = s.now
  rw [elapsed, if_pos h.time_le, UInt64.add_comm, UInt64.sub_add_cancel]

theorem Timed.timer_begun {offset : UInt64} {s : Session υ τ} (h : s.Timed offset) :
    s.begun.timer = offset + s.begun.time := by
  change s.timer + s.elapsed = offset + (s.time + s.elapsed)
  rw [h.timer, UInt64.add_assoc]

theorem Timed.begun {offset : UInt64} {s : Session υ τ} (h : s.Timed offset) :
    s.begun.Timed offset :=
  ⟨h.fixed, h.timer_begun, UInt64.le_of_eq h.time_begun⟩

theorem Timed.of_counts {offset : UInt64} {k : Nat} {s s' : Session υ τ} (h : s.Timed offset)
    (hcounts : s.Counts k s') (hle : s.cycle ≤ s'.cycle) : s'.Timed offset := by
  have hfixed : s'.machine.config.timing = .fixed := by
    rw [hcounts.config]
    exact h.fixed
  have hnow : s.now ≤ s'.now := by
    rw [now_eq h.fixed, now_eq hfixed, hcounts.config, UInt64.le_iff_toNat_le, UInt64.toNat_div,
      UInt64.toNat_div]
    exact Nat.div_le_div_right (UInt64.le_iff_toNat_le.mp hle)
  refine ⟨hfixed, ?_, ?_⟩
  · rw [hcounts.time, ← h.timer]
    exact hcounts.hart.1
  · rw [hcounts.time]
    exact UInt64.le_trans h.time_le hnow

theorem Timed.host {offset : UInt64} {s : Session υ τ} (h : s.Timed offset) (terminal : τ)
    (keys : List UInt8) :
    Timed offset ⟨keys.foldl Machine.sendKey s.machine, terminal, s.time⟩ := by
  obtain ⟨queue, hqueue⟩ := foldl_sendKey keys s.machine
  rw [hqueue]
  exact h.of_counts (k := 0) ⟨rfl, rfl, .refl _ _⟩ (UInt64.le_of_eq rfl)

theorem timed_start {m : Machine υ} (hfixed : m.config.timing = .fixed) (terminal : τ) :
    (start m terminal).Timed m.hart.csr.timer := by
  have hstart : start m terminal = ⟨m, terminal, 0⟩ := by
    unfold start
    rw [hfixed]
  rw [hstart]
  exact ⟨hfixed, (UInt64.add_zero _).symm, UInt64.le_iff_toNat_le.mpr (Nat.zero_le _)⟩

/-! ## A turn in two parts -/

variable [StorageUnit υ]

def proceedBatch : EStateM MachineError (Session υ τ) Outcome := do
  let limit := (← get).machine.config.instructionsPerBatch
  onMachine (Machine.proceed limit)

/-- What a turn does once its batch has been started. -/
def proceed : EStateM MachineError (Session υ τ) (Option MachineExit) := do
  let outcome ← proceedBatch
  showOutput
  conclude outcome

/-- A batch is started, and then it is gone on with. -/
theorem executeBatch_eq (s : Session υ τ) : executeBatch s = proceedBatch s.begun :=
  rfl

theorem turn_eq {s : Session υ τ} (hgo : Terminal.stopRequested s.terminal = false) :
    turn s = proceed s.begun := by
  have hrest : turn s = (executeBatch >>= fun outcome => do showOutput; conclude outcome) s := by
    simp only [turn, bind, EStateM.bind, get, getThe, MonadStateOf.get, EStateM.get, hgo]
    rfl
  rw [hrest]
  simp only [proceed, bind, EStateM.bind, executeBatch_eq]

theorem turn_eq_stop {s : Session υ τ} (hstop : Terminal.stopRequested s.terminal = true) :
    turn s = (some <$> stop) s := by
  simp only [turn, bind, EStateM.bind, get, getThe, MonadStateOf.get, EStateM.get, hstop]
  rfl

omit [Terminal τ] in
theorem counting_proceedBatch : Counting (υ := υ) (τ := τ) 1 proceedBatch := by
  rintro ⟨⟨config, hart, platform, tree⟩, terminal, time⟩
  have hcounts := Core.counts_proceed config.instructionsPerBatch (⟨hart, platform⟩ : Core _)
  rw [← Nat.one_mul config.instructionsPerBatch.toNat] at hcounts
  simp only [proceedBatch, bind, EStateM.bind, get, getThe, MonadStateOf.get, EStateM.get,
    onMachine, Machine.proceed]
  revert hcounts
  cases Core.proceed config.instructionsPerBatch (⟨hart, platform⟩ : Core _) <;>
    exact fun hcounts => ⟨rfl, rfl, hcounts⟩

theorem counting_proceed : Counting (υ := υ) (τ := τ) 2 proceed :=
  Counting.bind (j := 1) (k := 1) counting_proceedBatch fun outcome =>
    counting_showOutput.then fun _ => counting_conclude outcome

/-- A turn counts at most the cycles of two batches, of one executed and of one waited for. -/
theorem turn_counts (s : Session υ τ) :
    s.Counts 2 (stateOf (turn s)) ∨ s.begun.Counts 2 (stateOf (turn s)) := by
  cases hstop : Terminal.stopRequested s.terminal with
  | true =>
      rw [turn_eq_stop hstop]
      exact .inl ((counting_stop s).mono (Nat.zero_le 2))
  | false =>
      rw [turn_eq hstop]
      exact .inr (counting_proceed s.begun)

theorem Timed.turn {offset : UInt64} {s : Session υ τ} (h : s.Timed offset)
    (hle : s.cycle ≤ (stateOf (turn s)).cycle) : (stateOf (turn s)).Timed offset := by
  rcases turn_counts s with hcounts | hcounts
  · exact h.of_counts hcounts hle
  · exact h.begun.of_counts hcounts hle

/-! ## Runs after a boot -/

/-- The session is at the start of a turn in one of the runs that the host has made of `m`, with
nothing between them but keys typed and changes of the terminal. The list tells, for each run that
has ended, the time that it had handed to the timer, last run first. The cycle counter has not
wrapped around. -/
inductive Since (m : Machine υ) : List UInt64 → Session υ τ → Prop
  | start (terminal : τ) : Since m [] (.start m terminal)
  | host {past : List UInt64} {s : Session υ τ} (terminal : τ) (keys : List UInt8) :
      Since m past s → Since m past ⟨keys.foldl Machine.sendKey s.machine, terminal, s.time⟩
  | turn {past : List UInt64} {s s' : Session υ τ} : Since m past s → turn s = .ok none s' →
      s.cycle ≤ s'.cycle → Since m past s'
  | again {past : List UInt64} {s s' : Session υ τ} (terminal : τ) : Since m past s →
      (∃ exit, turn s = .ok (some exit) s') ∨ (∃ error, turn s = .error error s') →
      s.cycle ≤ s'.cycle → Since m (s'.time :: past) (.start s'.machine terminal)

/-- The timer is ahead by what the runs before have handed to it. -/
theorem Since.timed {m : Machine υ} (hfixed : m.config.timing = .fixed)
    (htimer : m.hart.csr.timer = 0) {past : List UInt64} {s : Session υ τ} (h : Since m past s) :
    s.Timed past.sum := by
  induction h with
  | start terminal =>
      have hstart := timed_start hfixed terminal
      rwa [htimer] at hstart
  | host terminal keys _ ih => exact ih.host terminal keys
  | turn _ hturn hle ih =>
      have hnext := ih.turn
      rw [hturn] at hnext
      exact hnext hle
  | @again past s s' terminal _ hends hle ih =>
      have hend : s'.Timed past.sum := by
        have hnext := ih.turn
        obtain ⟨exit, hturn⟩ | ⟨error, hturn⟩ := hends <;>
          rw [hturn] at hnext <;> exact hnext hle
      have hstart := timed_start hend.fixed terminal
      have hsum : s'.machine.hart.csr.timer = (s'.time :: past).sum :=
        hend.timer.trans (UInt64.add_comm _ _)
      rwa [hsum] at hstart

/-- Whether the cycle counter goes on without wrapping around in each of so many turns. -/
def CountsOn : Nat → Session υ τ → Bool
  | 0, _ => true
  | turns + 1, s => s.cycle ≤ (stateOf (turn s)).cycle &&
    match turn s with
    | .ok none s' => CountsOn turns s'
    | _ => true

/-- What a run leaves: it can go on, or it has ended and can be entered again. -/
def Since.Leaves (m : Machine υ) (past : List UInt64) :
    EStateM.Result MachineError (Session υ τ) (Option MachineExit) → Prop
  | .ok none s => Since m past s
  | .ok (some _) s | .error _ s =>
    ∀ terminal : τ, Since m (s.time :: past) (.start s.machine terminal)

theorem Since.run {m : Machine υ} {past : List UInt64} (turns : Nat) {s : Session υ τ}
    (h : Since m past s) (hcounts : s.CountsOn turns) : Since.Leaves m past (s.run turns) := by
  induction turns generalizing s with
  | zero => exact h
  | succ turns ih =>
      simp only [CountsOn, Bool.and_eq_true, decide_eq_true_eq] at hcounts
      obtain ⟨hle, hrest⟩ := hcounts
      unfold Session.run
      revert hle hrest
      cases hturn : Session.turn s with
      | ok exit s' =>
          intro hle hrest
          cases exit with
          | none => exact ih (h.turn hturn hle) hrest
          | some exit => exact fun terminal => h.again terminal (.inl ⟨exit, hturn⟩) hle
      | error error s' =>
          exact fun hle _ terminal => h.again terminal (.inr ⟨error, hturn⟩) hle

end Session

/-- A guest starts with a hart that has counted nothing, shows no time and does not wait. -/
theorem Machine.hart_boot {υ : Type} [StorageUnit υ] {m₀ m : Machine υ} {source : InputSource}
    {info : BootInfo} (hboot : boot source m₀ = .ok info m) :
    m.hart.csr = {} ∧ m.hart.waiting = false := by
  rw [boot, bootWith_eq] at hboot
  revert hboot
  cases loadImage .standard source (m₀.mapCache Cache.invalidate) with
  | error error m₁ =>
      intro hboot
      cases hboot
  | ok length m₁ =>
      simp only
      intro hboot
      cases hplaced : placeDeviceTree length m₁ with
      | error error m₂ =>
          rw [hplaced] at hboot
          cases hboot
      | ok offset m₂ =>
          rw [hplaced] at hboot
          cases hboot
          exact ⟨rfl, rfl⟩

namespace Session

/-- When a batch has been started, in whichever of the runs since a boot and however the batches
before it ended, the timer shows one tick for every `timeDivisor` cycles that the hart has counted,
and the ticks that the runs before have handed to it besides. So it shows the cycles divided just
in the first run, and as long as none has handed out anything. A turn that is not stopped starts its
batch so, and leaves the timer at that. -/
theorem timer_since_boot {υ τ : Type} [StorageUnit υ] [Terminal τ] {m₀ m : Machine υ}
    {source : InputSource} {info : BootInfo} (hboot : Machine.boot source m₀ = .ok info m)
    (hfixed : m.config.timing = .fixed) {past : List UInt64} {s : Session υ τ}
    (hs : Since m past s) :
    let ticks := s.cycle.toNat / s.machine.config.timeDivisor.toNat
    s.begun.timer = past.sum + UInt64.ofNat ticks ∧
      (s.begun.timer.toNat = ticks ↔ past.sum = 0) ∧
      (Terminal.stopRequested s.terminal = false →
        turn s = proceed s.begun ∧ (stateOf (turn s)).timer = s.begun.timer) := by
  intro ticks
  have htimed := hs.timed hfixed (congrArg (·.timer) (Machine.hart_boot hboot).1)
  have hticks : UInt64.ofNat ticks = s.now := by
    rw [show ticks = s.now.toNat from (toNat_now htimed.fixed).symm, UInt64.ofNat_toNat]
  have htimer : s.begun.timer = past.sum + s.now := by
    rw [htimed.timer_begun, htimed.time_begun]
  refine ⟨hticks ▸ htimer, ?_, fun hgo => ?_⟩
  · rw [htimer, show ticks = s.now.toNat from (toNat_now htimed.fixed).symm, UInt64.toNat_inj,
      UInt64.add_eq_right]
  · rw [turn_eq hgo]
    exact ⟨rfl, (counting_proceed s.begun).hart.1⟩

/-! ## A guest that is entered again -/

/-- One instruction in each batch, and one tick for each cycle. -/
def tickingConfig : Config :=
  { Machine.smallConfig with timing := .fixed, instructionsPerBatch := 1 }

/-- The guest switches the machine off with its fourth instruction, and again with its sixth. -/
def tickingGuest : InputSource :=
  .ofBytes ⟨#[0xB7, 0x02, 0x10, 0x11, 0x37, 0x53, 0x00, 0x00, 0x13, 0x03, 0x53, 0x55,
    0x23, 0xA0, 0x62, 0x00, 0x13, 0x00, 0x00, 0x00, 0x23, 0xA0, 0x62, 0x00]⟩

/-- The first run has handed three ticks to the timer when the guest switches off. In the run after
it they are counted again: after five cycles the timer shows eight. -/
theorem timer_since_boot_again :
    ∃ info m, ∃ s : Session Medium CommandLine.HeldTerminal,
      Machine.boot tickingGuest
        (Machine.new tickingConfig Machine.smallCache Machine.smallTree) =
          .ok info m ∧
      m.config.timing = .fixed ∧ Since m [3] s ∧ s.cycle = 5 ∧ s.begun.timer = 3 + 5 := by
  let terminal : CommandLine.HeldTerminal := {}
  let booted := Machine.boot tickingGuest
    (Machine.new tickingConfig Machine.smallCache Machine.smallTree)
  let first := Session.run 4 (.start (stateOf booted) terminal)
  let second := Session.run 1 (.start (stateOf first).machine terminal)
  have hbooted : answer? booted = some ⟨24, 0x80000018, 24⟩ := by decide +kernel
  have hfirst : answer? first = some (some .powerOff) := by decide +kernel
  have hsecond : answer? second = some none := by decide +kernel
  have hcounts : CountsOn 4 (.start (stateOf booted) terminal) = true := by decide +kernel
  have hcounts' : CountsOn 1 (.start (stateOf first).machine terminal) = true := by decide +kernel
  have htime : (stateOf first).time = 3 := by decide +kernel
  have hcycle : (stateOf second).cycle = 5 := by decide +kernel
  have hfixed : (stateOf booted).config.timing = .fixed := by decide +kernel
  have hdivisor : (stateOf second).machine.config.timeDivisor = 1 := by decide +kernel
  have hstart : Since (stateOf booted) [] (.start (stateOf booted) terminal) := .start terminal
  have hend := hstart.run 4 hcounts
  rw [show Session.run 4 (.start (stateOf booted) terminal) = _ from eq_ok_of_answer? hfirst]
    at hend
  have hagain := (hend terminal).run 1 hcounts'
  rw [show Session.run 1 (.start (stateOf first).machine terminal) = _ from
    eq_ok_of_answer? hsecond] at hagain
  have hpast : Since (stateOf booted) [3] (stateOf second) := htime ▸ hagain
  obtain ⟨htimer, -⟩ := timer_since_boot (eq_ok_of_answer? hbooted) hfixed hpast
  rw [hcycle, hdivisor] at htimer
  exact ⟨_, _, _, eq_ok_of_answer? hbooted, hfixed, hpast, hcycle, htimer⟩

end Session

end RiscvMachine
