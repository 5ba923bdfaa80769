import RiscvMachine.Proofs.Hart.Replay
import RiscvMachine.Proofs.Machine.Waiting

set_option autoImplicit false

/-! # What the guest prints

What a guest prints is told by its calls on the bus and by the memory that they find, whatever is
in the buffer of the console (`Platform.printed`, `Core.printed`). Every instruction adds that to
the buffer (`Core.output_after`), and so does every batch (`Core.output_step`).

A session empties the buffer to the terminal after every batch that does not fail. So what the
terminal has been shown and what is left in the buffer are together what the guest has printed,
each byte once and in order (`Session.run_accounts`), but what is left need not be empty: it is not
where the store has failed in the last batch, and where the operator has stopped the session before
its first one.
-/

namespace RiscvMachine

/-! ## Calls -/

namespace Platform

variable {υ : Type} [StorageUnit υ]

/-- The bytes of a string in memory, as the cache answers them one after the other: up to a zero,
the end of RAM or a failure. -/
def stringBytes : Nat → UInt32 → Cache υ → List UInt8
  | 0, _, _ => []
  | n + 1, offset, cache =>
    match Cache.readNumber .byte offset cache with
    | .ok value cache =>
      if value = 0 then [] else value.toUInt8 :: stringBytes n (offset + 1) cache
    | .error _ _ => []

/-- The bytes that a call prints: those that the data register of the serial line is written, and
those that the debug channel makes of the value that is written to it. -/
def printed (p : Platform υ) : BusCall → List UInt8
  | .read _ _ => []
  | .write _ addr value => if addr = serialBase then [value.toUInt8] else []
  | .readCsr _ => []
  | .writeCsr number value =>
    if number = 0x136 then (Text.signedDecimal value.toInt32.toInt).toUTF8.data.toList
    else if number = 0x137 then (Text.hex 8 value.toNat).toUTF8.data.toList
    else if number = 0x138 then
      stringBytes (p.ramSize.toNat - (value - ramBase).toNat) (value - ramBase) p.cache
    else if number = 0x139 then [value.toUInt8]
    else []

theorem toByteArray_toList (bytes : ByteArray) : bytes.data.toList.toByteArray = bytes :=
  ByteArray.ext (by simp)

/-- An access of any width carries the lowest byte. -/
theorem toUInt8_truncate (width : Width) (value : UInt32) :
    (width.truncate value).toUInt8 = value.toUInt8 := by
  cases width with
  | byte => exact UInt8.toUInt8_toUInt32 _
  | half =>
      apply UInt8.toNat_inj.mp
      change (value.toUInt16.toUInt32.toUInt8).toNat = _
      rw [UInt32.toNat_toUInt8, UInt16.toNat_toUInt32, UInt32.toNat_toUInt16,
        UInt32.toNat_toUInt8]
      exact Nat.mod_mod_of_dvd _ (by decide)
  | word => rfl

/-- Reading takes keys at most. -/
theorem output_readDevice (width : Width) (addr : UInt32) (console : GuestConsole) :
    (readDevice width addr console).2.output = console.output := by
  unfold readDevice SerialLine.load
  split
  · split
    · rfl
    split <;> rfl
  · rfl

theorem output_readChannel (number : UInt32) (console : GuestConsole) :
    (DebugChannel.read number console).2.output = console.output := by
  unfold DebugChannel.read
  split <;> rfl

theorem output_writeDevice (addr value : UInt32) (console : GuestConsole) :
    (writeDevice addr value console).output =
      console.output ++ (if addr = serialBase then [value.toUInt8] else []).toByteArray := by
  obtain ⟨keys, output⟩ := console
  by_cases haddr : addr = serialBase
  · subst haddr
    exact Bytes.push_eq_append output value.toUInt8
  · have hoffset : ¬ addr - serialBase = SerialLine.dataRegister := by
      rw [SerialLine.dataRegister, sub_eq_zero]
      exact haddr
    rw [if_neg haddr]
    simp only [writeDevice, SerialLine.store, if_neg hoffset, ite_self]
    exact ByteArray.append_empty.symm

theorem output_printString (n : Nat) (offset : UInt32) (cache : Cache υ) (output : ByteArray) :
    (stateOf (DebugChannel.printString n offset (cache, output))).2 =
      output ++ (stringBytes n offset cache).toByteArray := by
  induction n generalizing offset cache output with
  | zero => exact ByteArray.append_empty.symm
  | succ n ih =>
      simp only [DebugChannel.printString, stringBytes]
      cases Cache.readNumber .byte offset cache with
      | error error cache' => exact ByteArray.append_empty.symm
      | ok value cache' =>
          simp only
          split
          · exact ByteArray.append_empty.symm
          · rw [ih, Bytes.push_eq_append, ByteArray.append_assoc, ← List.toByteArray_append]
            rfl

theorem output_channel (p : Platform υ) (number value : UInt32) :
    (stateOf (DebugChannel.write p.ramSize number value (p.cache, p.console.output))).2 =
      p.console.output ++ (p.printed (.writeCsr number value)).toByteArray := by
  simp only [DebugChannel.write, printed]
  split
  · rw [toByteArray_toList]
    rfl
  split
  · rw [toByteArray_toList]
    rfl
  split
  · exact output_printString _ _ _ _
  split
  · rfl
  · exact ByteArray.append_empty.symm

/-- A call adds to the buffer what it prints, also if it fails. -/
theorem output_after (p : Platform υ) (call : BusCall) :
    (BusCall.after p call).console.output =
      p.console.output ++ (p.printed call).toByteArray := by
  obtain ⟨cache, ⟨keys, output⟩, ramSize⟩ := p
  cases call with
  | read width addr =>
      refine Eq.trans ?_ ByteArray.append_empty.symm
      change (stateOf (Platform.read width addr _)).console.output = output
      by_cases hdevice : isDevice addr
      · simp only [Platform.read, if_pos hdevice]
        exact output_readDevice width addr ⟨keys, output⟩
      simp only [Platform.read, if_neg hdevice, bind, EStateM.bind, get, getThe,
        MonadStateOf.get, EStateM.get]
      cases ramOffset? ramSize addr width with
      | none => rfl
      | some offset =>
          simp only [onCache]
          cases Cache.readNumber width offset cache <;> rfl
  | write width addr value =>
      change (stateOf (Platform.write width addr value _)).console.output = _
      by_cases hdevice : isDevice addr
      · simp only [Platform.write, if_pos hdevice]
        have hwrite := output_writeDevice addr (width.truncate value) ⟨keys, output⟩
        rw [toUInt8_truncate] at hwrite
        exact hwrite
      -- memory prints nothing, and the line's data register is no memory
      have haddr : addr ≠ serialBase := by
        rintro rfl
        exact hdevice (by decide)
      rw [printed, if_neg haddr]
      refine Eq.trans ?_ ByteArray.append_empty.symm
      simp only [Platform.write, if_neg hdevice, bind, EStateM.bind, get, getThe,
        MonadStateOf.get, EStateM.get]
      cases ramOffset? ramSize addr width with
      | none => rfl
      | some offset =>
          simp only [onCache]
          cases Cache.writeNumber width offset value cache <;> rfl
  | readCsr number =>
      refine Eq.trans ?_ ByteArray.append_empty.symm
      exact output_readChannel number ⟨keys, output⟩
  | writeCsr number value =>
      change (stateOf (Platform.writeCsr number value _)).console.output = _
      rw [← output_channel]
      simp only [Platform.writeCsr]
      cases DebugChannel.write ramSize number value (cache, output) <;> rfl

end Platform

/-! ## Instructions -/

namespace Core

variable {υ : Type} [StorageUnit υ]

/-- The bytes that an instruction prints, call by call. -/
def printed (c : Core (Platform υ)) : List UInt8 :=
  BusCall.notes Platform.printed c.bus c.busCalls

/-- An instruction adds to the buffer what it prints, whether or not it retires. -/
theorem output_after (c : Core (Platform υ)) :
    c.after.bus.console.output = c.bus.console.output ++ c.printed.toByteArray := by
  have hnotes (calls : List BusCall) (p : Platform υ) :
      (BusCall.replay p calls).console.output =
        p.console.output ++ (BusCall.notes Platform.printed p calls).toByteArray := by
    induction calls generalizing p with
    | nil => exact ByteArray.append_empty.symm
    | cons call rest ih =>
        rw [BusCall.notes, List.toByteArray_append, ← ByteArray.append_assoc,
          ← Platform.output_after]
        exact ih (BusCall.after p call)
  rw [← c.replay_calls]
  exact hnotes c.busCalls c.bus

/-- The bytes that the instructions of a step print, in order. -/
def printedBy (limit : UInt32) (elapsed : UInt64) (c : Core (Platform υ)) : List UInt8 :=
  (stepStates limit elapsed c).flatMap printed

/-- A step adds to the buffer what its instructions print, also if it fails. -/
theorem output_step (limit : UInt32) (elapsed : UInt64) (c : Core (Platform υ)) :
    (stateOf (step limit elapsed c)).bus.console.output =
      c.bus.console.output ++ (c.printedBy limit elapsed).toByteArray := by
  have hkept : Core.Kept fun past (c' : Core (Platform υ)) =>
      c'.bus.console.output = c.bus.console.output ++ (past.flatMap printed).toByteArray :=
    { execute := by
        intro past c' h
        rw [output_after, h, List.flatMap_append, List.flatMap_singleton,
          List.toByteArray_append, ByteArray.append_assoc]
      turn := fun _ h => h }
  have hstart : c.bus.console.output =
      c.bus.console.output ++ (([] : List (Core (Platform υ))).flatMap printed).toByteArray :=
    ByteArray.append_empty.symm
  exact (step_along hkept limit elapsed hstart).2

end Core

/-- A step of the machine fails for the store, and adds the same to the buffer then. -/
theorem Machine.step_printed {υ : Type} [StorageUnit υ] (limit : UInt32) (elapsed : UInt64)
    (m : Machine υ) :
    Ends (fun _ m' => m'.platform.console.output =
        m.platform.console.output ++ (m.core.printedBy limit elapsed).toByteArray)
      (fun error m' => (∃ failure, error = .storage failure) ∧ m'.platform.console.output =
        m.platform.console.output ++ (m.core.printedBy limit elapsed).toByteArray)
      (step limit elapsed m) := by
  obtain ⟨config, hart, platform, tree⟩ := m
  have houtput := Core.output_step limit elapsed (⟨hart, platform⟩ : Core (Platform υ))
  simp only [step, core]
  revert houtput
  cases Core.step limit elapsed (⟨hart, platform⟩ : Core (Platform υ)) with
  | ok outcome core => exact fun houtput => .ok houtput
  | error error core => exact fun houtput => .error ⟨⟨error, rfl⟩, houtput⟩

/-! ## The terminal -/

/-- The terminal takes all that is written to it, and `shown` is what it has taken. Whether it can
be flushed is left open. -/
structure Terminal.Takes {τ : Type} [Terminal τ] (shown : τ → ByteArray) : Prop where
  write (data : ByteArray) (t : τ) :
    ∃ t', Terminal.write data t = .ok () t' ∧ shown t' = shown t ++ data
  flush (t : τ) : shown (stateOf (Terminal.flush t)) = shown t
  idle (t : τ) : shown (Terminal.idle t) = shown t

/-- The line with which a session that the guest has ended takes its leave. -/
def MachineExit.message (cycle : UInt64) : MachineExit → String
  | .reboot => "REBOOT@0x" ++ Text.hex 16 cycle.toNat
  | .powerOff => "POWEROFF@0x" ++ Text.hex 16 cycle.toNat
  | .fault => "FAULT"
  | .unknown value => s!"Unknown failure (0x{Text.hex 1 value.toNat})"

namespace Session

variable {υ τ : Type}

/-- What the guest has printed and the terminal has not been shown. -/
def pending (s : Session υ τ) : ByteArray := s.machine.platform.console.output

/-- The bytes of a line of its own. -/
def line (text : String) : ByteArray := ("\r\n" ++ text ++ "\n").toUTF8

/-- What a session shows at last, besides what the guest has printed: the line of its exit, or the
dump if the operator has stopped it. -/
inductive Farewell : EStateM.Result MachineError (Session υ τ) (Option MachineExit) →
    ByteArray → Prop
  | goesOn (s : Session υ τ) : Farewell (.ok none s) ByteArray.empty
  | exit (exit : MachineExit) (s : Session υ τ) :
      Farewell (.ok (some exit) s) (line (exit.message s.cycle))
  | stopped (s : Session υ τ) : Farewell (.ok (some .powerOff) s) (line s.machine.dump.report)
  | stoppedUnflushed (s : Session υ τ) :
      Farewell (.error .console s) (line s.machine.dump.report)
  | failed (error : MachineError) (s : Session υ τ) :
      Farewell (.error error s) ByteArray.empty

def FailedStore {α : Type} (result : EStateM.Result MachineError (Session υ τ) α) : Prop :=
  ∃ error s, result = .error (.storage error) s

theorem not_failedStore_ok {α : Type} (a : α) (s : Session υ τ) : ¬ FailedStore (.ok a s) := by
  rintro ⟨error, s', hresult⟩
  cases hresult

theorem not_failedStore_console {α : Type} (s : Session υ τ) :
    ¬ FailedStore (.error .console s : EStateM.Result MachineError (Session υ τ) α) := by
  rintro ⟨error, s', hresult⟩
  cases hresult

variable [Terminal τ] {shown : τ → ByteArray} (hshown : Terminal.Takes shown)

/-! ## The parts of a turn -/

include hshown

/-- Writing to the terminal shows what is written. -/
theorem onTerminal_write (data : ByteArray) (s : Session υ τ) :
    ∃ s', onTerminal (Terminal.write data) s = .ok () s' ∧
      shown s'.terminal = shown s.terminal ++ data ∧ s'.machine = s.machine := by
  obtain ⟨machine, terminal, time⟩ := s
  obtain ⟨terminal', hwrite, hterminal⟩ := hshown.write data terminal
  refine ⟨⟨machine, terminal', time⟩, ?_, hterminal, rfl⟩
  simp only [onTerminal, hwrite]

/-- Flushing the terminal may fail, but shows nothing. -/
theorem onTerminal_flush (s : Session υ τ) :
    Ends (fun _ s' => shown s'.terminal = shown s.terminal ∧ s'.machine = s.machine)
      (fun error s' => error = .console ∧ shown s'.terminal = shown s.terminal ∧
        s'.machine = s.machine) (onTerminal Terminal.flush s) := by
  obtain ⟨machine, terminal, time⟩ := s
  have hflush := hshown.flush terminal
  simp only [onTerminal]
  revert hflush
  cases Terminal.flush terminal with
  | ok _ terminal' => exact fun hflush => .ok ⟨hflush, rfl⟩
  | error _ terminal' => exact fun hflush => .error ⟨rfl, hflush, rfl⟩

/-- Showing the output empties the buffer to the terminal, also if that cannot be flushed. -/
theorem showOutput_shown (s : Session υ τ) :
    Ends (fun _ s' => shown s'.terminal = shown s.terminal ++ s.pending ∧
        s'.pending = ByteArray.empty)
      (fun error s' => error = .console ∧ shown s'.terminal = shown s.terminal ++ s.pending ∧
        s'.pending = ByteArray.empty) (showOutput s) := by
  obtain ⟨⟨config, hart, ⟨cache, ⟨keys, output⟩, ramSize⟩, tree⟩, terminal, time⟩ := s
  let taken : Session υ τ :=
    ⟨⟨config, hart, ⟨cache, ⟨keys, ByteArray.empty⟩, ramSize⟩, tree⟩, terminal, time⟩
  let show' : EStateM MachineError (Session υ τ) Unit := do
    if !output.isEmpty then
      onTerminal (Terminal.write output)
      onTerminal Terminal.flush
  change Ends _ _ (show' taken)
  unfold show'
  by_cases hempty : output.isEmpty
  · have houtput : output = ByteArray.empty := by
      simpa [ByteArray.isEmpty] using hempty
    subst houtput
    exact .ok ⟨ByteArray.append_empty.symm, rfl⟩
  · rw [if_pos (by simp [hempty])]
    obtain ⟨s₁, hwrite, hshown₁, hmachine₁⟩ := onTerminal_write hshown output taken
    have hflush := onTerminal_flush hshown s₁
    simp only [bind, EStateM.bind, hwrite]
    refine hflush.imp (fun _ s' h => ⟨h.1.trans hshown₁, ?_⟩)
      (fun error s' h => ⟨h.1, h.2.1.trans hshown₁, ?_⟩)
    · rw [pending, h.2, hmachine₁]
    · rw [pending, h.2.2, hmachine₁]

/-- An exit shows its line, and leaves the buffer alone. -/
theorem exit_shown (exit : MachineExit) (s : Session υ τ) :
    ∃ s' farewell, (showLine (exit.message s.cycle) >>= fun _ => pure (some exit) :
        EStateM MachineError (Session υ τ) (Option MachineExit)) s = .ok (some exit) s' ∧
      Farewell (.ok (some exit) s') farewell ∧
      shown s'.terminal = shown s.terminal ++ farewell ∧ s'.pending = s.pending := by
  obtain ⟨s', hwrite, hterminal, hmachine⟩ :=
    onTerminal_write hshown (line (exit.message s.cycle)) s
  -- the line tells the cycle from before it was written, which is that from after it
  have hcycle : s'.cycle = s.cycle := by
    rw [cycle, hmachine]
    rfl
  refine ⟨s', line (exit.message s'.cycle), ?_, .exit exit s', ?_, ?_⟩
  · simp only [bind, EStateM.bind, showLine]
    rw [show onTerminal (Terminal.write ("\r\n" ++ exit.message s.cycle ++ "\n").toUTF8) s =
      .ok () s' from hwrite]
    rfl
  · rw [hcycle]
    exact hterminal
  · rw [pending, hmachine]
    rfl

/-- The batch's end shows no more than the line of an exit. -/
theorem conclude_shown (outcome : Outcome) (s : Session υ τ) :
    ∃ exit s' farewell, conclude outcome s = .ok exit s' ∧ Farewell (.ok exit s') farewell ∧
      shown s'.terminal = shown s.terminal ++ farewell ∧ s'.pending = s.pending := by
  cases outcome with
  | ran => exact ⟨none, s, _, rfl, .goesOn s, ByteArray.append_empty.symm, rfl⟩
  | waitForInterrupt =>
      obtain ⟨machine, terminal, time⟩ := s
      refine ⟨none, _, _, rfl, .goesOn _, ?_, rfl⟩
      rw [ByteArray.append_empty]
      change shown (if machine.config.idleOnWait then Terminal.idle terminal else terminal) = _
      split
      · exact hshown.idle terminal
      · rfl
  | fault =>
      obtain ⟨s', farewell, h⟩ := exit_shown hshown .fault s
      exact ⟨some .fault, s', farewell, h⟩
  | reboot =>
      obtain ⟨s', farewell, h⟩ := exit_shown hshown .reboot s
      exact ⟨some .reboot, s', farewell, h⟩
  | powerOff =>
      obtain ⟨s', farewell, h⟩ := exit_shown hshown .powerOff s
      exact ⟨some .powerOff, s', farewell, h⟩
  | unknown value =>
      obtain ⟨s', farewell, h⟩ := exit_shown hshown (.unknown value) s
      exact ⟨some (.unknown value), s', farewell, h⟩

/-- The operator who stops a session is shown the dump, also if the terminal cannot be flushed. -/
theorem stop_shown (s : Session υ τ) :
    Ends (fun exit s' => exit = some .powerOff ∧
        shown s'.terminal = shown s.terminal ++ line s'.machine.dump.report ∧
        s'.pending = s.pending)
      (fun error s' => error = .console ∧
        shown s'.terminal = shown s.terminal ++ line s'.machine.dump.report ∧
        s'.pending = s.pending) ((some <$> stop) s) := by
  obtain ⟨s₁, hwrite, hshown₁, hmachine₁⟩ :=
    onTerminal_write hshown (line s.machine.dump.report) s
  have hflush := onTerminal_flush hshown s₁
  -- whether or not the terminal can be flushed, the dump has been shown to it
  have hsame {s' : Session υ τ} (hmachine : s'.machine = s₁.machine)
      (hterminal : shown s'.terminal = shown s₁.terminal) :
      shown s'.terminal = shown s.terminal ++ line s'.machine.dump.report ∧
        s'.pending = s.pending := by
    rw [pending, hmachine, hmachine₁]
    exact ⟨hterminal.trans hshown₁, rfl⟩
  have hstop : (some <$> stop) s = (onTerminal Terminal.flush >>= fun _ =>
      pure (some .powerOff) : EStateM MachineError (Session υ τ) (Option MachineExit)) s₁ := by
    simp only [stop, map_eq_pure_bind, bind, EStateM.bind, get, getThe, MonadStateOf.get,
      EStateM.get, showLine]
    rw [show onTerminal (Terminal.write ("\r\n" ++ s.machine.dump.report ++ "\n").toUTF8) s =
      .ok () s₁ from hwrite]
    dsimp only
    cases onTerminal (υ := υ) (Terminal.flush : EStateM Unit τ Unit) s₁ <;> rfl
  rw [hstop]
  simp only [bind, EStateM.bind]
  revert hflush
  cases onTerminal (Terminal.flush : EStateM Unit τ Unit) s₁ with
  | ok _ s' =>
      exact fun hflush => .ok ⟨rfl, hsame hflush.of_ok.2 hflush.of_ok.1⟩
  | error error s' =>
      exact fun hflush => .error ⟨hflush.of_error.1, hsame hflush.of_error.2.2 hflush.of_error.2.1⟩

omit hshown

/-! ## Turns and runs -/

variable [StorageUnit υ]

/-- The bytes that the instructions of the next batch print. -/
def batchPrinted (s : Session υ τ) : List UInt8 :=
  s.machine.core.printedBy s.machine.config.instructionsPerBatch s.elapsed

/-- The bytes that the instructions of a run print, batch by batch. -/
def batches : Nat → Session υ τ → List (List UInt8)
  | 0, _ => []
  | turns + 1, s =>
    if Terminal.stopRequested s.terminal then []
    else s.batchPrinted ::
      match turn s with
      | .ok none s' => batches turns s'
      | _ => []

/-- A batch adds to the buffer what its instructions print, and shows nothing. -/
theorem executeBatch_printed (s : Session υ τ) :
    Ends (fun _ s' => s'.terminal = s.terminal ∧
        s'.pending = s.pending ++ s.batchPrinted.toByteArray)
      (fun error s' => (∃ failure, error = .storage failure) ∧ s'.terminal = s.terminal ∧
        s'.pending = s.pending ++ s.batchPrinted.toByteArray) (executeBatch s) := by
  have hstep := s.machine.step_printed s.machine.config.instructionsPerBatch s.elapsed
  change Ends _ _ (onMachine (Machine.step s.machine.config.instructionsPerBatch s.elapsed)
    ⟨s.machine, s.terminal, s.time + s.elapsed⟩)
  simp only [onMachine]
  revert hstep
  cases Machine.step s.machine.config.instructionsPerBatch s.elapsed s.machine with
  | ok outcome machine => exact fun hstep => .ok ⟨rfl, hstep.of_ok⟩
  | error error machine => exact fun hstep => .error ⟨hstep.of_error.1, rfl, hstep.of_error.2⟩

/-- What has become of the bytes that the guest has printed, those from before included, when a
run of these batches from `s` on has come to `result`. -/
structure Accounts (shown : τ → ByteArray) (s : Session υ τ) (batches : List (List UInt8))
    (result : EStateM.Result MachineError (Session υ τ) (Option MachineExit)) : Prop where
  /-- What has been shown and what is pending are together all of them, in order, and the terminal
  has been shown nothing else but a last line. -/
  inOrder : ∃ written farewell, Farewell result farewell ∧
    shown (stateOf result).terminal = shown s.terminal ++ written ++ farewell ∧
    written ++ (stateOf result).pending = s.pending ++ batches.flatten.toByteArray
  /-- Without a batch nothing is shown. -/
  idle : batches = [] → (stateOf result).pending = s.pending
  /-- After a batch all is shown, unless the store has failed. -/
  all : batches ≠ [] → ¬ FailedStore result → (stateOf result).pending = ByteArray.empty
  /-- If it has, what the batch has printed is not shown. -/
  failed : FailedStore result → ∃ before last, batches = before ++ [last] ∧
    (stateOf result).pending =
      (if before = [] then s.pending else ByteArray.empty) ++ last.toByteArray

section

omit [StorageUnit υ] [Terminal τ]

variable {s : Session υ τ}
  {result : EStateM.Result MachineError (Session υ τ) (Option MachineExit)}

/-- Nothing is executed, and nothing is shown but a last line. -/
theorem Accounts.idles {farewell : ByteArray} (hfarewell : Farewell result farewell)
    (hlast : shown (stateOf result).terminal = shown s.terminal ++ farewell)
    (hpending : (stateOf result).pending = s.pending) (hstored : ¬ FailedStore result) :
    Accounts shown s [] result where
  inOrder := by
    refine ⟨ByteArray.empty, farewell, hfarewell, ?_, ?_⟩
    · rw [hlast, ByteArray.append_empty]
    · rw [ByteArray.empty_append, hpending]
      exact ByteArray.append_empty.symm
  idle _ := hpending
  all hne := absurd rfl hne
  failed hfailed := absurd hfailed hstored

/-- A batch is executed, and all is shown. -/
theorem Accounts.shows {batch : List UInt8} {farewell : ByteArray}
    (hfarewell : Farewell result farewell)
    (hlast : shown (stateOf result).terminal =
      shown s.terminal ++ (s.pending ++ batch.toByteArray) ++ farewell)
    (hempty : (stateOf result).pending = ByteArray.empty) (hstored : ¬ FailedStore result) :
    Accounts shown s [batch] result where
  inOrder := by
    refine ⟨s.pending ++ batch.toByteArray, farewell, hfarewell, hlast, ?_⟩
    rw [hempty, ByteArray.append_empty, List.flatten_singleton]
  idle := nofun
  all _ _ := hempty
  failed hfailed := absurd hfailed hstored

/-- A batch is cut off by the store, and nothing is shown. -/
theorem Accounts.breaks {batch : List UInt8} {failure : StorageError} {s₁ : Session υ τ}
    (hterminal : s₁.terminal = s.terminal)
    (hpending : s₁.pending = s.pending ++ batch.toByteArray) :
    Accounts shown s [batch] (.error (.storage failure) s₁) where
  inOrder := by
    refine ⟨ByteArray.empty, ByteArray.empty, .failed _ _, ?_, ?_⟩
    · simp only [stateOf, hterminal, ByteArray.append_empty]
    · simp only [stateOf, hpending, ByteArray.empty_append, List.flatten_singleton]
  idle := nofun
  all _ hstored := absurd ⟨failure, s₁, rfl⟩ hstored
  failed _ := ⟨[], batch, rfl, hpending⟩

/-- A turn that goes on, and the run after it. -/
theorem Accounts.cons {s₁ : Session υ τ} {batch : List UInt8} {rest : List (List UInt8)}
    (hturn : Accounts shown s [batch] (.ok none s₁)) (hrest : Accounts shown s₁ rest result) :
    Accounts shown s (batch :: rest) result := by
  have hempty : s₁.pending = ByteArray.empty :=
    hturn.all (List.cons_ne_nil _ _) (not_failedStore_ok none s₁)
  obtain ⟨written₁, farewell₁, hfarewell₁, hshown₁, horder₁⟩ := hturn.inOrder
  obtain ⟨written, farewell, hfarewell, hshown', horder⟩ := hrest.inOrder
  cases hfarewell₁
  simp only [stateOf, hempty, ByteArray.append_empty, List.flatten_singleton] at hshown₁ horder₁
  rw [hempty, ByteArray.empty_append] at horder
  refine ⟨⟨written₁ ++ written, farewell, hfarewell, ?_, ?_⟩, nofun, fun _ hstored => ?_,
    fun hfailed => ?_⟩
  · rw [hshown', hshown₁]
    simp only [ByteArray.append_assoc]
  · rw [ByteArray.append_assoc, horder, horder₁, List.flatten_cons, List.toByteArray_append,
      ByteArray.append_assoc]
  · cases rest with
    | nil => exact (hrest.idle rfl).trans hempty
    | cons next rest => exact hrest.all (List.cons_ne_nil _ _) hstored
  · obtain ⟨before, last, rfl, hpending⟩ := hrest.failed hfailed
    refine ⟨batch :: before, last, rfl, ?_⟩
    rw [hpending, hempty, ite_self, if_neg (List.cons_ne_nil _ _)]

end

/-- A turn that is not stopped shows what its batch has printed, unless the store fails. -/
theorem turn_accounts_go (hshown : Terminal.Takes shown) {s : Session υ τ}
    (hgo : Terminal.stopRequested s.terminal = false) :
    Accounts shown s [s.batchPrinted] (turn s) := by
  have hbatch := executeBatch_printed s
  rw [turn_eq hgo]
  simp only [proceed, bind, EStateM.bind, ← executeBatch_eq]
  revert hbatch
  cases executeBatch s with
  | error error s₁ =>
      intro hbatch
      obtain ⟨⟨failure, rfl⟩, hterminal, hpending⟩ := hbatch.of_error
      exact .breaks hterminal hpending
  | ok outcome s₁ =>
      intro hbatch
      obtain ⟨hterminal, hpending⟩ := hbatch.of_ok
      -- the terminal has taken the output even where it cannot be flushed
      have hshow := showOutput_shown hshown s₁
      rw [hterminal, hpending] at hshow
      simp only
      revert hshow
      cases showOutput s₁ with
      | error error s₂ =>
          intro hshow
          obtain ⟨rfl, hshown₂, hempty⟩ := hshow.of_error
          exact .shows (.failed _ _) (hshown₂.trans ByteArray.append_empty.symm) hempty
            (not_failedStore_console s₂)
      | ok _ s₂ =>
          intro hshow
          obtain ⟨hshown₂, hempty⟩ := hshow.of_ok
          obtain ⟨exit, s₃, farewell, hconclude, hfarewell, hshown₃, hpending₃⟩ :=
            conclude_shown hshown outcome s₂
          rw [hshown₂] at hshown₃
          simp only [hconclude]
          exact .shows hfarewell hshown₃ (hpending₃.trans hempty) (not_failedStore_ok exit s₃)

/-- A turn that the operator stops shows the dump, and nothing of what is pending. -/
theorem turn_accounts_stop (hshown : Terminal.Takes shown) {s : Session υ τ}
    (hstop : Terminal.stopRequested s.terminal = true) : Accounts shown s [] (turn s) := by
  have hshow := stop_shown hshown s
  rw [turn_eq_stop hstop]
  revert hshow
  cases (some <$> stop : EStateM MachineError (Session υ τ) (Option MachineExit)) s with
  | ok exit s' =>
      intro hshow
      obtain ⟨rfl, hlast, hpending⟩ := hshow.of_ok
      exact .idles (.stopped s') hlast hpending (not_failedStore_ok _ s')
  | error error s' =>
      intro hshow
      obtain ⟨rfl, hlast, hpending⟩ := hshow.of_error
      exact .idles (.stoppedUnflushed s') hlast hpending (not_failedStore_console s')

/-- In a run of any session, at any terminal that takes all that is written to it, no byte that the
guest prints is lost, shown twice or out of order: what the terminal is shown, but for a last line,
and what is left in the buffer are together what was in the buffer before and what the instructions
of the run have printed. Nothing is left if a batch has been executed and the store has not failed.
If it has, what the last batch has printed is left, and so is what was there before if that batch
was the first. If the operator stops the session before its first batch, what was there is left. -/
theorem run_accounts (hshown : Terminal.Takes shown) (turns : Nat) (s : Session υ τ) :
    Accounts shown s (s.batches turns) (s.run turns) := by
  induction turns generalizing s with
  | zero => exact .idles (.goesOn s) ByteArray.append_empty.symm rfl (not_failedStore_ok none s)
  | succ turns ih =>
      unfold batches run
      cases hstop : Terminal.stopRequested s.terminal with
      | true =>
          have hturn := turn_accounts_stop hshown hstop
          rw [if_pos rfl]
          revert hturn
          cases hresult : turn s with
          | ok exit s₁ =>
              cases exit with
              | none =>
                  -- a turn that is stopped ends the run
                  exact absurd (not_stopped_of_turn hresult) (by rw [hstop]; decide)
              | some exit => exact id
          | error error s₁ => exact id
      | false =>
          have hturn := turn_accounts_go hshown hstop
          rw [if_neg Bool.false_ne_true]
          revert hturn
          cases turn s with
          | ok exit s₁ =>
              cases exit with
              | none => exact fun hturn => hturn.cons (ih s₁)
              | some exit => exact id
          | error error s₁ => exact id

theorem heldTerminal_takes : Terminal.Takes CommandLine.HeldTerminal.output where
  write _ _ := ⟨_, rfl, rfl⟩
  flush _ := rfl
  idle _ := rfl

/-- The guest prints a letter and loads the word at 20 in RAM. -/
def printingGuest : InputSource :=
  .ofBytes ⟨#[0x93, 0x02, 0x10, 0x04, 0x73, 0x90, 0x92, 0x13,
    0x37, 0x03, 0x00, 0x80, 0x83, 0x23, 0x43, 0x01]⟩

/-- The contents of the unit that holds the word have been cut off since the boot, so the batch ends
with a failure of the store. Its letter is not shown. -/
theorem run_accounts_lost :
    let booted := stateOf (Machine.boot printingGuest
      (Machine.new waitingConfig Machine.smallCache Machine.smallTree))
    let s : Session Medium CommandLine.HeldTerminal :=
      .start (booted.withStore (booted.cache.store.setUnit 3 ⟨7, .zeros 0⟩)) {}
    FailedStore (s.run 1) ∧ s.batches 1 = [[0x41]] ∧
      (stateOf (s.run 1)).terminal.output = ByteArray.empty ∧
      (stateOf (s.run 1)).pending = ⟨#[0x41]⟩ := by
  intro booted s
  have herror : (match s.run 1 with
      | .ok _ _ => none
      | .error error _ => some error) = some (.storage (.io 3)) := by
    decide +kernel
  have hfailed : FailedStore (s.run 1) := by
    revert herror
    cases s.run 1 with
    | ok exit s' => exact fun herror => absurd herror (Option.some_ne_none _).symm
    | error error s' => exact fun herror => ⟨_, s', by rw [Option.some_injective _ herror]⟩
  have hbatches : s.batches 1 = [[0x41]] := by decide +kernel
  have hstart : s.pending = ByteArray.empty := by decide +kernel
  have hterminal : (stateOf (s.run 1)).terminal.output = ByteArray.empty := by decide +kernel
  obtain ⟨before, last, hlast, hpending⟩ := (run_accounts heldTerminal_takes 1 s).failed hfailed
  rw [hbatches, List.singleton_eq_append_iff] at hlast
  rw [hstart, ite_self, ByteArray.empty_append] at hpending
  obtain ⟨rfl, hsingle⟩ | ⟨-, hnil⟩ := hlast
  · obtain rfl := List.singleton_inj.mp hsingle
    exact ⟨hfailed, hbatches, hterminal, hpending⟩
  · cases hnil

end Session

end RiscvMachine
