import RiscvMachine.Machine.Platform
import RiscvMachine.Proofs.Device.HostInput
import RiscvMachine.Proofs.Hart.Replay

set_option autoImplicit false

/-! # Typed input

The pump and the guest take turns at the keyboard queue, in any order: the pump offers bytes to it,
and the guest makes calls on its bus, some of which read the registers in front of the queue. Every
turn touches the queue once at most. The log keeps what the queue has held before and after each
touch, and what the guest has been answered.

Whatever the order, typed bytes come to the guest in order and once each
(`TypedInput.run_delivers`).
-/

namespace RiscvMachine

/-! ## Registers in front of the queue -/

/-- The registers through which the guest sees the queue: data and status of the serial line, and
the key register of the debug channel. -/
inductive KeyRegister
  | data
  | status
  | channel
  deriving DecidableEq, Repr

namespace KeyRegister

/-- What a register answers while these bytes are queued. -/
def answer (queued : List UInt8) : KeyRegister → UInt32
  | data => (queued.headD 0).toUInt32
  | status => if queued.isEmpty then 0x60 else 0x61
  | channel => (queued.head?.map UInt8.toUInt32).getD DebugChannel.noKey

/-- What a read of a register leaves of them. -/
def left (queued : List UInt8) : KeyRegister → List UInt8
  | data => queued.tail
  | status => queued
  | channel => queued.tail

end KeyRegister

namespace BusCall

def keyRegister? : BusCall → Option KeyRegister
  | .read _ addr =>
    if addr = serialBase then some .data
    else if addr = serialBase + SerialLine.statusRegister then some .status
    else none
  | .readCsr number => if number = 0x140 then some .channel else none
  | .write _ _ _ => none
  | .writeCsr _ _ => none

def answer? {σ : Type} [Bus σ] (bus : σ) : BusCall → Option UInt32
  | .read width addr => RiscvMachine.answer? (Bus.read width addr bus)
  | .readCsr number => RiscvMachine.answer? (Bus.readCsr number bus)
  | .write _ _ _ => none
  | .writeCsr _ _ => none

end BusCall

namespace Platform

variable {υ : Type} [StorageUnit υ]

/-- A call that reads one of the registers answers what that says, and takes a byte from the queue
if it is to. No other call bears upon the queue. -/
def KeysServed (p : Platform υ) (call : BusCall) : Prop :=
  match call.keyRegister? with
  | some register =>
    BusCall.answer? p call = some (register.answer p.console.keys.queued) ∧
      (BusCall.after p call).console.keys =
        { p.console.keys with queued := register.left p.console.keys.queued }
  | none => (BusCall.after p call).console.keys = p.console.keys

/-- Bytes fit into a read of any width. -/
theorem truncate_toUInt32 (width : Width) (b : UInt8) : width.truncate b.toUInt32 = b.toUInt32 := by
  have hb := b.toNat_lt
  cases width with
  | byte => exact congrArg UInt8.toUInt32 (UInt8.toUInt8_toUInt32 b)
  | half =>
      apply UInt32.toNat_inj.mp
      change b.toUInt32.toUInt16.toUInt32.toNat = _
      rw [UInt16.toNat_toUInt32, UInt32.toNat_toUInt16, UInt8.toNat_toUInt32]
      omega
  | word => rfl

theorem readDevice_data (width : Width) (console : GuestConsole) :
    readDevice width serialBase console =
      (KeyRegister.data.answer console.keys.queued,
        { console with keys := { console.keys with queued := console.keys.queued.tail } }) := by
  obtain ⟨⟨capacity, queued⟩, output⟩ := console
  cases queued with
  | nil => exact congrArg (·, _) (truncate_toUInt32 width 0)
  | cons b rest => exact congrArg (·, _) (truncate_toUInt32 width b)

theorem readDevice_status (width : Width) (console : GuestConsole) :
    readDevice width (serialBase + SerialLine.statusRegister) console =
      (KeyRegister.status.answer console.keys.queued, console) := by
  obtain ⟨⟨capacity, queued⟩, output⟩ := console
  cases queued with
  | nil => exact congrArg (·, _) (truncate_toUInt32 width 0x60)
  | cons b rest => exact congrArg (·, _) (truncate_toUInt32 width 0x61)

theorem keys_readDevice (width : Width) {addr : UInt32} (haddr : addr ≠ serialBase)
    (console : GuestConsole) : (readDevice width addr console).2.keys = console.keys := by
  have hoffset : ¬ addr - serialBase = SerialLine.dataRegister := by
    rw [SerialLine.dataRegister, sub_eq_zero]
    exact haddr
  unfold readDevice SerialLine.load
  rw [if_neg hoffset]
  split
  · split <;> rfl
  · rfl

theorem read_device {addr : UInt32} (haddr : isDevice addr) (width : Width) (p : Platform υ) :
    Bus.read width addr p =
      .ok (readDevice width addr p.console).1
        { p with console := (readDevice width addr p.console).2 } :=
  congrFun (if_pos haddr : Platform.read width addr = onConsole (readDevice width addr)) p

theorem readCsr_key (p : Platform υ) :
    Bus.readCsr 0x140 p =
      .ok (KeyRegister.channel.answer p.console.keys.queued)
        { p with console := { p.console with
          keys := { p.console.keys with queued := p.console.keys.queued.tail } } } := by
  obtain ⟨cache, ⟨⟨capacity, queued⟩, output⟩, ramSize⟩ := p
  cases queued <;> rfl

theorem keys_after_read (p : Platform υ) (width : Width) {addr : UInt32}
    (haddr : addr ≠ serialBase) :
    (BusCall.after p (.read width addr)).console.keys = p.console.keys := by
  obtain ⟨cache, console, ramSize⟩ := p
  change (stateOf (Platform.read width addr _)).console.keys = console.keys
  by_cases hdevice : isDevice addr
  · simp only [Platform.read, if_pos hdevice]
    exact keys_readDevice width haddr console
  simp only [Platform.read, if_neg hdevice, bind, EStateM.bind, get, getThe, MonadStateOf.get,
    EStateM.get]
  cases ramOffset? ramSize addr width with
  | none => rfl
  | some offset =>
      simp only [onCache]
      cases Cache.readNumber width offset cache <;> rfl

theorem keys_after_write (p : Platform υ) (width : Width) (addr value : UInt32) :
    (BusCall.after p (.write width addr value)).console.keys = p.console.keys := by
  obtain ⟨cache, ⟨keys, output⟩, ramSize⟩ := p
  change (stateOf (Platform.write width addr value _)).console.keys = keys
  by_cases hdevice : isDevice addr
  · simp only [Platform.write, if_pos hdevice, onConsole, writeDevice, SerialLine.store]
    split
    · split <;> rfl
    · rfl
  simp only [Platform.write, if_neg hdevice, bind, EStateM.bind, get, getThe, MonadStateOf.get,
    EStateM.get]
  cases ramOffset? ramSize addr width with
  | none => rfl
  | some offset =>
      simp only [onCache]
      cases Cache.writeNumber width offset value cache <;> rfl

theorem keysServed (p : Platform υ) (call : BusCall) : p.KeysServed call := by
  cases call with
  | write width addr value => exact p.keys_after_write width addr value
  | writeCsr number value =>
      obtain ⟨cache, ⟨keys, output⟩, ramSize⟩ := p
      change (stateOf (Platform.writeCsr number value _)).console.keys = keys
      simp only [Platform.writeCsr]
      cases DebugChannel.write ramSize number value (cache, output) <;> rfl
  | readCsr number =>
      unfold KeysServed BusCall.keyRegister?
      by_cases hnumber : number = 0x140
      · subst hnumber
        simp only [if_true, BusCall.answer?, BusCall.after, readCsr_key, RiscvMachine.answer?,
          stateOf]
        exact ⟨trivial, rfl⟩
      · simp only [if_neg hnumber]
        change (DebugChannel.read number p.console).2.keys = p.console.keys
        rw [DebugChannel.read, if_neg hnumber]
        rfl
  | read width addr =>
      unfold KeysServed BusCall.keyRegister?
      by_cases hdata : addr = serialBase
      · subst hdata
        simp only [if_true, BusCall.answer?, BusCall.after,
          read_device (show isDevice serialBase by decide), readDevice_data,
          RiscvMachine.answer?, stateOf]
        exact ⟨trivial, rfl⟩
      by_cases hstatus : addr = serialBase + SerialLine.statusRegister
      · subst hstatus
        simp only [if_neg hdata, if_true, BusCall.answer?, BusCall.after,
          read_device (show isDevice (serialBase + SerialLine.statusRegister) by decide),
          readDevice_status, RiscvMachine.answer?, stateOf]
        exact ⟨trivial, rfl⟩
      -- no other address leads to the queue
      · simp only [if_neg hdata, if_neg hstatus]
        exact p.keys_after_read width hdata

def withKeys (p : Platform υ) (keys : KeyQueue) : Platform υ :=
  { p with console := { p.console with keys := keys } }

end Platform

/-! ## The log -/

/-- What happens at the queue, with the bytes that it holds before and after. -/
inductive KeyEvent
  /-- The pump offers a byte. -/
  | offered (byte : UInt8) (before after : List UInt8)
  /-- The guest makes a call. -/
  | called (call : BusCall) (answer : Option UInt32) (before after : List UInt8)

namespace KeyEvent

def before : KeyEvent → List UInt8
  | offered _ before _ => before
  | called _ _ before _ => before

def after : KeyEvent → List UInt8
  | offered _ _ after => after
  | called _ _ _ after => after

def byte? : KeyEvent → Option UInt8
  | offered byte _ _ => some byte
  | called _ _ _ _ => none

def register? : KeyEvent → Option KeyRegister
  | offered _ _ _ => none
  | called call _ _ _ => call.keyRegister?

def answer? : KeyEvent → Option UInt32
  | offered _ _ _ => none
  | called _ answer _ _ => answer

def accepted (e : KeyEvent) : List UInt8 := e.after.drop e.before.length

/-- The bytes that the guest has got from the queue. -/
def popped (e : KeyEvent) : List UInt8 := e.before.take (e.before.length - e.after.length)

/-- The event reads a register that takes bytes from the queue. -/
def Pops (e : KeyEvent) : Prop := e.register? = some .data ∨ e.register? = some .channel

/-- The guest reads a status that says that a byte waits. -/
def ShowsReady (e : KeyEvent) : Prop :=
  e.register? = some .status ∧ ∃ status, e.answer? = some status ∧ status &&& 1 = 1

/-- What the queue does with what happens to it. An offered byte goes to its end, and is dropped
just if the queue is full. The guest reads and takes what stands first. -/
def Lawful (capacity : Nat) : KeyEvent → Prop
  | offered byte before after =>
    before.length < capacity ∧ after = before ++ [byte] ∨
      before.length = capacity ∧ after = before
  | called call answer before after =>
    match call.keyRegister? with
    | some register => answer = some (register.answer before) ∧ after = register.left before
    | none => after = before

/-- Events that come one after the other, with nothing in between that bears upon the queue. -/
def Linked : List UInt8 → List KeyEvent → List UInt8 → Prop
  | queued, [], queued' => queued' = queued
  | queued, e :: rest, queued' => e.before = queued ∧ Linked e.after rest queued'

variable {capacity : Nat} {e : KeyEvent}

theorem linked_append {queued queued' : List UInt8} {past later : List KeyEvent} :
    Linked queued (past ++ later) queued' ↔
      ∃ between, Linked queued past between ∧ Linked between later queued' := by
  induction past generalizing queued with
  | nil => exact ⟨fun h => ⟨queued, rfl, h⟩, fun ⟨_, heq, h⟩ => heq ▸ h⟩
  | cons e rest ih =>
      simp only [List.cons_append, Linked, ih]
      exact ⟨fun ⟨h, between, h'⟩ => ⟨between, ⟨h, h'.1⟩, h'.2⟩,
        fun ⟨between, h, h'⟩ => ⟨h.1, between, h.2, h'⟩⟩

/-- The guest leaves the queue as it is or takes what stands first. -/
theorem Lawful.after_called {call : BusCall} {answer : Option UInt32} {before after : List UInt8}
    (h : (called call answer before after).Lawful capacity) :
    after = before ∨ after = before.tail := by
  rw [Lawful] at h
  split at h
  · rename_i register _
    cases register with
    | data => exact .inr h.2
    | status => exact .inl h.2
    | channel => exact .inr h.2
  · exact .inl h

theorem Lawful.length_called {call : BusCall} {answer : Option UInt32}
    {before after : List UInt8} (h : (called call answer before after).Lawful capacity) :
    after.length ≤ before.length := by
  rcases h.after_called with rfl | rfl
  · exact le_rfl
  · exact List.length_tail.le.trans (Nat.sub_le _ _)

/-- What the queue holds after an event is what it has got on top of what it has held, but for what
the guest has got. -/
theorem Lawful.balance (h : e.Lawful capacity) : e.popped ++ e.after = e.before ++ e.accepted := by
  have hkept (queued : List UInt8) : queued.take (queued.length - queued.length) ++ queued =
      queued ++ queued.drop queued.length := by
    rw [Nat.sub_self, List.take_zero, List.drop_length, List.append_nil, List.nil_append]
  cases e with
  | offered byte before after =>
      rcases h with ⟨-, rfl⟩ | ⟨-, rfl⟩
      · simp [popped, accepted, KeyEvent.before, KeyEvent.after]
      · exact hkept after
  | called call answer before after =>
      rcases h.after_called with rfl | rfl
      · exact hkept after
      · cases before <;> simp [popped, accepted, KeyEvent.before, KeyEvent.after]

/-- A lawful log accounts for every byte. -/
theorem balance {queued queued' : List UInt8} {log : List KeyEvent}
    (hlawful : ∀ e ∈ log, e.Lawful capacity) (hlinked : Linked queued log queued') :
    log.flatMap popped ++ queued' = queued ++ log.flatMap accepted := by
  induction log generalizing queued with
  | nil => exact hlinked.trans (List.append_nil queued).symm
  | cons e rest ih =>
      obtain ⟨rfl, hrest⟩ := hlinked
      have hfirst := (hlawful e List.mem_cons_self).balance
      have hlast := ih (fun e he => hlawful e (List.mem_cons_of_mem _ he)) hrest
      calc (e.popped ++ rest.flatMap popped) ++ queued'
          = e.popped ++ (e.after ++ rest.flatMap accepted) := by rw [List.append_assoc, hlast]
        _ = (e.before ++ e.accepted) ++ rest.flatMap accepted := by
            rw [← List.append_assoc, hfirst]
        _ = e.before ++ (e.accepted ++ rest.flatMap accepted) := List.append_assoc ..

/-- The queue gets nothing but the byte that is offered. -/
theorem Lawful.accepted_sublist (h : e.Lawful capacity) :
    e.accepted.Sublist e.byte?.toList := by
  cases e with
  | offered byte before after =>
      rcases h with ⟨-, rfl⟩ | ⟨-, rfl⟩
      · simp [accepted, byte?, KeyEvent.before, KeyEvent.after]
      · simp [accepted, KeyEvent.before, KeyEvent.after]
  | called call answer before after =>
      rw [show (called call answer before after).accepted = [] from
        List.drop_eq_nil_of_le h.length_called]
      exact List.nil_sublist _

theorem accepted_sublist {log : List KeyEvent} (hlawful : ∀ e ∈ log, e.Lawful capacity) :
    (log.flatMap accepted).Sublist (log.filterMap byte?) := by
  induction log with
  | nil => exact List.Sublist.refl []
  | cons e rest ih =>
      have hfirst := (hlawful e List.mem_cons_self).accepted_sublist
      have hrest := ih fun e he => hlawful e (List.mem_cons_of_mem _ he)
      rw [List.flatMap_cons, ← List.singleton_append, List.filterMap_append]
      refine hfirst.append hrest |>.trans ?_
      cases hbyte : e.byte? with
      | none => simp [hbyte]
      | some byte => simp [hbyte]

/-- Until the guest takes it, the first byte stays the first. -/
theorem Lawful.head (h : e.Lawful capacity) (hpops : ¬ e.Pops) {byte : UInt8}
    (hhead : e.before.head? = some byte) : e.after.head? = some byte := by
  cases e with
  | offered offered before after =>
      rcases h with ⟨-, rfl⟩ | ⟨-, rfl⟩
      · exact List.mem_head?_append_of_mem_head? hhead
      · exact hhead
  | called call answer before after =>
      rw [Lawful] at h
      split at h
      · rename_i register hregister
        cases register with
        | data => exact absurd (.inl hregister) hpops
        | status => rwa [show after = before from h.2]
        | channel => exact absurd (.inr hregister) hpops
      · rwa [show after = before from h]

theorem head_linked {queued queued' : List UInt8} {log : List KeyEvent}
    (hlawful : ∀ e ∈ log, e.Lawful capacity) (hlinked : Linked queued log queued')
    (hpops : ∀ e ∈ log, ¬ e.Pops) {byte : UInt8} (hhead : queued.head? = some byte) :
    queued'.head? = some byte := by
  induction log generalizing queued with
  | nil => rwa [show queued' = queued from hlinked]
  | cons e rest ih =>
      obtain ⟨rfl, hrest⟩ := hlinked
      exact ih (fun e he => hlawful e (List.mem_cons_of_mem _ he)) hrest
        (fun e he => hpops e (List.mem_cons_of_mem _ he))
        ((hlawful e List.mem_cons_self).head (hpops e List.mem_cons_self) hhead)

/-- A status that says so is right. -/
theorem Lawful.ready (h : e.Lawful capacity) (hready : e.ShowsReady) :
    ∃ byte, e.before.head? = some byte := by
  obtain ⟨hregister, status, hanswer, hbit⟩ := hready
  cases e with
  | offered byte before after => cases hregister
  | called call answer before after =>
      rw [Lawful, show call.keyRegister? = some .status from hregister] at h
      cases before with
      | nil =>
          cases hanswer.symm.trans h.1
          exact absurd hbit (by decide)
      | cons byte rest => exact ⟨byte, rfl⟩

/-- A read of a waiting byte answers it. -/
theorem Lawful.pops (h : e.Lawful capacity) (hpops : e.Pops) {byte : UInt8}
    (hhead : e.before.head? = some byte) :
    e.answer? = some byte.toUInt32 ∧ e.popped = [byte] := by
  cases e with
  | offered byte before after => rcases hpops with hregister | hregister <;> cases hregister
  | called call answer before after =>
      obtain ⟨rest, rfl⟩ : ∃ rest, before = byte :: rest := List.head?_eq_some_iff.mp hhead
      rcases hpops with hregister | hregister
      · rw [Lawful, show call.keyRegister? = some .data from hregister] at h
        obtain ⟨rfl, rfl⟩ := h
        refine ⟨rfl, ?_⟩
        simp [popped, KeyEvent.before, KeyEvent.after]
      · rw [Lawful, show call.keyRegister? = some .channel from hregister] at h
        obtain ⟨rfl, rfl⟩ := h
        refine ⟨rfl, ?_⟩
        simp [popped, KeyEvent.before, KeyEvent.after]

end KeyEvent

/-! ## Turns -/

/-- Whose turn it is, and with which call. -/
inductive InputTurn
  | host
  | guest (call : BusCall)
  deriving DecidableEq, Repr

/-- The pump and the platform of the guest, with the log of what has happened at the queue. -/
structure TypedInput (υ : Type) where
  thread : PumpThread
  platform : Platform υ
  log : List KeyEvent

namespace TypedInput

variable {υ : Type}

/-- A pump before its first read, in front of an empty queue. -/
def start (events : List InputEvent) (capacity : Nat) (platform : Platform υ) : TypedInput υ :=
  ⟨.start events, platform.withKeys (.new capacity), []⟩

def keys (s : TypedInput υ) : KeyQueue := s.platform.console.keys

def host (s : TypedInput υ) : TypedInput υ :=
  let (thread, keys) := s.thread.turn s.keys
  let event? := s.thread.offer?.map (KeyEvent.offered · s.keys.queued keys.queued)
  ⟨thread, s.platform.withKeys keys, s.log ++ event?.toList⟩

/-- The bytes that the pump has offered to the queue. -/
def offered (s : TypedInput υ) : List UInt8 := s.log.filterMap KeyEvent.byte?

/-- What holds at every moment. -/
structure Kept (bytes : List UInt8) (limit : Nat) (s : TypedInput υ) : Prop where
  accounts : s.thread.Accounts bytes s.offered
  capacity : s.keys.capacity = limit
  room : s.keys.queued.length ≤ limit
  lawful : ∀ e ∈ s.log, e.Lawful limit
  linked : KeyEvent.Linked [] s.log s.keys.queued

variable {bytes : List UInt8} {limit : Nat} {s : TypedInput υ}

theorem start_kept (events : List InputEvent) (capacity : Nat) (platform : Platform υ) :
    (start events capacity platform).Kept (InputEvent.stream events) (max capacity 1) where
  accounts := PumpThread.start_accounts events
  capacity := rfl
  room := Nat.zero_le _
  lawful := fun _ h => absurd h List.not_mem_nil
  linked := rfl

theorem linked_concat {log : List KeyEvent} {e : KeyEvent} {queued : List UInt8}
    (h : KeyEvent.Linked queued log e.before) : KeyEvent.Linked queued (log ++ [e]) e.after :=
  KeyEvent.linked_append.mpr ⟨_, h, rfl, rfl⟩

theorem lawful_concat {log : List KeyEvent} {e : KeyEvent} (h : ∀ e ∈ log, e.Lawful limit)
    (he : e.Lawful limit) : ∀ e' ∈ log ++ [e], e'.Lawful limit := by
  intro e' hmem
  rcases List.mem_append.mp hmem with hlog | hlast
  · exact h e' hlog
  · rwa [List.mem_singleton.mp hlast]

/-- An offered byte goes to the end of the queue, or is dropped if that is full. -/
theorem send_cases {queue : KeyQueue} (hroom : queue.queued.length ≤ queue.capacity)
    (b : UInt8) :
    (queue.send b).capacity = queue.capacity ∧
      (queue.send b).queued.length ≤ queue.capacity ∧
      (KeyEvent.offered b queue.queued (queue.send b).queued).Lawful queue.capacity := by
  unfold KeyQueue.send KeyQueue.hasRoom
  split
  · rename_i h
    have hlt := of_decide_eq_true h
    refine ⟨rfl, ?_, .inl ⟨hlt, rfl⟩⟩
    rw [List.length_append, List.length_singleton]
    exact hlt
  · rename_i h
    have hnot : ¬ queue.queued.length < queue.capacity := fun hlt => h (decide_eq_true hlt)
    exact ⟨rfl, hroom, .inr ⟨hroom.antisymm (not_lt.mp hnot), rfl⟩⟩

theorem host_kept (h : s.Kept bytes limit) : s.host.Kept bytes limit := by
  have haccounts := PumpThread.turn_accounts h.accounts s.keys
  have hqueue := PumpThread.turn_queue s.thread s.keys
  cases hoffer : s.thread.offer? with
  | none =>
      have hkeys : (s.thread.turn s.keys).2 = s.keys := by rw [hqueue, hoffer]; rfl
      have hhost : s.host = ⟨(s.thread.turn s.keys).1, s.platform, s.log⟩ := by
        simp only [host, hoffer, hkeys, Option.map_none, Option.toList_none, List.append_nil]
        rfl
      rw [hoffer, Option.toList_none, List.append_nil] at haccounts
      rw [hhost]
      exact ⟨haccounts, h.capacity, h.room, h.lawful, h.linked⟩
  | some b =>
      have hkeys : (s.thread.turn s.keys).2 = s.keys.send b := by rw [hqueue, hoffer]; rfl
      have hhost : s.host = ⟨(s.thread.turn s.keys).1, s.platform.withKeys (s.keys.send b),
          s.log ++ [.offered b s.keys.queued (s.keys.send b).queued]⟩ := by
        simp only [host, hoffer, hkeys, Option.map_some, Option.toList_some]
      obtain ⟨hcapacity, hroom, hlawful⟩ :=
        send_cases (h.room.trans_eq h.capacity.symm) b
      rw [h.capacity] at hcapacity hroom hlawful
      rw [hhost]
      refine ⟨?_, hcapacity, hroom, lawful_concat h.lawful hlawful, linked_concat h.linked⟩
      rw [hoffer] at haccounts
      rw [offered, List.filterMap_append]
      exact haccounts

/-! ## Delivery -/

/-- Typed bytes come to the guest in order and once each. -/
structure Delivers (bytes : List UInt8) (limit : Nat) (s : TypedInput υ) : Prop where
  /-- The pump offers what the stream types, in order. -/
  offered : s.offered <+: unescape bytes
  offered_all : s.thread.ended = true → s.offered = unescape bytes
  /-- Of this nothing is dropped unless the queue is full, and the guest reads what stands first in
  the queue. -/
  lawful : ∀ e ∈ s.log, e.Lawful limit
  /-- Nothing else bears upon the queue. -/
  linked : KeyEvent.Linked [] s.log s.keys.queued
  /-- What the queue has got is what has been offered to it, but for what has been dropped. -/
  accepted : (s.log.flatMap KeyEvent.accepted).Sublist s.offered
  /-- What the guest has got, and what it is still to get, is what the queue has got. -/
  balance : s.log.flatMap KeyEvent.popped ++ s.keys.queued = s.log.flatMap KeyEvent.accepted
  /-- If the guest has been told that a byte waits, its next read of a byte answers a byte that has
  been waiting then. -/
  ready {past between later : List KeyEvent} {told read : KeyEvent} :
    s.log = past ++ told :: (between ++ read :: later) → told.ShowsReady →
    (∀ e ∈ between, ¬ e.Pops) → read.Pops →
    ∃ byte, told.before.head? = some byte ∧ read.answer? = some byte.toUInt32 ∧
      read.popped = [byte]
  /-- The stop flag is raised for a stop sequence only, and the pump does not end without it if
  there is one. -/
  stop : s.thread.stop = true → asksToStop bytes = true
  stop_ended : s.thread.ended = true → s.thread.stop = asksToStop bytes

theorem Kept.delivers (h : s.Kept bytes limit) : s.Delivers bytes limit where
  offered := ⟨_, h.accounts.offered.symm⟩
  offered_all hended := by
    rw [h.accounts.offered, PumpThread.toCome, if_pos hended]
    exact (List.append_nil _).symm
  lawful := h.lawful
  linked := h.linked
  accepted := KeyEvent.accepted_sublist h.lawful
  balance := KeyEvent.balance h.lawful h.linked
  ready := by
    intro past between later told read hlog htold hbetween hread
    have hlawful := h.lawful
    have hlinked := h.linked
    rw [hlog] at hlawful hlinked
    obtain ⟨_, -, rfl, hlinked⟩ := KeyEvent.linked_append.mp hlinked
    obtain ⟨_, hlinked, rfl, -⟩ := KeyEvent.linked_append.mp hlinked
    have hmem {e : KeyEvent} (he : e ∈ told :: (between ++ read :: later)) : e.Lawful limit :=
      hlawful e (List.mem_append_right past he)
    have htolds : told.Lawful limit := hmem List.mem_cons_self
    obtain ⟨byte, hhead⟩ := htolds.ready htold
    -- to read the status does not take a byte from the queue
    have hkept : ¬ told.Pops := by
      rintro (hregister | hregister) <;> cases htold.1.symm.trans hregister
    have hstill := KeyEvent.head_linked
      (fun e he => hmem (List.mem_cons_of_mem _ (List.mem_append_left _ he))) hlinked hbetween
      (htolds.head hkept hhead)
    have hreads : read.Lawful limit :=
      hmem (List.mem_cons_of_mem _ (List.mem_append_right _ List.mem_cons_self))
    exact ⟨byte, hhead, hreads.pops hread hstill⟩
  stop hstop := by rw [h.accounts.stop, hstop, Bool.true_or]
  stop_ended hended := by
    rw [h.accounts.stop, PumpThread.toCome, if_pos hended]
    exact (Bool.or_false _).symm

/-! ## Any order -/

variable [StorageUnit υ]

def guest (s : TypedInput υ) (call : BusCall) : TypedInput υ :=
  let platform := BusCall.after s.platform call
  let event := .called call (BusCall.answer? s.platform call) s.keys.queued
    platform.console.keys.queued
  ⟨s.thread, platform, s.log ++ [event]⟩

def turn (s : TypedInput υ) : InputTurn → TypedInput υ
  | .host => s.host
  | .guest call => s.guest call

/-- Turns in any order. -/
def run (s : TypedInput υ) (turns : List InputTurn) : TypedInput υ := turns.foldl turn s

theorem guest_kept (h : s.Kept bytes limit) (call : BusCall) :
    (s.guest call).Kept bytes limit := by
  have hserved := s.platform.keysServed call
  have hlawful : (KeyEvent.called call (BusCall.answer? s.platform call) s.keys.queued
      (BusCall.after s.platform call).console.keys.queued).Lawful limit := by
    rw [KeyEvent.Lawful]
    unfold Platform.KeysServed at hserved
    cases hregister : call.keyRegister? with
    | none =>
        rw [hregister] at hserved
        exact congrArg KeyQueue.queued hserved
    | some register =>
        rw [hregister] at hserved
        exact ⟨hserved.1, congrArg KeyQueue.queued hserved.2⟩
  have hcapacity : (BusCall.after s.platform call).console.keys.capacity = limit := by
    refine Eq.trans ?_ h.capacity
    unfold Platform.KeysServed at hserved
    split at hserved
    · have hleft := congrArg KeyQueue.capacity hserved.2
      exact hleft
    · exact congrArg KeyQueue.capacity hserved
  refine ⟨?_, hcapacity, ?_, lawful_concat h.lawful hlawful, linked_concat h.linked⟩
  · have hoffered : (s.guest call).offered = s.offered := by
      rw [offered, guest, List.filterMap_append]
      exact List.append_nil _
    rw [hoffered]
    exact h.accounts
  · exact hlawful.length_called.trans h.room

theorem run_kept (h : s.Kept bytes limit) (turns : List InputTurn) :
    (s.run turns).Kept bytes limit := by
  induction turns generalizing s with
  | nil => exact h
  | cons turn rest ih =>
      cases turn with
      | host => exact ih (host_kept h)
      | guest call => exact ih (guest_kept h call)

/-- Only its own turns bring the pump nearer to its end. -/
theorem turnsLeft_run (turns : List InputTurn) (s : TypedInput υ) :
    (s.run turns).thread.turnsLeft ≤ s.thread.turnsLeft - turns.count .host := by
  induction turns generalizing s with
  | nil => exact le_rfl
  | cons turn rest ih =>
      have hrest := ih (s.turn turn)
      cases turn with
      | host =>
          have hturn := PumpThread.turnsLeft_turn s.thread s.keys
          rw [List.count_cons_self]
          change _ ≤ (s.thread.turn s.keys).1.turnsLeft - _ at hrest
          exact hrest.trans (by omega)
      | guest call =>
          rw [List.count_cons_of_ne (fun h => InputTurn.noConfusion h)]
          exact hrest

/-- The calls of an instruction, in the turns of the guest, are the instruction. -/
theorem run_instruction (c : Core (Platform υ)) (s : TypedInput υ) (hs : s.platform = c.bus) :
    (s.run (c.busCalls.map .guest)).platform = c.after.bus := by
  have hcalls (calls : List BusCall) (s : TypedInput υ) :
      (s.run (calls.map .guest)).platform = BusCall.replay s.platform calls := by
    induction calls generalizing s with
    | nil => rfl
    | cons call rest ih => exact ih (s.guest call)
  rw [hcalls, hs, c.replay_calls]

/-- Whatever the reads of the source are and in whatever order the turns come, typed bytes are
delivered; and the pump comes to its end within a number of its own turns that the events tell. -/
theorem run_delivers (events : List InputEvent) (capacity : Nat) (platform : Platform υ)
    (turns : List InputTurn) :
    ((start events capacity platform).run turns).Delivers (InputEvent.stream events)
        (max capacity 1) ∧
      (InputEvent.turns events < turns.count .host →
        ((start events capacity platform).run turns).thread.ended = true) := by
  refine ⟨(run_kept (start_kept events capacity platform) turns).delivers, fun hturns => ?_⟩
  have hleft := turnsLeft_run turns (start events capacity platform)
  have hstart : (start events capacity platform).thread.turnsLeft =
      InputEvent.turns events + 1 := PumpThread.turnsLeft_start events
  exact PumpThread.ended_of_turnsLeft (by omega)

end TypedInput

end RiscvMachine
