import RiscvMachine.Device.Input
import RiscvMachine.Proofs.Bytes

set_option autoImplicit false

/-! # The pump at work

The pump runs beside the guest, so that the guest may take bytes from the queue at any moment. Here
the pump is cut into turns, each of which reads from the source or handles one byte of what has been
read (`PumpThread.turn`). Left alone with the queue it comes to what `Pump.run` says
(`PumpThread.alone`).

What the pump offers to the queue is told by the bytes of the stream (`unescape`), whatever the
reads are, and nothing of it depends on the queue: at every moment, what has been offered and what
the bytes to come will offer are together what the whole stream offers (`PumpThread.Accounts`).
-/

namespace RiscvMachine

/-- A fold over the bytes is the fold over their list. -/
theorem Bytes.foldl_eq {α : Type} (f : α → UInt8 → α) (a : α) (bytes : ByteArray) :
    bytes.foldl f a = bytes.data.toList.foldl f a := by
  have hloop (i j : Nat) (a : α) (hij : bytes.size ≤ i + j) :
      Id.run (ByteArray.foldlM.loop (fun a b => pure (f a b)) bytes bytes.size le_rfl i j a) =
        (bytes.data.toList.drop j).foldl f a := by
    induction i generalizing j a with
    | zero =>
        have hlt : ¬ j < bytes.size := by omega
        have hdrop : bytes.data.toList.drop j = [] := List.drop_eq_nil_of_le (not_lt.mp hlt)
        rw [hdrop, ByteArray.foldlM.loop, dif_neg hlt]
        rfl
    | succ i ih =>
        rw [ByteArray.foldlM.loop]
        by_cases hlt : j < bytes.size
        · rw [dif_pos hlt, List.drop_eq_getElem_cons (show j < bytes.data.toList.length from hlt)]
          exact ih (j + 1) _ (by omega)
        · have hdrop : bytes.data.toList.drop j = [] := List.drop_eq_nil_of_le (not_lt.mp hlt)
          rw [hdrop, dif_neg hlt]
          rfl
  rw [ByteArray.foldl, ByteArray.foldlM]
  simp only [dif_pos le_rfl]
  exact hloop bytes.size 0 a le_rfl

/-! ## Streams -/

/-- The bytes of a stream up to its end: a failure, or a read of no bytes. -/
def InputEvent.stream : List InputEvent → List UInt8
  | [] => []
  | .interrupted :: rest => stream rest
  | .failed :: _ => []
  | .data bytes :: rest => if bytes.isEmpty then [] else bytes.data.toList ++ stream rest

/-- The characters after an escape that stop the machine. -/
def isStop (b : UInt8) : Bool := b == 0x78 || b == 0x58

/-- The bytes that a stream types, up to its first stop sequence: an escaped escape is one of them,
and an escape with any other byte types nothing. -/
def unescape : List UInt8 → List UInt8
  | [] => []
  | [b] => if b = escapeByte then [] else [b]
  | b :: c :: rest =>
    if b = escapeByte then
      if isStop c then []
      else if c = escapeByte then escapeByte :: unescape rest
      else unescape rest
    else b :: unescape (c :: rest)

/-- Whether there is a stop sequence in a stream. -/
def asksToStop : List UInt8 → Bool
  | [] => false
  | [_] => false
  | b :: c :: rest =>
    if b = escapeByte then isStop c || asksToStop rest else asksToStop (c :: rest)

/-- `ab`, an escaped escape, `c`, and the stop sequence with two bytes behind it. -/
example : unescape [0x61, 0x62, 1, 1, 0x63, 1, 0x78, 0x7A, 0x7A] = [0x61, 0x62, 1, 0x63] ∧
    asksToStop [0x61, 0x62, 1, 1, 0x63, 1, 0x78, 0x7A, 0x7A] = true := by
  decide

/-- An escape that has been handled still stands in front of the rest of the stream. -/
def withEscape (escaped : Bool) (bytes : List UInt8) : List UInt8 :=
  if escaped then escapeByte :: bytes else bytes

theorem unescape_withEscape_nil (escaped : Bool) : unescape (withEscape escaped []) = [] := by
  cases escaped <;> rfl

theorem asksToStop_withEscape_nil (escaped : Bool) :
    asksToStop (withEscape escaped []) = false := by
  cases escaped <;> rfl

theorem unescape_cons {b : UInt8} (hb : b ≠ escapeByte) (rest : List UInt8) :
    unescape (b :: rest) = b :: unescape rest := by
  cases rest with
  | nil => exact if_neg hb
  | cons c rest => exact if_neg hb

theorem asksToStop_cons {b : UInt8} (hb : b ≠ escapeByte) (rest : List UInt8) :
    asksToStop (b :: rest) = asksToStop rest := by
  cases rest with
  | nil => rfl
  | cons c rest => exact if_neg hb

/-! ## Bytes -/

namespace Pump

/-- The byte that is offered to the queue when `b` arrives, if one is. -/
def offer? (stop escaped : Bool) (b : UInt8) : Option UInt8 :=
  if stop then none
  else if escaped then if b = escapeByte then some escapeByte else none
  else if b = escapeByte then none
  else some b

theorem stop_iff {b : UInt8} : (b = 0x78 ∨ b = 0x58) ↔ isStop b = true := by
  rw [isStop, Bool.or_eq_true, beq_iff_eq, beq_iff_eq]

/-- Nothing else is done to the queue than that the byte is offered to it. -/
theorem byte_queue (p : Pump) (b : UInt8) :
    (p.byte b).queue = ((offer? p.stop p.escaped b).map p.queue.send).getD p.queue := by
  unfold byte offer?
  by_cases hstop : p.stop = true
  · rw [if_pos hstop, if_pos hstop]
    rfl
  rw [if_neg hstop, if_neg hstop]
  by_cases hescaped : p.escaped = true
  · rw [if_pos hescaped, if_pos hescaped]
    by_cases hx : b = 0x78 ∨ b = 0x58
    · have hb : b ≠ escapeByte := by
        rintro rfl
        revert hx
        decide
      rw [if_pos hx, if_neg hb]
      rfl
    · rw [if_neg hx]
      split <;> rfl
  · rw [if_neg hescaped, if_neg hescaped]
    split <;> rfl

/-- A byte leaves what the stream types and what has been typed of it as the whole stream has it. -/
theorem byte_accounts {p : Pump} (hp : p.stop = false) (b : UInt8) (rest : List UInt8) :
    unescape (withEscape p.escaped (b :: rest)) =
      (offer? p.stop p.escaped b).toList ++
        (if (p.byte b).stop then [] else unescape (withEscape (p.byte b).escaped rest)) ∧
    asksToStop (withEscape p.escaped (b :: rest)) =
      ((p.byte b).stop || asksToStop (withEscape (p.byte b).escaped rest)) := by
  obtain ⟨queue, escaped, stop⟩ := p
  obtain rfl : stop = false := hp
  cases escaped with
  | false =>
      by_cases hb : b = escapeByte
      · subst hb
        exact ⟨rfl, rfl⟩
      · simp only [byte, offer?, withEscape, Bool.false_eq_true, if_false, if_neg hb]
        exact ⟨unescape_cons hb rest, asksToStop_cons hb rest⟩
  | true =>
      -- behind an escape comes a stop, another escape, or a byte that is dropped with it
      by_cases hx : b = 0x78 ∨ b = 0x58
      · have hb : b ≠ escapeByte := by
          rintro rfl
          revert hx
          decide
        simp only [byte, offer?, withEscape, Bool.false_eq_true, if_false, if_true, if_pos hx,
          if_neg hb, unescape, asksToStop, stop_iff.mp hx]
        exact ⟨rfl, trivial⟩
      · have hx' : isStop b = false := by
          rw [← Bool.not_eq_true, ← stop_iff]
          exact hx
        by_cases hb : b = escapeByte
        · subst hb
          exact ⟨rfl, rfl⟩
        · simp only [byte, offer?, withEscape, Bool.false_eq_true, if_false, if_true, if_neg hx,
            if_neg hb, unescape, asksToStop, hx', Bool.false_or]
          exact ⟨rfl, trivial⟩

theorem byte_of_stop {p : Pump} (hp : p.stop = true) (b : UInt8) : p.byte b = p := by
  rw [byte, if_pos hp]

theorem foldl_byte_of_stop {p : Pump} (hp : p.stop = true) (bytes : List UInt8) :
    bytes.foldl byte p = p := by
  induction bytes with
  | nil => rfl
  | cons b rest ih => rw [List.foldl_cons, byte_of_stop hp, ih]

theorem run_of_stop {p : Pump} (hp : p.stop = true) (events : List InputEvent) :
    run events p = p := by
  cases events with
  | nil => rfl
  | cons event rest =>
      cases event with
      | data bytes => rw [run, if_pos (Or.inl hp)]
      | interrupted => rw [run, if_pos hp]
      | failed => rfl

/-- The reads make no difference to the pump, but for where they end. -/
theorem run_eq_foldl (events : List InputEvent) (p : Pump) :
    run events p = (InputEvent.stream events).foldl byte p := by
  induction events generalizing p with
  | nil => rfl
  | cons event rest ih =>
      cases event with
      | failed => rfl
      | interrupted =>
          rw [run, InputEvent.stream, ← ih]
          split
          · rename_i hstop
            exact (run_of_stop hstop rest).symm
          · rfl
      | data bytes =>
          rw [run, InputEvent.stream]
          by_cases hempty : bytes.isEmpty = true
          · rw [if_pos (Or.inr hempty), if_pos hempty]
            rfl
          rw [if_neg hempty, List.foldl_append, ← ih, Bytes.foldl_eq]
          by_cases hstop : p.stop = true
          · rw [if_pos (Or.inl hstop), foldl_byte_of_stop hstop, run_of_stop hstop]
          · rw [if_neg (by simp only [hstop, hempty, or_self, not_false_iff, Bool.false_eq_true])]

end Pump

/-! ## Sources -/

namespace InputSource

/-- The events to come, without what has been read of the first one. -/
def remaining : InputSource → List InputEvent
  | ⟨.data bytes :: rest, position⟩ => .data (bytes.extract position bytes.size) :: rest
  | ⟨events, _⟩ => events

def stream (s : InputSource) : List UInt8 := InputEvent.stream s.remaining

end InputSource

/-- How many turns the pump may need for events: one for each read, which brings at least one byte,
and one for each byte. -/
def InputEvent.turns : List InputEvent → Nat
  | [] => 0
  | .interrupted :: rest => turns rest + 1
  | .failed :: rest => turns rest + 1
  | .data bytes :: rest => 2 * bytes.size + turns rest + 1

namespace InputSource

/-- How many turns the pump may need for the events to come. -/
def turns (s : InputSource) : Nat := InputEvent.turns s.remaining

theorem stream_zero (events : List InputEvent) : stream ⟨events, 0⟩ = InputEvent.stream events := by
  cases events with
  | nil => rfl
  | cons event rest =>
      cases event with
      | data bytes => rw [stream, remaining, ByteArray.extract_zero_size]
      | interrupted => rfl
      | failed => rfl

theorem turns_zero (events : List InputEvent) : turns ⟨events, 0⟩ = InputEvent.turns events := by
  cases events with
  | nil => rfl
  | cons event rest =>
      cases event with
      | data bytes => rw [turns, remaining, ByteArray.extract_zero_size]
      | interrupted => rfl
      | failed => rfl

/-- What a read comes to: the next bytes of the stream, or its end. -/
def Reads (s : InputSource) : ReadAnswer × InputSource → Prop
  | (.bytes data, s') =>
    if data.isEmpty then s.stream = []
    else s.stream = data.data.toList ++ s'.stream ∧ data.size + s'.turns < s.turns
  | (.interrupted, s') => s'.stream = s.stream ∧ s'.turns < s.turns
  | (.failed, _) => s.stream = []

theorem read_spec {limit : Nat} (hlimit : 0 < limit) (s : InputSource) :
    s.Reads (s.read limit) := by
  obtain ⟨events, position⟩ := s
  cases events with
  | nil => exact rfl
  | cons event rest =>
      cases event with
      | failed => exact rfl
      | interrupted =>
          refine ⟨stream_zero rest, ?_⟩
          rw [turns_zero]
          exact Nat.lt_succ_self _
      | data bytes =>
          by_cases hall : bytes.size ≤ position + limit
          · -- the read uses the data up
            have hread : read limit ⟨.data bytes :: rest, position⟩ =
                (.bytes (bytes.extract position bytes.size), ⟨rest, 0⟩) := by
              simp only [read, Nat.min_eq_left hall, if_true]
            rw [hread, Reads, stream, remaining, InputEvent.stream]
            split
            · rfl
            · rw [stream_zero, turns_zero, turns, remaining, InputEvent.turns]
              exact ⟨rfl, by omega⟩
          -- the read takes a part of the data, and the position moves on in it
          · have hmin : min bytes.size (position + limit) = position + limit := by omega
            have hread : read limit ⟨.data bytes :: rest, position⟩ =
                (.bytes (bytes.extract position (position + limit)),
                  ⟨.data bytes :: rest, position + limit⟩) := by
              simp only [read, hmin]
              rw [if_neg (by omega)]
            have hjoin : bytes.extract position (position + limit) ++
                bytes.extract (position + limit) bytes.size =
                  bytes.extract position bytes.size := by
              rw [ByteArray.extract_append_extract, Nat.min_eq_left (by omega),
                Nat.max_eq_right (by omega)]
            have hsome {i j : Nat} (hi : i < j) (hj : j ≤ bytes.size) :
                ¬ (bytes.extract i j).isEmpty = true := by
              rw [ByteArray.isEmpty, beq_iff_eq, ByteArray.size_extract]
              omega
            rw [hread, Reads, if_neg (hsome (by omega) (by omega)), stream, stream, turns, turns,
              remaining, remaining, InputEvent.stream, InputEvent.stream, InputEvent.turns,
              InputEvent.turns, if_neg (hsome (by omega) le_rfl), if_neg (hsome (by omega) le_rfl),
              ← hjoin, ByteArray.data_append, Array.toList_append, List.append_assoc]
            simp only [ByteArray.size_append, ByteArray.size_extract, true_and]
            omega

end InputSource

/-! ## Turns -/

/-- The pump as a thread of its own: the source, the bytes that it has read and not handled yet, and
the state of `Pump` but for the queue. -/
structure PumpThread where
  source : InputSource
  pending : List UInt8
  escaped : Bool
  stop : Bool
  /-- Whether the pump has come to the end of its work. -/
  ended : Bool

namespace PumpThread

def readSize : Nat := 64

def start (events : List InputEvent) : PumpThread := ⟨⟨events, 0⟩, [], false, false, false⟩

def pump (t : PumpThread) (queue : KeyQueue) : Pump := ⟨queue, t.escaped, t.stop⟩

def handle (t : PumpThread) (b : UInt8) (rest : List UInt8) (queue : KeyQueue) :
    PumpThread × KeyQueue :=
  let p := (t.pump queue).byte b
  (⟨t.source, rest, p.escaped, p.stop, p.stop⟩, p.queue)

/-- Reads from the source, which may be at its end. -/
def refill (t : PumpThread) : PumpThread :=
  if t.stop then { t with ended := true }
  else
    match t.source.read readSize with
    | (.bytes data, source) =>
      if data.isEmpty then { t with source := source, ended := true }
      else { t with source := source, pending := data.data.toList }
    | (.interrupted, source) => { t with source := source }
    | (.failed, source) => { t with source := source, ended := true }

/-- One turn of the pump. The queue is touched once at most. -/
def turn (t : PumpThread) (queue : KeyQueue) : PumpThread × KeyQueue :=
  if t.ended then (t, queue)
  else
    match t.pending with
    | b :: rest => t.handle b rest queue
    | [] => (t.refill, queue)

/-- The byte that the next turn offers to the queue, if it offers one. It does not depend on the
queue. -/
def offer? (t : PumpThread) : Option UInt8 :=
  if t.ended then none else t.pending.head?.bind (Pump.offer? t.stop t.escaped)

/-- A turn does nothing to the queue but that it offers its byte. -/
theorem turn_queue (t : PumpThread) (queue : KeyQueue) :
    (t.turn queue).2 = (t.offer?.map queue.send).getD queue := by
  unfold turn offer?
  by_cases hended : t.ended = true
  · rw [if_pos hended, if_pos hended]
    rfl
  rw [if_neg hended, if_neg hended]
  cases t.pending with
  | nil => rfl
  | cons b rest => exact (t.pump queue).byte_queue b

/-! ### What has been offered and what is to come -/

/-- The bytes that the pump is still to handle. -/
def toCome (t : PumpThread) : List UInt8 :=
  if t.ended then [] else withEscape t.escaped (t.pending ++ t.source.stream)

/-- What the pump has offered of a stream is what the whole stream types but for what the bytes to
come type, and it has raised the stop flag if the stream asks for it and they do not. -/
structure Accounts (t : PumpThread) (bytes offered : List UInt8) : Prop where
  offered : unescape bytes = offered ++ unescape t.toCome
  stop : asksToStop bytes = (t.stop || asksToStop t.toCome)
  /-- The stop sequence is the last that is handled. -/
  ended : t.stop = true → t.ended = true

theorem start_accounts (events : List InputEvent) :
    (start events).Accounts (InputEvent.stream events) [] := by
  have hcome : (start events).toCome = InputEvent.stream events :=
    InputSource.stream_zero events
  exact ⟨by rw [hcome]; rfl, by rw [hcome]; rfl, nofun⟩

/-- A read finds the end of the stream, or it moves bytes from the stream to the pump. -/
theorem refill_cases {t : PumpThread} (hstop : t.stop = false) (hpending : t.pending = []) :
    (t.source.stream = [] ∧ ∃ source, t.refill = { t with source := source, ended := true }) ∨
      ∃ bytes source, t.refill = { t with source := source, pending := bytes } ∧
        t.source.stream = bytes ++ source.stream ∧
        bytes.length + source.turns < t.source.turns := by
  have hspec := InputSource.read_spec (show 0 < readSize by decide) t.source
  rw [refill, if_neg (by rw [hstop]; exact Bool.false_ne_true)]
  revert hspec
  cases t.source.read readSize with
  | mk answer source =>
      cases answer with
      | failed => exact fun hstream => .inl ⟨hstream, source, rfl⟩
      | interrupted =>
          rintro ⟨hstream, hturns⟩
          refine .inr ⟨[], source, ?_, hstream.symm, ?_⟩
          · rw [← hpending]
          · rwa [List.length_nil, Nat.zero_add]
      | bytes data =>
          intro hspec
          rw [InputSource.Reads] at hspec
          simp only
          split at hspec
          · rw [if_pos ‹_›]
            exact .inl ⟨hspec, source, rfl⟩
          · rw [if_neg ‹_›]
            exact .inr ⟨data.data.toList, source, rfl, hspec⟩

/-- Reading leaves what is typed and whether the machine is to stop. -/
theorem refill_accounts {t : PumpThread} (hended : t.ended = false) (hstop : t.stop = false)
    (hpending : t.pending = []) :
    unescape t.refill.toCome = unescape t.toCome ∧
      asksToStop t.refill.toCome = asksToStop t.toCome ∧ t.refill.stop = false := by
  have hcome : t.toCome = withEscape t.escaped t.source.stream := by
    rw [toCome, hended, hpending]
    rfl
  rcases refill_cases hstop hpending with ⟨hstream, source, hrefill⟩ |
    ⟨bytes, source, hrefill, hstream, -⟩
  · rw [hcome, hstream, hrefill, unescape_withEscape_nil, asksToStop_withEscape_nil]
    exact ⟨rfl, rfl, hstop⟩
  · have hcome' : t.refill.toCome = t.toCome := by
      rw [hcome, hstream, hrefill, toCome, hended]
      rfl
    rw [hcome']
    exact ⟨rfl, rfl, hrefill ▸ hstop⟩

theorem turn_accounts {t : PumpThread} {bytes offered : List UInt8}
    (h : t.Accounts bytes offered) (queue : KeyQueue) :
    (t.turn queue).1.Accounts bytes (offered ++ t.offer?.toList) := by
  unfold turn offer?
  cases hended : t.ended with
  | true =>
      rw [if_pos rfl, if_pos rfl, Option.toList_none, List.append_nil]
      exact h
  | false =>
      have hstop : t.stop = false := by
        rw [← Bool.not_eq_true]
        intro hstop
        rw [h.ended hstop] at hended
        cases hended
      rw [if_neg Bool.false_ne_true, if_neg Bool.false_ne_true]
      cases hpending : t.pending with
      | nil =>
          obtain ⟨htyped, hasks, hstop'⟩ := refill_accounts hended hstop hpending
          rw [List.head?_nil, Option.bind_none, Option.toList_none, List.append_nil]
          -- reading on offers nothing
          refine ⟨h.offered.trans (by rw [htyped]), ?_, fun hstop => ?_⟩
          · rw [h.stop, hstop, hstop', hasks]
          · rw [hstop'] at hstop
            cases hstop
      | cons b rest =>
          have hcome : t.toCome = withEscape t.escaped (b :: (rest ++ t.source.stream)) := by
            rw [toCome, hended, hpending]
            rfl
          have hcome' : (t.handle b rest queue).1.toCome =
              if ((t.pump queue).byte b).stop then []
              else withEscape ((t.pump queue).byte b).escaped (rest ++ t.source.stream) := rfl
          -- the byte is offered, or starts or ends an escape, or stops the machine
          obtain ⟨htyped, hasks⟩ := Pump.byte_accounts (p := t.pump queue) hstop b
            (rest ++ t.source.stream)
          refine ⟨?_, ?_, id⟩
          · rw [h.offered, hcome, hcome', apply_ite unescape]
            exact (congrArg (offered ++ ·) htyped).trans (List.append_assoc ..).symm
          · rw [h.stop, hstop, Bool.false_or, hcome, hcome', apply_ite asksToStop]
            refine hasks.trans ?_
            change _ = (((t.pump queue).byte b).stop || _)
            cases ((t.pump queue).byte b).stop <;> rfl

/-! ### The end of the work -/

/-- How many turns the pump may still need. -/
def turnsLeft (t : PumpThread) : Nat :=
  if t.ended then 0 else t.pending.length + t.source.turns + 1

theorem turnsLeft_of_ended {t : PumpThread} (h : t.ended = true) : t.turnsLeft = 0 := by
  rw [turnsLeft, if_pos h]

theorem turnsLeft_of_not_ended {t : PumpThread} (h : t.ended = false) :
    t.turnsLeft = t.pending.length + t.source.turns + 1 := by
  rw [turnsLeft, h, if_neg Bool.false_ne_true]

theorem ended_of_turnsLeft {t : PumpThread} (h : t.turnsLeft = 0) : t.ended = true := by
  rw [turnsLeft] at h
  split at h
  · assumption
  · cases h

/-- Every turn brings the pump nearer to its end. -/
theorem turnsLeft_turn (t : PumpThread) (queue : KeyQueue) :
    (t.turn queue).1.turnsLeft ≤ t.turnsLeft - 1 := by
  cases hended : t.ended with
  | true =>
      rw [turn, if_pos hended, turnsLeft_of_ended hended]
  | false =>
      rw [turnsLeft_of_not_ended hended, turn, hended, if_neg Bool.false_ne_true]
      cases hpending : t.pending with
      | cons b rest =>
          have hafter : (t.handle b rest queue).1.turnsLeft ≤
              rest.length + t.source.turns + 1 := by
            change (if ((t.pump queue).byte b).stop then 0 else _) ≤ _
            split
            · exact Nat.zero_le _
            · exact le_rfl
          rw [List.length_cons]
          exact hafter.trans (by omega)
      | nil =>
          simp only
          cases hstop : t.stop with
          | true =>
              rw [refill, if_pos hstop, turnsLeft_of_ended rfl]
              exact Nat.zero_le _
          | false =>
              rcases refill_cases hstop hpending with ⟨-, source, hrefill⟩ |
                ⟨bytes, source, hrefill, -, hturns⟩
              · rw [hrefill, turnsLeft_of_ended rfl]
                exact Nat.zero_le _
              -- the bytes read are to be handled one turn each, for which the source has one turn
              -- less
              · have hafter : t.refill.ended = false := hrefill ▸ hended
                rw [turnsLeft_of_not_ended hafter, hrefill]
                simp only [List.length_nil]
                omega

/-- What the pump comes to if nobody else touches the queue. -/
def outcome (t : PumpThread) (queue : KeyQueue) : Pump :=
  if t.ended then t.pump queue
  else (t.pending ++ t.source.stream).foldl Pump.byte (t.pump queue)

theorem outcome_turn (t : PumpThread) (queue : KeyQueue) :
    (t.turn queue).1.outcome (t.turn queue).2 = t.outcome queue := by
  unfold turn
  cases hended : t.ended with
  | true => rfl
  | false =>
      rw [if_neg Bool.false_ne_true]
      -- a byte is handled alike, whether or not it has been read already
      have hbefore : t.outcome queue =
          (t.pending ++ t.source.stream).foldl Pump.byte (t.pump queue) := by
        rw [outcome, hended, if_neg Bool.false_ne_true]
      rw [hbefore]
      cases hpending : t.pending with
      | cons b rest =>
          change (if ((t.pump queue).byte b).stop then (t.pump queue).byte b
            else (rest ++ t.source.stream).foldl Pump.byte ((t.pump queue).byte b)) = _
          rw [List.cons_append, List.foldl_cons]
          split
          · exact (Pump.foldl_byte_of_stop ‹_› _).symm
          · rfl
      | nil =>
          rw [List.nil_append]
          cases hstop : t.stop with
          | true =>
              rw [Pump.foldl_byte_of_stop (p := t.pump queue) hstop]
              simp only [refill, if_pos hstop, outcome, if_true]
              rfl
          | false =>
              rcases refill_cases hstop hpending with ⟨hstream, source, hrefill⟩ |
                ⟨bytes, source, hrefill, hstream, -⟩
              · rw [hstream]
                simp only [hrefill, outcome, if_true]
                rfl
              · rw [hstream]
                simp only [hrefill, outcome, hended, Bool.false_eq_true, if_false]
                rfl

def turns : Nat → PumpThread × KeyQueue → PumpThread × KeyQueue
  | 0, s => s
  | n + 1, s => turns n (s.1.turn s.2)

theorem turns_ended {n : Nat} {s : PumpThread × KeyQueue} (hn : s.1.turnsLeft ≤ n) :
    (turns n s).1.ended = true := by
  induction n generalizing s with
  | zero => exact ended_of_turnsLeft (Nat.le_zero.mp hn)
  | succ n ih =>
      have hturn := turnsLeft_turn s.1 s.2
      exact ih (by omega)

theorem outcome_turns (n : Nat) (s : PumpThread × KeyQueue) :
    (turns n s).1.outcome (turns n s).2 = s.1.outcome s.2 := by
  induction n generalizing s with
  | zero => rfl
  | succ n ih => exact (ih _).trans (outcome_turn s.1 s.2)

theorem turnsLeft_start (events : List InputEvent) :
    (start events).turnsLeft = InputEvent.turns events + 1 := by
  rw [turnsLeft_of_not_ended rfl, start, InputSource.turns_zero, List.length_nil, Nat.zero_add]

/-- A pump that is left alone with the queue does what `Pump.run` says, within a number of turns
that the events tell. -/
theorem alone (events : List InputEvent) (queue : KeyQueue) {n : Nat}
    (hn : InputEvent.turns events < n) :
    (turns n (start events, queue)).1.ended = true ∧
      (turns n (start events, queue)).1.pump (turns n (start events, queue)).2 =
        Pump.run events ⟨queue, false, false⟩ := by
  have hended : (turns n (start events, queue)).1.ended = true :=
    turns_ended ((turnsLeft_start events).trans_le hn)
  have houtcome := outcome_turns n (start events, queue)
  have hstart : (start events).outcome queue =
      (InputSource.stream ⟨events, 0⟩).foldl Pump.byte ⟨queue, false, false⟩ := rfl
  rw [outcome, if_pos hended, hstart, InputSource.stream_zero, ← Pump.run_eq_foldl] at houtcome
  exact ⟨hended, houtcome⟩

end PumpThread

end RiscvMachine
