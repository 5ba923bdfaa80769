import RiscvMachine.Proofs.Cache.Failure
import RiscvMachine.Proofs.Cache.Making
import RiscvMachine.Proofs.Machine.MemoryAccess

set_option autoImplicit false

/-! # Printing a string

The debug channel prints a string from RAM by reading it through the cache, byte by byte. A
coherent cache answers each of these reads with the byte that it shows, and shows the same bytes
afterwards, whatever lines it has to evict (`Cache.Shows.readByte`). So what is printed is the
string that the guest would load, written back or not, and printing changes no byte of it; if a unit
fails on the way, what has been printed is the beginning of that string
(`Platform.writeCsr_string`).
-/

namespace RiscvMachine

/-- The bytes from an address on, `n` at most, up to a zero. -/
def Memory.stringAt (m : Memory) (addr n : Nat) : List UInt8 :=
  (List.ofFn fun i : Fin n => m (addr + i)).takeWhile (· != 0)

theorem Memory.stringAt_zero (m : Memory) (addr : Nat) : m.stringAt addr 0 = [] := rfl

theorem Memory.stringAt_succ (m : Memory) (addr n : Nat) :
    m.stringAt addr (n + 1) =
      if m addr = 0 then [] else m addr :: m.stringAt (addr + 1) n := by
  have hbytes (byte : Nat → UInt8) : Memory.stringAt byte addr (n + 1) =
      if byte addr = 0 then [] else byte addr :: Memory.stringAt byte (addr + 1) n := by
    have hrest (i : Fin n) : byte (addr + i.succ) = byte (addr + 1 + i) := by
      rw [Fin.val_succ, Nat.add_assoc, Nat.add_comm 1]
    simp only [stringAt, List.ofFn_succ, hrest, List.takeWhile_cons, Fin.val_zero, Nat.add_zero]
    by_cases hzero : byte addr = 0
    · rw [if_pos hzero, hzero]
      rfl
    · rw [if_neg hzero, if_pos (bne_iff_ne.mpr hzero)]
  exact hbytes m

/-! ## Reading a byte -/

namespace Cache

variable {υ : Type} [StorageUnit υ] [LawfulUnit υ]

/-- A byte is answered as it is shown, and reading it does not show, unless a unit fails. -/
theorem Shows.readByte {c : Cache υ} {m : Memory} (hc : c.Shows m) {addr : UInt32}
    (haddr : addr.toNat < c.store.size) :
    Ends (fun value c' => value = (m addr.toNat).toUInt32 ∧ c.Follows c' ∧ c'.Shows m)
      (fun error _ => (∃ unit, error = .io unit) ∧
        (LawfulUnit.WriteFails υ ∨ LawfulUnit.ReadFails υ))
      (readNumber .byte addr c) := by
  have hwellFormed := hc.coherent.toWellFormed
  have hadmits : c.geometry.Admits c.store.size addr Width.byte.bytes :=
    hwellFormed.geometry.admits (Nat.one_dvd _) haddr
  have hread := hc.performs_read hadmits
  simp only [perform, readNumber, bind, EStateM.bind] at hread ⊢
  cases hresult : read addr Width.byte.bytes c with
  | ok bytes c' =>
      rw [hresult] at hread
      obtain ⟨hbytes, hfollows, hshows⟩ := hread
      refine .ok ⟨?_, hfollows, hshows⟩
      rw [Option.some.inj hbytes, Width.bytes, Bytes.littleEndianAt_one,
        Memory.byteAt_read _ _ Nat.one_pos, Nat.add_zero]
  | error error c' =>
      rw [hresult] at hread
      obtain ⟨unit, herror, -⟩ :=
        lookup_error_spoils hwellFormed hadmits (lookup_error_of_read hwellFormed hadmits hresult)
      exact .error ⟨⟨unit, herror⟩, hread⟩

end Cache

/-! ## Printing -/

namespace DebugChannel

variable {υ : Type} [StorageUnit υ] [LawfulUnit υ]

/-- The string is printed, or the part of it in front of the byte that could not be read. -/
theorem printString_shows {c : Cache υ} {m : Memory} (hc : c.Shows m) {ramSize : Nat}
    (hroom : ramSize ≤ c.store.size) (hramSize : ramSize < 2 ^ 32) (output : ByteArray)
    {n : Nat} {offset : UInt32} (hn : n = ramSize - offset.toNat) :
    Ends
      (fun _ state => state.2 = output ++ (m.stringAt offset.toNat n).toByteArray ∧
        c.Follows state.1 ∧ state.1.Shows m)
      (fun error state => ((∃ unit, error = .io unit) ∧
          (LawfulUnit.WriteFails υ ∨ LawfulUnit.ReadFails υ)) ∧
        ∃ printed, printed <+: m.stringAt offset.toNat n ∧
          state.2 = output ++ printed.toByteArray)
      (printString n offset (c, output)) := by
  -- along the bytes that are left of RAM; eviction may change the cache, but not what it shows
  induction n generalizing c output offset with
  | zero => exact .ok ⟨ByteArray.append_empty.symm, .refl hc.coherent.toWellFormed, hc⟩
  | succ n ih =>
      have hnext : (offset + 1).toNat = offset.toNat + 1 := by
        rw [UInt32.toNat_add, UInt32.toNat_one]
        omega
      have hbyte := hc.readByte (show offset.toNat < c.store.size by omega)
      rw [Memory.stringAt_succ]
      simp only [printString]
      revert hbyte
      cases Cache.readNumber .byte offset c with
      | error error c₁ =>
          intro hbyte
          exact .error ⟨hbyte.of_error, [], List.nil_prefix, ByteArray.append_empty.symm⟩
      | ok value c₁ =>
          intro hbyte
          obtain ⟨rfl, hfollows, hshows⟩ := hbyte.of_ok
          simp only
          by_cases hzero : m offset.toNat = 0
          · rw [if_pos hzero, hzero]
            exact .ok ⟨ByteArray.append_empty.symm, hfollows, hshows⟩
          · have hvalue : (m offset.toNat).toUInt32 ≠ 0 := by
              intro hvalue
              apply hzero
              rw [← UInt8.toUInt8_toUInt32 (m offset.toNat), hvalue]
              rfl
            have hrest := ih hshows (hfollows.size ▸ hroom)
              (output.push (m offset.toNat)) (show n = ramSize - (offset + 1).toNat by omega)
            -- the byte stands in front of what is printed behind it
            have hpush (bytes : List UInt8) : output.push (m offset.toNat) ++ bytes.toByteArray =
                output ++ (m offset.toNat :: bytes).toByteArray := by
              rw [Bytes.push_eq_append, ByteArray.append_assoc, ← List.toByteArray_append]
              rfl
            rw [if_neg hvalue, if_neg hzero, UInt8.toUInt8_toUInt32]
            rw [hnext] at hrest
            refine hrest.imp ?_ ?_
            · rintro _ state ⟨houtput, hfollows', hshows'⟩
              exact ⟨houtput.trans (hpush _), hfollows.trans hfollows', hshows'⟩
            · rintro error state ⟨hcause, printed, hpre, houtput⟩
              exact ⟨hcause, _, List.cons_prefix_cons.mpr ⟨rfl, hpre⟩,
                houtput.trans (hpush _)⟩

end DebugChannel

namespace Platform

variable {υ : Type} [StorageUnit υ] [LawfulUnit υ]

/-- A load of a byte of RAM, if it succeeds, answers the byte of `m`. -/
def LoadsFrom (p : Platform υ) (m : Memory) : Prop :=
  ∀ a < p.ramSize.toNat, ∀ addr value, addr.toNat = ramBase.toNat + a →
    Bus.byteSeen p addr = some value → value = (m a).toUInt32

theorem loadsFrom_of_shows {p : Platform υ} {m : Memory} (hshows : p.cache.Shows m)
    (hroom : p.ramSize.toNat ≤ p.cache.store.size) : p.LoadsFrom m := by
  intro a ha addr value haddr hseen
  have hplace : (UInt32.ofNat a).toNat = a :=
    UInt32.toNat_ofNat_of_lt' (ha.trans p.ramSize.toNat_lt)
  have hoffset : ramOffset? p.ramSize addr .byte = some (UInt32.ofNat a) :=
    ramOffset?_eq_some_iff.mpr ⟨by rw [hplace, haddr], by rw [hplace]; exact ha⟩
  have hbyte := hshows.readByte (show (UInt32.ofNat a).toNat < p.cache.store.size by omega)
  have hread : Bus.read .byte addr p = Platform.read .byte addr p := rfl
  simp only [Bus.byteSeen, hread, Platform.read, if_neg (not_isDevice hoffset), bind, EStateM.bind,
    get, getThe, MonadStateOf.get, EStateM.get, hoffset, onCache] at hseen
  revert hbyte hseen
  cases Cache.readNumber .byte (UInt32.ofNat a) p.cache with
  | error error c₁ =>
      intro _ hseen
      cases hseen
  | ok byte c₁ =>
      intro hbyte hseen
      rw [← Option.some.inj hseen, hbyte.of_ok.1, hplace]

/-- The string that the guest sees at an address: the bytes of RAM from there on, up to a zero or
the end of RAM. There is none outside RAM. -/
def stringSeen (p : Platform υ) (pointer : UInt32) : List UInt8 :=
  if ramBase ≤ pointer ∧ pointer.toNat < ramBase.toNat + p.ramSize.toNat then
    p.cache.contents.stringAt (pointer.toNat - ramBase.toNat)
      (ramBase.toNat + p.ramSize.toNat - pointer.toNat)
  else []

/-- Pointers below RAM wrap around to places behind its end. -/
theorem stringSeen_eq {p : Platform υ} (hle : p.ramSize ≤ maxRamSize) (pointer : UInt32) :
    p.stringSeen pointer = p.cache.contents.stringAt (pointer - ramBase).toNat
      (p.ramSize.toNat - (pointer - ramBase).toNat) := by
  have hsize : p.ramSize.toNat ≤ 2147483648 := UInt32.le_iff_toNat_le.mp hle
  have hbase : ramBase.toNat = 2147483648 := rfl
  have hlt := pointer.toNat_lt
  have hsub : (pointer - ramBase).toNat =
      (2 ^ 32 - ramBase.toNat + pointer.toNat) % 2 ^ 32 := UInt32.toNat_sub pointer ramBase
  unfold stringSeen
  split
  · rename_i hin
    rw [UInt32.le_iff_toNat_le] at hin
    have hstart : (pointer - ramBase).toNat = pointer.toNat - ramBase.toNat := by omega
    have hlength : ramBase.toNat + p.ramSize.toNat - pointer.toNat =
        p.ramSize.toNat - (pointer.toNat - ramBase.toNat) := by omega
    rw [hstart, hlength]
  · rename_i hout
    rw [UInt32.le_iff_toNat_le] at hout
    have hnone : p.ramSize.toNat - (pointer - ramBase).toNat = 0 := by omega
    rw [hnone, Memory.stringAt_zero]

omit [LawfulUnit υ] in
/-- The register prints the bytes from its value on. -/
theorem writeCsr_eq_printString (p : Platform υ) (pointer : UInt32) :
    Bus.writeCsr 0x138 pointer p =
      match DebugChannel.printString (p.ramSize.toNat - (pointer - ramBase).toNat)
        (pointer - ramBase) (p.cache, p.console.output) with
      | .ok () state => .ok () ⟨state.1, { p.console with output := state.2 }, p.ramSize⟩
      | .error error state =>
        .error (.storage error) ⟨state.1, { p.console with output := state.2 }, p.ramSize⟩ := by
  obtain ⟨cache, ⟨keys, output⟩, ramSize⟩ := p
  have hwrite : DebugChannel.write ramSize 0x138 pointer (cache, output) =
      DebugChannel.printString (ramSize.toNat - (pointer - ramBase).toNat) (pointer - ramBase)
        (cache, output) := rfl
  change Platform.writeCsr 0x138 pointer ⟨cache, ⟨keys, output⟩, ramSize⟩ = _
  simp only [Platform.writeCsr, hwrite]
  cases DebugChannel.printString (ramSize.toNat - (pointer - ramBase).toNat) (pointer - ramBase)
    (cache, output) <;> rfl

/-- Printing a string over any units, in any state that a cache that has been made with lines of at
most 2^31 bytes can reach by requests that spoil nothing. A guest that loads bytes finds those that
the cache shows. If the write to the register succeeds, just the string that starts at the pointer
has been added to the output, and the guest finds the same bytes as before; if it fails, a unit has
failed, and the beginning of the string has been added. It succeeds if units do not fail. -/
theorem writeCsr_string {geometry : CacheGeometry} {store : Store υ} {made : Cache υ}
    (hnew : Cache.new geometry store = .ok made) (hlineSize : geometry.lineSize.toNat ≤ 2 ^ 31)
    (hstore : store.Sound) {before : List CacheRequest}
    (hbefore : ∀ request ∈ before, request.InRange geometry store.size)
    (hunspoiled : made.Unspoiled before) {p : Platform υ}
    (hcache : p.cache = made.attempts before)
    (hle : p.ramSize ≤ maxRamSize) (hroom : p.ramSize.toNat ≤ store.size) (pointer : UInt32) :
    p.LoadsFrom p.cache.contents ∧
    Ends
      (fun _ p' => p'.console =
          { p.console with output := p.console.output ++ (p.stringSeen pointer).toByteArray } ∧
        p'.ramSize = p.ramSize ∧
        (∀ a < p.ramSize.toNat, p'.cache.contents a = p.cache.contents a) ∧
        p'.LoadsFrom p.cache.contents)
      (fun fault p' => (∃ unit, fault = .storage (.io unit)) ∧
        ∃ printed, printed <+: p.stringSeen pointer ∧ p'.console =
          { p.console with output := p.console.output ++ printed.toByteArray })
      (Bus.writeCsr 0x138 pointer p) ∧
    (¬ LawfulUnit.WriteFails υ → ¬ LawfulUnit.ReadFails υ →
      ∃ p', Bus.writeCsr 0x138 pointer p = .ok () p') := by
  have hgeometry := Cache.valid_of_new hnew hlineSize
  obtain ⟨rfl, -⟩ := Cache.new_eq_ok_iff.mp hnew
  have hempty := (Cache.empty_spec hgeometry hstore).1
  have hfollows := Cache.attempts_follows hempty.toWellFormed before hbefore
  have hcoherent := Cache.attempts_coherent hempty hbefore hunspoiled
  rw [← hcache] at hfollows hcoherent
  have hshows : p.cache.Shows p.cache.contents := ⟨hcoherent, fun _ _ => rfl⟩
  have hroom' : p.ramSize.toNat ≤ p.cache.store.size := hroom.trans_eq hfollows.size.symm
  have hprint := DebugChannel.printString_shows hshows hroom' p.ramSize.toNat_lt p.console.output
    (show p.ramSize.toNat - (pointer - ramBase).toNat = _ from rfl)
  rw [← stringSeen_eq hle pointer] at hprint
  refine ⟨loadsFrom_of_shows hshows hroom', ?_⟩
  rw [writeCsr_eq_printString]
  revert hprint
  cases DebugChannel.printString (p.ramSize.toNat - (pointer - ramBase).toNat) (pointer - ramBase)
      (p.cache, p.console.output) with
  | ok _ state =>
      intro hprint
      obtain ⟨houtput, hfollows', hshows'⟩ := hprint.of_ok
      have hkept : ∀ a < p.ramSize.toNat, state.1.contents a = p.cache.contents a := fun a ha =>
        hshows'.contents a ((ha.trans_le hroom').trans_eq hfollows'.size.symm)
      exact ⟨.ok ⟨by rw [← houtput], rfl, hkept,
        loadsFrom_of_shows hshows' (hroom'.trans_eq hfollows'.size.symm)⟩, fun _ _ => ⟨_, rfl⟩⟩
  | error error state =>
      intro hprint
      -- only a call that a unit refuses ends the string early
      obtain ⟨⟨⟨unit, rfl⟩, hfails⟩, printed, hpre, houtput⟩ := hprint.of_error
      exact ⟨.error ⟨⟨unit, rfl⟩, printed, hpre, by rw [← houtput]⟩,
        fun hwrites hreads => absurd hfails (not_or.mpr ⟨hwrites, hreads⟩)⟩

/-- Four bytes across the blocks of a cache with one line, none of them written back, over two units
of six. If the second unit fails at its third call, which is to fill the line with the second block,
two of them are printed. -/
theorem writeCsr_string_dirty :
    let p (fails : List Bool) : Platform (Flaky Medium) :=
      ⟨(Cache.empty ⟨4, 1⟩ ⟨#[⟨.memory 6, []⟩, ⟨.memory 6, fails⟩], 6, 0, 0⟩).attempts
        [.write 4 ⟨#[0x43, 0x44, 0, 0]⟩, .write 0 ⟨#[1, 2, 0x41, 0x42]⟩], .new 4, 8⟩
    (∃ p', Bus.writeCsr 0x138 0x80000002 (p []) = .ok () p' ∧
      p'.console.output = ⟨#[0x41, 0x42, 0x43, 0x44]⟩) ∧
    ∃ p', Bus.writeCsr 0x138 0x80000002 (p [false, false, true]) = .error (.storage (.io 1)) p' ∧
      p'.console.output = ⟨#[0x41, 0x42]⟩ ∧
      ∃ printed, printed <+: [0x41, 0x42, 0x43, 0x44] ∧
        p'.console.output = printed.toByteArray := by
  intro p
  have hsound (fails : List Bool) :
      (⟨#[⟨.memory 6, []⟩, ⟨.memory 6, fails⟩], 6, 0, 0⟩ : Store (Flaky Medium)).Sound :=
    ⟨Store.unitsSound_pair ⟨Medium.memory_intact 6, rfl⟩ ⟨Medium.memory_intact 6, rfl⟩,
      show 2 * 6 < 2 ^ 64 by decide⟩
  have hnew (fails : List Bool) : Cache.new ⟨4, 1⟩
      (⟨#[⟨.memory 6, []⟩, ⟨.memory 6, fails⟩], 6, 0, 0⟩ : Store (Flaky Medium)) =
        .ok (.empty ⟨4, 1⟩ _) :=
    rfl
  constructor
  · obtain ⟨-, hends, -⟩ := writeCsr_string (p := p []) (hnew []) (by decide) (hsound [])
      (by decide) (by decide +kernel) rfl (by decide) (by decide) 0x80000002
    have hok : answer? (Bus.writeCsr 0x138 0x80000002 (p [])) = some () := by decide +kernel
    rw [eq_ok_of_answer? hok] at hends ⊢
    refine ⟨_, rfl, ?_⟩
    rw [hends.of_ok.1]
    decide +kernel
  · obtain ⟨-, hends, -⟩ := writeCsr_string (p := p [false, false, true]) (hnew _)
      (by decide) (hsound _) (by decide) (by decide +kernel) rfl (by decide) (by decide) 0x80000002
    have hstring : (p [false, false, true]).stringSeen 0x80000002 = [0x41, 0x42, 0x43, 0x44] := by
      decide +kernel
    have hfails : (match Bus.writeCsr 0x138 0x80000002 (p [false, false, true]) with
        | .ok _ _ => false
        | .error fault p' => fault = .storage (.io 1) ∧
          p'.console.output = ⟨#[0x41, 0x42]⟩) = true := by decide +kernel
    cases hresult : Bus.writeCsr 0x138 0x80000002 (p [false, false, true]) with
    | ok _ p' =>
        rw [hresult] at hfails
        cases hfails
    | error fault p' =>
        rw [hresult] at hfails hends
        obtain ⟨rfl, houtput⟩ := of_decide_eq_true hfails
        obtain ⟨-, printed, hpre, hconsole⟩ := hends.of_error
        rw [hstring] at hpre
        refine ⟨p', rfl, houtput, printed, hpre, ?_⟩
        rw [hconsole]
        exact ByteArray.empty_append

end Platform

end RiscvMachine
