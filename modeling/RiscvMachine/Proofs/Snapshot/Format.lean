import RiscvMachine.Bytes.RoundTrip
import RiscvMachine.Proofs.Compression.StoredFrames
import RiscvMachine.Snapshot.Format

set_option autoImplicit false

/-! # Saved state dumps are read back

A reader *takes* some bytes as a value if it takes just these off whatever they stand in front of,
and fails where they are cut short (`DumpFormat.Takes`). A reader that goes through fields one
after the other takes what stands there one after the other (`Takes.bind`): the first field tells
where the second starts, so that a record cut short anywhere ends inside one of its fields. The
lemmas below follow the record from its numbers up to the whole dump (`takes_dump`).

What becomes of a saved dump is said in `StateDump.saved_read_back`.
-/

namespace RiscvMachine

namespace DumpFormat

open Bytes

variable {α β : Type}

/-! ## Readers that take their bytes and need all of them -/

/-- The reader takes just these bytes as `a`, and fails if it finds only the first of them. -/
structure Takes (x : Reader α) (bytes : List UInt8) (a : α) : Prop where
  reads : ∀ rest, x (bytes ++ rest) = some (a, rest)
  needs : ∀ n < bytes.length, x (bytes.take n) = none

theorem Takes.bind {x : Reader α} {f : α → Reader β} {bytes bytes' : List UInt8} {a : α} {b : β}
    (hx : Takes x bytes a) (hf : Takes (f a) bytes' b) :
    Takes (x >>= f) (bytes ++ bytes') b where
  reads rest := by
    have hfirst := hx.reads (bytes' ++ rest)
    rw [← List.append_assoc] at hfirst
    simp only [Bind.bind, StateT.bind, hfirst, Option.bind_some]
    exact hf.reads rest
  needs n hn := by
    rw [List.take_append]
    by_cases hcut : n < bytes.length
    · -- cut inside the first part: the second has no bytes
      have hnothing : n - bytes.length = 0 := by omega
      rw [hnothing, List.take_zero, List.append_nil]
      simp only [Bind.bind, StateT.bind, hx.needs n hcut, Option.bind_none]
    · have hrest : n - bytes.length < bytes'.length := by
        rw [List.length_append] at hn
        omega
      rw [List.take_of_length_le (Nat.le_of_not_lt hcut)]
      simp only [Bind.bind, StateT.bind, hx.reads, Option.bind_some]
      exact hf.needs _ hrest

theorem Takes.pure (a : α) : Takes (Pure.pure a) [] a where
  reads _ := rfl
  needs _ hn := absurd hn (Nat.not_lt_zero _)

/-- The last field of a record. -/
theorem Takes.last {x : Reader α} {bytes : List UInt8} {a : α} (hx : Takes x bytes a)
    (f : α → β) : Takes (x >>= fun a => Pure.pure (f a)) bytes (f a) := by
  have hbind := hx.bind (f := fun a => Pure.pure (f a)) (Takes.pure (f a))
  rwa [List.append_nil] at hbind

/-! ## Numbers -/

theorem takes_number {n v : Nat} (hv : v < 256 ^ n) :
    Takes (readNumber n) (littleEndianList n v) v where
  reads rest := by
    have hlength : n ≤ (littleEndianList n v ++ rest).length := by
      rw [List.length_append, length_littleEndianList]
      exact Nat.le_add_right n _
    rw [readNumber, if_pos hlength, List.take_left' (length_littleEndianList n v),
      List.drop_left' (length_littleEndianList n v), ofLittleEndianList_littleEndianList,
      Nat.mod_eq_of_lt hv]
  needs k hk := by
    rw [length_littleEndianList] at hk
    have hlength : ¬ n ≤ ((littleEndianList n v).take k).length := by
      rw [List.length_take, length_littleEndianList]
      omega
    rw [readNumber, if_neg hlength]

theorem takes_word (w : UInt32) : Takes readWord (word w) w := by
  have hnumber := (takes_number (n := 4) w.toNat_lt).last UInt32.ofNat
  rwa [UInt32.ofNat_toNat] at hnumber

theorem takes_long (w : UInt64) : Takes readLong (long w) w := by
  have hnumber := (takes_number (n := 8) w.toNat_lt).last UInt64.ofNat
  rwa [UInt64.ofNat_toNat] at hnumber

/-! ## Alternatives -/

theorem takes_flag (b : Bool) : Takes readFlag (flag b) b := by
  cases b with
  | false => exact (takes_number (n := 1) (v := 0) (by decide)).bind (Takes.pure false)
  | true => exact (takes_number (n := 1) (v := 1) (by decide)).bind (Takes.pure true)

theorem takes_optional (value : Option UInt32) : Takes readOptional (optional value) value := by
  cases value with
  | none => exact (takes_flag false).bind (Takes.pure none)
  | some w => exact (takes_flag true).bind ((takes_word w).last some)

theorem takes_privilege (p : Privilege) :
    Takes readPrivilege (word (privilegeNumber p)) p := by
  cases p with
  | user => exact (takes_number (n := 4) (v := 0) (by decide)).bind (Takes.pure Privilege.user)
  | machine =>
      exact (takes_number (n := 4) (v := 1) (by decide)).bind (Takes.pure Privilege.machine)

theorem takes_policy (p : FaultPolicy) : Takes readPolicy (word (policyNumber p)) p := by
  cases p with
  | delegate =>
      exact (takes_number (n := 4) (v := 0) (by decide)).bind (Takes.pure FaultPolicy.delegate)
  | failFast =>
      exact (takes_number (n := 4) (v := 1) (by decide)).bind (Takes.pure FaultPolicy.failFast)

/-! ## Records -/

/-- The registers, by induction on their number; the reader reads the last one last. -/
theorem takes_words (n : Nat) (words : Vector UInt32 n) :
    Takes (readWords n) (words.toList.flatMap word) words := by
  induction n with
  | zero =>
      obtain rfl : words = #v[] := Vector.eq_empty
      exact Takes.pure #v[]
  | succ n ih =>
      obtain ⟨front, last, rfl⟩ : ∃ (front : Vector UInt32 n) (last : UInt32),
          words = front.push last := Vector.exists_push
      rw [Vector.toList_push, List.flatMap_append, List.flatMap_singleton]
      exact (ih front).bind ((takes_word last).last (Vector.push front))

theorem takes_controlRegisters (c : ControlRegisters) :
    Takes readControlRegisters (controlRegisters c) c := by
  simp only [controlRegisters, List.append_assoc]
  refine (takes_word _).bind ?_
  refine (takes_word _).bind ?_
  refine (takes_word _).bind ?_
  refine (takes_word _).bind ?_
  refine (takes_word _).bind ?_
  refine (takes_word _).bind ?_
  refine (takes_word _).bind ?_
  refine (takes_word _).bind ?_
  refine (takes_long _).bind ?_
  refine (takes_long _).bind ?_
  exact (takes_long _).last _

/-- A hart comes back without its last exception, which is not saved. -/
theorem takes_hart (h : Hart) : Takes readHart (hart h) { h with lastFault := none } := by
  simp only [hart, List.append_assoc]
  refine (takes_word _).bind ?_
  refine (takes_words 32 _).bind ?_
  refine (takes_controlRegisters _).bind ?_
  refine (takes_privilege _).bind ?_
  refine (takes_flag _).bind ?_
  refine (takes_optional _).bind ?_
  refine (takes_policy _).bind ?_
  exact (takes_word _).last _

theorem takes_counters (c : Counters) : Takes readCounters (counters c) c := by
  simp only [counters, List.append_assoc]
  refine (takes_long _).bind ?_
  refine (takes_long _).bind ?_
  refine (takes_long _).bind ?_
  exact (takes_long _).last _

/-! ## Sizes -/

@[simp] theorem length_word (w : UInt32) : (word w).length = 4 := length_littleEndianList 4 _

@[simp] theorem length_long (w : UInt64) : (long w).length = 8 := length_littleEndianList 8 _

@[simp] theorem length_flag (b : Bool) : (flag b).length = 1 := rfl

theorem length_optional_le (value : Option UInt32) : (optional value).length ≤ 5 := by
  cases value with
  | none => exact Nat.le_of_ble_eq_true rfl
  | some w => rw [optional, List.length_cons, length_word]

theorem length_registers (words : Vector UInt32 32) :
    (words.toList.flatMap word).length = 128 := by
  simp [List.length_flatMap]

/-- The size of a dump depends on nothing but whether there is a reservation. -/
theorem length_dump (d : StateDump) :
    (dump d).length = 237 + (optional d.hart.reservation).length := by
  simp only [dump, hart, controlRegisters, counters, List.length_append, length_registers,
    length_word, length_long, length_flag]
  omega

end DumpFormat

namespace StateDump

open DumpFormat Compression

/-! ## Dumps -/

/-- What is saved of a dump. -/
def withoutLastFault (d : StateDump) : StateDump :=
  { d with hart := { d.hart with lastFault := none } }

theorem takes_dump (d : StateDump) : Takes readDump (dump d) d.withoutLastFault := by
  simp only [dump, List.append_assoc]
  refine (takes_word _).bind ?_
  refine (takes_hart _).bind ?_
  exact (takes_counters _).last _

theorem toList_payload (d : StateDump) : d.payload.toList = dump d :=
  Bytes.toList_toByteArray _

/-- There is room for the payload in one piece. -/
theorem size_payload_le (d : StateDump) : d.payload.size ≤ Zstd.roomSize := by
  have hreservation := length_optional_le d.hart.reservation
  rw [payload, List.size_toByteArray, length_dump]
  exact Nat.le_trans (Nat.add_le_add_left hreservation 237) (by decide)

/-- The version stands in front. -/
theorem payload_eq (d : StateDump) : d.payload =
    (word d.version ++ (DumpFormat.hart d.hart ++ DumpFormat.counters d.counters)).toByteArray := by
  rw [payload, dump, List.append_assoc]

/-- What the version of a dump that has been read says of it. -/
def checked (d : StateDump) : Except SnapshotError StateDump :=
  if d.version = currentVersion then .ok d else .error (.unsupportedVersion d.version)

theorem ofPayload_of_takes {bytes : List UInt8} {d : StateDump} (h : Takes readDump bytes d)
    (rest : List UInt8) : ofPayload (bytes ++ rest).toByteArray = d.checked := by
  rw [ofPayload, Bytes.toList_toByteArray, h.reads]
  rfl

theorem ofPayload_payload (d : StateDump) : ofPayload d.payload = d.withoutLastFault.checked := by
  have h := ofPayload_of_takes (takes_dump d) []
  rwa [List.append_nil] at h

theorem ofBytes_of_decompress {bytes payload : ByteArray}
    (h : Zstd.decompress bytes = some payload) : ofBytes bytes = ofPayload payload := by
  rw [ofBytes, h]

/-- Two dumps have one payload just if they differ at most in the last exception. -/
theorem payload_inj {d e : StateDump} :
    d.payload = e.payload ↔ d.withoutLastFault = e.withoutLastFault := by
  constructor
  · intro h
    have hd := (takes_dump d).reads []
    rw [← toList_payload, h, toList_payload, (takes_dump e).reads] at hd
    exact (Prod.mk.inj (Option.some.inj hd)).1.symm
  · intro h
    have hsame (d : StateDump) : d.withoutLastFault.payload = d.payload := rfl
    rw [← hsame d, h, hsame e]

theorem ofPayload_extract {d : StateDump} {n : Nat} (hn : n < d.payload.size) :
    ofPayload (d.payload.extract 0 n) = .error .deserialization := by
  have hcut : n < (dump d).length := by rwa [payload, List.size_toByteArray] at hn
  have hpart : (d.payload.extract 0 n).toList = (dump d).take n := by
    rw [Bytes.toList_eq, ByteArray.data_extract, Array.toList_extract, payload,
      List.toList_data_toByteArray]
    simp
  rw [ofPayload, hpart, (takes_dump d).needs n hcut]

/-- The version stands in front of everything else, and nothing else depends on it. -/
theorem readDump_version (version : UInt32) (bytes : List UInt8) :
    readDump (word version ++ bytes) = (readDump (word currentVersion ++ bytes)).map
      fun (d, rest) => ({ d with version }, rest) := by
  have hrest (version : UInt32) : readDump (word version ++ bytes) =
      (do
        let (hart, bytes) ← readHart bytes
        let (counters, bytes) ← readCounters bytes
        return (⟨version, hart, counters⟩, bytes) : Option (StateDump × List UInt8)) := by
    simp only [readDump, Bind.bind, StateT.bind, (takes_word version).reads, Option.bind_some]
    rfl
  rw [hrest, hrest]
  cases readHart bytes with
  | none => rfl
  | some hart =>
      cases hcounters : readCounters hart.2 with
      | none => simp [hcounters]
      | some counters => simp [hcounters]

theorem ofPayload_otherVersion {bytes : List UInt8} {d : StateDump}
    (hd : ofPayload (word currentVersion ++ bytes).toByteArray = .ok d) {version : UInt32}
    (hversion : version ≠ currentVersion) :
    ofPayload (word version ++ bytes).toByteArray = .error (.unsupportedVersion version) := by
  rw [ofPayload, Bytes.toList_toByteArray] at hd ⊢
  rw [readDump_version version]
  cases hread : readDump (word currentVersion ++ bytes) with
  | none => simp [hread] at hd
  | some read => simp [hversion]

/-! ## Main statement -/

/-- A dump that is saved with an encoder that the decoder inverts is read back with all of its
fields but the last exception, which is none then, if it has the version of this library. Dumps that
differ in anything else have different payloads. A payload that has been cut short is no dump, and
one that would be a dump but for its version is refused for that. -/
theorem saved_read_back (encode : ByteArray → ByteArray)
    (hencode : ∀ d : StateDump, Zstd.decompress (encode d.payload) = some d.payload) :
    (∀ d : StateDump, ofBytes (d.toBytes encode) =
      if d.version = currentVersion then .ok { d with hart := { d.hart with lastFault := none } }
      else .error (.unsupportedVersion d.version)) ∧
    (∀ d e : StateDump, d.payload = e.payload ↔
      { d with hart := { d.hart with lastFault := none } } =
        { e with hart := { e.hart with lastFault := none } }) ∧
    (∀ (d : StateDump) (n : Nat), n < d.payload.size → ∀ bytes,
      Zstd.decompress bytes = some (d.payload.extract 0 n) →
        ofBytes bytes = .error .deserialization) ∧
    (∀ (fields : List UInt8) (d : StateDump) (version : UInt32),
      ofPayload (word currentVersion ++ fields).toByteArray = .ok d → version ≠ currentVersion →
        ∀ bytes, Zstd.decompress bytes = some (word version ++ fields).toByteArray →
          ofBytes bytes = .error (.unsupportedVersion version)) := by
  refine ⟨fun d => ?_, fun d e => payload_inj, fun d n hn bytes hbytes => ?_,
    fun fields d version hd hversion bytes hbytes => ?_⟩
  · rw [toBytes, ofBytes_of_decompress (hencode d), ofPayload_payload]
    rfl
  · rw [ofBytes_of_decompress hbytes, ofPayload_extract hn]
  · rw [ofBytes_of_decompress hbytes, ofPayload_otherVersion hd hversion]

/-- The dump of a hart at the start of RAM, saved in a stored frame, cut short, and with the version
of a later library. -/
theorem saved_read_back_new :
    let d : StateDump := .of (.new 0x10000 .delegate) ⟨90, 100, 10, 4⟩
    ofBytes (d.toBytes Zstd.store) = .ok d ∧
      ofBytes (Zstd.store (d.payload.extract 0 100)) = .error .deserialization ∧
      ofBytes (Zstd.store { d with version := 2 }.payload) = .error (.unsupportedVersion 2) := by
  intro d
  have hsize : d.payload.size = 238 := by
    rw [payload, List.size_toByteArray, length_dump]
    rfl
  have hpart : (d.payload.extract 0 100).size ≤ Zstd.roomSize := by
    rw [ByteArray.size_extract, hsize]
    decide
  obtain ⟨hsaved, -, hcut, hversion⟩ :=
    saved_read_back Zstd.store fun d => Zstd.decompress_store (size_payload_le d)
  refine ⟨hsaved d, ?_, ?_⟩
  · exact hcut d 100 (by rw [hsize]; decide) _ (Zstd.decompress_store hpart)
  · refine hversion (DumpFormat.hart d.hart ++ DumpFormat.counters d.counters) d 2 ?_
      (by decide) _ ?_
    · exact (congrArg ofPayload (payload_eq d)).symm.trans (ofPayload_payload d)
    · rw [← payload_eq { d with version := 2 }]
      exact Zstd.decompress_store (size_payload_le _)

end StateDump

end RiscvMachine
