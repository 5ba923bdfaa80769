import RiscvMachine.Proofs.Hart.Invariants
import RiscvMachine.Proofs.Machine.BootState
import RiscvMachine.Proofs.Machine.History
import RiscvMachine.Proofs.Storage.Sequences

set_option autoImplicit false

/-! # Sessions

In a session the host boots a machine, runs it, uses its console and flushes its cache, in any
order, and goes on whatever fails (`Machine.acts`). None of this changes how the machine is put
together: its configuration, the policy of its hart, the shape of its cache and of its store
(`Machine.Remains`). Each action is shown to keep that, and by induction a session does
(`Machine.acts_remains`). What the units do is left open, but for keeping the bytes they are given.
-/

namespace RiscvMachine

/-! ## The bus -/

namespace Cache

variable {υ : Type} [StorageUnit υ] [LawfulUnit υ] {c : Cache υ} {width : Width} {addr : UInt32}

theorem readNumber_follows (hc : c.WellFormed)
    (hrange : c.geometry.Admits c.store.size addr width.bytes) :
    c.Follows (stateOf (readNumber width addr c)) := by
  have hfollows : c.Follows (c.attempt (.read addr width.bytes)) := attempt_follows hc hrange
  simp only [attempt, perform, readNumber, bind, EStateM.bind] at hfollows ⊢
  revert hfollows
  cases read addr width.bytes c <;> exact id

theorem writeNumber_follows (hc : c.WellFormed) (value : UInt32)
    (hrange : c.geometry.Admits c.store.size addr width.bytes) :
    c.Follows (stateOf (writeNumber width addr value c)) := by
  rw [← Bytes.size_littleEndian width.bytes value.toNat] at hrange
  have hfollows :
      c.Follows (c.attempt (.write addr (Bytes.littleEndian width.bytes value.toNat))) :=
    attempt_follows hc hrange
  simp only [attempt, perform, writeNumber, bind, EStateM.bind] at hfollows ⊢
  revert hfollows
  cases write addr (Bytes.littleEndian width.bytes value.toNat) c <;> exact id

theorem flush_follows (hc : c.WellFormed) : c.Follows (stateOf (flush c)) := by
  have hspec := flush_spec hc
  revert hspec
  cases flush c with
  | ok _ c' => exact fun hspec => hspec.of_ok.toFollows
  | error error c' => exact fun hspec => hspec.of_error.1.toFollows

end Cache

/-- RAM is as large as in `p`, and the cache and the store are of the same shape. -/
structure Platform.Remains {υ : Type} [StorageUnit υ] [LawfulUnit υ] (p p' : Platform υ) :
    Prop where
  ramSize : p'.ramSize = p.ramSize
  cache : p.cache.Follows p'.cache

namespace Platform

variable {υ : Type} [StorageUnit υ] [LawfulUnit υ] {p p' : Platform υ}

theorem Remains.trans {p'' : Platform υ} (h : p.Remains p') (h' : p'.Remains p'') :
    p.Remains p'' :=
  ⟨h'.ramSize.trans h.ramSize, h.cache.trans h'.cache⟩

/-- An aligned access to RAM is one that the cache serves. -/
theorem admits_ram (hc : p.cache.WellFormed) (hroom : p.ramSize.toNat ≤ p.cache.store.size)
    {width : Width} {addr offset : UInt32} (haligned : width.aligned addr)
    (hoffset : ramOffset? p.ramSize addr width = some offset) :
    p.cache.geometry.Admits p.cache.store.size offset width.bytes := by
  obtain ⟨hdvd, hin⟩ := ramOffset?_eq_some hoffset haligned
  exact hc.geometry.admits hdvd (hin.trans hroom)

theorem read_remains (hc : p.cache.WellFormed)
    (hroom : p.ramSize.toNat ≤ p.cache.store.size) {width : Width} {addr : UInt32}
    (haligned : width.aligned addr) : p.Remains (stateOf (Bus.read width addr p)) := by
  change p.Remains (stateOf (Platform.read width addr p))
  unfold Platform.read
  split
  · exact ⟨rfl, .refl hc⟩
  · simp only [bind, EStateM.bind, get, getThe, MonadStateOf.get, EStateM.get]
    cases hoffset : ramOffset? p.ramSize addr width with
    | none => exact ⟨rfl, .refl hc⟩
    | some offset =>
        have hfollows := Cache.readNumber_follows hc (admits_ram hc hroom haligned hoffset)
        simp only [onCache]
        revert hfollows
        cases Cache.readNumber width offset p.cache <;> exact fun hfollows => ⟨rfl, hfollows⟩

theorem write_remains (hc : p.cache.WellFormed)
    (hroom : p.ramSize.toNat ≤ p.cache.store.size) {width : Width} {addr : UInt32}
    (value : UInt32) (haligned : width.aligned addr) :
    p.Remains (stateOf (Bus.write width addr value p)) := by
  change p.Remains (stateOf (Platform.write width addr value p))
  unfold Platform.write
  split
  · exact ⟨rfl, .refl hc⟩
  · simp only [bind, EStateM.bind, get, getThe, MonadStateOf.get, EStateM.get]
    cases hoffset : ramOffset? p.ramSize addr width with
    | none => exact ⟨rfl, .refl hc⟩
    | some offset =>
        have hfollows := Cache.writeNumber_follows hc value (admits_ram hc hroom haligned hoffset)
        simp only [onCache]
        revert hfollows
        cases Cache.writeNumber width offset value p.cache <;>
          exact fun hfollows => ⟨rfl, hfollows⟩

/-- Printing a string reads bytes of RAM only. -/
theorem printString_follows {c : Cache υ} (hc : c.WellFormed) {ramSize : Nat}
    (hroom : ramSize ≤ c.store.size) (output : ByteArray) {n : Nat} {offset : UInt32}
    (hn : n ≤ ramSize - offset.toNat) :
    c.Follows (stateOf (DebugChannel.printString n offset (c, output))).1 := by
  induction n generalizing c output offset with
  | zero => exact .refl hc
  | succ n ih =>
      have hadmits : c.geometry.Admits c.store.size offset Width.byte.bytes :=
        hc.geometry.admits (Nat.one_dvd _) (show offset.toNat + 1 ≤ _ by omega)
      have hfollows := Cache.readNumber_follows hc hadmits
      simp only [DebugChannel.printString]
      revert hfollows
      cases Cache.readNumber .byte offset c with
      | error error c₁ => exact id
      | ok value c₁ =>
          intro hfollows
          simp only
          split
          · exact hfollows
          · have hnext : (offset + 1).toNat ≤ offset.toNat + 1 := by
              rw [UInt32.toNat_add, UInt32.toNat_one]
              exact Nat.mod_le _ _
            have hroom' := hroom.trans_eq hfollows.size.symm
            exact hfollows.trans (ih hfollows.wellFormed hroom' _ (by omega))

theorem writeCsr_remains (hc : p.cache.WellFormed)
    (hroom : p.ramSize.toNat ≤ p.cache.store.size) (number value : UInt32) :
    p.Remains (stateOf (Bus.writeCsr number value p)) := by
  obtain ⟨cache, ⟨keys, output⟩, ramSize⟩ := p
  have hfollows : cache.Follows
      (stateOf (DebugChannel.write ramSize number value (cache, output))).1 := by
    unfold DebugChannel.write
    split
    · exact .refl hc
    split
    · exact .refl hc
    split
    · exact printString_follows hc hroom output le_rfl
    split
    · exact .refl hc
    · exact .refl hc
  change Remains _ (stateOf (Platform.writeCsr number value ⟨cache, ⟨keys, output⟩, ramSize⟩))
  unfold Platform.writeCsr
  revert hfollows
  cases hwrite : DebugChannel.write ramSize number value (cache, output) with
  | ok _ state => exact fun hfollows => by simp only [hwrite]; exact ⟨rfl, hfollows⟩
  | error error state => exact fun hfollows => by simp only [hwrite]; exact ⟨rfl, hfollows⟩

end Platform

/-! ## Requests -/

namespace Machine

variable {υ : Type} [StorageUnit υ] [LawfulUnit υ]

/-- The machine is put together as `m` is. Nothing is said of what the cache and the store hold, of
the console, or of the state of the hart. -/
structure Remains (m m' : Machine υ) : Prop where
  config : m'.config = m.config
  hart : m.hart.Remains m'.hart
  platform : m.platform.Remains m'.platform

theorem Remains.refl {m : Machine υ} (hm : m.cache.WellFormed) : m.Remains m :=
  ⟨rfl, .refl _, rfl, .refl hm⟩

theorem Remains.trans {m m' m'' : Machine υ} (h : m.Remains m') (h' : m'.Remains m'') :
    m.Remains m'' :=
  ⟨h'.config.trans h.config, h.hart.trans h'.hart, h.platform.trans h'.platform⟩

theorem Remains.wellFormed {m m' : Machine υ} (h : m.Remains m') : m'.cache.WellFormed :=
  h.platform.cache.wellFormed

theorem Remains.ramSize_le {m m' : Machine υ} (h : m.Remains m')
    (hroom : m.platform.ramSize.toNat ≤ m.cache.store.size) :
    m'.platform.ramSize.toNat ≤ m'.cache.store.size := by
  rw [h.platform.ramSize, show m'.cache.store.size = _ from h.platform.cache.size]
  exact hroom

/-- Hart and platform are put together as those of `m`, whatever came before. -/
def Shapes (m : Machine υ) (_past : List (Core (Platform υ))) (c : Core (Platform υ)) : Prop :=
  m.hart.Remains c.hart ∧ m.platform.Remains c.bus

/-- Instructions and requests of the host leave hart and platform put together as they are. -/
theorem kept_shapes {m : Machine υ} (hroom : m.platform.ramSize.toNat ≤ m.cache.store.size) :
    Kept m.Shapes := by
  have hroom' {p : Platform υ} (hp : m.platform.Remains p) :
      p.ramSize.toNat ≤ p.cache.store.size := by
    rw [hp.ramSize, hp.cache.size]
    exact hroom
  have hinvariant : Core.Invariant (m.Shapes []) :=
    { hart := fun hremains h => ⟨h.1.trans hremains, h.2⟩
      read := fun haligned h =>
        ⟨h.1, h.2.trans (Platform.read_remains h.2.cache.wellFormed (hroom' h.2) haligned)⟩
      write := fun value haligned h =>
        ⟨h.1, h.2.trans (Platform.write_remains h.2.cache.wellFormed (hroom' h.2) value haligned)⟩
      readCsr := fun number h => ⟨h.1, h.2.trans ⟨rfl, .refl h.2.cache.wellFormed⟩⟩
      writeCsr := fun number value h =>
        ⟨h.1, h.2.trans (Platform.writeCsr_remains h.2.cache.wellFormed (hroom' h.2) _ _)⟩ }
  -- instructions, turns of the hart between them, and what the host does in between
  refine ⟨⟨fun h => hinvariant.after h, fun hturn h => ?_⟩, fun console h => ?_, fun h => ?_⟩
  · cases hturn <;> exact ⟨h.1.trans ⟨rfl, rfl⟩, h.2⟩
  · exact ⟨h.1, h.2.ramSize, h.2.cache⟩
  · exact ⟨h.1, h.2.trans ⟨rfl, Cache.flush_follows h.2.cache.wellFormed⟩⟩

omit [LawfulUnit υ] in
theorem serve_config (request : MachineRequest) (m : Machine υ) :
    (stateOf (serve request m)).config = m.config := by
  obtain ⟨config, hart, ⟨cache, ⟨keys, output⟩, ramSize⟩, tree⟩ := m
  cases request with
  | step limit elapsed =>
      simp only [serve, bind, EStateM.bind, step]
      cases Core.step limit elapsed (⟨hart, cache, ⟨keys, output⟩, ramSize⟩ : Core (Platform υ)) <;>
        rfl
  | flush =>
      simp only [serve, bind, EStateM.bind, flush, onMemory, onCache]
      cases Cache.flush cache <;> rfl
  | sendKey byte => rfl
  | takeOutput => rfl

theorem serve_remains {m : Machine υ} (hm : m.cache.WellFormed)
    (hroom : m.platform.ramSize.toNat ≤ m.cache.store.size) (request : MachineRequest) :
    m.Remains (stateOf (serve request m)) := by
  have hstart : m.Shapes [] m.core := ⟨.refl _, rfl, .refl hm⟩
  obtain ⟨hhart, hplatform⟩ := (serve_along (kept_shapes hroom) request hstart).2
  exact ⟨serve_config request m, hhart, hplatform⟩

/-! ## Boots -/

/-- What is kept by all that a boot does to the machine. -/
structure Bootable {υ : Type} [StorageUnit υ] (P : Machine υ → Prop) : Prop where
  invalidate {m : Machine υ} : P m → P (m.mapCache Cache.invalidate)
  place {m : Machine υ} (offset : UInt32) (bytes : ByteArray) : P m →
    P (stateOf (Machine.place offset bytes m))
  start {m : Machine υ} (deviceTree : UInt32) : P m → P (m.onHart (Hart.boot · deviceTree))
  resetCounters {m : Machine υ} : P m → P m.resetCounters

namespace Bootable

variable {υ : Type} [StorageUnit υ] {P : Machine υ → Prop} (hP : Bootable P)

include hP

theorem loadChunks {decoders : Decoders} {m : Machine υ} (hm : P m) (fuel length : Nat)
    (stream : ImageStream decoders) :
    P (stateOf (Machine.loadChunks fuel length stream m)) := by
  -- a chunk that cannot be placed ends the load, but has been tried
  induction fuel generalizing m length stream with
  | zero => exact hm
  | succ fuel ih =>
      unfold Machine.loadChunks
      cases ImageStream.readChunk m.config.imageChunkSize.toNat stream with
      | error failure stream' => exact hm
      | ok bytes stream' =>
          simp only
          split
          · exact hm
          split
          · exact hm
          have hplace := hP.place (UInt32.ofNat length) bytes hm
          revert hplace
          cases Machine.place (UInt32.ofNat length) bytes m with
          | error error m₁ => exact id
          | ok _ m₁ => exact fun hplace => ih hplace _ _

theorem loadImage {m : Machine υ} (hm : P m) (decoders : Decoders) (source : InputSource) :
    P (stateOf (Machine.loadImage decoders source m)) := by
  unfold Machine.loadImage
  cases ImageStream.ofSource? decoders source with
  | none => exact hm
  | some stream =>
      cases Checked.allocate m.config.imageChunkSize.toNat 1 with
      | error why => exact hm
      | ok _ => exact hP.loadChunks hm _ _ _

theorem placeDeviceTree {m : Machine υ} (hm : P m) (imageLength : Nat) :
    P (stateOf (Machine.placeDeviceTree imageLength m)) := by
  unfold Machine.placeDeviceTree
  cases m.deviceTree.placement m.config.ramSize with
  | error error => exact hm
  | ok offset =>
      simp only
      split
      · exact hm
      cases m.deviceTree.withRamSize offset with
      | error why => exact hm
      | ok tree =>
          have hplace := hP.place offset tree.blob hm
          revert hplace
          cases hplaced : Machine.place offset tree.blob m with
          | error error m₁ =>
              simp only [hplaced]
              exact id
          | ok _ m₁ =>
              simp only [hplaced]
              exact id

/-- It is kept by a boot, also if that fails half way. -/
theorem boot {m : Machine υ} (hm : P m) (source : InputSource) :
    P (stateOf (Machine.boot source m)) := by
  have hload := hP.loadImage (hP.invalidate hm) .standard source
  rw [Machine.boot, bootWith_eq]
  revert hload
  cases Machine.loadImage .standard source (m.mapCache Cache.invalidate) with
  | error error m₁ => exact id
  | ok length m₁ =>
      intro (hload : P m₁)
      have hplace := hP.placeDeviceTree hload length
      simp only
      revert hplace
      cases Machine.placeDeviceTree length m₁ with
      | error error m₂ => exact id
      | ok offset m₂ => exact fun hplace => hP.resetCounters (hP.start _ hplace)

end Bootable

/-- A store of the same shape in the place of the old one. -/
theorem remains_withStore {m : Machine υ} (hm : m.cache.WellFormed) {s : Store υ}
    (hs : m.cache.store.Follows s) : m.Remains (m.withStore s) :=
  ⟨rfl, .refl _, rfl, .of_store hm rfl rfl hs⟩

omit [LawfulUnit υ] in
theorem stateOf_place (offset : UInt32) (bytes : ByteArray) (m : Machine υ) :
    stateOf (place offset bytes m) =
      m.withStore (m.cache.store.attempt (.write offset bytes)) := by
  simp only [place, onMemory, onCache, Cache.onStore, Store.attempt, Machine.cache]
  cases Store.write offset bytes m.platform.cache.store <;> rfl

theorem place_remains {m : Machine υ} (hm : m.cache.WellFormed) (offset : UInt32)
    (bytes : ByteArray) : m.Remains (stateOf (place offset bytes m)) := by
  rw [stateOf_place]
  exact remains_withStore hm (Store.attempt_follows hm.store _)

theorem remains_resetCounters {m : Machine υ} (hm : m.cache.WellFormed) :
    m.Remains m.resetCounters := by
  have hcache := (Cache.keeps_resetCounters hm).toFollows
  exact ⟨rfl, .refl _, rfl,
    hcache.trans (.of_store hcache.wellFormed rfl rfl (Store.follows_count hm.store 0 0))⟩

/-- A boot leaves the machine put together as it was, also if it fails half way. -/
theorem boot_remains {m : Machine υ} (hm : m.cache.WellFormed) (source : InputSource) :
    m.Remains (stateOf (boot source m)) := by
  have hbootable : Bootable m.Remains :=
    { invalidate := fun h =>
        h.trans ⟨rfl, .refl _, rfl, (Cache.invalidate_spec h.wellFormed).1⟩
      place := fun offset bytes h => h.trans (place_remains h.wellFormed offset bytes)
      start := fun deviceTree h => h.trans ⟨rfl, ⟨rfl, rfl⟩, rfl, .refl h.wellFormed⟩
      resetCounters := fun h => h.trans (remains_resetCounters h.wellFormed) }
  exact hbootable.boot (.refl hm) source

/-! ## Whole sessions -/

end Machine

/-- What the host does with a machine in a session. -/
inductive SessionAction
  | boot (source : InputSource)
  | serve (request : MachineRequest)
  /-- Cycles pass while the guest waits. -/
  | await (cycles : UInt64)
  | useDeviceTree (tree : DeviceTree)
  | resetCounters

namespace Machine

variable {υ : Type} [StorageUnit υ]

/-- The machine after an action, whether or not it succeeds. -/
def act (m : Machine υ) : SessionAction → Machine υ
  | .boot source => stateOf (boot source m)
  | .serve request => stateOf (serve request m)
  | .await cycles => m.onHart fun h => { h with csr := h.csr.advanceCycles cycles }
  | .useDeviceTree tree => m.withDeviceTree tree
  | .resetCounters => m.resetCounters

/-- The machine after a session, whatever fails in it. -/
def acts (m : Machine υ) (session : List SessionAction) : Machine υ :=
  session.foldl act m

variable [LawfulUnit υ]

theorem act_remains {m : Machine υ} (hm : m.cache.WellFormed)
    (hroom : m.platform.ramSize.toNat ≤ m.cache.store.size) (action : SessionAction) :
    m.Remains (m.act action) := by
  cases action with
  | boot source => exact boot_remains hm source
  | serve request => exact serve_remains hm hroom request
  | await cycles => exact ⟨rfl, ⟨rfl, rfl⟩, rfl, .refl hm⟩
  | useDeviceTree tree => exact ⟨rfl, .refl _, rfl, .refl hm⟩
  | resetCounters => exact remains_resetCounters hm

/-- A session leaves the machine put together as it was. -/
theorem acts_remains {m : Machine υ} (hm : m.cache.WellFormed)
    (hroom : m.platform.ramSize.toNat ≤ m.cache.store.size) (session : List SessionAction) :
    m.Remains (m.acts session) := by
  induction session generalizing m with
  | nil => exact .refl hm
  | cons action rest ih =>
      have hfirst := act_remains hm hroom action
      exact hfirst.trans (ih hfirst.wellFormed (hfirst.ramSize_le hroom))

end Machine

end RiscvMachine
