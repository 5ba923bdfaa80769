import RiscvMachine.Proofs.Machine.Boot
import RiscvMachine.Proofs.Machine.Build
import RiscvMachine.Proofs.Machine.Bus

set_option autoImplicit false

/-! # The machine refines the flat machine

A machine that shows the flat machine (`Machine.Shows`: the same hart, the same console, and a
cache that shows the bytes of RAM) serves every request as the flat machine does and looks the
same afterwards (`serve_simulates`, `observe_eq`). By induction over the requests it does so over
whole runs (`observeAll_simulates`).

A boot of a machine that has just been built leaves such a state (`shows_of_boot`), whatever its
cache and its units are like.
-/

namespace RiscvMachine

/-! ## Runs -/

section

variable {σ τ : Type} {R : σ → τ → Prop} {E : MachineError → Prop}

/-- Machines that serve every request alike, and look alike whenever they are related, are
observed alike over every run. -/
theorem observeAll_simulates {serve : MachineRequest → EStateM MachineError σ MachineAnswer}
    {serve' : MachineRequest → EStateM MachineError τ MachineAnswer}
    {observe : σ → MachineAnswer → Observation} {observe' : τ → MachineAnswer → Observation}
    (hserve : ∀ request, Simulates E R (serve request) (serve' request))
    (hobserve : ∀ s t answer, R s t → observe s answer = observe' t answer)
    (requests : List MachineRequest) :
    Simulates E R (observeAll serve observe requests) (observeAll serve' observe' requests) := by
  induction requests with
  | nil => exact .pure []
  | cons request rest ih =>
      unfold observeAll
      refine (hserve request).bind fun answer => ?_
      intro s t hst
      have hlook := hobserve s t answer hst
      exact (ih.bind fun observations => show Simulates E R
          (pure (observe s answer :: observations)) (pure (observe' t answer :: observations)) by
        rw [hlook]
        exact .pure _) s t hst

end

/-! ## Requests -/

theorem Bus.byteSeen_eq_answer? {σ : Type} [Bus σ] (bus : σ) (addr : UInt32) :
    byteSeen bus addr = answer? (Bus.read .byte addr bus) := by
  unfold byteSeen
  cases Bus.read .byte addr bus <;> rfl

/-- Buses that answer alike show the same byte at every address. -/
theorem BusSimulation.byteSeen_eq {σ τ : Type} [Bus σ] [Bus τ] {E : BusFault → Prop}
    {R : σ → τ → Prop} (hR : BusSimulation E R) {s : σ} {t : τ} (h : R s t) (addr : UInt32) :
    Bus.byteSeen s addr = Bus.byteSeen t addr := by
  rw [Bus.byteSeen_eq_answer?, Bus.byteSeen_eq_answer?]
  exact (hR.read (Width.aligned_byte addr) s t h).answer?_eq

namespace Machine

variable {υ : Type} [StorageUnit υ] [ReliableUnit υ]

/-- The machine cannot be told from the flat machine through its bus. -/
def Shows (m : Machine υ) (r : FlatMachine) : Prop :=
  Exec.Related Platform.Shows ⟨m.hart, m.platform⟩ r

theorem step_simulates (limit : UInt32) (elapsed : UInt64) :
    Simulates (fun _ => False) (Shows (υ := υ)) (step limit elapsed)
      (FlatMachine.step limit elapsed) := by
  rintro ⟨config, hart, platform, tree⟩ r h
  have hcore := Core.step_simulates Platform.busSimulation limit elapsed ⟨hart, platform⟩ r h
  unfold step FlatMachine.step
  simp only
  revert hcore
  cases Core.step limit elapsed (⟨hart, platform⟩ : Core (Platform υ)) with
  | ok outcome core =>
      cases Core.step limit elapsed r with
      | ok outcome' r' => exact id
      | error error' r' => exact False.elim
  | error error core =>
      cases Core.step limit elapsed r with
      | ok outcome' r' => exact False.elim
      | error error' r' =>
          -- the only fault of the bus is one that the guest sees as a trap
          rintro ⟨-, hunmapped, -⟩
          cases hunmapped

theorem flush_simulates :
    Simulates (fun _ => False) (Shows (υ := υ)) flush (pure ()) := by
  rintro ⟨config, hart, ⟨cache, console, ramSize⟩, tree⟩ r ⟨hhart, hcache, hsize, hconsole, hram⟩
  obtain ⟨cache', hflush, hcache'⟩ := hcache.flush
  have hok : flush ⟨config, hart, ⟨cache, console, ramSize⟩, tree⟩ =
      .ok () ⟨config, hart, ⟨cache', console, ramSize⟩, tree⟩ := by
    have hflush' : Cache.flush cache = .ok () cache' := hflush
    simp only [flush, onMemory, onCache, hflush']
  rw [hok]
  exact ⟨rfl, hhart, hcache', hsize, hconsole, hram⟩

theorem serve_simulates (request : MachineRequest) :
    Simulates (fun _ => False) (Shows (υ := υ)) (serve request) (FlatMachine.serve request) := by
  cases request with
  | step limit elapsed => exact (step_simulates limit elapsed).bind fun _ => .pure _
  | flush => exact flush_simulates.bind fun _ => .pure _
  | sendKey byte =>
      rintro ⟨config, hart, ⟨cache, ⟨keys, output⟩, ramSize⟩, tree⟩ ⟨_, ⟨ram, _, _⟩⟩
        ⟨rfl, hcache, hsize, rfl, rfl⟩
      exact ⟨rfl, rfl, hcache, hsize, rfl, rfl⟩
  | takeOutput =>
      rintro ⟨config, hart, ⟨cache, ⟨keys, output⟩, ramSize⟩, tree⟩ ⟨_, ⟨ram, _, _⟩⟩
        ⟨rfl, hcache, hsize, rfl, rfl⟩
      exact ⟨rfl, rfl, hcache, hsize, rfl, rfl⟩

/-- Machines that cannot be told apart look the same. -/
theorem observe_eq {m : Machine υ} {r : FlatMachine} (h : m.Shows r) (answer : MachineAnswer) :
    m.observe answer = r.observe answer := by
  obtain ⟨hhart, hbus⟩ := h
  have hseen : Bus.byteSeen m.platform = Bus.byteSeen r.bus := by
    funext addr
    exact Platform.busSimulation.byteSeen_eq hbus addr
  rw [observe, FlatMachine.observe, hseen]
  exact congrArg₂ (Observation.mk answer · · _) hhart hbus.console

/-! ## Boots -/

section

variable {config : Config} (h : config.Accepted) (hmemory : config.InMemory)
  {cache : Cache Medium} (hnew : Cache.new config.cache (.ofMemory config.backing) = .ok cache)

include h hmemory hnew

/-- A boot of a new machine leaves one that shows the flat machine of the plan. -/
theorem shows_of_boot {tree : DeviceTree} {source : InputSource} {plan : BootPlan}
    (hplan : (new config cache tree).setup.plan? source = some plan)
    {m : Machine Medium} (hm : (new config cache tree).BootedBy plan m) :
    m.Shows (FlatMachine.start (new config cache tree).setup plan) := by
  obtain ⟨himage, htree⟩ := GuestSetup.plan?_fits hplan
  obtain ⟨-, hcapacity, hzero⟩ := new_spec h hmemory hnew
  have hsize : (plan.ram config.ramSize).size = config.ramSize.toNat := by
    have htree' : plan.offset.toNat + plan.tree.size ≤ config.ramSize.toNat := htree
    rw [BootPlan.ram, Bytes.size_overlay, Bytes.size_overlay, Bytes.size_zeros]
    omega
  refine ⟨hm.hart, ⟨hm.coherent, ?_, ?_⟩, hsize, hm.console, hm.ramSize⟩
  · exact hsize.trans_le (hcapacity.trans_eq hm.cache.size.symm)
  · intro a ha
    -- both start from zeros and take the same two writes
    show m.cache.contents a = _
    rw [hm.contents]
    apply Memory.write_eq_byteAt_overlay
    apply Memory.write_eq_byteAt_overlay
    rw [Bytes.byteAt_zeros]
    exact hzero a

/-- A new machine boots as the flat machine does, or neither boots. -/
theorem boot_of_new (tree : DeviceTree) (source : InputSource)
    (hchunk : config.imageChunkSize.toNat < 2 ^ 63) :
    match boot source (new config cache tree) with
    | .ok info m => ∃ r, FlatMachine.boot (new config cache tree).setup source = some (info, r) ∧
      m.Shows r
    | .error _ _ => FlatMachine.boot (new config cache tree).setup source = none := by
  obtain ⟨hwellFormed, hcapacity, -⟩ := new_spec h hmemory hnew
  have hboot := boot_spec (m := new config cache tree) hwellFormed hcapacity hchunk source
  revert hboot
  unfold FlatMachine.boot
  cases boot source (new config cache tree) with
  | ok info m =>
      rintro ⟨plan, hplan, rfl, hm⟩
      rw [hplan]
      exact ⟨_, rfl, shows_of_boot h hmemory hnew hplan hm⟩
  | error error m =>
      intro hplan
      have hnone : (new config cache tree).setup.plan? source = none := hplan
      rw [hnone]
      rfl

end

/-- Over every run the machine is observed as the flat machine that it shows. -/
theorem Shows.observeAll {m : Machine υ} {r : FlatMachine} (h : m.Shows r)
    (requests : List MachineRequest) :
    ∃ observations m' r', Machine.observeAll requests m = .ok observations m' ∧
      FlatMachine.observeAll requests r = .ok observations r' := by
  have hruns := observeAll_simulates (serve_simulates (υ := υ))
    (fun _ _ answer hshows => observe_eq hshows answer) requests
  obtain ⟨observations, m', r', hm, hr, -⟩ := hruns.succeeds h
  exact ⟨observations, m', r', hm, hr⟩

/-- A booted machine over units in host memory is observed as the flat machine over every run of
requests, none of which fails. With any other cache and any other units in their place a machine
boots as well and is observed alike, unless there is no memory to build it. -/
theorem boot_refines_flat {config : Config} (hmemory : config.InMemory)
    {file : Option ByteArray} {dir? dir?' : Option UnitDirectory} {fresh m : Machine Medium}
    (hbuild : build config file dir? = .ok fresh dir?') {source : InputSource} {info : BootInfo}
    (hboot : boot source fresh = .ok info m) :
    (∃ r, FlatMachine.boot fresh.setup source = some (info, r) ∧
      ∀ requests, ∃ observations m' r', observeAll requests m = .ok observations m' ∧
        FlatMachine.observeAll requests r = .ok observations r') ∧
    ∀ (cache : CacheGeometry) (backing : BackingConfig),
      let other : Config := { config with cache := cache, backing := backing }
      other.validate = .ok () → other.InMemory →
      match build other file dir? with
      | .ok fresh₂ _ => ∃ m₂, boot source fresh₂ = .ok info m₂ ∧
        ∀ requests, ∃ observations m' m₂', observeAll requests m = .ok observations m' ∧
          observeAll requests m₂ = .ok observations m₂'
      | .error error _ => ¬ other.Fits ∧ ∃ why, error = .storage (.panic why) := by
  obtain ⟨made, tree, h, hnew, htree, rfl⟩ := of_build_memory hmemory.kind hbuild
  have hchunk : config.imageChunkSize.toNat < 2 ^ 63 := chunk_lt_of_boot hboot
  have hflat := boot_of_new h hmemory hnew tree source hchunk
  rw [hboot] at hflat
  obtain ⟨r, hr, hshows⟩ := hflat
  refine ⟨⟨r, hr, hshows.observeAll⟩, ?_⟩
  intro cache backing other hvalid hmemory₂
  have h₂ : other.Accepted := (Config.validate_eq_ok_iff other).mp hvalid
  have htree₂ : chooseDeviceTree other file = .ok tree := htree
  rcases build_or_panics h₂ hmemory₂.kind htree₂ dir? with
    ⟨made₂, hnew₂, hbuild₂⟩ | ⟨hfits, why, hpanic⟩
  · rw [hbuild₂]
    have hflat₂ := boot_of_new h₂ hmemory₂ hnew₂ tree source hchunk
    -- the setup of the other machine is the same, so the flat machine is
    have hr₂ : FlatMachine.boot (new other made₂ tree).setup source = some (info, r) := hr
    revert hflat₂
    cases hboot₂ : boot source (new other made₂ tree) with
    | error error m₂ =>
        intro hnone
        rw [hr₂] at hnone
        cases hnone
    | ok info₂ m₂ =>
        rintro ⟨r₂, hsome, hshows₂⟩
        rw [hr₂] at hsome
        cases hsome
        refine ⟨m₂, hboot₂, ?_⟩
        intro requests
        obtain ⟨observations, m', r', hm', hr'⟩ := hshows.observeAll requests
        obtain ⟨observations₂, m₂', r₂', hm₂', hr₂'⟩ := hshows₂.observeAll requests
        rw [hr'] at hr₂'
        cases hr₂'
        exact ⟨observations, m', m₂', hm', hm₂'⟩
  · rw [hpanic]
    exact ⟨hfits, why, rfl⟩

/-- Five units of seven bytes under two lines of four, which straddle the units. The guest stores
a word and waits for an interrupt. -/
theorem boot_refines_flat_straddling :
    let config : Config :=
      { ramSize := 32
        backing := { unitCount := 5, unitCapacity := 7 }
        cache := { lineSize := 4, lineCount := 2 }
        deviceTree := some { path := "tree", ramSizeOffset := 0 } }
    let tree : DeviceTree := ⟨⟨#[0, 0, 0, 0, 1, 2, 3, 4]⟩, 0⟩
    let source : InputSource :=
      .ofBytes ⟨#[0x23, 0xA0, 0xB5, 0x00, 0x73, 0x00, 0x50, 0x10]⟩
    ∃ fresh m info r, build config (some tree.blob) none = .ok fresh none ∧
      boot source fresh = .ok info m ∧ FlatMachine.boot fresh.setup source = some (info, r) ∧
      ∃ observations m' r',
        observeAll [.step 2 10, .sendKey 65, .flush, .takeOutput] m = .ok observations m' ∧
        FlatMachine.observeAll [.step 2 10, .sendKey 65, .flush, .takeOutput] r
          = .ok observations r' := by
  intro config tree source
  have hmemory : config.InMemory := ⟨rfl, by decide⟩
  have h : config.Accepted :=
    ⟨by decide, by decide, by decide, by decide, by decide, by decide, ⟨2, rfl⟩, ⟨1, rfl⟩,
      by decide, by decide, by decide⟩
  have htree : chooseDeviceTree config (some tree.blob) = .ok tree := rfl
  have hnew : Cache.new config.cache (.ofMemory config.backing) =
      .ok (.empty config.cache (.ofMemory config.backing)) :=
    cache_of_accepted h (by decide) (by decide) _
  have hbuild : build config (some tree.blob) none =
      .ok (new config (.empty config.cache (.ofMemory config.backing)) tree) none := by
    rw [build_eq h hmemory.kind (by decide) hnew, htree]
  have hok : (match boot source
        (new config (.empty config.cache (.ofMemory config.backing)) tree) with
      | .ok _ _ => true
      | .error _ _ => false) = true := by decide +kernel
  cases hboot : boot source
      (new config (.empty config.cache (.ofMemory config.backing)) tree) with
  | error error m =>
      rw [hboot] at hok
      cases hok
  | ok info m =>
      obtain ⟨⟨r, hr, hruns⟩, -⟩ := boot_refines_flat hmemory hbuild hboot
      exact ⟨_, m, info, r, hbuild, hboot, hr, hruns _⟩

end Machine

end RiscvMachine
