import RiscvMachine.Proofs.Cache.Bounds
import RiscvMachine.Proofs.Cache.Runs
import RiscvMachine.Proofs.Storage.Requests

set_option autoImplicit false

/-! # What the cache counts

The counters as functions of what has been asked for, without lines or dirty marks. Of the requests
so far, the latest first, one reads off which block is in a slot (`CacheRequest.latest?`) and
whether it has been written since it came there or was last flushed (`CacheRequest.unsaved`). That
tells which accesses hit (`CacheRequest.hits`) and which blocks go to the store
(`CacheRequest.writeBacks`).

The lines of the cache hold just what the past says, and the counters count it (`Cache.Tallies`). A
request keeps that (`perform_tallies`), and so does a run (`performAll_tallies`). The units may be
any and may fail; a run that fails does so with an error of a unit.
-/

namespace RiscvMachine

/-- The number of the block of an address. -/
def CacheGeometry.blockAt (g : CacheGeometry) (addr : UInt32) : Nat :=
  addr.toNat / g.lineSize.toNat

def CacheGeometry.slot (g : CacheGeometry) (block : Nat) : Nat :=
  block % g.lineCount.toNat

namespace CacheRequest

/-! ## Reading the past -/

def isAccess : CacheRequest → Bool
  | read _ _ | write _ _ => true
  | flush | invalidate | resetCounters => false

def empties : CacheRequest → Bool
  | invalidate => true
  | read _ _ | write _ _ | flush | resetCounters => false

section

variable (g : CacheGeometry)

def block? : CacheRequest → Option Nat
  | read addr _ | write addr _ => some (g.blockAt addr)
  | flush | invalidate | resetCounters => none

def written? : CacheRequest → Option Nat
  | write addr _ => some (g.blockAt addr)
  | read _ _ | flush | invalidate | resetCounters => none

/-- The block accessed latest in a slot since the cache was emptied. -/
def latest? (past : List CacheRequest) (slot : Nat) : Option Nat :=
  (past.takeWhile (!·.empties)).findSome? fun request =>
    (request.block? g).filter (g.slot · = slot)

/-- Whether a block that is in its slot stays there, as unsaved as it is. A flush saves it, emptying
the cache drops it, and an access to another block of the slot puts that in its place. -/
def passesBy (block : Nat) : CacheRequest → Bool
  | read addr _ | write addr _ =>
    g.blockAt addr = block ∨ g.slot (g.blockAt addr) ≠ g.slot block
  | flush | invalidate => false
  | resetCounters => true

/-- Whether a block has been written since it came to its slot or was last flushed. -/
def unsaved (past : List CacheRequest) (block : Nat) : Bool :=
  (past.takeWhile (passesBy g block)).any fun request => request.written? g = some block

/-- The block accessed, if it is the one accessed latest in its slot. -/
def hit? (past : List CacheRequest) (request : CacheRequest) : Option Nat :=
  (request.block? g).filter fun block => latest? g past (g.slot block) = some block

/-- The block that gives its slot to the one accessed. -/
def replaced? (past : List CacheRequest) (request : CacheRequest) : Option Nat :=
  (request.block? g).bind fun block => (latest? g past (g.slot block)).filter (· ≠ block)

/-- The blocks that a request brings to the store: those that it replaces or flushes, as far as
they are unsaved. -/
def saves (past : List CacheRequest) (request : CacheRequest) : List Nat :=
  match request with
  | flush => (past.filterMap (written? g)).dedup.filter (unsaved g past)
  | _ => (request.replaced? g past).toList.filter (unsaved g past)

/-- The blocks of all accesses that hit, the latest first. -/
def hits : List CacheRequest → List Nat
  | [] => []
  | request :: past => (request.hit? g past).toList ++ hits past

def writeBacks : List CacheRequest → List Nat
  | [] => []
  | request :: past => request.saves g past ++ writeBacks past

/-- The request does not take a block out of its slot: it does not empty the cache, and accesses no
other block of the slot. -/
def Retains (block : Nat) (request : CacheRequest) : Prop :=
  request ≠ invalidate ∧
    ∀ other, request.block? g = some other → g.slot other = g.slot block → other = block

/-- The block in a slot, and whether it is unsaved. -/
def occupant? (past : List CacheRequest) (slot : Nat) : Option (Nat × Bool) :=
  (latest? g past slot).map fun block => (block, unsaved g past block)

end

section

variable {g : CacheGeometry} {past : List CacheRequest} {request : CacheRequest} {slot block : Nat}

theorem latest?_access (h : request.block? g = some block) (past : List CacheRequest)
    (slot : Nat) :
    latest? g (request :: past) slot =
      if g.slot block = slot then some block else latest? g past slot := by
  have hkept : request.empties = false := by
    cases request with
    | invalidate => cases h
    | _ => rfl
  simp only [latest?, List.takeWhile_cons, hkept, Bool.not_false, if_true, List.findSome?_cons, h,
    Option.filter_some, decide_eq_true_eq]
  by_cases hslot : g.slot block = slot
  · rw [if_pos hslot, if_pos hslot]
  · rw [if_neg hslot, if_neg hslot]

theorem latest?_flush (past : List CacheRequest) (slot : Nat) :
    latest? g (flush :: past) slot = latest? g past slot := rfl

theorem slot_of_latest? (h : latest? g past slot = some block) : g.slot block = slot := by
  obtain ⟨request, -, hrequest⟩ := List.exists_of_findSome?_eq_some h
  exact of_decide_eq_true (Option.filter_eq_some_iff.mp hrequest).2

theorem unsaved_cons (request : CacheRequest) (past : List CacheRequest) (block : Nat) :
    unsaved g (request :: past) block =
      (passesBy g block request && (decide (request.written? g = some block) ||
        unsaved g past block)) := by
  rw [unsaved, List.takeWhile_cons]
  cases passesBy g block request <;> rfl

theorem passesBy_access {other : Nat} (h : request.block? g = some other) (block : Nat) :
    passesBy g block request = true ↔ other = block ∨ g.slot other ≠ g.slot block := by
  cases request with
  | read addr length | write addr data =>
      cases h
      exact decide_eq_true_iff
  | flush | invalidate | resetCounters => cases h

/-- Only what is accessed is written. -/
theorem block?_of_written? (h : request.written? g = some block) :
    request.block? g = some block := by
  cases request with
  | write addr data => exact h
  | read addr length | flush | invalidate | resetCounters => cases h

/-- A block that is unsaved is the one in its slot. -/
theorem latest?_of_unsaved (h : unsaved g past block = true) :
    latest? g past (g.slot block) = some block := by
  induction past with
  | nil => cases h
  | cons request past ih =>
      rw [unsaved_cons, Bool.and_eq_true, Bool.or_eq_true, decide_eq_true_eq] at h
      obtain ⟨hpasses, hwritten⟩ := h
      -- a request that the block outlasts either accesses it or leaves its slot alone
      cases hother : request.block? g with
      | some other =>
          rw [latest?_access hother]
          split
          · rename_i hslot
            rw [((passesBy_access hother block).mp hpasses).resolve_right fun h => h hslot]
          · rename_i hslot
            refine ih (hwritten.resolve_left fun h => hslot ?_)
            rw [block?_of_written? h] at hother
            cases hother
            rfl
      | none =>
          have hold := hwritten.resolve_left fun h => by
            rw [block?_of_written? h] at hother
            cases hother
          cases request with
          | resetCounters => exact ih hold
          | flush | invalidate => cases hpasses
          | read addr length | write addr data => cases hother

/-! ### What a request makes of the slots -/

/-- An access does not matter to the other slots. -/
theorem occupant?_access_of_ne (h : request.block? g = some block) (past : List CacheRequest)
    (hslot : g.slot block ≠ slot) : occupant? g (request :: past) slot = occupant? g past slot := by
  rw [occupant?, occupant?, latest?_access h, if_neg hslot]
  cases hlatest : latest? g past slot with
  | none => rfl
  | some other =>
      have hother : g.slot block ≠ g.slot other := by rwa [slot_of_latest? hlatest]
      have hpasses : passesBy g other request = true := (passesBy_access h other).mpr (.inr hother)
      have hwritten : request.written? g ≠ some other := by
        intro hwritten
        rw [block?_of_written? hwritten] at h
        cases h
        exact hother rfl
      rw [Option.map_some, Option.map_some, unsaved_cons, hpasses, decide_eq_false hwritten,
        Bool.true_and, Bool.false_or]

/-- A block that is read comes to its slot, or stays there as it is. -/
theorem occupant?_read (addr : UInt32) (length : Nat) (past : List CacheRequest)
    (h : (read addr length).block? g = some block) :
    occupant? g (read addr length :: past) (g.slot block) = some (block, unsaved g past block) := by
  have hpasses := (passesBy_access h block).mpr (.inl rfl)
  rw [occupant?, latest?_access h, if_pos rfl, Option.map_some, unsaved_cons, hpasses, written?,
    decide_eq_false nofun, Bool.true_and, Bool.false_or]

theorem occupant?_write (addr : UInt32) (data : ByteArray) (past : List CacheRequest)
    (h : (write addr data).block? g = some block) :
    occupant? g (write addr data :: past) (g.slot block) = some (block, true) := by
  have hpasses := (passesBy_access h block).mpr (.inl rfl)
  rw [occupant?, latest?_access h, if_pos rfl, Option.map_some, unsaved_cons, hpasses,
    decide_eq_true (show (write addr data).written? g = some block from h), Bool.true_or,
    Bool.true_and]

theorem occupant?_flush (past : List CacheRequest) (slot : Nat) :
    occupant? g (flush :: past) slot =
      (occupant? g past slot).map fun occupant => (occupant.1, false) := by
  rw [occupant?, occupant?, latest?_flush, Option.map_map]
  rfl

theorem occupant?_invalidate (past : List CacheRequest) (slot : Nat) :
    occupant? g (invalidate :: past) slot = none := rfl

theorem occupant?_of_latest? (h : latest? g past slot = some block) :
    occupant? g past slot = some (block, unsaved g past block) := by
  rw [occupant?, h, Option.map_some]

/-! ### What a request counts -/

/-- Whether a slot has a block that is unsaved. -/
def unsavedIn (g : CacheGeometry) (past : List CacheRequest) (slot : Nat) : Bool :=
  (occupant? g past slot).any Prod.snd

theorem unsavedIn_iff : unsavedIn g past slot = true ↔
    ∃ block, latest? g past slot = some block ∧ unsaved g past block = true := by
  simp only [unsavedIn, occupant?, Option.any_map]
  cases latest? g past slot <;> simp

theorem hit?_of_latest? (h : request.block? g = some block)
    (hlatest : latest? g past (g.slot block) = some block) :
    request.hit? g past = some block := by
  rw [hit?, h, Option.filter_some, if_pos (decide_eq_true hlatest)]

theorem hit?_of_ne (h : request.block? g = some block)
    (hlatest : latest? g past (g.slot block) ≠ some block) : request.hit? g past = none := by
  rw [hit?, h, Option.filter_some, if_neg]
  simpa using hlatest

theorem saves_access (h : request.block? g = some block) :
    request.saves g past = (request.replaced? g past).toList.filter (unsaved g past) := by
  cases request with
  | flush => cases h
  | _ => rfl

theorem length_hits_le (past : List CacheRequest) :
    (hits g past).length ≤ past.countP isAccess := by
  induction past with
  | nil => exact Nat.le_refl 0
  | cons request past ih =>
      rw [hits, List.length_append, List.countP_cons, Nat.add_comm]
      refine Nat.add_le_add ih ?_
      cases request with
      | read addr length | write addr data => exact Option.length_toList_le
      | flush | invalidate | resetCounters => exact Nat.le_refl 0

/-- A hit brings nothing to the store. -/
theorem saves_of_latest? (h : request.block? g = some block)
    (hlatest : latest? g past (g.slot block) = some block) : request.saves g past = [] := by
  rw [saves_access h, replaced?, h, Option.bind_some, hlatest, Option.filter_some, if_neg]
  · rfl
  · simp

/-- A miss brings to the store what was unsaved in the slot. -/
theorem length_saves_of_ne (h : request.block? g = some block)
    (hlatest : latest? g past (g.slot block) ≠ some block) :
    (request.saves g past).length = (unsavedIn g past (g.slot block)).toNat := by
  rw [saves_access h, replaced?, h, Option.bind_some, unsavedIn, occupant?]
  cases hold : latest? g past (g.slot block) with
  | none => rfl
  | some old =>
      have hne : old ≠ block := by
        rintro rfl
        exact hlatest hold
      rw [Option.filter_some, if_pos (decide_eq_true hne)]
      cases hunsaved : unsaved g past old <;> simp [hunsaved]

/-- What is unsaved has been written. -/
theorem mem_written_of_unsaved (h : unsaved g past block = true) :
    block ∈ past.filterMap (written? g) := by
  obtain ⟨request, hmem, hwritten⟩ := List.any_eq_true.mp h
  exact List.mem_filterMap.mpr
    ⟨request, List.takeWhile_subset _ hmem, of_decide_eq_true hwritten⟩

/-- A flush brings to the store what is unsaved in the slots. -/
theorem length_saves_flush (hpos : 0 < g.lineCount.toNat) :
    (flush.saves g past).length =
      (List.range g.lineCount.toNat).countP (unsavedIn g past) := by
  have hunsaved {block : Nat} (h : block ∈ flush.saves g past) : unsaved g past block = true :=
    (List.mem_filter.mp h).2
  have hnodup : ((flush.saves g past).map g.slot).Nodup := by
    refine List.Nodup.map_on ?_ ((List.nodup_dedup _).filter _)
    intro block hblock other hother hslot
    -- a slot has one block, so blocks in one slot are the same
    have hlatest := latest?_of_unsaved (hunsaved hblock)
    rw [hslot, latest?_of_unsaved (hunsaved hother)] at hlatest
    exact (Option.some_inj.mp hlatest).symm
  have hmem (slot : Nat) : slot ∈ (flush.saves g past).map g.slot ↔
      slot ∈ (List.range g.lineCount.toNat).filter (unsavedIn g past) := by
    rw [List.mem_map, List.mem_filter, List.mem_range, unsavedIn_iff]
    constructor
    · rintro ⟨block, hblock, rfl⟩
      exact ⟨Nat.mod_lt _ hpos, block, latest?_of_unsaved (hunsaved hblock), hunsaved hblock⟩
    · rintro ⟨-, block, hlatest, hblock⟩
      refine ⟨block, List.mem_filter.mpr ⟨?_, hblock⟩, slot_of_latest? hlatest⟩
      exact List.mem_dedup.mpr (mem_written_of_unsaved hblock)
  have hperm := (List.perm_ext_iff_of_nodup hnodup (List.nodup_range.filter _)).mpr hmem
  rw [← List.length_map (f := g.slot), hperm.length_eq, List.countP_eq_length_filter]

/-! ### Repeated accesses -/

theorem Retains.latest? (h : request.Retains g block)
    (hlatest : latest? g past (g.slot block) = some block) :
    CacheRequest.latest? g (request :: past) (g.slot block) = some block := by
  obtain ⟨hkept, hothers⟩ := h
  cases request with
  | read addr length | write addr data =>
      rw [latest?_access rfl]
      split
      · rename_i hslot
        rw [hothers _ rfl hslot]
      · exact hlatest
  | flush | resetCounters => exact hlatest
  | invalidate => exact absurd rfl hkept

theorem latest?_append_of_retains {after : List CacheRequest}
    (hlatest : latest? g past (g.slot block) = some block)
    (hafter : ∀ request ∈ after, request.Retains g block) :
    latest? g (after ++ past) (g.slot block) = some block := by
  induction after with
  | nil => exact hlatest
  | cons request after ih =>
      exact (hafter request List.mem_cons_self).latest?
        (ih fun other hother => hafter other (List.mem_cons_of_mem request hother))

/-- An access to a block that is in its slot hits. -/
theorem count_hit? (hlatest : latest? g past (g.slot block) = some block)
    (request : CacheRequest) :
    (request.hit? g past).toList.count block = (request.block? g).toList.count block := by
  cases hother : request.block? g with
  | none => rw [hit?, hother, Option.filter_none]
  | some other =>
      by_cases heq : other = block
      · rw [hit?_of_latest? hother (by rwa [heq]), heq]
      · rw [Option.toList_some, List.count_singleton, if_neg (by simpa using heq),
          List.count_eq_zero, Option.mem_toList, hit?, hother]
        exact fun hhit => heq (Option.some_inj.mp (Option.filter_eq_some_iff.mp hhit).1)

/-- As long as a block stays in its slot, all accesses to it hit. -/
theorem exists_hits_append {after : List CacheRequest}
    (hlatest : latest? g past (g.slot block) = some block)
    (hafter : ∀ request ∈ after, request.Retains g block) :
    ∃ latter, hits g (after ++ past) = latter ++ hits g past ∧
      latter.count block = (after.filterMap (block? g)).count block := by
  induction after with
  | nil => exact ⟨[], rfl, rfl⟩
  | cons request after ih =>
      have hrest : ∀ other ∈ after, other.Retains g block :=
        fun other hother => hafter other (List.mem_cons_of_mem request hother)
      obtain ⟨latter, hhits, hcount⟩ := ih hrest
      refine ⟨(request.hit? g (after ++ past)).toList ++ latter, ?_, ?_⟩
      · rw [List.cons_append, hits, hhits, List.append_assoc]
      · rw [List.count_append, hcount, count_hit? (latest?_append_of_retains hlatest hrest)]
        cases hother : request.block? g with
        | none => rw [List.filterMap_cons_none hother, Option.toList_none, List.count_nil,
            Nat.zero_add]
        | some other => rw [List.filterMap_cons_some hother, Option.toList_some,
            ← List.count_append, List.singleton_append]

end

end CacheRequest

/-! ## Transfers of the cache -/

namespace Residency

/-- The number of the block that is resident, and whether it is dirty. -/
def occupant? : Residency → Option (Nat × Bool)
  | vacant => none
  | clean block => some (block.toNat, false)
  | dirty block => some (block.toNat, true)

def isDirty (residency : Residency) : Bool :=
  residency.occupant?.any Prod.snd

def cleaned : Residency → Residency
  | vacant => vacant
  | clean block | dirty block => clean block

theorem occupant?_cleaned (residency : Residency) :
    residency.cleaned.occupant? = residency.occupant?.map fun occupant => (occupant.1, false) := by
  cases residency <;> rfl

theorem isDirty_iff {residency : Residency} :
    residency.isDirty = true ↔ ∃ block, residency = .dirty block := by
  cases residency with
  | vacant | clean block => exact ⟨nofun, nofun⟩
  | dirty block => exact ⟨fun _ => ⟨block, rfl⟩, fun _ => rfl⟩

theorem cleaned_of_not_isDirty {residency : Residency} (h : residency.isDirty = false) :
    residency.cleaned = residency := by
  cases residency with
  | vacant | clean block => rfl
  | dirty block => cases h

theorem map_block? (residency : Residency) :
    residency.block?.map UInt32.toNat = residency.occupant?.map Prod.fst := by
  cases residency <;> rfl

end Residency

namespace Cache

open CacheRequest (occupant? latest? unsaved unsavedIn)

variable {υ : Type} {g : CacheGeometry} {capacity : Nat} {c c' : Cache υ} {index : Nat}
  {line : Line} {block addr : UInt32} {past : List CacheRequest} {reads writes : UInt64}

/-- What the transfers between two states of the cache have counted: so many reads and writes of
the store, and no access. -/
structure Transfers (c : Cache υ) (reads writes : Nat) (c' : Cache υ) : Prop where
  hits : c'.hits = c.hits
  accesses : c'.accesses = c.accesses
  store : c'.store.Counts (c.store.reads + .ofNat reads) (c.store.writes + .ofNat writes)

theorem Transfers.refl (c : Cache υ) : c.Transfers 0 0 c :=
  ⟨rfl, rfl, (UInt64.add_zero _).symm, (UInt64.add_zero _).symm⟩

theorem Transfers.trans {c c' c'' : Cache υ} {reads reads' writes writes' : Nat}
    (h : c.Transfers reads writes c') (h' : c'.Transfers reads' writes' c'') :
    c.Transfers (reads + reads') (writes + writes') c'' := by
  obtain ⟨hreads, hwrites⟩ := h.store
  obtain ⟨hreads', hwrites'⟩ := h'.store
  refine ⟨h'.hits.trans h.hits, h'.accesses.trans h.accesses, ?_, ?_⟩
  · rw [hreads', hreads, UInt64.ofNat_add, UInt64.add_assoc]
  · rw [hwrites', hwrites, UInt64.ofNat_add, UInt64.add_assoc]

/-- What the line at an index holds, if there is one. -/
def residency? (c : Cache υ) (index : Nat) : Option Residency :=
  c.lines[index]?.map Line.residency

def dirtyAt (c : Cache υ) (index : Nat) : Bool :=
  (c.residency? index).any Residency.isDirty

theorem dirtyAt_iff : c.dirtyAt index = true ↔
    ∃ line block, c.lines[index]? = some line ∧ line.residency = .dirty block := by
  rw [dirtyAt, residency?, Option.any_map, Option.any_eq_true]
  simp only [Residency.isDirty_iff, exists_and_left]

/-! ## The counters and the past -/

/-- The lines hold what the past has left in the slots, and the counters have counted it, from the
given values on for the store. Behind 2^64 they start again from zero. -/
structure Tallies (g : CacheGeometry) (past : List CacheRequest) (reads writes : UInt64)
    (c : Cache υ) : Prop where
  line {i : Nat} {line : Line} :
    c.lines[i]? = some line → line.residency.occupant? = occupant? g past i
  accesses : c.accesses = .ofNat (past.countP CacheRequest.isAccess)
  hits : c.hits = .ofNat (CacheRequest.hits g past).length
  reads : c.store.reads + c.hits = reads + c.accesses
  writes : c.store.writes = writes + .ofNat (CacheRequest.writeBacks g past).length

theorem empty_tallies (g : CacheGeometry) (store : Store υ) :
    (empty g store).Tallies g [] store.reads store.writes := by
  refine ⟨fun {i line} hline => ?_, rfl, rfl, rfl, (UInt64.add_zero _).symm⟩
  rw [vacant_empty g store i line hline]
  rfl

/-- What the line of a block holds is what the past has left in the slot. -/
theorem Tallies.holds_iff (ht : c.Tallies g past reads writes) (hline : c.lines[index]? = some line)
    (block : Nat) : line.Holds block ↔ latest? g past index = some block := by
  rw [Line.Holds, Residency.map_block?, ht.line hline, occupant?, Option.map_map]
  simp only [Function.comp_def, Option.map_id_fun', id_eq]

theorem Tallies.isDirty_eq (ht : c.Tallies g past reads writes)
    (hline : c.lines[index]? = some line) :
    line.residency.isDirty = unsavedIn g past index := by
  rw [Residency.isDirty, ht.line hline, unsavedIn]

/-- Changing the line of one slot. -/
theorem Tallies.line_of_modify (ht : c.Tallies g past reads writes) {later : List CacheRequest}
    {slot : Nat} {change : Line → Line} (hlines : c'.lines = c.lines.modify slot change)
    (hhere : ∀ line, (change line).residency.occupant? = occupant? g later slot)
    (helse : ∀ i, slot ≠ i → occupant? g later i = occupant? g past i) {i : Nat} {line' : Line}
    (hline' : c'.lines[i]? = some line') : line'.residency.occupant? = occupant? g later i := by
  rw [hlines, Array.getElem?_modify] at hline'
  by_cases hslot : slot = i
  · rw [if_pos hslot] at hline'
    obtain ⟨line, -, rfl⟩ := Option.map_eq_some_iff.mp hline'
    rw [← hslot]
    exact hhere line
  · rw [if_neg hslot] at hline'
    rw [ht.line hline', helse i hslot]

/-- An access to the block that its slot holds. -/
theorem Tallies.hit (ht : c.Tallies g past reads writes) (length : Nat)
    (hlatest : latest? g past (g.slot (g.blockAt addr)) =
      some (g.blockAt addr)) :
    (c.count (c.hits + 1) (c.accesses + 1)).Tallies g (.read addr length :: past) reads writes := by
  refine ⟨fun {i line} hline => ?_, ?_, ?_, ?_, ?_⟩
  · rw [ht.line hline]
    by_cases hslot : g.slot (g.blockAt addr) = i
    · rw [← hslot, CacheRequest.occupant?_read addr length past rfl,
        CacheRequest.occupant?_of_latest? hlatest]
    · rw [CacheRequest.occupant?_access_of_ne rfl past hslot]
  · rw [List.countP_cons_of_pos rfl, UInt64.ofNat_add, ← ht.accesses]
    rfl
  · rw [CacheRequest.hits, CacheRequest.hit?_of_latest? rfl hlatest, List.length_append,
      UInt64.ofNat_add, ← ht.hits, UInt64.add_comm]
    rfl
  · simp only [count]
    rw [← UInt64.add_assoc, ht.reads, UInt64.add_assoc]
  · rw [CacheRequest.writeBacks, CacheRequest.saves_of_latest? rfl hlatest, List.nil_append]
    exact ht.writes

/-- An access to another block than the one that its slot holds. -/
theorem Tallies.miss (ht : c.Tallies g past reads writes) (length : Nat)
    (hblock : block.toNat = g.blockAt addr)
    (hlatest : latest? g past (g.slot (g.blockAt addr)) ≠
      some (g.blockAt addr)) {change : Line → Line}
    (hchange : ∀ line, (change line).residency = .clean block)
    (hlines : c'.lines = c.lines.modify (g.slot (g.blockAt addr)) change)
    (htransfers : (c.count c.hits (c.accesses + 1)).Transfers 1
      (unsavedIn g past (g.slot (g.blockAt addr))).toNat c') :
    c'.Tallies g (.read addr length :: past) reads writes := by
  obtain ⟨hhits, haccesses, hreads, hwrites⟩ := htransfers
  -- a block that is unsaved would be in its slot
  have hsaved : unsaved g past (g.blockAt addr) = false :=
    Bool.eq_false_iff.mpr fun h => hlatest (CacheRequest.latest?_of_unsaved h)
  refine ⟨ht.line_of_modify hlines (fun line => ?_) fun i hslot => ?_, ?_, ?_, ?_, ?_⟩
  · rw [hchange, CacheRequest.occupant?_read addr length past rfl, hsaved, ← hblock]
    rfl
  · exact CacheRequest.occupant?_access_of_ne rfl past hslot
  · rw [haccesses, List.countP_cons_of_pos rfl, UInt64.ofNat_add, ← ht.accesses]
    rfl
  · rw [hhits, CacheRequest.hits, CacheRequest.hit?_of_ne rfl hlatest]
    exact ht.hits
  · calc c'.store.reads + c'.hits
        = c.store.reads + 1 + c.hits := by
          rw [hreads, hhits]
          rfl
      _ = c.store.reads + c.hits + 1 := by ac_rfl
      _ = reads + c'.accesses := by
          rw [ht.reads, haccesses, UInt64.add_assoc]
          rfl
  · have hsaves : (CacheRequest.saves g past (.read addr length)).length = _ :=
      CacheRequest.length_saves_of_ne rfl hlatest
    rw [hwrites, CacheRequest.writeBacks, List.length_append, hsaves, UInt64.ofNat_add]
    simp only [count]
    rw [ht.writes]
    ac_rfl

/-- A write is a read that leaves its block dirty. -/
theorem Tallies.written {length : Nat} {data : ByteArray}
    (ht : c.Tallies g (.read addr length :: past) reads writes)
    (hblock : block.toNat = g.blockAt addr) {change : Line → Line}
    (hchange : ∀ line, (change line).residency = .dirty block)
    (hlines : c'.lines = c.lines.modify (g.slot (g.blockAt addr)) change)
    (haccesses : c'.accesses = c.accesses) (hhits : c'.hits = c.hits)
    (hstore : c'.store = c.store) :
    c'.Tallies g (.write addr data :: past) reads writes := by
  refine ⟨ht.line_of_modify hlines (fun line => ?_) fun i hslot => ?_, ?_, ?_, ?_, ?_⟩
  · rw [hchange, CacheRequest.occupant?_write addr data past rfl, ← hblock]
    rfl
  · rw [CacheRequest.occupant?_access_of_ne rfl past hslot,
      CacheRequest.occupant?_access_of_ne rfl past hslot]
  · rw [haccesses]
    exact ht.accesses
  · rw [hhits]
    exact ht.hits
  · rw [hstore, hhits, haccesses]
    exact ht.reads
  · rw [hstore]
    exact ht.writes

theorem Tallies.invalidate (ht : c.Tallies g past reads writes) :
    c.invalidate.Tallies g (.invalidate :: past) reads writes := by
  refine ⟨fun {i line} hline => ?_, ht.accesses, ht.hits, ht.reads, ht.writes⟩
  rw [c.vacant_invalidate i line hline, CacheRequest.occupant?_invalidate]
  rfl

/-! ## What the transfers count -/

theorem Sized.valid (hg : g.Valid) (hc : c.Sized g capacity) : c.geometry.Valid :=
  hc.geometry ▸ hg

theorem Sized.size_lt (hc : c.Sized g capacity) : c.store.size < 2 ^ 64 :=
  hc.storeSize ▸ hc.capacity_lt

/-- The part of a block that exists lies in the store. -/
theorem Sized.block_within (hg : g.Valid) (hc : c.Sized g capacity)
    (hwide : block.toNat * g.lineSize.toNat < 2 ^ 32)
    (hstart : block.toNat * g.lineSize.toNat ≤ capacity) :
    (c.geometry.base block).toNat + c.extentOf block ≤ c.store.size := by
  rw [hc.geometry]
  exact base_add_extentOf hg hc hwide hstart

theorem Sized.dirty_within (hg : g.Valid) (hc : c.Sized g capacity)
    (hline : c.lines[index]? = some line) (hdirty : line.residency = .dirty block) :
    (c.geometry.base block).toNat + c.extentOf block ≤ c.store.size := by
  obtain ⟨-, hwide, hstart⟩ := (hc.line hline).block (by rw [hdirty]; rfl)
  exact hc.block_within hg hwide hstart

section

variable [StorageUnit υ]

theorem writeBack_transfers (hg : g.Valid) (hc : c.Sized g capacity)
    (hrange : (c.geometry.base block).toNat + c.extentOf block ≤ c.store.size)
    (hline : c.lines[index]? = some line) (h : writeBack index block c = .ok () c') :
    c'.lines = c.lines ∧ c.Transfers 0 1 c' := by
  have hcounts : (stateOf (Store.write (c.geometry.base block)
      (Bytes.slice line.bytes 0 (c.extentOf block)) c.store)).Counts c.store.reads
        (c.store.writes + 1) :=
    Store.write_counts (Store.refusal?_eq_none hc.size_lt (by rwa [Bytes.size_slice]))
  rw [writeBack_eq (hc.valid hg) hc.size_lt block hline] at h
  revert h hcounts
  cases Store.write (c.geometry.base block) (Bytes.slice line.bytes 0 (c.extentOf block))
    c.store with
  | error error store => nofun
  | ok _ store =>
      rintro ⟨⟩ ⟨hreads, hwrites⟩
      exact ⟨rfl, rfl, rfl, hreads.trans (UInt64.add_zero _).symm, hwrites⟩

/-- Evicting a line writes its block if it is dirty. -/
theorem evict_transfers (hg : g.Valid) (hc : c.Sized g capacity)
    (hline : c.lines[index]? = some line) (h : evict index line c = .ok () c') :
    c'.lines = c.lines ∧ c.Transfers 0 line.residency.isDirty.toNat c' := by
  unfold evict at h
  cases hresidency : line.residency with
  | vacant | clean block =>
      rw [hresidency] at h
      cases h
      exact ⟨rfl, .refl c⟩
  | dirty block =>
      rw [hresidency] at h
      exact writeBack_transfers hg hc (hc.dirty_within hg hline hresidency) hline h

/-- Filling a line reads one block, and leaves it clean there. -/
theorem fill_transfers (hg : g.Valid) (hc : c.Sized g capacity)
    (hrange : (c.geometry.base block).toNat + c.extentOf block ≤ c.store.size)
    (h : fill index block c = .ok () c') :
    (∃ change : Line → Line, (∀ line, (change line).residency = .clean block) ∧
      c'.lines = c.lines.modify index change) ∧ c.Transfers 1 0 c' := by
  have hcounts := Store.read_counts (Store.refusal?_eq_none hc.size_lt hrange)
  rw [fill_eq (hc.valid hg) hc.size_lt] at h
  revert h hcounts
  cases Store.read (c.geometry.base block) (c.extentOf block) c.store with
  | error failure store => nofun
  | ok bytes store =>
      rintro ⟨⟩ ⟨hreads, hwrites⟩
      exact ⟨⟨fun line => ⟨.clean block, Bytes.overlay line.bytes 0 bytes⟩, fun _ => rfl, rfl⟩,
        rfl, rfl, hreads, hwrites.trans (UInt64.add_zero _).symm⟩

/-- A miss reads one block, and writes the one in its line if that is dirty. -/
theorem refill_transfers (hg : g.Valid) (hc : c.Sized g capacity)
    (hline : c.lines[index]? = some line) (hwide : block.toNat * g.lineSize.toNat < 2 ^ 32)
    (hstart : block.toNat * g.lineSize.toNat ≤ capacity)
    (h : refill index line block c = .ok () c') :
    (∃ change : Line → Line, (∀ line, (change line).residency = .clean block) ∧
      c'.lines = c.lines.modify index change) ∧
      c.Transfers 1 line.residency.isDirty.toNat c' := by
  obtain ⟨_, c₁, hevict, hfill⟩ := ok_of_bind h
  have hsized := evict_sized hg hc hline
  rw [hevict] at hsized
  have hrange := hsized.of_ok.block_within hg hwide hstart
  obtain ⟨hlines, hwritten⟩ := evict_transfers hg hc hline hevict
  obtain ⟨hfilled, hread⟩ := fill_transfers hg hsized.of_ok hrange hfill
  rw [hlines] at hfilled
  have hboth := hwritten.trans hread
  rw [Nat.zero_add, Nat.add_zero] at hboth
  exact ⟨hfilled, hboth⟩

/-- Flushing a line writes its block if it is dirty, and leaves it clean. -/
theorem flushLine_transfers (hg : g.Valid) (hc : c.Sized g capacity)
    (h : flushLine index c = .ok () c') :
    (∀ i, c'.residency? i =
      if index = i then (c.residency? i).map Residency.cleaned else c.residency? i) ∧
      c.Transfers 0 (c.dirtyAt index).toNat c' := by
  cases hdirty : c.dirtyAt index with
  | true =>
      -- the block goes to the store and stays in its line
      obtain ⟨line, block, hline, hresidency⟩ := dirtyAt_iff.mp hdirty
      have hrange := hc.dirty_within hg hline hresidency
      rw [flushLine_of_dirty hline hresidency] at h
      revert h
      cases hwriteBack : writeBack index block c with
      | error error c₁ => nofun
      | ok _ c₁ =>
          rintro ⟨⟩
          obtain ⟨hlines, htransfers⟩ := writeBack_transfers hg hc hrange hline hwriteBack
          refine ⟨fun i => ?_, htransfers.hits, htransfers.accesses, htransfers.store⟩
          change ((c₁.lines.modify index _)[i]?).map Line.residency = _
          rw [hlines, Array.getElem?_modify]
          split
          · rename_i hi
            rw [residency?, ← hi, hline, Option.map_some, Option.map_some, Option.map_some,
              Option.map_some, hresidency, Residency.cleaned]
          · rfl
  | false =>
      have hclean : ∀ line block, c.lines[index]? = some line → line.residency ≠ .dirty block :=
        fun line block hline hresidency =>
          Bool.eq_false_iff.mp hdirty (dirtyAt_iff.mpr ⟨line, block, hline, hresidency⟩)
      rw [flushLine_of_not_dirty hclean] at h
      cases h
      refine ⟨fun i => ?_, .refl c⟩
      split
      · rename_i hi
        subst hi
        rw [dirtyAt] at hdirty
        cases hresidency : c.residency? index with
        | none => rfl
        | some residency =>
            rw [hresidency] at hdirty
            rw [Option.map_some, Residency.cleaned_of_not_isDirty hdirty]
      · rfl

/-- Flushing lines, each once, writes those that are dirty. -/
theorem flushLines_transfers (hg : g.Valid) {indices : List Nat} (hnodup : indices.Nodup)
    (hc : c.Sized g capacity) (h : indices.forM flushLine c = .ok () c') :
    (∀ i, c'.residency? i =
      if i ∈ indices then (c.residency? i).map Residency.cleaned else c.residency? i) ∧
      c.Transfers 0 (indices.countP c.dirtyAt) c' := by
  induction indices generalizing c with
  | nil =>
      cases h
      exact ⟨fun i => (if_neg List.not_mem_nil).symm, .refl _⟩
  | cons index rest ih =>
      obtain ⟨hfresh, hrest⟩ := List.nodup_cons.mp hnodup
      rw [forM_flushLine_cons] at h
      have hsafe := flushLine_safe hg index c hc
      revert h hsafe
      cases hflush : flushLine index c with
      | error error c₁ => nofun
      | ok _ c₁ =>
          intro h hsafe
          obtain ⟨hfirst, htransfers⟩ := flushLine_transfers hg hc hflush
          obtain ⟨hothers, htransfers'⟩ := ih hrest hsafe.of_ok h
          -- the other lines are as dirty as they were
          have hsame : rest.countP c₁.dirtyAt = rest.countP c.dirtyAt := by
            refine List.countP_congr fun i hi => ?_
            have hne : index ≠ i := fun heq => hfresh (heq ▸ hi)
            rw [dirtyAt, dirtyAt, hfirst, if_neg hne]
          have hboth := htransfers.trans htransfers'
          rw [hsame] at hboth
          refine ⟨fun i => ?_, ?_⟩
          · rw [hothers, hfirst]
            by_cases hi : index = i
            · subst hi
              rw [if_pos rfl, if_pos List.mem_cons_self, if_neg hfresh]
            · rw [if_neg hi]
              simp only [List.mem_cons, Ne.symm hi, false_or]
          · rw [List.countP_cons, Nat.add_comm]
            cases hdirty : c.dirtyAt index <;> rwa [hdirty] at hboth

/-! ## Requests and runs -/

/-- A lookup counts like a read. -/
theorem lookup_tallies (hg : g.Valid) (hc : c.Sized g capacity)
    (ht : c.Tallies g past reads writes) {length : Nat} (hrange : g.Admits capacity addr length)
    {start : UInt64} (h : lookup addr length c = .ok start c') :
    c'.Tallies g (.read addr length :: past) reads writes := by
  have hgeometry := hc.geometry
  subst hgeometry
  obtain ⟨hslot, hwide, hstart⟩ := block_placed hg (Nat.le_of_add_right_le hrange.store)
  have hblock := CacheGeometry.block_toNat hg addr
  have hlength : c.geometry.within addr + length ≤ c.geometry.lineSize.toNat := by
    rw [CacheGeometry.within_toNat hg]
    exact hrange.line
  obtain ⟨line, hline⟩ : ∃ line,
      c.lines[c.geometry.index (c.geometry.block addr)]? = some line := by
    refine ⟨_, Array.getElem?_eq_getElem ?_⟩
    rw [hc.lineCount, ← hslot]
    exact Nat.mod_lt _ hg.lineCount_pos
  -- the cache finds the line by a mask, the past knows it as the slot of the block
  have hholds := ht.holds_iff hline (c.geometry.block addr).toNat
  have hdirty := ht.isDirty_eq hline
  rw [lookup_eq hg hlength hline] at h
  rw [← hslot, hblock] at hholds hdirty
  split at h
  · rename_i hresident
    cases h
    exact ht.hit length (hholds.mp (hblock ▸ hresident))
  · rename_i hresident
    have hc₁ : (c.count c.hits (c.accesses + 1)).Sized c.geometry capacity :=
      ⟨rfl, hc.storeSize, hc.capacity_lt, hc.lineCount, hc.line⟩
    revert h
    cases hrefill : refill (c.geometry.index (c.geometry.block addr)) line (c.geometry.block addr)
      (c.count c.hits (c.accesses + 1)) with
    | error error c₂ => nofun
    | ok _ c₂ =>
        rintro ⟨⟩
        obtain ⟨⟨change, hchange, hlines⟩, htransfers⟩ :=
          refill_transfers hg hc₁ hline hwide hstart hrefill
        rw [← hslot, hblock] at hlines
        rw [hdirty] at htransfers
        exact ht.miss length hblock (fun h => hresident (hblock ▸ hholds.mpr h)) hchange hlines
          htransfers

theorem flush_tallies (hg : g.Valid) (hc : c.Sized g capacity)
    (ht : c.Tallies g past reads writes) (h : flush c = .ok () c') :
    c'.Tallies g (.flush :: past) reads writes := by
  have hsafe := flush_safe hg c hc
  rw [h] at hsafe
  obtain ⟨hlines, hhits, haccesses, hreads, hwrites⟩ :=
    flushLines_transfers hg List.nodup_range hc (show (List.range _).forM flushLine c = _ from h)
  -- the lines that are dirty are the slots whose blocks are unsaved, and those are as many
  have hdirty : (List.range c.lines.size).countP c.dirtyAt =
      (CacheRequest.saves g past .flush).length := by
    rw [hc.lineCount, CacheRequest.length_saves_flush hg.lineCount_pos]
    refine List.countP_congr fun i hi => ?_
    rw [List.mem_range, ← hc.lineCount] at hi
    have hline := Array.getElem?_eq_getElem hi
    rw [dirtyAt, residency?, hline, Option.map_some, Option.any_some, ht.isDirty_eq hline]
  refine ⟨fun {i line'} hline' => ?_, ?_, ?_, ?_, ?_⟩
  · have hi : i ∈ List.range c.lines.size := by
      rw [List.mem_range, hc.lineCount, ← hsafe.of_ok.lineCount]
      exact (Array.getElem?_eq_some_iff.mp hline').1
    have hcleaned := hlines i
    rw [residency?, hline', if_pos hi, residency?, Option.map_map, Option.map_some, eq_comm,
      Option.map_eq_some_iff] at hcleaned
    obtain ⟨line, hline, hresidency⟩ := hcleaned
    rw [← hresidency, CacheRequest.occupant?_flush, ← ht.line hline]
    exact Residency.occupant?_cleaned _
  · rw [haccesses, ht.accesses]
    rfl
  · rw [hhits, ht.hits]
    rfl
  · rw [hreads, hhits, haccesses, ← ht.reads]
    exact congrArg (· + c.hits) (UInt64.add_zero _)
  · rw [hwrites, ht.writes, hdirty, CacheRequest.writeBacks, List.length_append, UInt64.ofNat_add]
    ac_rfl

/-- One request more of the past. -/
theorem perform_tallies (hg : g.Valid) (hc : c.Sized g capacity)
    (ht : c.Tallies g past reads writes) {request : CacheRequest}
    (hrange : request.InRange g capacity) (hcounted : request ≠ .resetCounters) :
    Ends (fun _ c' => c'.Sized g capacity ∧ c'.Tallies g (request :: past) reads writes)
      (fun error _ => ∃ unit, error = .io unit) (perform request c) := by
  cases request with
  | read addr length =>
      have hlookup := lookup_sized hg hc hrange
      simp only [perform, bind, EStateM.bind, read_eq]
      revert hlookup
      cases hresult : lookup addr length c with
      | error error c₁ => exact fun hlookup => .error hlookup.of_error.2
      | ok start c₁ =>
          exact fun hlookup => .ok ⟨hlookup.of_ok.1, lookup_tallies hg hc ht hrange hresult⟩
  | write addr data =>
      have hlookup := lookup_sized hg hc hrange
      have hsafe := write_safe hg hrange c hc
      simp only [perform, bind, EStateM.bind]
      cases hresult : lookup addr data.size c with
      | error error c₁ =>
          rw [hresult] at hlookup
          rw [write_eq, hresult]
          exact .error hlookup.of_error.2
      | ok start c₁ =>
          rw [hresult] at hlookup
          obtain ⟨hc₁, rfl⟩ := hlookup.of_ok
          -- so far a write is counted as a read is; what it does to its line comes next
          have hread := lookup_tallies hg hc ht hrange hresult
          have hblock := CacheGeometry.block_toNat hg addr
          have hslot := CacheGeometry.index_toNat hg (g.block addr)
          rw [hblock] at hslot
          rw [write_eq_of_sized hg hc₁ hresult] at hsafe ⊢
          have hchange (line : Line) : Line.residency ⟨.dirty (g.block addr),
              Bytes.overlay line.bytes (g.within addr) data⟩ = .dirty (g.block addr) := rfl
          exact .ok ⟨hsafe.of_ok, hread.written hblock hchange (by rw [hslot]; rfl) rfl rfl rfl⟩
  | flush =>
      have hsafe := flush_safe hg c hc
      simp only [perform, bind, EStateM.bind]
      revert hsafe
      cases hflush : flush c with
      | error error c₁ => exact fun hsafe => .error hsafe.of_error.2
      | ok _ c₁ => exact fun hsafe => .ok ⟨hsafe.of_ok, flush_tallies hg hc ht hflush⟩
  | invalidate => exact .ok ⟨hc.invalidate, ht.invalidate⟩
  | resetCounters => exact absurd rfl hcounted

/-- A whole run more. -/
theorem performAll_tallies (hg : g.Valid) (requests : List CacheRequest)
    (hc : c.Sized g capacity) (ht : c.Tallies g past reads writes)
    (hrange : ∀ request ∈ requests, request.InRange g capacity)
    (hcounted : CacheRequest.resetCounters ∉ requests) :
    Ends (fun _ c' => c'.Tallies g (requests.reverse ++ past) reads writes)
      (fun error _ => ∃ unit, error = .io unit) (performAll requests c) := by
  induction requests generalizing c past with
  | nil => exact .ok ht
  | cons request rest ih =>
      have hfirst := perform_tallies hg hc ht (hrange request List.mem_cons_self)
        fun h => hcounted (h ▸ List.mem_cons_self)
      rw [performAll_cons, List.reverse_cons, List.append_assoc, List.singleton_append]
      revert hfirst
      cases perform request c with
      | error error c₁ => exact fun hfirst => .error hfirst.of_error
      | ok answer c₁ =>
          intro hfirst
          obtain ⟨hc₁, ht₁⟩ := hfirst.of_ok
          have hrest := ih hc₁ ht₁ (fun r hr => hrange r (List.mem_cons_of_mem request hr))
            fun h => hcounted (List.mem_cons_of_mem request h)
          simp only
          revert hrest
          cases performAll rest c₁ with
          | error error c₂ => exact fun hrest => .error hrest.of_error
          | ok answers c₂ => exact fun hrest => .ok hrest.of_ok

/-- The counters after a run of a cache that has been made with lines of at most 2^31 bytes, over
any units whose bytes are counted, as long as no unit fails; over reliable units none does. Accesses
are reads and writes. Those hit whose block is the one accessed latest in its slot since the cache
was emptied, and for each of the others the store is read once. The store is written once for each
block that another has replaced or that has been flushed, after it has been written since it came to
its slot or was last flushed. Of the accesses to a block after a first one all hit, as long as there
is no other to its slot and the cache is not emptied. Behind 2^64 a counter starts again from
zero. -/
theorem performAll_counts {store : Store υ} {capacity : UInt64} {made : Cache υ}
    (hnew : new g store = .ok made) (hlineSize : g.lineSize.toNat ≤ 2 ^ 31)
    (hcapacity : store.capacity = .ok capacity) (requests : List CacheRequest)
    (hrange : ∀ request ∈ requests, request.InRange g capacity.toNat)
    (hcounted : CacheRequest.resetCounters ∉ requests) :
    Ends
      (fun _ c' =>
        c'.accesses = .ofNat (requests.countP CacheRequest.isAccess) ∧
        c'.hits = .ofNat (CacheRequest.hits g requests.reverse).length ∧
        c'.store.reads = store.reads + (c'.accesses - c'.hits) ∧
        c'.store.writes = store.writes + .ofNat (CacheRequest.writeBacks g requests.reverse).length)
      (fun error _ => ∃ unit, error = .io unit) (performAll requests made) ∧
    (CacheRequest.hits g requests.reverse).length ≤ requests.countP CacheRequest.isAccess ∧
    (∀ [ReliableUnit υ], store.UnitsSound →
      ∃ answers c', performAll requests made = .ok answers c') ∧
    ∀ before first after block, requests = before ++ first :: after →
      first.block? g = some block →
      (∀ request ∈ after, request.Retains g block) →
      ∃ latter, CacheRequest.hits g requests.reverse =
          latter ++ CacheRequest.hits g (before ++ [first]).reverse ∧
        latter.count block = (after.filterMap (CacheRequest.block? g)).count block := by
  have hg := valid_of_new hnew hlineSize
  obtain ⟨hsize, hcapacity⟩ := Store.toNat_of_capacity hcapacity
  obtain ⟨rfl, -⟩ := new_eq_ok_iff.mp hnew
  rw [hcapacity] at hrange
  refine ⟨?_, ?_, ?_, ?_⟩
  -- the counters tally the whole run, which starts without a past
  · have hrun := performAll_tallies hg requests (empty_sized g hsize) (empty_tallies g store) hrange
      hcounted
    rw [List.append_nil] at hrun
    refine hrun.imp (fun _ c' ht => ?_) fun _ _ h => h
    refine ⟨ht.accesses.trans (by rw [List.countP_reverse]), ht.hits, ?_, ht.writes⟩
    rw [← UInt64.add_left_inj c'.hits, ht.reads, UInt64.add_assoc, UInt64.sub_add_cancel]
  · have hle := CacheRequest.length_hits_le (g := g) requests.reverse
    rwa [List.countP_reverse] at hle
  · intro _ hunits
    exact performAll_succeeds (empty_spec hg ⟨hunits, hsize⟩).1 requests hrange
  -- nothing takes the block from its slot after the first access to it
  · rintro before first after block rfl hfirst hafter
    have hlatest : latest? g (first :: before.reverse) (g.slot block) = some block := by
      rw [CacheRequest.latest?_access hfirst, if_pos rfl]
    obtain ⟨latter, hhits, hcount⟩ := CacheRequest.exists_hits_append hlatest
      fun request (hrequest : request ∈ after.reverse) =>
        hafter request (List.mem_reverse.mp hrequest)
    refine ⟨latter, ?_, ?_⟩
    · rw [List.reverse_append, List.reverse_append, List.reverse_cons, List.append_assoc]
      exact hhits
    · rw [hcount, List.filterMap_reverse, List.count_reverse]

end

/-- Two lines of four bytes: the block from 0 on replaces the one from 8 on, which has been written,
and is read twice, and the one from 4 on is flushed. -/
theorem performAll_counts_replaced :
    ∃ made answers c', new ⟨4, 2⟩ ⟨#[Medium.memory 6, Medium.memory 6], 6, 0, 0⟩ = .ok made ∧
      performAll [.write 8 ⟨#[1, 2]⟩, .read 0 1, .read 1 2, .write 4 ⟨#[3]⟩, .flush] made =
        .ok answers c' ∧
      c'.accesses = 4 ∧ c'.hits = 1 ∧ c'.store.reads = 3 ∧ c'.store.writes = 2 := by
  have hnew : new ⟨4, 2⟩ ⟨#[Medium.memory 6, Medium.memory 6], 6, 0, 0⟩ = .ok _ := rfl
  have hunits : Store.UnitsSound ⟨#[Medium.memory 6, Medium.memory 6], 6, 0, 0⟩ :=
    Store.unitsSound_pair ⟨Medium.memory_intact 6, rfl⟩ ⟨Medium.memory_intact 6, rfl⟩
  obtain ⟨hcounts, -, hsucceeds, -⟩ := performAll_counts hnew (by decide) rfl
    [.write 8 ⟨#[1, 2]⟩, .read 0 1, .read 1 2, .write 4 ⟨#[3]⟩, .flush] (by decide) (by simp)
  obtain ⟨answers, c', hrun⟩ := hsucceeds hunits
  rw [hrun] at hcounts
  obtain ⟨haccesses, hhits, hreads, hwrites⟩ := hcounts.of_ok
  rw [haccesses, hhits] at hreads
  exact ⟨_, answers, c', hnew, hrun, haccesses, hhits, hreads, hwrites⟩

/-- Lines of four bytes, 2^62 of them, are powers of two, and no cache is made with them. -/
theorem new_gives_up_oversized :
    new ⟨4, 4611686018427387904⟩ (⟨#[Medium.memory 64], 64, 0, 0⟩ : Store Medium) =
      .error .allocation :=
  rfl

end Cache

end RiscvMachine
