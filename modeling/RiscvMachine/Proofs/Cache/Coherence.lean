import RiscvMachine.Proofs.Cache.Geometry
import RiscvMachine.Proofs.Storage.Flat

set_option autoImplicit false

/-! # The cache in front of the store

The cache shows a memory of its own (`Cache.contents`): the bytes of the line that holds a block,
and those of the store where no line does. Two invariants describe its states.

* `WellFormed`: every line stands where its block belongs. It holds whatever fails.
* `Coherent`: besides, a line that is not dirty shows nothing but what the store holds. It holds
  as long as no block that straddles two units fails to arrive whole.

A step of the cache changes the store below a dirty line or puts one line in another's place.
What these do to the memory shown and to the invariants is said here once, for any store and any
line.
-/

namespace RiscvMachine

def Residency.block? : Residency → Option UInt32
  | .vacant => none
  | .clean block => some block
  | .dirty block => some block

namespace Line

/-- Whether the line holds the block of this number. -/
def Holds (line : Line) (block : Nat) : Prop :=
  line.residency.block?.map UInt32.toNat = some block

instance (line : Line) (block : Nat) : Decidable (line.Holds block) :=
  inferInstanceAs (Decidable (_ = _))

/-- A memory seen through a line: the line's bytes in its block, the memory's elsewhere. -/
def view (g : CacheGeometry) (line : Line) (m : Memory) : Memory := fun a =>
  if line.Holds (a / g.lineSize.toNat) then Bytes.byteAt line.bytes (a % g.lineSize.toNat)
  else m a

/-- The line's block belongs to line `i` and starts within the store. -/
structure Placed (g : CacheGeometry) (capacity i : Nat) (line : Line) : Prop where
  block {block : UInt32} : line.residency.block? = some block →
    block.toNat % g.lineCount.toNat = i ∧ block.toNat * g.lineSize.toNat < 2 ^ 32 ∧
      block.toNat * g.lineSize.toNat ≤ capacity

/-- The line shows nothing but what the memory holds, up to the capacity. -/
def Synced (g : CacheGeometry) (capacity : Nat) (m : Memory) (line : Line) : Prop :=
  ∀ a < capacity, line.view g m a = m a

theorem holds_iff {line : Line} {block : UInt32} (h : line.residency.block? = some block)
    (n : Nat) : line.Holds n ↔ n = block.toNat := by
  rw [Holds, h, Option.map_some, Option.some_inj, eq_comm]

theorem view_of_holds {g : CacheGeometry} {line : Line} {m : Memory} {a : Nat}
    (h : line.Holds (a / g.lineSize.toNat)) :
    line.view g m a = Bytes.byteAt line.bytes (a % g.lineSize.toNat) :=
  if_pos h

theorem view_of_not_holds {g : CacheGeometry} {line : Line} {m : Memory} {a : Nat}
    (h : ¬ line.Holds (a / g.lineSize.toNat)) : line.view g m a = m a :=
  if_neg h

/-- A vacant line shows the memory below it. -/
theorem view_of_vacant {g : CacheGeometry} {line : Line} {m : Memory}
    (h : line.residency = .vacant) : line.view g m = m := by
  funext a
  apply view_of_not_holds
  rw [Holds, h]
  exact nofun

end Line

namespace Cache

variable {υ : Type} [StorageUnit υ] [LawfulUnit υ]

def contents (c : Cache υ) : Memory := fun a =>
  match c.lines[a / c.geometry.lineSize.toNat % c.geometry.lineCount.toNat]? with
  | some line => line.view c.geometry c.store.contents a
  | none => c.store.contents a

/-- The lines are as many as the geometry tells, and every line stands where its block belongs. -/
structure WellFormed (c : Cache υ) : Prop where
  geometry : c.geometry.Valid
  store : c.store.Sound
  lineCount : c.lines.size = c.geometry.lineCount.toNat
  line {i : Nat} {line : Line} :
    c.lines[i]? = some line → line.Placed c.geometry c.store.size i

/-- A well-formed cache whose lines show what the store holds unless they are dirty. -/
structure Coherent (c : Cache υ) : Prop extends c.WellFormed where
  synced {i : Nat} {line : Line} :
    c.lines[i]? = some line → (∀ block, line.residency ≠ .dirty block) →
    line.Synced c.geometry c.store.size c.store.contents

/-- `c'` is a well-formed cache of the same shape as `c`. -/
structure Follows (c c' : Cache υ) : Prop where
  wellFormed : c'.WellFormed
  geometry : c'.geometry = c.geometry
  store : c.store.Follows c'.store

theorem Follows.refl {c : Cache υ} (h : c.WellFormed) : c.Follows c :=
  ⟨h, rfl, .refl h.store⟩

theorem Follows.trans {c c' c'' : Cache υ} (h : c.Follows c') (h' : c'.Follows c'') :
    c.Follows c'' :=
  ⟨h'.wellFormed, h'.geometry.trans h.geometry, h.store.trans h'.store⟩

theorem Follows.size {c c' : Cache υ} (h : c.Follows c') :
    c'.store.size = c.store.size :=
  h.store.size

/-- `c'` follows `c` and shows the same memory. -/
structure Keeps (c c' : Cache υ) : Prop extends c.Follows c' where
  contents : c'.contents = c.contents
  coherent : c.Coherent → c'.Coherent

theorem Keeps.refl {c : Cache υ} (h : c.WellFormed) : c.Keeps c :=
  ⟨.refl h, rfl, id⟩

theorem Keeps.trans {c c' c'' : Cache υ} (h : c.Keeps c') (h' : c'.Keeps c'') : c.Keeps c'' :=
  ⟨h.toFollows.trans h'.toFollows, h'.contents.trans h.contents, h'.coherent ∘ h.coherent⟩

/-! ## Lines and blocks -/

/-- The line of a block is there. -/
theorem WellFormed.exists_line {c : Cache υ} (h : c.WellFormed) (block : Nat) :
    ∃ line, c.lines[block % c.geometry.lineCount.toNat]? = some line := by
  have hlt := Nat.mod_lt block h.geometry.lineCount_pos
  rw [← h.lineCount] at hlt ⊢
  exact ⟨_, Array.getElem?_eq_getElem hlt⟩

/-- A block is held by the line where it belongs and by no other. -/
theorem WellFormed.index_of_holds {c : Cache υ} (h : c.WellFormed) {index block : Nat}
    {line : Line} (hline : c.lines[index]? = some line) (hholds : line.Holds block) :
    block % c.geometry.lineCount.toNat = index := by
  obtain ⟨block', hblock, heq⟩ := Option.map_eq_some_iff.mp hholds
  rw [← heq]
  exact ((h.line hline).block hblock).1

theorem contents_of_line {c : Cache υ} {a : Nat} {line : Line}
    (h : c.lines[a / c.geometry.lineSize.toNat % c.geometry.lineCount.toNat]? = some line) :
    c.contents a = line.view c.geometry c.store.contents a := by
  rw [contents, h]

/-- The number of bytes of a block that exist in the store. -/
def extentOf (c : Cache υ) (block : UInt32) : Nat :=
  min c.geometry.lineSize.toNat (c.store.size - (c.geometry.base block).toNat)

omit [StorageUnit υ] [LawfulUnit υ] in
/-- Nothing gives up where a block is sought in the store. -/
theorem rangeOf_eq {c : Cache υ} (hg : c.geometry.Valid) (hsize : c.store.size < 2 ^ 64)
    (block : UInt32) : c.rangeOf block = .ok (c.geometry.base block, c.extentOf block) := by
  simp only [rangeOf, hg.baseOf_eq, Store.capacity_eq hsize, bind, Except.bind,
    Store.toNat_size hsize]
  rfl

/-- The bytes of a block that the store holds. -/
theorem WellFormed.extentOf_eq {c : Cache υ} (h : c.WellFormed) {block : UInt32}
    (hblock : block.toNat * c.geometry.lineSize.toNat < 2 ^ 32) :
    c.extentOf block = min c.geometry.lineSize.toNat
      (c.store.size - block.toNat * c.geometry.lineSize.toNat) := by
  rw [extentOf, CacheGeometry.base_toNat h.geometry hblock]

/-- An address is in a block if it lies less than a line behind the block's start. -/
theorem div_eq_iff {size a block : Nat} (hpos : 0 < size) :
    a / size = block ↔ block * size ≤ a ∧ a < block * size + size := by
  rw [Nat.div_eq_iff hpos, and_comm]
  constructor <;> rintro ⟨h₁, h₂⟩ <;> constructor <;> omega

/-! ## Another store under the lines -/

/-- A store of the same shape under the same lines. -/
theorem Follows.of_store {c c' : Cache υ} (hc : c.WellFormed) (hlines : c'.lines = c.lines)
    (hgeometry : c'.geometry = c.geometry) (hstore : c.store.Follows c'.store) :
    c.Follows c' := by
  refine ⟨⟨?_, hstore.sound, ?_, ?_⟩, hgeometry, hstore⟩
  · rw [hgeometry]
    exact hc.geometry
  · rw [hlines, hgeometry]
    exact hc.lineCount
  · intro i line hline
    rw [hlines] at hline
    rw [hgeometry, hstore.size]
    exact hc.line hline

/-- A change of the store in the block that a line holds does not show. -/
theorem contents_of_store {c c' : Cache υ} (hc : c.WellFormed) (hlines : c'.lines = c.lines)
    (hgeometry : c'.geometry = c.geometry) {index : Nat} {line : Line} {block : UInt32}
    (hline : c.lines[index]? = some line) (hblock : line.residency.block? = some block)
    (hstore : ∀ a, a / c.geometry.lineSize.toNat ≠ block.toNat →
      c'.store.contents a = c.store.contents a) :
    c'.contents = c.contents := by
  funext a
  simp only [contents, hlines, hgeometry]
  -- in the block the line's bytes are shown, whatever the store holds there
  by_cases ha : a / c.geometry.lineSize.toNat = block.toNat
  · rw [ha, ((hc.line hline).block hblock).1, hline]
    have hholds : line.Holds (a / c.geometry.lineSize.toNat) := by
      rw [Line.holds_iff hblock, ha]
    simp only
    rw [Line.view_of_holds hholds, Line.view_of_holds hholds]
  · rw [hstore a ha]
    cases c.lines[a / c.geometry.lineSize.toNat % c.geometry.lineCount.toNat]? with
    | none => rfl
    | some line => simp only [Line.view, hstore a ha]

/-- A change of the store in the block of a dirty line leaves the other lines in step with it. -/
theorem Coherent.of_store {c c' : Cache υ} (hc : c.Coherent) (hlines : c'.lines = c.lines)
    (hgeometry : c'.geometry = c.geometry) (hfollows : c.store.Follows c'.store) {index : Nat}
    {line : Line} {block : UInt32} (hline : c.lines[index]? = some line)
    (hdirty : line.residency = .dirty block)
    (hstore : ∀ a, a / c.geometry.lineSize.toNat ≠ block.toNat →
      c'.store.contents a = c.store.contents a) :
    c'.Coherent := by
  refine ⟨(Follows.of_store hc.toWellFormed hlines hgeometry hfollows).wellFormed, ?_⟩
  intro i other hother hclean a ha
  rw [hlines] at hother
  rw [hfollows.size] at ha
  rw [hgeometry]
  have hblock : line.residency.block? = some block := by rw [hdirty]; rfl
  by_cases hin : a / c.geometry.lineSize.toNat = block.toNat
  · apply Line.view_of_not_holds
    intro hholds
    -- two lines cannot hold one block, so the other line would be the dirty one
    have hi := hc.index_of_holds hother hholds
    rw [hin, ((hc.line hline).block hblock).1] at hi
    subst hi
    rw [hline, Option.some_inj] at hother
    exact hclean block (hother ▸ hdirty)
  · have hsynced := hc.synced hother hclean a ha
    rw [Line.view, hstore a hin]
    exact hsynced

/-! ## Another line in its place -/

/-- The lines after one of them has been changed. -/
theorem getElem?_of_modify {lines lines' : Array Line} {index : Nat} {line : Line}
    {change : Line → Line} (hline : lines[index]? = some line)
    (hlines : lines' = lines.modify index change) (i : Nat) :
    lines'[i]? = if index = i then some (change line) else lines[i]? := by
  rw [hlines, Array.getElem?_modify]
  split
  · rename_i heq
    rw [← heq, hline, Option.map_some]
  · rfl

theorem Follows.of_line {c c' : Cache υ} (hc : c.WellFormed)
    (hgeometry : c'.geometry = c.geometry) (hfollows : c.store.Follows c'.store) {index : Nat}
    {line : Line} {change : Line → Line} (hline : c.lines[index]? = some line)
    (hlines : c'.lines = c.lines.modify index change)
    (hplaced : (change line).Placed c.geometry c.store.size index) :
    c.Follows c' := by
  refine ⟨⟨?_, hfollows.sound, ?_, ?_⟩, hgeometry, hfollows⟩
  · rw [hgeometry]
    exact hc.geometry
  · rw [hlines, Array.size_modify, hgeometry]
    exact hc.lineCount
  · intro i line' hline'
    rw [getElem?_of_modify hline hlines] at hline'
    rw [hgeometry, hfollows.size]
    split at hline'
    · rename_i heq
      rw [← Option.some_inj.mp hline', ← heq]
      exact hplaced
    · exact hc.line hline'

theorem contents_of_modify {c c' : Cache υ} (hgeometry : c'.geometry = c.geometry)
    (hstore : c'.store.contents = c.store.contents) {index : Nat} {line : Line}
    {change : Line → Line} (hline : c.lines[index]? = some line)
    (hlines : c'.lines = c.lines.modify index change) (a : Nat) :
    c'.contents a =
      if a / c.geometry.lineSize.toNat % c.geometry.lineCount.toNat = index then
        (change line).view c.geometry c.store.contents a
      else c.contents a := by
  rw [contents, hgeometry, hstore, getElem?_of_modify hline hlines]
  by_cases hindex : a / c.geometry.lineSize.toNat % c.geometry.lineCount.toNat = index
  · rw [if_pos hindex.symm, if_pos hindex]
  · rw [if_neg (Ne.symm hindex), if_neg hindex, contents]

theorem Coherent.of_line {c c' : Cache υ} (hc : c.Coherent)
    (hgeometry : c'.geometry = c.geometry) (hfollows : c.store.Follows c'.store)
    (hstore : c'.store.contents = c.store.contents) {index : Nat} {line : Line}
    {change : Line → Line} (hline : c.lines[index]? = some line)
    (hlines : c'.lines = c.lines.modify index change)
    (hplaced : (change line).Placed c.geometry c.store.size index)
    (hsynced : (∀ block, (change line).residency ≠ .dirty block) →
      (change line).Synced c.geometry c.store.size c.store.contents) :
    c'.Coherent := by
  refine ⟨(Follows.of_line hc.toWellFormed hgeometry hfollows hline hlines hplaced).wellFormed, ?_⟩
  intro i line' hline' hclean
  rw [getElem?_of_modify hline hlines] at hline'
  rw [hgeometry, hfollows.size, hstore]
  split at hline'
  · have heq := Option.some_inj.mp hline'
    rw [← heq] at hclean ⊢
    exact hsynced hclean
  · exact hc.synced hline' hclean

/-! ## An empty cache -/

def Vacant (c : Cache υ) : Prop :=
  ∀ (i : Nat) (line : Line), c.lines[i]? = some line → line.residency = .vacant

theorem contents_of_vacant {c : Cache υ} (hc : c.Vacant) : c.contents = c.store.contents := by
  funext a
  rw [contents]
  split
  · rename_i line hline
    rw [Line.view_of_vacant (hc _ line hline)]
  · rfl

/-- A cache of vacant lines is coherent. -/
theorem coherent_of_vacant {c : Cache υ} (hgeometry : c.geometry.Valid) (hstore : c.store.Sound)
    (hcount : c.lines.size = c.geometry.lineCount.toNat) (hvacant : c.Vacant) : c.Coherent := by
  refine ⟨⟨hgeometry, hstore, hcount, ?_⟩, ?_⟩
  · intro i line hline
    constructor
    rw [hvacant i line hline]
    exact nofun
  · intro i line hline _ a _
    rw [Line.view_of_vacant (hvacant i line hline)]

omit [StorageUnit υ] [LawfulUnit υ] in
theorem vacant_empty (geometry : CacheGeometry) (store : Store υ) :
    (empty geometry store).Vacant := by
  intro i line hline
  rw [empty, Array.getElem?_replicate] at hline
  split at hline
  · cases hline
    rfl
  · cases hline

/-- An empty cache is coherent and shows what the store holds. -/
theorem empty_spec {geometry : CacheGeometry} {store : Store υ} (hgeometry : geometry.Valid)
    (hstore : store.Sound) :
    (empty geometry store).Coherent ∧ (empty geometry store).contents = store.contents :=
  ⟨coherent_of_vacant (c := empty geometry store) hgeometry hstore Array.size_replicate
    (vacant_empty geometry store), contents_of_vacant (vacant_empty geometry store)⟩

end Cache

end RiscvMachine
