import RiscvMachine.Proofs.Cache.Access

set_option autoImplicit false

/-! # Flushing and emptying the cache

Flushing keeps what the cache shows, whether it comes to its end or not (`flush_spec`). Emptying
the cache without writing anything back makes it show what the store holds (`invalidate_spec`).
-/

namespace RiscvMachine.Cache

variable {υ : Type} [StorageUnit υ] [LawfulUnit υ]

omit [LawfulUnit υ] in
theorem flushLine_of_dirty {c : Cache υ} {index : Nat} {line : Line} {block : UInt32}
    (hline : c.lines[index]? = some line) (hdirty : line.residency = .dirty block) :
    flushLine index c =
      match writeBack index block c with
      | .ok () c' =>
        .ok () (c'.onLine index fun line => { line with residency := .clean block })
      | .error error c' => .error error c' := by
  obtain ⟨residency, bytes⟩ := line
  cases hdirty
  simp only [flushLine, bind, EStateM.bind, get, getThe, MonadStateOf.get, EStateM.get, hline]
  cases writeBack index block c <;> rfl

omit [LawfulUnit υ] in
theorem flushLine_of_not_dirty {c : Cache υ} {index : Nat}
    (h : ∀ line block, c.lines[index]? = some line → line.residency ≠ .dirty block) :
    flushLine index c = .ok () c := by
  simp only [flushLine, bind, EStateM.bind, get, getThe, MonadStateOf.get, EStateM.get]
  rcases hline : c.lines[index]? with _ | ⟨residency, bytes⟩
  · rfl
  · cases residency with
    | vacant => rfl
    | clean block => rfl
    | dirty block => exact absurd rfl (h _ block hline)

omit [LawfulUnit υ] in
theorem forM_flushLine_cons (index : Nat) (rest : List Nat) (c : Cache υ) :
    (index :: rest).forM flushLine c =
      match flushLine index c with
      | .ok () c₁ => rest.forM flushLine c₁
      | .error error c₁ => .error error c₁ := by
  show EStateM.bind (flushLine index) (fun _ => rest.forM flushLine) c = _
  unfold EStateM.bind
  cases flushLine index c <;> rfl

/-- The line in a place, if there is one, is not dirty. -/
def Clean (c : Cache υ) (i : Nat) : Prop :=
  ∀ line block, c.lines[i]? = some line → line.residency ≠ .dirty block

omit [LawfulUnit υ] in
/-- Where no line is dirty, a flush does nothing at all. -/
theorem flush_of_clean {c : Cache υ} (hc : ∀ i, c.Clean i) : flush c = .ok () c := by
  have hlines (indices : List Nat) : indices.forM flushLine c = .ok () c := by
    induction indices with
    | nil => rfl
    | cons index rest ih =>
        rw [forM_flushLine_cons, flushLine_of_not_dirty (hc index)]
        exact ih
  exact hlines (List.range c.lines.size)

/-- A line that has been written back whole and counts as clean from then on. -/
theorem WritesBack.keeps {c c₁ c' : Cache υ} (hc : c.WellFormed) {index : Nat} {line : Line}
    {block : UInt32} (hline : c.lines[index]? = some line)
    (hdirty : line.residency = .dirty block)
    (h : c.WritesBack block line (c.extentOf block) c₁)
    (hgeometry : c'.geometry = c₁.geometry) (hstore : c'.store = c₁.store)
    (hlines : c'.lines = c₁.lines.modify index fun line =>
      { line with residency := .clean block }) :
    c.Keeps c' := by
  have hblock : line.residency.block? = some block := by rw [hdirty]; rfl
  have hevicts := h.evicts hc hline hdirty
  have hwellFormed := hevicts.wellFormed
  have hline₁ : c₁.lines[index]? = some line := by rw [h.lines, hline]
  have hfollows : c₁.store.Follows c'.store := by
    rw [hstore]
    exact .refl hwellFormed.store
  -- whether it counts as dirty or as clean, the line shows the same bytes
  have hview : Line.view c₁.geometry { line with residency := .clean block } c₁.store.contents
      = line.view c₁.geometry c₁.store.contents := by
    funext a
    simp only [Line.view, Line.Holds, hdirty, Residency.block?]
    rfl
  have hplaced : Line.Placed c₁.geometry c₁.store.size index
      { line with residency := .clean block } := by
    constructor
    rintro _ ⟨⟩
    exact (hwellFormed.line hline₁).block hblock
  have hkept : c'.contents = c₁.contents := by
    funext a
    rw [contents_of_modify hgeometry (by rw [hstore]) hline₁ hlines]
    split
    · rename_i hindex
      rw [← hindex] at hline₁
      rw [hview, contents_of_line hline₁]
    · rfl
  refine hevicts.toKeeps.trans ⟨.of_line hwellFormed hgeometry hfollows hline₁ hlines hplaced,
    hkept, ?_⟩
  intro hcoherent
  refine hcoherent.of_line hgeometry hfollows (by rw [hstore]) hline₁ hlines hplaced fun _ => ?_
  intro a ha
  rw [hview]
  exact h.synced hc hline hblock a ha

/-- What flushing may come to: all is written back, or a unit fails. Neither shows. -/
def Flushes (c : Cache υ) : EStateM.Result StorageError (Cache υ) Unit → Prop :=
  Ends (fun _ c' => c.Keeps c') fun error c' =>
    c.Keeps c' ∧ (∃ unit, error = .io unit) ∧ LawfulUnit.WriteFails υ

/-- Flushing one line does not show. -/
theorem flushLine_spec {c : Cache υ} (hc : c.WellFormed) (index : Nat) :
    c.Flushes (flushLine index c) := by
  by_cases hdirty : ∃ line block, c.lines[index]? = some line ∧ line.residency = .dirty block
  · obtain ⟨line, block, hline, hdirty⟩ := hdirty
    have hblock : line.residency.block? = some block := by rw [hdirty]; rfl
    have hspec := writeBack_spec hc hline hblock
    rw [flushLine_of_dirty hline hdirty]
    revert hspec
    cases writeBack index block c with
    | ok _ c₁ =>
        intro hspec
        exact .ok (hspec.of_ok.keeps hc hline hdirty rfl rfl rfl)
    | error error c₁ =>
        intro hspec
        obtain ⟨herror, hfails, n, h⟩ := hspec.of_error
        exact .error ⟨(h.evicts hc hline hdirty).toKeeps, herror, hfails⟩
  · rw [flushLine_of_not_dirty fun line block hline h => hdirty ⟨line, block, hline, h⟩]
    exact .ok (.refl hc)

/-- Flushing lines one after the other does not show, however far it comes. -/
theorem flushLines_spec (indices : List Nat) {c : Cache υ} (hc : c.WellFormed) :
    c.Flushes (indices.forM flushLine c) := by
  induction indices generalizing c with
  | nil => exact .ok (.refl hc)
  | cons index rest ih =>
      rw [forM_flushLine_cons]
      have hfirst := flushLine_spec hc index
      revert hfirst
      cases flushLine index c with
      | error error c₁ =>
          intro hfirst
          exact .error hfirst.of_error
      | ok _ c₁ =>
          intro hfirst
          have hkeeps := hfirst.of_ok
          have hrest := ih hkeeps.wellFormed
          simp only
          revert hrest
          cases rest.forM flushLine c₁ with
          | ok _ c₂ =>
              intro hrest
              exact .ok (hkeeps.trans hrest.of_ok)
          | error error c₂ =>
              intro hrest
              obtain ⟨hkeeps', hunit⟩ := hrest.of_error
              exact .error ⟨hkeeps.trans hkeeps', hunit⟩

/-- Flushing does not show. -/
theorem flush_spec {c : Cache υ} (hc : c.WellFormed) : c.Flushes (flush c) :=
  flushLines_spec (List.range c.lines.size) hc

omit [StorageUnit υ] [LawfulUnit υ] in
theorem vacant_invalidate (c : Cache υ) : c.invalidate.Vacant := by
  intro i line hline
  rw [invalidate, Array.getElem?_map, Option.map_eq_some_iff] at hline
  obtain ⟨line', -, rfl⟩ := hline
  rfl

/-- An emptied cache is coherent and shows what the store holds. -/
theorem invalidate_spec {c : Cache υ} (hc : c.WellFormed) :
    c.Follows c.invalidate ∧ c.invalidate.Coherent ∧ c.invalidate.contents = c.store.contents := by
  have hcoherent : c.invalidate.Coherent :=
    coherent_of_vacant hc.geometry hc.store (Array.size_map.trans hc.lineCount) c.vacant_invalidate
  exact ⟨⟨hcoherent.toWellFormed, rfl, .refl hc.store⟩, hcoherent,
    contents_of_vacant c.vacant_invalidate⟩

theorem keeps_resetCounters {c : Cache υ} (hc : c.WellFormed) : c.Keeps c.resetCounters :=
  keeps_count hc 0 0

/-- Flushing comes to its end if no unit fails. -/
theorem flush_succeeds {υ : Type} [StorageUnit υ] [ReliableUnit υ] {c : Cache υ}
    (hc : c.WellFormed) : ∃ c', flush c = .ok () c' ∧ c.Keeps c' := by
  have hspec := flush_spec hc
  revert hspec
  cases flush c with
  | ok _ c' =>
      intro hspec
      exact ⟨c', rfl, hspec.of_ok⟩
  | error error c' =>
      intro hspec
      exact absurd hspec.of_error.2.2 (ReliableUnit.not_writeFails υ)

end RiscvMachine.Cache
