import Mathlib.Data.List.TakeWhile
import RiscvMachine.Json.Reader

set_option autoImplicit false

/-! # Reading what is well-formed

The grammar of JSON, with blanks wherever they may stand, as a relation between values and texts
(`JsonValue.Spells`). The scanner reads what the grammar derives (`Spells.scans`): the cases are
those of the grammar, and behind a value comes any text that does not go on with it. So a text of
the grammar is read as the value that it spells (`parse?_of_text`).
-/

namespace RiscvMachine.JsonValue

/-! ## Blanks -/

def Blank (text : List Char) : Prop := ∀ c ∈ text, isBlank c = true

theorem blank_nil : Blank [] := fun _ h => absurd h List.not_mem_nil

theorem skipBlanks_append {blank : List Char} (h : Blank blank) (text : List Char) :
    skipBlanks (blank ++ text) = skipBlanks text :=
  List.dropWhile_append_of_pos h

theorem skipBlanks_cons {c : Char} (h : isBlank c = false) (text : List Char) :
    skipBlanks (c :: text) = c :: text :=
  List.dropWhile_cons_of_neg (by rw [h]; exact Bool.false_ne_true)

theorem skipBlanks_append_cons {blank : List Char} (h : Blank blank) {c : Char}
    (hc : isBlank c = false) (text : List Char) : skipBlanks (blank ++ c :: text) = c :: text := by
  rw [skipBlanks_append h, skipBlanks_cons hc]

theorem skipBlanks_skipBlanks (text : List Char) :
    skipBlanks (skipBlanks text) = skipBlanks text := by
  induction text with
  | nil => rfl
  | cons c rest ih =>
      by_cases hc : isBlank c = true
      · have hskip : skipBlanks (c :: rest) = skipBlanks rest := List.dropWhile_cons_of_pos hc
        rwa [hskip]
      · rw [skipBlanks_cons (Bool.not_eq_true _ ▸ hc), skipBlanks_cons (Bool.not_eq_true _ ▸ hc)]

/-! ## Numbers -/

def Digits (text : List Char) : Prop := text ≠ [] ∧ ∀ c ∈ text, c.isDigit = true

inductive Whole : List Char → Prop
  | zero : Whole ['0']
  | digits {c : Char} {rest : List Char} (hc : c.isDigit = true) (hzero : c ≠ '0')
      (hrest : ∀ d ∈ rest, d.isDigit = true) : Whole (c :: rest)

inductive Fraction : List Char → Prop
  | absent : Fraction []
  | present {digits : List Char} (h : Digits digits) : Fraction ('.' :: digits)

inductive Exponent : List Char → Prop
  | absent : Exponent []
  | unsigned {e : Char} {digits : List Char} (he : e = 'e' ∨ e = 'E') (h : Digits digits) :
      Exponent (e :: digits)
  | signed {e sign : Char} {digits : List Char} (he : e = 'e' ∨ e = 'E')
      (hsign : sign = '+' ∨ sign = '-') (h : Digits digits) : Exponent (e :: sign :: digits)

inductive Number : List Char → Prop
  | positive {whole fraction exponent : List Char} (hwhole : Whole whole)
      (hfraction : Fraction fraction) (hexponent : Exponent exponent) :
      Number (whole ++ (fraction ++ exponent))
  | negative {whole fraction exponent : List Char} (hwhole : Whole whole)
      (hfraction : Fraction fraction) (hexponent : Exponent exponent) :
      Number ('-' :: (whole ++ (fraction ++ exponent)))

/-- The text does not go on with a number in front of it. -/
def Ends (rest : List Char) : Prop :=
  ∀ c ∈ rest.head?, c.isDigit = false ∧ c ≠ '.' ∧ c ≠ 'e' ∧ c ≠ 'E'

theorem ends_nil : Ends [] := fun _ h => absurd h (Option.not_mem_none _)

theorem ends_cons {c : Char} (hdigit : c.isDigit = false) (hpoint : c ≠ '.') (he : c ≠ 'e')
    (hE : c ≠ 'E') (rest : List Char) : Ends (c :: rest) := by
  intro d hd
  cases hd
  exact ⟨hdigit, hpoint, he, hE⟩

def EndsDigits (rest : List Char) : Prop := ∀ c ∈ rest.head?, c.isDigit = false

theorem Ends.digits {rest : List Char} (h : Ends rest) : EndsDigits rest := fun c hc => (h c hc).1

theorem scanDigits?_append {digits rest : List Char} (h : Digits digits)
    (hrest : EndsDigits rest) : scanDigits? (digits ++ rest) = some (digits, rest) := by
  have htake : rest.takeWhile Char.isDigit = [] ∧ rest.dropWhile Char.isDigit = rest := by
    cases rest with
    | nil => exact ⟨rfl, rfl⟩
    | cons c rest =>
        have hc : ¬ c.isDigit = true := by
          rw [hrest c rfl]
          exact Bool.false_ne_true
        exact ⟨List.takeWhile_cons_of_neg hc, List.dropWhile_cons_of_neg hc⟩
  rw [scanDigits?, List.takeWhile_append_of_pos h.2, List.dropWhile_append_of_pos h.2, htake.1,
    htake.2, List.append_nil, if_neg (by simpa using h.1)]

theorem scanWhole?_append {whole rest : List Char} (h : Whole whole) (hrest : EndsDigits rest) :
    scanWhole? (whole ++ rest) = some (whole, rest) := by
  cases h with
  | zero => rfl
  | @digits c tail hc hzero htail =>
      have hdigits : Digits (c :: tail) :=
        ⟨List.cons_ne_nil _ _, List.forall_mem_cons.mpr ⟨hc, htail⟩⟩
      rw [← scanDigits?_append hdigits hrest, List.cons_append]
      unfold scanWhole?
      split
      · rename_i heq
        cases heq
        exact absurd rfl hzero
      · rfl

theorem scanFraction?_append {fraction rest : List Char} (h : Fraction fraction)
    (hdigits : EndsDigits rest) (hpoint : '.' ∉ rest.head?) :
    scanFraction? (fraction ++ rest) = some (fraction, rest) := by
  cases h with
  | present h =>
      rw [List.cons_append, scanFraction?, scanDigits?_append h hdigits]
      rfl
  | absent =>
      rw [List.nil_append]
      unfold scanFraction?
      split
      · exact absurd rfl hpoint
      · rfl

theorem scanExponent?_append {exponent rest : List Char} (h : Exponent exponent)
    (hrest : Ends rest) : scanExponent? (exponent ++ rest) = some (exponent, rest) := by
  cases h with
  | signed he hsign h =>
      rw [List.cons_append, List.cons_append, scanExponent?, if_pos he, if_pos hsign,
        scanDigits?_append h hrest.digits]
      rfl
  | @unsigned e digits he h =>
      obtain ⟨hne, hall⟩ := h
      cases digits with
      | nil => exact absurd rfl hne
      | cons d tail =>
          have hd : ¬ (d = '+' ∨ d = '-') := by
            have hdigit : d.isDigit = true := hall d List.mem_cons_self
            rintro (rfl | rfl) <;> revert hdigit <;> decide
          rw [List.cons_append, List.cons_append, scanExponent?, if_pos he, if_neg hd,
            ← List.cons_append, scanDigits?_append ⟨hne, hall⟩ hrest.digits]
          rfl
  | absent =>
      rw [List.nil_append]
      cases rest with
      | nil => rfl
      | cons c tail =>
          have hc : ¬ (c = 'e' ∨ c = 'E') := by
            obtain ⟨-, -, he, hE⟩ := hrest c rfl
            exact not_or.mpr ⟨he, hE⟩
          cases tail with
          | nil => rw [scanExponent?, if_neg hc]
          | cons d tail => rw [scanExponent?, if_neg hc]

theorem Whole.head {whole : List Char} (h : Whole whole) :
    ∃ c rest, whole = c :: rest ∧ c.isDigit = true := by
  cases h with
  | zero => exact ⟨_, _, rfl, rfl⟩
  | digits hc => exact ⟨_, _, rfl, hc⟩

/-- A fraction ends where an exponent starts, or behind the number. -/
theorem Exponent.ends {exponent rest : List Char} (h : Exponent exponent) (hrest : Ends rest) :
    EndsDigits (exponent ++ rest) ∧ '.' ∉ (exponent ++ rest).head? := by
  have hletter {e : Char} (he : e = 'e' ∨ e = 'E') (tail : List Char) :
      EndsDigits (e :: tail) ∧ '.' ∉ (e :: tail).head? := by
    refine ⟨fun c hc => ?_, fun hc => ?_⟩
    · cases hc
      rcases he with rfl | rfl <;> decide
    · cases hc
      revert he
      decide
  cases h with
  | absent => exact ⟨hrest.digits, fun hc => (hrest _ hc).2.1 rfl⟩
  | unsigned he _ => exact hletter he _
  | signed he _ _ => exact hletter he _

/-- The whole part ends where a fraction or an exponent starts, or behind the number. -/
theorem Fraction.ends {fraction rest : List Char} (h : Fraction fraction)
    (hrest : EndsDigits rest) : EndsDigits (fraction ++ rest) := by
  cases h with
  | absent => exact hrest
  | present _ =>
      intro c hc
      cases hc
      decide

/-- The parts of a number are scanned one after the other. -/
theorem scanParts {whole fraction exponent rest : List Char} (hwhole : Whole whole)
    (hfraction : Fraction fraction) (hexponent : Exponent exponent) (hrest : Ends rest) :
    scanWhole? (whole ++ (fraction ++ (exponent ++ rest))) =
        some (whole, fraction ++ (exponent ++ rest)) ∧
      scanFraction? (fraction ++ (exponent ++ rest)) = some (fraction, exponent ++ rest) ∧
      scanExponent? (exponent ++ rest) = some (exponent, rest) := by
  obtain ⟨hdigits, hpoint⟩ := hexponent.ends hrest
  exact ⟨scanWhole?_append hwhole (hfraction.ends hdigits),
    scanFraction?_append hfraction hdigits hpoint, scanExponent?_append hexponent hrest⟩

theorem scanNumber?_append {number rest : List Char} (h : Number number) (hrest : Ends rest) :
    scanNumber? (number ++ rest) = some (number, rest) := by
  cases h with
  | positive hwhole hfraction hexponent =>
      obtain ⟨hw, hf, he⟩ := scanParts hwhole hfraction hexponent hrest
      obtain ⟨c, tail, rfl, hc⟩ := hwhole.head
      have hsign : c ≠ '-' := by
        rintro rfl
        revert hc
        decide
      unfold scanNumber?
      split
      rename_i sign text heq
      split at heq
      · rename_i htext
        cases htext
        exact absurd rfl hsign
      · cases heq
        simp only [List.append_assoc, hw, hf, he, bind, Option.bind, pure, List.nil_append]
  | negative hwhole hfraction hexponent =>
      obtain ⟨hw, hf, he⟩ := scanParts hwhole hfraction hexponent hrest
      simp only [scanNumber?, List.cons_append, List.append_assoc, hw, hf, he, bind, Option.bind,
        pure, List.nil_append]

theorem Number.head {number : List Char} (h : Number number) :
    ∃ c rest, number = c :: rest ∧ (c.isDigit = true ∨ c = '-') := by
  cases h with
  | positive hwhole =>
      obtain ⟨c, rest, rfl, hc⟩ := hwhole.head
      exact ⟨_, _, rfl, .inl hc⟩
  | negative => exact ⟨_, _, rfl, .inr rfl⟩

theorem isBlank_of_isDigit {c : Char} (h : c.isDigit = true) : isBlank c = false := by
  rw [← Bool.not_eq_true]
  intro hblank
  simp only [isBlank, Bool.or_eq_true, beq_iff_eq] at hblank
  rcases hblank with ((rfl | rfl) | rfl) | rfl <;> revert h <;> decide

/-! ## Strings -/

/-- The spelling of a string between its quotes. -/
inductive Spelling : List Char → Prop
  | nil : Spelling []
  | plain {c : Char} {rest : List Char} (hcontrol : ¬ c.toNat < 0x20) (hquote : c ≠ '"')
      (hescape : c ≠ '\\') (hrest : Spelling rest) : Spelling (c :: rest)
  | escape {c : Char} {rest : List Char} (hc : (simpleEscape? c).isSome) (hrest : Spelling rest) :
      Spelling ('\\' :: c :: rest)
  | code {a b c d : Char} {rest : List Char} (hcode : (hexQuad? a b c d).isSome)
      (hrest : Spelling rest) : Spelling ('\\' :: 'u' :: a :: b :: c :: d :: rest)

theorem scanString?_plain {c : Char} (hcontrol : ¬ c.toNat < 0x20) (hquote : c ≠ '"')
    (hescape : c ≠ '\\') (text : List Char) :
    scanString? (c :: text) = (scanString? text).map fun (s, rest) => (c :: s, rest) := by
  rw [scanString?, if_neg (not_or.mpr ⟨hcontrol, hescape⟩)]
  · exact hquote
  · exact fun _ _ _ _ _ h => absurd h hescape
  · exact fun _ _ h => absurd h hescape

theorem scanString?_escape {c : Char} (hc : (simpleEscape? c).isSome) (text : List Char) :
    scanString? ('\\' :: c :: text) =
      (scanString? text).map fun (s, rest) => ('\\' :: c :: s, rest) := by
  have hu : c ≠ 'u' := by
    rintro rfl
    cases hc
  rw [scanString?, if_pos hc]
  exact fun _ _ _ _ _ h => absurd h hu

theorem scanString?_append {spelling : List Char} (h : Spelling spelling) (rest : List Char) :
    scanString? (spelling ++ '"' :: rest) = some (spelling, rest) := by
  induction h with
  | nil => rw [List.nil_append, scanString?]
  | plain hcontrol hquote hescape _ ih =>
      rw [List.cons_append, scanString?_plain hcontrol hquote hescape, ih]
      rfl
  | escape hc _ ih =>
      rw [List.cons_append, List.cons_append, scanString?_escape hc, ih]
      rfl
  | code hcode _ ih =>
      rw [List.cons_append, List.cons_append, List.cons_append, List.cons_append, List.cons_append,
        List.cons_append, scanString?, if_pos hcode, ih]
      rfl

/-! ## Values -/

/-- What a text may spell: a value, the items of an array, or the members of an object. -/
inductive Part
  | value (v : JsonValue)
  | items (vs : List JsonValue)
  | members (ms : List (List Char × JsonValue))

/-- The grammar. Blanks may stand between tokens; those around a value belong to what is around
it. -/
inductive Spells : Part → List Char → Prop
  | null : Spells (.value .null) ['n', 'u', 'l', 'l']
  | yes : Spells (.value (.bool true)) ['t', 'r', 'u', 'e']
  | no : Spells (.value (.bool false)) ['f', 'a', 'l', 's', 'e']
  | number {n : List Char} (h : Number n) : Spells (.value (.number n)) n
  | string {s : List Char} (h : Spelling s) : Spells (.value (.string s)) ('"' :: (s ++ ['"']))
  | emptyArray {a : List Char} (ha : Blank a) : Spells (.value (.array [])) ('[' :: (a ++ [']']))
  | array {vs : List JsonValue} {t : List Char} (h : Spells (.items vs) t) :
      Spells (.value (.array vs)) ('[' :: (t ++ [']']))
  | emptyObject {a : List Char} (ha : Blank a) :
      Spells (.value (.object [])) ('{' :: (a ++ ['}']))
  | object {ms : List (List Char × JsonValue)} {t : List Char} (h : Spells (.members ms) t) :
      Spells (.value (.object ms)) ('{' :: (t ++ ['}']))
  | item {v : JsonValue} {a t b : List Char} (ha : Blank a) (h : Spells (.value v) t)
      (hb : Blank b) : Spells (.items [v]) (a ++ (t ++ b))
  | items {v : JsonValue} {vs : List JsonValue} {a t b rest : List Char} (ha : Blank a)
      (h : Spells (.value v) t) (hb : Blank b) (hrest : Spells (.items vs) rest) :
      Spells (.items (v :: vs)) (a ++ (t ++ (b ++ ',' :: rest)))
  | member {name : List Char} {v : JsonValue} {a b c t d : List Char} (ha : Blank a)
      (hname : Spelling name) (hb : Blank b) (hc : Blank c) (h : Spells (.value v) t)
      (hd : Blank d) :
      Spells (.members [(name, v)]) (a ++ '"' :: (name ++ '"' :: (b ++ ':' :: (c ++ (t ++ d)))))
  | members {name : List Char} {v : JsonValue} {ms : List (List Char × JsonValue)}
      {a b c t d rest : List Char} (ha : Blank a) (hname : Spelling name) (hb : Blank b)
      (hc : Blank c) (h : Spells (.value v) t) (hd : Blank d) (hrest : Spells (.members ms) rest) :
      Spells (.members ((name, v) :: ms))
        (a ++ '"' :: (name ++ '"' :: (b ++ ':' :: (c ++ (t ++ (d ++ ',' :: rest))))))

/-- A value does not start with a blank, nor with what closes an array. -/
theorem Spells.head {v : JsonValue} {t : List Char} (h : Spells (.value v) t) :
    ∃ c rest, t = c :: rest ∧ isBlank c = false ∧ c ≠ ']' := by
  cases h with
  | number hn =>
      obtain ⟨c, rest, rfl, hc⟩ := hn.head
      refine ⟨c, rest, rfl, ?_, ?_⟩
      · exact hc.elim isBlank_of_isDigit fun hminus => hminus ▸ rfl
      · rintro rfl
        revert hc
        decide
  | null => exact ⟨_, _, rfl, by decide, by decide⟩
  | yes => exact ⟨_, _, rfl, by decide, by decide⟩
  | no => exact ⟨_, _, rfl, by decide, by decide⟩
  | string => exact ⟨_, _, rfl, by decide, by decide⟩
  | emptyArray => exact ⟨_, _, rfl, by decide, by decide⟩
  | array => exact ⟨_, _, rfl, by decide, by decide⟩
  | emptyObject => exact ⟨_, _, rfl, by decide, by decide⟩
  | object => exact ⟨_, _, rfl, by decide, by decide⟩

/-! ### One step of the scanner -/

/-- The scanners of values, items and members skip the blanks in front. -/
theorem scanValue?_skipBlanks (fuel : Nat) (text : List Char) :
    scanValue? fuel (skipBlanks text) = scanValue? fuel text := by
  cases fuel with
  | zero => simp only [scanValue?]
  | succ fuel => simp only [scanValue?, skipBlanks_skipBlanks]

theorem scanItems?_skipBlanks (fuel : Nat) (text : List Char) :
    scanItems? fuel (skipBlanks text) = scanItems? fuel text := by
  cases fuel with
  | zero => simp only [scanItems?]
  | succ fuel => simp only [scanItems?, scanValue?_skipBlanks]

theorem scanMembers?_skipBlanks (fuel : Nat) (text : List Char) :
    scanMembers? fuel (skipBlanks text) = scanMembers? fuel text := by
  cases fuel with
  | zero => simp only [scanMembers?]
  | succ fuel => simp only [scanMembers?, skipBlanks_skipBlanks]

theorem scanValue?_number {c : Char} (hc : c.isDigit = true ∨ c = '-') (fuel : Nat)
    (text : List Char) :
    scanValue? (fuel + 1) (c :: text) =
      (scanNumber? (c :: text)).map fun (n, rest) => (.number n, rest) := by
  have hblank : isBlank c = false := hc.elim isBlank_of_isDigit fun hminus => hminus ▸ rfl
  have hother {d : Char} (hd : ¬ (d.isDigit = true ∨ d = '-')) : c ≠ d := by
    rintro rfl
    exact hd hc
  rw [scanValue?, skipBlanks_cons hblank]
  split
  all_goals first
    | rename_i heq
      injection heq with heq
      exact absurd heq (hother (by decide))
    | rfl

theorem scanValue?_array {text : List Char} (htext : ']' ∉ (skipBlanks text).head?) (fuel : Nat) :
    scanValue? (fuel + 1) ('[' :: text) =
      (scanItems? fuel text).map fun (items, rest) => (.array items, rest) := by
  rw [scanValue?, skipBlanks_cons (by decide), ← scanItems?_skipBlanks]
  simp only
  split
  · rename_i heq
    rw [heq] at htext
    exact absurd rfl htext
  · rfl

theorem scanValue?_object {text : List Char} (htext : '}' ∉ (skipBlanks text).head?) (fuel : Nat) :
    scanValue? (fuel + 1) ('{' :: text) =
      (scanMembers? fuel text).map fun (members, rest) => (.object members, rest) := by
  rw [scanValue?, skipBlanks_cons (by decide), ← scanMembers?_skipBlanks]
  simp only
  split
  · rename_i heq
    rw [heq] at htext
    exact absurd rfl htext
  · rfl

/-! ### Whole texts -/

/-- A text is scanned as what it spells, if there is fuel enough for its length. -/
def Part.Scans (text : List Char) : Part → Prop
  | value v => ∀ fuel a rest, 2 * text.length ≤ fuel → Blank a → Ends rest →
      scanValue? fuel (a ++ (text ++ rest)) = some (v, rest)
  | items vs => ∀ fuel rest, 2 * text.length + 1 ≤ fuel →
      scanItems? fuel (text ++ ']' :: rest) = some (vs, rest)
  | members ms => ∀ fuel rest, 2 * text.length + 1 ≤ fuel →
      scanMembers? fuel (text ++ '}' :: rest) = some (ms, rest)

theorem ends_blank {blank rest : List Char} (h : Blank blank) (hrest : Ends rest) :
    Ends (blank ++ rest) := by
  cases blank with
  | nil => exact hrest
  | cons c tail =>
      have hc : isBlank c = true := h c List.mem_cons_self
      apply ends_cons
      · rw [← Bool.not_eq_true]
        intro hdigit
        rw [isBlank_of_isDigit hdigit] at hc
        cases hc
      all_goals
        rintro rfl
        revert hc
        decide

theorem scanValue?_append {blank : List Char} (h : Blank blank) (fuel : Nat) (text : List Char) :
    scanValue? fuel (blank ++ text) = scanValue? fuel text := by
  rw [← scanValue?_skipBlanks, skipBlanks_append h, scanValue?_skipBlanks]

theorem scanMembers?_append {blank : List Char} (h : Blank blank) (fuel : Nat)
    (text : List Char) : scanMembers? fuel (blank ++ text) = scanMembers? fuel text := by
  rw [← scanMembers?_skipBlanks, skipBlanks_append h, scanMembers?_skipBlanks]

theorem Spells.items_head {vs : List JsonValue} {t : List Char} (h : Spells (.items vs) t)
    (rest : List Char) : ']' ∉ (skipBlanks (t ++ rest)).head? := by
  have hvalue {v : JsonValue} {a t : List Char} (ha : Blank a) (h : Spells (.value v) t)
      (rest : List Char) : ']' ∉ (skipBlanks (a ++ (t ++ rest))).head? := by
    obtain ⟨c, tail, rfl, hblank, hc⟩ := h.head
    rw [skipBlanks_append ha, List.cons_append, skipBlanks_cons hblank]
    intro hmem
    cases hmem
    exact hc rfl
  cases h with
  | item ha h hb =>
      rw [List.append_assoc, List.append_assoc]
      exact hvalue ha h _
  | items ha h hb hrest =>
      rw [List.append_assoc, List.append_assoc]
      exact hvalue ha h _

theorem Spells.members_head {ms : List (List Char × JsonValue)} {t : List Char}
    (h : Spells (.members ms) t) (rest : List Char) :
    '}' ∉ (skipBlanks (t ++ rest)).head? := by
  cases h with
  | member ha =>
      rw [List.append_assoc, skipBlanks_append ha]
      exact nofun
  | members ha =>
      rw [List.append_assoc, skipBlanks_append ha]
      exact nofun

theorem Spells.scans {p : Part} {text : List Char} (h : Spells p text) : p.Scans text := by
  -- items take a unit of fuel besides those of their values, so twice the length of a text is
  -- enough
  induction h with
  | null | yes | no =>
      intro fuel a rest hfuel ha _
      obtain ⟨fuel, rfl⟩ : ∃ n, fuel = n + 1 := ⟨fuel - 1, by simp at hfuel; omega⟩
      rw [scanValue?_append ha]
      rfl
  | number hn =>
      intro fuel a rest hfuel ha hrest
      obtain ⟨c, tail, rfl, hc⟩ := hn.head
      obtain ⟨fuel, rfl⟩ : ∃ n, fuel = n + 1 := ⟨fuel - 1, by simp at hfuel; omega⟩
      rw [scanValue?_append ha, List.cons_append, scanValue?_number hc, ← List.cons_append,
        scanNumber?_append hn hrest]
      rfl
  | @string s hs =>
      intro fuel a rest hfuel ha _
      obtain ⟨fuel, rfl⟩ : ∃ n, fuel = n + 1 := ⟨fuel - 1, by simp at hfuel; omega⟩
      have hscan := scanString?_append hs rest
      rw [scanValue?_append ha, List.cons_append, List.append_assoc, List.singleton_append,
        scanValue?, skipBlanks_cons (by decide)]
      simp only [hscan, Option.map_some]
  | @emptyArray b hb =>
      intro fuel a rest hfuel ha _
      obtain ⟨fuel, rfl⟩ : ∃ n, fuel = n + 1 := ⟨fuel - 1, by simp at hfuel; omega⟩
      have hskip := skipBlanks_append_cons hb (c := ']') (by decide) rest
      rw [scanValue?_append ha, List.cons_append, List.append_assoc, List.singleton_append,
        scanValue?, skipBlanks_cons (by decide)]
      simp only [hskip]
  | @array vs t ht ih =>
      intro fuel a rest hfuel ha _
      obtain ⟨fuel, rfl⟩ : ∃ n, fuel = n + 1 := ⟨fuel - 1, by simp at hfuel; omega⟩
      simp only [List.length_cons, List.length_append, List.length_nil] at hfuel
      rw [scanValue?_append ha, List.cons_append, List.append_assoc, List.singleton_append,
        scanValue?_array (ht.items_head _), ih fuel rest (by omega)]
      rfl
  | @emptyObject b hb =>
      intro fuel a rest hfuel ha _
      obtain ⟨fuel, rfl⟩ : ∃ n, fuel = n + 1 := ⟨fuel - 1, by simp at hfuel; omega⟩
      have hskip := skipBlanks_append_cons hb (c := '}') (by decide) rest
      rw [scanValue?_append ha, List.cons_append, List.append_assoc, List.singleton_append,
        scanValue?, skipBlanks_cons (by decide)]
      simp only [hskip]
  | @object ms t ht ih =>
      intro fuel a rest hfuel ha _
      obtain ⟨fuel, rfl⟩ : ∃ n, fuel = n + 1 := ⟨fuel - 1, by simp at hfuel; omega⟩
      simp only [List.length_cons, List.length_append, List.length_nil] at hfuel
      rw [scanValue?_append ha, List.cons_append, List.append_assoc, List.singleton_append,
        scanValue?_object (ht.members_head _), ih fuel rest (by omega)]
      rfl
  | @item v a t b ha ht hb ih =>
      intro fuel rest hfuel
      obtain ⟨fuel, rfl⟩ : ∃ n, fuel = n + 1 := ⟨fuel - 1, by omega⟩
      simp only [List.length_append] at hfuel
      have hskip := skipBlanks_append_cons hb (c := ']') (by decide) rest
      have hvalue := ih fuel a (b ++ ']' :: rest) (by omega) ha
        (ends_blank hb (ends_cons (by decide) (by decide) (by decide) (by decide) rest))
      rw [scanItems?, List.append_assoc, List.append_assoc, hvalue]
      simp only [bind, Option.bind, hskip]
      rfl
  -- the value is read up to the comma, and the other items are read by the same function
  | @items v vs a t b tail ha ht hb _ ih ihtail =>
      intro fuel rest hfuel
      obtain ⟨fuel, rfl⟩ : ∃ n, fuel = n + 1 := ⟨fuel - 1, by omega⟩
      simp only [List.length_append, List.length_cons] at hfuel
      have hskip := skipBlanks_append_cons hb (c := ',') (by decide) (tail ++ ']' :: rest)
      have hvalue := ih fuel a (b ++ ',' :: (tail ++ ']' :: rest)) (by omega) ha
        (ends_blank hb (ends_cons (by decide) (by decide) (by decide) (by decide) _))
      rw [scanItems?, List.append_assoc, List.append_assoc, List.append_assoc, List.cons_append,
        hvalue]
      simp only [bind, Option.bind, hskip, ihtail fuel rest (by omega)]
      rfl
  | @member name v a b c t d ha hname hb hc ht hd ih =>
      intro fuel rest hfuel
      obtain ⟨fuel, rfl⟩ : ∃ n, fuel = n + 1 := ⟨fuel - 1, by omega⟩
      simp only [List.length_append, List.length_cons] at hfuel
      have hstring := scanString?_append hname (b ++ ':' :: (c ++ (t ++ (d ++ '}' :: rest))))
      have hcolon := skipBlanks_append_cons hb (c := ':') (by decide)
        (c ++ (t ++ (d ++ '}' :: rest)))
      have hskip := skipBlanks_append_cons hd (c := '}') (by decide) rest
      have hvalue := ih fuel c (d ++ '}' :: rest) (by omega) hc
        (ends_blank hd (ends_cons (by decide) (by decide) (by decide) (by decide) rest))
      rw [List.append_assoc, scanMembers?_append ha]
      simp only [List.cons_append, List.append_assoc]
      rw [scanMembers?, skipBlanks_cons (by decide)]
      simp only [bind, Option.bind, hstring, hcolon, hvalue, hskip]
      rfl
  | @members name v ms a b c t d tail ha hname hb hc ht hd _ ih ihtail =>
      intro fuel rest hfuel
      obtain ⟨fuel, rfl⟩ : ∃ n, fuel = n + 1 := ⟨fuel - 1, by omega⟩
      simp only [List.length_append, List.length_cons] at hfuel
      have hstring := scanString?_append hname
        (b ++ ':' :: (c ++ (t ++ (d ++ ',' :: (tail ++ '}' :: rest)))))
      have hcolon := skipBlanks_append_cons hb (c := ':') (by decide)
        (c ++ (t ++ (d ++ ',' :: (tail ++ '}' :: rest))))
      have hskip := skipBlanks_append_cons hd (c := ',') (by decide) (tail ++ '}' :: rest)
      have hvalue := ih fuel c (d ++ ',' :: (tail ++ '}' :: rest)) (by omega) hc
        (ends_blank hd (ends_cons (by decide) (by decide) (by decide) (by decide) _))
      rw [List.append_assoc, scanMembers?_append ha]
      simp only [List.cons_append, List.append_assoc]
      rw [scanMembers?, skipBlanks_cons (by decide)]
      simp only [bind, Option.bind, hstring, hcolon, hvalue, hskip, ihtail fuel rest (by omega)]
      rfl

/-- A text of a value, with blanks around it. -/
def Text (v : JsonValue) (text : List Char) : Prop :=
  ∃ a t b, Blank a ∧ Spells (.value v) t ∧ Blank b ∧ text = a ++ (t ++ b)

/-- A text of the grammar is read as the value that it spells. -/
theorem parse?_of_text {v : JsonValue} {text : List Char} (h : v.Text text) :
    parse? text = some v := by
  obtain ⟨a, t, b, ha, ht, hb, rfl⟩ := h
  have hends : Ends b := by simpa using ends_blank hb ends_nil
  have hscan := ht.scans (2 * (a ++ (t ++ b)).length + 1) a b
    (by simp only [List.length_append]; omega) ha hends
  have hrest : skipBlanks b = [] := by
    have hskip := skipBlanks_append hb []
    rwa [List.append_nil] at hskip
  rw [parse?, hscan]
  simp only [bind, Option.bind, hrest, List.isEmpty_nil, if_true]

end RiscvMachine.JsonValue
