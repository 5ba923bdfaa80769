import RiscvMachine.Proofs.Json.Grammar

set_option autoImplicit false

/-! # What is written can be read

Texts are written with escapes that stand for their characters (`decodeSpelling_encode`), numbers
with digits that stand for them (`natural?_ofNat`), and objects in a text of the grammar
(`written_object`).
-/

namespace RiscvMachine.JsonValue

/-! ## Characters -/

theorem simpleEscape?_of_escapeLetter? {c letter : Char} (h : escapeLetter? c = some letter) :
    simpleEscape? letter = some c := by
  unfold escapeLetter? at h
  split at h <;> cases h <;> rfl

theorem hexDigit?_hexDigit {n : Nat} (h : n < 16) : hexDigit? (hexDigit n) = some n := by
  have hall : ∀ n : Fin 16, hexDigit? (hexDigit n) = some n.val := by decide
  exact hall ⟨n, h⟩

theorem hexQuad?_control {n : Nat} (h : n < 0x20) :
    hexQuad? '0' '0' (hexDigit (n / 16)) (hexDigit (n % 16)) = some n := by
  have hzero : hexDigit? '0' = some 0 := by decide
  rw [hexQuad?, hzero, hexDigit?_hexDigit (by omega), hexDigit?_hexDigit (by omega)]
  exact congrArg some (by omega)

/-- The forms in which a character is written. -/
theorem encodeChar_cases (c : Char) :
    (∃ letter, simpleEscape? letter = some c ∧ encodeChar c = ['\\', letter]) ∨
      (∃ high low, hexQuad? '0' '0' high low = some c.toNat ∧
        encodeChar c = ['\\', 'u', '0', '0', high, low]) ∨
      (¬ c.toNat < 0x20 ∧ c ≠ '"' ∧ c ≠ '\\' ∧ encodeChar c = [c]) := by
  unfold encodeChar
  cases hletter : escapeLetter? c with
  | some letter => exact .inl ⟨letter, simpleEscape?_of_escapeLetter? hletter, rfl⟩
  | none =>
      simp only
      split
      · exact .inr (.inl ⟨_, _, hexQuad?_control ‹_›, rfl⟩)
      · refine .inr (.inr ⟨‹_›, ?_, ?_, rfl⟩) <;> rintro rfl <;> cases hletter

/-! ## Texts -/

theorem spelledCodes_escape {letter c : Char} (h : simpleEscape? letter = some c)
    (rest : List Char) :
    spelledCodes ('\\' :: letter :: rest) = (spelledCodes rest).map (c.toNat :: ·) := by
  have hu : letter ≠ 'u' := by
    rintro rfl
    cases h
  rw [spelledCodes, h]
  · cases spelledCodes rest <;> rfl
  · exact fun _ _ _ _ _ h => absurd h hu

theorem spelledCodes_code {a b c d : Char} {code : Nat} (h : hexQuad? a b c d = some code)
    (rest : List Char) :
    spelledCodes ('\\' :: 'u' :: a :: b :: c :: d :: rest) =
      (spelledCodes rest).map (code :: ·) := by
  rw [spelledCodes, h]
  cases spelledCodes rest <;> rfl

theorem spelledCodes_plain {c : Char} (h : c ≠ '\\') (rest : List Char) :
    spelledCodes (c :: rest) = (spelledCodes rest).map (c.toNat :: ·) := by
  rw [spelledCodes]
  · cases spelledCodes rest <;> rfl
  · exact fun _ _ _ _ _ h' => absurd h' h
  · exact fun _ _ h' => absurd h' h

theorem spelledCodes_encode (text : List Char) :
    spelledCodes (text.flatMap encodeChar) = some (text.map Char.toNat) := by
  induction text with
  | nil => rfl
  | cons c rest ih =>
      rw [List.flatMap_cons]
      rcases encodeChar_cases c with ⟨letter, h, heq⟩ | ⟨high, low, h, heq⟩ | ⟨-, -, h, heq⟩
      · rw [heq, List.cons_append, List.singleton_append, spelledCodes_escape h, ih]
        rfl
      · rw [heq]
        exact (spelledCodes_code h _).trans (congrArg _ ih)
      · rw [heq, List.singleton_append, spelledCodes_plain h, ih]
        rfl

/-- The code of a character is no half of a surrogate pair. -/
theorem joinCodes_cons (c : Char) (codes : List Nat) :
    joinCodes (c.toNat :: codes) = (joinCodes codes).map (c :: ·) := by
  have hvalid : c.toNat < 0xD800 ∨ 0xDFFF < c.toNat ∧ c.toNat < 0x110000 := c.valid
  have hhigh : isHighSurrogate c.toNat = false := by
    rw [isHighSurrogate, Bool.and_eq_false_iff, decide_eq_false_iff_not, decide_eq_false_iff_not]
    omega
  have hlow : isLowSurrogate c.toNat = false := by
    rw [isLowSurrogate, Bool.and_eq_false_iff, decide_eq_false_iff_not, decide_eq_false_iff_not]
    omega
  cases codes with
  | nil => simp only [joinCodes, hhigh, hlow, Char.ofNat_toNat]; rfl
  | cons code rest =>
      rw [joinCodes, hhigh, hlow, Char.ofNat_toNat]
      cases joinCodes (code :: rest) <;> rfl

theorem joinCodes_map (text : List Char) : joinCodes (text.map Char.toNat) = some text := by
  induction text with
  | nil => rfl
  | cons c rest ih => rw [List.map_cons, joinCodes_cons, ih, Option.map_some]

/-- What is written stands for the text. -/
theorem decodeSpelling_encode (text : List Char) :
    decodeSpelling (text.flatMap encodeChar) = some text := by
  rw [decodeSpelling, spelledCodes_encode]
  exact joinCodes_map text

theorem spelling_encode (text : List Char) : Spelling (text.flatMap encodeChar) := by
  induction text with
  | nil => exact .nil
  | cons c rest ih =>
      rw [List.flatMap_cons]
      rcases encodeChar_cases c with ⟨letter, h, heq⟩ | ⟨high, low, h, heq⟩ |
        ⟨hcontrol, hquote, hescape, heq⟩
      · rw [heq]
        exact .escape (by rw [h]; rfl) ih
      · rw [heq]
        exact .code (by rw [h]; rfl) ih
      · rw [heq]
        exact .plain hcontrol hquote hescape ih

/-! ## Numbers -/

theorem natural?_ofNat (n : Nat) : (ofNat n).natural? = some n := by
  have hdigits : (Nat.toDigits 10 n).all Char.isDigit = true :=
    List.all_eq_true.mpr fun _ hc => Nat.isDigit_of_mem_toDigits (by decide) (by decide) hc
  have hvalue : ofDigits (Nat.toDigits 10 n) = n :=
    Nat.ofDigitChars_eq_foldl.symm.trans Nat.ofDigitChars_ten_toDigits
  rw [ofNat, natural?, if_pos hdigits, hvalue]

/-- There is no zero in front of the digits of a positive number. -/
theorem toDigits_head {n : Nat} (hn : 0 < n) :
    ∃ c rest, Nat.toDigits 10 n = c :: rest ∧ c ≠ '0' := by
  induction n using Nat.strongRecOn with
  | ind n ih =>
      rw [Nat.toDigits_eq_if (by decide)]
      split
      · have hall : ∀ n : Fin 10, 0 < n.val → Nat.digitChar n ≠ '0' := by decide
        exact ⟨_, [], rfl, hall ⟨n, ‹_›⟩ hn⟩
      · obtain ⟨c, rest, heq, hc⟩ := ih (n / 10) (by omega) (by omega)
        exact ⟨c, rest ++ [Nat.digitChar (n % 10)], by rw [heq, List.cons_append], hc⟩

theorem number_toDigits (n : Nat) : Number (Nat.toDigits 10 n) := by
  have hwhole : Whole (Nat.toDigits 10 n) := by
    rcases Nat.eq_zero_or_pos n with rfl | hn
    · exact .zero
    · obtain ⟨c, rest, heq, hc⟩ := toDigits_head hn
      have hdigits : ∀ d ∈ c :: rest, d.isDigit = true := by
        rw [← heq]
        exact fun _ hd => Nat.isDigit_of_mem_toDigits (by decide) (by decide) hd
      rw [heq]
      exact .digits (hdigits c List.mem_cons_self) hc
        fun d hd => hdigits d (List.mem_cons_of_mem c hd)
  have hnumber := Number.positive hwhole .absent .absent
  rwa [List.append_nil, List.append_nil] at hnumber

/-! ## Values -/

/-- A value is written in a text of the grammar. -/
def Written (v : JsonValue) : Prop := Spells (.value v) v.render

theorem written_ofText (text : String) : (ofText text).Written :=
  .string (spelling_encode _)

theorem written_ofNat (n : Nat) : (ofNat n).Written := .number (number_toDigits n)

theorem written_bool (b : Bool) : (bool b).Written := by
  cases b with
  | true => exact .yes
  | false => exact .no

theorem spells_renderMembers {members : List (List Char × JsonValue)} (hne : members ≠ [])
    (h : ∀ m ∈ members, Spelling m.1 ∧ m.2.Written) :
    Spells (.members members) (renderMembers members) := by
  induction members with
  | nil => exact absurd rfl hne
  | cons m rest ih =>
      obtain ⟨name, value⟩ := m
      obtain ⟨hname, hvalue⟩ := h _ List.mem_cons_self
      cases rest with
      | nil =>
          have hmember := Spells.member blank_nil hname blank_nil blank_nil hvalue blank_nil
          simpa only [List.nil_append, List.append_nil, renderMembers, List.cons_append]
            using hmember
      | cons m' rest =>
          have hrest := ih (List.cons_ne_nil m' rest)
            fun m hm => h m (List.mem_cons_of_mem _ hm)
          have hmembers :=
            Spells.members blank_nil hname blank_nil blank_nil hvalue blank_nil hrest
          simpa only [List.nil_append, renderMembers, List.cons_append, List.append_assoc]
            using hmembers

/-- An object is written member by member. -/
theorem written_object {members : List (List Char × JsonValue)} (hne : members ≠ [])
    (h : ∀ m ∈ members, Spelling m.1 ∧ m.2.Written) : (object members).Written := by
  rw [Written, render, List.cons_append]
  exact .object (spells_renderMembers hne h)

theorem Written.text {v : JsonValue} (h : v.Written) : v.Text v.render :=
  ⟨[], v.render, [], blank_nil, h, blank_nil, (List.append_nil _).symm⟩

end RiscvMachine.JsonValue
