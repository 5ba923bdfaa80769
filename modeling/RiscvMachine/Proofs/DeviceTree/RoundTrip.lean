import RiscvMachine.Proofs.DeviceTree.Reader

set_option autoImplicit false

/-! # Flattened device trees are read back

A writer keeps its structure block in whole words, and holds every property name once, at the
offset that it hands out for it (`Writer.Sound`). A token adds its mark and its body to the
structure block, and at most a name to the strings (`Writer.push_takes`). Both blocks only grow, so
a name stays where it is, and the tokens are read back from the finished tree (`reads_tokens`,
`flatten_reads_back`).
-/

namespace RiscvMachine.DeviceTree

/-! ## Bytes of the writer -/

/-- The bytes stand in others, at an offset. -/
def Stands (part : List UInt8) (offset : Nat) (bytes : List UInt8) : Prop :=
  ∃ before after, bytes = before ++ (part ++ after) ∧ before.length = offset

theorem Stands.append {part bytes bytes' : List UInt8} {offset : Nat}
    (h : Stands part offset bytes) (hmore : bytes <+: bytes') : Stands part offset bytes' := by
  obtain ⟨before, after, rfl, hoffset⟩ := h
  obtain ⟨more, rfl⟩ := hmore
  exact ⟨before, after ++ more, by simp only [List.append_assoc], hoffset⟩

theorem Stands.shift {part bytes : List UInt8} {offset : Nat} (h : Stands part offset bytes)
    (lead : List UInt8) : Stands part (lead.length + offset) (lead ++ bytes) := by
  obtain ⟨before, after, rfl, rfl⟩ := h
  exact ⟨lead ++ before, after, by simp only [List.append_assoc], List.length_append⟩

theorem Stands.lt {part bytes : List UInt8} {offset : Nat} (h : Stands part offset bytes) :
    offset + part.length ≤ bytes.length := by
  obtain ⟨before, after, rfl, rfl⟩ := h
  simp only [List.length_append]
  omega

theorem octets_extract (bytes : ByteArray) (i n : Nat) :
    octets (bytes.extract i (i + n)) = ((octets bytes).drop i).take n := by
  rw [octets, ByteArray.data_extract, Array.toList_extract, List.extract_eq_take_drop,
    Nat.add_sub_cancel_left]

theorem octets_injective {a b : ByteArray} (h : octets a = octets b) : a = b :=
  ByteArray.ext (Array.toList_inj.mp h)

theorem length_octets (bytes : ByteArray) : (octets bytes).length = bytes.size :=
  Array.length_toList

theorem Stands.drop_take {part bytes : List UInt8} {offset : Nat} (h : Stands part offset bytes) :
    (bytes.drop offset).take part.length = part := by
  obtain ⟨before, after, rfl, rfl⟩ := h
  rw [List.drop_left, List.take_left]

/-- What stands in a blob is what is cut out of it there. -/
theorem Stands.extract {part blob : ByteArray} {offset : Nat}
    (h : Stands (octets part) offset (octets blob)) :
    blob.extract offset (offset + part.size) = part := by
  apply octets_injective
  rw [octets_extract, ← length_octets part]
  exact h.drop_take

theorem octets_zeros (n : Nat) : octets (Bytes.zeros n) = List.replicate n 0 := by
  refine List.eq_replicate_iff.mpr ⟨(length_octets _).trans (Bytes.size_zeros n), ?_⟩
  intro b hb
  obtain ⟨i, hi, rfl⟩ := List.mem_iff_getElem.mp hb
  have hbyte := Bytes.byteAt_zeros n i
  rwa [Bytes.byteAt_of_lt ((length_octets _).symm ▸ hi)] at hbyte

theorem octets_padTo (bytes : ByteArray) (n : Nat) :
    octets (Bytes.padTo bytes n) = octets bytes ++ List.replicate (n - bytes.size) 0 := by
  unfold Bytes.padTo
  split
  · rw [octets, ByteArray.toList_data_append]
    exact congrArg _ (octets_zeros _)
  · rw [Nat.sub_eq_zero_of_le (by omega), List.replicate_zero, List.append_nil]

/-- The octets of numbers written one after the other. -/
theorem octets_foldl_bigEndian (words : List Nat) (data : ByteArray) :
    octets (words.foldl (fun data v => data ++ Bytes.bigEndian 4 v) data) =
      octets data ++ words.flatMap wordBytes := by
  induction words generalizing data with
  | nil => simp
  | cons v words ih =>
      rw [List.foldl_cons, ih, List.flatMap_cons, octets, ByteArray.toList_data_append,
        Bytes.bigEndian, List.data_toByteArray, List.append_assoc]
      rfl

/-! ## Tokens -/

namespace Token

/-- The word that a token starts with. -/
def mark : Token → Nat
  | .beginNode _ => 1
  | .endNode => 2
  | .property _ _ => 3

/-- What follows the mark of a token, whose name is found at the offset among the strings. -/
def body (nameOffset : Nat) : Token → List UInt8
  | .beginNode name => textBytes name ++ fill (name.utf8ByteSize + 1)
  | .endNode => []
  | .property _ value =>
    wordBytes value.size ++ (wordBytes nameOffset ++ (octets value ++ fill value.size))

def name? : Token → Option String
  | .beginNode name => some name
  | .endNode => none
  | .property name _ => some name

def propertyName? : Token → Option String
  | .property name _ => some name
  | _ => none

end Token

/-- A token is read from its body, if its name is found where the body says. -/
theorem reads_token {t : Token} {nameOffset : Nat} {strings : List UInt8}
    (hname : ∀ name ∈ t.name?, '\x00' ∉ name.toList)
    (hstands : ∀ name ∈ t.propertyName?, Stands (textBytes name) nameOffset strings)
    (hsize : (t.body nameOffset).length < 2 ^ 32) (hstrings : strings.length < 2 ^ 32) :
    Reader.Reads (Reader.token strings t.mark) (t.body nameOffset) t := by
  cases t with
  | beginNode name =>
      refine (Reader.reads_text (hname name rfl)).bind ?_
      exact (Reader.reads_padding _).map fun _ => Token.beginNode name
  | endNode => exact .pure _
  | property name value =>
      -- the name is not spelled here but found among the strings
      obtain ⟨before, after, hfound, rfl⟩ := hstands name rfl
      have hoffset : before.length < 2 ^ 32 := by
        rw [hfound, List.length_append] at hstrings
        omega
      have hvalue : value.size < 2 ^ 32 := by
        simp only [Token.body, List.length_append, length_octets] at hsize
        omega
      have hlookup : Reader.text (strings.drop before.length) = some (name, after) := by
        rw [hfound, List.drop_left]
        exact Reader.reads_text (hname name rfl) after
      have htake := Reader.reads_take (octets value)
      rw [length_octets] at htake
      refine (Reader.reads_word hvalue).bind ((Reader.reads_word hoffset).bind (htake.bind ?_))
      rw [← List.append_nil (fill value.size)]
      refine (Reader.reads_padding value.size).bind fun rest => ?_
      have hoctets : (octets value).toByteArray = value := by
        apply octets_injective
        rw [octets, List.data_toByteArray]
      simp only [Bind.bind, StateT.bind, liftM, monadLift, MonadLift.monadLift, StateT.lift,
        hlookup, hoctets]
      rfl

theorem reads_end (strings : List UInt8) (n : Nat) :
    Reader.Reads (Reader.tokens strings (n + 1)) (wordBytes 9) [] := by
  rw [← List.append_nil (wordBytes 9), Reader.tokens]
  refine (Reader.reads_word (by decide)).bind ?_
  exact .pure []

theorem reads_cons {strings body bytes : List UInt8} {t : Token} {rest : List Token} {n : Nat}
    (ht : Reader.Reads (Reader.token strings t.mark) body t)
    (hrest : Reader.Reads (Reader.tokens strings n) bytes rest) :
    Reader.Reads (Reader.tokens strings (n + 1)) (wordBytes t.mark ++ (body ++ bytes))
      (t :: rest) := by
  have hmark : t.mark < 2 ^ 32 ∧ t.mark ≠ 9 ∧ t.mark ≠ 4 := by
    cases t <;> simp [Token.mark]
  obtain ⟨hword, hend, hskip⟩ := hmark
  rw [Reader.tokens]
  refine (Reader.reads_word hword).bind ?_
  rw [if_neg hend, if_neg hskip]
  exact ht.bind (hrest.map (t :: ·))

/-! ## The writer -/

namespace Writer

/-- The property names that have been entered, in order. -/
def names (w : Writer) : List String :=
  (w.nameOffsets.map Prod.fst).reverse

/-- The structure block is made of words, and the strings block holds every name once, each where
its offset says. -/
structure Sound (w : Writer) : Prop where
  aligned : 4 ∣ w.structureBlock.size
  strings : octets w.strings = w.names.flatMap textBytes
  nodup : w.names.Nodup
  stands : ∀ entry ∈ w.nameOffsets, Stands (textBytes entry.1) entry.2 (octets w.strings)

theorem sound_empty : Sound {} :=
  ⟨⟨0, rfl⟩, rfl, List.nodup_nil, nofun⟩

/-- `w'` is the writer `w` with the token added, whose name is found at the offset. -/
structure Takes (w : Writer) (t : Token) (nameOffset : Nat) (w' : Writer) : Prop where
  sound : w'.Sound
  structureBlock : octets w'.structureBlock =
    octets w.structureBlock ++ (wordBytes t.mark ++ t.body nameOffset)
  strings : octets w.strings <+: octets w'.strings
  stands : ∀ name ∈ t.propertyName?, Stands (textBytes name) nameOffset (octets w'.strings)
  names : ∀ name, name ∈ w'.names ↔ name ∈ w.names ∨ t.propertyName? = some name

theorem octets_word (w : Writer) (v : Nat) :
    octets (w.word v).structureBlock = octets w.structureBlock ++ wordBytes v := by
  rw [word, octets, ByteArray.toList_data_append, Bytes.bigEndian, List.data_toByteArray]
  rfl

theorem octets_aligned {w : Writer} (hw : 4 ∣ w.structureBlock.size) (bytes : ByteArray) :
    octets (w.aligned bytes).structureBlock =
      octets w.structureBlock ++ (octets bytes ++ fill bytes.size) := by
  have hfill : roundUp4 (w.structureBlock.size + bytes.size) -
      (w.structureBlock.size + bytes.size) = roundUp4 bytes.size - bytes.size := by
    unfold roundUp4
    omega
  rw [aligned, octets_padTo, ByteArray.size_append, hfill, octets, ByteArray.toList_data_append,
    List.append_assoc]
  rfl

/-- What the names are after a name has been entered, and where the name stands. -/
theorem intern_spec {w : Writer} (hw : w.Sound) (name : String) :
    (w.intern name).2.Sound ∧ (w.intern name).2.structureBlock = w.structureBlock ∧
      octets w.strings <+: octets (w.intern name).2.strings ∧
      Stands (textBytes name) (w.intern name).1 (octets (w.intern name).2.strings) ∧
      ∀ other, other ∈ (w.intern name).2.names ↔ other ∈ w.names ∨ name = other := by
  unfold intern
  cases hlookup : w.nameOffsets.lookup name with
  | some offset =>
      -- a name that is known is not entered again
      obtain ⟨before, after, hentries, -⟩ := List.lookup_eq_some_iff.mp hlookup
      have hmem : (name, offset) ∈ w.nameOffsets := by simp [hentries]
      refine ⟨hw, rfl, List.prefix_refl _, hw.stands _ hmem, fun other => ?_⟩
      have hname : name ∈ w.names := by
        simp only [names, List.mem_reverse, List.mem_map]
        exact ⟨_, hmem, rfl⟩
      exact ⟨.inl, fun h => h.elim id fun heq => heq ▸ hname⟩
  | none =>
      -- a new name goes behind the others, where its offset points
      have hnew : name ∉ w.names := by
        simp only [names, List.mem_reverse, List.mem_map, not_exists, not_and]
        rintro entry hentry rfl
        simpa using List.lookup_eq_none_iff.mp hlookup entry hentry
      have hstrings : octets ((w.strings ++ name.toUTF8).push 0) =
          octets w.strings ++ textBytes name := by
        simp [octets, textBytes]
      have hnames : (((name, w.strings.size) :: w.nameOffsets).map Prod.fst).reverse =
          w.names ++ [name] := by
        rw [List.map_cons, List.reverse_cons, names]
      have hstands : Stands (textBytes name) w.strings.size (octets w.strings ++ textBytes name) :=
        ⟨octets w.strings, [], by rw [List.append_nil], length_octets _⟩
      refine ⟨⟨hw.aligned, ?_, ?_, ?_⟩, rfl, ?_, ?_, fun other => ?_⟩
      · simp only [names, hnames, hstrings, hw.strings, List.flatMap_append, List.flatMap_singleton]
      · simp only [names, hnames]
        exact List.nodup_append.mpr ⟨hw.nodup, List.nodup_singleton _, by
          rintro other hother _ hmem rfl
          exact hnew (List.mem_singleton.mp hmem ▸ hother)⟩
      · simp only [hstrings]
        rintro entry (_ | ⟨_, hentry⟩)
        · exact hstands
        · exact (hw.stands entry hentry).append (List.prefix_append _ _)
      · simp only [hstrings]
        exact List.prefix_append _ _
      · simp only [hstrings]
        exact hstands
      · simp only [names, hnames, List.mem_append, List.mem_singleton, eq_comm]

theorem size_word (w : Writer) (v : Nat) :
    (w.word v).structureBlock.size = w.structureBlock.size + 4 := by
  rw [word, ByteArray.size_append, Bytes.size_bigEndian]

theorem dvd_aligned (w : Writer) (bytes : ByteArray) :
    4 ∣ (w.aligned bytes).structureBlock.size := by
  rw [aligned, Bytes.size_padTo]
  unfold roundUp4
  omega

/-- What a token does to the writer. -/
theorem push_takes {w : Writer} (hw : w.Sound) (t : Token) :
    ∃ nameOffset, w.Takes t nameOffset (w.push t) := by
  cases t with
  | beginNode name =>
      have hword : 4 ∣ (w.word 1).structureBlock.size := by
        rw [size_word]
        exact Nat.dvd_add hw.aligned ⟨1, rfl⟩
      have hsound : (w.push (.beginNode name)).Sound :=
        ⟨dvd_aligned _ _, hw.strings, hw.nodup, hw.stands⟩
      refine ⟨0, hsound, ?_, List.prefix_refl _, fun _ h => (by cases h),
        fun _ => by simp [Token.propertyName?]; rfl⟩
      have htext : octets (name.toUTF8.push 0) = textBytes name := by
        simp [octets, textBytes]
      have hsize : (name.toUTF8.push 0).size = name.utf8ByteSize + 1 := by
        rw [← length_octets, htext, length_textBytes]
      rw [push, octets_aligned hword, octets_word, List.append_assoc, htext, hsize]
      rfl
  | endNode =>
      have hsound : (w.push .endNode).Sound := by
        refine ⟨?_, hw.strings, hw.nodup, hw.stands⟩
        rw [push, size_word]
        exact Nat.dvd_add hw.aligned ⟨1, rfl⟩
      refine ⟨0, hsound, ?_, List.prefix_refl _, fun _ h => (by cases h),
        fun _ => by simp [Token.propertyName?]; rfl⟩
      rw [push, octets_word, Token.body, List.append_nil]
      rfl
  | property name value =>
      obtain ⟨hsound, hblock, hstrings, hstands, hnames⟩ := intern_spec hw name
      -- three words stand between the end of the block, which is aligned, and the value
      have hhead : 4 ∣ ((((w.intern name).2.word 3).word value.size).word
          (w.intern name).1).structureBlock.size := by
        simp only [size_word, hblock]
        exact (Nat.dvd_add_iff_right hw.aligned).mp ⟨3, rfl⟩
      refine ⟨(w.intern name).1, ⟨dvd_aligned _ _, hsound.strings, hsound.nodup, hsound.stands⟩,
        ?_, hstrings, ?_, fun other => ?_⟩
      · rw [push, octets_aligned hhead]
        simp only [octets_word, hblock, List.append_assoc]
        rfl
      · rintro _ ⟨⟩
        exact hstands
      · simp only [Token.propertyName?, Option.some.injEq]
        exact hnames other

/-- What tokens do to the writer, one after the other. -/
theorem foldl_push {w : Writer} (hw : w.Sound) (tokens : List Token) :
    (tokens.foldl push w).Sound ∧
      octets w.structureBlock <+: octets (tokens.foldl push w).structureBlock ∧
      octets w.strings <+: octets (tokens.foldl push w).strings ∧
      ∀ name, name ∈ (tokens.foldl push w).names ↔
        name ∈ w.names ∨ name ∈ tokens.filterMap Token.propertyName? := by
  induction tokens generalizing w with
  | nil => exact ⟨hw, List.prefix_refl _, List.prefix_refl _, by simp⟩
  | cons t rest ih =>
      obtain ⟨nameOffset, htakes⟩ := push_takes hw t
      obtain ⟨hsound, hblock, hstrings, hnames⟩ := ih htakes.sound
      refine ⟨hsound, ?_, htakes.strings.trans hstrings, fun name => ?_⟩
      · exact (htakes.structureBlock ▸ List.prefix_append _ _ :
          octets w.structureBlock <+: octets (w.push t).structureBlock).trans hblock
      · rw [List.foldl_cons, hnames, htakes.names, or_assoc, List.mem_filterMap, List.mem_filterMap,
          List.exists_mem_cons_iff]

/-- The tokens are read from what they have added to the structure block and the end mark, with the
strings that they leave. -/
theorem reads_tokens {w : Writer} (hw : w.Sound) {tokens : List Token}
    (hnames : ∀ t ∈ tokens, ∀ name ∈ t.name?, '\x00' ∉ name.toList)
    (hblock : (tokens.foldl push w).structureBlock.size < 2 ^ 32)
    (hstrings : (tokens.foldl push w).strings.size < 2 ^ 32) :
    ∃ bytes, octets (tokens.foldl push w).structureBlock = octets w.structureBlock ++ bytes ∧
      tokens.length ≤ bytes.length ∧ ∀ n, tokens.length < n →
        Reader.Reads (Reader.tokens (octets (tokens.foldl push w).strings) n)
          (bytes ++ wordBytes 9) tokens := by
  induction tokens generalizing w with
  | nil =>
      -- the end mark is read as one token more, which the fuel allows for
      refine ⟨[], (List.append_nil _).symm, le_rfl, fun n hn => ?_⟩
      obtain ⟨n, rfl⟩ := Nat.exists_eq_succ_of_ne_zero hn.ne'
      exact reads_end _ n
  | cons t rest ih =>
      obtain ⟨nameOffset, htakes⟩ := push_takes hw t
      obtain ⟨bytes, happended, hlength, hreads⟩ := ih htakes.sound
        (fun t' ht' => hnames t' (List.mem_cons_of_mem t ht')) hblock hstrings
      refine ⟨wordBytes t.mark ++ (t.body nameOffset ++ bytes), ?_, ?_, fun n hn => ?_⟩
      · rw [List.foldl_cons, happended, htakes.structureBlock]
        simp only [List.append_assoc]
      · simp only [List.length_append, List.length_cons, length_wordBytes]
        omega
      · obtain ⟨n, rfl⟩ := Nat.exists_eq_succ_of_ne_zero (Nat.ne_zero_of_lt hn)
        -- the strings only grow, so the token's name still stands where it was entered
        obtain ⟨-, -, hgrown, -⟩ := foldl_push htakes.sound rest
        have hbody : (t.body nameOffset).length < 2 ^ 32 := by
          rw [List.foldl_cons, ← length_octets, happended, htakes.structureBlock] at hblock
          simp only [List.length_append] at hblock
          omega
        have ht := reads_token (hnames t List.mem_cons_self)
          (fun name hname => (htakes.stands name hname).append hgrown) hbody
          ((length_octets _).trans_lt hstrings)
        have hrest := hreads n (Nat.lt_of_succ_lt_succ hn)
        have hcons := reads_cons ht hrest
        rwa [← List.append_assoc (t.body nameOffset),
          ← List.append_assoc (wordBytes t.mark)] at hcons

/-! ## The finished tree -/

def header (w : Writer) : Header where
  magic := magic.toNat
  totalSize := roundUp4 (structureOffset + w.structureBlock.size + w.strings.size)
  structureOffset := structureOffset
  stringsOffset := structureOffset + w.structureBlock.size
  reserveMapOffset := headerSize
  version := 17
  lastCompatibleVersion := 16
  bootHart := 0
  stringsSize := w.strings.size
  structureSize := w.structureBlock.size

end Writer

def Header.words (h : Header) : List Nat :=
  [h.magic, h.totalSize, h.structureOffset, h.stringsOffset, h.reserveMapOffset, h.version,
    h.lastCompatibleVersion, h.bootHart, h.stringsSize, h.structureSize]

/-- The bytes in front of the structure block. -/
def Header.preamble (h : Header) : List UInt8 :=
  h.words.flatMap wordBytes ++ List.replicate reserveMapSize 0

theorem length_preamble (h : Header) : h.preamble.length = structureOffset := by
  simp only [Header.preamble, Header.words, List.length_append, List.flatMap_cons,
    List.flatMap_nil, length_wordBytes, List.length_replicate, List.length_nil]
  rfl

theorem reads_header {h : Header} (hwords : ∀ v ∈ h.words, v < 2 ^ 32) :
    Reader.Reads Reader.header (h.words.flatMap wordBytes) h := by
  simp only [Header.words, List.mem_cons, List.not_mem_nil, or_false, forall_eq_or_imp,
    forall_eq] at hwords
  obtain ⟨h₁, h₂, h₃, h₄, h₅, h₆, h₇, h₈, h₉, h₁₀⟩ := hwords
  simp only [Header.words, List.flatMap_cons, List.flatMap_nil]
  exact (Reader.reads_word h₁).bind <| (Reader.reads_word h₂).bind <|
    (Reader.reads_word h₃).bind <| (Reader.reads_word h₄).bind <| (Reader.reads_word h₅).bind <|
    (Reader.reads_word h₆).bind <| (Reader.reads_word h₇).bind <| (Reader.reads_word h₈).bind <|
    (Reader.reads_word h₉).bind <| (Reader.reads_word h₁₀).bind <| .pure h

/-- The parts of a finished tree. -/
theorem octets_finish (w : Writer) :
    octets w.finish = (w.word 9).header.preamble ++ (octets (w.word 9).structureBlock ++
      (octets w.strings ++ fill (structureOffset + (w.word 9).structureBlock.size +
        w.strings.size))) := by
  let lead := (w.word 9).header.words.foldl (fun data v => data ++ Bytes.bigEndian 4 v)
    ByteArray.empty
  let parts := lead ++ Bytes.zeros reserveMapSize ++ (w.word 9).structureBlock ++ w.strings
  have hlead : lead.data.toList = (w.word 9).header.words.flatMap wordBytes :=
    octets_foldl_bigEndian _ ByteArray.empty
  have hparts : octets parts = (w.word 9).header.preamble ++
      (octets (w.word 9).structureBlock ++ octets w.strings) := by
    simp only [parts, octets, ByteArray.toList_data_append, List.append_assoc, Header.preamble,
      hlead, ← octets_zeros]
  have hsize : parts.size =
      structureOffset + (w.word 9).structureBlock.size + w.strings.size := by
    have hlength := congrArg List.length hparts
    simp only [List.length_append, length_preamble, length_octets] at hlength
    omega
  have hfinish : w.finish = Bytes.padTo parts (w.word 9).header.totalSize := rfl
  rw [hfinish, octets_padTo, hparts, hsize]
  simp only [List.append_assoc]
  rfl

theorem Stands.stretch? {part : List UInt8} {blob : ByteArray} {offset : Nat}
    (h : Stands part offset (octets blob)) :
    stretch? blob offset part.length = some part := by
  have hlt := h.lt
  rw [length_octets] at hlt
  rw [DeviceTree.stretch?, if_pos hlt, octets_extract, h.drop_take]

theorem size_finish (w : Writer) : w.finish.size = (w.word 9).header.totalSize := by
  have hlength := congrArg List.length (octets_finish w)
  simp only [List.length_append, length_preamble, length_octets, fill, List.length_replicate]
    at hlength
  have htotal : (w.word 9).header.totalSize =
      roundUp4 (structureOffset + (w.word 9).structureBlock.size + w.strings.size) := rfl
  rw [htotal, hlength]
  unfold roundUp4
  omega

theorem stands_structureBlock (w : Writer) :
    Stands (octets (w.word 9).structureBlock) structureOffset (octets w.finish) :=
  ⟨(w.word 9).header.preamble, _, octets_finish w, length_preamble _⟩

theorem stands_strings (w : Writer) :
    Stands (octets w.strings) (w.word 9).header.stringsOffset (octets w.finish) := by
  have hparts := octets_finish w
  rw [← List.append_assoc] at hparts
  refine ⟨(w.word 9).header.preamble ++ octets (w.word 9).structureBlock, _, hparts, ?_⟩
  rw [List.length_append, length_preamble, length_octets]
  rfl

/-- What stands in the structure block, which ends with the end mark, stands in the finished
tree. -/
theorem Stands.finish {part : List UInt8} {offset : Nat} {w : Writer}
    (h : Stands part offset (octets (w.word 9).structureBlock)) :
    Stands part (structureOffset + offset) (octets w.finish) := by
  have hparts := octets_finish w
  have hlead := h.shift (w.word 9).header.preamble
  rw [length_preamble] at hlead
  rw [← List.append_assoc] at hparts
  exact hlead.append ⟨_, hparts.symm⟩

theorem stands_reserveMap (w : Writer) :
    Stands (List.replicate reserveMapSize 0) headerSize (octets w.finish) := by
  have hparts := octets_finish w
  rw [Header.preamble, List.append_assoc] at hparts
  refine ⟨(w.word 9).header.words.flatMap wordBytes, _, hparts, ?_⟩
  simp only [Header.words, List.flatMap_cons, List.flatMap_nil, List.length_append,
    length_wordBytes, List.length_nil]
  rfl

theorem stands_end (w : Writer) :
    Stands (wordBytes 9) (structureOffset + w.structureBlock.size) (octets w.finish) := by
  refine Stands.finish ⟨octets w.structureBlock, [], ?_, length_octets _⟩
  rw [w.octets_word, List.append_nil]

/-- What a header says of a flattened tree of the tokens, and where things stand in it. -/
structure Header.Describes (h : Header) (tokens : List Token) (blob : ByteArray) : Prop where
  magic : h.magic = 0xD00DFEED
  version : h.version = 17
  totalSize : h.totalSize = blob.size
  whole : 4 ∣ h.totalSize
  /-- The structure block stands behind the header and a reserve map without entries. -/
  reserveMap : h.reserveMapOffset = headerSize ∧
    h.structureOffset = h.reserveMapOffset + reserveMapSize ∧
    stretch? blob h.reserveMapOffset reserveMapSize = some (List.replicate reserveMapSize 0)
  /-- The strings block begins where the structure block ends, which is behind the end mark. -/
  structureBlock : h.stringsOffset = h.structureOffset + h.structureSize ∧ 4 ∣ h.structureSize ∧
    stretch? blob (h.stringsOffset - 4) 4 = some (wordBytes 9)
  /-- The strings block ends where the tree does, except for the zeros that fill it up. -/
  stringsBlock : h.totalSize = roundUp4 (h.stringsOffset + h.stringsSize)
  names : ∃ names : List String, names.Nodup ∧
    (∀ name, name ∈ names ↔ name ∈ tokens.filterMap Token.propertyName?) ∧
    stretch? blob h.stringsOffset h.stringsSize = some (names.flatMap textBytes)
  /-- The offset of a value is known once the tokens in front of it are written. -/
  values : ∀ before name value after, tokens = before ++ .property name value :: after →
    let offset := (before.foldl Writer.push {}).nextValueOffset
    4 ∣ offset ∧ h.structureOffset ≤ offset ∧ offset + value.size ≤ h.stringsOffset ∧
      blob.extract offset (offset + value.size) = value

/-- The value of a property stands in the structure block from where the writer says on. -/
theorem stands_value {w : Writer} (hw : w.Sound) (name : String) (value : ByteArray) :
    Stands (octets value) (w.structureBlock.size + 12)
      (octets (w.push (.property name value)).structureBlock) := by
  obtain ⟨nameOffset, htakes⟩ := w.push_takes hw (.property name value)
  refine ⟨octets w.structureBlock ++ (wordBytes 3 ++ (wordBytes value.size ++
    wordBytes nameOffset)), fill value.size, ?_, ?_⟩
  · rw [htakes.structureBlock]
    simp only [Token.body, Token.mark, List.append_assoc]
  · simp only [List.length_append, length_wordBytes, length_octets]

/-- A value stands in the finished tree from where the writer has told before it was written. -/
theorem extract_value {before after : List Token} {name : String} {value : ByteArray} {w : Writer}
    (hw : w = (before ++ .property name value :: after).foldl Writer.push {}) :
    let offset := (before.foldl Writer.push {}).nextValueOffset
    4 ∣ offset ∧ structureOffset ≤ offset ∧ offset + value.size ≤ (w.word 9).header.stringsOffset ∧
      w.finish.extract offset (offset + value.size) = value := by
  intro offset
  -- the tokens behind the property only add to the structure block
  rw [List.foldl_append, List.foldl_cons] at hw
  obtain ⟨hbefore, -, -, -⟩ := Writer.foldl_push Writer.sound_empty before
  obtain ⟨nameOffset, htakes⟩ := Writer.push_takes hbefore (.property name value)
  obtain ⟨-, hgrown, -, -⟩ := Writer.foldl_push htakes.sound after
  rw [← hw] at hgrown
  have hend : octets w.structureBlock <+: octets (w.word 9).structureBlock :=
    w.octets_word 9 ▸ List.prefix_append _ _
  have hstands := ((stands_value hbefore name value).append hgrown).append hend
  have hlt := hstands.lt
  rw [length_octets, length_octets] at hlt
  have hoffset : offset =
      structureOffset + ((before.foldl Writer.push {}).structureBlock.size + 12) := rfl
  have hstrings : (w.word 9).header.stringsOffset =
      structureOffset + (w.word 9).structureBlock.size := rfl
  refine ⟨?_, ?_, by omega, ?_⟩
  · rw [hoffset]
    exact Nat.dvd_add ⟨14, rfl⟩ (Nat.dvd_add hbefore.aligned ⟨3, rfl⟩)
  · exact hoffset ▸ Nat.le_add_right _ _
  · exact hoffset ▸ hstands.finish.extract

theorem header_describes (tokens : List Token) :
    ((tokens.foldl Writer.push {}).word 9).header.Describes tokens (flatten tokens) := by
  obtain ⟨w, hw⟩ : ∃ w, w = tokens.foldl Writer.push {} := ⟨_, rfl⟩
  have hflatten : flatten tokens = w.finish := hw ▸ rfl
  obtain ⟨hsound, -, -, hnames⟩ := Writer.foldl_push Writer.sound_empty tokens
  rw [← hw] at hsound hnames
  rw [hflatten, ← hw]
  have hsize : (w.word 9).structureBlock.size = w.structureBlock.size + 4 := w.size_word 9
  have hreserve := (stands_reserveMap w).stretch?
  rw [List.length_replicate] at hreserve
  refine ⟨rfl, rfl, (size_finish w).symm, ?_, ⟨rfl, rfl, hreserve⟩, ⟨rfl, ?_, ?_⟩, rfl, ?_, ?_⟩
  · exact Nat.dvd_mul_left 4 _
  · change 4 ∣ (w.word 9).structureBlock.size
    rw [hsize]
    exact Nat.dvd_add hsound.aligned ⟨1, rfl⟩
  · have hoffset : (w.word 9).header.stringsOffset - 4 =
        structureOffset + w.structureBlock.size := by
      change structureOffset + (w.word 9).structureBlock.size - 4 = _
      omega
    rw [hoffset]
    exact (stands_end w).stretch?
  · have hcut := (stands_strings w).stretch?
    rw [length_octets] at hcut
    exact ⟨w.names, hsound.nodup, fun name => by simpa [Writer.names] using hnames name,
      hsound.strings ▸ hcut⟩
  · rintro before name value after rfl
    exact extract_value hw

/-! ## Reading the finished tree -/

/-- In a tree of less than `2 ^ 32` bytes the blocks end below that. -/
theorem blocks_lt {w : Writer} (hsize : w.finish.size < 2 ^ 32) :
    structureOffset + (w.word 9).structureBlock.size + w.strings.size < 2 ^ 32 := by
  have htotal := size_finish w
  have hround : (w.word 9).header.totalSize =
      roundUp4 (structureOffset + (w.word 9).structureBlock.size + w.strings.size) := rfl
  unfold roundUp4 at hround
  omega

theorem read_header {w : Writer} (hsize : w.finish.size < 2 ^ 32) :
    ∃ rest, Reader.header (octets w.finish) = some ((w.word 9).header, rest) := by
  have hbounds := blocks_lt hsize
  have htotal : (w.word 9).header.totalSize < 2 ^ 32 := size_finish w ▸ hsize
  have hstrings : (w.word 9).strings.size < 2 ^ 32 := by
    change w.strings.size < 2 ^ 32
    omega
  have hwords : ∀ v ∈ (w.word 9).header.words, v < 2 ^ 32 := by
    simp only [Header.words, Writer.header, List.forall_mem_cons]
    exact ⟨by decide, htotal, by decide, by omega, by decide, by decide, by decide, by decide,
      hstrings, by omega, nofun⟩
  have hparts := octets_finish w
  rw [Header.preamble, List.append_assoc] at hparts
  rw [hparts]
  exact ⟨_, reads_header hwords _⟩

/-- The structure block is read as the tokens that it was made of. -/
theorem read_structureBlock {tokens : List Token}
    (hnames : ∀ t ∈ tokens, ∀ name ∈ t.name?, '\x00' ∉ name.toList) {w : Writer}
    (hw : w = tokens.foldl Writer.push {}) (hsize : w.finish.size < 2 ^ 32) :
    Reader.tokens (octets w.strings) (octets (w.word 9).structureBlock).length
      (octets (w.word 9).structureBlock) = some (tokens, []) := by
  have hbounds := blocks_lt hsize
  have hblock : w.structureBlock.size < 2 ^ 32 := by
    have hword := w.size_word 9
    omega
  have hstrings : w.strings.size < 2 ^ 32 := by omega
  obtain ⟨bytes, hbytes, hlength, hreads⟩ := Writer.reads_tokens Writer.sound_empty hnames
    (hw ▸ hblock) (hw ▸ hstrings)
  rw [← hw] at hbytes hreads
  have hmarked : octets (w.word 9).structureBlock = bytes ++ wordBytes 9 := by
    rw [w.octets_word, hbytes]
    rfl
  have hfuel : tokens.length < (octets (w.word 9).structureBlock).length := by
    rw [hmarked, List.length_append, length_wordBytes]
    omega
  have htokens := hreads _ hfuel []
  rwa [← hmarked, List.append_nil] at htokens

/-- The tokens stand in the tree as its header says. -/
theorem read?_of_header {tokens : List Token}
    (hnames : ∀ t ∈ tokens, ∀ name ∈ t.name?, '\x00' ∉ name.toList)
    (hsize : (flatten tokens).size < 2 ^ 32) :
    read? (flatten tokens) = some (((tokens.foldl Writer.push {}).word 9).header, tokens) := by
  obtain ⟨w, hw⟩ : ∃ w, w = tokens.foldl Writer.push {} := ⟨_, rfl⟩
  have hflatten : flatten tokens = w.finish := hw ▸ rfl
  rw [hflatten] at hsize ⊢
  rw [← hw]
  obtain ⟨rest, hheader⟩ := read_header hsize
  have hguard : (w.word 9).header.magic = magic.toNat ∧
      (w.word 9).header.totalSize = w.finish.size := ⟨rfl, (size_finish w).symm⟩
  have hblock : stretch? w.finish (w.word 9).header.structureOffset
      (w.word 9).header.structureSize = some (octets (w.word 9).structureBlock) := by
    have hcut := (stands_structureBlock w).stretch?
    rwa [length_octets] at hcut
  have hstrings : stretch? w.finish (w.word 9).header.stringsOffset
      (w.word 9).header.stringsSize = some (octets w.strings) := by
    have hcut := (stands_strings w).stretch?
    rwa [length_octets] at hcut
  unfold read?
  simp only [hheader, Option.bind_some, Option.bind_eq_bind, guard, if_pos hguard]
  rw [hblock, hstrings]
  simp only [Option.bind_some, read_structureBlock hnames hw hsize]
  rfl

/-- A flattened tree is read back as the tokens that it was made of. -/
theorem flatten_reads_back {tokens : List Token}
    (hnames : ∀ t ∈ tokens, ∀ name ∈ t.name?, '\x00' ∉ name.toList)
    (hsize : (flatten tokens).size < 2 ^ 32) :
    ∃ h : Header, read? (flatten tokens) = some (h, tokens) ∧
      h.Describes tokens (flatten tokens) :=
  ⟨_, read?_of_header hnames hsize, header_describes tokens⟩

/-- Two nodes, one in the other, with a property of the same name in each. -/
theorem flatten_reads_back_nested :
    let tokens : List Token := [.beginNode "", .property "reg" ⟨#[1]⟩, .beginNode "cpu",
      .cell "reg" 2, .endNode, .endNode]
    (flatten tokens).size < 2 ^ 32 ∧ ∃ h : Header, read? (flatten tokens) = some (h, tokens) ∧
      h.Describes tokens (flatten tokens) := by
  intro tokens
  have hnames : ∀ t ∈ tokens, ∀ name ∈ t.name?, '\x00' ∉ name.toList := by
    simp [tokens, Token.name?, Token.cell]
  have hsize : (flatten tokens).size < 2 ^ 32 := by decide +kernel
  exact ⟨hsize, flatten_reads_back hnames hsize⟩

end RiscvMachine.DeviceTree
