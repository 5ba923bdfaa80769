import RiscvMachine.Machine.Boot
import RiscvMachine.Proofs.Image.Delivery

set_option autoImplicit false

/-! # Booting depends on the bytes of the image

Two sources that deliver the same bytes boot a machine alike, however their reads are cut and
interrupted, if their first reads tell the same format and the decoders of compressed images are
functions of the bytes that they are fed (`boot_eq_of_delivers`). The first read
matters because the format is told by it alone: an interruption makes it fail, and a few bytes
of a compressed image look like a plain one (`InputSource.recognized?_eq`).

Loading goes chunk by chunk and the chunks do not depend on the reads
(`ImageStream.readChunk_handsOut`), so the induction is on the fuel, which bounds the chunks.
-/

namespace RiscvMachine

/-- The format that a first read tells is that of the whole image, if the read brings the whole
magic number of the format. -/
theorem InputSource.recognized?_eq {s : InputSource} {data : ByteArray} (h : s.Delivers data) :
    s.recognized? = s.head?.map fun head =>
      if (ImageFormat.ofHead data).magicSize ≤ head.size then ImageFormat.ofHead data
      else .plain := by
  unfold recognized?
  rcases ImageStream.ofSource?_eq .standard h with ⟨hhead, -⟩ | ⟨feed, hhead, ⟨rest, rfl, -⟩, -⟩
  · rw [hhead]
    rfl
  · rw [hhead]
    exact congrArg some (ImageFormat.ofHead_eq feed.input rest)

/-- The stream that is made of a source, if one is. -/
theorem ImageStream.ofSource?_recognized (decoders : Decoders) {s : InputSource}
    {data : ByteArray} (h : s.Delivers data) :
    ∃ feed : Feed, feed.Carries data ∧
      ofSource? decoders s = s.recognized?.map fun format => ⟨feed, format.decoder⟩ := by
  unfold InputSource.recognized?
  rcases ofSource?_eq decoders h with ⟨hhead, hnone⟩ | ⟨feed, hhead, hcarries, hsome⟩
  · exact ⟨.new s, ⟨data, ByteArray.empty_append.symm, h⟩, by rw [hhead, hnone]; rfl⟩
  · exact ⟨feed, hcarries, by rw [hhead, hsome]; rfl⟩

namespace Machine

variable {υ : Type} [StorageUnit υ]

/-- Streams that hand out the same contents are loaded alike. -/
theorem loadChunks_eq_of_handsOut {decoders : Decoders} {contents : ByteArray} {intact : Prop}
    {stream stream' : ImageStream decoders} (h : HandsOut ImageStream.read contents intact stream)
    (h' : HandsOut ImageStream.read contents intact stream') (fuel length : Nat) (m : Machine υ) :
    loadChunks fuel length stream m = loadChunks fuel length stream' m := by
  induction fuel generalizing length contents stream stream' m with
  | zero => rfl
  | succ fuel ih =>
      have hread := ImageStream.readChunk_handsOut m.config.imageChunkSize.toNat h
      have hread' := ImageStream.readChunk_handsOut m.config.imageChunkSize.toNat h'
      unfold loadChunks
      revert hread hread'
      cases ImageStream.readChunk m.config.imageChunkSize.toNat stream with
      | error failure rest =>
          intro hread
          obtain ⟨hshort, hbroken⟩ := hread.of_error
          cases ImageStream.readChunk m.config.imageChunkSize.toNat stream' with
          | error failure' rest' => exact fun _ => rfl
          | ok bytes rest' =>
              intro hread'
              obtain ⟨_, _, _, _, hintact, _⟩ := hread'.of_ok
              exact absurd (hintact hshort) hbroken
      | ok bytes rest =>
          intro hread
          obtain ⟨chunk, left, rfl, hcuts, hintact, hleft⟩ := hread.of_ok
          cases ImageStream.readChunk m.config.imageChunkSize.toNat stream' with
          | error failure' rest' =>
              intro hread'
              obtain ⟨hshort, hbroken⟩ := hread'.of_error
              exact absurd (hintact hshort) hbroken
          | ok bytes' rest' =>
              intro hread'
              obtain ⟨chunk', left', rfl, hcuts', -, hleft'⟩ := hread'.of_ok
              -- however the reads have been, both chunks are the next bytes of the same contents
              obtain ⟨rfl, rfl⟩ := hcuts.unique hcuts'
              simp only
              split
              · rfl
              split
              · rfl
              cases hplace : place (UInt32.ofNat length) (ByteArray.empty ++ chunk) m with
              | error error m' => rfl
              | ok _ m' =>
                  exact ih hleft hleft' _ m'

theorem loadImage_eq_of_delivers {decoders : Decoders} (hdecoders : decoders.AreFunctions)
    {s t : InputSource} {data : ByteArray} (hs : s.Delivers data) (ht : t.Delivers data)
    (hformat : s.recognized? = t.recognized?) (m : Machine υ) :
    loadImage decoders s m = loadImage decoders t m := by
  obtain ⟨feed, hfeed, hstream⟩ := ImageStream.ofSource?_recognized decoders hs
  obtain ⟨feed', hfeed', hstream'⟩ := ImageStream.ofSource?_recognized decoders ht
  rw [← hformat] at hstream'
  unfold loadImage
  rw [hstream, hstream']
  cases s.recognized? with
  | none => rfl
  | some format =>
      obtain ⟨contents, intact, hout⟩ := ImageStream.handsOut_of_format hdecoders format data
      simp only [Option.map_some]
      split
      · rfl
      · exact loadChunks_eq_of_handsOut (hout feed hfeed) (hout feed' hfeed') _ _ m

/-- Booting depends only on the bytes of the image, once the first reads of two sources tell the
same format, as long as what the decoders of compressed images hand out is a function of the bytes
that they are fed. Whether the first reads tell the same is a matter of the reads: each tells the
format of the image unless it is interrupted or shorter than the magic number. -/
theorem boot_eq_of_delivers {decoders : Decoders} (hdecoders : decoders.AreFunctions)
    {s t : InputSource} {data : ByteArray} (hs : s.Delivers data) (ht : t.Delivers data)
    (m : Machine υ) :
    (s.recognized? = t.recognized? → bootWith decoders s m = bootWith decoders t m) ∧
    ∀ u : InputSource, u.Delivers data → u.recognized? = u.head?.map fun head =>
      if (ImageFormat.ofHead data).magicSize ≤ head.size then ImageFormat.ofHead data
      else .plain := by
  refine ⟨fun hformat => ?_, fun u hu => InputSource.recognized?_eq hu⟩
  have hload := loadImage_eq_of_delivers hdecoders hs ht hformat (m.mapCache Cache.invalidate)
  simp only [bootWith, bind, EStateM.bind, modify, modifyGet, MonadStateOf.modifyGet,
    EStateM.modifyGet, hload]

end Machine

/-! ## Decoders that read ahead -/

/-- All that the source still has, if no read of it fails. -/
def InputSource.remaining? : List InputEvent → (position : Nat) → Option ByteArray
  | [], _ => some ByteArray.empty
  | .interrupted :: rest, _ => remaining? rest 0
  | .failed :: _, _ => none
  | .data bytes :: rest, position =>
    (remaining? rest 0).map (bytes.extract position bytes.size ++ ·)

theorem InputSource.Delivers.remaining? {s : InputSource} {data : ByteArray}
    (h : s.Delivers data) : remaining? s.events s.position = some data := by
  induction h with
  | finish => rfl
  | interrupted _ ih => exact ih
  | data _ _ ih => exact congrArg (Option.map _) ih

namespace Decoder

/-- Hands out the next bytes of what has been decoded. -/
def hand (limit : Nat) (feed : Feed) (left : Decoded) :
    EStateM.Result Unit (Feed × Option Decoded) ByteArray :=
  if left.contents.isEmpty && !left.intact then .error () (feed, some left)
  else
    let stop := min limit left.contents.size
    let rest := left.contents.extract stop left.contents.size
    .ok (left.contents.extract 0 stop) (feed, some { left with contents := rest })

/-- A decoder that reads its source to the end at once. -/
def ofFunction (decode : ByteArray → Decoded) : Decoder where
  State := Option Decoded
  start := none
  read limit := fun (feed, state) =>
    match state with
    | some left => hand limit feed left
    | none =>
      match InputSource.remaining? feed.source.events feed.source.position with
      | none => .error () (feed, none)
      | some rest => hand limit ⟨⟨[], 0⟩, feed.input ++ rest⟩ (decode (feed.input ++ rest))

theorem hand_answers {limit : Nat} (hlimit : 0 < limit) (feed : Feed) (left : Decoded) :
    Answers (fun rest s => s.2 = some { left with contents := rest }) left.contents
      (left.intact = true) limit (hand limit feed left) := by
  unfold hand
  split
  · rename_i hbroken
    simp only [Bool.and_eq_true, ByteArray.isEmpty, beq_iff_eq, Bool.not_eq_true'] at hbroken
    exact .error ⟨hbroken.1, by simp [hbroken.2]⟩
  · rename_i hsound
    refine .ok ⟨?_, fun hnone => ?_, _, ?_, rfl⟩
    · rw [ByteArray.size_extract]
      omega
    · rw [ByteArray.size_extract] at hnone
      have hempty : left.contents.size = 0 := by omega
      refine ⟨hempty, ?_⟩
      simpa [ByteArray.isEmpty, hempty] using hsound
    · rw [ByteArray.extract_append_extract, Nat.zero_min, Nat.max_eq_right (Nat.min_le_right _ _),
        ByteArray.extract_zero_size]

theorem isFunction_ofFunction (decode : ByteArray → Decoded) :
    (ofFunction decode).IsFunction := by
  refine ⟨decode, fun feed data hfeed => ?_⟩
  refine ⟨fun rest s => s.2 = some { decode data with contents := rest } ∨
    s.2 = none ∧ s.1.Carries data ∧ rest = (decode data).contents, ?_, .inr ⟨rfl, hfeed, rfl⟩⟩
  rintro contents ⟨feed, state⟩ hnow limit hlimit
  refine Answers.mono (fun _ _ => .inl) ?_
  rcases hnow with rfl | ⟨rfl, ⟨rest, rfl, hrest⟩, rfl⟩
  · exact hand_answers hlimit feed { decode data with contents := contents }
  · simp only [ofFunction, hrest.remaining?]
    exact hand_answers hlimit _ _

/-- What a decoder makes of bytes that arrive at once. The fuel bounds its reads. -/
def unpack (d : Decoder) : Nat → Feed × d.State → Decoded
  | 0, _ => ⟨ByteArray.empty, false⟩
  | fuel + 1, s =>
    match d.read Feed.readSize s with
    | .error () _ => ⟨ByteArray.empty, false⟩
    | .ok bytes s =>
      if bytes.isEmpty then ⟨ByteArray.empty, true⟩
      else
        let rest := unpack d fuel s
        { rest with contents := bytes ++ rest.contents }

def readAhead (d : Decoder) : Decoder :=
  .ofFunction fun data => d.unpack (data.size + 1) (.new (.ofBytes data), d.start)

end Decoder

theorem Decoder.isFunction_readAhead (d : Decoder) : d.readAhead.IsFunction :=
  isFunction_ofFunction _

/-- The letter `A` compressed with gzip, at once or with an interruption behind the magic number:
the machine boots alike. -/
theorem Machine.boot_eq_of_delivers_gzip :
    let image : ByteArray := ⟨#[0x1F, 0x8B, 0x08, 0x00, 0x00, 0x00, 0x00, 0x00, 0x00, 0x03, 0x01,
      0x01, 0x00, 0xFE, 0xFF, 0x41, 0x8B, 0x9E, 0xD9, 0xD3, 0x01, 0x00, 0x00, 0x00]⟩
    let whole : InputSource := .ofBytes image
    let cut : InputSource :=
      ⟨[.data (image.extract 0 2), .interrupted, .data (image.extract 2 image.size)], 0⟩
    let gzip : Decoder := Decoders.standard.gzip
    let decoders : Decoders := ⟨gzip.readAhead, Decoders.standard.zstd.readAhead⟩
    let m : Machine Medium :=
      .new {} (.empty { lineSize := 4, lineCount := 1 } ⟨#[.memory 64], 64, 0, 0⟩)
        ⟨ByteArray.empty, 0⟩
    gzip.unpack (image.size + 1) (.new whole, gzip.start) = ⟨⟨#[0x41]⟩, true⟩ ∧
      decoders.AreFunctions ∧ whole.Delivers image ∧ cut.Delivers image ∧
      bootWith decoders whole m = bootWith decoders cut m := by
  intro image whole cut gzip decoders m
  have hdecoders : decoders.AreFunctions :=
    ⟨gzip.isFunction_readAhead, Decoders.standard.zstd.isFunction_readAhead⟩
  have hwhole : whole.Delivers image := InputSource.delivers_ofBytes (by decide)
  have hcut : cut.Delivers image := InputSource.delivers_cut (by decide) (by decide)
  have hformat : whole.recognized? = cut.recognized? := by decide +kernel
  exact ⟨by decide +kernel, hdecoders, hwhole, hcut,
    (boot_eq_of_delivers hdecoders hwhole hcut m).1 hformat⟩

end RiscvMachine
