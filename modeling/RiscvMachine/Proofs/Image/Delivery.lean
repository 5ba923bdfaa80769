import RiscvMachine.Image.Stream
import RiscvMachine.Proofs.Bytes
import RiscvMachine.Proofs.Computation

set_option autoImplicit false

/-! # What a source delivers

A source may hand out the same bytes in reads of many sizes, with interruptions between them
(`InputSource.Delivers`). A feed passes over the interruptions, and a stream hands out its
contents in as many reads as it likes (`HandsOut`). `ImageStream.readChunk` puts the reads together
again, so that each chunk is the next stretch of the contents (`ImageStream.readChunk_handsOut`),
however the source was cut.

The contents of a plain image are the bytes of its source. Those of a compressed image are what the
decoder makes of these bytes, if that is a function of them (`Decoder.IsFunction`). So the contents
depend on the bytes alone (`ImageStream.handsOut_of_format`).
-/

namespace RiscvMachine

/-! ## Sources -/

/-- The source hands out the given bytes and then is at its end. No read of it fails, and there
may be interruptions anywhere. -/
inductive InputSource.Delivers : InputSource → ByteArray → Prop
  | finish {position : Nat} : Delivers ⟨[], position⟩ ByteArray.empty
  | interrupted {rest : List InputEvent} {position : Nat} {data : ByteArray} :
      Delivers ⟨rest, 0⟩ data → Delivers ⟨.interrupted :: rest, position⟩ data
  | data {bytes : ByteArray} {rest : List InputEvent} {position : Nat} {data : ByteArray} :
      position < bytes.size → Delivers ⟨rest, 0⟩ data →
      Delivers ⟨.data bytes :: rest, position⟩ (bytes.extract position bytes.size ++ data)

namespace InputSource

/-- A source that hands out some bytes in one piece delivers them. -/
theorem delivers_ofBytes {bytes : ByteArray} (h : 0 < bytes.size) :
    (ofBytes bytes).Delivers bytes := by
  have hend : Delivers ⟨[], 0⟩ ByteArray.empty := .finish
  have hdata := Delivers.data h hend
  rwa [ByteArray.append_empty, ByteArray.extract_zero_size] at hdata

/-- A source that hands out some bytes in two pieces, interrupted between them, delivers them. -/
theorem delivers_cut {bytes : ByteArray} {k : Nat} (hpos : 0 < k) (hlt : k < bytes.size) :
    Delivers
      ⟨[.data (bytes.extract 0 k), .interrupted, .data (bytes.extract k bytes.size)], 0⟩ bytes := by
  have hhead : 0 < (bytes.extract 0 k).size := by
    rw [ByteArray.size_extract]
    omega
  have htail : 0 < (bytes.extract k bytes.size).size := by
    rw [ByteArray.size_extract]
    omega
  have hrest : Delivers ⟨[.interrupted, .data (bytes.extract k bytes.size)], 0⟩
      (bytes.extract k bytes.size) := .interrupted (delivers_ofBytes htail)
  have hdata := Delivers.data hhead hrest
  rwa [ByteArray.extract_zero_size, ByteArray.extract_append_extract, Nat.zero_min,
    Nat.max_eq_right hlt.le, ByteArray.extract_zero_size] at hdata

theorem Delivers.dropInterruptions {events : List InputEvent} {data : ByteArray}
    (h : Delivers ⟨events, 0⟩ data) :
    Delivers ⟨events.dropWhile InputEvent.isInterruption, 0⟩ data := by
  induction events with
  | nil => exact h
  | cons event rest ih =>
      cases h with
      | interrupted h => exact ih h
      | data hposition h => exact .data hposition h

/-- A source without interruptions in front of its next event delivers the same. -/
theorem Delivers.afterInterruptions {s : InputSource} {data : ByteArray} (h : s.Delivers data) :
    s.afterInterruptions.Delivers data := by
  cases h with
  | finish => exact .finish
  | interrupted h => exact h.dropInterruptions
  | data hposition h => exact .data hposition h

theorem not_interrupted_dropWhile (events rest : List InputEvent) :
    events.dropWhile InputEvent.isInterruption ≠ .interrupted :: rest := by
  induction events with
  | nil => exact nofun
  | cons event rest ih =>
      cases event with
      | interrupted => exact ih
      | data bytes => exact nofun
      | failed => exact nofun

theorem not_interrupted_afterInterruptions (s : InputSource) (rest : List InputEvent) :
    s.afterInterruptions.events ≠ .interrupted :: rest := by
  obtain ⟨events, position⟩ := s
  cases events with
  | nil => exact nofun
  | cons event rest' =>
      cases event with
      | interrupted => exact not_interrupted_dropWhile rest' rest
      | data bytes => exact nofun
      | failed => exact nofun

/-- What a read of data answers, whether or not it uses the data up. -/
theorem read_data (bytes : ByteArray) (rest : List InputEvent) (position limit : Nat) :
    ∃ s', InputSource.read limit ⟨.data bytes :: rest, position⟩ =
      (.bytes (bytes.extract position (min bytes.size (position + limit))), s') := by
  by_cases hstop : min bytes.size (position + limit) = bytes.size
  · exact ⟨_, if_pos hstop⟩
  · exact ⟨_, if_neg hstop⟩

/-- A read that is not interrupted answers the next bytes, and no bytes only at the end. -/
theorem Delivers.read {s : InputSource} {data : ByteArray} (h : s.Delivers data)
    (hready : ∀ rest, s.events ≠ .interrupted :: rest) {limit : Nat} (hlimit : 0 < limit) :
    ∃ bytes rest s', InputSource.read limit s = (.bytes bytes, s') ∧ data = bytes ++ rest ∧
      s'.Delivers rest ∧ bytes.size ≤ limit ∧ (bytes.size = 0 → data.size = 0) := by
  cases h with
  | finish => exact ⟨_, _, _, rfl, rfl, .finish, Nat.zero_le _, fun _ => rfl⟩
  | interrupted h => exact absurd rfl (hready _)
  | @data bytes rest position data hposition h =>
      by_cases hstop : bytes.size ≤ position + limit
      · have hmin : min bytes.size (position + limit) = bytes.size := Nat.min_eq_left hstop
        have hsize : (bytes.extract position bytes.size).size = bytes.size - position := by simp
        refine ⟨bytes.extract position bytes.size, data, ⟨rest, 0⟩, ?_, rfl, h, by omega, by omega⟩
        simp only [InputSource.read, hmin, if_pos]
      · have hmin : min bytes.size (position + limit) = position + limit :=
          Nat.min_eq_right (Nat.le_of_not_le hstop)
        have hsize : (bytes.extract position (position + limit)).size = limit := by
          rw [ByteArray.size_extract]
          omega
        refine ⟨bytes.extract position (position + limit),
          bytes.extract (position + limit) bytes.size ++ data,
          ⟨.data bytes :: rest, position + limit⟩, ?_, ?_, .data (by omega) h, by omega, by omega⟩
        · simp only [InputSource.read, hmin]
          rw [if_neg (by omega)]
        · rw [← ByteArray.append_assoc, ByteArray.extract_append_extract,
            Nat.min_eq_left (by omega), Nat.max_eq_right (by omega)]

end InputSource

/-! ## Feeds -/

namespace Feed

/-- The feed has handed out a part of the bytes, and its source delivers the rest. -/
def Carries (feed : Feed) (data : ByteArray) : Prop :=
  ∃ rest, data = feed.input ++ rest ∧ feed.source.Delivers rest

/-- Reading on adds the next bytes to the input, and none only at the end. -/
theorem Carries.more {feed : Feed} {data : ByteArray} (h : feed.Carries data) :
    ∃ any feed', Feed.more feed = .ok any feed' ∧ feed'.Carries data ∧
      feed.input.size ≤ feed'.input.size ∧
      (feed'.input.size = feed.input.size → data = feed.input) := by
  obtain ⟨source, input⟩ := feed
  obtain ⟨rest, rfl, hrest⟩ := h
  obtain ⟨bytes, rest', source', hread, rfl, hrest', -, hend⟩ :=
    hrest.afterInterruptions.read (InputSource.not_interrupted_afterInterruptions source)
      (show 0 < readSize by decide)
  refine ⟨!bytes.isEmpty, ⟨source', input ++ bytes⟩, ?_, ⟨rest', ?_, hrest'⟩, ?_, ?_⟩
  · simp only [Feed.more, hread]
  · exact (ByteArray.append_assoc).symm
  · rw [ByteArray.size_append]
    exact Nat.le_add_right _ _
  · intro hsize
    simp only [ByteArray.size_append] at hsize
    have hnone : (bytes ++ rest').size = 0 := hend (by omega)
    simp only [ByteArray.size_eq_zero_iff.mp hnone, ByteArray.append_empty]

end Feed

/-! ## What is handed out -/

section

variable {S : Type} {reader : Nat → EStateM Unit S ByteArray} {contents : ByteArray} {intact : Prop}

/-- A read of at most `limit` bytes answers the next bytes of the contents, and what is left is
handed out later. Behind the contents comes their end if the image is intact, and a failure if it
is not. -/
def Answers (hands : ByteArray → S → Prop) (contents : ByteArray) (intact : Prop) (limit : Nat) :
    EStateM.Result Unit S ByteArray → Prop :=
  Ends
    (fun bytes s => bytes.size ≤ limit ∧ (bytes.size = 0 → contents.size = 0 ∧ intact) ∧
      ∃ rest, contents = bytes ++ rest ∧ hands rest s)
    (fun _ _ => contents.size = 0 ∧ ¬ intact)

theorem Answers.mono {hands hands' : ByteArray → S → Prop} {limit : Nat}
    {result : EStateM.Result Unit S ByteArray} (hhands : ∀ rest s, hands rest s → hands' rest s)
    (h : Answers hands contents intact limit result) :
    Answers hands' contents intact limit result := by
  cases h with
  | ok h =>
      obtain ⟨hsize, hend, rest, hcontents, hrest⟩ := h
      exact .ok ⟨hsize, hend, rest, hcontents, hhands _ _ hrest⟩
  | error h => exact .error h

/-- Reads answer as they should, and what is left is handed out again. -/
def KeepsHanding (reader : Nat → EStateM Unit S ByteArray) (intact : Prop)
    (hands : ByteArray → S → Prop) : Prop :=
  ∀ contents s, hands contents s → ∀ limit, 0 < limit →
    Answers hands contents intact limit (reader limit s)

/-- What hands out the contents in as many reads as it likes, and then their end or a failure. -/
def HandsOut (reader : Nat → EStateM Unit S ByteArray) (contents : ByteArray) (intact : Prop)
    (s : S) : Prop :=
  ∃ hands, KeepsHanding reader intact hands ∧ hands contents s

theorem HandsOut.read {s : S} (h : HandsOut reader contents intact s) {limit : Nat}
    (hlimit : 0 < limit) :
    Answers (fun rest s' => HandsOut reader rest intact s') contents intact limit
      (reader limit s) := by
  obtain ⟨hands, hkeeps, hnow⟩ := h
  exact (hkeeps contents s hnow limit hlimit).mono fun _ _ hrest => ⟨hands, hkeeps, hrest⟩

end

/-- A reader that does as another one does, on states that contain those of the other. -/
theorem HandsOut.embed {S T : Type} {reader : Nat → EStateM Unit S ByteArray}
    {reader' : Nat → EStateM Unit T ByteArray} {contents : ByteArray} {intact : Prop} {s : S}
    (into : S → T)
    (hreader : ∀ limit s, reader' limit (into s) =
      match reader limit s with
      | .ok bytes s => .ok bytes (into s)
      | .error failure s => .error failure (into s))
    (h : HandsOut reader contents intact s) : HandsOut reader' contents intact (into s) := by
  obtain ⟨hands, hkeeps, hnow⟩ := h
  refine ⟨fun c t => ∃ s, t = into s ∧ hands c s, ?_, s, rfl, hnow⟩
  rintro c _ ⟨s, rfl, hs⟩ limit hlimit
  have hread := hkeeps c s hs limit hlimit
  rw [hreader]
  revert hread
  cases reader limit s with
  | error failure s' => exact fun hread => .error hread.of_error
  | ok bytes s' =>
      intro hread
      obtain ⟨hsize, hend, rest, hcontents, hrest⟩ := hread.of_ok
      exact .ok ⟨hsize, hend, rest, hcontents, s', rfl, hrest⟩

/-! ## Streams -/

namespace ImageStream

variable {decoders : Decoders} {contents : ByteArray} {intact : Prop}
  {stream : ImageStream decoders}

/-- `chunk` is the next stretch of the contents, `size` bytes or as many as there are. -/
structure Cuts (contents : ByteArray) (size : Nat) (chunk rest : ByteArray) : Prop where
  append : contents = chunk ++ rest
  size : chunk.size = min size contents.size

theorem Cuts.none (contents : ByteArray) : Cuts contents 0 ByteArray.empty contents :=
  ⟨ByteArray.empty_append.symm, by simp⟩

theorem Cuts.behind {contents bytes contents' chunk rest : ByteArray} {size : Nat}
    (hcontents : contents = bytes ++ contents') (hbytes : bytes.size ≤ size)
    (h : Cuts contents' (size - bytes.size) chunk rest) :
    Cuts contents size (bytes ++ chunk) rest := by
  have hsize := h.size
  constructor
  · rw [hcontents, h.append, ByteArray.append_assoc]
  · rw [hcontents, ByteArray.size_append, ByteArray.size_append]
    omega

/-- There is one way only to cut the next stretch off. -/
theorem Cuts.unique {contents chunk chunk' rest rest' : ByteArray} {size : Nat}
    (h : Cuts contents size chunk rest) (h' : Cuts contents size chunk' rest') :
    chunk = chunk' ∧ rest = rest' :=
  (ByteArray.append_eq_append_iff_of_size_eq_left (h.size.trans h'.size.symm)).mp
    (h.append.symm.trans h'.append)

/-- Reading a stretch of `size` bytes behind `filled`: it is the next stretch of the contents. It
fails if that runs into the end of an image that is not intact. -/
def ReadsOn (contents : ByteArray) (intact : Prop) (size : Nat) (filled : ByteArray) :
    EStateM.Result Unit (ImageStream decoders) ByteArray → Prop :=
  Ends
    (fun bytes stream' => ∃ chunk rest, bytes = filled ++ chunk ∧ Cuts contents size chunk rest ∧
      (contents.size < size → intact) ∧ HandsOut read rest intact stream')
    (fun _ _ => contents.size < size ∧ ¬ intact)

theorem ReadsOn.none (h : HandsOut read contents intact stream) (filled : ByteArray) :
    ReadsOn contents intact 0 filled (.ok filled stream) :=
  .ok ⟨_, contents, ByteArray.append_empty.symm, .none contents, nofun, h⟩

theorem ReadsOn.behind {contents' bytes filled : ByteArray} {size : Nat}
    {result : EStateM.Result Unit (ImageStream decoders) ByteArray}
    (hcontents : contents = bytes ++ contents') (hbytes : bytes.size ≤ size)
    (h : ReadsOn contents' intact (size - bytes.size) (filled ++ bytes) result) :
    ReadsOn contents intact size filled result := by
  have hsize : contents.size = bytes.size + contents'.size := by
    rw [hcontents, ByteArray.size_append]
  cases h with
  | ok h =>
      obtain ⟨chunk, rest, rfl, hcuts, hintact, hrest⟩ := h
      exact .ok ⟨bytes ++ chunk, rest, ByteArray.append_assoc, hcuts.behind hcontents hbytes,
        fun hshort => hintact (by omega), hrest⟩
  | error h => exact .error ⟨by have := h.1; omega, h.2⟩

theorem fill_handsOut {size fuel : Nat} {filled : ByteArray} (hfuel : size - filled.size ≤ fuel)
    (h : HandsOut read contents intact stream) :
    ReadsOn contents intact (size - filled.size) filled (fill size fuel filled stream) := by
  -- what has been filled grows as the contents shrink
  induction fuel generalizing filled contents stream with
  | zero =>
      rw [Nat.le_zero.mp hfuel]
      exact .none h filled
  | succ fuel ih =>
      unfold fill
      by_cases hle : size ≤ filled.size
      · rw [if_pos hle, Nat.sub_eq_zero_of_le hle]
        exact .none h filled
      rw [if_neg hle]
      have hread := h.read (show 0 < size - filled.size by omega)
      simp only [bind, EStateM.bind]
      revert hread
      cases read (size - filled.size) stream with
      | error failure stream' =>
          intro hread
          obtain ⟨hend, hbroken⟩ := hread.of_error
          exact .error ⟨by omega, hbroken⟩
      | ok bytes stream' =>
          intro hread
          obtain ⟨hbytes, hend, contents', hcontents, hrest⟩ := hread.of_ok
          simp only
          by_cases hempty : bytes.size = 0
          · -- nothing is left
            obtain ⟨hnone, hintact⟩ := hend hempty
            rw [if_pos (by simpa [ByteArray.isEmpty] using hempty)]
            obtain rfl := ByteArray.size_eq_zero_iff.mp hempty
            obtain rfl : contents = contents' := by rw [hcontents, ByteArray.empty_append]
            exact .ok ⟨_, _, ByteArray.append_empty.symm,
              ⟨ByteArray.empty_append.symm, by simp [hnone]⟩, fun _ => hintact, hrest⟩
          · -- every read uses up fuel, and fills up a byte at least
            rw [if_neg (by simpa [ByteArray.isEmpty] using hempty)]
            have hfilled : (filled ++ bytes).size = filled.size + bytes.size :=
              ByteArray.size_append
            have hrestsize : size - filled.size - bytes.size = size - (filled ++ bytes).size := by
              omega
            apply ReadsOn.behind hcontents hbytes
            rw [hrestsize]
            exact ih (by omega) hrest

/-- A chunk is the next stretch of the contents. -/
theorem readChunk_handsOut (size : Nat) (h : HandsOut read contents intact stream) :
    ReadsOn contents intact size ByteArray.empty (readChunk size stream) :=
  fill_handsOut (Nat.sub_le _ _) h

/-! ## Plain images -/

/-- A read of a plain image, once the source has been read if there was need. -/
theorem readPlain_eq (limit delivered : Nat) (feed : Feed) :
    readPlain limit delivered feed =
      let answer (feed : Feed) : EStateM.Result Unit Feed (ByteArray × Nat) :=
        let stop := min feed.input.size (delivered + limit)
        .ok (feed.input.extract delivered stop, stop) feed
      if feed.input.size ≤ delivered then
        match Feed.more feed with
        | .ok _ feed => answer feed
        | .error failure feed => .error failure feed
      else answer feed := by
  simp only [readPlain, bind, EStateM.bind, get, getThe, MonadStateOf.get, EStateM.get]
  split
  · simp only [discard, Functor.discard, Functor.mapConst, EStateM.bind, EStateM.map,
      Function.comp_apply, Function.const]
    cases Feed.more feed <;> rfl
  · rfl

/-- A read of a plain image answers the bytes behind those that have been handed out. -/
theorem readPlain_spec {feed : Feed} {data : ByteArray} (hdata : feed.Carries data)
    {limit delivered : Nat} (hlimit : 0 < limit) (hdelivered : delivered ≤ feed.input.size) :
    ∃ stop feed', readPlain limit delivered feed = .ok (data.extract delivered stop, stop) feed' ∧
      feed'.Carries data ∧ delivered ≤ stop ∧ stop ≤ delivered + limit ∧
      stop ≤ feed'.input.size ∧ (stop = delivered → data.size ≤ delivered) := by
  have hanswer {feed' : Feed} (hcarries : feed'.Carries data) :
      feed'.input.extract delivered (min feed'.input.size (delivered + limit)) =
        data.extract delivered (min feed'.input.size (delivered + limit)) := by
    obtain ⟨rest, hrest, -⟩ := hcarries
    -- the stretch ends in the input
    have hpast : rest.extract (delivered - feed'.input.size)
        (min feed'.input.size (delivered + limit) - feed'.input.size) = ByteArray.empty :=
      ByteArray.extract_eq_empty_iff.mpr (by omega)
    rw [hrest, ByteArray.extract_append, hpast, ByteArray.append_empty]
  rw [readPlain_eq]
  simp only
  by_cases hused : feed.input.size ≤ delivered
  · obtain ⟨any, feed', hmore, hcarries, hgrows, hend⟩ := hdata.more
    rw [if_pos hused, hmore]
    refine ⟨_, feed', by rw [← hanswer hcarries], hcarries, by omega, by omega, by omega,
      fun hstop => ?_⟩
    rw [hend (by omega)]
    exact hused
  · rw [if_neg hused]
    exact ⟨_, feed, by rw [← hanswer hdata], hdata, by omega, by omega, by omega, by omega⟩

/-- The stream of a plain image, and the contents that it has not handed out. -/
def PlainBehind (contents : ByteArray) (stream : ImageStream decoders) : Prop :=
  ∃ delivered data, stream.decoder = .plain delivered ∧ stream.feed.Carries data ∧
    delivered ≤ stream.feed.input.size ∧ contents = data.extract delivered data.size

/-- A plain image hands out what its source delivers, and never fails. -/
theorem plain_keeps : KeepsHanding (@read decoders) True PlainBehind := by
  rintro contents ⟨feed, decoder⟩ ⟨delivered, data, hdecoder, hdata, hdelivered, rfl⟩ limit hlimit
  obtain rfl : decoder = .plain delivered := hdecoder
  obtain ⟨stop, feed', hread, hcarries, hfrom, hlimited, hstop, hend⟩ :=
    readPlain_spec hdata hlimit hdelivered
  have hdatasize : stop ≤ data.size := by
    obtain ⟨rest, rfl, -⟩ := hcarries
    rw [ByteArray.size_append]
    omega
  simp only [read, hread]
  refine .ok ⟨?_, ?_, data.extract stop data.size, ?_, stop, data, rfl, hcarries, hstop, rfl⟩
  · rw [ByteArray.size_extract]
    omega
  · intro hnone
    rw [ByteArray.size_extract] at hnone ⊢
    exact ⟨by have := hend (by omega); omega, trivial⟩
  · rw [ByteArray.extract_append_extract, Nat.min_eq_left hfrom, Nat.max_eq_right hdatasize]

theorem handsOut_plain {feed : Feed} {data : ByteArray} (h : feed.Carries data) :
    HandsOut (@read decoders) data True ⟨feed, .plain 0⟩ :=
  ⟨PlainBehind, plain_keeps, 0, data, rfl, h, Nat.zero_le _, by rw [ByteArray.extract_zero_size]⟩

end ImageStream

/-! ## Compressed images -/

/-- What a decoder makes of the bytes of an image. -/
structure Decoded where
  contents : ByteArray
  /-- The contents are complete. Otherwise there is a failure behind them. -/
  intact : Bool
  deriving DecidableEq

/-- What the decoder hands out is a function of the bytes that it is fed, however they arrive. -/
def Decoder.IsFunction (d : Decoder) : Prop :=
  ∃ decode : ByteArray → Decoded, ∀ feed data, Feed.Carries feed data →
    HandsOut d.read (decode data).contents (decode data).intact (feed, d.start)

structure Decoders.AreFunctions (decoders : Decoders) : Prop where
  gzip : decoders.gzip.IsFunction
  zstd : decoders.zstd.IsFunction

/-! ## Recognising an image -/

inductive ImageFormat
  | plain
  | gzip
  | zstd
  deriving DecidableEq, Repr

namespace ImageFormat

def ofHead (head : ByteArray) : ImageFormat :=
  if Bytes.startsWith head gzipMagic then .gzip
  else if Bytes.startsWith head zstdMagic then .zstd
  else .plain

def magicSize : ImageFormat → Nat
  | plain => 0
  | gzip => gzipMagic.length
  | zstd => zstdMagic.length

def decoder {decoders : Decoders} : ImageFormat → ImageDecoder decoders
  | plain => .plain 0
  | gzip => .gzip decoders.gzip.start
  | zstd => .zstd decoders.zstd.start

theorem decoderFor_eq {decoders : Decoders} (head : ByteArray) :
    @ImageStream.decoderFor decoders head = (ofHead head).decoder := by
  unfold ImageStream.decoderFor ofHead
  split
  · rfl
  · split <;> rfl

theorem startsWith_of_short {head : ByteArray} {lead : List UInt8} (h : head.size < lead.length) :
    Bytes.startsWith head lead = false := by
  rw [Bytes.startsWith, beq_eq_false_iff_ne]
  intro heq
  have hlength := congrArg List.length heq
  rw [Array.length_toList, ByteArray.size_data, ByteArray.size_extract] at hlength
  omega

theorem startsWith_append {head rest : ByteArray} {lead : List UInt8}
    (h : lead.length ≤ head.size) :
    Bytes.startsWith (head ++ rest) lead = Bytes.startsWith head lead := by
  have hpast : rest.extract (0 - head.size) (lead.length - head.size) = ByteArray.empty :=
    ByteArray.extract_eq_empty_iff.mpr (by omega)
  rw [Bytes.startsWith, Bytes.startsWith, ByteArray.extract_append, hpast,
    ByteArray.append_empty]

theorem ofHead_eq_gzip_iff {head : ByteArray} :
    ofHead head = .gzip ↔ Bytes.startsWith head gzipMagic := by
  unfold ofHead
  split
  · exact ⟨fun _ => ‹_›, fun _ => rfl⟩
  · refine ⟨fun h => ?_, fun h => absurd h ‹_›⟩
    split at h <;> cases h

theorem magicSize_ofHead_le {head : ByteArray} (h : zstdMagic.length ≤ head.size)
    (whole : ByteArray) : (ofHead whole).magicSize ≤ head.size := by
  have hzstd : 4 ≤ head.size := h
  cases ofHead whole with
  | plain => exact Nat.zero_le _
  | gzip => exact (show 2 ≤ 4 by decide).trans hzstd
  | zstd => exact hzstd

/-- The first bytes tell the format of the whole if they hold its magic number. Otherwise the
image looks like a plain one. -/
theorem ofHead_eq (head rest : ByteArray) :
    ofHead head =
      if (ofHead (head ++ rest)).magicSize ≤ head.size then ofHead (head ++ rest) else .plain := by
  by_cases hlong : zstdMagic.length ≤ head.size
  · -- both magic numbers lie in the first bytes
    have hgzip : gzipMagic.length ≤ head.size := (show 2 ≤ 4 by decide).trans hlong
    rw [if_pos (magicSize_ofHead_le hlong _)]
    unfold ofHead
    rw [startsWith_append hgzip, startsWith_append hlong]
  · have hzstd := startsWith_of_short (Nat.lt_of_not_le hlong)
    by_cases hstarts : Bytes.startsWith head gzipMagic
    · have hgzip : gzipMagic.length ≤ head.size := by
        by_contra hshort
        rw [startsWith_of_short (Nat.lt_of_not_le hshort)] at hstarts
        cases hstarts
      rw [ofHead_eq_gzip_iff.mpr hstarts,
        ofHead_eq_gzip_iff.mpr ((startsWith_append hgzip).trans hstarts), magicSize, if_pos hgzip]
    · have hplain : ofHead head = .plain := by
        unfold ofHead
        rw [if_neg hstarts, hzstd]
        rfl
      rw [hplain]
      cases hwhole : ofHead (head ++ rest) with
      | plain => exact (if_pos (Nat.zero_le _)).symm
      | gzip =>
          refine (if_neg fun hgzip => hstarts ?_).symm
          exact (startsWith_append hgzip).symm.trans (ofHead_eq_gzip_iff.mp hwhole)
      | zstd => exact (if_neg hlong).symm

end ImageFormat

namespace InputSource

/-- What the first read of a source answers, if it answers bytes. -/
def head? : InputSource → Option ByteArray
  | ⟨[], _⟩ => some ByteArray.empty
  | ⟨.data bytes :: _, position⟩ =>
    some (bytes.extract position (min bytes.size (position + Feed.readSize)))
  | ⟨.interrupted :: _, _⟩ => none
  | ⟨.failed :: _, _⟩ => none

/-- The format that the first read of a source tells, if it answers bytes. -/
def recognized? (s : InputSource) : Option ImageFormat :=
  s.head?.map ImageFormat.ofHead

end InputSource

namespace ImageStream

/-- A stream is made if the first read answers bytes, and these choose the decoder. -/
theorem ofSource?_eq (decoders : Decoders) {s : InputSource} {data : ByteArray}
    (h : s.Delivers data) :
    (s.head? = none ∧ ofSource? decoders s = none) ∨
    ∃ feed, s.head? = some feed.input ∧ feed.Carries data ∧
      ofSource? decoders s = some ⟨feed, (ImageFormat.ofHead feed.input).decoder⟩ := by
  have hnew : (Feed.new s).Carries data := ⟨data, ByteArray.empty_append.symm, h⟩
  obtain ⟨any, feed, hmore, hcarries, -, -⟩ := hnew.more
  have hstream (hready : ∀ rest, s.events ≠ .interrupted :: rest) :
      ofSource? decoders s = some ⟨feed, (ImageFormat.ofHead feed.input).decoder⟩ := by
    rw [← ImageFormat.decoderFor_eq]
    unfold ofSource?
    split
    · exact absurd ‹_› (hready _)
    · rw [hmore]
  cases h with
  | interrupted h => exact .inl ⟨rfl, rfl⟩
  | finish =>
      right
      refine ⟨feed, ?_, hcarries, hstream nofun⟩
      cases hmore
      rfl
  | @data bytes rest position data hposition h =>
      right
      refine ⟨feed, ?_, hcarries, hstream nofun⟩
      obtain ⟨s', hread⟩ := InputSource.read_data bytes rest position Feed.readSize
      simp only [Feed.more, Feed.new, InputSource.afterInterruptions, hread] at hmore
      cases hmore
      exact congrArg some ByteArray.empty_append.symm

/-- The contents of an image depend on its format and its bytes alone. -/
theorem handsOut_of_format {decoders : Decoders} (hdecoders : decoders.AreFunctions)
    (format : ImageFormat) (data : ByteArray) :
    ∃ contents intact, ∀ feed : Feed, feed.Carries data →
      HandsOut (@read decoders) contents intact ⟨feed, format.decoder⟩ := by
  cases format with
  | plain => exact ⟨data, True, fun feed hfeed => handsOut_plain hfeed⟩
  | gzip =>
      obtain ⟨decode, hdecode⟩ := hdecoders.gzip
      refine ⟨(decode data).contents, (decode data).intact, fun feed hfeed => ?_⟩
      let into (s : Feed × decoders.gzip.State) : ImageStream decoders := ⟨s.1, .gzip s.2⟩
      refine (hdecode feed data hfeed).embed into fun limit s => ?_
      simp only [read, into]
      cases decoders.gzip.read limit s <;> rfl
  | zstd =>
      obtain ⟨decode, hdecode⟩ := hdecoders.zstd
      refine ⟨(decode data).contents, (decode data).intact, fun feed hfeed => ?_⟩
      let into (s : Feed × decoders.zstd.State) : ImageStream decoders := ⟨s.1, .zstd s.2⟩
      refine (hdecode feed data hfeed).embed into fun limit s => ?_
      simp only [read, into]
      cases decoders.zstd.read limit s <;> rfl

end ImageStream

end RiscvMachine
