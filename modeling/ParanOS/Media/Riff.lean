import ParanOS.Foundation.Layout
import ParanOS.Media.Wav

/-! # WAV files as lists of chunks

What a WAV file is: the header and a list of chunks, each with its identifier, its size,
its bytes and, behind an odd number of bytes, a byte that is not counted in the size.
The parser takes the next chunk to start right behind the counted bytes, so it finds
the chunks of every file in which only the last chunk is odd.
-/

namespace ParanOS

open Foundation

/-! ## The file format -/

structure RiffChunk where
  id : UInt32
  data : List UInt8
  pad : UInt8

def RiffChunk.bytes (chunk : RiffChunk) : List UInt8 :=
  le32 chunk.id.toNat ++ (le32 chunk.data.length ++
    (chunk.data ++ if chunk.data.length % 2 = 1 then [chunk.pad] else []))

def riffBody (chunks : List RiffChunk) : List UInt8 := chunks.flatMap RiffChunk.bytes

def riffBytes (chunks : List RiffChunk) : List UInt8 :=
  le32 0x46464952 ++ (le32 (4 + (riffBody chunks).length) ++
    (le32 0x45564157 ++ riffBody chunks))

/-- A list of chunks with one PCM format chunk and one data chunk. -/
structure RiffWav where
  chunks : List RiffChunk
  format : RiffChunk
  data : RiffChunk
  oneFormat : chunks.filter (fun chunk => chunk.id.toNat = wavFmtId) = [format]
  oneData : chunks.filter (fun chunk => chunk.id.toNat = wavDataId) = [data]
  formatLong : 16 ≤ format.data.length
  pcm : (Buffer.ofList format.data).getU16 0 = 1
  bits : (Buffer.ofList format.data).getU16 14 = 8 ∨ (Buffer.ofList format.data).getU16 14 = 16
  dataNonempty : data.data ≠ []
  long : 44 ≤ (riffBytes chunks).length
  narrow : (riffBytes chunks).length < 2147483648

namespace RiffWav

def length (wav : RiffWav) : Nat := (riffBytes wav.chunks).length

/-- Where the bytes of the data chunk start. -/
def dataOffset (wav : RiffWav) : Nat :=
  12 + (riffBody (wav.chunks.takeWhile fun chunk => chunk.id.toNat ≠ wavDataId)).length + 8

/-- What the file says. -/
def info (wav : RiffWav) : WavInfo where
  rate := (Buffer.ofList wav.format.data).getU32 4
  channels := (Buffer.ofList wav.format.data).getU16 2
  bits := (Buffer.ofList wav.format.data).getU16 14
  data := wav.dataOffset
  dataBytes := wav.data.data.length

end RiffWav

/-! ## The chunks in a buffer -/

theorem RiffChunk.bytes_length (chunk : RiffChunk) :
    chunk.bytes.length = 8 + chunk.data.length + chunk.data.length % 2 := by
  have parity := Nat.mod_two_eq_zero_or_one chunk.data.length
  simp only [RiffChunk.bytes, List.length_append, le32_length]
  split
  · simp only [List.length_singleton]
    omega
  · simp only [List.length_nil]
    omega

theorem riffBody_append (first second : List RiffChunk) :
    riffBody (first ++ second) = riffBody first ++ riffBody second :=
  List.flatMap_append

theorem riffBody_cons (chunk : RiffChunk) (rest : List RiffChunk) :
    riffBody (chunk :: rest) = chunk.bytes ++ riffBody rest :=
  List.flatMap_cons

theorem riffBytes_length (chunks : List RiffChunk) :
    (riffBytes chunks).length = 12 + (riffBody chunks).length := by
  simp only [riffBytes, List.length_append, le32_length]
  omega

/-- Where a chunk starts when these are before it. -/
def chunkBoundary (before : List RiffChunk) : Nat := 12 + (riffBody before).length

theorem boundary_append (before : List RiffChunk) (chunk : RiffChunk) :
    chunkBoundary (before ++ [chunk]) =
      chunkBoundary before + 8 + chunk.data.length + chunk.data.length % 2 := by
  have single : riffBody [chunk] = chunk.bytes := List.flatMap_singleton _ _
  rw [chunkBoundary, chunkBoundary, riffBody_append, List.length_append, single,
    RiffChunk.bytes_length]
  omega

theorem boundary_take_succ {chunks : List RiffChunk} {index : Nat} {chunk : RiffChunk}
    (here : chunks[index]? = some chunk) :
    chunkBoundary (chunks.take (index + 1)) =
      chunkBoundary (chunks.take index) + 8 + chunk.data.length + chunk.data.length % 2 := by
  rw [List.take_add_one, here, Option.toList_some, boundary_append]

theorem boundary_take_le (chunks : List RiffChunk) (index : Nat) :
    chunkBoundary (chunks.take index) ≤ (riffBytes chunks).length := by
  have whole : riffBody chunks = riffBody (chunks.take index) ++ riffBody (chunks.drop index) := by
    rw [← riffBody_append, List.take_append_drop]
  rw [riffBytes_length, whole, List.length_append, chunkBoundary]
  omega

theorem split_at {chunks : List RiffChunk} {index : Nat} {chunk : RiffChunk}
    (here : chunks[index]? = some chunk) :
    chunks = chunks.take index ++ chunk :: chunks.drop (index + 1) := by
  rcases List.getElem?_eq_some_iff.mp here with ⟨below, value⟩
  rw [← value, List.getElem_cons_drop, List.take_append_drop]

/-- The fields of a chunk that lies in a buffer. -/
structure ChunkFields (buf : Buffer) (pos : Nat) (chunk : RiffChunk) : Prop where
  id : buf.getU32 pos = chunk.id.toNat
  size : buf.getU32 (pos + 4) = chunk.data.length
  data : buf.Holds (pos + 8) chunk.data

section

variable {wav : RiffWav} {buf : Buffer} (holds : buf.Holds 0 (riffBytes wav.chunks))
include holds

theorem wavTagged_of_holds : WavTagged buf wav.length := by
  rw [riffBytes, Buffer.holds_append, Buffer.holds_append, Buffer.holds_append] at holds
  rcases holds with ⟨riff, _, wave, _⟩
  exact ⟨wav.long, riff.getU32_le32 (by decide), wave.getU32_le32 (by decide)⟩

theorem chunkFields_of_holds {index : Nat} {chunk : RiffChunk}
    (here : wav.chunks[index]? = some chunk) :
    ChunkFields buf (chunkBoundary (wav.chunks.take index)) chunk := by
  have narrow := wav.narrow
  have inside := boundary_take_le wav.chunks (index + 1)
  rw [boundary_take_succ here] at inside
  have body : riffBody wav.chunks =
      riffBody (wav.chunks.take index) ++
        (chunk.bytes ++ riffBody (wav.chunks.drop (index + 1))) := by
    rw [← riffBody_cons, ← riffBody_append, ← split_at here]
  rw [riffBytes, body, RiffChunk.bytes] at holds
  simp only [Buffer.holds_append, le32_length] at holds
  rcases holds with ⟨_, _, _, _, ⟨id, size, data, _⟩, _⟩
  refine ⟨?_, ?_, ?_⟩
  · exact id.getU32_le32 chunk.id.toNat_lt
  · exact size.getU32_le32 (by omega)
  · exact data

/-- Behind a chunk the parser goes on without the byte that is not counted. -/
theorem nextChunk_boundary {index : Nat} {chunk : RiffChunk}
    (here : wav.chunks[index]? = some chunk) :
    nextChunk buf (chunkBoundary (wav.chunks.take index)) =
      chunkBoundary (wav.chunks.take index) + 8 + chunk.data.length := by
  have narrow := wav.narrow
  have inside := boundary_take_le wav.chunks (index + 1)
  rw [boundary_take_succ here] at inside
  have header : chunkBoundary (wav.chunks.take index) + 8 < 4294967296 := by omega
  rw [nextChunk, (chunkFields_of_holds holds here).size, u32_of_lt header, u32_of_lt (by omega)]

end

/-! ## Files with one odd chunk at most, at the end -/

/-- No chunk before the last one has an odd number of bytes. -/
def RiffWav.EvenBeforeLast (wav : RiffWav) : Prop :=
  ∀ chunk ∈ wav.chunks.dropLast, chunk.data.length % 2 = 0

theorem RiffWav.chunks_ne_nil (wav : RiffWav) : wav.chunks ≠ [] := by
  intro empty
  have format := wav.oneFormat
  rw [empty] at format
  simp at format

/-- A format chunk in the list is the format chunk. -/
theorem RiffWav.eq_format {wav : RiffWav} {chunk : RiffChunk} (member : chunk ∈ wav.chunks)
    (kind : chunk.id.toNat = wavFmtId) : chunk = wav.format := by
  have found : chunk ∈ wav.chunks.filter fun chunk => chunk.id.toNat = wavFmtId :=
    List.mem_filter.mpr ⟨member, decide_eq_true kind⟩
  rw [wav.oneFormat] at found
  exact List.mem_singleton.mp found

section

variable {wav : RiffWav} {buf : Buffer} (holds : buf.Holds 0 (riffBytes wav.chunks))
  (even : wav.EvenBeforeLast)
include holds even

/-- The parser's positions are where the chunks start. -/
theorem chunkAt_boundary {index : Nat} (below : index < wav.chunks.length) :
    chunkAt buf index = chunkBoundary (wav.chunks.take index) := by
  induction index with
  | zero => rfl
  | succ index induction =>
      have here := List.getElem?_eq_getElem (show index < wav.chunks.length by omega)
      have early : wav.chunks[index] ∈ wav.chunks.dropLast := by
        have kept : wav.chunks.dropLast[index]? = some wav.chunks[index] := by
          rw [List.getElem?_dropLast, if_pos (by omega), here]
        exact List.mem_of_getElem? kept
      have parity := even _ early
      rw [chunkAt_succ, induction (by omega), nextChunk_boundary holds here,
        boundary_take_succ here, parity]
      rfl

theorem goes_of_even {index : Nat} (below : index < wav.chunks.length) :
    ¬ ChunkEnds buf wav.length (chunkAt buf index) := by
  have here := List.getElem?_eq_getElem below
  have inside := boundary_take_le wav.chunks (index + 1)
  rw [boundary_take_succ here] at inside
  have narrow := wav.narrow
  have size : wav.length = (riffBytes wav.chunks).length := rfl
  rw [chunkAt_boundary holds even below, ChunkEnds, nextChunk_boundary holds here,
    u32_of_lt (by omega), (chunkFields_of_holds holds here).id,
    (chunkFields_of_holds holds here).size]
  intro ends
  rcases ends with header | data | ⟨kind, short⟩
  · omega
  · omega
  · have format := RiffWav.eq_format (List.getElem_mem below) kind
    rw [format] at short
    exact absurd short (Nat.not_lt.mpr wav.formatLong)

/-- Behind the last chunk there is no header. -/
theorem ends_of_even : ChunkEnds buf wav.length (chunkAt buf wav.chunks.length) ∧
    wav.length < u32 (chunkAt buf wav.chunks.length + 8) := by
  have some : 0 < wav.chunks.length := List.length_pos_of_ne_nil wav.chunks_ne_nil
  have below : wav.chunks.length - 1 < wav.chunks.length := by omega
  have here := List.getElem?_eq_getElem below
  have position : chunkAt buf (wav.chunks.length - 1 + 1) =
      chunkBoundary (wav.chunks.take (wav.chunks.length - 1)) + 8 +
        wav.chunks[wav.chunks.length - 1].data.length := by
    rw [chunkAt_succ, chunkAt_boundary holds even below, nextChunk_boundary holds here]
  rw [Nat.sub_add_cancel some] at position
  have total : wav.length = chunkBoundary (wav.chunks.take (wav.chunks.length - 1 + 1)) := by
    rw [Nat.sub_add_cancel some, List.take_length]
    exact riffBytes_length wav.chunks
  rw [boundary_take_succ here] at total
  have narrow : wav.length < 2147483648 := wav.narrow
  have beyond : wav.length < u32 (chunkAt buf wav.chunks.length + 8) := by
    rw [u32_of_lt (by omega)]
    omega
  exact ⟨.inl beyond, beyond⟩

theorem reached_of_even {index : Nat} :
    ChunkReached buf wav.length index ↔ index ≤ wav.chunks.length := by
  constructor
  · intro reached
    by_contra beyond
    exact reached wav.chunks.length (by omega) (ends_of_even holds even).1
  · intro inside earlier below
    exact goes_of_even holds even (by omega)

theorem passed_of_even {id index : Nat} :
    ChunkPassed buf wav.length id index ↔
      ∃ chunk, wav.chunks[index]? = some chunk ∧ chunk.id.toNat = id := by
  rw [ChunkPassed, reached_of_even holds even]
  constructor
  · rintro ⟨inside, kind⟩
    have here := List.getElem?_eq_getElem (show index < wav.chunks.length by omega)
    rw [chunkAt_boundary holds even (by omega), (chunkFields_of_holds holds here).id] at kind
    exact ⟨_, here, kind⟩
  · rintro ⟨chunk, here, kind⟩
    rcases List.getElem?_eq_some_iff.mp here with ⟨below, _⟩
    rw [chunkAt_boundary holds even below, (chunkFields_of_holds holds here).id]
    exact ⟨below, kind⟩

/-- The only chunk of a kind is the last one of the kind that the parser passes. -/
theorem lastPassed_of_even {id : Nat} {chunk : RiffChunk}
    (one : wav.chunks.filter (fun chunk => chunk.id.toNat = id) = [chunk]) :
    ∃ before after, wav.chunks = before ++ chunk :: after ∧ chunk.id.toNat = id ∧
      (∀ other ∈ before, other.id.toNat ≠ id) ∧
      LastChunkPassed buf wav.length id before.length := by
  rcases List.filter_eq_cons_iff.mp one with ⟨before, after, split, others, kind, rest⟩
  have kind : chunk.id.toNat = id := of_decide_eq_true kind
  have here : wav.chunks[before.length]? = some chunk := by
    rw [split, List.getElem?_append_right (Nat.le_refl _), Nat.sub_self]
    rfl
  refine ⟨before, after, split, kind, ?_, (passed_of_even holds even).mpr ⟨chunk, here, kind⟩, ?_⟩
  · intro other member same
    exact others other member (decide_eq_true same)
  · intro later above passed
    rcases (passed_of_even holds even).mp passed with ⟨other, found, same⟩
    rw [split, List.getElem?_append_right (by omega),
      show later - before.length = later - before.length - 1 + 1 by omega,
      List.getElem?_cons_succ] at found
    exact List.filter_eq_nil_iff.mp rest other (List.mem_of_getElem? found) (decide_eq_true same)

theorem chunksUnwrapped_of_even : ChunksUnwrapped buf wav.length := by
  intro index reached header
  have inside := (reached_of_even holds even).mp reached
  by_cases last : index = wav.chunks.length
  · rw [last] at header
    exact absurd header (Nat.not_le.mpr (ends_of_even holds even).2)
  · have below : index < wav.chunks.length := by omega
    have here := List.getElem?_eq_getElem below
    have fits := boundary_take_le wav.chunks (index + 1)
    rw [boundary_take_succ here] at fits
    have narrow := wav.narrow
    rw [chunkAt_boundary holds even below, (chunkFields_of_holds holds here).size]
    omega

/-- The format chunk is the last one that the parser passes. -/
theorem format_of_even : ∃ index, LastChunkPassed buf wav.length wavFmtId index ∧
    formatAt buf (chunkAt buf index) = (1, wav.info.channels, wav.info.rate, wav.info.bits) := by
  rcases lastPassed_of_even holds even wav.oneFormat with ⟨before, after, split, _, _, last⟩
  refine ⟨before.length, last, ?_⟩
  have here : wav.chunks[before.length]? = some wav.format := by
    rw [split, List.getElem?_append_right (Nat.le_refl _), Nat.sub_self]
    rfl
  have below : before.length < wav.chunks.length := (List.getElem?_eq_some_iff.mp here).1
  have fits := boundary_take_le wav.chunks (before.length + 1)
  rw [boundary_take_succ here] at fits
  have narrow := wav.narrow
  have long := wav.formatLong
  have data := (chunkFields_of_holds holds here).data
  have first := data.getU16 (show 0 + 2 ≤ wav.format.data.length by omega)
  rw [Nat.add_zero, wav.pcm] at first
  rw [chunkAt_boundary holds even below, formatAt, u32_of_lt (by omega), first,
    data.getU16 (show 2 + 2 ≤ wav.format.data.length by omega),
    data.getU32 (show 4 + 4 ≤ wav.format.data.length by omega),
    data.getU16 (show 14 + 2 ≤ wav.format.data.length by omega)]
  rfl

/-- The data chunk is the last one that the parser passes. -/
theorem data_of_even : ∃ index, LastChunkPassed buf wav.length wavDataId index ∧
    wav.info.data = u32 (chunkAt buf index + 8) ∧
      wav.info.dataBytes = buf.getU32 (chunkAt buf index + 4) := by
  rcases lastPassed_of_even holds even wav.oneData with ⟨before, after, split, kind, others, last⟩
  refine ⟨before.length, last, ?_⟩
  have here : wav.chunks[before.length]? = some wav.data := by
    rw [split, List.getElem?_append_right (Nat.le_refl _), Nat.sub_self]
    rfl
  have below : before.length < wav.chunks.length := (List.getElem?_eq_some_iff.mp here).1
  have fits := boundary_take_le wav.chunks (before.length + 1)
  rw [boundary_take_succ here] at fits
  have narrow := wav.narrow
  have taken : wav.chunks.take before.length = before := by
    rw [split, List.take_left]
  have first : (wav.chunks.takeWhile fun chunk => chunk.id.toNat ≠ wavDataId) = before := by
    have passed : ∀ other ∈ before, decide (other.id.toNat ≠ wavDataId) = true :=
      fun other member => decide_eq_true (others other member)
    rw [split, List.takeWhile_append_of_pos passed,
      List.takeWhile_cons_of_neg (by simp [kind]), List.append_nil]
  have offset : wav.info.data = chunkBoundary before + 8 := by
    rw [chunkBoundary, ← first]
    rfl
  rw [chunkAt_boundary holds even below, (chunkFields_of_holds holds here).size,
    u32_of_lt (by omega), offset, taken]
  exact ⟨rfl, rfl⟩

theorem wavFinds_of_even : WavFinds buf wav.length wav.info := by
  refine ⟨(chunksUnwrapped_of_even holds even).not_circle, ?_, format_of_even holds even,
    data_of_even holds even, wav.bits, ?_⟩
  · intro index reached short
    have inside := (reached_of_even holds even).mp reached
    by_cases last : index = wav.chunks.length
    · rw [last] at short
      exact absurd short.1 (Nat.not_le.mpr (ends_of_even holds even).2)
    · exact goes_of_even holds even (show index < wav.chunks.length by omega)
        (.inr (.inr short.2.2))
  · exact fun empty => wav.dataNonempty (List.length_eq_zero_iff.mp empty)

end

/-! ## What the parser finds -/

/-- The parser returns 0 with what the file says exactly when the chunks that it comes to
say the same. It does so for every file whose chunks before the last one have even
numbers of bytes. -/
theorem wavParse_riff_iff {wav : RiffWav} {buf : Buffer}
    (holds : buf.Holds 0 (riffBytes wav.chunks)) :
    ((∃ fuel, (wavParse wav.length fuel buf).1 = some (some wav.info)) ↔
      WavFinds buf wav.length wav.info) ∧
    (wav.EvenBeforeLast →
      ∃ fuel, (wavParse wav.length fuel buf).1 = some (some wav.info)) := by
  have exact := wavParse_finds_iff (wavTagged_of_holds holds) wav.info
  exact ⟨exact, fun even => exact.mpr (wavFinds_of_even holds even)⟩

/-- PCM of one channel with 16 bits at 48 kHz. -/
def monoFormat : RiffChunk :=
  ⟨0x20746d66, [1, 0, 1, 0, 0x80, 0xBB, 0, 0, 0, 0x77, 1, 0, 2, 0, 16, 0], 0⟩

/-- One sample. -/
def sampleData : RiffChunk := ⟨0x61746164, [0x34, 0x12], 0⟩

/-- Text of three bytes. -/
def oddText : RiffChunk := ⟨0x5453494C, [0x61, 0x62, 0x63], 0⟩

/-- The sample with the text behind it. -/
def textBehind : RiffWav where
  chunks := [monoFormat, sampleData, oddText]
  format := monoFormat
  data := sampleData
  oneFormat := rfl
  oneData := rfl
  formatLong := by decide
  pcm := by decide
  bits := .inr (by decide)
  dataNonempty := by decide
  long := by decide
  narrow := by decide

theorem wavParse_riff_textBehind :
    ∃ fuel, (wavParse 58 fuel (Buffer.ofList (riffBytes textBehind.chunks))).1 =
      some (some ⟨48000, 1, 16, 44, 2⟩) := by
  have holds := Buffer.holds_ofList (riffBytes textBehind.chunks)
  have even : textBehind.EvenBeforeLast := by
    simp [RiffWav.EvenBeforeLast, textBehind, monoFormat, sampleData]
  exact (wavParse_riff_iff holds).2 even

/-- The sample with the text before the format. -/
def textBefore : RiffWav where
  chunks := [oddText, monoFormat, sampleData]
  format := monoFormat
  data := sampleData
  oneFormat := rfl
  oneData := rfl
  formatLong := by decide
  pcm := by decide
  bits := .inr (by decide)
  dataNonempty := by decide
  long := by decide
  narrow := by decide

/-- Behind the text the parser takes the uncounted byte for the start of the format
chunk. -/
theorem wavParse_misses_format :
    ¬ ∀ (wav : RiffWav) (buf : Buffer), buf.Holds 0 (riffBytes wav.chunks) →
      ∃ fuel, (wavParse wav.length fuel buf).1 = some (some wav.info) := by
  intro claim
  have holds := Buffer.holds_ofList (riffBytes textBefore.chunks)
  have found := claim textBefore _ holds
  rw [wavParse_finds_iff (wavTagged_of_holds holds)] at found
  rcases found.format with ⟨index, ⟨⟨reached, kind⟩, _⟩, _⟩
  cases index with
  | zero => exact absurd kind (by decide)
  | succ index => exact reached 1 (by omega) (by decide)

end ParanOS
