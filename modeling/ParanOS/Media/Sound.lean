import ParanOS.Media.Wav
import ParanOS.Media.Resample

/-! # Playing WAV files

`sound_play_wav_path` of `kernel.c` from the file that was read on: it parses the file,
resamples to 48 kHz and plays. What the resampler and the driver are passed is a pointer
to the samples in the file's buffer, a number of frames and a number of channels.
-/

namespace ParanOS

open Foundation

/-- Samples of the file that are passed on: where they start, and how many they are. -/
structure PcmPassed where
  data : Nat
  frames : Nat
  channels : Nat
  deriving DecidableEq

/-- The 16-bit words of the buffer from an offset on. -/
def pcmWords (buf : Buffer) (data : Nat) : Nat → UInt16 := fun index =>
  UInt16.ofNat (buf.getU16 (data + 2 * index))

/-- The samples of the file that are passed to `resample_linear_16` and to
`ac97_play_pcm`, in that order. -/
def soundPlayInfo (granted : Nat → Bool) (buf : Buffer) (info : WavInfo) : List PcmPassed :=
  if info.bits ≠ 16 ∨ info.channels = 0 then []
  else
    let frames := info.dataBytes / (info.channels * 2)
    let rate := if info.rate = 0 then 48000 else info.rate
    let passed : PcmPassed := ⟨info.data, frames, info.channels % 256⟩
    if rate = 48000 then [passed]
    else
      match resampleLinear16 granted (pcmWords buf info.data) frames (info.channels % 256) rate
          48000 with
      | some (rframes, _) => if rframes > 0 then [passed] else [passed, passed]
      | none => [passed, passed]

/-- The bytes of the samples. -/
def PcmPassed.bytes (passed : PcmPassed) : Nat := 2 * passed.frames * passed.channels

theorem mem_soundPlayInfo {granted : Nat → Bool} {buf : Buffer} {info : WavInfo}
    {passed : PcmPassed} (member : passed ∈ soundPlayInfo granted buf info) :
    passed = ⟨info.data, info.dataBytes / (info.channels * 2), info.channels % 256⟩ := by
  simp only [soundPlayInfo] at member
  generalize (if info.rate = 0 then 48000 else info.rate) = rate at member
  split at member
  · simp at member
  · split at member
    · simpa using member
    · split at member
      · split at member
        · simpa using member
        · simpa using member
      · simpa using member

/-- Cut to 8 bits, the number of channels is not greater, so the frames fit into the
data. -/
theorem soundPlayInfo_bytes {granted : Nat → Bool} {buf : Buffer} {info : WavInfo}
    {passed : PcmPassed} (member : passed ∈ soundPlayInfo granted buf info) :
    passed.data = info.data ∧ passed.bytes ≤ info.dataBytes := by
  rw [mem_soundPlayInfo member]
  refine ⟨rfl, ?_⟩
  have cut : info.channels % 256 ≤ info.channels := Nat.mod_le _ _
  calc 2 * (info.dataBytes / (info.channels * 2)) * (info.channels % 256)
      ≤ 2 * (info.dataBytes / (info.channels * 2)) * info.channels := Nat.mul_le_mul_left _ cut
    _ = info.dataBytes / (info.channels * 2) * (info.channels * 2) := by ring
    _ ≤ info.dataBytes := Nat.div_mul_le_self _ _

/-- If the parser returns 0, then the data, the bytes it read and the samples passed on
are all in the file exactly when the chunks are in range. -/
theorem soundPlayWav_inside_iff {buf : Buffer} {len fuel : Nat} {info : WavInfo}
    {reads : List Nat} (narrow : len < 4294967296)
    (ran : wavParse len fuel buf = (some (some info), reads)) :
    (WavInside len info reads ∧ ∀ granted, ∀ passed ∈ soundPlayInfo granted buf info,
      passed.data + passed.bytes ≤ len) ↔ WavInRange buf len := by
  rw [← wavParse_inside_iff narrow ran]
  constructor
  · intro both
    exact both.1
  · intro inside
    refine ⟨inside, ?_⟩
    intro granted passed member
    rcases soundPlayInfo_bytes member with ⟨data, bytes⟩
    have ends := inside.inside
    omega

/-- A file of one sample. -/
def fineWav : Buffer := Buffer.ofList
  [0x52, 0x49, 0x46, 0x46, 0x26, 0, 0, 0, 0x57, 0x41, 0x56, 0x45,
    0x66, 0x6D, 0x74, 0x20, 16, 0, 0, 0, 1, 0, 1, 0, 0x80, 0xBB, 0, 0, 0, 0x77, 1, 0, 2, 0, 16, 0,
    0x64, 0x61, 0x74, 0x61, 2, 0, 0, 0, 0x34, 0x12]

theorem fineWav_unwrapped : ChunksUnwrapped fineWav 46 := by
  intro index reached header
  match index with
  | 0 => decide
  | 1 => decide
  | 2 => exact absurd header (by decide)
  | index + 3 => exact absurd (reached 2 (by omega)) (by decide)

theorem soundPlayWav_inside_fine :
    WavInside 46 ⟨48000, 1, 16, 44, 2⟩ (wavParse 46 3 fineWav).2 ∧
      ∀ granted, ∀ passed ∈ soundPlayInfo granted fineWav ⟨48000, 1, 16, 44, 2⟩,
        passed.data + passed.bytes ≤ 46 := by
  have ran : wavParse 46 3 fineWav =
      (some (some ⟨48000, 1, 16, 44, 2⟩), (wavParse 46 3 fineWav).2) := by decide
  exact (soundPlayWav_inside_iff (by decide) ran).mpr fineWav_unwrapped.inRange

/-- A file of 44 bytes whose data chunk has a size of 2^32 - 40. -/
def wrappedWav : Buffer := Buffer.ofList
  [0x52, 0x49, 0x46, 0x46, 0x24, 0, 0, 0, 0x57, 0x41, 0x56, 0x45,
    0x66, 0x6D, 0x74, 0x20, 16, 0, 0, 0, 1, 0, 1, 0, 0x80, 0xBB, 0, 0, 0, 0x77, 1, 0, 2, 0, 16, 0,
    0x64, 0x61, 0x74, 0x61, 0xD8, 0xFF, 0xFF, 0xFF]

/-- The parser accepts it and reports almost 4 GiB of data behind its end. -/
theorem wavParse_passes_end :
    ¬ ∀ (buf : Buffer) (len fuel : Nat) (info : WavInfo) (reads : List Nat), len < 4294967296 →
      wavParse len fuel buf = (some (some info), reads) →
      WavInside len info reads ∧ ∀ granted, ∀ passed ∈ soundPlayInfo granted buf info,
        passed.data + passed.bytes ≤ len := by
  intro claim
  have ran : wavParse 44 3 wrappedWav =
      (some (some ⟨48000, 1, 16, 44, 4294967256⟩), (wavParse 44 3 wrappedWav).2) := by decide
  have inside := (claim wrappedWav 44 3 _ _ (by decide) ran).1.inside
  exact absurd inside (by decide)

end ParanOS
