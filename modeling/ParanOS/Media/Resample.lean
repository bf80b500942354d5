import ParanOS.Mm.Vmm

/-! # The resampler

`resample_linear_16` of `kernel.c`: linear interpolation between neighbouring frames in
32.32 fixed point. It computes with the 16-bit words of the samples as unsigned
numbers, while WAV files and the sound hardware take them as signed ones. What it
writes for a sample lies between its neighbours as unsigned numbers; as signed ones it
does except at some fractions between samples of different sign.
-/

namespace ParanOS

open Foundation

/-! ## The code -/

/-- What is computed for one sample of a frame: the words of the two neighbours and
the fraction between them. -/
structure ResampleTap where
  left : Nat
  right : Nat
  frac : Nat
  deriving DecidableEq

def ResampleTap.sample (tap : ResampleTap) : Nat :=
  u32 (u64 (u64 (tap.left * (0x100000000 - tap.frac)) + u64 (tap.right * tap.frac)) / 4294967296)
    % 65536

/-- A store into the output: the index, what was stored, and from what. -/
structure ResampleWrite where
  index : Nat
  tap : ResampleTap
  value : Nat
  deriving DecidableEq

/-- The body of the channel loop at a position. -/
def resampleTap (src : Nat → UInt16) (srcFrames channels pos c : Nat) : ResampleTap :=
  let idx := u32 (pos / 4294967296)
  let idx := if idx ≥ srcFrames then u32 (srcFrames + 4294967295) else idx
  let frac := pos % 4294967296
  let s0 := (src (u32 (u32 (idx * channels) + c))).toNat
  let s1 := if u32 (idx + 1) < srcFrames then
    (src (u32 (u32 (u32 (idx + 1) * channels) + c))).toNat else s0
  ⟨s0, s1, frac⟩

/-- The frame loop from frame `i` on, `count` frames. -/
def resampleFrames (src : Nat → UInt16) (srcFrames channels step : Nat) :
    (count i pos : Nat) → List ResampleWrite
  | 0, _, _ => []
  | count + 1, i, pos =>
      ((List.range channels).map fun c =>
        let tap := resampleTap src srcFrames channels pos c
        ⟨u64 (u64 (i * channels) + c), tap, tap.sample⟩) ++
        resampleFrames src srcFrames channels step count (i + 1) (u64 (pos + step))

def resampleOframes (srcFrames srcRate dstRate : Nat) : Nat :=
  u64 (u64 (srcFrames * dstRate) + srcRate / 2) / srcRate

def resampleStep (srcRate dstRate : Nat) : Nat := u64 (srcRate * 4294967296) / dstRate

/-- The number of frames and the stores, or `none` where the source returns a null
pointer. `granted` is whether `kmalloc` has that many bytes. -/
def resampleLinear16 (granted : Nat → Bool) (src : Nat → UInt16)
    (srcFrames channels srcRate dstRate : Nat) : Option (Nat × List ResampleWrite) :=
  if srcFrames = 0 ∨ srcRate = 0 ∨ dstRate = 0 ∨ (channels ≠ 1 ∧ channels ≠ 2) then none
  else
    let oframes := resampleOframes srcFrames srcRate dstRate
    if oframes = 0 then none
    else
      let samples := u64 (oframes * channels)
      let bytes := u64 (samples * 2)
      if granted bytes then
        some (u32 oframes,
          resampleFrames src srcFrames channels (resampleStep srcRate dstRate) oframes 0 0)
      else none

/-! ## Samples as signed numbers -/

def signed16 (word : Nat) : Int := if word < 32768 then word else word - 65536

def Between (first second value : Int) : Prop :=
  min first second ≤ value ∧ value ≤ max first second

/-- The neighbours have the same sign, or the interpolation of their words has not left
the left one yet or has come to the right one already. -/
def ResampleTap.Ordered (tap : ResampleTap) : Prop :=
  (tap.left < 32768 ↔ tap.right < 32768) ∨
  (tap.left < 32768 ∧ 32768 ≤ tap.right ∧ (tap.right - tap.left) * tap.frac < 4294967296) ∨
  (tap.right < 32768 ∧ 32768 ≤ tap.left ∧
    (tap.frac = 0 ∨ (tap.left - tap.right - 1) * 4294967296 < (tap.left - tap.right) * tap.frac))

/-- Words of 16 bits and a fraction of 32. -/
structure ResampleTap.Narrow (tap : ResampleTap) : Prop where
  left : tap.left < 65536
  right : tap.right < 65536
  frac : tap.frac < 4294967296

section

variable {tap : ResampleTap} (narrow : tap.Narrow)
include narrow

theorem ResampleTap.Narrow.sample_eq :
    tap.sample = (tap.left * (4294967296 - tap.frac) + tap.right * tap.frac) / 4294967296 := by
  have frac := narrow.frac
  have left : tap.left * (4294967296 - tap.frac) ≤ 65535 * (4294967296 - tap.frac) :=
    Nat.mul_le_mul_right _ (by have bound := narrow.left; omega)
  have right : tap.right * tap.frac ≤ 65535 * tap.frac :=
    Nat.mul_le_mul_right _ (by have bound := narrow.right; omega)
  have total : 65535 * (4294967296 - tap.frac) + 65535 * tap.frac = 65535 * 4294967296 := by omega
  simp only [ResampleTap.sample, u64, u32]
  omega

/-- Towards a greater word the sample starts at the left word. -/
theorem ResampleTap.Narrow.sample_rising (rising : tap.left ≤ tap.right) :
    tap.sample = tap.left + (tap.right - tap.left) * tap.frac / 4294967296 := by
  have frac := narrow.frac
  have split : tap.left * (4294967296 - tap.frac) + tap.right * tap.frac =
      tap.left * 4294967296 + (tap.right - tap.left) * tap.frac := by
    have whole : tap.left * (4294967296 - tap.frac) + tap.left * tap.frac =
        tap.left * 4294967296 := by
      rw [← Nat.mul_add, Nat.sub_add_cancel (by omega)]
    have right : tap.right * tap.frac =
        tap.left * tap.frac + (tap.right - tap.left) * tap.frac := by
      rw [← Nat.add_mul, Nat.add_sub_cancel' rising]
    omega
  rw [narrow.sample_eq, split]
  omega

/-- Towards a smaller word the sample lies the fraction, rounded up, below the left
word. -/
theorem ResampleTap.Narrow.sample_falling (falling : tap.right ≤ tap.left) :
    tap.sample =
      (tap.left * 4294967296 - (tap.left - tap.right) * tap.frac) / 4294967296 := by
  have frac := narrow.frac
  have split : tap.left * (4294967296 - tap.frac) + tap.right * tap.frac +
      (tap.left - tap.right) * tap.frac = tap.left * 4294967296 := by
    have left : tap.right * tap.frac + (tap.left - tap.right) * tap.frac =
        tap.left * tap.frac := by
      rw [← Nat.add_mul, Nat.add_sub_cancel' falling]
    have whole : tap.left * (4294967296 - tap.frac) + tap.left * tap.frac =
        tap.left * 4294967296 := by
      rw [← Nat.mul_add, Nat.sub_add_cancel (by omega)]
    omega
  rw [narrow.sample_eq, ← split, Nat.add_sub_cancel]

/-- The word of the sample lies between the words of its neighbours. -/
theorem ResampleTap.Narrow.sample_unsigned :
    min tap.left tap.right ≤ tap.sample ∧ tap.sample ≤ max tap.left tap.right := by
  have frac := narrow.frac
  rcases Nat.le_total tap.left tap.right with rising | falling
  · have part : (tap.right - tap.left) * tap.frac ≤ (tap.right - tap.left) * 4294967295 :=
      Nat.mul_le_mul_left _ (by omega)
    rw [narrow.sample_rising rising]
    omega
  · have part : (tap.left - tap.right) * tap.frac ≤ (tap.left - tap.right) * 4294967295 :=
      Nat.mul_le_mul_left _ (by omega)
    rw [narrow.sample_falling falling]
    omega

/-- As signed numbers it does exactly when the tap is ordered. -/
theorem ResampleTap.Narrow.between_iff :
    Between (signed16 tap.left) (signed16 tap.right) (signed16 tap.sample) ↔ tap.Ordered := by
  have frac := narrow.frac
  have left := narrow.left
  have right := narrow.right
  have unsigned := narrow.sample_unsigned
  simp only [Between, ResampleTap.Ordered, signed16]
  by_cases leftSign : tap.left < 32768
  · by_cases rightSign : tap.right < 32768
    · simp only [leftSign, rightSign, if_true, iff_self, true_or, iff_true]
      rw [if_pos (by omega)]
      omega
    · have sample := narrow.sample_rising (by omega)
      have part : (tap.right - tap.left) * tap.frac ≤ (tap.right - tap.left) * 4294967295 :=
        Nat.mul_le_mul_left _ (by omega)
      simp only [leftSign, rightSign, if_true, if_false, iff_false, not_true_eq_false, false_or,
        true_and, false_and, or_false]
      generalize (tap.right - tap.left) * tap.frac = moved at sample part ⊢
      split
      · omega
      · omega
  · by_cases rightSign : tap.right < 32768
    · have sample := narrow.sample_falling (by omega)
      have part : (tap.left - tap.right) * tap.frac ≤ (tap.left - tap.right) * 4294967295 :=
        Nat.mul_le_mul_left _ (by omega)
      have still : tap.frac = 0 ↔ (tap.left - tap.right) * tap.frac = 0 := by
        rw [Nat.mul_eq_zero]
        omega
      simp only [leftSign, rightSign, if_true, if_false, iff_true, false_or, true_and,
        false_and, still]
      generalize (tap.left - tap.right) * tap.frac = moved at sample part ⊢
      split
      · omega
      · omega
    · simp only [leftSign, rightSign, if_false, iff_self, true_or, iff_true]
      rw [if_neg (by omega)]
      omega

end

/-! ## All samples of a sound -/

/-- What holds of all samples of the input holds of the neighbours. -/
theorem resampleTap_words {src : Nat → UInt16} {Holds : Nat → Prop}
    (words : ∀ index, Holds (src index).toNat) (srcFrames channels pos c : Nat) :
    Holds (resampleTap src srcFrames channels pos c).left ∧
      Holds (resampleTap src srcFrames channels pos c).right := by
  simp only [resampleTap]
  generalize (if u32 (pos / 4294967296) ≥ srcFrames then u32 (srcFrames + 4294967295)
    else u32 (pos / 4294967296)) = idx
  refine ⟨words _, ?_⟩
  split
  · exact words _
  · exact words _

theorem resampleTap_narrow (src : Nat → UInt16) (srcFrames channels pos c : Nat) :
    (resampleTap src srcFrames channels pos c).Narrow := by
  have words := @resampleTap_words src (· < 65536) (fun index => UInt16.toNat_lt _) srcFrames
    channels pos c
  exact ⟨words.1, words.2, Nat.mod_lt _ (by omega)⟩

/-- The tap of a sample by its frame and channel. -/
def resampleTapAt (src : Nat → UInt16) (srcFrames channels step frame c : Nat) : ResampleTap :=
  resampleTap src srcFrames channels (u64 (frame * step)) c

theorem mem_resampleFrames {src : Nat → UInt16} {srcFrames channels step count i : Nat}
    {write : ResampleWrite} :
    write ∈ resampleFrames src srcFrames channels step count i (u64 (i * step)) ↔
      ∃ frame, i ≤ frame ∧ frame < i + count ∧ ∃ c < channels,
        write = ⟨u64 (u64 (frame * channels) + c),
          resampleTapAt src srcFrames channels step frame c,
          (resampleTapAt src srcFrames channels step frame c).sample⟩ := by
  induction count generalizing i with
  | zero =>
      simp only [resampleFrames, List.not_mem_nil, false_iff]
      rintro ⟨frame, above, below, _⟩
      omega
  | succ count induction =>
      have next : u64 (u64 (i * step) + step) = u64 ((i + 1) * step) := by
        simp only [u64, Nat.mod_add_mod, Nat.add_mul, Nat.one_mul]
      rw [resampleFrames, next, List.mem_append, induction]
      simp only [List.mem_map, List.mem_range]
      constructor
      · intro member
        cases member with
        | inl here =>
            rcases here with ⟨c, inside, rfl⟩
            exact ⟨i, Nat.le_refl i, by omega, c, inside, rfl⟩
        | inr later =>
            rcases later with ⟨frame, above, below, rest⟩
            exact ⟨frame, by omega, by omega, rest⟩
      · rintro ⟨frame, above, below, c, inside, equal⟩
        by_cases first : frame = i
        · rw [first] at equal
          exact .inl ⟨c, inside, equal.symm⟩
        · exact .inr ⟨frame, by omega, by omega, c, inside, equal⟩

theorem of_resampleLinear16 {granted : Nat → Bool} {src : Nat → UInt16}
    {srcFrames channels srcRate dstRate outFrames : Nat} {writes : List ResampleWrite}
    (ran : resampleLinear16 granted src srcFrames channels srcRate dstRate =
      some (outFrames, writes)) :
    outFrames = u32 (resampleOframes srcFrames srcRate dstRate) ∧
      writes = resampleFrames src srcFrames channels (resampleStep srcRate dstRate)
        (resampleOframes srcFrames srcRate dstRate) 0 0 := by
  simp only [resampleLinear16] at ran
  split at ran
  · simp at ran
  · split at ran
    · simp at ran
    · split at ran
      · simp only [Option.some.injEq, Prod.mk.injEq] at ran
        exact ⟨ran.1.symm, ran.2.symm⟩
      · simp at ran

/-- All samples of the output lie between their neighbours, as signed numbers, exactly
when the taps of all frames and channels are ordered. -/
theorem resampleLinear16_between_iff {granted : Nat → Bool} {src : Nat → UInt16}
    {srcFrames channels srcRate dstRate outFrames : Nat} {writes : List ResampleWrite}
    (ran : resampleLinear16 granted src srcFrames channels srcRate dstRate =
      some (outFrames, writes)) :
    (∀ write ∈ writes, Between (signed16 write.tap.left) (signed16 write.tap.right)
      (signed16 write.value)) ↔
      ∀ frame < resampleOframes srcFrames srcRate dstRate, ∀ c < channels,
        (resampleTapAt src srcFrames channels (resampleStep srcRate dstRate) frame c).Ordered := by
  have zero : u64 (0 * resampleStep srcRate dstRate) = 0 := by simp [u64]
  have members := @mem_resampleFrames src srcFrames channels (resampleStep srcRate dstRate)
    (resampleOframes srcFrames srcRate dstRate) 0
  simp only [zero, Nat.zero_le, true_and, Nat.zero_add] at members
  have tap : ∀ frame c, (resampleTapAt src srcFrames channels (resampleStep srcRate dstRate) frame
      c).Narrow := fun frame c => resampleTap_narrow src srcFrames channels _ c
  rw [(of_resampleLinear16 ran).2]
  constructor
  · intro between frame below c inside
    exact (tap frame c).between_iff.mp (between _ (members.mpr ⟨frame, below, c, inside, rfl⟩))
  · intro ordered write member
    rcases members.mp member with ⟨frame, below, c, inside, rfl⟩
    exact (tap frame c).between_iff.mpr (ordered frame below c inside)

/-- Two frames of a rising tone at half the output rate. -/
def risingTone : Nat → UInt16 := fun index => if index = 0 then 100 else 200

theorem resampleLinear16_between_rising :
    ∃ writes, resampleLinear16 (fun _ => true) risingTone 2 1 24000 48000 = some (4, writes) ∧
      ∀ write ∈ writes, Between (signed16 write.tap.left) (signed16 write.tap.right)
        (signed16 write.value) := by
  have ran : resampleLinear16 (fun _ => true) risingTone 2 1 24000 48000 =
      some (4, resampleFrames risingTone 2 1 (resampleStep 24000 48000)
        (resampleOframes 2 24000 48000) 0 0) := rfl
  refine ⟨_, ran, (resampleLinear16_between_iff ran).mpr ?_⟩
  intro frame below c inside
  left
  have words : ∀ index, (risingTone index).toNat < 32768 := by
    intro index
    rw [risingTone]
    split <;> decide
  have both := @resampleTap_words risingTone (· < 32768) words 2 1
    (u64 (frame * resampleStep 24000 48000)) c
  exact iff_of_true both.1 both.2

/-- Between the samples 1 and -1 the resampler stores -32768. -/
theorem resampleLinear16_leaves_neighbours :
    ¬ ∀ (granted : Nat → Bool) (src : Nat → UInt16)
      (srcFrames channels srcRate dstRate outFrames : Nat) (writes : List ResampleWrite),
      resampleLinear16 granted src srcFrames channels srcRate dstRate = some (outFrames, writes) →
      ∀ write ∈ writes, Between (signed16 write.tap.left) (signed16 write.tap.right)
        (signed16 write.value) := by
  intro claim
  have between := claim (fun _ => true) (fun index => if index = 0 then 1 else 0xFFFF) 2 1 24000
    48000 4 _ rfl ⟨1, ⟨1, 65535, 2147483648⟩, 32768⟩ (by decide)
  exact absurd between.1 (by decide)

end ParanOS
