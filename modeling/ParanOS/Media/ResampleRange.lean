import Mathlib.Tactic.Ring
import ParanOS.Media.Resample

/-! # The range of the resampler

Where `resample_linear_16` reads and stores. The position is a 32.32 number that
grows by a rounded step, the number of frames is rounded on its own; together
they stay below the 64 bits of the accumulator for every pair of rates.
-/

namespace ParanOS

open Foundation

/-! ## Positions and indices -/

/-- The accumulator before frame `i`. -/
def resamplePos (step : Nat) : (i : Nat) → Nat
  | 0 => 0
  | i + 1 => u64 (resamplePos step i + step)

/-- `idx` of the frame loop. -/
def resampleIdx (srcFrames pos : Nat) : Nat :=
  let idx := u32 (pos / 4294967296)
  if idx ≥ srcFrames then u32 (srcFrames + 4294967295) else idx

/-- The indices at which the body of the channel loop reads the source. -/
def resampleReads (srcFrames channels pos c : Nat) : List Nat :=
  let idx := resampleIdx srcFrames pos
  u32 (u32 (idx * channels) + c) ::
    if u32 (idx + 1) < srcFrames then [u32 (u32 (u32 (idx + 1) * channels) + c)] else []

theorem resampleTap_eq (src : Nat → UInt16) {srcFrames pos idx : Nat} (channels c : Nat)
    (frame : resampleIdx srcFrames pos = idx) :
    resampleTap src srcFrames channels pos c =
      ⟨(src (u32 (u32 (idx * channels) + c))).toNat,
        if u32 (idx + 1) < srcFrames then
          (src (u32 (u32 (u32 (idx + 1) * channels) + c))).toNat
        else (src (u32 (u32 (idx * channels) + c))).toNat,
        pos % 4294967296⟩ := by
  subst frame
  rfl

/-- The words of a tap come from these indices and no others. -/
theorem resampleTap_congr {src src' : Nat → UInt16} {srcFrames channels pos c : Nat}
    (same : ∀ index ∈ resampleReads srcFrames channels pos c, src' index = src index) :
    resampleTap src' srcFrames channels pos c = resampleTap src srcFrames channels pos c := by
  rw [resampleReads] at same
  rw [resampleTap_eq src' channels c rfl, resampleTap_eq src channels c rfl]
  generalize resampleIdx srcFrames pos = idx at same ⊢
  have left := same _ List.mem_cons_self
  by_cases inside : u32 (idx + 1) < srcFrames
  · have right := same (u32 (u32 (u32 (idx + 1) * channels) + c)) (by simp [inside])
    rw [left, right]
  · rw [if_neg inside, if_neg inside, left]

/-- The stores of a frame. -/
def resampleFrame (src : Nat → UInt16) (srcFrames channels pos i : Nat) : List ResampleWrite :=
  (List.range channels).map fun c =>
    let tap := resampleTap src srcFrames channels pos c
    ⟨u64 (u64 (i * channels) + c), tap, tap.sample⟩

/-- The frame loop goes through the positions. -/
theorem resampleFrames_eq (src : Nat → UInt16) (srcFrames channels step count i : Nat) :
    resampleFrames src srcFrames channels step count i (resamplePos step i) =
      (List.range' i count).flatMap fun frame =>
        resampleFrame src srcFrames channels (resamplePos step frame) frame := by
  induction count generalizing i with
  | zero => rfl
  | succ count induction =>
      rw [resampleFrames, ← resamplePos, induction, List.range'_succ, List.flatMap_cons]
      rfl

/-! ## Bounds -/

/-- What the source is called with: a sound of 1 to 2^31 - 1 frames, and rates of
32 bits. -/
structure ResampleInput (srcFrames channels srcRate dstRate : Nat) : Prop where
  frames : 1 ≤ srcFrames ∧ srcFrames < 2147483648
  mono_or_stereo : channels = 1 ∨ channels = 2
  source : srcRate ≠ 0 ∧ srcRate < 4294967296
  target : dstRate ≠ 0 ∧ dstRate < 4294967296

namespace ResampleInput

variable {srcFrames channels srcRate dstRate : Nat}
  (input : ResampleInput srcFrames channels srcRate dstRate)
include input

theorem product_lt : srcFrames * dstRate < 9223372036854775808 := by
  have frames := input.frames.2
  have target := input.target.2
  have rows : srcFrames * dstRate ≤ 2147483647 * 4294967295 :=
    Nat.mul_le_mul (by omega) (by omega)
  omega

theorem oframes_eq :
    resampleOframes srcFrames srcRate dstRate = (srcFrames * dstRate + srcRate / 2) / srcRate := by
  have product := input.product_lt
  have source := input.source.2
  rw [resampleOframes, u64, u64, Nat.mod_eq_of_lt (show srcFrames * dstRate < _ by omega),
    Nat.mod_eq_of_lt (by omega)]

theorem step_eq : resampleStep srcRate dstRate = srcRate * 4294967296 / dstRate := by
  have source := input.source.2
  rw [resampleStep, u64, Nat.mod_eq_of_lt (by omega)]

/-- All steps together stay below the accumulator's limit. -/
theorem last_pos_lt :
    resampleOframes srcFrames srcRate dstRate * resampleStep srcRate dstRate <
      18446744073709551616 := by
  have frames := input.frames.2
  have source := input.source
  have target := input.target
  have positive : 0 < srcRate := by omega
  have rounded : resampleOframes srcFrames srcRate dstRate * srcRate ≤
      srcFrames * dstRate + srcRate / 2 := by
    rw [input.oframes_eq]
    exact Nat.div_mul_le_self _ _
  have stepped : resampleStep srcRate dstRate * dstRate ≤ srcRate * 4294967296 := by
    rw [input.step_eq]
    exact Nat.div_mul_le_self _ _
  generalize resampleOframes srcFrames srcRate dstRate = oframes at rounded ⊢
  generalize resampleStep srcRate dstRate = step at stepped ⊢
  have scaled : oframes * step * dstRate ≤ (srcFrames * dstRate + srcRate / 2) * 4294967296 := by
    apply Nat.le_of_mul_le_mul_right _ positive
    calc oframes * step * dstRate * srcRate
        = oframes * srcRate * (step * dstRate) := by ring
      _ ≤ (srcFrames * dstRate + srcRate / 2) * (srcRate * 4294967296) :=
          Nat.mul_le_mul rounded stepped
      _ = (srcFrames * dstRate + srcRate / 2) * 4294967296 * srcRate := by ring
  have product : srcFrames * dstRate ≤ 2147483647 * dstRate :=
    Nat.mul_le_mul_right _ (by omega)
  have half : srcRate / 2 ≤ 2147483647 * dstRate := by omega
  apply Nat.lt_of_mul_lt_mul_right (a := dstRate)
  omega

/-- No addition to the position wraps. -/
theorem pos_eq {i : Nat} (reached : i ≤ resampleOframes srcFrames srcRate dstRate) :
    resamplePos (resampleStep srcRate dstRate) i = i * resampleStep srcRate dstRate ∧
      i * resampleStep srcRate dstRate < 18446744073709551616 := by
  have limit := input.last_pos_lt
  have below : i * resampleStep srcRate dstRate ≤
      resampleOframes srcFrames srcRate dstRate * resampleStep srcRate dstRate :=
    Nat.mul_le_mul_right _ reached
  refine ⟨?_, by omega⟩
  clear limit
  induction i with
  | zero => rw [resamplePos, Nat.zero_mul]
  | succ i induction =>
      have limit := input.last_pos_lt
      have earlier := induction (by omega) (Nat.mul_le_mul_right _ (by omega))
      rw [resamplePos, earlier, u64, Nat.add_mul, Nat.one_mul, Nat.mod_eq_of_lt]
      rw [Nat.add_mul, Nat.one_mul] at below
      omega

/-- The frame that is read is the position's, or the last one. -/
theorem idx_eq {i : Nat} (reached : i ≤ resampleOframes srcFrames srcRate dstRate) :
    resampleIdx srcFrames (resamplePos (resampleStep srcRate dstRate) i) =
      min (i * resampleStep srcRate dstRate / 4294967296) (srcFrames - 1) := by
  have frames := input.frames
  have pos := input.pos_eq reached
  rw [resampleIdx, pos.1, u32_of_lt (by omega)]
  simp only [u32]
  split
  · omega
  · omega

theorem idx_lt {i : Nat} (reached : i ≤ resampleOframes srcFrames srcRate dstRate) :
    resampleIdx srcFrames (resamplePos (resampleStep srcRate dstRate) i) < srcFrames := by
  have frames := input.frames.1
  rw [input.idx_eq reached]
  omega

theorem idx_mono {i j : Nat} (ordered : i ≤ j)
    (reached : j ≤ resampleOframes srcFrames srcRate dstRate) :
    resampleIdx srcFrames (resamplePos (resampleStep srcRate dstRate) i) ≤
      resampleIdx srcFrames (resamplePos (resampleStep srcRate dstRate) j) := by
  rw [input.idx_eq (ordered.trans reached), input.idx_eq reached]
  have positions : i * resampleStep srcRate dstRate / 4294967296 ≤
      j * resampleStep srcRate dstRate / 4294967296 :=
    Nat.div_le_div_right (Nat.mul_le_mul_right _ ordered)
  omega

/-- A sample of a frame of the source is at this index, without a wrap. -/
theorem source_index {idx c : Nat} (frame : idx < srcFrames) (channel : c < channels) :
    u32 (u32 (idx * channels) + c) = idx * channels + c ∧
      idx * channels + c < srcFrames * channels := by
  have frames := input.frames.2
  have rows : (idx + 1) * channels ≤ srcFrames * channels := Nat.mul_le_mul_right _ frame
  have total : srcFrames * channels ≤ 2147483647 * 2 :=
    Nat.mul_le_mul (by omega) (by have width := input.mono_or_stereo; omega)
  rw [Nat.add_mul, Nat.one_mul] at rows
  refine ⟨?_, by omega⟩
  rw [u32_of_lt (show idx * channels < 4294967296 by omega), u32_of_lt (by omega)]

theorem reads_lt {i c : Nat} (reached : i ≤ resampleOframes srcFrames srcRate dstRate)
    (channel : c < channels) :
    ∀ index ∈ resampleReads srcFrames channels
      (resamplePos (resampleStep srcRate dstRate) i) c, index < srcFrames * channels := by
  have frames := input.frames.2
  have inside := input.idx_lt reached
  intro index member
  rw [resampleReads] at member
  generalize resampleIdx srcFrames (resamplePos (resampleStep srcRate dstRate) i) = idx
    at inside member
  simp only [List.mem_cons] at member
  cases member with
  | inl first =>
      have place := input.source_index inside channel
      rw [first, place.1]
      exact place.2
  | inr second =>
      rw [u32_of_lt (show idx + 1 < 4294967296 by omega)] at second
      by_cases next : idx + 1 < srcFrames
      · rw [if_pos next, List.mem_singleton] at second
        have place := input.source_index next channel
        rw [second, place.1]
        exact place.2
      · rw [if_neg next] at second
        simp at second

theorem oframes_channels_lt :
    resampleOframes srcFrames srcRate dstRate * channels < 18446744073709551616 := by
  have frames := input.frames.2
  have source := input.source
  have target := input.target.2
  have width := input.mono_or_stereo
  have product : srcFrames * dstRate ≤ 2147483647 * 4294967295 :=
    Nat.mul_le_mul (by omega) (by omega)
  have quotient : resampleOframes srcFrames srcRate dstRate ≤
      srcFrames * dstRate + srcRate / 2 := by
    rw [input.oframes_eq]
    exact Nat.div_le_self _ _
  have small : resampleOframes srcFrames srcRate dstRate < 9223372036854775808 := by
    by_cases unit : srcRate = 1
    · omega
    · omega
  cases width with
  | inl mono => rw [mono]; omega
  | inr stereo => rw [stereo]; omega

theorem target_index {i c : Nat} (frame : i < resampleOframes srcFrames srcRate dstRate)
    (channel : c < channels) : u64 (u64 (i * channels) + c) = i * channels + c := by
  have total := input.oframes_channels_lt
  have rows : (i + 1) * channels ≤ resampleOframes srcFrames srcRate dstRate * channels :=
    Nat.mul_le_mul_right _ frame
  rw [Nat.add_mul, Nat.one_mul] at rows
  rw [u64, u64, Nat.mod_eq_of_lt (show i * channels < _ by omega), Nat.mod_eq_of_lt (by omega)]

theorem frames_eq (src : Nat → UInt16) :
    resampleFrames src srcFrames channels (resampleStep srcRate dstRate)
        (resampleOframes srcFrames srcRate dstRate) 0 0 =
      (List.range (resampleOframes srcFrames srcRate dstRate)).flatMap fun i =>
        (List.range channels).map fun c =>
          let tap := resampleTap src srcFrames channels
            (resamplePos (resampleStep srcRate dstRate) i) c
          ⟨i * channels + c, tap, tap.sample⟩ := by
  have run := resampleFrames_eq src srcFrames channels (resampleStep srcRate dstRate)
    (resampleOframes srcFrames srcRate dstRate) 0
  rw [resamplePos, ← List.range_eq_range'] at run
  rw [run, List.flatMap_def, List.flatMap_def]
  congr 1
  apply List.map_congr_left
  intro i frame
  apply List.map_congr_left
  intro c channel
  rw [input.target_index (List.mem_range.mp frame) (List.mem_range.mp channel)]

/-! ## Equal rates -/

theorem oframes_same (same : srcRate = dstRate) :
    resampleOframes srcFrames srcRate dstRate = srcFrames := by
  have source := input.source.1
  rw [input.oframes_eq, ← same]
  apply Nat.div_eq_of_lt_le
  · omega
  · rw [Nat.add_mul, Nat.one_mul]
    omega

theorem pos_same (same : srcRate = dstRate) {i : Nat} (frame : i < srcFrames) :
    resamplePos (resampleStep srcRate dstRate) i = i * 4294967296 := by
  have source := input.source.1
  have reached : i ≤ resampleOframes srcFrames srcRate dstRate := by
    rw [input.oframes_same same]
    omega
  rw [(input.pos_eq reached).1, input.step_eq, ← same, Nat.mul_div_cancel_left _ (by omega)]

/-- With equal rates a sample is that of the source. -/
theorem sample_same (src : Nat → UInt16) (same : srcRate = dstRate) {i c : Nat}
    (frame : i < srcFrames) (channel : c < channels) :
    (resampleTap src srcFrames channels (resamplePos (resampleStep srcRate dstRate) i) c).sample =
      (src (i * channels + c)).toNat := by
  have pos := input.pos_same same frame
  have reached : i ≤ resampleOframes srcFrames srcRate dstRate := by
    rw [input.oframes_same same]
    omega
  have idx : resampleIdx srcFrames (resamplePos (resampleStep srcRate dstRate) i) = i := by
    rw [input.idx_eq reached, ← (input.pos_eq reached).1, pos]
    omega
  rw [(resampleTap_narrow src srcFrames channels _ c).sample_eq,
    resampleTap_eq src channels c idx, pos, (input.source_index frame channel).1]
  simp only [Nat.mul_mod_left, Nat.sub_zero, Nat.mul_zero, Nat.add_zero]
  exact Nat.mul_div_cancel _ (by omega)

end ResampleInput

/-! ## A whole run -/

/-- Rows of equal length one behind the other. -/
theorem flatMap_rows (count width : Nat) :
    ((List.range count).flatMap fun row => (List.range width).map fun column =>
      row * width + column) = List.range (count * width) := by
  induction count with
  | zero => simp
  | succ count induction =>
      rw [List.range_succ, List.flatMap_append, induction, Nat.add_mul, Nat.one_mul,
        List.range_add, List.flatMap_singleton]

/-- The positions do not wrap, the source is read inside its buffer and forward only,
every sample of the output is stored once, in order, from the words read at its
position, and with equal rates it is the sample of the source. -/
structure ResampleInside (src : Nat → UInt16) (srcFrames channels srcRate dstRate : Nat)
    (writes : List ResampleWrite) : Prop where
  position : ∀ i ≤ resampleOframes srcFrames srcRate dstRate,
    resamplePos (resampleStep srcRate dstRate) i = i * resampleStep srcRate dstRate ∧
      i * resampleStep srcRate dstRate ≤ 2 ^ 64 - 1
  reads : ∀ i < resampleOframes srcFrames srcRate dstRate, ∀ c < channels,
    ∀ index ∈ resampleReads srcFrames channels (resamplePos (resampleStep srcRate dstRate) i) c,
      index < srcFrames * channels
  forward : ∀ i j, i ≤ j → j < resampleOframes srcFrames srcRate dstRate →
    resampleIdx srcFrames (resamplePos (resampleStep srcRate dstRate) i) ≤
      resampleIdx srcFrames (resamplePos (resampleStep srcRate dstRate) j)
  stores : writes = (List.range (resampleOframes srcFrames srcRate dstRate)).flatMap fun i =>
    (List.range channels).map fun c =>
      let tap := resampleTap src srcFrames channels
        (resamplePos (resampleStep srcRate dstRate) i) c
      ⟨i * channels + c, tap, tap.sample⟩
  once : writes.map (fun write => write.index) =
    List.range (resampleOframes srcFrames srcRate dstRate * channels)
  copied : srcRate = dstRate → resampleOframes srcFrames srcRate dstRate = srcFrames ∧
    ∀ write ∈ writes, write.value = (src write.index).toNat

theorem resampleLinear16_inside {granted : Nat → Bool} {src : Nat → UInt16}
    {srcFrames channels srcRate dstRate outFrames : Nat} {writes : List ResampleWrite}
    (input : ResampleInput srcFrames channels srcRate dstRate)
    (ran : resampleLinear16 granted src srcFrames channels srcRate dstRate =
      some (outFrames, writes)) :
    ResampleInside src srcFrames channels srcRate dstRate writes := by
  have stores := (of_resampleLinear16 ran).2
  rw [input.frames_eq src] at stores
  constructor
  · intro i reached
    have pos := input.pos_eq reached
    exact ⟨pos.1, by omega⟩
  · exact fun i frame c channel => input.reads_lt (Nat.le_of_lt frame) channel
  · exact fun i j ordered frame => input.idx_mono ordered (Nat.le_of_lt frame)
  · exact stores
  · rw [stores, List.map_flatMap, ← flatMap_rows]
    simp only [List.map_map]
    rfl
  · intro same
    refine ⟨input.oframes_same same, ?_⟩
    intro write member
    rw [stores, input.oframes_same same] at member
    simp only [List.mem_flatMap, List.mem_map, List.mem_range] at member
    rcases member with ⟨i, frame, c, channel, rfl⟩
    exact input.sample_same src same frame channel

/-- The rising tone at its own rate. -/
theorem resampleLinear16_inside_rising :
    ∃ writes, resampleLinear16 (fun _ => true) risingTone 2 1 48000 48000 = some (2, writes) ∧
      ResampleInside risingTone 2 1 48000 48000 writes := by
  have input : ResampleInput 2 1 48000 48000 := ⟨by decide, .inl rfl, by decide, by decide⟩
  have ran : resampleLinear16 (fun _ => true) risingTone 2 1 48000 48000 =
      some (2, resampleFrames risingTone 2 1 (resampleStep 48000 48000)
        (resampleOframes 2 48000 48000) 0 0) := rfl
  exact ⟨_, ran, resampleLinear16_inside input ran⟩

end ParanOS
