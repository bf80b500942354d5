import ParanOS.Mm.Pmm

/-! # Sound output

`ac97_play_pcm` of the AC'97 driver: the samples are copied to memory that the hardware
reads, and a table of descriptors tells it where they are. A descriptor's field for the
number of samples has 15 bits, and the driver fills it with up to 0xFFFE samples, so only
sounds that one descriptor can hold are described as they are.
-/

namespace ParanOS

open Foundation

/-! ## The code -/

/-- `ac97_bd_t`. Bits 0-14 of `samples` are the sample count - 1, bit 15 is IOC; bit 14
of `control` is BUP. -/
structure Ac97Bd where
  addr : Nat
  samples : Nat
  control : Nat
  deriving DecidableEq

/-- The variables of the driver that playing uses, the rate that it has set, and the
descriptors 0 to LVI. -/
structure Ac97 where
  ready : Bool
  pcmBuf : Bool
  pcmBytesAlloc : Nat
  pcmPhys : Nat
  frontRate : Nat
  bd : List Ac97Bd

def bdEntryCount : Nat := 32

def allocPhysBlock (machine : PmmMachine) (bytes : Nat) (pmm : Pmm) : Option Nat × Pmm :=
  let pages := u32 (bytes + 4095) / 4096
  let pages := if pages = 0 then 1 else pages
  let (first, pmm) := pmmAllocContig machine (UInt32.ofNat pages) pmm
  if first = 0 then (none, pmm)
  else (some (u32 (first - machine.hhdmOffset).toNat), pmm)

/-- The number of frames that the next descriptor takes. -/
def bdFrames (channels framesLeft : Nat) : Nat :=
  if u32 (framesLeft * channels) > 0xFFFE then 0xFFFE / channels else framesLeft

/-- The loop that fills the table: the descriptors that it writes while there are frames
left and `room` entries. -/
def bdEntries (channels pcmPhys : Nat) : (room framesLeft offset : Nat) → List Ac97Bd
  | 0, _, _ => []
  | room + 1, framesLeft, offset =>
      if framesLeft = 0 then []
      else
        let fc := bdFrames channels framesLeft
        let sampleCount := u32 (fc * channels)
        ⟨u32 (pcmPhys + offset), (u32 (sampleCount + 4294967295) &&& 0x7FFF) % 65536, 0⟩ ::
          bdEntries channels pcmPhys room (framesLeft - fc) (u32 (offset + u32 (sampleCount * 2)))

/-- IOC and BUP are set in the last descriptor. -/
def markLastBd : List Ac97Bd → List Ac97Bd
  | [] => []
  | [bd] => [{ bd with samples := bd.samples ||| 0x8000, control := bd.control ||| 0x4000 }]
  | bd :: rest => bd :: markLastBd rest

/-- The part of `ac97_play_pcm` that describes the samples to the hardware. -/
def ac97Describe (frames channels : Nat) (ac97 : Ac97) : Int × Ac97 :=
  let written := bdEntries channels ac97.pcmPhys bdEntryCount frames 0
  if written = [] then (-1, ac97) else (0, { ac97 with bd := markLastBd written })

def ac97PlayPcm (machine : PmmMachine) (frames rateHz channels : Nat) (ac97 : Ac97) (pmm : Pmm) :
    Int × Ac97 × Pmm :=
  if ac97.ready = false ∨ frames = 0 ∨ (channels ≠ 1 ∧ channels ≠ 2) then (-1, ac97, pmm)
  else
    let rateHz := if rateHz < 8000 then 8000 else rateHz
    let rateHz := if rateHz > 48000 then 48000 else rateHz
    let ac97 := { ac97 with frontRate := rateHz }
    let bytes := u32 (u32 (frames * channels) * 2)
    let need := u32 (bytes + 0xFFF) &&& 0xFFFFF000
    if ac97.pcmBuf = false ∨ need > ac97.pcmBytesAlloc then
      match allocPhysBlock machine need pmm with
      | (none, pmm) => (-1, ac97, pmm)
      | (some phys, pmm) =>
          let ac97 := { ac97 with pcmBuf := true, pcmPhys := phys, pcmBytesAlloc := need }
          let (code, ac97) := ac97Describe frames channels ac97
          (code, ac97, pmm)
    else
      let (code, ac97) := ac97Describe frames channels ac97
      (code, ac97, pmm)

/-! ## What the hardware plays -/

/-- The number of samples that the hardware takes from the descriptor. -/
def Ac97Bd.count (bd : Ac97Bd) : Nat := bd.samples % 32768 + 1

/-- The blocks follow each other in memory. -/
def BdConsecutive : (start : Nat) → List Ac97Bd → Prop
  | _, [] => True
  | start, bd :: rest => bd.addr = start ∧ BdConsecutive (start + 2 * bd.count) rest

def bdSamples (table : List Ac97Bd) : Nat := (table.map Ac97Bd.count).sum

/-- The descriptors describe this many samples in one piece of memory. -/
def BdCover (start samples : Nat) (table : List Ac97Bd) : Prop :=
  BdConsecutive start table ∧ bdSamples table = samples

theorem Ac97Bd.count_le (bd : Ac97Bd) : bd.count ≤ 32768 := by
  rw [Ac97Bd.count]
  omega

theorem bdSamples_le (table : List Ac97Bd) : bdSamples table ≤ table.length * 32768 := by
  induction table with
  | nil => simp [bdSamples]
  | cons bd rest induction =>
      have one := bd.count_le
      simp only [bdSamples, List.map_cons, List.sum_cons, List.length_cons] at induction ⊢
      omega

theorem count_ioc (bd : Ac97Bd) (control : Nat) :
    Ac97Bd.count { bd with samples := bd.samples ||| 0x8000, control := control } = bd.count := by
  have bits : (bd.samples ||| 0x8000) % 2 ^ 15 = bd.samples % 2 ^ 15 := by
    rw [Nat.or_mod_two_pow]
    simp
  simp only [Ac97Bd.count]
  omega

theorem bdSamples_markLastBd (table : List Ac97Bd) :
    bdSamples (markLastBd table) = bdSamples table := by
  induction table with
  | nil => rfl
  | cons bd rest induction =>
      cases rest with
      | nil => simp [markLastBd, bdSamples, count_ioc]
      | cons second rest =>
          simp only [bdSamples, markLastBd, List.map_cons, List.sum_cons] at induction ⊢
          rw [induction]

/-! ## Filling the table -/

theorem bdEntries_length (channels pcmPhys room framesLeft offset : Nat) :
    (bdEntries channels pcmPhys room framesLeft offset).length ≤ room := by
  induction room generalizing framesLeft offset with
  | zero => exact Nat.le_refl 0
  | succ room induction =>
      rw [bdEntries]
      split
      · exact Nat.zero_le _
      · have rest := induction (framesLeft - bdFrames channels framesLeft)
          (u32 (offset + u32 (u32 (bdFrames channels framesLeft * channels) * 2)))
        simp only [List.length_cons]
        omega

/-- The descriptor of so many samples: the field holds their number less one, without
the bits above 14. -/
theorem count_of_samples {sampleCount : Nat} (some : 0 < sampleCount)
    (small : sampleCount < 4294967296) (addr control : Nat) :
    Ac97Bd.count ⟨addr, (u32 (sampleCount + 4294967295) &&& 0x7FFF) % 65536, control⟩ =
      (sampleCount - 1) % 32768 + 1 := by
  have mask : u32 (sampleCount + 4294967295) &&& 0x7FFF =
      u32 (sampleCount + 4294967295) % 32768 := and_lowMask _ 15
  have wrapped : u32 (sampleCount + 4294967295) = sampleCount - 1 := by
    rw [u32]
    omega
  rw [Ac97Bd.count, mask, wrapped]
  simp only
  omega

section

variable {channels framesLeft : Nat} (known : channels = 1 ∨ channels = 2)
  (left : framesLeft ≠ 0) (small : framesLeft * channels < 4294967296)
include known left small

/-- A descriptor takes some of the frames that are left, all of them if they fit into
0xFFFE samples. -/
theorem bdFrames_spec :
    0 < bdFrames channels framesLeft ∧ bdFrames channels framesLeft ≤ framesLeft ∧
      bdFrames channels framesLeft * channels ≤ 0xFFFE ∧
      (framesLeft * channels ≤ 0xFFFE → bdFrames channels framesLeft = framesLeft) ∧
      (0xFFFE < framesLeft * channels → bdFrames channels framesLeft * channels = 0xFFFE) := by
  rw [bdFrames, u32_of_lt small]
  rcases known with rfl | rfl
  · split <;> omega
  · split <;> omega

/-- The first descriptor and the rest. -/
theorem bdEntries_succ (pcmPhys room offset : Nat) :
    ∃ bd offset', bdEntries channels pcmPhys (room + 1) framesLeft offset =
        bd :: bdEntries channels pcmPhys room (framesLeft - bdFrames channels framesLeft) offset' ∧
      bd.addr = u32 (pcmPhys + offset) ∧
      bd.count = (bdFrames channels framesLeft * channels - 1) % 32768 + 1 := by
  rcases bdFrames_spec known left small with ⟨positive, below, bounded, _, _⟩
  have samples : u32 (bdFrames channels framesLeft * channels) =
      bdFrames channels framesLeft * channels := u32_of_lt (by omega)
  have some : 0 < bdFrames channels framesLeft * channels :=
    Nat.mul_pos positive (by omega)
  rw [bdEntries, if_neg left]
  simp only [samples]
  exact ⟨_, _, rfl, rfl, count_of_samples some (by omega) _ _⟩

end

theorem bdSamples_cons (bd : Ac97Bd) (rest : List Ac97Bd) :
    bdSamples (bd :: rest) = bd.count + bdSamples rest := by
  simp [bdSamples]

/-- No more samples are described than there are. -/
theorem bdSamples_le_frames {channels framesLeft : Nat} (known : channels = 1 ∨ channels = 2)
    (small : framesLeft * channels < 4294967296) (pcmPhys room offset : Nat) :
    bdSamples (bdEntries channels pcmPhys room framesLeft offset) ≤ framesLeft * channels := by
  induction room generalizing framesLeft offset with
  | zero => simp [bdEntries, bdSamples]
  | succ room induction =>
      by_cases none : framesLeft = 0
      · simp [bdEntries, bdSamples, none]
      · rcases bdFrames_spec known none small with ⟨positive, below, _, _, _⟩
        rcases bdEntries_succ known none small pcmPhys room offset with
          ⟨bd, offset', split, _, count⟩
        have parts : bdFrames channels framesLeft * channels +
            (framesLeft - bdFrames channels framesLeft) * channels = framesLeft * channels := by
          rw [← Nat.add_mul, Nat.add_sub_cancel' below]
        have some : 0 < bdFrames channels framesLeft * channels :=
          Nat.mul_pos positive (by omega)
        have rest := @induction (framesLeft - bdFrames channels framesLeft) (by omega) offset'
        rw [split, bdSamples_cons, count]
        omega

/-- Of more than 0x8000 samples some are not described. -/
theorem bdSamples_lt_frames {channels framesLeft : Nat} (known : channels = 1 ∨ channels = 2)
    (small : framesLeft * channels < 4294967296) (many : 0x8000 < framesLeft * channels)
    (pcmPhys room offset : Nat) :
    bdSamples (bdEntries channels pcmPhys (room + 1) framesLeft offset) <
      framesLeft * channels := by
  have left : framesLeft ≠ 0 := by
    intro none
    simp [none] at many
  rcases bdFrames_spec known left small with ⟨positive, below, bounded, all, most⟩
  rcases bdEntries_succ known left small pcmPhys room offset with ⟨bd, offset', split, _, count⟩
  have parts : bdFrames channels framesLeft * channels +
      (framesLeft - bdFrames channels framesLeft) * channels = framesLeft * channels := by
    rw [← Nat.add_mul, Nat.add_sub_cancel' below]
  have first : 0x8000 < bdFrames channels framesLeft * channels := by
    by_cases fits : framesLeft * channels ≤ 0xFFFE
    · rw [all fits]
      exact many
    · rw [most (by omega)]
      decide
  have rest := @bdSamples_le_frames channels (framesLeft - bdFrames channels framesLeft) known
    (by omega) pcmPhys room offset'
  rw [split, bdSamples_cons, count]
  omega

/-- Up to 0x8000 samples are described by one descriptor. -/
theorem bdEntries_single {channels framesLeft : Nat} (known : channels = 1 ∨ channels = 2)
    (left : framesLeft ≠ 0) (few : framesLeft * channels ≤ 0x8000) (pcmPhys room offset : Nat) :
    ∃ bd, bdEntries channels pcmPhys (room + 1) framesLeft offset = [bd] ∧
      bd.addr = u32 (pcmPhys + offset) ∧ bd.count = framesLeft * channels := by
  have small : framesLeft * channels < 4294967296 := by omega
  rcases bdFrames_spec known left small with ⟨positive, _, _, all, _⟩
  have whole := all (by omega)
  rcases bdEntries_succ known left small pcmPhys room offset with
    ⟨bd, offset', split, addr, count⟩
  rw [whole] at positive split count
  have some : 0 < framesLeft * channels := Nat.mul_pos positive (by omega)
  refine ⟨bd, ?_, addr, by rw [count]; omega⟩
  rw [split, Nat.sub_self]
  cases room <;> simp [bdEntries]

/-! ## Playing -/

theorem of_ac97Describe {frames channels : Nat} {ac97 ac97' : Ac97}
    (ran : ac97Describe frames channels ac97 = (0, ac97')) :
    ac97'.pcmPhys = ac97.pcmPhys ∧
      ac97'.bd = markLastBd (bdEntries channels ac97.pcmPhys bdEntryCount frames 0) := by
  simp only [ac97Describe] at ran
  split at ran
  · simp at ran
  · rw [Prod.mk.injEq] at ran
    rw [← ran.2]
    exact ⟨rfl, rfl⟩

theorem allocPhysBlock_lt {machine : PmmMachine} {bytes phys : Nat} {pmm pmm' : Pmm}
    (ran : allocPhysBlock machine bytes pmm = (some phys, pmm')) : phys < 4294967296 := by
  simp only [allocPhysBlock] at ran
  generalize pmmAllocContig machine (UInt32.ofNat (if u32 (bytes + 4095) / 4096 = 0 then 1
    else u32 (bytes + 4095) / 4096)) pmm = result at ran
  split at ran
  · simp at ran
  · simp only [Prod.mk.injEq, Option.some.injEq] at ran
    rw [← ran.1]
    exact u32_lt _

/-- What a call that returns 0 was given, and the table that it wrote. -/
theorem of_ac97PlayPcm {machine : PmmMachine} {frames rateHz channels : Nat} {ac97 ac97' : Ac97}
    {pmm pmm' : Pmm} (ran : ac97PlayPcm machine frames rateHz channels ac97 pmm = (0, ac97', pmm'))
    (narrow : ac97.pcmPhys < 4294967296) :
    (channels = 1 ∨ channels = 2) ∧ frames ≠ 0 ∧ ac97'.pcmPhys < 4294967296 ∧
      ac97'.bd = markLastBd (bdEntries channels ac97'.pcmPhys bdEntryCount frames 0) := by
  simp only [ac97PlayPcm] at ran
  split at ran
  · simp at ran
  · next accepted =>
      have described : ∃ before, before.pcmPhys < 4294967296 ∧
          ac97Describe frames channels before = (0, ac97') := by
        split at ran
        · split at ran
          · simp at ran
          · next phys _ block =>
              simp only [Prod.mk.injEq] at ran
              exact ⟨_, allocPhysBlock_lt block, Prod.ext ran.1 ran.2.1⟩
        · simp only [Prod.mk.injEq] at ran
          refine ⟨_, ?_, Prod.ext ran.1 ran.2.1⟩
          exact narrow
      rcases described with ⟨before, below, described⟩
      rcases of_ac97Describe described with ⟨phys, table⟩
      refine ⟨by tauto, by tauto, by rw [phys]; exact below, by rw [phys]; exact table⟩

/-- The descriptors of a call that returns 0 cover the sound exactly when it has at most
0x8000 samples. -/
theorem ac97PlayPcm_cover_iff {machine : PmmMachine} {frames rateHz channels : Nat}
    {ac97 ac97' : Ac97} {pmm pmm' : Pmm}
    (ran : ac97PlayPcm machine frames rateHz channels ac97 pmm = (0, ac97', pmm'))
    (narrow : ac97.pcmPhys < 4294967296) :
    BdCover ac97'.pcmPhys (frames * channels) ac97'.bd ↔ frames * channels ≤ 0x8000 := by
  rcases of_ac97PlayPcm ran narrow with ⟨known, some, below, table⟩
  constructor
  · intro cover
    by_contra many
    have samples := cover.2
    rw [table, bdSamples_markLastBd] at samples
    have entries := bdSamples_le (bdEntries channels ac97'.pcmPhys bdEntryCount frames 0)
    have length := bdEntries_length channels ac97'.pcmPhys bdEntryCount frames 0
    have fewer := @bdSamples_lt_frames channels frames known
    have room : bdEntryCount = 31 + 1 := rfl
    rw [room] at samples length entries
    have small : frames * channels < 4294967296 := by omega
    have less := fewer small (by omega) ac97'.pcmPhys 31 0
    omega
  · intro few
    rcases bdEntries_single known some few ac97'.pcmPhys 31 0 with ⟨bd, single, addr, count⟩
    have marked : ac97'.bd = markLastBd [bd] := by
      rw [table, ← single]
      rfl
    rw [Nat.add_zero, u32_of_lt below] at addr
    have samples := bdSamples_markLastBd [bd]
    rw [marked]
    refine ⟨⟨addr, trivial⟩, ?_⟩
    rw [samples, bdSamples_cons, count]
    simp [bdSamples]

/-- The driver after `ac97_init`. -/
def readyAc97 : Ac97 := ⟨true, false, 0, 0, 0, []⟩

theorem ac97PlayPcm_cover_second :
    ∃ ac97' pmm', ac97PlayPcm smallMachine 16000 16000 2 readyAc97
        (pmmInit smallMachine (Pmm.booted 0)) = (0, ac97', pmm') ∧
      BdCover ac97'.pcmPhys 32000 ac97'.bd := by
  refine ⟨_, _, rfl, ?_⟩
  exact (@ac97PlayPcm_cover_iff smallMachine 16000 16000 2 readyAc97 _
    (pmmInit smallMachine (Pmm.booted 0)) _ rfl (by decide)).mpr (by decide)

/-- One second of two channels at 48 kHz: two descriptors, of 0x7FFE and 0x7702
samples. -/
theorem ac97PlayPcm_leaves_out :
    ¬ ∀ (machine : PmmMachine) (frames rateHz channels : Nat) (ac97 ac97' : Ac97) (pmm pmm' : Pmm),
      ac97PlayPcm machine frames rateHz channels ac97 pmm = (0, ac97', pmm') →
      ac97.pcmPhys < 4294967296 → frames < 4294967296 →
      BdCover ac97'.pcmPhys (frames * channels) ac97'.bd := by
  intro claim
  have cover := claim smallMachine 48000 48000 2 readyAc97 _
    (pmmInit smallMachine (Pmm.booted 0)) _ rfl (by decide) (by decide)
  exact absurd cover.2 (by decide)

end ParanOS
