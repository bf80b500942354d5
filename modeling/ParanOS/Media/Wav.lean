import ParanOS.Foundation.Footprint
import ParanOS.Foundation.Pursuit

/-! # WAV files

`wav_parse` of `wav.c`. Positions and sizes are 32-bit numbers, and their sums wrap. A
pointer into the buffer is the offset that was added to the buffer's address. The loop
over the chunks has no bound of its own; whether it goes on at a chunk depends on the
chunk's position alone.
-/

namespace ParanOS

open Foundation

/-! ## The code -/

structure WavInfo where
  rate : Nat
  channels : Nat
  bits : Nat
  data : Nat
  dataBytes : Nat
  deriving DecidableEq

/-- The variables of the loop. No data chunk so far is a null pointer. -/
structure WavScan where
  pos : Nat
  audioFmt : Nat
  channels : Nat
  rate : Nat
  bits : Nat
  data : Option Nat
  dataBytes : Nat

/-- How a round of the loop ends: the loop goes on, it is left, or `wav_parse`
returns -1. -/
inductive WavRound
  | more (scan : WavScan)
  | leave (scan : WavScan)
  | reject

/-- `"fmt "`. -/
def wavFmtId : Nat := 0x20746d66

/-- `"data"`. -/
def wavDataId : Nat := 0x61746164

/-- A round of the loop. -/
def wavChunk (len : Nat) (scan : WavScan) : PeekM WavRound :=
  if u32 (scan.pos + 8) > len then pure (.leave scan)
  else do
    let id ← peek32 scan.pos
    let sz ← peek32 (scan.pos + 4)
    let pos := u32 (scan.pos + 8)
    if u32 (pos + sz) > len then pure (.leave { scan with pos := pos })
    else if id = wavFmtId then
      if sz < 16 then pure .reject
      else do
        let audioFmt ← peek16 (pos + 0)
        let channels ← peek16 (pos + 2)
        let rate ← peek32 (pos + 4)
        let bits ← peek16 (pos + 14)
        pure (.more { scan with
          pos := u32 (pos + sz)
          audioFmt := audioFmt
          channels := channels
          rate := rate
          bits := bits })
    else if id = wavDataId then
      pure (.more { scan with pos := u32 (pos + sz), data := some pos, dataBytes := sz })
    else pure (.more { scan with pos := u32 (pos + sz) })

/-- The loop: the variables when it is left, or `none` where the source returns -1. -/
def wavLoop (len : Nat) : (fuel : Nat) → WavScan → PeekM (Option WavScan)
  | 0, _ => PeekM.diverge
  | fuel + 1, scan => do
      match ← wavChunk len scan with
      | .more scan => wavLoop len fuel scan
      | .leave scan => pure (some scan)
      | .reject => pure none

def wavStart : WavScan := ⟨12, 0, 0, 0, 0, none, 0⟩

/-- The checks behind the loop. -/
def wavFinish (scan : WavScan) : Option WavInfo :=
  match scan.data with
  | none => none
  | some data =>
      if scan.audioFmt ≠ 1 ∨ scan.dataBytes = 0 ∨ (scan.bits ≠ 8 ∧ scan.bits ≠ 16) then none
      else some ⟨scan.rate, scan.channels, scan.bits, data, scan.dataBytes⟩

/-- What was parsed, or `none` where the source returns -1. -/
def wavParse (len fuel : Nat) : PeekM (Option WavInfo) :=
  if len < 44 then pure none
  else do
    let riff ← peek32 0
    if riff ≠ 0x46464952 then pure none -- "RIFF"
    else do
      let wave ← peek32 8
      if wave ≠ 0x45564157 then pure none -- "WAVE"
      else do
        match ← wavLoop len fuel wavStart with
        | none => pure none
        | some scan => pure (wavFinish scan)

/-! ## Chunks -/

section

variable (buf : Buffer)

/-- Where the chunk behind the one at a position starts. -/
def nextChunk (pos : Nat) : Nat := u32 (u32 (pos + 8) + buf.getU32 (pos + 4))

/-- The loop ends at the chunk at a position: its header or its data do not fit, or
it is a format chunk that is too short. -/
def ChunkEnds (len pos : Nat) : Prop :=
  len < u32 (pos + 8) ∨ len < nextChunk buf pos ∨
    buf.getU32 pos = wavFmtId ∧ buf.getU32 (pos + 4) < 16

instance (len pos : Nat) : Decidable (ChunkEnds buf len pos) := inferInstanceAs (Decidable (_ ∨ _))

/-- The chunk at a position makes the parser return -1. -/
def ChunkShort (len pos : Nat) : Prop :=
  u32 (pos + 8) ≤ len ∧ nextChunk buf pos ≤ len ∧
    buf.getU32 pos = wavFmtId ∧ buf.getU32 (pos + 4) < 16

/-- The position of a chunk by its number. -/
def chunkAt (index : Nat) : Nat := (nextChunk buf)^[index] 12

/-- The loop comes to the chunk. -/
def ChunkReached (len index : Nat) : Prop :=
  ∀ earlier < index, ¬ ChunkEnds buf len (chunkAt buf earlier)

end

theorem nextChunk_lt (buf : Buffer) (pos : Nat) : nextChunk buf pos < 4294967296 := u32_lt _

theorem chunkAt_succ (buf : Buffer) (index : Nat) :
    chunkAt buf (index + 1) = nextChunk buf (chunkAt buf index) :=
  Function.iterate_succ_apply' _ _ _

theorem chunkAt_lt (buf : Buffer) (index : Nat) : chunkAt buf index < 4294967296 := by
  cases index with
  | zero => exact (by decide : (12 : Nat) < 4294967296)
  | succ index =>
      rw [chunkAt_succ]
      exact nextChunk_lt buf _

theorem chunkReached_succ {buf : Buffer} {len index : Nat} :
    ChunkReached buf len (index + 1) ↔
      ChunkReached buf len index ∧ ¬ ChunkEnds buf len (chunkAt buf index) := by
  constructor
  · intro reached
    exact ⟨fun earlier below => reached earlier (by omega), reached index (by omega)⟩
  · rintro ⟨reached, goes⟩ earlier below
    by_cases last : earlier = index
    · rw [last]
      exact goes
    · exact reached earlier (by omega)

/-- The scan behind a chunk that does not end the loop. -/
def WavScan.pass (buf : Buffer) (scan : WavScan) : WavScan :=
  let pos := u32 (scan.pos + 8)
  if buf.getU32 scan.pos = wavFmtId then
    { scan with
      pos := nextChunk buf scan.pos
      audioFmt := buf.getU16 pos
      channels := buf.getU16 (pos + 2)
      rate := buf.getU32 (pos + 4)
      bits := buf.getU16 (pos + 14) }
  else if buf.getU32 scan.pos = wavDataId then
    { scan with
      pos := nextChunk buf scan.pos
      data := some pos
      dataBytes := buf.getU32 (scan.pos + 4) }
  else { scan with pos := nextChunk buf scan.pos }

@[simp] theorem WavScan.pass_pos (buf : Buffer) (scan : WavScan) :
    (scan.pass buf).pos = nextChunk buf scan.pos := by
  simp only [WavScan.pass]
  split
  · rfl
  · split <;> rfl

/-- A round ends the loop or passes a chunk. -/
theorem wavChunk_fst (buf : Buffer) (len : Nat) (scan : WavScan) :
    (¬ ChunkEnds buf len scan.pos ∧ (wavChunk len scan buf).1 = some (.more (scan.pass buf))) ∨
    (ChunkEnds buf len scan.pos ∧
      ((ChunkShort buf len scan.pos ∧ (wavChunk len scan buf).1 = some .reject) ∨
        (¬ ChunkShort buf len scan.pos ∧ ∃ final, (wavChunk len scan buf).1 = some (.leave final) ∧
          final = { scan with pos := final.pos }))) := by
  simp only [wavChunk, ChunkEnds, ChunkShort]
  by_cases header : u32 (scan.pos + 8) > len
  · rw [if_pos header]
    exact .inr ⟨.inl header, .inr ⟨fun short => absurd short.1 (by omega), scan, rfl, rfl⟩⟩
  · rw [if_neg header]
    simp only [PeekM.bind_fst, peek32_fst, Option.bind_some]
    by_cases data : u32 (u32 (scan.pos + 8) + buf.getU32 (scan.pos + 4)) > len
    · have beyond : ¬ nextChunk buf scan.pos ≤ len := Nat.not_le.mpr data
      rw [if_pos data]
      exact .inr ⟨.inr (.inl data), .inr ⟨fun short => beyond short.2.1, _, rfl, rfl⟩⟩
    · rw [if_neg data]
      have fits : ¬ len < nextChunk buf scan.pos := data
      by_cases format : buf.getU32 scan.pos = wavFmtId
      · rw [if_pos format]
        by_cases short : buf.getU32 (scan.pos + 4) < 16
        · rw [if_pos short]
          exact .inr ⟨.inr (.inr ⟨format, short⟩), .inl ⟨⟨by omega, by omega, format, short⟩, rfl⟩⟩
        · rw [if_neg short]
          refine .inl ⟨by tauto, ?_⟩
          simp only [PeekM.bind_fst, peek16_fst, peek32_fst, Option.bind_some, PeekM.pure_apply,
            WavScan.pass, if_pos format, nextChunk, Nat.add_zero]
      · rw [if_neg format]
        refine .inl ⟨by tauto, ?_⟩
        simp only [WavScan.pass, if_neg format, nextChunk]
        split <;> rfl

/-! ## Whether the loop ends -/

/-- The parser comes to its loop. -/
def WavTagged (buf : Buffer) (len : Nat) : Prop :=
  44 ≤ len ∧ buf.getU32 0 = 0x46464952 ∧ buf.getU32 8 = 0x45564157

/-- The loop comes back to the position of an earlier chunk. -/
def ChunksCircle (buf : Buffer) (len : Nat) : Prop :=
  ∃ first second, first < second ∧ chunkAt buf second = chunkAt buf first ∧
    ChunkReached buf len second

def chunkVerdict (buf : Buffer) (len pos : Nat) : Option Unit :=
  if ChunkEnds buf len pos then some () else none

theorem chunkVerdict_eq_none {buf : Buffer} {len pos : Nat} :
    chunkVerdict buf len pos = none ↔ ¬ ChunkEnds buf len pos := by
  simp [chunkVerdict]

theorem wavLoop_eq_none_iff (buf : Buffer) (len fuel : Nat) (scan : WavScan) :
    (wavLoop len fuel scan buf).1 = none ↔
      pursue (chunkVerdict buf len) (nextChunk buf) fuel scan.pos = none := by
  induction fuel generalizing scan with
  | zero => simp [wavLoop, pursue]
  | succ fuel induction =>
      rw [wavLoop, pursue, PeekM.bind_fst]
      rcases wavChunk_fst buf len scan with
        ⟨goes, round⟩ | ⟨ends, ⟨_, round⟩ | ⟨_, final, round, _⟩⟩
      · rw [round, chunkVerdict, if_neg goes, Option.bind_some, ← WavScan.pass_pos]
        exact induction _
      · simp [round, chunkVerdict, ends]
      · simp [round, chunkVerdict, ends]

theorem wavLoop_returns_iff (buf : Buffer) (len : Nat) :
    (∃ fuel, (wavLoop len fuel wavStart buf).1 ≠ none) ↔ ¬ ChunksCircle buf len := by
  have bounded : ∀ count, (nextChunk buf)^[count] wavStart.pos ∈ Finset.range 4294967296 :=
    fun count => Finset.mem_range.mpr (chunkAt_lt buf count)
  simp only [ne_eq, wavLoop_eq_none_iff]
  refine exists_pursue_iff.trans ((exists_verdict_iff_no_return _ bounded).trans ?_)
  simp only [ChunksCircle, ChunkReached, chunkVerdict_eq_none, chunkAt]
  rfl

theorem wavParse_untagged {buf : Buffer} {len : Nat} (untagged : ¬ WavTagged buf len)
    (fuel : Nat) : (wavParse len fuel buf).1 = some none := by
  rw [wavParse]
  by_cases short : len < 44
  · rw [if_pos short]
    rfl
  · rw [if_neg short]
    simp only [PeekM.bind_fst, peek32_fst, Option.bind_some]
    by_cases riff : buf.getU32 0 = 0x46464952
    · have wave : buf.getU32 8 ≠ 0x45564157 := fun wave => untagged ⟨by omega, riff, wave⟩
      rw [if_neg (not_not.mpr riff)]
      simp only [PeekM.bind_fst, peek32_fst, Option.bind_some, if_pos wave, PeekM.pure_apply]
    · rw [if_pos riff]
      rfl

theorem wavParse_tagged {buf : Buffer} {len : Nat} (tagged : WavTagged buf len) (fuel : Nat) :
    (wavParse len fuel buf).1 =
      (wavLoop len fuel wavStart buf).1.map fun final => final.bind wavFinish := by
  rcases tagged with ⟨long, riff, wave⟩
  have enough : ¬ len < 44 := by omega
  simp only [wavParse, if_neg enough, PeekM.bind_fst, peek32_fst, Option.bind_some, riff, wave,
    ne_eq, not_true_eq_false, if_false]
  cases (wavLoop len fuel wavStart buf).1 with
  | none => rfl
  | some final => cases final <;> rfl

/-- No chunk whose header the loop reads ends beyond the 32-bit positions. -/
def ChunksUnwrapped (buf : Buffer) (len : Nat) : Prop :=
  ∀ index, ChunkReached buf len index → u32 (chunkAt buf index + 8) ≤ len →
    chunkAt buf index + 8 + buf.getU32 (chunkAt buf index + 4) < 4294967296

/-- Behind such a chunk the loop is further on. -/
theorem ChunksUnwrapped.next {buf : Buffer} {len index : Nat} (unwrapped : ChunksUnwrapped buf len)
    (reached : ChunkReached buf len (index + 1)) :
    chunkAt buf (index + 1) =
      chunkAt buf index + 8 + buf.getU32 (chunkAt buf index + 4) := by
  rcases chunkReached_succ.mp reached with ⟨before, goes⟩
  have header : u32 (chunkAt buf index + 8) ≤ len := by
    by_contra beyond
    exact goes (.inl (by omega))
  have bound := unwrapped index before header
  rw [chunkAt_succ, nextChunk, u32_of_lt (show chunkAt buf index + 8 < 4294967296 by omega),
    u32_of_lt bound]

theorem ChunksUnwrapped.not_circle {buf : Buffer} {len : Nat}
    (unwrapped : ChunksUnwrapped buf len) : ¬ ChunksCircle buf len := by
  rintro ⟨first, second, later, back, reached⟩
  have further : ∀ count, first < count → count ≤ second →
      chunkAt buf first < chunkAt buf count := by
    intro count
    induction count with
    | zero => omega
    | succ count induction =>
        intro above below
        have upTo : ChunkReached buf len (count + 1) :=
          fun earlier bound => reached earlier (by omega)
        have step := unwrapped.next upTo
        by_cases here : first = count
        · rw [step, here]
          omega
        · have before := induction (by omega) (by omega)
          omega
  have less := further second later (Nat.le_refl second)
  omega

/-- The parser returns exactly when its loop, if it comes to it, does not come back to
an earlier chunk; in particular if no chunk ends beyond the 32-bit positions. -/
theorem wavParse_returns_iff (buf : Buffer) (len : Nat) :
    ((∃ fuel, (wavParse len fuel buf).1 ≠ none) ↔
      (WavTagged buf len → ¬ ChunksCircle buf len)) ∧
    (ChunksUnwrapped buf len → ∃ fuel, (wavParse len fuel buf).1 ≠ none) := by
  have exact : (∃ fuel, (wavParse len fuel buf).1 ≠ none) ↔
      (WavTagged buf len → ¬ ChunksCircle buf len) := by
    by_cases tagged : WavTagged buf len
    · simp only [tagged, true_imp_iff, ← wavLoop_returns_iff, wavParse_tagged tagged, ne_eq,
        Option.map_eq_none_iff]
    · simp only [tagged, false_imp_iff, iff_true, wavParse_untagged tagged]
      exact ⟨0, by simp⟩
  exact ⟨exact, fun unwrapped => exact.mpr fun _ => unwrapped.not_circle⟩

/-- A file of 44 bytes whose first chunk has a size of 2^32 - 8. -/
def loopingWav : Buffer := Buffer.ofList
  [0x52, 0x49, 0x46, 0x46, 0x24, 0, 0, 0, 0x57, 0x41, 0x56, 0x45,
    0x6A, 0x75, 0x6E, 0x6B, 0xF8, 0xFF, 0xFF, 0xFF]

/-- Behind its first chunk the loop is at its first chunk. -/
theorem wavParse_loops :
    ¬ ∀ (buf : Buffer) (len : Nat), len < 4294967296 →
      ∃ fuel, (wavParse len fuel buf).1 ≠ none := by
  intro claim
  have tagged : WavTagged loopingWav 44 := by
    refine ⟨?_, ?_, ?_⟩ <;> decide
  have returns := claim loopingWav 44 (by decide)
  simp only [wavParse_tagged tagged, ne_eq, Option.map_eq_none_iff] at returns
  refine (wavLoop_returns_iff loopingWav 44).mp returns ⟨0, 1, by omega, by decide, ?_⟩
  intro earlier below
  rw [Nat.lt_one_iff.mp below]
  decide

/-! ## Which bytes are read -/

/-- What a round reads lies in the buffer. -/
def RoundInside (buf : Buffer) (len pos : Nat) : Prop :=
  (u32 (pos + 8) ≤ len → pos + 7 < len) ∧
    (¬ ChunkEnds buf len pos → buf.getU32 pos = wavFmtId → u32 (pos + 8) + 15 < len)

theorem wavChunk_readsBelow (buf : Buffer) (len : Nat) (scan : WavScan) :
    ReadsBelow len (wavChunk len scan) buf ↔ RoundInside buf len scan.pos := by
  simp only [wavChunk, RoundInside, ChunkEnds]
  by_cases header : u32 (scan.pos + 8) > len
  · rw [if_pos header]
    have beyond : ¬ u32 (scan.pos + 8) ≤ len := by omega
    simp [header, beyond]
  · rw [if_neg header]
    have inside : u32 (scan.pos + 8) ≤ len := by omega
    simp only [readsBelow_bind, readsBelow_peek32, peek32_fst, Option.some.injEq, forall_eq',
      inside, header, true_imp_iff, false_or, nextChunk]
    by_cases data : u32 (u32 (scan.pos + 8) + buf.getU32 (scan.pos + 4)) > len
    · rw [if_pos data]
      simp only [readsBelow_pure, data, true_or, not_true_eq_false, false_imp_iff, and_true]
      omega
    · rw [if_neg data]
      have fits : ¬ len < u32 (u32 (scan.pos + 8) + buf.getU32 (scan.pos + 4)) := data
      by_cases format : buf.getU32 scan.pos = wavFmtId
      · rw [if_pos format]
        by_cases short : buf.getU32 (scan.pos + 4) < 16
        · rw [if_pos short]
          simp only [readsBelow_pure, fits, format, short, and_self, or_true, not_true_eq_false,
            false_imp_iff, and_true]
          omega
        · rw [if_neg short]
          simp only [readsBelow_bind, readsBelow_peek16, readsBelow_peek32, peek16_fst, peek32_fst,
            Option.some.injEq, forall_eq', readsBelow_pure, fits, short, and_false, or_self,
            not_false_eq_true, true_imp_iff, format, and_true]
          omega
      · rw [if_neg format]
        have pure : ReadsBelow len (if buf.getU32 scan.pos = wavDataId then
            Pure.pure (WavRound.more { scan with
              pos := u32 (u32 (scan.pos + 8) + buf.getU32 (scan.pos + 4))
              data := some (u32 (scan.pos + 8))
              dataBytes := buf.getU32 (scan.pos + 4) })
          else Pure.pure (WavRound.more { scan with
            pos := u32 (u32 (scan.pos + 8) + buf.getU32 (scan.pos + 4)) })) buf := by
          split <;> simp
        simp only [pure, format, false_imp_iff, imp_true_iff, and_true]
        omega

/-- The reads of a loop that has come to a chunk and returns. -/
theorem wavLoop_readsBelow {buf : Buffer} {len fuel index : Nat} {scan : WavScan}
    (position : scan.pos = chunkAt buf index) (reached : ChunkReached buf len index)
    (returned : (wavLoop len fuel scan buf).1 ≠ none) :
    ReadsBelow len (wavLoop len fuel scan) buf ↔
      ∀ later, index ≤ later → ChunkReached buf len later →
        RoundInside buf len (chunkAt buf later) := by
  induction fuel generalizing scan index with
  | zero => simp [wavLoop] at returned
  | succ fuel induction =>
      rw [wavLoop, readsBelow_bind, wavChunk_readsBelow, position]
      rw [wavLoop, PeekM.bind_fst] at returned
      rcases wavChunk_fst buf len scan with ⟨goes, round⟩ | ⟨ends, round⟩
      · rw [position] at goes
        have next : (scan.pass buf).pos = chunkAt buf (index + 1) := by
          rw [WavScan.pass_pos, position, chunkAt_succ]
        rw [round, Option.bind_some] at returned
        simp only [round, Option.some.injEq, forall_eq']
        rw [induction next (chunkReached_succ.mpr ⟨reached, goes⟩) returned]
        constructor
        · rintro ⟨here, rest⟩ later above reachedLater
          by_cases same : later = index
          · rw [same]
            exact here
          · exact rest later (by omega) reachedLater
        · intro inside
          exact ⟨inside index (Nat.le_refl index) reached, fun later above =>
            inside later (by omega)⟩
      · rw [position] at ends
        have last : ∀ later, index ≤ later → ChunkReached buf len later → later = index := by
          intro later above reachedLater
          by_contra beyond
          exact reachedLater index (by omega) ends
        have rest : ∀ outcome, (wavChunk len scan buf).1 = some outcome →
            ReadsBelow len (match outcome with
              | .more scan => wavLoop len fuel scan
              | .leave scan => pure (some scan)
              | .reject => pure none) buf := by
          intro outcome result
          rcases round with ⟨_, round⟩ | ⟨_, final, round, _⟩
          · rw [round, Option.some.injEq] at result
            simp [← result]
          · rw [round, Option.some.injEq] at result
            simp [← result]
        constructor
        · rintro ⟨here, _⟩ later above reachedLater
          rw [last later above reachedLater]
          exact here
        · intro inside
          exact ⟨inside index (Nat.le_refl index) reached, rest⟩

/-! ## What is returned -/

/-- The loop passes a chunk of that kind. -/
def ChunkPassed (buf : Buffer) (len id index : Nat) : Prop :=
  ChunkReached buf len (index + 1) ∧ buf.getU32 (chunkAt buf index) = id

def LastChunkPassed (buf : Buffer) (len id index : Nat) : Prop :=
  ChunkPassed buf len id index ∧ ∀ later, index < later → ¬ ChunkPassed buf len id later

theorem LastChunkPassed.unique {buf : Buffer} {len id first second : Nat}
    (left : LastChunkPassed buf len id first) (right : LastChunkPassed buf len id second) :
    first = second := by
  rcases Nat.lt_trichotomy first second with less | equal | more
  · exact absurd right.1 (left.2 second less)
  · exact equal
  · exact absurd left.1 (right.2 first more)

/-- The last data chunk that the loop passes. -/
def LastData (buf : Buffer) (len index : Nat) : Prop := LastChunkPassed buf len wavDataId index

/-- Variables of the loop that are set by the chunks of one kind, and only from the
chunk. -/
structure SetByChunk {β : Type} (buf : Buffer) (id : Nat) (view : WavScan → β) (value : Nat → β) :
    Prop where
  hit : ∀ scan : WavScan, buf.getU32 scan.pos = id → view (scan.pass buf) = value scan.pos
  miss : ∀ scan : WavScan, buf.getU32 scan.pos ≠ id → view (scan.pass buf) = view scan
  still : ∀ (scan : WavScan) (pos : Nat), view { scan with pos := pos } = view scan

/-- The loop ends with what the last chunk of the kind has set. -/
theorem SetByChunk.last {β : Type} {buf : Buffer} {len id fuel index : Nat} {view : WavScan → β}
    {value : Nat → β} {scan final : WavScan} (setBy : SetByChunk buf id view value)
    (position : scan.pos = chunkAt buf index) (reached : ChunkReached buf len index)
    (ran : (wavLoop len fuel scan buf).1 = some (some final)) :
    (∃ last, index ≤ last ∧ LastChunkPassed buf len id last ∧
      view final = value (chunkAt buf last)) ∨
    ((∀ later, index ≤ later → ¬ ChunkPassed buf len id later) ∧ view final = view scan) := by
  induction fuel generalizing scan index with
  | zero => simp [wavLoop] at ran
  | succ fuel induction =>
      rw [wavLoop, PeekM.bind_fst] at ran
      rcases wavChunk_fst buf len scan with
        ⟨goes, round⟩ | ⟨ends, ⟨_, round⟩ | ⟨_, left, round, same⟩⟩
      · rw [position] at goes
        have next : (scan.pass buf).pos = chunkAt buf (index + 1) := by
          rw [WavScan.pass_pos, position, chunkAt_succ]
        have passed := chunkReached_succ.mpr ⟨reached, goes⟩
        rw [round, Option.bind_some] at ran
        cases induction next passed ran with
        | inl found =>
            rcases found with ⟨last, above, rest⟩
            exact .inl ⟨last, by omega, rest⟩
        | inr none =>
            rcases none with ⟨none, kept⟩
            by_cases here : buf.getU32 scan.pos = id
            · have set := setBy.hit scan here
              rw [position] at here set
              exact .inl ⟨index, Nat.le_refl index, ⟨⟨passed, here⟩, fun later above =>
                none later (by omega)⟩, kept.trans set⟩
            · refine .inr ⟨?_, kept.trans (setBy.miss scan here)⟩
              intro later above chunk
              by_cases first : later = index
              · rw [first, ChunkPassed, ← position] at chunk
                exact here chunk.2
              · exact none later (by omega) chunk
      · simp [round] at ran
      · rw [position] at ends
        simp only [round, Option.bind_some, PeekM.pure_apply, Option.some.injEq] at ran
        rw [← ran, same]
        refine .inr ⟨?_, setBy.still scan left.pos⟩
        intro later above chunk
        exact chunk.1 index (by omega) ends

theorem setBy_data (buf : Buffer) :
    SetByChunk buf wavDataId (fun scan => (scan.data, scan.dataBytes))
      fun pos => (some (u32 (pos + 8)), buf.getU32 (pos + 4)) := by
  refine ⟨?_, ?_, fun _ _ => rfl⟩
  · intro scan data
    have other : ¬ buf.getU32 scan.pos = wavFmtId := by
      rw [data]
      decide
    simp only [WavScan.pass, if_neg other, if_pos data]
  · intro scan other
    simp only [WavScan.pass, if_neg other]
    split <;> rfl

/-- The format, the channels, the rate and the bits in a format chunk. -/
def formatAt (buf : Buffer) (pos : Nat) : Nat × Nat × Nat × Nat :=
  (buf.getU16 (u32 (pos + 8)), buf.getU16 (u32 (pos + 8) + 2), buf.getU32 (u32 (pos + 8) + 4),
    buf.getU16 (u32 (pos + 8) + 14))

theorem setBy_format (buf : Buffer) :
    SetByChunk buf wavFmtId (fun scan => (scan.audioFmt, scan.channels, scan.rate, scan.bits))
      (formatAt buf) := by
  refine ⟨?_, ?_, fun _ _ => rfl⟩
  · intro scan format
    simp only [WavScan.pass, if_pos format, formatAt]
  · intro scan other
    simp only [WavScan.pass, if_neg other]
    split <;> rfl

/-- A loop that ends makes the parser return -1 exactly when it comes to a format chunk
that is too short. -/
theorem wavLoop_short {buf : Buffer} {len fuel index : Nat} {scan : WavScan}
    {final : Option WavScan} (position : scan.pos = chunkAt buf index)
    (reached : ChunkReached buf len index) (ran : (wavLoop len fuel scan buf).1 = some final) :
    final = none ↔
      ∃ later, index ≤ later ∧ ChunkReached buf len later ∧
        ChunkShort buf len (chunkAt buf later) := by
  induction fuel generalizing scan index with
  | zero => simp [wavLoop] at ran
  | succ fuel induction =>
      rw [wavLoop, PeekM.bind_fst] at ran
      have only : ChunkEnds buf len scan.pos →
          ∀ later, index ≤ later → ChunkReached buf len later → chunkAt buf later = scan.pos := by
        intro ends later above reachedLater
        have same : later = index := by
          by_contra beyond
          rw [position] at ends
          exact reachedLater index (by omega) ends
        rw [same, position]
      rcases wavChunk_fst buf len scan with
        ⟨goes, round⟩ | ⟨ends, ⟨short, round⟩ | ⟨long, left, round, _⟩⟩
      · have next : (scan.pass buf).pos = chunkAt buf (index + 1) := by
          rw [WavScan.pass_pos, position, chunkAt_succ]
        rw [round, Option.bind_some] at ran
        rw [position] at goes
        rw [induction next (chunkReached_succ.mpr ⟨reached, goes⟩) ran]
        constructor
        · rintro ⟨later, above, found⟩
          exact ⟨later, by omega, found⟩
        · rintro ⟨later, above, reachedLater, short⟩
          refine ⟨later, ?_, reachedLater, short⟩
          by_contra first
          have same : later = index := by omega
          rw [same] at short
          exact goes (.inr (.inr short.2.2))
      · simp only [round, Option.bind_some, PeekM.pure_apply, Option.some.injEq] at ran
        rw [position] at short
        exact iff_of_true ran.symm ⟨index, Nat.le_refl index, reached, short⟩
      · simp only [round, Option.bind_some, PeekM.pure_apply, Option.some.injEq] at ran
        rw [← ran]
        simp only [reduceCtorEq, false_iff]
        rintro ⟨later, above, reachedLater, short⟩
        rw [only ends later above reachedLater] at short
        exact long short

/-- What the parser finds: the loop ends, it does not come to a format chunk that is too
short, and the last format chunk and the last data chunk that it passes have the values
and pass the checks. -/
structure WavFinds (buf : Buffer) (len : Nat) (info : WavInfo) : Prop where
  ends : ¬ ChunksCircle buf len
  long : ∀ index, ChunkReached buf len index → ¬ ChunkShort buf len (chunkAt buf index)
  format : ∃ index, LastChunkPassed buf len wavFmtId index ∧
    formatAt buf (chunkAt buf index) = (1, info.channels, info.rate, info.bits)
  data : ∃ index, LastChunkPassed buf len wavDataId index ∧
    info.data = u32 (chunkAt buf index + 8) ∧ info.dataBytes = buf.getU32 (chunkAt buf index + 4)
  bits : info.bits = 8 ∨ info.bits = 16
  nonempty : info.dataBytes ≠ 0

theorem wavFinish_eq_some {scan : WavScan} {info : WavInfo} :
    wavFinish scan = some info ↔
      (scan.audioFmt, scan.channels, scan.rate, scan.bits) =
        (1, info.channels, info.rate, info.bits) ∧
      (scan.data, scan.dataBytes) = (some info.data, info.dataBytes) ∧
      (info.bits = 8 ∨ info.bits = 16) ∧ info.dataBytes ≠ 0 := by
  cases info with
  | mk rate channels bits offset bytes =>
      cases data : scan.data with
      | none => simp [wavFinish, data]
      | some found =>
          simp only [wavFinish, data, Prod.mk.injEq, Option.some.injEq]
          split
          · next refused =>
              simp only [reduceCtorEq, false_iff]
              omega
          · next accepted =>
              simp only [Option.some.injEq, WavInfo.mk.injEq]
              omega

/-- The parser returns 0 with what it finds. -/
theorem wavParse_finds_iff {buf : Buffer} {len : Nat} (tagged : WavTagged buf len)
    (info : WavInfo) :
    (∃ fuel, (wavParse len fuel buf).1 = some (some info)) ↔ WavFinds buf len info := by
  have start : ChunkReached buf len 0 := fun earlier impossible =>
    absurd impossible (Nat.not_lt_zero earlier)
  have results : ∀ {fuel final}, (wavLoop len fuel wavStart buf).1 = some (some final) →
      (wavFinish final = some info ↔ WavFinds buf len info) := by
    intro fuel final loop
    have ends : ¬ ChunksCircle buf len :=
      (wavLoop_returns_iff buf len).mp ⟨fuel, by simp [loop]⟩
    have short := @wavLoop_short buf len fuel 0 wavStart _ rfl start loop
    have format := @SetByChunk.last _ buf len _ fuel 0 _ _ wavStart final (setBy_format buf) rfl
      start loop
    have data := @SetByChunk.last _ buf len _ fuel 0 _ _ wavStart final (setBy_data buf) rfl
      start loop
    simp only [reduceCtorEq, Nat.zero_le, true_and, true_imp_iff, false_iff, not_exists,
      not_and] at short format data
    rw [wavFinish_eq_some]
    constructor
    · rintro ⟨formats, found, bits, nonempty⟩
      refine ⟨ends, short, ?_, ?_, bits, nonempty⟩
      · cases format with
        | inl last =>
            rcases last with ⟨index, last, values⟩
            exact ⟨index, last, values.symm.trans formats⟩
        | inr none => simp [none.2, wavStart] at formats
      · cases data with
        | inl last =>
            rcases last with ⟨index, last, values⟩
            rw [found, Prod.mk.injEq, Option.some.injEq] at values
            exact ⟨index, last, values.1, values.2⟩
        | inr none => simp [none.2, wavStart] at found
    · intro finds
      rcases finds.format with ⟨first, lastFormat, formats⟩
      rcases finds.data with ⟨second, lastData, offset, bytes⟩
      refine ⟨?_, ?_, finds.bits, finds.nonempty⟩
      · cases format with
        | inl last =>
            rcases last with ⟨index, last, values⟩
            rw [values, last.unique lastFormat, formats]
        | inr none => exact absurd lastFormat.1 (none.1 first)
      · cases data with
        | inl last =>
            rcases last with ⟨index, last, values⟩
            rw [values, last.unique lastData, offset, bytes]
        | inr none => exact absurd lastData.1 (none.1 second)
  simp only [wavParse_tagged tagged, Option.map_eq_some_iff]
  constructor
  · rintro ⟨fuel, final, loop, finished⟩
    cases final with
    | none => simp at finished
    | some final => exact (results loop).mp finished
  · intro finds
    rcases (wavLoop_returns_iff buf len).mpr finds.ends with ⟨fuel, returned⟩
    cases loop : (wavLoop len fuel wavStart buf).1 with
    | none => exact absurd loop returned
    | some final =>
        cases final with
        | none =>
            rcases (@wavLoop_short buf len fuel 0 wavStart _ rfl start loop).mp rfl with
              ⟨index, _, reached, short⟩
            exact absurd short (finds.long index reached)
        | some final => exact ⟨fuel, some final, loop, (results loop).mpr finds⟩

/-! ## Data inside the file -/

/-- For every chunk that the parser comes to, its header lies in the 32-bit positions;
a format chunk that it passes has 16 bytes in the file; and the last data chunk that it
passes lies behind the file's header and in the 32-bit positions. -/
structure WavInRange (buf : Buffer) (len : Nat) : Prop where
  header : ∀ index, ChunkReached buf len index → u32 (chunkAt buf index + 8) ≤ len →
    chunkAt buf index + 8 < 4294967296
  format : ∀ index, ChunkReached buf len (index + 1) → buf.getU32 (chunkAt buf index) = wavFmtId →
    chunkAt buf index + 24 ≤ len
  data : ∀ index, LastData buf len index → 12 ≤ chunkAt buf index ∧
    chunkAt buf index + 8 + buf.getU32 (chunkAt buf index + 4) < 4294967296

/-- What a caller expects: the data is behind the headers and in the file, and only
bytes of the file were read. -/
structure WavInside (len : Nat) (info : WavInfo) (reads : List Nat) : Prop where
  behind : 20 ≤ info.data
  inside : info.data + info.dataBytes ≤ len
  reads : ∀ offset ∈ reads, offset < len

theorem roundInside_iff {buf : Buffer} {len : Nat} (narrow : len < 4294967296) :
    (∀ index, ChunkReached buf len index → RoundInside buf len (chunkAt buf index)) ↔
      (∀ index, ChunkReached buf len index → u32 (chunkAt buf index + 8) ≤ len →
        chunkAt buf index + 8 < 4294967296) ∧
      (∀ index, ChunkReached buf len (index + 1) → buf.getU32 (chunkAt buf index) = wavFmtId →
        chunkAt buf index + 24 ≤ len) := by
  constructor
  · intro inside
    refine ⟨?_, ?_⟩
    · intro index reached header
      have read := (inside index reached).1 header
      omega
    · intro index reached format
      rcases chunkReached_succ.mp reached with ⟨before, goes⟩
      have header : u32 (chunkAt buf index + 8) ≤ len := by
        by_contra beyond
        exact goes (.inl (by omega))
      have read := (inside index before).1 header
      have format := (inside index before).2 goes format
      rw [u32_of_lt (show chunkAt buf index + 8 < 4294967296 by omega)] at format
      omega
  · rintro ⟨headers, formats⟩ index reached
    refine ⟨?_, ?_⟩
    · intro header
      have small := headers index reached header
      rw [u32_of_lt small] at header
      omega
    · intro goes format
      have long := formats index (chunkReached_succ.mpr ⟨reached, goes⟩) format
      rw [u32_of_lt (show chunkAt buf index + 8 < 4294967296 by omega)]
      omega

/-- Chunks that end in the 32-bit positions are in range. -/
theorem ChunksUnwrapped.inRange {buf : Buffer} {len : Nat} (unwrapped : ChunksUnwrapped buf len) :
    WavInRange buf len := by
  have headers : ∀ index, ChunkReached buf len (index + 1) →
      u32 (chunkAt buf index + 8) ≤ len ∧ nextChunk buf (chunkAt buf index) ≤ len ∧
        ¬ (buf.getU32 (chunkAt buf index) = wavFmtId ∧
          buf.getU32 (chunkAt buf index + 4) < 16) := by
    intro index reached
    have goes := (chunkReached_succ.mp reached).2
    simp only [ChunkEnds, not_or] at goes
    exact ⟨by omega, by omega, goes.2.2⟩
  have behind : ∀ index, ChunkReached buf len index → 12 ≤ chunkAt buf index := by
    intro index
    induction index with
    | zero => exact fun _ => Nat.le_refl 12
    | succ index induction =>
        intro reached
        have before := induction (chunkReached_succ.mp reached).1
        rw [unwrapped.next reached]
        omega
  refine ⟨?_, ?_, ?_⟩
  · intro index reached header
    have bound := unwrapped index reached header
    omega
  · intro index reached format
    rcases headers index reached with ⟨_, fits, long⟩
    rw [← chunkAt_succ, unwrapped.next reached] at fits
    have size : ¬ buf.getU32 (chunkAt buf index + 4) < 16 := fun short => long ⟨format, short⟩
    omega
  · intro index last
    have reached := (chunkReached_succ.mp last.1.1).1
    exact ⟨behind index reached, unwrapped index reached (headers index last.1.1).1⟩

theorem wavParse_readsBelow {buf : Buffer} {len : Nat} (tagged : WavTagged buf len) (fuel : Nat) :
    ReadsBelow len (wavParse len fuel) buf ↔ ReadsBelow len (wavLoop len fuel wavStart) buf := by
  rcases tagged with ⟨long, riff, wave⟩
  have enough : ¬ len < 44 := by omega
  have finish : ∀ final, ReadsBelow len (match final with
      | none => pure none
      | some scan => pure (wavFinish scan) : PeekM (Option WavInfo)) buf := by
    intro final
    cases final <;> simp
  have first : 0 + 3 < len := by omega
  have second : 8 + 3 < len := by omega
  rw [wavParse, if_neg enough, readsBelow_bind, peek32_fst, readsBelow_peek32]
  simp only [Option.some.injEq, forall_eq', riff, ne_eq, not_true_eq_false, if_false, first,
    true_and]
  rw [readsBelow_bind, peek32_fst, readsBelow_peek32]
  simp only [Option.some.injEq, forall_eq', wave, not_true_eq_false, if_false, second, true_and]
  rw [readsBelow_bind]
  exact ⟨fun both => both.1, fun below => ⟨below, fun final _ => finish final⟩⟩

/-- The two sides for a run that ends with the data of the last data chunk. -/
theorem wavInside_iff {buf : Buffer} {len last : Nat} {info : WavInfo} {reads : List Nat}
    (narrow : len < 4294967296) (isLast : LastData buf len last)
    (offset : info.data = u32 (chunkAt buf last + 8))
    (size : info.dataBytes = buf.getU32 (chunkAt buf last + 4))
    (below : (∀ offset ∈ reads, offset < len) ↔
      (∀ index, ChunkReached buf len index → u32 (chunkAt buf index + 8) ≤ len →
        chunkAt buf index + 8 < 4294967296) ∧
      (∀ index, ChunkReached buf len (index + 1) → buf.getU32 (chunkAt buf index) = wavFmtId →
        chunkAt buf index + 24 ≤ len)) :
    WavInside len info reads ↔ WavInRange buf len := by
  rcases chunkReached_succ.mp isLast.1.1 with ⟨reached, goes⟩
  have header : u32 (chunkAt buf last + 8) ≤ len := by
    by_contra beyond
    exact goes (.inl (by omega))
  have fits : nextChunk buf (chunkAt buf last) ≤ len := by
    by_contra beyond
    exact goes (.inr (.inl (by omega)))
  constructor
  · intro inside
    rcases below.mp inside.reads with ⟨headers, formats⟩
    refine ⟨headers, formats, ?_⟩
    intro index isLast'
    have same : index = last := LastChunkPassed.unique isLast' isLast
    have behind := inside.behind
    have ending := inside.inside
    rw [offset, u32_of_lt (headers last reached header)] at behind ending
    rw [size] at ending
    rw [same]
    omega
  · intro range
    rcases range.data last isLast with ⟨behind, unwrapped⟩
    have small := range.header last reached header
    rw [nextChunk, u32_of_lt small, u32_of_lt unwrapped] at fits
    refine ⟨?_, ?_, below.mpr ⟨range.header, range.format⟩⟩
    · rw [offset, u32_of_lt small]
      omega
    · rw [offset, u32_of_lt small, size]
      exact fits

/-- A run that returns 0 found data in the file and read only bytes of the file exactly
when the chunks are in range. -/
theorem wavParse_inside_iff {buf : Buffer} {len fuel : Nat} {info : WavInfo} {reads : List Nat}
    (narrow : len < 4294967296) (ran : wavParse len fuel buf = (some (some info), reads)) :
    WavInside len info reads ↔ WavInRange buf len := by
  have tagged : WavTagged buf len := by
    by_contra untagged
    have result := wavParse_untagged untagged fuel
    rw [ran] at result
    simp at result
  rcases (wavParse_finds_iff tagged info).mp ⟨fuel, by rw [ran]⟩ with
    ⟨_, _, _, ⟨last, isLast, offset, size⟩, _, _⟩
  have below : (∀ offset ∈ reads, offset < len) ↔
      ReadsBelow len (wavLoop len fuel wavStart) buf := by
    rw [← wavParse_readsBelow tagged, ReadsBelow, ran]
  have returned : (wavLoop len fuel wavStart buf).1 ≠ none := by
    intro none
    have result := wavParse_tagged tagged fuel
    simp [ran, none] at result
  have start : ChunkReached buf len 0 := fun earlier impossible =>
    absurd impossible (Nat.not_lt_zero earlier)
  have read := @wavLoop_readsBelow buf len fuel 0 wavStart rfl start returned
  simp only [Nat.zero_le, true_imp_iff, roundInside_iff narrow] at read
  exact wavInside_iff narrow isLast offset size (below.trans read)

end ParanOS
