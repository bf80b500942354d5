import ParanOS.Fat.Contract

/-! # Reads that deliver less than they report

`read_file_from_cluster` reports the size that it was asked for, and its loop stops
where the chain ends. A failed read of the table looks like the end of the chain. On
any device, whatever is in the table and whichever reads fail, the two agree exactly
when the links that the loop sees go on for as long as bytes are wanted.
-/

namespace ParanOS

open Foundation

/-- The clusters as the loop follows them when it reads all sectors of each. The
read of the table behind cluster `index` is call `(index + 1) * secPerClus + index`
on the device. -/
def linkRead (v : Vol) (device : Device) (start : Nat) : Nat → Nat
  | 0 => start
  | index + 1 =>
      if device.readFaults ((index + 1) * v.secPerClus + index) then eocMark
      else fatEntry v device.sectors (linkRead v device start index)

/-- The chain goes on for as long as bytes are wanted. -/
def Reaches (v : Vol) (device : Device) (start wanted : Nat) : Prop :=
  ∀ index, index * (v.secPerClus * v.bytesPerSec) < wanted →
    ¬ EndOfChain (linkRead v device start index)

/-! ## The links -/

theorem linkRead_succ (v : Vol) (device : Device) (start index : Nat) :
    linkRead v device start (index + 1) =
      if device.readFaults ((index + 1) * v.secPerClus + index) then eocMark
      else fatEntry v device.sectors (linkRead v device start index) := rfl

theorem linkRead_after (v : Vol) (device : Device) (start index : Nat) :
    linkRead v (device.after (v.secPerClus + 1)) (linkRead v device start 1) index =
      linkRead v device start (index + 1) := by
  induction index with
  | zero => rfl
  | succ index induction =>
      have call : (index + 1) * v.secPerClus + index + (v.secPerClus + 1) =
          (index + 1 + 1) * v.secPerClus + (index + 1) := by
        rw [Nat.add_mul (index + 1) 1, Nat.one_mul]
        omega
      rw [linkRead_succ v _ _ index, linkRead_succ v _ _ (index + 1), induction]
      simp only [Device.after, call]

theorem fatReadFatEntry_any (v : Vol) (clus : Nat) (device : Device) :
    fatReadFatEntry v clus device =
      some (if device.readFaults 0 then eocMark else fatEntry v device.sectors clus,
        device.after 1) := by
  simp only [fatReadFatEntry, DiskM.bind_apply, rd, Option.bind_some]
  cases failed : device.readFaults 0 with
  | true => rfl
  | false => simp [fatEntry, Device.after]

theorem reaches_step {v : Vol} {device : Device} {start wanted : Nat}
    (running : ¬ EndOfChain start) (more : v.secPerClus * v.bytesPerSec < wanted) :
    Reaches v device start wanted ↔
      Reaches v (device.after (v.secPerClus + 1)) (linkRead v device start 1)
        (wanted - v.secPerClus * v.bytesPerSec) := by
  simp only [Reaches, linkRead_after]
  generalize v.secPerClus * v.bytesPerSec = size at more ⊢
  constructor
  · intro reaches index below
    apply reaches (index + 1)
    rw [Nat.add_mul, Nat.one_mul]
    omega
  · intro reaches index below
    cases index with
    | zero => exact running
    | succ index =>
        rw [Nat.add_mul, Nat.one_mul] at below
        exact reaches index (by omega)

/-! ## The loops -/

/-- A run of the sector loop in which no read fails. -/
theorem readSectors_ran {v : Vol} {lba count s left left' : Nat} {out out' : List UInt8}
    {device device' : Device}
    (ran : readSectors v lba count s left out device = some ((false, left', out'), device')) :
    left' = left - count * v.bytesPerSec ∧
      out'.length = out.length + min left (count * v.bytesPerSec) ∧
      device'.sectors = device.sectors ∧
      (0 < left' → device' = device.after count) := by
  induction count generalizing s left out device with
  | zero =>
      simp only [readSectors, DiskM.pure_apply, Option.some.injEq, Prod.mk.injEq, true_and] at ran
      rcases ran with ⟨⟨rfl, rfl⟩, rfl⟩
      exact ⟨by simp, by simp, rfl, fun _ => rfl⟩
  | succ count induction =>
      rw [readSectors] at ran
      by_cases done : left = 0
      · rw [if_pos done, DiskM.pure_apply] at ran
        simp only [Option.some.injEq, Prod.mk.injEq, true_and] at ran
        rcases ran with ⟨⟨rfl, rfl⟩, rfl⟩
        exact ⟨by omega, by simp [done], rfl, by omega⟩
      · rw [if_neg done, DiskM.bind_apply, rd, Option.bind_some] at ran
        cases failed : device.readFaults 0 with
        | true => simp [failed] at ran
        | false =>
            simp only [failed, Bool.false_eq_true, if_false] at ran
            rcases induction ran with ⟨remaining, length, sectors, calls⟩
            have product : (count + 1) * v.bytesPerSec = count * v.bytesPerSec + v.bytesPerSec := by
              rw [Nat.add_mul, Nat.one_mul]
            rw [List.length_append, Buffer.bytes_length] at length
            refine ⟨by omega, by omega, sectors, ?_⟩
            intro more
            rw [calls more, show count + 1 = 1 + count from Nat.add_comm _ _,
              ← Device.after_after]
            rfl

/-- What a run of the cluster loop copies, if no read of data fails. -/
theorem readClusters_ran {v : Vol} {fuel cl left : Nat} {out out' : List UInt8}
    {device device' : Device}
    (ran : readClusters v fuel cl left out device = some ((false, out'), device')) :
    out'.length = out.length + left ↔ Reaches v device cl left := by
  induction fuel generalizing cl left out device with
  | zero => simp [readClusters] at ran
  | succ fuel induction =>
      rw [readClusters] at ran
      by_cases stops : isEndCluster cl = true ∨ left = 0
      · rw [if_pos stops, DiskM.pure_apply] at ran
        simp only [Option.some.injEq, Prod.mk.injEq, true_and] at ran
        rcases ran with ⟨rfl, _⟩
        cases Nat.eq_zero_or_pos left with
        | inl none => simp [Reaches, none]
        | inr some =>
            have ended : EndOfChain cl := stops.resolve_right (by omega)
            constructor
            · intro full
              omega
            · intro reaches
              exact absurd ended (reaches 0 (by omega))
      · rw [if_neg stops] at ran
        rw [not_or] at stops
        rcases DiskM.of_bind ran with ⟨⟨failed, left', out''⟩, middle, sectorsRan, restRan⟩
        cases failed with
        | true => simp at restRan
        | false =>
            rcases readSectors_ran sectorsRan with ⟨remaining, length, sectors, calls⟩
            simp only [Bool.false_eq_true, if_false, DiskM.bind_apply, fatReadFatEntry_any,
              Option.bind_some] at restRan
            have rest := induction restRan
            by_cases more : v.secPerClus * v.bytesPerSec < left
            · have between := calls (by omega)
              have link : linkRead v device cl 1 =
                  if middle.readFaults 0 then eocMark else fatEntry v middle.sectors cl := by
                rw [linkRead_succ, between]
                simp [Device.after, linkRead]
              rw [reaches_step stops.1 more, ← remaining, link, ← Device.after_after, ← between,
                ← rest]
              omega
            · have finished : left' = 0 := by omega
              rw [finished] at rest
              have reached : Reaches v device cl left := by
                intro index below
                cases index with
                | zero => exact stops.1
                | succ index =>
                    rw [Nat.add_mul, Nat.one_mul] at below
                    omega
              have full := rest.mpr (by simp [Reaches])
              simp only [reached, iff_true]
              omega

/-- A read that returns 0 has copied as many bytes as it reports exactly when the
chain, as the loop read it, goes on for as long as bytes were wanted. -/
theorem readFileFromCluster_delivers_iff {v : Vol} {fuel startClus fileSize maxBytes : Nat}
    {device device' : Device} {result : ReadResult}
    (ran : readFileFromCluster v fuel startClus fileSize maxBytes device = some (result, device'))
    (succeeded : result.code = 0) :
    result.outBytes = result.out.length ↔
      Reaches v device startClus (min fileSize maxBytes) := by
  rw [readFileFromCluster] at ran
  by_cases vacant : startClus = 0
  · rw [if_pos vacant, DiskM.pure_apply] at ran
    simp only [Option.some.injEq, Prod.mk.injEq] at ran
    rcases ran with ⟨rfl, _⟩
    exact absurd succeeded (by decide)
  · rw [if_neg vacant] at ran
    rcases DiskM.of_bind ran with ⟨⟨failed, out⟩, middle, loopRan, restRan⟩
    cases failed with
    | true =>
        simp only [if_true, DiskM.pure_apply, Option.some.injEq, Prod.mk.injEq] at restRan
        rcases restRan with ⟨rfl, _⟩
        simp at succeeded
    | false =>
        simp only [Bool.false_eq_true, if_false, DiskM.pure_apply, Option.some.injEq,
          Prod.mk.injEq] at restRan
        rcases restRan with ⟨rfl, _⟩
        rw [← readClusters_ran loopRan]
        simp only [List.length_nil, Nat.zero_add]
        exact eq_comm

/-- The small volume with a chain of the one cluster 3. -/
def oneCluster : Nat → Buffer := fun lba =>
  if lba = 1 then Buffer.putU32 (fun _ => 0) 12 eocMark else fun _ => 7

/-- A file of up to 512 bytes fits the chain. -/
theorem readFileFromCluster_delivers_fitting :
    ∃ result device', readFileFromCluster smallVol 3 3 300 1000 (Device.healthy oneCluster) =
        some (result, device') ∧ result.code = 0 ∧ result.outBytes = result.out.length := by
  have ran : readFileFromCluster smallVol 3 3 300 1000 (Device.healthy oneCluster) =
      some (⟨0, 300, [] ++ (oneCluster 3).bytes 0 300⟩, Device.healthy oneCluster) := rfl
  refine ⟨_, _, ran, rfl, (readFileFromCluster_delivers_iff ran rfl).mpr ?_⟩
  intro index below
  have first : index = 0 := by
    have bound : index * 512 < 300 := by simpa [smallVol] using below
    omega
  rw [first]
  decide

/-- A file of 600 bytes in a chain of one cluster: 512 bytes are copied. -/
theorem readFileFromCluster_reports_more :
    ¬ ∀ (v : Vol) (fuel startClus fileSize maxBytes : Nat) (device device' : Device)
      (result : ReadResult),
      readFileFromCluster v fuel startClus fileSize maxBytes device = some (result, device') →
      result.code = 0 → result.outBytes = result.out.length := by
  intro claim
  have reported := claim smallVol 3 3 600 1000 (Device.healthy oneCluster) _ _ rfl rfl
  simp [smallVol] at reported

end ParanOS
