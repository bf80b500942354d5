import ParanOS.Fat.Contract
import ParanOS.Fat.Listing

/-! # The content under a path

What reading a path returns, for every limit, and what the calls of the driver do to it: nothing,
unless they overwrite the entry that the path leads to.
-/

namespace ParanOS

open Foundation

/-- What reading the path returns, for every number of bytes that may be asked for. -/
def contentAt (v : Vol) (fuel : Nat) (path : CString) (sectors : Nat → Buffer) (maxBytes : Nat) :
    Option ReadResult :=
  (fat32ReadFilePath v fuel path maxBytes (Device.healthy sectors)).map fun run => run.1.2

theorem chainData_length (v : Vol) (store : ClusterStore) (chain : List Nat) :
    (chainData v store chain).length = chain.length * (v.secPerClus * v.bytesPerSec) := by
  simp [chainData, clusterData, List.length_flatMap]

section

variable {v : Vol} {sectors sectors' : Nat → Buffer} {fuel : Nat} {path : CString} {slot : Slot}
  (wellFormed : WellFormed v sectors) (enough : v.clusterLimit < fuel)
  (resolved : Resolves v (view v v.clusterLimit sectors) v.rootClus path.components83 slot)
include wellFormed enough resolved

theorem contentAt_resolves {chain : List Nat}
    (holds : Chain v.clusterLimit (view v v.clusterLimit sectors)
      (ownerStart v (view v v.clusterLimit sectors) (some slot)) chain) (maxBytes : Nat) :
    contentAt v fuel path sectors maxBytes =
      some (entryResult v (view v v.clusterLimit sectors) slot maxBytes chain) := by
  rw [contentAt, fat32ReadFilePath_resolves wellFormed enough resolved holds]
  rfl

theorem Frame.contentAt_eq {except : Slot}
    (frame : Frame v v.clusterLimit (view v v.clusterLimit sectors)
      (view v v.clusterLimit sectors') except) (apart : slot ≠ except) :
    contentAt v fuel path sectors' = contentAt v fuel path sectors := by
  funext maxBytes
  rcases frame.reads_alike wellFormed enough resolved apart maxBytes with ⟨result, ran, ran'⟩
  rw [contentAt, contentAt, ran, ran']
  rfl

end

/-! ## Calls that only add -/

/-- Everything that was there is as it was. -/
def OnlyAdds (v : Vol) (sectors sectors' : Nat → Buffer) : Prop :=
  ∀ except, Frame v v.clusterLimit (view v v.clusterLimit sectors)
    (view v v.clusterLimit sectors') except

namespace OnlyAdds

variable {v : Vol} {sectors middle sectors' : Nat → Buffer}

theorem refl (wellFormed : WellFormed v sectors) : OnlyAdds v sectors sectors :=
  Frame.refl wellFormed.owned

theorem trans (first : OnlyAdds v sectors middle) (second : OnlyAdds v middle sectors') :
    OnlyAdds v sectors sectors' :=
  fun except => (first except).trans (second except)

theorem wellFormed (adds : OnlyAdds v sectors sectors') (before : WellFormed v sectors) :
    WellFormed v sectors' :=
  ⟨before.shape, (adds Change.nowhere).owned⟩

theorem contentAt_eq {fuel : Nat} {path : CString} {slot : Slot}
    (adds : OnlyAdds v sectors sectors') (before : WellFormed v sectors)
    (enough : v.clusterLimit < fuel)
    (resolved : Resolves v (view v v.clusterLimit sectors) v.rootClus path.components83 slot) :
    contentAt v fuel path sectors' = contentAt v fuel path sectors := by
  rcases before.owned.liveDir_root with ⟨_, root⟩
  have live := before.owned.live_of_resolves root resolved
  apply (adds Change.nowhere).contentAt_eq before enough resolved
  intro equal
  rw [equal] at live
  exact Change.nowhere_not_placed (before.owned.placed_of_live live).1

end OnlyAdds

section

variable {v : Vol} {sectors : Nat → Buffer} (wellFormed : WellFormed v sectors) {fuel : Nat}
  (enough : v.clusterLimit < fuel)
include wellFormed enough

theorem fat32EnsureDirPath_onlyAdds (path : CString) :
    ∃ code sectors', fat32EnsureDirPath v fuel path (Device.healthy sectors) =
        some ((v, code), Device.healthy sectors') ∧ OnlyAdds v sectors sectors' := by
  rcases wellFormed.owned.liveDir_root with ⟨chain, root⟩
  rcases ensureWalk_frame wellFormed.shape enough (components83_chars path)
    wellFormed.owned (.inl root) with ⟨code, sectors', ran, frame⟩
  refine ⟨code, sectors', ?_, frame⟩
  simp only [fat32EnsureDirPath, wellFormed.shape.fat32]
  rw [DiskM.bind_run ran]
  rfl

/-- The listing walk returns. -/
theorem listWalk_healthy (maxItems : Nat) (comps : List (List UInt8)) {dirCl : Nat}
    {chain : List Nat}
    (dir : LiveDir v v.clusterLimit (view v v.clusterLimit sectors) dirCl chain) :
    ∃ result, listWalk v fuel maxItems comps dirCl (Device.healthy sectors) =
      some (result, Device.healthy sectors) := by
  induction comps generalizing dirCl chain with
  | nil => exact ⟨_, listWalk_here wellFormed.shape.geometry dir.dirChain enough⟩
  | cons comp rest induction =>
      rcases dirFindEntry_healthy wellFormed.shape.geometry (makeName83 comp) dir.dirChain enough
        with ⟨slot, first, found⟩ | ⟨absent, code, missed⟩
      · rw [listWalk, DiskM.bind_run found]
        cases isDir : direntIsDir (entryAt (view v v.clusterLimit sectors) slot) with
        | true =>
            have placed : Placed v v.clusterLimit (view v v.clusterLimit sectors) slot :=
              ⟨dirCl, chain, dir, first.mem⟩
            rcases wellFormed.owned.liveDir (placed.live first.matched.listed) isDir with
              ⟨chain', next⟩
            dsimp only [hitAt]
            rw [if_pos isDir]
            exact induction next
        | false =>
            dsimp only [hitAt]
            rw [if_neg (Bool.eq_false_iff.mp isDir)]
            exact ⟨_, rfl⟩
      · rw [listWalk, DiskM.bind_run missed]
        exact ⟨_, rfl⟩

theorem fat32ListDirPath_healthy (path : CString) (maxItems : Int) :
    ∃ result, fat32ListDirPath v fuel path maxItems (Device.healthy sectors) =
      some ((v, result), Device.healthy sectors) := by
  rcases wellFormed.owned.liveDir_root with ⟨chain, root⟩
  rcases listWalk_healthy wellFormed enough maxItems.toNat path.components83 root with
    ⟨⟨code, items⟩, ran⟩
  by_cases unasked : maxItems ≤ 0
  · refine ⟨(-1, []), ?_⟩
    simp only [fat32ListDirPath, if_pos unasked, wellFormed.shape.fat32]
    rfl
  · refine ⟨(code, items), ?_⟩
    simp only [fat32ListDirPath, if_neg unasked, wellFormed.shape.fat32]
    rw [DiskM.bind_run ran]
    rfl

end

/-! ## Writing -/

/-- Writing under a path that does not lead to an entry keeps the entry, whatever the write
returns. -/
theorem writeWalk_keeps {v : Vol} (shape : Fat32Geometry v) {fuel : Nat}
    (enough : v.clusterLimit < fuel) (data : List UInt8) {comps : List (List UInt8)}
    (chars : ∀ comp ∈ comps, comp ≠ [] ∧ ∀ char ∈ comp, char ≠ 0)
    {sectors : Nat → Buffer} {dirCl : Nat} {chain : List Nat} {slot : Slot}
    (owned : Owned v v.clusterLimit (view v v.clusterLimit sectors))
    (walking : Walking v v.clusterLimit (view v v.clusterLimit sectors) dirCl chain)
    (live : Live v (view v v.clusterLimit sectors) (some slot))
    (elsewhere : ¬ Resolves v (view v v.clusterLimit sectors) dirCl comps slot) :
    ∃ code sectors' except, writeWalk v fuel data comps dirCl (Device.healthy sectors) =
        some (code, Device.healthy sectors') ∧ slot ≠ except ∧
      Frame v v.clusterLimit (view v v.clusterLimit sectors)
        (view v v.clusterLimit sectors') except := by
  have placed : slot ≠ Change.nowhere := by
    intro equal
    rw [equal] at live
    exact Change.nowhere_not_placed (owned.placed_of_live live).1
  induction comps generalizing sectors dirCl chain with
  | nil => exact ⟨-10, sectors, _, rfl, placed, Frame.refl owned _⟩
  | cons comp rest induction =>
      have later : ∀ comp ∈ rest, comp ≠ [] ∧ ∀ char ∈ comp, char ≠ 0 :=
        fun other member => chars other (by simp [member])
      rcases chars comp (by simp) with ⟨nonempty, nulFree⟩
      cases writeWalk_step shape enough data rest owned walking nonempty nulFree with
      | @overwrites found code sectors' last dir _ first frame _ ran =>
          refine ⟨code, sectors', found, ran, ?_, frame⟩
          intro equal
          rw [equal, last] at elsewhere
          exact elsewhere (.last (dir.chain.linked dir.occupied) first)
      | creates _ _ frame _ ran => exact ⟨_, _, _, ran, placed, frame _⟩
      | passes more step =>
          cases step with
          | enters dir middleLive first isDir ran =>
              rcases owned.liveDir middleLive isDir with ⟨chain', next⟩
              rw [ran]
              apply induction later owned (.inl next) live
              exact fun resolved =>
                elsewhere (.step (dir.chain.linked dir.occupied) first isDir more resolved)
          | blocked _ _ _ ran => exact ⟨_, _, _, ran, placed, Frame.refl owned _⟩
          | @makes _ _ sectors1 _ frame1 making ran =>
              rw [ran]
              cases making with
              | full _ _ => exact ⟨-3, sectors1, _, rfl, placed, frame1 _⟩
              | crowded _ _ => exact ⟨-5, sectors1, _, rfl, placed, frame1 _⟩
              | made made =>
                  have live1 := ((frame1 Change.nowhere).kept slot live placed).live
                  -- what the new directory holds was not there before
                  have elsewhere1 := @not_resolves_of_unlisted _ _ _ _ _ rest slot
                    made.walking.dirChain made.unlisted
                  rcases induction later (frame1 Change.nowhere).owned made.walking live1 elsewhere1
                    with ⟨code, sectors', except, ranRest, apart, frame⟩
                  exact ⟨code, sectors', except, ranRest, apart, (frame1 except).trans frame⟩

/-- Writing under a path overwrites the entry that it leads to. -/
theorem writeWalk_resolves {v : Vol} (shape : Fat32Geometry v) {fuel : Nat}
    (enough : v.clusterLimit < fuel) (data : List UInt8) {sectors : Nat → Buffer}
    (owned : Owned v v.clusterLimit (view v v.clusterLimit sectors))
    {dirCl : Nat} {chain : List Nat} {comps : List (List UInt8)} {slot : Slot}
    (dir : LiveDir v v.clusterLimit (view v v.clusterLimit sectors) dirCl chain)
    (resolved : Resolves v (view v v.clusterLimit sectors) dirCl comps slot) :
    writeWalk v fuel data comps dirCl (Device.healthy sectors) =
      overwriteFile v (hitAt v (view v v.clusterLimit sectors) slot) data
        (Device.healthy sectors) := by
  induction resolved generalizing chain with
  | @last dirCl comp chain' slot linked first =>
      rw [linked.unique (dir.chain.linked dir.occupied)] at first
      rw [writeWalk, DiskM.bind_run (dirFindEntry_first shape enough dir first)]
      rfl
  | @step dirCl comp rest chain' middle slot linked first isDir more _ induction =>
      rw [linked.unique (dir.chain.linked dir.occupied)] at first
      have placed : Placed v v.clusterLimit (view v v.clusterLimit sectors) middle :=
        ⟨dirCl, chain, dir, first.mem⟩
      rcases owned.liveDir (placed.live first.matched.listed) isDir with ⟨chain'', next⟩
      have nonempty : rest.isEmpty = false := by simpa using more
      rw [writeWalk, DiskM.bind_run (dirFindEntry_first shape enough dir first)]
      simp only [nonempty, Bool.not_false, if_true, hitAt, isDir]
      exact induction next

/-- A file that has a cluster is overwritten. -/
theorem overwriteFile_stores {v : Vol} (shape : Fat32Geometry v) {sectors sectors' : Nat → Buffer}
    (owned : Owned v v.clusterLimit (view v v.clusterLimit sectors)) {slot : Slot}
    (live : Live v (view v v.clusterLimit sectors) (some slot)) (data : List UInt8)
    (file : direntIsDir (entryAt (view v v.clusterLimit sectors) slot) = false)
    (occupied : direntStartCluster (entryAt (view v v.clusterLimit sectors) slot) ≠ 0) {code : Int}
    (ran : overwriteFile v (hitAt v (view v v.clusterLimit sectors) slot) data
      (Device.healthy sectors) = some (code, Device.healthy sectors')) : code = 0 := by
  have started : ownerStart v (view v v.clusterLimit sectors) (some slot) ≠ 0 := occupied
  rcases owned.tenancy.held (some slot) live with ⟨chain, holds⟩
  have first := holds.start_mem started
  rcases writeSingleCluster_healthy shape.geometry sectors (holds.inside first)
    (holds.not_stop first) data with ⟨between, written, _⟩
  have notDir : ¬ direntIsDir (hitAt v (view v v.clusterLimit sectors) slot).de = true := by
    simp [hitAt, file]
  have target : targetCluster v (direntStartCluster
      (hitAt v (view v v.clusterLimit sectors) slot).de) (Device.healthy sectors) =
        some (ownerStart v (view v v.clusterLimit sectors) (some slot),
          Device.healthy sectors) := by
    rw [targetCluster, hitAt, if_neg occupied]
    rfl
  rw [overwriteFile, if_neg notDir, DiskM.bind_run target, if_neg started,
    DiskM.bind_run written] at ran
  exact (Prod.mk.inj (Option.some.inj ran)).1.symm

/-- The paths to an entry that is overwritten still lead to it. -/
theorem Resolves.overwritten {v : Vol} {store store' : ClusterStore} {limit : Nat} {slot : Slot}
    (owned : Owned v limit store) (frame : Frame v limit store store' slot)
    (file : ¬ OwnerIsDir store (some slot))
    (still : ∀ want dirCl chain, LiveDir v limit store dirCl chain →
      FirstMatch want store (chainSlots v chain) slot →
      FirstMatch want store' (chainSlots v chain) slot)
    {dirCl : Nat} {chain : List Nat} {comps : List (List UInt8)}
    (dir : LiveDir v limit store dirCl chain) (resolved : Resolves v store dirCl comps slot) :
    Resolves v store' dirCl comps slot := by
  induction resolved generalizing chain with
  | last linked first =>
      rw [linked.unique (dir.chain.linked dir.occupied)] at first
      have dir' := frame.dirs _ chain dir
      exact .last (dir'.chain.linked dir'.occupied) (still _ _ chain dir first)
  | @step dirCl comp rest chain' middle slot linked first isDir more _ induction =>
      rw [linked.unique (dir.chain.linked dir.occupied)] at first
      have placed : Placed v limit store middle := ⟨dirCl, chain, dir, first.mem⟩
      have live := placed.live first.matched.listed
      have different : middle ≠ slot := by
        intro equal
        rw [equal] at isDir
        exact file isDir
      have kept := frame.kept middle live different
      have dir' := frame.dirs dirCl chain dir
      have first' := resolves_single dir'
        (kept.resolves dirCl chain [comp] dir (.last (dir.chain.linked dir.occupied) first))
      rcases owned.liveDir live isDir with ⟨chain'', next⟩
      apply Resolves.step (dir'.chain.linked dir'.occupied) first' _ more
      · rw [kept.entry]
        exact induction frame file still next
      · rw [kept.entry]
        exact isDir

section

variable {v : Vol} {sectors : Nat → Buffer} {fuel : Nat} {path other : CString} {slot : Slot}
  (wellFormed : WellFormed v sectors) (enough : v.clusterLimit < fuel)
  (resolved : Resolves v (view v v.clusterLimit sectors) v.rootClus path.components83 slot)
include wellFormed enough resolved

/-- A write under a path that leads to another entry, or to none. -/
theorem fat32WriteFilePath_elsewhere (data : List UInt8)
    (elsewhere : ¬ Resolves v (view v v.clusterLimit sectors) v.rootClus other.components83 slot) :
    ∃ code sectors', fat32WriteFilePath v fuel other data (Device.healthy sectors) =
        some ((v, code), Device.healthy sectors') ∧ WellFormed v sectors' ∧
      Resolves v (view v v.clusterLimit sectors') v.rootClus path.components83 slot ∧
      contentAt v fuel path sectors' = contentAt v fuel path sectors := by
  rcases wellFormed.owned.liveDir_root with ⟨chain, root⟩
  have live := wellFormed.owned.live_of_resolves root resolved
  rcases writeWalk_keeps wellFormed.shape enough data (components83_chars other)
    wellFormed.owned (.inl root) live elsewhere with ⟨code, sectors', except, ran, apart, frame⟩
  refine ⟨code, sectors', ?_, ⟨wellFormed.shape, frame.owned⟩, ?_, ?_⟩
  · simp only [fat32WriteFilePath, wellFormed.shape.fat32]
    rw [DiskM.bind_run ran]
    rfl
  · exact (frame.kept slot live apart).resolves v.rootClus chain _ root resolved
  · exact frame.contentAt_eq wellFormed enough resolved apart

/-- A write under a path that leads to the same file. -/
theorem fat32WriteFilePath_overwrites (data : List UInt8)
    (file : direntIsDir (entryAt (view v v.clusterLimit sectors) slot) = false)
    (occupied : direntStartCluster (entryAt (view v v.clusterLimit sectors) slot) ≠ 0)
    (same : Resolves v (view v v.clusterLimit sectors) v.rootClus other.components83 slot) :
    ∃ sectors', fat32WriteFilePath v fuel other data (Device.healthy sectors) =
        some ((v, 0), Device.healthy sectors') ∧ WellFormed v sectors' ∧
      Resolves v (view v v.clusterLimit sectors') v.rootClus path.components83 slot ∧
      contentAt v fuel path sectors' = fun maxBytes =>
        some ⟨0, min (min data.length v.clusterBytes) maxBytes,
          (data.take v.clusterBytes).take maxBytes⟩ := by
  rcases wellFormed.owned.liveDir_root with ⟨chain, root⟩
  have live := wellFormed.owned.live_of_resolves root resolved
  rcases overwriteFile_spec wellFormed.shape wellFormed.owned live data with
    ⟨code, sectors', ran, frame, overwriting⟩
  have zero := overwriteFile_stores wellFormed.shape wellFormed.owned live data file occupied ran
  rw [zero] at ran overwriting
  have walked := writeWalk_resolves wellFormed.shape enough data wellFormed.owned root same
  have wellFormed' : WellFormed v sectors' := ⟨wellFormed.shape, frame.owned⟩
  refine ⟨sectors', ?_, wellFormed', ?_⟩
  · simp only [fat32WriteFilePath, wellFormed.shape.fat32]
    rw [DiskM.bind_run (walked.trans ran)]
    rfl
  cases overwriting with
  | refused failed _ => exact absurd rfl failed
  | stored notDir stored _ _ _ still =>
      have resolved' := resolved.overwritten wellFormed.owned frame notDir still root
      refine ⟨resolved', ?_⟩
      funext maxBytes
      rcases stored.content with ⟨fileChain, holds, content⟩
      have file' : direntIsDir (entryAt (view v v.clusterLimit sectors') slot) = false := by
        simpa [OwnerIsDir] using stored.file
      have occupied' : direntStartCluster (entryAt (view v v.clusterLimit sectors') slot) ≠ 0 :=
        stored.occupied
      rw [contentAt_resolves wellFormed' enough resolved' holds, entryResult, file',
        if_neg Bool.false_ne_true, fileResult, if_neg occupied', stored.size, ← content,
        List.take_take, Nat.min_comm maxBytes]

end

end ParanOS
