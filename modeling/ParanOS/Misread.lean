import ParanOS.Exfat.Misread
import ParanOS.Fat.Misread

/-! # Failed reads in lookups

When a call in which a lookup cannot read a directory fails, and leaves the directories as
they were, on both file systems, and a call that creates a second entry of the same name.
-/

namespace ParanOS

open Foundation

/-- A read fails while the call looks up a component of its path. -/
def Call.Misread (call : Call) (fuel : Nat) (v : Vol) (device : Device) : Prop :=
  match v.fsType, call with
  | .fat32, .writeFile path _ => WriteMisread v fuel path.components83 v.rootClus device
  | .fat32, .ensureDir path => EnsureMisread v fuel path.components83 v.rootClus device
  | .exfat, .writeFile path _ => ∃ code v' device',
      exfatLoadBitmapInfo v fuel device = some ((code, v'), device') ∧
        ExfatMisread fuel path.componentsLong v'.rootClus v' device'
  | .exfat, .ensureDir path => ExfatMisread fuel path.componentsLong v.rootClus v device

/-- Whichever reads fail: if one does while the call looks up a component, the call fails
and leaves the given clusters and their table entries as they were. -/
def Call.MisreadsFail (call : Call) (fuel : Nat) (v : Vol) (limit : Nat) (kept : Nat → Prop)
    (sectors : Nat → Buffer) : Prop :=
  ∀ device : Device, device.sectors = sectors → (∀ write, device.writeFaults write = false) →
    call.Misread fuel v device →
    ∃ v' code device', call.run fuel v device = some ((v', code), device') ∧ code ≠ 0 ∧
      ClusterStore.Undisturbed kept kept (view v limit sectors) (view v limit device'.sectors)

/-! ## The condition -/

/-- On the way of the path nothing can be created. A write that looks directories up twice
has to lead to a dead end besides. -/
def Call.FatHarmless (v : Vol) (store : ClusterStore) : Call → Prop
  | .writeFile path _ =>
      Along v store (fun chain _ _ => Barred v store chain) v.rootClus path.components83 ∧
      (path.components83.length ≤ 1 ∨
        Along v store (DeadEnd v store) v.rootClus path.components83)
  | .ensureDir path =>
      Along v store (fun chain _ _ => Barred v store chain) v.rootClus path.components83

/-- Nothing can be allocated, and no lookup that passes over a set it cannot read leads to
success. Data is never stored then; an empty file must not find room for its set either. -/
def Call.ExfatHarmless (v : Vol) (store : ClusterStore) : Call → Prop
  | .writeFile path data =>
      (data ≠ [] → Full v store ∨
        path.componentsLong.length ≤ 1 ∧ clustersNeeded v data.length = 0) ∧
      (data = [] → Full v store ∧ ∀ missed dir comp chain,
        Strays v store v.rootClus path.componentsLong missed dir [comp] →
        Linked store.next EndOfChain dir chain →
        ¬ HasSpace v store chain (entriesFor comp) ∧
          ∀ missed' info, Sweep v store comp (chainPlaces v chain) missed' (some (.ok info)) →
            (missed || missed') = false)
  | .ensureDir path => Full v store ∧
      ∀ dir, ¬ Strays v store v.rootClus path.componentsLong true dir []

/-! ## The calls -/

theorem Call.misreadsFail_fat32 {v : Vol} {sectors : Nat → Buffer} {fuel : Nat}
    (wellFormed : WellFormed v sectors) (enough : v.clusterLimit < fuel) (call : Call)
    (harmless : call.FatHarmless v (view v v.clusterLimit sectors)) :
    call.MisreadsFail fuel v v.clusterLimit (InDirectory v sectors) sectors := by
  intro device same healthy misread
  subst same
  have within : device.Within failingReads := ⟨by simp, fun _ => healthy⟩
  rcases wellFormed.owned.liveDir_root with ⟨chain, root⟩
  have directories : ∀ {store' : ClusterStore},
      UsedKept (view v v.clusterLimit device.sectors) store' →
      (view v v.clusterLimit device.sectors).Undisturbed (InDirectory v device.sectors)
        (InDirectory v device.sectors) store' := by
    intro store' kept
    have used : ∀ cl, InDirectory v device.sectors cl →
        (view v v.clusterLimit device.sectors).next cl ≠ 0 := by
      intro cl inside
      rcases inside with ⟨dirCl, members, dir, member⟩
      exact chain_next_ne_zero dir.chain member
    exact kept.mono used used
  cases call with
  | writeFile path data =>
      simp only [Call.Misread, wellFormed.shape.fat32] at misread
      have walked : ∃ code device', writeWalk v fuel data path.components83 v.rootClus device =
          some (code, device') ∧ code ≠ 0 ∧ UsedKept (view v v.clusterLimit device.sectors)
            (view v v.clusterLimit device'.sectors) := by
        rcases harmless with ⟨barred, single | ends⟩
        · exact writeWalk_misread wellFormed.shape enough data single misread within root barred
        · rcases (writeWalk_deadEnd wellFormed.shape enough data wellFormed.owned root barred
            ends).returns device within rfl with ⟨code, device', ran, _, refused⟩
          exact ⟨code, device', ran, refused⟩
      rcases walked with ⟨code, device', ran, failed, kept⟩
      refine ⟨v, code, device', ?_, failed, directories kept⟩
      simp only [Call.run, fat32WriteFilePath, wellFormed.shape.fat32]
      rw [DiskM.bind_run ran]
      rfl
  | ensureDir path =>
      simp only [Call.Misread, wellFormed.shape.fat32] at misread
      rcases ensureWalk_misread wellFormed.shape enough misread within wellFormed.owned root
        harmless with ⟨code, device', ran, failed, kept⟩
      refine ⟨v, code, device', ?_, failed, directories kept⟩
      simp only [Call.run, fat32EnsureDirPath, wellFormed.shape.fat32]
      rw [DiskM.bind_run ran]
      rfl

theorem Call.misreadsFail_exfat {v : Vol} {sectors : Nat → Buffer} {fuel : Nat}
    (sound : ExfatSound v sectors) (enough : v.exfatClusterCount + 2 < fuel) (call : Call)
    (harmless : call.ExfatHarmless v (exfatView v sectors)) :
    call.MisreadsFail fuel v (v.exfatClusterCount + 2) (InExfatDirectory v sectors) sectors := by
  intro device same healthy misread
  subst same
  have within : device.Within failingReads := ⟨by simp, fun _ => healthy⟩
  rcases sound with ⟨shape, bitmap, sound⟩
  rcases sound.owned.dirAt_root with ⟨chain, root⟩
  have start : ExfatOwner.root.start v (exfatView v device.sectors) = v.rootClus := rfl
  have directories : ∀ {store' : ClusterStore},
      HeapKept (exfatView v device.sectors) store' →
      (exfatView v device.sectors).Undisturbed (InExfatDirectory v device.sectors)
        (InExfatDirectory v device.sectors) store' := by
    intro store' kept
    apply kept.mono
    · intro cl inside
      rcases inside with ⟨owner, members, _, _, holds, member⟩
      exact (holds.inside member).1
    · exact fun _ _ => trivial
  cases call with
  | writeFile path data =>
      have located : exfatLoadBitmapInfo v fuel device = some ((0, v), device) := by
        rw [exfatLoadBitmapInfo, if_pos sound.agreed.bitmap.located]
        rfl
      simp only [Call.Misread, shape.exfat] at misread
      have walked : ∃ v' code device', exfatWriteWalk fuel data path.componentsLong v.rootClus v
          device = some ((v', code), device') ∧ code ≠ 0 ∧
            HeapKept (exfatView v device.sectors) (exfatView v device'.sectors) := by
        by_cases empty : data = []
        · rcases harmless.2 empty with ⟨full, condition⟩
          have bad : false = true ∨ ExfatMisread fuel path.componentsLong v.rootClus v device := by
            rcases misread with ⟨code, v', device', ran, misread⟩
            rw [located, Option.some.injEq, Prod.mk.injEq, Prod.mk.injEq] at ran
            rcases ran with ⟨⟨_, rfl⟩, rfl⟩
            exact .inr misread
          subst empty
          rcases exfatWriteWalk_misread shape enough sound full within root bad
            (fun missed' dir' comp chain' strays linked =>
              (condition missed' dir' comp chain' strays linked).1)
            (fun missed' missed'' dir' comp chain' info strays linked =>
              (condition missed' dir' comp chain' strays linked).2 missed'' info) with
            ⟨code, device', ran, refused⟩
          exact ⟨v, code, device', ran, refused⟩
        · rcases (exfatWriteWalk_nothing shape enough empty (harmless.1 empty) sound root).returns
            device within rfl with ⟨⟨v', code⟩, device', ran, _, refused⟩
          exact ⟨v', code, device', ran, refused⟩
      rcases walked with ⟨v', code, device', ran, failed, kept⟩
      refine ⟨v', code, device', ?_, failed, directories kept⟩
      simp only [Call.run, fat32WriteFilePath, shape.exfat]
      rw [exfatWriteFile, DiskM.bind_run located]
      exact ran
  | ensureDir path =>
      simp only [Call.Misread, shape.exfat] at misread
      have noticed : ∀ missed dir, Strays v (exfatView v device.sectors) v.rootClus
          path.componentsLong missed dir [] → (false || missed) = false := by
        intro missed dir strays
        cases missed with
        | false => rfl
        | true => exact absurd strays (harmless.2 dir)
      rcases exfatEnsureWalk_misread shape enough sound harmless.1 within root (.inr misread)
        noticed with ⟨code, device', ran, failed, kept⟩
      refine ⟨v, code, device', ?_, failed, directories kept⟩
      simp only [Call.run, fat32EnsureDirPath, shape.exfat]
      exact ran

/-- The first read of the root directory of the small volume fails. -/
theorem small_misread {device : Device} (failing : device.readFaults 0 = true) :
    (Call.ensureDir (.ofArray [0x41])).Misread 13 smallVol device := by
  have comps : (CString.ofArray [0x41]).components83 = [[0x41]] := by decide
  have plays : Plays (dirFindEntry smallVol (makeName83 [0x41]) 13 smallVol.rootClus)
      device.sectors [true] (.error (-1)) := by
    constructor
    intro other _ begins
    have failed : other.readFaults 0 = true := begins.1
    simp [dirFindEntry, dirScan, smallVol, rd, failed, isEndCluster, Device.after]
  simp only [Call.Misread, smallVol, comps]
  exact .here ⟨[true], .error (-1), plays, ⟨failing, trivial⟩, rfl⟩

/-- The small volume with no cluster left and an empty root directory. -/
def crammed : Nat → Buffer := fun lba => if lba = 1 then fun _ => 0xFF else fun _ => 0

theorem crammed_wellFormed : WellFormed smallVol crammed := by
  refine ⟨smallVol_wellFormed.shape, .of_blank_root ⟨by decide, by decide⟩ (by decide)
    (by decide) ?_⟩
  intro slot member
  rcases mem_chainSlots.mp member with ⟨inRoot, inside, _⟩
  have cluster : slot.cl = 2 := List.mem_singleton.mp inRoot
  have first : slot.s = 0 := Nat.lt_one_iff.mp inside
  rw [entryAt, cluster, first]
  exact blank_unlisted slot.off fun _ => rfl

end ParanOS
