import ParanOS.Fat.Lost

/-! # Ensuring a directory path again

A call that returned 0 leaves a path that leads to a directory, and along such a
path the next call finds every directory and writes nothing. A component that
begins with the mark of a deleted entry is the exception: its entry is never
found, and every call makes the directory anew.
-/

namespace ParanOS

open Foundation

/-! ## Paths that lead to a directory -/

/-- A directory found first, and what its own entries lead to. -/
theorem LeadsTo.cons {v : Vol} {store : ClusterStore} {dirCl target : Nat} {chain : List Nat}
    {comp : List UInt8} {rest : List (List UInt8)} {slot : Slot}
    (linked : Linked store.next EndOfChain dirCl chain)
    (first : FirstMatch (makeName83 comp) store (chainSlots v chain) slot)
    (isDir : direntIsDir (entryAt store slot) = true)
    (leads : LeadsTo v store (enterDir v (direntStartCluster (entryAt store slot))) rest target) :
    LeadsTo v store dirCl (comp :: rest) target := by
  rcases leads with ⟨rfl, rfl⟩ | ⟨last, resolved, lastDir, rfl⟩
  · exact .inr ⟨slot, .last linked first, isDir, rfl⟩
  · have more : rest ≠ [] := by
      intro none
      subst none
      cases resolved
    exact .inr ⟨last, .step linked first isDir more resolved, lastDir, rfl⟩

/-- A directory that is found is found after a change elsewhere, and what its
entries lead to then is what the path leads to. -/
theorem Frame.leadsTo {v : Vol} {limit : Nat} {store store' : ClusterStore} {dirCl target : Nat}
    {chain : List Nat} {comp : List UInt8} {rest : List (List UInt8)} {slot : Slot}
    (frame : Frame v limit store store' Change.nowhere)
    (dir : LiveDir v limit store dirCl chain)
    (first : FirstMatch (makeName83 comp) store (chainSlots v chain) slot)
    (isDir : direntIsDir (entryAt store slot) = true)
    (leads : LeadsTo v store' (enterDir v (direntStartCluster (entryAt store slot))) rest
      target) : LeadsTo v store' dirCl (comp :: rest) target := by
  have placed : Placed v limit store slot := ⟨dirCl, chain, dir, first.mem⟩
  have elsewhere : slot ≠ Change.nowhere := by
    intro equal
    exact Change.nowhere_not_placed (equal ▸ placed)
  have kept := frame.kept slot (placed.live first.matched.listed) elsewhere
  have dir' := frame.dirs dirCl chain dir
  have first' := resolves_single dir'
    (kept.resolves dirCl chain [comp] dir (.last (dir.chain.linked dir.occupied) first))
  rw [← kept.entry] at isDir leads
  exact .cons (dir'.chain.linked dir'.occupied) first' isDir leads

/-- What a lookup finds does not begin with the mark of a deleted entry. -/
theorem FirstMatch.shown {store : ClusterStore} {slots : List Slot} {comp : List UInt8}
    {slot : Slot} (first : FirstMatch (makeName83 comp) store slots slot) (nonempty : comp ≠ []) :
    comp.head? ≠ some 0xE5 := by
  intro deleted
  have head := (makeName83_head_deleted nonempty).mpr deleted
  rw [← first.matched.2, direntName_head] at head
  exact first.matched.1.2.1 head

/-- A claim leaves no cluster free that was in use. -/
theorem Claimed.keeps_used {v : Vol} {store store' : ClusterStore} {target cl : Nat}
    (claimed : Claimed v store store' target) (used : store.next cl ≠ 0) : store'.next cl ≠ 0 := by
  by_cases same : cl = target
  · rw [same, claimed.marked]
    decide
  · rw [claimed.links cl same]
    exact used

section

variable {v : Vol} (shape : Fat32Geometry v) {fuel : Nat} (enough : v.clusterLimit < fuel)

include shape enough

/-! ## The call that finds everything -/

section

variable {sectors : Nat → Buffer} (writeFaults : Nat → Bool)

theorem ensureDirectory_found {dirCl : Nat} {chain : List Nat} {want11 : List UInt8} {slot : Slot}
    (dir : LiveDir v v.clusterLimit (view v v.clusterLimit sectors) dirCl chain)
    (first : FirstMatch want11 (view v v.clusterLimit sectors) (chainSlots v chain) slot)
    (isDir : direntIsDir (entryAt (view v v.clusterLimit sectors) slot) = true) :
    ensureDirectory v fuel dirCl want11 (Device.quiet sectors writeFaults) =
      some ((0, direntStartCluster (entryAt (view v v.clusterLimit sectors) slot)),
        Device.quiet sectors writeFaults) := by
  rcases (dirFindEntry_reads shape.geometry want11 dir.dirChain enough).quiet writeFaults with
    ⟨found, ran, outcome⟩
  rcases outcome with ⟨impossible, _⟩ | ⟨_, ⟨other, found', rfl⟩ | ⟨absent, _⟩⟩
  · simp at impossible
  · rw [found'.unique first] at ran
    have entered := ensureDirectory_hit ran
    rwa [if_pos (show direntIsDir (hitAt v _ slot).de = true from isDir)] at entered
  · exact absurd first (absent slot)

/-- Along a path that leads to a directory nothing is written. -/
theorem ensureWalk_again (owned : Owned v v.clusterLimit (view v v.clusterLimit sectors))
    {dirCl target : Nat} {chain : List Nat} {comps : List (List UInt8)}
    (dir : LiveDir v v.clusterLimit (view v v.clusterLimit sectors) dirCl chain)
    (leads : LeadsTo v (view v v.clusterLimit sectors) dirCl comps target) :
    ensureWalk v fuel comps dirCl (Device.quiet sectors writeFaults) =
      some (0, Device.quiet sectors writeFaults) := by
  rcases leads with ⟨rfl, _⟩ | ⟨slot, resolved, isDir, entered⟩
  · rfl
  · clear entered
    induction resolved generalizing chain with
    | last linked first =>
        rw [linked.unique (dir.chain.linked dir.occupied)] at first
        rw [ensureWalk,
          DiskM.bind_run (ensureDirectory_found shape enough writeFaults dir first isDir)]
        rfl
    | step linked first middleDir _ _ induction =>
        rw [linked.unique (dir.chain.linked dir.occupied)] at first
        rw [ensureWalk,
          DiskM.bind_run (ensureDirectory_found shape enough writeFaults dir first middleDir)]
        have placed : Placed v v.clusterLimit (view v v.clusterLimit sectors) _ :=
          ⟨_, chain, dir, first.mem⟩
        rcases owned.liveDir (placed.live first.matched.listed) middleDir with ⟨chain', next⟩
        exact induction next isDir

end

/-! ## The call before it -/

/-- After a call that returned 0 the path leads to a directory. -/
theorem ensureWalk_leadsTo {comps : List (List UInt8)}
    (chars : ∀ comp ∈ comps, comp ≠ [] ∧ ∀ char ∈ comp, char ≠ 0) (findable : Findable comps)
    {sectors sectors' : Nat → Buffer} {dirCl : Nat} {chain : List Nat}
    (owned : Owned v v.clusterLimit (view v v.clusterLimit sectors))
    (dir : LiveDir v v.clusterLimit (view v v.clusterLimit sectors) dirCl chain)
    (succeeded : ensureWalk v fuel comps dirCl (Device.healthy sectors) =
      some (0, Device.healthy sectors')) :
    ∃ target, LeadsTo v (view v v.clusterLimit sectors') dirCl comps target := by
  induction comps generalizing sectors dirCl chain with
  | nil => exact ⟨dirCl, .inl ⟨rfl, rfl⟩⟩
  | cons comp rest induction =>
      have later : ∀ comp ∈ rest, comp ≠ [] ∧ ∀ char ∈ comp, char ≠ 0 :=
        fun other member => chars other (by simp [member])
      have laterFindable : Findable rest := fun other member => findable other (by simp [member])
      rcases chars comp (by simp) with ⟨nonempty, nulFree⟩
      -- the rest of the walk keeps what was found before it
      have onwards : ∀ {sectors1 dirCl1 chain1 nextCl nextChain slot},
          Owned v v.clusterLimit (view v v.clusterLimit sectors1) →
          LiveDir v v.clusterLimit (view v v.clusterLimit sectors1) dirCl1 chain1 →
          LiveDir v v.clusterLimit (view v v.clusterLimit sectors1) nextCl nextChain →
          FirstMatch (makeName83 comp) (view v v.clusterLimit sectors1) (chainSlots v chain1) slot →
          direntIsDir (entryAt (view v v.clusterLimit sectors1) slot) = true →
          enterDir v (direntStartCluster (entryAt (view v v.clusterLimit sectors1) slot)) = nextCl →
          ensureWalk v fuel rest nextCl (Device.healthy sectors1) =
            some (0, Device.healthy sectors') →
          ∃ target, LeadsTo v (view v v.clusterLimit sectors') dirCl1 (comp :: rest) target := by
        intro sectors1 dirCl1 chain1 nextCl nextChain slot owned1 dir1 next first isDir entered ran
        rcases induction later laterFindable owned1 next ran with ⟨target, leads⟩
        rcases ensureWalk_frame shape enough later owned1 (.inl next) with ⟨_, after, ran', frame⟩
        rw [ran, Option.some.injEq, Prod.mk.injEq] at ran'
        have same : sectors' = after := congrArg Device.sectors ran'.2
        subst same
        rw [← entered] at leads
        exact ⟨target, (frame Change.nowhere).leadsTo dir1 first isDir leads⟩
      cases ensureWalk_step shape enough rest owned (.inl dir) nonempty nulFree with
      | enters _ live first isDir ran =>
          rcases owned.liveDir live isDir with ⟨_, next⟩
          exact onwards owned dir next first isDir rfl (ran.symm.trans succeeded)
      | blocked _ _ fails ran =>
          rw [ran, Option.some.injEq, Prod.mk.injEq] at succeeded
          exact absurd succeeded.1 fails
      | @makes _ newCl between _ frame making ran =>
          rw [ran] at succeeded
          cases making with
          | full _ _ => simp at succeeded
          | crowded _ _ => simp at succeeded
          | made made =>
              rcases made.found dir (findable comp (by simp)) with ⟨next, slot, first, isDir, start⟩
              have entered : enterDir v (direntStartCluster
                  (entryAt (view v v.clusterLimit between) slot)) = newCl := by
                rw [start, enterDir, if_neg made.claimed.fresh.ne_zero]
              exact onwards (frame Change.nowhere).owned ((frame Change.nowhere).dirs _ _ dir) next
                first isDir entered succeeded

/-! ## The call that makes directories -/

theorem ensureWalk_keeps_used {comps : List (List UInt8)}
    (chars : ∀ comp ∈ comps, comp ≠ [] ∧ ∀ char ∈ comp, char ≠ 0)
    {sectors sectors' : Nat → Buffer} {dirCl cl : Nat} {chain : List Nat} {code : Int}
    (owned : Owned v v.clusterLimit (view v v.clusterLimit sectors))
    (walking : Walking v v.clusterLimit (view v v.clusterLimit sectors) dirCl chain)
    (ran : ensureWalk v fuel comps dirCl (Device.healthy sectors) =
      some (code, Device.healthy sectors'))
    (used : (view v v.clusterLimit sectors).next cl ≠ 0) :
    (view v v.clusterLimit sectors').next cl ≠ 0 := by
  induction comps generalizing sectors dirCl chain with
  | nil =>
      rw [ensureWalk, DiskM.pure_apply, Option.some.injEq, Prod.mk.injEq] at ran
      have same : sectors = sectors' := congrArg Device.sectors ran.2
      exact same ▸ used
  | cons comp rest induction =>
      have later : ∀ comp ∈ rest, comp ≠ [] ∧ ∀ char ∈ comp, char ≠ 0 :=
        fun other member => chars other (by simp [member])
      rcases chars comp (by simp) with ⟨nonempty, nulFree⟩
      cases ensureWalk_step shape enough rest owned walking nonempty nulFree with
      | enters _ live _ isDir step =>
          rcases owned.liveDir live isDir with ⟨_, next⟩
          exact induction later owned (.inl next) (step.symm.trans ran) used
      | blocked _ _ _ step =>
          rw [step, Option.some.injEq, Prod.mk.injEq] at ran
          have same : sectors = sectors' := congrArg Device.sectors ran.2
          exact same ▸ used
      | @makes _ _ between _ frame making step =>
          rw [step] at ran
          cases making with
          | full _ unchanged =>
              rw [if_pos (by decide), Option.some.injEq, Prod.mk.injEq] at ran
              have same : between = sectors' := congrArg Device.sectors ran.2
              rw [← same, unchanged]
              exact used
          | crowded claimed _ =>
              rw [if_pos (by decide), Option.some.injEq, Prod.mk.injEq] at ran
              have same : between = sectors' := congrArg Device.sectors ran.2
              exact same ▸ claimed.keeps_used used
          | made made =>
              exact induction later (frame Change.nowhere).owned made.walking ran
                (made.claimed.keeps_used used)

/-- A call that takes no free cluster into use has found every component. -/
theorem findable_of_idle {comps : List (List UInt8)}
    (chars : ∀ comp ∈ comps, comp ≠ [] ∧ ∀ char ∈ comp, char ≠ 0)
    {sectors sectors' : Nat → Buffer} {dirCl : Nat} {chain : List Nat}
    (owned : Owned v v.clusterLimit (view v v.clusterLimit sectors))
    (walking : Walking v v.clusterLimit (view v v.clusterLimit sectors) dirCl chain)
    (succeeded : ensureWalk v fuel comps dirCl (Device.healthy sectors) =
      some (0, Device.healthy sectors'))
    (idle : ∀ cl, (view v v.clusterLimit sectors').next cl ≠ 0 →
      (view v v.clusterLimit sectors).next cl ≠ 0) : Findable comps := by
  induction comps generalizing dirCl chain with
  | nil => simp [Findable]
  | cons comp rest induction =>
      have later : ∀ comp ∈ rest, comp ≠ [] ∧ ∀ char ∈ comp, char ≠ 0 :=
        fun other member => chars other (by simp [member])
      rcases chars comp (by simp) with ⟨nonempty, nulFree⟩
      cases ensureWalk_step shape enough rest owned walking nonempty nulFree with
      | enters _ live first isDir ran =>
          rcases owned.liveDir live isDir with ⟨_, next⟩
          have onwards := induction later (.inl next) (ran.symm.trans succeeded)
          rw [Findable, List.forall_mem_cons]
          exact ⟨first.shown nonempty, onwards⟩
      | blocked _ _ fails ran =>
          rw [ran, Option.some.injEq, Prod.mk.injEq] at succeeded
          exact absurd succeeded.1 fails
      | @makes _ newCl between _ frame making ran =>
          rw [ran] at succeeded
          cases making with
          | full _ _ => simp at succeeded
          | crowded _ _ => simp at succeeded
          | made made =>
              have marked : (view v v.clusterLimit between).next newCl ≠ 0 := by
                rw [made.claimed.marked]
                decide
              have used := idle newCl (ensureWalk_keeps_used shape enough later
                (frame Change.nowhere).owned made.walking succeeded marked)
              exact absurd made.claimed.fresh.free used

end

/-! ## Two calls -/

/-- After a call that returned 0 a second one returns 0 and writes nothing, just
if no component of the path begins with the mark of a deleted entry. -/
theorem fat32EnsureDirPath_idempotent_iff {v : Vol} {sectors sectors' : Nat → Buffer} {fuel : Nat}
    (wellFormed : WellFormed v sectors) (enough : v.clusterLimit < fuel) (path : CString)
    (ran : fat32EnsureDirPath v fuel path (Device.healthy sectors) =
      some ((v, 0), Device.healthy sectors')) :
    (∀ writeFaults, fat32EnsureDirPath v fuel path (Device.quiet sectors' writeFaults) =
      some ((v, 0), Device.quiet sectors' writeFaults)) ↔ Findable path.components83 := by
  have chars := components83_chars path
  have shape := wellFormed.shape
  rcases wellFormed.owned.liveDir_root with ⟨chain, root⟩
  -- the call and the walk return the same
  have walk : ∀ device device', fat32EnsureDirPath v fuel path device = some ((v, 0), device') ↔
      ensureWalk v fuel path.components83 v.rootClus device = some (0, device') := by
    intro device device'
    simp only [fat32EnsureDirPath, shape.fat32, DiskM.bind_apply]
    cases walked : ensureWalk v fuel path.components83 v.rootClus device with
    | none => simp
    | some result => simp [Prod.ext_iff]
  have first := (walk _ _).mp ran
  rcases ensureWalk_frame shape enough chars wellFormed.owned (.inl root) with
    ⟨code, after, first', frame⟩
  rw [first, Option.some.injEq, Prod.mk.injEq] at first'
  have same : sectors' = after := congrArg Device.sectors first'.2
  subst same
  have owned := (frame Change.nowhere).owned
  have root' := (frame Change.nowhere).dirs _ _ root
  constructor
  · intro again
    have second := (walk _ _).mp (again fun _ => false)
    exact findable_of_idle shape enough chars owned (.inl root') second fun _ used => used
  · intro findable writeFaults
    rcases ensureWalk_leadsTo shape enough chars findable wellFormed.owned root first with
      ⟨target, leads⟩
    exact (walk _ _).mpr (ensureWalk_again shape enough writeFaults owned root' leads)

/-- The directory `A` made in the root of the small volume. -/
theorem fat32EnsureDirPath_idempotent_small :
    ∃ sectors', fat32EnsureDirPath smallVol 13 (.ofArray [0x41]) (Device.healthy formatted) =
        some ((smallVol, 0), Device.healthy sectors') ∧
      ∀ writeFaults, fat32EnsureDirPath smallVol 13 (.ofArray [0x41])
        (Device.quiet sectors' writeFaults) =
          some ((smallVol, 0), Device.quiet sectors' writeFaults) := by
  rcases (Call.ensureDir (.ofArray [0x41])).keeps_wellFormed smallVol_wellFormed
    (show _ < 13 by decide) with ⟨code, sectors', ran, _⟩
  have returned : (fat32EnsureDirPath smallVol 13 (.ofArray [0x41])
      (Device.healthy formatted)).map (fun result => result.1.2) = some 0 := by
    decide +kernel
  rw [Call.run] at ran
  rw [ran, Option.map_some, Option.some.injEq] at returned
  subst returned
  refine ⟨sectors', ran, (fat32EnsureDirPath_idempotent_iff smallVol_wellFormed (by decide) _
    ran).mpr ?_⟩
  intro comp member
  revert comp
  decide

/-- The directory with the one byte 0xE5 as its name is made twice: the second
call takes a cluster that was free. -/
theorem fat32EnsureDirPath_not_idempotent :
    ¬ ∀ (v : Vol) (sectors sectors' : Nat → Buffer) (fuel : Nat) (path : CString),
      WellFormed v sectors → v.clusterLimit < fuel →
      fat32EnsureDirPath v fuel path (Device.healthy sectors) =
        some ((v, 0), Device.healthy sectors') →
      ∀ writeFaults, fat32EnsureDirPath v fuel path (Device.quiet sectors' writeFaults) =
        some ((v, 0), Device.quiet sectors' writeFaults) := by
  intro claim
  rcases (Call.ensureDir (.ofArray [0xE5])).keeps_wellFormed smallVol_wellFormed
    (show _ < 13 by decide) with ⟨code, sectors', ran, _⟩
  have observed : (fat32EnsureDirPath smallVol 13 (.ofArray [0xE5])
      (Device.healthy formatted)).map (fun result => (result.1.2,
        (view smallVol smallVol.clusterLimit result.2.sectors).next 4,
        ((fat32EnsureDirPath smallVol 13 (.ofArray [0xE5]) result.2).map fun again =>
          (view smallVol smallVol.clusterLimit again.2.sectors).next 4))) =
      some (0, 0, some eocMark) := by
    decide +kernel
  rw [Call.run] at ran
  rw [ran, Option.map_some, Option.some.injEq, Prod.mk.injEq, Prod.mk.injEq] at observed
  rcases observed with ⟨rfl, free, taken⟩
  have again := claim smallVol formatted sectors' 13 _ smallVol_wellFormed (by decide) ran
    fun _ => false
  have same : Device.quiet sectors' (fun _ => false) = Device.healthy sectors' := rfl
  rw [same] at again
  rw [again, Option.map_some, Option.some.injEq, Device.healthy_sectors] at taken
  rw [Device.healthy_sectors, taken] at free
  exact absurd free (by decide)

end ParanOS
