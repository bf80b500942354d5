import ParanOS.Fat.Refusal

/-! # FAT32 lookups with failing reads

A lookup that cannot read the directory returns a negative code, as one does that finds no
entry, and its callers create what was not found. That is harmless only where nothing can
be created.
-/

namespace ParanOS

open Foundation

/-! ## Where nothing can be created -/

/-- No cluster is free, or no slot of the directory. -/
def Barred (v : Vol) (store : ClusterStore) (chain : List Nat) : Prop :=
  NoneFree v store ∨ ¬ HasRoom v store chain

/-- All clusters that were in use are as they were. -/
abbrev UsedKept (store store' : ClusterStore) : Prop :=
  store.Undisturbed (store.next · ≠ 0) (store.next · ≠ 0) store'

/-- All clusters but one are as they were. -/
abbrev OthersKept (target : Nat) (store store' : ClusterStore) : Prop :=
  store.Undisturbed (· ≠ target) (· ≠ target) store'

theorem Fresh.usedKept {limit : Nat} {store store' : ClusterStore} {target : Nat}
    (fresh : Fresh limit store target) (kept : OthersKept target store store') :
    UsedKept store store' :=
  kept.mono (fun _ used equal => used (equal ▸ fresh.free))
    fun _ used equal => used (equal ▸ fresh.free)

/-- A directory does not hold the fresh cluster. -/
theorem Fresh.crowded {v : Vol} {limit : Nat} {store store' : ClusterStore} {target dirCl : Nat}
    {chain : List Nat} (fresh : Fresh limit store target) (kept : OthersKept target store store')
    (dir : DirChain v limit store dirCl chain) (crowded : ¬ HasRoom v store chain) :
    DirChain v limit store' dirCl chain ∧ ¬ HasRoom v store' chain := by
  have apart : ∀ cl ∈ chain, cl ≠ target := fun cl member equal =>
    dir.next_ne_zero member (equal ▸ fresh.free)
  refine ⟨⟨dir.linked.congr fun cl member => kept.next cl (apart cl member), dir.data⟩, ?_⟩
  intro room
  refine crowded (room.congr fun slot member => ?_)
  rw [entryAt, entryAt, kept.sector slot.cl (apart slot.cl (mem_chainSlots.mp member).1)]

section

variable {trouble : Trouble} {v : Vol} (shape : Fat32Geometry v) {sectors : Nat → Buffer}
  {dirCl fuel : Nat} {chain : List Nat}

/-- Marking the end of a chain. -/
theorem markEnd_keeps {limit target : Nat} (geometry : Geometry v limit)
    (data : DataCluster limit target) (running : ¬ EndOfChain target) :
    Runs trouble (fatWriteFatEntry v target eocMark) sectors fun _ sectors' =>
      OthersKept target (view v limit sectors) (view v limit sectors') := by
  apply (fatWriteFatEntry_runs v target eocMark sectors).mono
  intro code sectors' outcome
  rcases outcome with ⟨_, rfl, _⟩ | ⟨_, rfl⟩
  · exact .refl _ _ _
  · rw [geometry.view_setFatEntry sectors eocMark data.2 running]
    exact .link _ (by simp)

/-- Data is written into one cluster. -/
theorem writeSingleCluster_keeps {limit target : Nat} (geometry : Geometry v limit)
    (range : DataCluster limit target) (running : ¬ EndOfChain target) (data : List UInt8) :
    Runs trouble (writeSingleCluster v target data) sectors fun _ sectors' =>
      OthersKept target (view v limit sectors) (view v limit sectors') := by
  apply Runs.ite
  · exact fun _ => .pure (.refl _ _ _)
  · intro _
    apply (writeSectors_runs geometry range v.secPerClus 0
      (data.take (v.secPerClus * v.bytesPerSec)) (by omega) sectors).bind
    intro failed written outcome
    have kept : OthersKept target (view v limit sectors) (view v limit written) :=
      outcome.1.mono (fun _ _ => trivial) fun _ different => different
    apply Runs.ite
    · exact fun _ => .pure kept
    · intro _
      apply (markEnd_keeps geometry range running).bind
      intro _ sectors' marked
      exact .pure (kept.trans marked)

include shape

/-- An entry that finds no slot is not created. -/
theorem createDirEntry_crowded
    (dir : DirChain v v.clusterLimit (view v v.clusterLimit sectors) dirCl chain)
    (enough : v.clusterLimit < fuel)
    (crowded : ¬ HasRoom v (view v v.clusterLimit sectors) chain) (name11 : List UInt8)
    (attr : UInt8) (startClus sizeBytes : Nat) :
    Runs trouble (createDirEntry v fuel dirCl name11 attr startClus sizeBytes) sectors
      fun code sectors' => code ≠ 0 ∧ sectors' = sectors := by
  apply (createDirEntry_runs shape.geometry dir enough name11 attr startClus sizeBytes).mono
  intro code sectors' outcome
  rcases outcome with ⟨failed, same, _⟩ | ⟨_, slot, first, _⟩
  · exact ⟨failed, same⟩
  · exact absurd ⟨slot, first.mem, first.free⟩ crowded

theorem makeDirectory_barred
    (dir : DirChain v v.clusterLimit (view v v.clusterLimit sectors) dirCl chain)
    (enough : v.clusterLimit < fuel)
    (barred : Barred v (view v v.clusterLimit sectors) chain) (name11 : List UInt8) :
    Runs trouble (makeDirectory v fuel dirCl name11) sectors fun result sectors' =>
      result.1 ≠ 0 ∧
        UsedKept (view v v.clusterLimit sectors) (view v v.clusterLimit sectors') := by
  apply (fatAllocFreeCluster_runs shape sectors).bind
  intro target claimed outcome
  rcases outcome with ⟨rfl, rfl, _⟩ | ⟨fresh, below, linked⟩
  · exact .pure ⟨by decide, .refl _ _ _⟩
  have crowded : ¬ HasRoom v (view v v.clusterLimit sectors) chain :=
    barred.resolve_left fun none => none target fresh.data.1 below fresh.free
  have kept1 : OthersKept target (view v v.clusterLimit sectors)
      (view v v.clusterLimit claimed) := by
    rw [linked]
    exact .link _ (by simp)
  have dots := shape.geometry.view_store claimed (dotSector target dirCl) fresh.data
    shape.geometry.cluster_pos
  rw [if_neg fresh.ne_zero]
  apply Runs.wr_bind
  · exact fun _ => .pure ⟨by decide, fresh.usedKept kept1⟩
  rw [if_neg Bool.false_ne_true]
  rw [Nat.add_zero] at dots
  apply (writeSectors_runs shape.geometry fresh.data (v.secPerClus - 1) 1 []
    (by have := shape.geometry.cluster_pos; omega) _).bind
  intro failed zeroed outcome
  have kept2 : OthersKept target (view v v.clusterLimit sectors)
      (view v v.clusterLimit zeroed) := by
    apply kept1.trans (ClusterStore.Undisturbed.trans _
      (outcome.1.mono (fun _ _ => trivial) fun _ different => different))
    rw [dots]
    exact .write _ _ (by simp)
  apply Runs.ite
  · exact fun _ => .pure ⟨by decide, fresh.usedKept kept2⟩
  intro _
  apply (markEnd_keeps shape.geometry fresh.data fresh.running).bind
  intro _ marked kept3
  have kept := kept2.trans kept3
  rcases fresh.crowded kept dir crowded with ⟨dir', crowded'⟩
  apply (createDirEntry_crowded shape dir' enough crowded' name11 attrDir target 0).bind
  intro code sectors' outcome
  rw [if_pos outcome.1, outcome.2]
  exact .pure ⟨by decide, fresh.usedKept kept⟩

theorem createFile_barred
    (dir : DirChain v v.clusterLimit (view v v.clusterLimit sectors) dirCl chain)
    (enough : v.clusterLimit < fuel)
    (barred : Barred v (view v v.clusterLimit sectors) chain) (name11 data : List UInt8) :
    Runs trouble (createFile v fuel dirCl name11 data) sectors fun code sectors' =>
      code ≠ 0 ∧
        UsedKept (view v v.clusterLimit sectors) (view v v.clusterLimit sectors') := by
  apply (fatAllocFreeCluster_runs shape sectors).bind
  intro target claimed outcome
  rcases outcome with ⟨rfl, rfl, _⟩ | ⟨fresh, below, linked⟩
  · exact .pure ⟨by decide, .refl _ _ _⟩
  have crowded : ¬ HasRoom v (view v v.clusterLimit sectors) chain :=
    barred.resolve_left fun none => none target fresh.data.1 below fresh.free
  rw [if_neg fresh.ne_zero]
  apply (writeSingleCluster_keeps shape.geometry fresh.data fresh.running data).bind
  intro code written kept
  have keptAll : OthersKept target (view v v.clusterLimit sectors)
      (view v v.clusterLimit written) := by
    refine ClusterStore.Undisturbed.trans ?_ kept
    rw [linked]
    exact .link _ (by simp)
  apply Runs.ite
  · exact fun _ => .pure ⟨by decide, fresh.usedKept keptAll⟩
  · intro _
    rcases fresh.crowded keptAll dir crowded with ⟨dir', crowded'⟩
    apply (createDirEntry_crowded shape dir' enough crowded' name11 attrArchive target
      (min data.length (v.secPerClus * v.bytesPerSec))).bind
    intro code sectors' outcome
    rw [if_pos outcome.1, outcome.2]
    exact .pure ⟨by decide, fresh.usedKept keptAll⟩

/-- A file that is a directory, or that needs a cluster, is not overwritten. -/
theorem overwriteFile_refused {slot : Slot} {lba s off : Nat} (data : List UInt8)
    (refused : direntIsDir (entryAt (view v v.clusterLimit sectors) slot) = true ∨
      direntStartCluster (entryAt (view v v.clusterLimit sectors) slot) = 0 ∧
        NoneFree v (view v v.clusterLimit sectors)) :
    Runs trouble (overwriteFile v ⟨entryAt (view v v.clusterLimit sectors) slot, lba, s, off⟩ data)
      sectors fun code sectors' => code ≠ 0 ∧ sectors' = sectors := by
  apply Runs.ite
  · exact fun _ => .pure ⟨by decide, rfl⟩
  · intro file
    rcases refused with isDir | ⟨vacant, none⟩
    · exact absurd isDir file
    · rw [targetCluster, if_pos vacant]
      apply (fatAllocFreeCluster_runs shape sectors).bind
      intro target claimed outcome
      rcases outcome with ⟨rfl, rfl, _⟩ | ⟨fresh, below, _⟩
      · exact .pure ⟨by decide, rfl⟩
      · exact absurd fresh.free (none target fresh.data.1 below)

/-- A lookup finds the first match or nothing. -/
theorem dirFindEntry_runs
    (dir : DirChain v v.clusterLimit (view v v.clusterLimit sectors) dirCl chain)
    (enough : v.clusterLimit < fuel) (name11 : List UInt8) :
    Runs trouble (dirFindEntry v name11 fuel dirCl) sectors fun found sectors' =>
      sectors' = sectors ∧ ((∃ slot,
        FirstMatch name11 (view v v.clusterLimit sectors) (chainSlots v chain) slot ∧
          found = .ok (hitAt v (view v v.clusterLimit sectors) slot)) ∨
        ∃ code, found = .error code) := by
  apply (Runs.of_reading (dirFindEntry_reads shape.geometry name11 dir enough)).mono
  intro found sectors' outcome
  rcases outcome with ⟨same, _, outcome, _⟩
  rcases outcome with ⟨_, refused⟩ | ⟨_, found | ⟨_, refused⟩⟩
  · exact ⟨same, .inr refused⟩
  · exact ⟨same, .inl found⟩
  · exact ⟨same, .inr refused⟩

/-- Where nothing can be created, only what exists is entered. -/
theorem ensureDirectory_barred
    (dir : DirChain v v.clusterLimit (view v v.clusterLimit sectors) dirCl chain)
    (enough : v.clusterLimit < fuel)
    (barred : Barred v (view v v.clusterLimit sectors) chain) (name11 : List UInt8) :
    Runs trouble (ensureDirectory v fuel dirCl name11) sectors fun result sectors' =>
      (result.1 ≠ 0 ∧
        UsedKept (view v v.clusterLimit sectors) (view v v.clusterLimit sectors')) ∨
      ∃ slot, FirstMatch name11 (view v v.clusterLimit sectors) (chainSlots v chain) slot ∧
        direntIsDir (entryAt (view v v.clusterLimit sectors) slot) = true ∧
        result = (0, direntStartCluster (entryAt (view v v.clusterLimit sectors) slot)) ∧
        sectors' = sectors := by
  apply (dirFindEntry_runs shape dir enough name11).bind
  intro found between outcome
  rcases outcome with ⟨rfl, ⟨slot, first, rfl⟩ | ⟨code, rfl⟩⟩
  · apply Runs.ite
    · exact fun isDir => .pure (.inr ⟨slot, first, isDir, rfl, rfl⟩)
    · exact fun _ => .pure (.inl ⟨by decide, .refl _ _ _⟩)
  · exact (makeDirectory_barred shape dir enough barred name11).mono
      fun _ _ refused => .inl refused

end

/-! ## Failed lookups -/

/-- A read fails while `fat32_ensure_dir_path` looks up a component. -/
inductive EnsureMisread (v : Vol) (fuel : Nat) : List (List UInt8) → Nat → Device → Prop
  | here {comp rest dirCl device} :
      ReadFails (dirFindEntry v (makeName83 comp) fuel dirCl) device →
      EnsureMisread v fuel (comp :: rest) dirCl device
  | later {comp rest dirCl nextCl device device'} :
      ensureDirectory v fuel dirCl (makeName83 comp) device = some ((0, nextCl), device') →
      EnsureMisread v fuel rest (enterDir v nextCl) device' →
      EnsureMisread v fuel (comp :: rest) dirCl device

/-- A read fails while `fat32_write_file_path` looks up a component. -/
inductive WriteMisread (v : Vol) (fuel : Nat) : List (List UInt8) → Nat → Device → Prop
  | here {comp rest dirCl device} :
      ReadFails (dirFindEntry v (makeName83 comp) fuel dirCl) device →
      WriteMisread v fuel (comp :: rest) dirCl device
  /-- `ensure_directory` looks the component up once more. -/
  | again {comp rest dirCl code device device'} : rest ≠ [] →
      dirFindEntry v (makeName83 comp) fuel dirCl device = some (.error code, device') →
      ReadFails (dirFindEntry v (makeName83 comp) fuel dirCl) device' →
      WriteMisread v fuel (comp :: rest) dirCl device
  | made {comp rest dirCl code nextCl device device' device''} : rest ≠ [] →
      dirFindEntry v (makeName83 comp) fuel dirCl device = some (.error code, device') →
      ensureDirectory v fuel dirCl (makeName83 comp) device' = some ((0, nextCl), device'') →
      WriteMisread v fuel rest nextCl device'' →
      WriteMisread v fuel (comp :: rest) dirCl device
  | found {comp rest dirCl hit device device'} :
      dirFindEntry v (makeName83 comp) fuel dirCl device = some (.ok hit, device') →
      direntIsDir hit.de = true →
      WriteMisread v fuel rest (enterDir v (direntStartCluster hit.de)) device' →
      WriteMisread v fuel (comp :: rest) dirCl device

/-- A condition on the directories that the path leads to, on the component that is
looked up there and on the rest of the path. -/
def Along (v : Vol) (store : ClusterStore)
    (condition : List Nat → List UInt8 → List (List UInt8) → Prop) (dirCl : Nat)
    (comps : List (List UInt8)) : Prop :=
  ∀ dirCl' chain comp rest, Reached v store dirCl comps dirCl' (comp :: rest) →
    Linked store.next EndOfChain dirCl' chain → condition chain comp rest

theorem Along.enter {v : Vol} {store : ClusterStore}
    {condition : List Nat → List UInt8 → List (List UInt8) → Prop} {dirCl : Nat}
    {chain : List Nat} {comp : List UInt8} {rest : List (List UInt8)} {slot : Slot}
    (along : Along v store condition dirCl (comp :: rest))
    (linked : Linked store.next EndOfChain dirCl chain)
    (first : FirstMatch (makeName83 comp) store (chainSlots v chain) slot)
    (isDir : direntIsDir (entryAt store slot) = true) :
    Along v store condition (enterDir v (direntStartCluster (entryAt store slot))) rest :=
  fun dirCl' chain' comp' rest' reached =>
    along dirCl' chain' comp' rest' (.inside linked first isDir reached)

/-- A write that is led here fails: the file can not be overwritten, and on the way there is
no directory without a cluster. -/
def DeadEnd (v : Vol) (store : ClusterStore) (chain : List Nat) (comp : List UInt8)
    (rest : List (List UInt8)) : Prop :=
  ∀ slot, FirstMatch (makeName83 comp) store (chainSlots v chain) slot →
    (rest = [] → direntIsDir (entryAt store slot) = true ∨
      direntStartCluster (entryAt store slot) = 0 ∧ NoneFree v store) ∧
    (rest ≠ [] → direntIsDir (entryAt store slot) = true →
      direntStartCluster (entryAt store slot) ≠ 0)

section

variable {v : Vol} (shape : Fat32Geometry v) {fuel : Nat} (enough : v.clusterLimit < fuel)
include shape enough

/-- Where nothing can be created, a failed lookup ends the call. -/
theorem ensureWalk_misread {comps : List (List UInt8)} {dirCl : Nat} {device : Device}
    (misread : EnsureMisread v fuel comps dirCl device) {chain : List Nat}
    (within : device.Within failingReads)
    (owned : Owned v v.clusterLimit (view v v.clusterLimit device.sectors))
    (dir : LiveDir v v.clusterLimit (view v v.clusterLimit device.sectors) dirCl chain)
    (barred : Along v (view v v.clusterLimit device.sectors) (fun chain _ _ =>
      Barred v (view v v.clusterLimit device.sectors) chain) dirCl comps) :
    ∃ code device', ensureWalk v fuel comps dirCl device = some (code, device') ∧ code ≠ 0 ∧
      UsedKept (view v v.clusterLimit device.sectors) (view v v.clusterLimit device'.sectors) := by
  induction misread generalizing chain with
  | @here comp rest dirCl device fails =>
      have here := barred dirCl chain comp rest .here dir.dirChain.linked
      rcases (dirFindEntry_reads shape.geometry (makeName83 comp) dir.dirChain enough).result rfl
        with ⟨failed, found, count, ran, outcome, told⟩
      rcases outcome with ⟨_, code, rfl⟩ | ⟨done, _⟩
      · rcases (makeDirectory_barred shape dir.dirChain enough here (makeName83 comp)).returns
          (device.after count) (within.after count) rfl with
          ⟨⟨r, nextCl⟩, device', made, _, refused⟩
        refine ⟨r, device', ?_, refused⟩
        rw [ensureWalk, ensureDirectory, DiskM.bind_run ((DiskM.bind_run ran).trans made)]
        simp only [if_pos refused.1]
        rfl
      · rw [told fails] at done
        simp at done
  | @later comp rest dirCl nextCl device device' ran further induction =>
      have here := barred dirCl chain comp rest .here dir.dirChain.linked
      rcases (ensureDirectory_barred shape dir.dirChain enough here (makeName83 comp)).returns
        device within rfl with ⟨result, between, ran', within', outcome⟩
      rw [ran, Option.some.injEq, Prod.mk.injEq] at ran'
      rcases ran' with ⟨rfl, rfl⟩
      rcases outcome with ⟨failed, _⟩ | ⟨slot, first, isDir, returned, same⟩
      · exact absurd rfl failed
      · rw [Prod.mk.injEq] at returned
        have live := Placed.live ⟨dirCl, chain, dir, first.mem⟩ first.matched.listed
        rcases owned.liveDir live isDir with ⟨chain', next⟩
        rw [same, returned.2] at induction
        rcases induction within' owned next (barred.enter dir.dirChain.linked first isDir) with
          ⟨code, device'', ran'', refused⟩
        refine ⟨code, device'', ?_, refused⟩
        rw [ensureWalk, DiskM.bind_run ran, ← ran'', returned.2]
        rfl

/-- At a dead end, a write fails whichever reads do. -/
theorem writeWalk_deadEnd (data : List UInt8) {comps : List (List UInt8)} {dirCl : Nat}
    {chain : List Nat} {sectors : Nat → Buffer}
    (owned : Owned v v.clusterLimit (view v v.clusterLimit sectors))
    (dir : LiveDir v v.clusterLimit (view v v.clusterLimit sectors) dirCl chain)
    (barred : Along v (view v v.clusterLimit sectors) (fun chain _ _ =>
      Barred v (view v v.clusterLimit sectors) chain) dirCl comps)
    (ends : Along v (view v v.clusterLimit sectors)
      (DeadEnd v (view v v.clusterLimit sectors)) dirCl comps) :
    Runs failingReads (writeWalk v fuel data comps dirCl) sectors fun code sectors' =>
      code ≠ 0 ∧
        UsedKept (view v v.clusterLimit sectors) (view v v.clusterLimit sectors') := by
  induction comps generalizing dirCl chain with
  | nil => exact .pure ⟨by decide, .refl _ _ _⟩
  | cons comp rest induction =>
      have linked := dir.dirChain.linked
      have here := barred dirCl chain comp rest .here linked
      have deadEnd := ends dirCl chain comp rest .here linked
      -- the walk goes on in a directory that exists
      have onward : ∀ slot, FirstMatch (makeName83 comp) (view v v.clusterLimit sectors)
          (chainSlots v chain) slot →
          direntIsDir (entryAt (view v v.clusterLimit sectors) slot) = true →
          Runs failingReads (writeWalk v fuel data rest (enterDir v
            (direntStartCluster (entryAt (view v v.clusterLimit sectors) slot)))) sectors
            fun code sectors' => code ≠ 0 ∧
              UsedKept (view v v.clusterLimit sectors) (view v v.clusterLimit sectors') := by
        intro slot first isDir
        have live := Placed.live ⟨dirCl, chain, dir, first.mem⟩ first.matched.listed
        rcases owned.liveDir live isDir with ⟨chain', next⟩
        exact induction next (barred.enter linked first isDir) (ends.enter linked first isDir)
      rw [writeWalk]
      apply (dirFindEntry_runs shape dir.dirChain enough (makeName83 comp)).bind
      intro found between outcome
      rcases outcome with ⟨rfl, outcome⟩
      by_cases last : rest = []
      · subst last
        rcases outcome with ⟨slot, first, rfl⟩ | ⟨code, rfl⟩
        · apply (overwriteFile_refused shape data ((deadEnd slot first).1 rfl)).mono
          intro code sectors' refused
          rw [refused.2]
          exact ⟨refused.1, .refl _ _ _⟩
        · exact createFile_barred shape dir.dirChain enough here (makeName83 comp) data
      · have more : (!rest.isEmpty) = true := by simpa using last
        rw [if_pos more]
        rcases outcome with ⟨slot, first, rfl⟩ | ⟨code, rfl⟩
        · apply Runs.ite
          · exact onward slot first
          · exact fun _ => .pure ⟨by decide, .refl _ _ _⟩
        · apply (ensureDirectory_barred shape dir.dirChain enough here (makeName83 comp)).bind
          intro result sectors' outcome
          rcases result with ⟨er, nextCl⟩
          rcases outcome with refused | ⟨slot, first, isDir, returned, rfl⟩
          · simp only [if_pos refused.1]
            exact .pure refused
          · rw [Prod.mk.injEq] at returned
            rcases returned with ⟨rfl, rfl⟩
            have occupied := (deadEnd slot first).2 last isDir
            have next := onward slot first isDir
            rw [enterDir, if_neg occupied] at next
            exact next

/-- A lookup of the only component that fails ends the call. -/
theorem writeWalk_misread (data : List UInt8) {comps : List (List UInt8)} {dirCl : Nat}
    {chain : List Nat} {device : Device} (single : comps.length ≤ 1)
    (misread : WriteMisread v fuel comps dirCl device) (within : device.Within failingReads)
    (dir : LiveDir v v.clusterLimit (view v v.clusterLimit device.sectors) dirCl chain)
    (barred : Along v (view v v.clusterLimit device.sectors) (fun chain _ _ =>
      Barred v (view v v.clusterLimit device.sectors) chain) dirCl comps) :
    ∃ code device', writeWalk v fuel data comps dirCl device = some (code, device') ∧ code ≠ 0 ∧
      UsedKept (view v v.clusterLimit device.sectors) (view v v.clusterLimit device'.sectors) := by
  have last : ∀ comp rest, comps = comp :: rest → rest = [] := by
    intro comp rest equal
    rw [equal, List.length_cons] at single
    exact List.eq_nil_of_length_eq_zero (by omega)
  cases misread with
  | @here comp rest _ _ fails =>
      have here := barred dirCl chain comp rest .here dir.dirChain.linked
      have alone := last comp rest rfl
      subst alone
      rcases (dirFindEntry_reads shape.geometry (makeName83 comp) dir.dirChain enough).result rfl
        with ⟨failed, found, count, ran, outcome, told⟩
      rcases outcome with ⟨_, code, rfl⟩ | ⟨done, _⟩
      · rcases (createFile_barred shape dir.dirChain enough here (makeName83 comp) data).returns
          (device.after count) (within.after count) rfl with ⟨result, device', made, _, refused⟩
        refine ⟨result, device', ?_, refused⟩
        rw [writeWalk, DiskM.bind_run ran]
        exact made
      · rw [told fails] at done
        simp at done
  | again more _ _ => exact absurd (last _ _ rfl) more
  | made more _ _ _ => exact absurd (last _ _ rfl) more
  | @found comp rest _ _ _ _ _ _ further =>
      have alone := last comp rest rfl
      subst alone
      cases further

end

end ParanOS
