import ParanOS.Exfat.Refusal

/-! # exFAT lookups with failing reads

A lookup ends with a negative code when it cannot read a slot, and passes over a set that
it cannot read. In both cases its callers may create a second entry of that name. They do
not where nothing can be allocated, but there a lookup that passed over a set may still find
what it looks for, and then the failed read is not reported.
-/

namespace ParanOS

open Foundation
open ExfatOwner (LiveAt)

/-- What was found, where finding nothing is reported as an error. -/
theorem eq_some_of_getD {α : Type} {found : Option (Except Int α)} {code : Int} {info : α}
    (answer : found.getD (.error code) = .ok info) : found = some (.ok info) := by
  cases found with
  | none => simp at answer
  | some result => rw [← answer, Option.getD_some]

/-! ## Where nothing can be allocated -/

/-- The clusters and their table entries are as they were. -/
abbrev HeapKept (store store' : ClusterStore) : Prop :=
  store.Undisturbed (2 ≤ ·) (fun _ => True) store'

section

variable {trouble : Trouble} {v : Vol} (shape : ExfatGeometry v) {sectors : Nat → Buffer}
  {fuel : Nat}
include shape

theorem exfatAllocCluster_full (full : Full v (exfatView v sectors)) :
    Runs trouble (exfatAllocCluster v) sectors fun target sectors' =>
      target = 0 ∧ sectors' = sectors := by
  apply allocScan_runs
  · exact fun _ => ⟨rfl, rfl⟩
  · exact fun _ => ⟨rfl, rfl⟩
  · intro candidate lower upper _ free
    rw [shape.fatEntry_eq sectors (by omega)] at free
    exact absurd free (full candidate lower (by omega))

/-- A chain of no clusters is none, but the end mark is written into entry 0. -/
theorem allocChain_nothing {need : Nat} (nothing : need = 0 ∨ Full v (exfatView v sectors)) :
    Runs trouble (allocChain v fuel need 0 0) sectors fun first sectors' =>
      first = 0 ∧ HeapKept (exfatView v sectors) (exfatView v sectors') := by
  cases need with
  | zero =>
      apply (fatWriteFatEntry_runs v 0 eocMark sectors).bind
      intro code sectors' outcome
      rcases outcome with ⟨_, rfl, _⟩ | ⟨_, rfl⟩
      · exact .pure ⟨rfl, .refl _ _ _⟩
      · refine .pure ⟨rfl, ?_⟩
        rw [exfatView, exfatView, shape.geometry.view_setFatEntry sectors eocMark (by omega)
          (by decide)]
        exact .link _ (by decide)
  | succ need =>
      have full : Full v (exfatView v sectors) := nothing.resolve_left (by omega)
      apply (exfatAllocCluster_full shape full).bind
      intro cl sectors' outcome
      rcases outcome with ⟨rfl, rfl⟩
      exact .pure ⟨rfl, .refl _ _ _⟩

theorem exfatAllocChainForSize_nothing {bytes : Nat}
    (nothing : clustersNeeded v bytes = 0 ∨ Full v (exfatView v sectors)) :
    Runs trouble (exfatAllocChainForSize v fuel bytes) sectors fun first sectors' =>
      first = 0 ∧ HeapKept (exfatView v sectors) (exfatView v sectors') := by
  apply Runs.ite
  · exact fun _ => .pure ⟨rfl, .refl _ _ _⟩
  · exact fun _ => allocChain_nothing shape nothing

/-- An entry whose content cannot be allocated is not created. -/
theorem exfatCreateEntry_nothing {isDir : Bool} {data : List UInt8} (dirCl : Nat)
    (name : List UInt8) (positive : 0 < if isDir then v.clusterBytes else data.length)
    (nothing : clustersNeeded v (if isDir then v.clusterBytes else data.length) = 0 ∨
      Full v (exfatView v sectors)) :
    Runs trouble (exfatCreateEntry v fuel dirCl name isDir data) sectors fun result sectors' =>
      result.1 ≠ 0 ∧ HeapKept (exfatView v sectors) (exfatView v sectors') := by
  have content : Runs trouble (allocContent v fuel isDir data) sectors fun result sectors' =>
      result = none ∧ HeapKept (exfatView v sectors) (exfatView v sectors') := by
    rw [allocContent, if_pos positive]
    apply (exfatAllocChainForSize_nothing shape nothing).bind
    intro first sectors' outcome
    rw [if_pos outcome.1]
    exact .pure ⟨rfl, outcome.2⟩
  apply content.bind
  intro result sectors' outcome
  rcases outcome with ⟨rfl, kept⟩
  exact .pure ⟨by decide, kept⟩

/-- No directory is created. -/
theorem exfatCreateEntry_noDirectory (full : Full v (exfatView v sectors)) (dirCl : Nat)
    (name : List UInt8) :
    Runs trouble (exfatCreateEntry v fuel dirCl name true []) sectors fun result sectors' =>
      result.1 ≠ 0 ∧ HeapKept (exfatView v sectors) (exfatView v sectors') :=
  exfatCreateEntry_nothing shape dirCl name shape.clusterBytes_pos (.inr full)

/-- An empty file needs no cluster, but room for its set. -/
theorem exfatCreateEntry_crowded {dirCl : Nat} {chain : List Nat}
    (full : Full v (exfatView v sectors))
    (linked : Linked (exfatView v sectors).next EndOfChain dirCl chain)
    (range : ∀ cl ∈ chain, DataCluster (v.exfatClusterCount + 2) cl)
    (enough : chain.length < fuel) {name : List UInt8}
    (crowded : ¬ HasSpace v (exfatView v sectors) chain (entriesFor name)) :
    Runs trouble (exfatCreateEntry v fuel dirCl name false []) sectors fun result sectors' =>
      result.1 ≠ 0 ∧ HeapKept (exfatView v sectors) (exfatView v sectors') := by
  have positive : 0 < entriesFor name := by
    rw [entriesFor]
    omega
  have noSlot : Runs trouble (exfatFindFreeSet v fuel dirCl (entriesFor name)) sectors
      fun found sectors' => found = none ∧ sectors' = sectors := by
    apply (Runs.of_reading (freeClusters_reads shape dirCl positive linked range enough)).bind
    intro found between outcome
    rcases outcome with ⟨rfl, _, outcome, _⟩
    -- behind the last cluster the directory would have to grow
    have extending : ∀ prev, Runs trouble (extendDirectory v prev) between
        fun found sectors' => found = none ∧ sectors' = between := by
      intro prev
      apply (exfatAllocCluster_full shape full).bind
      intro newCl sectors' outcome
      rcases outcome with ⟨rfl, rfl⟩
      exact .pure ⟨rfl, rfl⟩
    rcases outcome with ⟨_, rfl | ⟨last, rfl⟩⟩ | ⟨_, found, rfl, search, _⟩
    · exact .pure ⟨rfl, rfl⟩
    · exact extending last
    · cases search with
      | @room before cl after j split _ first =>
          exact absurd ⟨cl, by simp [split], j, first.room⟩ crowded
      | full _ => exact extending _
  have content : Runs trouble (allocContent v fuel false []) sectors fun result sectors' =>
      result = some 0 ∧ sectors' = sectors := .pure ⟨rfl, rfl⟩
  apply content.bind
  intro result between outcome
  rcases outcome with ⟨rfl, rfl⟩
  apply noSlot.bind
  intro found sectors' outcome
  rcases outcome with ⟨rfl, rfl⟩
  exact .pure ⟨by decide, .refl _ _ _⟩

/-- A file whose new content cannot be allocated is not overwritten. -/
theorem exfatOverwrite_nothing {data : List UInt8} (info : EntryInfo) (name : List UInt8)
    (positive : 0 < data.length)
    (nothing : clustersNeeded v data.length = 0 ∨ Full v (exfatView v sectors)) :
    Runs trouble (exfatOverwrite v fuel info name data) sectors fun code sectors' =>
      code ≠ 0 ∧ HeapKept (exfatView v sectors) (exfatView v sectors') := by
  have content : Runs trouble (replaceContent v fuel data) sectors fun result sectors' =>
      result = .error (-7) ∧ HeapKept (exfatView v sectors) (exfatView v sectors') := by
    rw [replaceContent, if_pos positive]
    apply (exfatAllocChainForSize_nothing shape nothing).bind
    intro first sectors' outcome
    rw [if_pos outcome.1]
    exact .pure ⟨rfl, outcome.2⟩
  apply content.bind
  intro result sectors' outcome
  rcases outcome with ⟨rfl, kept⟩
  exact .pure ⟨by decide, kept⟩

end

/-! ## Failed lookups -/

/-- A read fails while `exfat_write_file_path` or `exfat_ensure_dir_path` looks up a
component. Only on the last component do the two differ. -/
inductive ExfatMisread (fuel : Nat) : List (List UInt8) → Nat → Vol → Device → Prop
  | here {comp rest dir v device} : ReadFails (exfatFindInDir comp fuel dir v) device →
      ExfatMisread fuel (comp :: rest) dir v device
  | made {comp rest dir v v' code cluster device device' device''} :
      exfatFindInDir comp fuel dir v device = some ((v', .error code), device') →
      exfatCreateEntry v' fuel dir comp true [] device' = some ((0, cluster), device'') →
      ExfatMisread fuel rest cluster v' device'' →
      ExfatMisread fuel (comp :: rest) dir v device
  | found {comp rest dir v v' info device device'} :
      exfatFindInDir comp fuel dir v device = some ((v', .ok info), device') →
      info.isDir = true → ExfatMisread fuel rest info.cluster v' device' →
      ExfatMisread fuel (comp :: rest) dir v device

/-- Lookups that pass over sets they cannot read may lead to the rest of the path. The flag
says whether there was such a set. -/
inductive Strays (v : Vol) (store : ClusterStore) :
    Nat → List (List UInt8) → Bool → Nat → List (List UInt8) → Prop
  | here {dir comps} : Strays v store dir comps false dir comps
  | inside {dir comp rest chain missed missed' info dir' comps'} :
      Linked store.next EndOfChain dir chain →
      Sweep v store comp (chainPlaces v chain) missed (some (.ok info)) → info.isDir = true →
      Strays v store info.cluster rest missed' dir' comps' →
      Strays v store dir (comp :: rest) (missed || missed') dir' comps'

/-- A lookup that succeeds has found a set of the directory. -/
theorem Sweep.hit {v : Vol} {store : ClusterStore} {want : List UInt8} {chain : List Nat}
    {missed : Bool} {info : EntryInfo}
    (sweep : Sweep v store want (chainPlaces v chain) missed (some (.ok info))) :
    ∃ place, Hit v store want chain place info := by
  cases sweep with
  | @decided before place after _ _ split _ here =>
      exact ⟨place, verdict_hit (by simp [split]) here⟩

section

variable {v : Vol} (shape : ExfatGeometry v) {fuel : Nat}
  (enough : v.exfatClusterCount + 2 < fuel)
include shape enough

/-- A lookup in a directory in use. A run in which a read has failed before, or will fail,
is one in which a read fails in this lookup or behind it. -/
theorem exfatFindInDir_misread {bitmap chain : List Nat} {depth : Nat} {owner : ExfatOwner}
    {device : Device} (comp : List UInt8) (rest : List (List UInt8)) (missed : Bool)
    (sound : Sound v (exfatView v device.sectors) bitmap)
    (dir : DirAt v (exfatView v device.sectors) depth owner chain) :
    ∃ failed found count,
      exfatFindInDir comp fuel (owner.start v (exfatView v device.sectors)) v device =
        some ((v, found.getD (.error (-3))), device.after count) ∧
      Sweep v (exfatView v device.sectors) comp (chainPlaces v chain) failed found ∧
      ∀ info, found = some (.ok info) → (missed = true ∨
        ExfatMisread fuel (comp :: rest) (owner.start v (exfatView v device.sectors)) v device) →
        (missed || failed) = true ∨
          ExfatMisread fuel rest info.cluster v (device.after count) := by
  rcases (exfatFindInDir_reads shape sound.agreed.bitmap.located comp dir.linked dir.data
    (dir.length_lt enough)).result rfl with ⟨failed, ⟨v', result⟩, count, ran, outcome, told⟩
  rcases outcome with ⟨same, found, sweep, returned⟩
  dsimp only at same returned
  subst same returned
  refine ⟨failed, found, count, ran, sweep, ?_⟩
  intro info sighted bad
  subst sighted
  rw [Bool.or_eq_true_iff]
  rcases bad with before | misread
  · exact .inl (.inl before)
  · cases misread with
    | here fails => exact .inl (.inr (told fails))
    | made ran' _ _ =>
        rw [ran] at ran'
        simp at ran'
    | found ran' _ further =>
        rw [ran, Option.some.injEq, Prod.mk.injEq, Prod.mk.injEq] at ran'
        rcases ran' with ⟨⟨rfl, same⟩, rfl⟩
        rw [Option.getD_some, Except.ok.injEq] at same
        rw [same]
        exact .inr further

/-- Where nothing can be allocated, a walk in which a read fails fails, unless it strays
through directories that exist. -/
theorem exfatEnsureWalk_misread {comps : List (List UInt8)} {bitmap chain : List Nat}
    {depth : Nat} {owner : ExfatOwner} {device : Device} {missed : Bool}
    (sound : Sound v (exfatView v device.sectors) bitmap)
    (full : Full v (exfatView v device.sectors)) (within : device.Within failingReads)
    (dir : DirAt v (exfatView v device.sectors) depth owner chain)
    (bad : missed = true ∨
      ExfatMisread fuel comps (owner.start v (exfatView v device.sectors)) v device)
    (noticed : ∀ missed' dir', Strays v (exfatView v device.sectors)
      (owner.start v (exfatView v device.sectors)) comps missed' dir' [] →
      (missed || missed') = false) :
    ∃ code device', exfatEnsureWalk fuel comps (owner.start v (exfatView v device.sectors)) v
        device = some ((v, code), device') ∧ code ≠ 0 ∧
      HeapKept (exfatView v device.sectors) (exfatView v device'.sectors) := by
  induction comps generalizing depth owner chain device missed with
  | nil =>
      rcases bad with before | misread
      · have none := noticed false _ .here
        rw [before] at none
        simp at none
      · cases misread
  | cons comp rest induction =>
      rcases exfatFindInDir_misread shape enough comp rest missed sound dir with
        ⟨failed, found, count, ran, sweep, onward⟩
      rw [exfatEnsureWalk, DiskM.bind_run ran]
      cases answer : found.getD (.error (-3)) with
      | error code =>
          rcases (exfatCreateEntry_noDirectory shape full
            (owner.start v (exfatView v device.sectors)) comp).returns (device.after count)
            (within.after count) rfl with ⟨⟨r, cluster⟩, device', created, _, refused⟩
          refine ⟨-1, device', ?_, by decide, refused.2⟩
          simp only
          rw [DiskM.bind_run created]
          simp only [if_pos refused.1]
          rfl
      | ok info =>
          have sighted := eq_some_of_getD answer
          rw [sighted] at sweep
          simp only
          by_cases isDir : info.isDir = true
          · rcases sweep.hit with ⟨place, hit⟩
            rcases hit.dirAt sound.owned dir isDir with ⟨members, next⟩
            have start : info.cluster =
                (ExfatOwner.entry place).start v (exfatView v device.sectors) := hit.cluster
            have later := @induction members (depth + 1) (.entry place) (device.after count)
              (missed || failed) sound full (within.after count) next
            rw [if_pos isDir]
            rw [Device.after_sectors, ← start] at later
            apply later (onward info sighted bad)
            intro missed' dir' strays
            rw [Bool.or_assoc]
            exact noticed _ dir' (.inside dir.linked sweep isDir strays)
          · rw [if_neg isDir]
            exact ⟨-2, device.after count, rfl, by decide, .refl _ _ _⟩

/-- Data for which nothing can be allocated is not written, whichever reads fail. -/
theorem exfatWriteWalk_nothing {data : List UInt8} {comps : List (List UInt8)}
    {bitmap chain : List Nat} {depth : Nat} {owner : ExfatOwner} {sectors : Nat → Buffer}
    (some : data ≠ [])
    (nothing : Full v (exfatView v sectors) ∨
      comps.length ≤ 1 ∧ clustersNeeded v data.length = 0)
    (sound : Sound v (exfatView v sectors) bitmap)
    (dir : DirAt v (exfatView v sectors) depth owner chain) :
    Runs failingReads (exfatWriteWalk fuel data comps (owner.start v (exfatView v sectors)) v)
      sectors fun result sectors' =>
        result.2 ≠ 0 ∧ HeapKept (exfatView v sectors) (exfatView v sectors') := by
  have positive := List.length_pos_of_ne_nil some
  have needed : clustersNeeded v data.length = 0 ∨ Full v (exfatView v sectors) :=
    nothing.symm.imp_left fun single => single.2
  induction comps generalizing depth owner chain with
  | nil => exact .pure ⟨by simp, .refl _ _ _⟩
  | cons comp rest induction =>
      have fullIfMore : rest ≠ [] → Full v (exfatView v sectors) := by
        intro more
        apply nothing.resolve_right
        intro single
        have length := List.length_pos_of_ne_nil more
        have short := single.1
        rw [List.length_cons] at short
        omega
      rw [exfatWriteWalk]
      apply (Runs.of_reading (exfatFindInDir_reads shape sound.agreed.bitmap.located comp
        dir.linked dir.data (dir.length_lt enough))).bind
      intro result between outcome
      rcases result with ⟨v', answer⟩
      rcases outcome with ⟨rfl, failed, ⟨same, found, sweep, returned⟩, _⟩
      dsimp only at same returned
      subst same
      cases answer with
      | error code =>
          by_cases last : rest = []
          · subst last
            have created := @exfatCreateEntry_nothing failingReads v' shape between fuel false data
              (owner.start v' (exfatView v' between)) comp positive needed
            apply created.bind
            intro result sectors' refused
            exact .pure refused
          · have more : rest.isEmpty = false := by simpa using last
            simp only [more, Bool.false_eq_true, if_false]
            apply (exfatCreateEntry_noDirectory shape (fullIfMore last) _ comp).bind
            intro result sectors' refused
            simp only [if_pos refused.1]
            exact .pure ⟨by simp, refused.2⟩
      | ok info =>
          by_cases last : rest = []
          · subst last
            apply (exfatOverwrite_nothing shape info comp positive needed).bind
            intro code sectors' refused
            exact .pure refused
          · have more : rest.isEmpty = false := by simpa using last
            have sighted := eq_some_of_getD returned.symm
            rw [sighted] at sweep
            simp only [more, Bool.false_eq_true, if_false]
            apply Runs.ite
            · intro isDir
              rcases sweep.hit with ⟨place, hit⟩
              rcases hit.dirAt sound.owned dir isDir with ⟨members, next⟩
              rw [hit.cluster]
              exact induction (.inl (fullIfMore last)) next
            · exact fun _ => .pure ⟨by simp, .refl _ _ _⟩

/-- An empty file needs no cluster. Where nothing can be allocated and there is no room for its
set, a walk in which a read fails fails, unless it strays to a file that exists. -/
theorem exfatWriteWalk_misread {comps : List (List UInt8)} {bitmap chain : List Nat}
    {depth : Nat} {owner : ExfatOwner} {device : Device} {missed : Bool}
    (sound : Sound v (exfatView v device.sectors) bitmap)
    (full : Full v (exfatView v device.sectors)) (within : device.Within failingReads)
    (dir : DirAt v (exfatView v device.sectors) depth owner chain)
    (bad : missed = true ∨
      ExfatMisread fuel comps (owner.start v (exfatView v device.sectors)) v device)
    (crowded : ∀ missed' dir' comp chain', Strays v (exfatView v device.sectors)
      (owner.start v (exfatView v device.sectors)) comps missed' dir' [comp] →
      Linked (exfatView v device.sectors).next EndOfChain dir' chain' →
      ¬ HasSpace v (exfatView v device.sectors) chain' (entriesFor comp))
    (noticed : ∀ missed' missed'' dir' comp chain' info, Strays v (exfatView v device.sectors)
      (owner.start v (exfatView v device.sectors)) comps missed' dir' [comp] →
      Linked (exfatView v device.sectors).next EndOfChain dir' chain' →
      Sweep v (exfatView v device.sectors) comp (chainPlaces v chain') missed''
        (some (.ok info)) → (missed || missed' || missed'') = false) :
    ∃ code device', exfatWriteWalk fuel [] comps (owner.start v (exfatView v device.sectors)) v
        device = some ((v, code), device') ∧ code ≠ 0 ∧
      HeapKept (exfatView v device.sectors) (exfatView v device'.sectors) := by
  induction comps generalizing depth owner chain device missed with
  | nil => exact ⟨-1, device, rfl, by decide, .refl _ _ _⟩
  | cons comp rest induction =>
      rcases exfatFindInDir_misread shape enough comp rest missed sound dir with
        ⟨failed, found, count, ran, sweep, onward⟩
      rw [exfatWriteWalk, DiskM.bind_run ran]
      cases answer : found.getD (.error (-3)) with
      | error code =>
          by_cases last : rest = []
          · subst last
            rcases (exfatCreateEntry_crowded shape full dir.linked dir.data
              (dir.length_lt enough) (crowded false _ comp chain .here dir.linked)).returns
              (device.after count) (within.after count) rfl with
              ⟨⟨r, cluster⟩, device', created, _, refused⟩
            refine ⟨r, device', ?_, refused⟩
            simp only [List.isEmpty_nil, if_true]
            rw [DiskM.bind_run created]
            rfl
          · have more : rest.isEmpty = false := by simpa using last
            rcases (exfatCreateEntry_noDirectory shape full
              (owner.start v (exfatView v device.sectors)) comp).returns (device.after count)
              (within.after count) rfl with ⟨⟨r, cluster⟩, device', created, _, refused⟩
            refine ⟨-5, device', ?_, by decide, refused.2⟩
            simp only [more, Bool.false_eq_true, if_false]
            rw [DiskM.bind_run created]
            simp only [if_pos refused.1]
            rfl
      | ok info =>
          have sighted := eq_some_of_getD answer
          rw [sighted] at sweep
          by_cases last : rest = []
          · subst last
            -- the file is overwritten, and then no read has failed
            have none := noticed false failed _ comp chain info .here dir.linked sweep
            rw [Bool.or_false] at none
            rcases onward info sighted bad with misread | misread
            · rw [misread] at none
              simp at none
            · cases misread
          · have more : rest.isEmpty = false := by simpa using last
            simp only [more, Bool.false_eq_true, if_false]
            by_cases isDir : info.isDir = true
            · rcases sweep.hit with ⟨place, hit⟩
              rcases hit.dirAt sound.owned dir isDir with ⟨members, next⟩
              have start : info.cluster =
                  (ExfatOwner.entry place).start v (exfatView v device.sectors) := hit.cluster
              have later := @induction members (depth + 1) (.entry place) (device.after count)
                (missed || failed) sound full (within.after count) next
              rw [if_pos isDir]
              rw [Device.after_sectors, ← start] at later
              apply later (onward info sighted bad)
              · intro missed' dir' other chain' strays
                exact crowded _ dir' other chain' (.inside dir.linked sweep isDir strays)
              · intro missed' missed'' dir' other chain' info' strays
                rw [Bool.or_assoc missed]
                exact noticed _ missed'' dir' other chain' info'
                  (.inside dir.linked sweep isDir strays)
            · rw [if_neg isDir]
              exact ⟨-6, device.after count, rfl, by decide, .refl _ _ _⟩

end

end ParanOS
