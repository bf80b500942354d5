import ParanOS.Fat.Contract

/-! # What a failed call leaves behind

The driver has no way back: a call that fails after it has claimed a cluster
leaves the cluster claimed. So a failed call leaves the volume as it was only
where it fails before it has claimed anything, and whether that is so can be told
from the volume and the path beforehand.
-/

namespace ParanOS

open Foundation

/-! ## Untouched volumes -/

/-- The table and the given clusters are as they were, byte for byte. -/
structure Untouched (v : Vol) (limit : Nat) (kept : Nat → Prop) (sectors sectors' : Nat → Buffer) :
    Prop where
  table : ∀ lba index, InEntry v limit lba index → sectors' lba index = sectors lba index
  clusters : ∀ cl, kept cl → (view v limit sectors').sector cl = (view v limit sectors).sector cl

theorem Untouched.refl (v : Vol) (limit : Nat) (kept : Nat → Prop) (sectors : Nat → Buffer) :
    Untouched v limit kept sectors sectors :=
  ⟨fun _ _ _ => rfl, fun _ _ => rfl⟩

theorem Untouched.next {v : Vol} {limit : Nat} {kept : Nat → Prop} {sectors sectors' : Nat → Buffer}
    (untouched : Untouched v limit kept sectors sectors') {cl : Nat} (below : cl < limit) :
    (view v limit sectors').next cl = (view v limit sectors).next cl := by
  have bytes : ∀ index < 4, sectors' (v.fatLba + 4 * cl / v.bytesPerSec)
      (4 * cl % v.bytesPerSec + index) = sectors (v.fatLba + 4 * cl / v.bytesPerSec)
        (4 * cl % v.bytesPerSec + index) := by
    intro index inside
    exact untouched.table _ _ ⟨cl, below, rfl, by omega, by omega⟩
  simp only [view, below, if_true]
  rw [Buffer.getU32_congr bytes]

/-- A run that either succeeds or leaves the table and the given clusters as they
were. -/
def FailsClean (v : Vol) (limit : Nat) (kept : Nat → Prop) (sectors : Nat → Buffer)
    (run : Option (Int × Device)) : Prop :=
  ∃ code sectors', run = some (code, Device.healthy sectors') ∧
    (code ≠ 0 → Untouched v limit kept sectors sectors')

namespace FailsClean

variable {v : Vol} {limit : Nat} {kept : Nat → Prop} {sectors sectors' : Nat → Buffer} {code : Int}

theorem some_iff : FailsClean v limit kept sectors (some (code, Device.healthy sectors')) ↔
    (code ≠ 0 → Untouched v limit kept sectors sectors') := by
  constructor
  · intro clean
    rcases clean with ⟨code', sectors'', ran, untouched⟩
    rw [Option.some.injEq, Prod.mk.injEq] at ran
    have same : sectors' = sectors'' := congrArg Device.sectors ran.2
    rw [ran.1, same]
    exact untouched
  · exact fun untouched => ⟨code, sectors', rfl, untouched⟩

theorem of_same (same : sectors' = sectors) :
    FailsClean v limit kept sectors (some (code, Device.healthy sectors')) :=
  some_iff.mpr fun _ => same ▸ .refl v limit kept sectors'

theorem of_success : FailsClean v limit kept sectors (some (0, Device.healthy sectors')) :=
  some_iff.mpr fun failed => absurd rfl failed

/-- Which failure is reported makes no difference. -/
theorem recode {code' : Int} (failed : code ≠ 0) (failed' : code' ≠ 0) :
    FailsClean v limit kept sectors (some (code, Device.healthy sectors')) ↔
      FailsClean v limit kept sectors (some (code', Device.healthy sectors')) := by
  simp only [some_iff, ne_eq, failed, failed', not_false_eq_true, true_imp_iff]

/-- Where a cluster has been claimed, the run has to succeed. -/
theorem iff_success {bound : Nat} (inside : bound ≤ limit)
    (fewer : ((view v limit sectors').free bound).length <
      ((view v limit sectors).free bound).length) :
    FailsClean v limit kept sectors (some (code, Device.healthy sectors')) ↔ code = 0 := by
  rw [some_iff]
  constructor
  · intro untouched
    by_contra failed
    have links := ClusterStore.free_congr fun cl below =>
      (untouched failed).next (Nat.lt_of_lt_of_le below inside)
    rw [links] at fewer
    omega
  · exact fun succeeded failed => absurd succeeded failed

end FailsClean

/-- A run that frees no cluster, and succeeds just if there is enough. -/
def SucceedsIf (v : Vol) (limit bound : Nat) (sectors : Nat → Buffer) (enough : Prop)
    (run : Option (Int × Device)) : Prop :=
  ∃ code sectors', run = some (code, Device.healthy sectors') ∧
    ((view v limit sectors').free bound).length ≤ ((view v limit sectors).free bound).length ∧
    (code = 0 ↔ enough)

/-- A run behind the claim of a cluster. -/
theorem SucceedsIf.failsClean_iff {v : Vol} {limit bound : Nat} {kept : Nat → Prop}
    {sectors middle : Nat → Buffer} {enough : Prop} {run : Option (Int × Device)}
    (inside : bound ≤ limit) (succeeds : SucceedsIf v limit bound middle enough run)
    (fewer : ((view v limit middle).free bound).length <
      ((view v limit sectors).free bound).length) :
    FailsClean v limit kept sectors run ↔ enough := by
  rcases succeeds with ⟨code, sectors', ran, notMore, returned⟩
  rw [ran, FailsClean.iff_success inside (Nat.lt_of_le_of_lt notMore fewer)]
  exact returned

/-- The result code of a call of the driver, without the volume. -/
def codeOf (run : Option ((Vol × Int) × Device)) : Option (Int × Device) :=
  run.map fun result => (result.1.2, result.2)

/-! ## The condition -/

/-- The path leads through directories that exist to the rest of it. -/
inductive Reached (v : Vol) (store : ClusterStore) :
    Nat → List (List UInt8) → Nat → List (List UInt8) → Prop
  | here {dirCl comps} : Reached v store dirCl comps dirCl comps
  | inside {dirCl comp rest chain slot dirCl' comps'} :
      Linked store.next EndOfChain dirCl chain →
      FirstMatch (makeName83 comp) store (chainSlots v chain) slot →
      direntIsDir (entryAt store slot) = true →
      Reached v store (enterDir v (direntStartCluster (entryAt store slot))) rest dirCl' comps' →
      Reached v store dirCl (comp :: rest) dirCl' comps'

/-- There is nothing to claim, or enough for everything: a slot in the directory,
and clusters for all entries. -/
def NoneOrAll (v : Vol) (store : ClusterStore) (chain : List Nat) (count : Nat) : Prop :=
  NoneFree v store ∨
    HasRoom v store chain ∧ count ≤ (store.free (fatMaxClusters v)).length

/-- Where the path leads out of what exists, there is nothing to claim, or
enough for all components that are missing. -/
def Spared (v : Vol) (store : ClusterStore) (dirCl : Nat) (comps : List (List UInt8)) : Prop :=
  ∀ dirCl' chain comp rest, Reached v store dirCl comps dirCl' (comp :: rest) →
    Linked store.next EndOfChain dirCl' chain →
    (∀ slot, ¬ FirstMatch (makeName83 comp) store (chainSlots v chain) slot) →
    NoneOrAll v store chain (comp :: rest).length

namespace Spared

variable {v : Vol} {store : ClusterStore} {dirCl : Nat} {chain : List Nat} {comp : List UInt8}
  {rest : List (List UInt8)} (linked : Linked store.next EndOfChain dirCl chain)

theorem nil : Spared v store dirCl [] := by
  intro dirCl' chain comp rest reached
  cases reached

include linked

theorem enters {slot : Slot}
    (first : FirstMatch (makeName83 comp) store (chainSlots v chain) slot)
    (isDir : direntIsDir (entryAt store slot) = true) :
    Spared v store dirCl (comp :: rest) ↔
      Spared v store (enterDir v (direntStartCluster (entryAt store slot))) rest := by
  constructor
  · intro spared dirCl' chain' comp' rest' reached
    exact spared dirCl' chain' comp' rest' (.inside linked first isDir reached)
  · intro spared dirCl' chain' comp' rest' reached linked' absent
    cases reached with
    | here =>
        rw [linked'.unique linked] at absent
        exact absurd first (absent slot)
    | inside again first' _ further =>
        rw [again.unique linked] at first'
        rw [first'.unique first] at further
        exact spared dirCl' chain' comp' rest' further linked' absent

theorem blocked {slot : Slot}
    (first : FirstMatch (makeName83 comp) store (chainSlots v chain) slot)
    (last : rest = [] ∨ direntIsDir (entryAt store slot) = false) :
    Spared v store dirCl (comp :: rest) := by
  intro dirCl' chain' comp' rest' reached linked' absent
  cases reached with
  | here =>
      rw [linked'.unique linked] at absent
      exact absurd first (absent slot)
  | inside again first' isDir further =>
      rcases last with none | file
      · subst none
        cases further
      · rw [again.unique linked] at first'
        rw [first'.unique first, file] at isDir
        simp at isDir

theorem absent
    (missing : ∀ slot, ¬ FirstMatch (makeName83 comp) store (chainSlots v chain) slot) :
    Spared v store dirCl (comp :: rest) ↔ NoneOrAll v store chain (comp :: rest).length := by
  constructor
  · intro spared
    exact spared dirCl chain comp rest .here linked missing
  · intro enough dirCl' chain' comp' rest' reached linked' _
    cases reached with
    | here =>
        rw [linked'.unique linked]
        exact enough
    | inside again first _ _ =>
        rw [again.unique linked] at first
        exact absurd first (missing _)

end Spared

/-! ## Counting clusters -/

theorem NoneFree.length {v : Vol} {store : ClusterStore} (none : NoneFree v store) :
    (store.free (fatMaxClusters v)).length = 0 := by
  rw [List.length_eq_zero_iff, List.eq_nil_iff_forall_not_mem]
  intro cl member
  rcases ClusterStore.mem_free.mp member with ⟨lower, below, free⟩
  exact none cl lower below free

theorem Claimed.length {v : Vol} {store store' : ClusterStore} {target : Nat}
    (claimed : Claimed v store store' target) :
    (store'.free (fatMaxClusters v)).length + 1 = (store.free (fatMaxClusters v)).length := by
  refine ClusterStore.length_free_of_taken (List.nodup_singleton target) ?_ ?_ ?_
  · intro cl member
    rw [List.mem_singleton] at member
    rw [member]
    exact ClusterStore.mem_free.mpr ⟨claimed.fresh.data.1, claimed.below, claimed.fresh.free⟩
  · intro cl member
    rw [List.mem_singleton] at member
    rw [member, claimed.marked]
    decide
  · intro cl _ outside
    rw [claimed.links cl (by simpa using outside)]

/-- The clusters of the directories in use. -/
def InDirectory (v : Vol) (sectors : Nat → Buffer) (cl : Nat) : Prop :=
  ∃ dirCl chain, LiveDir v v.clusterLimit (view v v.clusterLimit sectors) dirCl chain ∧ cl ∈ chain

/-- A run that has a slot for whatever it creates, and needs that many clusters. -/
abbrev LastsFor (v : Vol) (sectors : Nat → Buffer) (count : Nat) :
    Option (Int × Device) → Prop :=
  SucceedsIf v v.clusterLimit (fatMaxClusters v) sectors
    (count ≤ ((view v v.clusterLimit sectors).free (fatMaxClusters v)).length)

theorem LastsFor.of_none {v : Vol} {sectors : Nat → Buffer} {count : Nat} {code : Int}
    (none : NoneFree v (view v v.clusterLimit sectors)) (failed : code ≠ 0) :
    LastsFor v sectors (count + 1) (some (code, Device.healthy sectors)) := by
  refine ⟨code, sectors, rfl, Nat.le_refl _, ?_⟩
  rw [none.length]
  simp [failed]

/-! ## Creating entries -/

section

variable {v : Vol} {sectors sectors' : Nat → Buffer} {dirCl : Nat} {chain : List Nat}
  {comp : List UInt8}

/-- A directory is created, and then the rest in it. -/
theorem Making.lastsFor {newCl count : Nat} {result : Int} {after : Option (Int × Device)}
    (making : Making v sectors sectors' dirCl chain comp result newCl)
    (roomy : HasRoom v (view v v.clusterLimit sectors) chain)
    (further : DirMade v (view v v.clusterLimit sectors) (view v v.clusterLimit sectors') dirCl
      chain comp newCl → LastsFor v sectors' count after) :
    LastsFor v sectors (count + 1)
      (if result ≠ 0 then some (result, Device.healthy sectors') else after) := by
  cases making with
  | full none same =>
      subst same
      exact .of_none none (by decide)
  | crowded _ crowded => exact absurd roomy crowded
  | made made =>
      have length := made.claimed.length
      rcases further made with ⟨code, sectors'', ran, fewer, returned⟩
      refine ⟨code, sectors'', ran, by omega, returned.trans ?_⟩
      omega

theorem Creating.lastsFor {data : List UInt8} {code : Int}
    (creating : Creating v sectors sectors' dirCl chain comp data code)
    (roomy : HasRoom v (view v v.clusterLimit sectors) chain) :
    LastsFor v sectors 1 (some (code, Device.healthy sectors')) := by
  cases creating with
  | full none same =>
      subst same
      exact .of_none none (by decide)
  | crowded _ crowded => exact absurd roomy crowded
  | created claimed _ _ _ _ _ =>
      have length := claimed.length
      refine ⟨0, sectors', rfl, by omega, ?_⟩
      simp only [true_iff]
      omega

theorem NoneOrAll.iff_of_room {store : ClusterStore} {count : Nat}
    (some : (store.free (fatMaxClusters v)).length ≠ 0) (room : HasRoom v store chain) :
    NoneOrAll v store chain count ↔ count ≤ (store.free (fatMaxClusters v)).length := by
  constructor
  · intro enough
    rcases enough with none | all
    · exact absurd none.length some
    · exact all.2
  · exact fun all => .inr ⟨room, all⟩

variable (shape : Fat32Geometry v)
include shape

/-- A cluster was claimed for an entry that has no slot. -/
theorem Claimed.failsClean_iff {target count : Nat} {code : Int} (failed : code ≠ 0)
    (claimed : Claimed v (view v v.clusterLimit sectors) (view v v.clusterLimit sectors') target)
    (crowded : ¬ HasRoom v (view v v.clusterLimit sectors) chain) :
    FailsClean v v.clusterLimit (InDirectory v sectors) sectors
        (some (code, Device.healthy sectors')) ↔
      NoneOrAll v (view v v.clusterLimit sectors) chain count := by
  have length := claimed.length
  rw [FailsClean.iff_success (Nat.le_of_lt shape.maxClusters_lt.1) (by omega)]
  constructor
  · exact fun succeeded => absurd succeeded failed
  · intro enough
    rcases enough with none | all
    · have noneLeft := none.length
      omega
    · exact absurd all.1 crowded

/-- The first directory that is missing, and then the rest in it. -/
theorem Making.failsClean_iff {newCl count : Nat} {result : Int} {after : Option (Int × Device)}
    (making : Making v sectors sectors' dirCl chain comp result newCl)
    (further : DirMade v (view v v.clusterLimit sectors) (view v v.clusterLimit sectors') dirCl
      chain comp newCl → LastsFor v sectors' count after) :
    FailsClean v v.clusterLimit (InDirectory v sectors) sectors
        (if result ≠ 0 then some (result, Device.healthy sectors') else after) ↔
      NoneOrAll v (view v v.clusterLimit sectors) chain (count + 1) := by
  cases making with
  | full none same => exact ⟨fun _ => .inl none, fun _ => .of_same same⟩
  | crowded claimed crowded => exact claimed.failsClean_iff shape (by decide) crowded
  | made made =>
      have length := made.claimed.length
      rw [if_neg (by decide), NoneOrAll.iff_of_room (by omega) made.room,
        (further made).failsClean_iff (Nat.le_of_lt shape.maxClusters_lt.1) (by omega)]
      omega

theorem Creating.failsClean_iff {data : List UInt8} {code : Int}
    (creating : Creating v sectors sectors' dirCl chain comp data code) :
    FailsClean v v.clusterLimit (InDirectory v sectors) sectors
        (some (code, Device.healthy sectors')) ↔
      NoneOrAll v (view v v.clusterLimit sectors) chain 1 := by
  cases creating with
  | full none same => exact ⟨fun _ => .inl none, fun _ => .of_same same⟩
  | crowded claimed crowded => exact claimed.failsClean_iff shape (by decide) crowded
  | created claimed room _ _ _ _ =>
      have length := claimed.length
      rw [NoneOrAll.iff_of_room (by omega) room]
      exact ⟨fun _ => by omega, fun _ => .of_success⟩

end

/-! ## The walks -/

section

variable {v : Vol} (shape : Fat32Geometry v) {fuel : Nat} (enough : v.clusterLimit < fuel)

include shape enough

/-- In a directory that has just been created, a walk creates everything, as far
as clusters last. -/
theorem ensureWalk_fresh {comps : List (List UInt8)}
    (chars : ∀ comp ∈ comps, comp ≠ [] ∧ ∀ char ∈ comp, char ≠ 0)
    {sectors : Nat → Buffer} {dirCl : Nat} {chain : List Nat}
    (owned : Owned v v.clusterLimit (view v v.clusterLimit sectors))
    (walking : Walking v v.clusterLimit (view v v.clusterLimit sectors) dirCl chain)
    (unlisted : ∀ slot ∈ chainSlots v chain,
      ¬ Listed (entryAt (view v v.clusterLimit sectors) slot))
    (roomy : HasRoom v (view v v.clusterLimit sectors) chain) :
    LastsFor v sectors comps.length (ensureWalk v fuel comps dirCl (Device.healthy sectors)) := by
  induction comps generalizing sectors dirCl chain with
  | nil => exact ⟨0, sectors, rfl, Nat.le_refl _, by simp⟩
  | cons comp rest induction =>
      have later : ∀ comp ∈ rest, comp ≠ [] ∧ ∀ char ∈ comp, char ≠ 0 :=
        fun other member => chars other (by simp [member])
      rcases chars comp (by simp) with ⟨nonempty, nulFree⟩
      cases ensureWalk_step shape enough rest owned walking nonempty nulFree with
      | enters _ _ first _ _ => exact absurd first.matched.listed (unlisted _ first.mem)
      | blocked first _ _ _ => exact absurd first.matched.listed (unlisted _ first.mem)
      | makes _ frame making ran =>
          rw [ran]
          apply making.lastsFor roomy
          intro made
          exact induction later (frame Change.nowhere).owned made.walking made.unlisted made.roomy

theorem writeWalk_fresh (data : List UInt8) {comps : List (List UInt8)} (more : comps ≠ [])
    (chars : ∀ comp ∈ comps, comp ≠ [] ∧ ∀ char ∈ comp, char ≠ 0)
    {sectors : Nat → Buffer} {dirCl : Nat} {chain : List Nat}
    (owned : Owned v v.clusterLimit (view v v.clusterLimit sectors))
    (walking : Walking v v.clusterLimit (view v v.clusterLimit sectors) dirCl chain)
    (unlisted : ∀ slot ∈ chainSlots v chain,
      ¬ Listed (entryAt (view v v.clusterLimit sectors) slot))
    (roomy : HasRoom v (view v v.clusterLimit sectors) chain) :
    LastsFor v sectors comps.length
      (writeWalk v fuel data comps dirCl (Device.healthy sectors)) := by
  induction comps generalizing sectors dirCl chain with
  | nil => exact absurd rfl more
  | cons comp rest induction =>
      have later : ∀ comp ∈ rest, comp ≠ [] ∧ ∀ char ∈ comp, char ≠ 0 :=
        fun other member => chars other (by simp [member])
      rcases chars comp (by simp) with ⟨nonempty, nulFree⟩
      cases writeWalk_step shape enough data rest owned walking nonempty nulFree with
      | overwrites _ _ _ first _ _ _ => exact absurd first.matched.listed (unlisted _ first.mem)
      | creates last _ _ creating ran =>
          subst last
          rw [ran]
          exact creating.lastsFor roomy
      | passes more step =>
          cases step with
          | enters _ _ first _ _ => exact absurd first.matched.listed (unlisted _ first.mem)
          | blocked first _ _ _ => exact absurd first.matched.listed (unlisted _ first.mem)
          | makes _ frame making ran =>
              rw [ran]
              apply making.lastsFor roomy
              intro made
              exact induction more later (frame Change.nowhere).owned made.walking made.unlisted
                made.roomy

/-- From a directory that exists, a walk fails clean just if the path is spared. -/
theorem ensureWalk_failsClean_iff {comps : List (List UInt8)}
    (chars : ∀ comp ∈ comps, comp ≠ [] ∧ ∀ char ∈ comp, char ≠ 0)
    {sectors : Nat → Buffer} {dirCl : Nat} {chain : List Nat}
    (owned : Owned v v.clusterLimit (view v v.clusterLimit sectors))
    (dir : LiveDir v v.clusterLimit (view v v.clusterLimit sectors) dirCl chain) :
    FailsClean v v.clusterLimit (InDirectory v sectors) sectors
        (ensureWalk v fuel comps dirCl (Device.healthy sectors)) ↔
      Spared v (view v v.clusterLimit sectors) dirCl comps := by
  induction comps generalizing dirCl chain with
  | nil => exact ⟨fun _ => .nil, fun _ => .of_success⟩
  | cons comp rest induction =>
      have later : ∀ comp ∈ rest, comp ≠ [] ∧ ∀ char ∈ comp, char ≠ 0 :=
        fun other member => chars other (by simp [member])
      have linked := dir.chain.linked dir.occupied
      rcases chars comp (by simp) with ⟨nonempty, nulFree⟩
      cases ensureWalk_step shape enough rest owned (.inl dir) nonempty nulFree with
      | enters _ live first isDir ran =>
          rcases owned.liveDir live isDir with ⟨chain', next⟩
          rw [ran, Spared.enters linked first isDir]
          exact induction later next
      | blocked first file _ ran =>
          rw [ran]
          exact ⟨fun _ => .blocked linked first (.inr file), fun _ => .of_same rfl⟩
      | makes absent frame making ran =>
          rw [ran, Spared.absent linked absent]
          apply making.failsClean_iff shape
          intro made
          exact ensureWalk_fresh shape enough later (frame Change.nowhere).owned made.walking
            made.unlisted made.roomy

theorem writeWalk_failsClean_iff (data : List UInt8) {comps : List (List UInt8)}
    (chars : ∀ comp ∈ comps, comp ≠ [] ∧ ∀ char ∈ comp, char ≠ 0)
    {sectors : Nat → Buffer} {dirCl : Nat} {chain : List Nat}
    (owned : Owned v v.clusterLimit (view v v.clusterLimit sectors))
    (dir : LiveDir v v.clusterLimit (view v v.clusterLimit sectors) dirCl chain) :
    FailsClean v v.clusterLimit (InDirectory v sectors) sectors
        (writeWalk v fuel data comps dirCl (Device.healthy sectors)) ↔
      Spared v (view v v.clusterLimit sectors) dirCl comps := by
  induction comps generalizing dirCl chain with
  | nil => exact ⟨fun _ => .nil, fun _ => .of_same rfl⟩
  | cons comp rest induction =>
      have later : ∀ comp ∈ rest, comp ≠ [] ∧ ∀ char ∈ comp, char ≠ 0 :=
        fun other member => chars other (by simp [member])
      have linked := dir.chain.linked dir.occupied
      rcases chars comp (by simp) with ⟨nonempty, nulFree⟩
      cases writeWalk_step shape enough data rest owned (.inl dir) nonempty nulFree with
      | overwrites last _ _ first _ overwriting ran =>
          rw [ran]
          refine ⟨fun _ => .blocked linked first (.inl last), fun _ => ?_⟩
          cases overwriting with
          | refused _ same => exact .of_same same
          | stored _ _ _ _ _ _ => exact .of_success
      | creates last absent _ creating ran =>
          subst last
          rw [ran, Spared.absent linked absent]
          exact creating.failsClean_iff shape
      | passes more step =>
          cases step with
          | enters _ live first isDir ran =>
              rcases owned.liveDir live isDir with ⟨chain', next⟩
              rw [ran, Spared.enters linked first isDir]
              exact induction later next
          | blocked first file _ ran =>
              rw [ran]
              exact ⟨fun _ => .blocked linked first (.inr file), fun _ => .of_same rfl⟩
          | makes absent frame making ran =>
              rw [ran, Spared.absent linked absent]
              apply making.failsClean_iff shape
              intro made
              exact writeWalk_fresh shape enough data more later (frame Change.nowhere).owned
                made.walking made.unlisted made.roomy

end

/-! ## Calls -/

theorem codeOf_bind (v : Vol) (program : DiskM Int) (device : Device) :
    codeOf ((program >>= fun code => pure (v, code)) device) = program device := by
  rw [DiskM.bind_apply, codeOf]
  cases program device with
  | none => rfl
  | some result => rfl

/-- On FAT32 a failed call leaves the table and the directories as they were just
if the path is spared. -/
theorem Call.failsClean_fat32_iff {v : Vol} {sectors : Nat → Buffer} {fuel : Nat}
    (wellFormed : WellFormed v sectors) (enough : v.clusterLimit < fuel) (call : Call) :
    FailsClean v v.clusterLimit (InDirectory v sectors) sectors
        (codeOf (call.run fuel v (Device.healthy sectors))) ↔
      Spared v (view v v.clusterLimit sectors) v.rootClus call.path.components83 := by
  rcases wellFormed.owned.liveDir_root with ⟨chain, root⟩
  cases call with
  | writeFile path data =>
      simp only [Call.run, fat32WriteFilePath, wellFormed.shape.fat32]
      rw [codeOf_bind]
      exact writeWalk_failsClean_iff wellFormed.shape enough data (components83_chars path)
        wellFormed.owned root
  | ensureDir path =>
      simp only [Call.run, fat32EnsureDirPath, wellFormed.shape.fat32]
      rw [codeOf_bind]
      exact ensureWalk_failsClean_iff wellFormed.shape enough (components83_chars path)
        wellFormed.owned root

end ParanOS
