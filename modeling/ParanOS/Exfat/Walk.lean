import ParanOS.Exfat.Operations

/-! # exFAT path walks on sound volumes

Whatever the walks of `exfat_write_file_path` and `exfat_ensure_dir_path` find,
create and return, they leave the volume sound, as long as the set of every
component fits into a cluster.
-/

namespace ParanOS

open Foundation
open ExfatOwner (LiveAt)

/-- A component whose set fits into a cluster. -/
structure Fitting (v : Vol) (comp : List UInt8) : Prop where
  nonempty : comp ≠ []
  short : comp.length ≤ 255
  fits : entriesFor comp * 32 ≤ v.clusterBytes

/-- What a lookup has found: the set of a slot, with room for the name. -/
structure Hit (v : Vol) (store : ClusterStore) (want : List UInt8) (chain : List Nat)
    (place : Place) (info : EntryInfo) : Prop where
  inside : place ∈ chainPlaces v chain
  set : IsSet v store place
  cluster : info.cluster = setStart v store place
  isDir : info.isDir = setIsDir v store place
  atPlace : info.dirCluster = place.cl ∧ info.dirByteOff = place.off
  fits : place.off + entriesFor want * 32 ≤ v.clusterBytes

/-- How a lookup succeeds in a slot. -/
theorem verdict_ok {v : Vol} {store : ClusterStore} {want : List UInt8} {place : Place}
    {info : EntryInfo} (here : verdict v store want place = some (.ok info)) :
    ∃ name set, setAt v store place = some (name, set) ∧ sameName want name = true ∧
      info = { set with dirCluster := place.cl, dirByteOff := place.off } := by
  rw [verdict] at here
  by_cases ended : body v store place.cl place.off = 0x00
  · rw [if_pos ended] at here
    simp at here
  · rw [if_neg ended] at here
    cases parsed : setAt v store place with
    | none =>
        rw [parsed] at here
        simp at here
    | some set =>
        rcases set with ⟨name, set⟩
        rw [parsed] at here
        by_cases same : sameName want name = true
        · simp only [same, if_true, Option.some.injEq, Except.ok.injEq] at here
          exact ⟨name, set, rfl, same, here.symm⟩
        · simp [same] at here

theorem verdict_hit {v : Vol} {store : ClusterStore} {want : List UInt8} {chain : List Nat}
    {place : Place} {info : EntryInfo} (member : place ∈ chainPlaces v chain)
    (here : verdict v store want place = some (.ok info)) :
    Hit v store want chain place info := by
  rcases verdict_ok here with ⟨name, set, parsed, same, rfl⟩
  have isSet : IsSet v store place := by simp [IsSet, parsed]
  rcases setAt_info parsed with ⟨cluster, isDir, length⟩
  rcases isSet_iff.mp isSet with ⟨_, positive, _, inside, _⟩
  have entries := sameName_entries same positive length
  refine ⟨member, isSet, cluster, isDir, ⟨rfl, rfl⟩, ?_⟩
  omega

/-- How a lookup succeeds. -/
theorem lookup_ok {v : Vol} {store : ClusterStore} {want : List UInt8} {places : List Place}
    {info : EntryInfo} (found : lookup v store want places = .ok info) :
    ∃ before place after, places = before ++ place :: after ∧
      (∀ other ∈ before, verdict v store want other = none) ∧
      verdict v store want place = some (.ok info) := by
  rw [lookup] at found
  cases result : places.findSome? (verdict v store want) with
  | none =>
      rw [result] at found
      simp at found
  | some decided =>
      rw [result, Option.getD_some] at found
      subst found
      rcases List.findSome?_eq_some_iff.mp result with ⟨before, place, after, split, here, passed⟩
      exact ⟨before, place, after, split, passed, here⟩

theorem lookup_hit {v : Vol} {store : ClusterStore} {want : List UInt8} {chain : List Nat}
    {info : EntryInfo} (found : lookup v store want (chainPlaces v chain) = .ok info) :
    ∃ place, Hit v store want chain place info := by
  rcases lookup_ok found with ⟨before, place, after, split, _, here⟩
  exact ⟨place, verdict_hit (by simp [split]) here⟩

/-- A directory all of whose slots are unused. -/
def Blank (v : Vol) (store : ClusterStore) (chain : List Nat) : Prop :=
  ∀ cl ∈ chain, ∀ off < v.clusterBytes, body v store cl off = 0x00

theorem lookup_blank {v : Vol} (shape : ExfatGeometry v) {store : ClusterStore}
    {chain : List Nat} (want : List UInt8) (blank : Blank v store chain) :
    ∃ code, lookup v store want (chainPlaces v chain) = .error code := by
  cases found : lookup v store want (chainPlaces v chain) with
  | error code => exact ⟨code, rfl⟩
  | ok info =>
      rcases lookup_hit found with ⟨place, hit⟩
      have range := (mem_chainPlaces shape).mp hit.inside
      have file := (isSet_iff.mp hit.set).1
      rw [blank place.cl range.1 place.off range.2.2] at file
      exact absurd file (by decide)

/-! ## Walks -/

/-- The steps of a walk keep the volume as `inv` says. `dir` says of a cluster that a
directory starts there in which the walk can go on. -/
structure WalkSteps (v : Vol) (fuel : Nat) (data : List UInt8) (inv : (Nat → Buffer) → Prop)
    (dir : (Nat → Buffer) → Nat → Prop) (comps : List (List UInt8)) : Prop where
  find : ∀ comp ∈ comps, ∀ sectors start, inv sectors → dir sectors start →
    ∃ result, exfatFindInDir comp fuel start v (Device.healthy sectors) =
        some ((v, result), Device.healthy sectors) ∧
      ∀ info, result = .ok info → (info.isDir = true → dir sectors info.cluster) ∧
        ∃ code sectors', exfatOverwrite v fuel info comp data (Device.healthy sectors) =
          some (code, Device.healthy sectors') ∧ inv sectors'
  makeDir : ∀ comp ∈ comps, ∀ sectors start, inv sectors → dir sectors start →
    ∃ code result sectors', exfatCreateEntry v fuel start comp true [] (Device.healthy sectors) =
        some ((code, result), Device.healthy sectors') ∧
      inv sectors' ∧ (code = 0 → dir sectors' result)
  makeFile : ∀ comp ∈ comps, ∀ sectors start, inv sectors → dir sectors start →
    ∃ code result sectors',
      exfatCreateEntry v fuel start comp false data (Device.healthy sectors) =
        some ((code, result), Device.healthy sectors') ∧ inv sectors'

namespace WalkSteps

variable {v : Vol} {fuel : Nat} {data : List UInt8} {inv : (Nat → Buffer) → Prop}
  {dir : (Nat → Buffer) → Nat → Prop} {comps : List (List UInt8)}

theorem tail {comp : List UInt8} {rest : List (List UInt8)}
    (steps : WalkSteps v fuel data inv dir (comp :: rest)) :
    WalkSteps v fuel data inv dir rest where
  find := fun other member => steps.find other (List.mem_cons_of_mem comp member)
  makeDir := fun other member => steps.makeDir other (List.mem_cons_of_mem comp member)
  makeFile := fun other member => steps.makeFile other (List.mem_cons_of_mem comp member)

variable (steps : WalkSteps v fuel data inv dir comps) {sectors : Nat → Buffer} {start : Nat}
  (begins : inv sectors) (here : dir sectors start)
include steps begins here

theorem ensureWalk :
    ∃ code sectors', exfatEnsureWalk fuel comps start v (Device.healthy sectors) =
        some ((v, code), Device.healthy sectors') ∧ inv sectors' := by
  induction comps generalizing sectors start with
  | nil => exact ⟨0, sectors, rfl, begins⟩
  | cons comp rest induction =>
      rcases steps.find comp (by simp) sectors start begins here with ⟨result, looked, hits⟩
      rw [exfatEnsureWalk, DiskM.bind_run looked]
      cases result with
      | error code =>
          rcases steps.makeDir comp (by simp) sectors start begins here with
            ⟨code, first, middle, ran, kept, newDir⟩
          simp only
          rw [DiskM.bind_run ran]
          by_cases succeeded : code = 0
          · rcases induction steps.tail kept (newDir succeeded) with
              ⟨code', sectors', restRan, final⟩
            refine ⟨code', sectors', ?_, final⟩
            simp only [succeeded, ne_eq, not_true_eq_false, if_false]
            exact restRan
          · exact ⟨-1, middle, by simp [succeeded], kept⟩
      | ok info =>
          cases isDir : info.isDir with
          | false => exact ⟨-2, sectors, by simp [isDir], begins⟩
          | true =>
              rcases induction steps.tail begins ((hits info rfl).1 isDir) with
                ⟨code', sectors', restRan, final⟩
              refine ⟨code', sectors', ?_, final⟩
              simp only [isDir, if_true]
              exact restRan

theorem writeWalk :
    ∃ code sectors', exfatWriteWalk fuel data comps start v (Device.healthy sectors) =
        some ((v, code), Device.healthy sectors') ∧ inv sectors' := by
  induction comps generalizing sectors start with
  | nil => exact ⟨-1, sectors, rfl, begins⟩
  | cons comp rest induction =>
      rcases steps.find comp (by simp) sectors start begins here with ⟨result, looked, hits⟩
      rw [exfatWriteWalk, DiskM.bind_run looked]
      cases result with
      | error code =>
          cases rest with
          | nil =>
              rcases steps.makeFile comp (by simp) sectors start begins here with
                ⟨code, first, sectors', ran, final⟩
              refine ⟨code, sectors', ?_, final⟩
              simp only [List.isEmpty_nil, if_true]
              rw [DiskM.bind_run ran]
              rfl
          | cons next others =>
              rcases steps.makeDir comp (by simp) sectors start begins here with
                ⟨code, first, middle, ran, kept, newDir⟩
              simp only [List.isEmpty_cons, Bool.false_eq_true, if_false]
              rw [DiskM.bind_run ran]
              by_cases succeeded : code = 0
              · rcases induction steps.tail kept (newDir succeeded) with
                  ⟨code', sectors', restRan, final⟩
                refine ⟨code', sectors', ?_, final⟩
                simp only [succeeded, ne_eq, not_true_eq_false, if_false]
                exact restRan
              · exact ⟨-5, middle, by simp [succeeded], kept⟩
      | ok info =>
          rcases hits info rfl with ⟨enters, code, written, overwrote, kept⟩
          cases rest with
          | nil =>
              refine ⟨code, written, ?_, kept⟩
              simp only [List.isEmpty_nil, if_true]
              rw [DiskM.bind_run overwrote]
              rfl
          | cons next others =>
              simp only [List.isEmpty_cons, Bool.false_eq_true, if_false]
              cases isDir : info.isDir with
              | false => exact ⟨-6, sectors, by simp, begins⟩
              | true =>
                  rcases induction steps.tail begins (enters isDir) with
                    ⟨code', sectors', restRan, final⟩
                  refine ⟨code', sectors', ?_, final⟩
                  simp only [if_true]
                  exact restRan

end WalkSteps

section

variable {v : Vol} (shape : ExfatGeometry v) {fuel : Nat}
  (enough : v.exfatClusterCount + 2 < fuel)
include shape enough

/-- A lookup in a directory in use. -/
theorem exfatFindInDir_spec {sectors : Nat → Buffer} {bitmap chain : List Nat} {depth : Nat}
    {owner : ExfatOwner} (want : List UInt8) (sound : Sound v (exfatView v sectors) bitmap)
    (dir : DirAt v (exfatView v sectors) depth owner chain) :
    exfatFindInDir want fuel (owner.start v (exfatView v sectors)) v (Device.healthy sectors) =
      some ((v, lookup v (exfatView v sectors) want (chainPlaces v chain)),
        Device.healthy sectors) :=
  exfatFindInDir_healthy shape sound.agreed.bitmap.located want dir.linked dir.data
    (dir.length_lt enough)

omit shape enough in
/-- A directory that a lookup has found. -/
theorem Hit.dirAt {store : ClusterStore} {chain : List Nat} {depth : Nat}
    {owner : ExfatOwner} {want : List UInt8} {place : Place} {info : EntryInfo}
    (hit : Hit v store want chain place info) (owned : ExfatOwned v store)
    (dir : DirAt v store depth owner chain) (isDir : info.isDir = true) :
    ∃ members, DirAt v store (depth + 1) (.entry place) members := by
  apply owned.dirAt
  · exact .entry dir.live dir.isDir dir.linked hit.inside hit.set
  · rw [ExfatOwner.IsDir, ← hit.isDir]
    exact isDir

/-- A cluster at which a directory in use starts. -/
def StartsDir (v : Vol) (sectors : Nat → Buffer) (start : Nat) : Prop :=
  ∃ depth owner chain, DirAt v (exfatView v sectors) depth owner chain ∧
    owner.start v (exfatView v sectors) = start

/-- The steps of a walk on a sound volume. -/
theorem walkSteps_sound (bitmap : List Nat) (data : List UInt8) {comps : List (List UInt8)}
    (fitting : ∀ comp ∈ comps, Fitting v comp) :
    WalkSteps v fuel data (fun sectors => Sound v (exfatView v sectors) bitmap) (StartsDir v)
      comps where
  find := by
    rintro comp member sectors start sound ⟨depth, owner, chain, dir, rfl⟩
    have fit := fitting comp member
    refine ⟨_, exfatFindInDir_spec shape enough comp sound dir, ?_⟩
    intro info found
    rcases lookup_hit found with ⟨place, hit⟩
    constructor
    · intro isDir
      rcases hit.dirAt sound.owned dir isDir with ⟨members, child⟩
      exact ⟨_, _, members, child, hit.cluster.symm⟩
    · rcases exfatOverwrite_spec shape data enough sound dir hit.inside hit.set fit.nonempty
        fit.short hit.fits hit.cluster hit.atPlace with
        ⟨sectors', first, members, ran, final, _⟩ | ⟨_, refused, _⟩
      · exact ⟨0, sectors', ran, final⟩
      · exact ⟨-7, _, refused, (refused_sound shape sound (clustersNeeded v data.length)).2⟩
  makeDir := by
    rintro comp member sectors start sound ⟨depth, owner, chain, dir, rfl⟩
    have fit := fitting comp member
    rcases exfatCreateEntry_dir shape enough sound dir fit.nonempty fit.short fit.fits with
      ⟨code, result, sectors', ran, final, _, created⟩
    refine ⟨code, result, sectors', ran, final, fun succeeded => ?_⟩
    rcases created succeeded with ⟨place, chain', members, _, begins, newDir⟩
    exact ⟨_, _, members, newDir, begins⟩
  makeFile := by
    rintro comp member sectors start sound ⟨depth, owner, chain, dir, rfl⟩
    have fit := fitting comp member
    rcases exfatCreateEntry_file shape enough sound dir fit.nonempty fit.short fit.fits data with
      ⟨code, result, sectors', ran, final, _⟩
    exact ⟨code, result, sectors', ran, final⟩

theorem exfatEnsureWalk_sound {comps : List (List UInt8)}
    (fitting : ∀ comp ∈ comps, Fitting v comp) {sectors : Nat → Buffer}
    {bitmap chain : List Nat} {depth : Nat} {owner : ExfatOwner}
    (sound : Sound v (exfatView v sectors) bitmap)
    (dir : DirAt v (exfatView v sectors) depth owner chain) :
    ∃ code sectors',
      exfatEnsureWalk fuel comps (owner.start v (exfatView v sectors)) v
        (Device.healthy sectors) = some ((v, code), Device.healthy sectors') ∧
      Sound v (exfatView v sectors') bitmap :=
  (walkSteps_sound shape enough bitmap [] fitting).ensureWalk sound ⟨_, _, _, dir, rfl⟩

theorem exfatWriteWalk_sound (data : List UInt8) {comps : List (List UInt8)}
    (fitting : ∀ comp ∈ comps, Fitting v comp) {sectors : Nat → Buffer}
    {bitmap chain : List Nat} {depth : Nat} {owner : ExfatOwner}
    (sound : Sound v (exfatView v sectors) bitmap)
    (dir : DirAt v (exfatView v sectors) depth owner chain) :
    ∃ code sectors',
      exfatWriteWalk fuel data comps (owner.start v (exfatView v sectors)) v
        (Device.healthy sectors) = some ((v, code), Device.healthy sectors') ∧
      Sound v (exfatView v sectors') bitmap :=
  (walkSteps_sound shape enough bitmap data fitting).writeWalk sound ⟨_, _, _, dir, rfl⟩

end

end ParanOS
