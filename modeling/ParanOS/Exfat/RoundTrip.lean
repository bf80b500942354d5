import ParanOS.Exfat.Contract
import ParanOS.Exfat.Visible

/-! # Reading back what was written to exFAT

After a successful write the path leads to a file with the data, or it ends at
an unused slot in front of the new set. Which of the two is decided by the
directory in which the first missing component was created.
-/

namespace ParanOS

open Foundation
open ExfatOwner (LiveAt)

/-! ## Where a path leads -/

/-- The directory that a lookup has led to. -/
def EntryInfo.owner (info : EntryInfo) : ExfatOwner :=
  .entry ⟨info.dirCluster, info.dirByteOff⟩

/-- The entry is that of a file with this content. -/
structure FileWith (v : Vol) (store : ClusterStore) (data : List UInt8) (info : EntryInfo) :
    Prop where
  isFile : info.isDir = false
  size : info.size = data.length
  occupied : info.cluster ≠ 0
  content : ∃ members, Chain (v.exfatClusterCount + 2) store info.cluster members ∧
    (chainData v store members).take data.length = data

/-- The path leads to a file with this content. -/
inductive Reads (v : Vol) (store : ClusterStore) (data : List UInt8) :
    ExfatOwner → List (List UInt8) → Prop
  | file {depth owner chain comp info} : DirAt v store depth owner chain →
      lookup v store comp (chainPlaces v chain) = .ok info → FileWith v store data info →
      Reads v store data owner [comp]
  | deeper {depth owner chain comp next rest info} : DirAt v store depth owner chain →
      lookup v store comp (chainPlaces v chain) = .ok info → info.isDir = true →
      info.cluster = info.owner.start v store → Reads v store data info.owner (next :: rest) →
      Reads v store data owner (comp :: next :: rest)

/-- The path leads to an unused slot. -/
inductive Hidden (v : Vol) (store : ClusterStore) : ExfatOwner → List (List UInt8) → Prop
  | here {depth owner chain comp rest} : DirAt v store depth owner chain →
      lookup v store comp (chainPlaces v chain) = .error (-2) →
      Hidden v store owner (comp :: rest)
  | deeper {depth owner chain comp next rest info} : DirAt v store depth owner chain →
      lookup v store comp (chainPlaces v chain) = .ok info → info.isDir = true →
      info.cluster = info.owner.start v store → Hidden v store info.owner (next :: rest) →
      Hidden v store owner (comp :: next :: rest)

/-- The first component of the path that is missing in its directory, if there
is one, finds visible room for its set there. -/
inductive Roomy (v : Vol) (store : ClusterStore) : ExfatOwner → List (List UInt8) → Prop
  | found {depth owner chain comp info} : DirAt v store depth owner chain →
      lookup v store comp (chainPlaces v chain) = .ok info → Roomy v store owner [comp]
  | deeper {depth owner chain comp next rest info} : DirAt v store depth owner chain →
      lookup v store comp (chainPlaces v chain) = .ok info → info.isDir = true →
      Roomy v store info.owner (next :: rest) → Roomy v store owner (comp :: next :: rest)
  | missing {depth owner chain comp rest code} : DirAt v store depth owner chain →
      lookup v store comp (chainPlaces v chain) = .error code →
      VisibleRoom v store chain (entriesFor comp) → Roomy v store owner (comp :: rest)

/-- The directories along a path are tidy. -/
def TidyAlong (v : Vol) (store : ClusterStore) : List (List UInt8) → ExfatOwner → Prop
  | [], _ => True
  | comp :: rest, owner => ∀ depth chain, DirAt v store depth owner chain →
      Tidy v store chain ∧
      ∀ info, lookup v store comp (chainPlaces v chain) = .ok info → info.isDir = true →
        TidyAlong v store rest info.owner

theorem TidyAlong.of_all {v : Vol} {store : ClusterStore}
    (tidy : ∀ depth owner chain, DirAt v store depth owner chain → Tidy v store chain)
    (comps : List (List UInt8)) (owner : ExfatOwner) : TidyAlong v store comps owner := by
  induction comps generalizing owner with
  | nil => trivial
  | cons comp rest induction =>
      intro depth chain dir
      exact ⟨tidy depth owner chain dir, fun info _ _ => induction info.owner⟩

theorem DirAt.chain_eq {v : Vol} {store : ClusterStore} {depth depth' : Nat}
    {owner : ExfatOwner} {chain chain' : List Nat} (first : DirAt v store depth owner chain)
    (second : DirAt v store depth' owner chain') : chain = chain' :=
  first.holds.unique second.holds

section

variable {v : Vol} {store : ClusterStore} {depth : Nat} {owner : ExfatOwner} {chain : List Nat}
  {comp : List UInt8} (dir : DirAt v store depth owner chain)
include dir

theorem roomy_missing_iff {missing : Int} {rest : List (List UInt8)}
    (found : lookup v store comp (chainPlaces v chain) = .error missing) :
    Roomy v store owner (comp :: rest) ↔ VisibleRoom v store chain (entriesFor comp) := by
  constructor
  · intro roomy
    cases roomy with
    | found dir' found' =>
        rw [dir'.chain_eq dir, found] at found'
        simp at found'
    | deeper dir' found' _ _ =>
        rw [dir'.chain_eq dir, found] at found'
        simp at found'
    | missing dir' _ room =>
        rw [dir'.chain_eq dir] at room
        exact room
  · exact .missing dir found

theorem roomy_deeper_iff {info : EntryInfo} {next : List UInt8} {others : List (List UInt8)}
    (found : lookup v store comp (chainPlaces v chain) = .ok info) (isDir : info.isDir = true) :
    Roomy v store owner (comp :: next :: others) ↔ Roomy v store info.owner (next :: others) := by
  constructor
  · intro roomy
    cases roomy with
    | deeper dir' found' _ below =>
        rw [dir'.chain_eq dir, found, Except.ok.injEq] at found'
        rw [← found'] at below
        exact below
    | missing dir' found' _ =>
        rw [dir'.chain_eq dir, found] at found'
        simp at found'
  · exact .deeper dir found isDir

end

section

variable {v : Vol} (shape : ExfatGeometry v)
include shape

theorem lookup_congr {store store' : ClusterStore} {chain : List Nat} (want : List UInt8)
    (same : ∀ cl ∈ chain, store'.sector cl = store.sector cl) :
    lookup v store' want (chainPlaces v chain) = lookup v store want (chainPlaces v chain) := by
  have agree : ∀ places : List Place, (∀ place ∈ places, place ∈ chainPlaces v chain) →
      places.findSome? (verdict v store' want) = places.findSome? (verdict v store want) := by
    intro places
    induction places with
    | nil => intro _; rfl
    | cons head rest induction =>
        intro inside
        have cluster := ((mem_chainPlaces shape).mp (inside head (by simp))).1
        rw [List.findSome?_cons, List.findSome?_cons,
          verdict_congr (body_congr (same head.cl cluster)),
          induction fun place member => inside place (by simp [member])]
  rw [lookup, lookup, agree _ fun _ member => member]

theorem KeptAbove.lookup {store store' : ClusterStore} {limit depth : Nat} {owner : ExfatOwner}
    {chain : List Nat} (kept : KeptAbove v limit store store')
    (dir : DirAt v store depth owner chain) (above : depth < limit) (want : List UInt8) :
    ParanOS.lookup v store' want (chainPlaces v chain) =
      ParanOS.lookup v store want (chainPlaces v chain) :=
  lookup_congr shape want fun cl member => (kept depth owner chain above dir cl member).2

/-! ## Blank directories -/

theorem Blank.unused {store : ClusterStore} {chain : List Nat} (blank : Blank v store chain)
    {place : Place} (member : place ∈ chainPlaces v chain) : Unused v store place := by
  rcases (mem_chainPlaces shape).mp member with ⟨cluster, _, inside⟩
  exact blank place.cl cluster place.off inside

theorem Blank.tidy {store : ClusterStore} {chain : List Nat} (blank : Blank v store chain) :
    Tidy v store chain where
  tail := fun before place after split _ other member =>
    blank.unused shape (by simp [split, member])
  sets := fun place member set => by
    have unused := blank.unused shape member
    rw [Unused, (isSet_iff.mp set).1] at unused
    exact absurd unused (by decide)

theorem Blank.first {store : ClusterStore} {depth : Nat} {owner : ExfatOwner}
    {chain : List Nat} (dir : DirAt v store depth owner chain) :
    ∃ head rest, chainPlaces v chain = ⟨head, 0⟩ :: rest ∧ head ∈ chain := by
  have start := dir.holds.start_mem dir.occupied
  have slots := shape.slots_eq
  have size := shape.clusterBytes_pos
  cases chain with
  | nil => simp at start
  | cons head later =>
      rcases chainPlaces_at shape [] head later (j := 0) (by omega) with ⟨rest, split, _⟩
      exact ⟨head, rest, by simpa [chainPlaces, leadingPlaces] using split, by simp⟩

/-- In a blank directory nothing is found and there is visible room. -/
theorem Blank.roomy {store : ClusterStore} {depth : Nat} {owner : ExfatOwner}
    {chain : List Nat} (blank : Blank v store chain) (dir : DirAt v store depth owner chain)
    {comp : List UInt8} (fits : entriesFor comp * 32 ≤ v.clusterBytes)
    (rest : List (List UInt8)) :
    Roomy v store owner (comp :: rest) ∧ TidyAlong v store (comp :: rest) owner := by
  rcases Blank.first shape dir with ⟨head, others, split, inChain⟩
  have nothing : lookup v store comp (chainPlaces v chain) = .error (-2) := by
    rw [split]
    apply lookup_of_passed (show ∀ other ∈ [], _ by simp)
    rw [verdict]
    exact if_pos (blank.unused shape (by simp [split]))
  constructor
  · refine .missing dir nothing (.inr ⟨[], ⟨head, 0⟩, others, split, by simp, ?_, ?_⟩)
    · simp only
      omega
    · intro i below
      simp only
      exact .inl (blank head inChain _ (by omega))
  · intro depth' chain' dir'
    have same := dir.chain_eq dir'
    subst same
    refine ⟨blank.tidy shape, ?_⟩
    intro info found
    rw [nothing] at found
    simp at found

/-! ## Reading -/

variable {fuel : Nat} (enough : v.exfatClusterCount + 2 < fuel)
include enough

theorem followWalk_reads {sectors : Nat → Buffer} {bitmap : List Nat} {data : List UInt8}
    {owner : ExfatOwner} {comps : List (List UInt8)}
    (sound : Sound v (exfatView v sectors) bitmap)
    (reads : Reads v (exfatView v sectors) data owner comps) :
    ∃ info, followWalk fuel comps (owner.start v (exfatView v sectors)) v
        (Device.healthy sectors) = some ((v, .ok (some info)), Device.healthy sectors) ∧
      FileWith v (exfatView v sectors) data info := by
  induction reads with
  | file dir found file =>
      refine ⟨_, ?_, file⟩
      rw [followWalk, DiskM.bind_run (exfatFindInDir_spec shape enough _ sound dir), found]
      rfl
  | deeper dir found isDir cluster _ induction =>
      rcases induction with ⟨info, restRan, file⟩
      refine ⟨info, ?_, file⟩
      rw [followWalk, DiskM.bind_run (exfatFindInDir_spec shape enough _ sound dir), found]
      simp only [List.isEmpty_cons, Bool.false_eq_true, if_false, isDir, if_true]
      rw [cluster]
      exact restRan

theorem followWalk_hidden {sectors : Nat → Buffer} {bitmap : List Nat}
    {owner : ExfatOwner} {comps : List (List UInt8)}
    (sound : Sound v (exfatView v sectors) bitmap)
    (hidden : Hidden v (exfatView v sectors) owner comps) :
    followWalk fuel comps (owner.start v (exfatView v sectors)) v (Device.healthy sectors) =
      some ((v, .error (-2)), Device.healthy sectors) := by
  induction hidden with
  | here dir missing =>
      rw [followWalk, DiskM.bind_run (exfatFindInDir_spec shape enough _ sound dir), missing]
      rfl
  | deeper dir found isDir cluster _ induction =>
      rw [followWalk, DiskM.bind_run (exfatFindInDir_spec shape enough _ sound dir), found]
      simp only [List.isEmpty_cons, Bool.false_eq_true, if_false, isDir, if_true]
      rw [cluster]
      exact induction

/-- A file that the path leads to is read in full. -/
theorem exfatReadWalk_reads {sectors : Nat → Buffer} {bitmap : List Nat} {data : List UInt8}
    {comps : List (List UInt8)} (sound : Sound v (exfatView v sectors) bitmap)
    (reads : Reads v (exfatView v sectors) data .root comps) (small : data.length < 4294967296)
    {maxBytes : Nat} (room : data.length ≤ maxBytes) :
    exfatReadWalk fuel maxBytes comps v (Device.healthy sectors) =
      some ((v, ⟨0, data.length, data⟩), Device.healthy sectors) := by
  rcases followWalk_reads shape enough sound reads with ⟨info, followed, file⟩
  have fromRoot : followWalk fuel comps v.rootClus v (Device.healthy sectors) =
      some ((v, .ok (some info)), Device.healthy sectors) := followed
  rcases file.content with ⟨members, holds, content⟩
  have size : min (min info.size 0xFFFFFFFF) maxBytes = data.length := by
    rw [file.size]
    omega
  have read := readFileFromCluster_healthy shape.geometry
    (fun occupied => ⟨holds.linked occupied, fun cl member => holds.inside member⟩) enough
    (min info.size 0xFFFFFFFF) maxBytes
  rw [fileResult, if_neg file.occupied, size, content] at read
  rw [exfatReadWalk, DiskM.bind_run fromRoot]
  simp only [file.isFile, Bool.false_eq_true, if_false]
  rw [DiskM.bind_run read]
  rfl

theorem exfatReadWalk_hidden {sectors : Nat → Buffer} {bitmap : List Nat}
    {comps : List (List UInt8)} (sound : Sound v (exfatView v sectors) bitmap)
    (hidden : Hidden v (exfatView v sectors) .root comps) (maxBytes : Nat) :
    exfatReadWalk fuel maxBytes comps v (Device.healthy sectors) =
      some ((v, ⟨-2, 0, []⟩), Device.healthy sectors) := by
  have fromRoot : followWalk fuel comps v.rootClus v (Device.healthy sectors) =
      some ((v, .error (-2)), Device.healthy sectors) :=
    followWalk_hidden shape enough sound hidden
  rw [exfatReadWalk, DiskM.bind_run fromRoot]
  rfl

/-! ## Writing -/

omit enough in
/-- The clusters for a size hold that many bytes. -/
theorem clustersNeeded_enough {bytes : Nat} (fits : bytes + v.clusterBytes ≤ 4294967296) :
    bytes ≤ clustersNeeded v bytes * v.clusterBytes := by
  have positive := shape.clusterBytes_pos
  have bound := Nat.lt_div_mul_add positive (a := bytes + v.clusterBytes - 1)
  rw [clustersNeeded, u32_of_lt (by omega)]
  omega

omit enough in
theorem StoredSet.fileWith {store : ClusterStore} {place : Place} {name data : List UInt8}
    {first : Nat} {members : List Nat}
    (stored : StoredSet v store place name first false members data)
    (fits : data.length + v.clusterBytes ≤ 4294967296) (occupied : first ≠ 0)
    (length : members.length = clustersNeeded v data.length) :
    FileWith v store data
      ⟨first, data.length % 18446744073709551616, false, place.cl, place.off⟩ where
  isFile := rfl
  size := Nat.mod_eq_of_lt (by omega)
  occupied := occupied
  content := ⟨members, stored.holds, stored.content (by
    rw [length]
    exact clustersNeeded_enough shape fits)⟩

omit enough in
/-- A directory above whose content nothing has changed leads where it did. -/
theorem Roomy.ascend {store store' : ClusterStore} {bitmap chain : List Nat} {depth : Nat}
    {owner : ExfatOwner} {comp : List UInt8} {info : EntryInfo} {place : Place}
    (next : List UInt8) (rest : List (List UInt8)) (data : List UInt8)
    (sound : Sound v store bitmap)
    (dir : DirAt v store depth owner chain) (kept : KeptAbove v (depth + 1) store store')
    (found : lookup v store comp (chainPlaces v chain) = .ok info)
    (live : LiveAt v store (depth + 1) (.entry place)) (isDir : info.isDir = true)
    (cluster : info.cluster = setStart v store place) (atPlace : info.owner = .entry place) :
    (Reads v store' data (.entry place) (next :: rest) →
      Reads v store' data owner (comp :: next :: rest)) ∧
    (Hidden v store' (.entry place) (next :: rest) →
      Hidden v store' owner (comp :: next :: rest)) := by
  have dir' := kept.dirAt shape sound.owned dir (by omega)
  have found' : lookup v store' comp (chainPlaces v chain) = .ok info := by
    rw [kept.lookup shape dir (by omega)]
    exact found
  have start := (kept.liveAt shape sound.owned live (by omega)).2.1
  have cluster' : info.cluster = info.owner.start v store' := by
    rw [atPlace, start]
    exact cluster
  constructor
  · intro reads
    exact .deeper dir' found' isDir cluster' (atPlace ▸ reads)
  · intro hidden
    exact .deeper dir' found' isDir cluster' (atPlace ▸ hidden)

/-- After a successful write the path leads to the data exactly when the first
missing component found visible room. -/
theorem exfatWriteWalk_spec {data : List UInt8} (some : data ≠ [])
    (size : data.length + v.clusterBytes ≤ 4294967296) {comps : List (List UInt8)}
    (fitting : ∀ comp ∈ comps, Fitting v comp)
    (chars : ∀ comp ∈ comps, ∀ char ∈ comp, char ≠ 0) {sectors : Nat → Buffer}
    {bitmap chain : List Nat} {depth : Nat} {owner : ExfatOwner}
    (sound : Sound v (exfatView v sectors) bitmap)
    (dir : DirAt v (exfatView v sectors) depth owner chain)
    (tidy : TidyAlong v (exfatView v sectors) comps owner) :
    ∃ code sectors',
      exfatWriteWalk fuel data comps (owner.start v (exfatView v sectors)) v
        (Device.healthy sectors) = .some ((v, code), Device.healthy sectors') ∧
      Sound v (exfatView v sectors') bitmap ∧
      KeptAbove v depth (exfatView v sectors) (exfatView v sectors') ∧
      (code = 0 →
        (Roomy v (exfatView v sectors) owner comps →
          Reads v (exfatView v sectors') data owner comps) ∧
        (¬ Roomy v (exfatView v sectors) owner comps →
          Hidden v (exfatView v sectors') owner comps)) := by
  induction comps generalizing sectors depth owner chain with
  | nil => exact ⟨-1, sectors, rfl, sound, .refl _ _ _, by simp⟩
  | cons comp rest induction =>
      have fit := fitting comp (by simp)
      have compChars := chars comp (by simp)
      have later := fun other member => fitting other (List.mem_cons_of_mem comp member)
      have laterChars := fun other member => chars other (List.mem_cons_of_mem comp member)
      have looked := exfatFindInDir_spec shape enough comp sound dir
      rcases tidy depth chain dir with ⟨tidyHere, tidyBelow⟩
      rw [exfatWriteWalk, DiskM.bind_run looked]
      cases found : lookup v (exfatView v sectors) comp (chainPlaces v chain) with
      | error missing =>
          rw [roomy_missing_iff dir found]
          cases rest with
          | nil =>
              rcases exfatCreateEntry_file shape enough sound dir fit.nonempty fit.short
                fit.fits data with ⟨code, first, sectors', ran, final, kept, created⟩
              refine ⟨code, sectors', ?_, final, kept, ?_⟩
              · simp only [List.isEmpty_nil, if_true]
                rw [DiskM.bind_run ran]
                rfl
              · intro succeeded
                rcases created succeeded with ⟨start, place, chain', members, done, filled⟩
                have seen := done.lookup shape tidyHere found fit.nonempty fit.short compChars
                constructor
                · intro visible
                  exact .file done.dir (seen.1 visible)
                    (done.stored.fileWith shape size (filled some).1 (filled some).2)
                · intro hidden
                  exact .here done.dir (seen.2 hidden)
          | cons next others =>
              rcases exfatCreateEntry_dir shape enough sound dir fit.nonempty fit.short
                fit.fits with ⟨result, first, middle, ran, soundMiddle, keptMiddle, created⟩
              simp only [List.isEmpty_cons, Bool.false_eq_true, if_false]
              rw [DiskM.bind_run ran]
              by_cases succeeded : result = 0
              · rcases created succeeded with ⟨place, chain', members, done, start, newDir⟩
                have seen := done.lookup shape tidyHere found fit.nonempty fit.short compChars
                have blank : Blank v (exfatView v middle) members := done.stored.blank rfl
                rcases blank.roomy shape newDir (later next (by simp)).fits others with
                  ⟨roomy, tidyNew⟩
                rcases induction later laterChars soundMiddle newDir tidyNew with
                  ⟨code, sectors', restRan, final, kept, outcome⟩
                refine ⟨code, sectors', ?_, final,
                  keptMiddle.trans shape sound.owned (kept.mono (by omega)), ?_⟩
                · rw [start] at restRan
                  simp only [succeeded, ne_eq, not_true_eq_false, if_false]
                  exact restRan
                · intro returned
                  have reads := (outcome returned).1 roomy
                  constructor
                  · intro visible
                    exact (Roomy.ascend shape next others data soundMiddle done.dir kept
                      (seen.1 visible) done.live rfl (setAt_info done.stored.entry).1 rfl).1 reads
                  · intro hidden
                    have dirAfter := kept.dirAt shape soundMiddle.owned done.dir (by omega)
                    refine .here dirAfter ?_
                    rw [kept.lookup shape done.dir (by omega)]
                    exact seen.2 hidden
              · exact ⟨-5, middle, by simp [succeeded], soundMiddle, keptMiddle, by simp⟩
      | ok info =>
          rcases lookup_hit found with ⟨place, hit⟩
          have atPlace : info.owner = .entry place := by
            rw [EntryInfo.owner, hit.atPlace.1, hit.atPlace.2]
          cases rest with
          | nil =>
              have roomy : Roomy v (exfatView v sectors) owner [comp] := .found dir found
              simp only [List.isEmpty_nil, if_true]
              rcases exfatOverwrite_spec shape data enough sound dir hit.inside hit.set fit.nonempty
                fit.short hit.fits hit.cluster hit.atPlace with
                ⟨sectors', first, members, ran, final, kept, done, filled⟩ | ⟨_, refused, _⟩
              · refine ⟨0, sectors', by rw [DiskM.bind_run ran]; rfl, final, kept, fun _ => ?_⟩
                refine ⟨fun _ => ?_, fun none => absurd roomy none⟩
                have seen := done.lookup shape tidyHere dir.linked.nodup fit.nonempty fit.short
                  compChars found hit.atPlace
                exact .file done.dir seen
                  (done.stored.fileWith shape size (filled some).1 (filled some).2.1)
              · rcases refused_sound shape sound (clustersNeeded v data.length) with ⟨idle, final⟩
                exact ⟨-7, _, by rw [DiskM.bind_run refused]; rfl, final, idle.kept depth,
                  by simp⟩
          | cons next others =>
              simp only [List.isEmpty_cons, Bool.false_eq_true, if_false]
              cases isDir : info.isDir with
              | false => exact ⟨-6, sectors, by simp, sound, .refl _ _ _, by simp⟩
              | true =>
                  rcases hit.dirAt sound.owned dir isDir with ⟨members, child⟩
                  have tidyChild := tidyBelow info found isDir
                  rw [atPlace] at tidyChild
                  rcases induction later laterChars sound child tidyChild with
                    ⟨code, sectors', restRan, final, kept, outcome⟩
                  refine ⟨code, sectors', ?_, final, kept.mono (by omega), ?_⟩
                  · simp only [if_true]
                    rw [hit.cluster]
                    exact restRan
                  · intro returned
                    have ascend := Roomy.ascend shape next others data sound dir kept found
                      child.live isDir hit.cluster atPlace
                    rw [roomy_deeper_iff dir found isDir, atPlace]
                    exact ⟨fun below => ascend.1 ((outcome returned).1 below),
                      fun none => ascend.2 ((outcome returned).2 none)⟩

end

/-! ## Names that are too long for a cluster -/

theorem exfatSetAt_entries {v : Vol} {cluster byteOff : Nat} {sec : Buffer}
    {name want : List UInt8} {info : EntryInfo} {device device' : Device}
    (ran : exfatSetAt v cluster byteOff sec device = some (some (name, info), device'))
    (same : sameName want name = true) : entriesFor want * 32 ≤ v.clusterBytes := by
  simp only [exfatSetAt] at ran
  split at ran
  · simp at ran
  · split at ran
    · simp at ran
    · split at ran
      · simp at ran
      · next positive _ =>
          rcases DiskM.of_bind ran with ⟨collected, middle, collectRan, parsed⟩
          cases collected with
          | none => simp at parsed
          | some set =>
              have inside : byteOff + ((sec (byteOff % v.bytesPerSec + 1)).toNat + 1) * 32 ≤
                  v.clusterBytes := by
                by_contra outside
                rw [exfatCollectEntries, if_pos (by omega)] at collectRan
                simp at collectRan
              simp only [DiskM.pure_apply, Option.some.injEq, Prod.mk.injEq] at parsed
              have length := exfatParseFileSet_length parsed.1
              have entries := sameName_entries same (by omega) length
              omega

theorem noteBitmap_clusterBytes (v : Vol) (sec : Buffer) (offInSec : Nat) :
    (noteBitmap v sec offInSec).clusterBytes = v.clusterBytes := by
  rw [noteBitmap]
  split <;> rfl

theorem findSlots_entries {want : List UInt8} {cluster : Nat} {offsets : List Nat}
    {v v' : Vol} {found : Option (Except Int EntryInfo)} {device device' : Device}
    (ran : findSlots v want cluster offsets device = some ((v', found), device')) :
    v'.clusterBytes = v.clusterBytes ∧
      ∀ info, found = some (.ok info) → entriesFor want * 32 ≤ v.clusterBytes := by
  induction offsets generalizing v device with
  | nil =>
      simp only [findSlots, DiskM.pure_apply, Option.some.injEq, Prod.mk.injEq] at ran
      rcases ran with ⟨⟨rfl, rfl⟩, _⟩
      exact ⟨rfl, by simp⟩
  | cons byteOff rest induction =>
      rw [findSlots] at ran
      rcases DiskM.of_bind ran with ⟨read, middle, _, ran⟩
      cases read with
      | none =>
          simp only [DiskM.pure_apply, Option.some.injEq, Prod.mk.injEq] at ran
          rcases ran with ⟨⟨rfl, rfl⟩, _⟩
          exact ⟨rfl, by simp⟩
      | some sec =>
          simp only at ran
          split at ran
          · simp only [DiskM.pure_apply, Option.some.injEq, Prod.mk.injEq] at ran
            rcases ran with ⟨⟨rfl, rfl⟩, _⟩
            exact ⟨rfl, by simp⟩
          · have noted := noteBitmap_clusterBytes v sec (byteOff % v.bytesPerSec)
            rcases DiskM.of_bind ran with ⟨set, later, setRan, ran⟩
            cases set with
            | none =>
                have rest := induction ran
                rw [noted] at rest
                exact rest
            | some set =>
                rcases set with ⟨name, info⟩
                by_cases same : sameName want name = true
                · simp only [same, if_true, DiskM.pure_apply, Option.some.injEq,
                    Prod.mk.injEq] at ran
                  rcases ran with ⟨⟨rfl, rfl⟩, _⟩
                  have entries := exfatSetAt_entries setRan same
                  rw [noted] at entries
                  exact ⟨noted, fun _ _ => entries⟩
                · simp only [same, Bool.false_eq_true, if_false] at ran
                  have rest := induction ran
                  rw [noted] at rest
                  exact rest

/-- A name whose set does not fit into a cluster is never found, whatever the
device holds. -/
theorem exfatFindInDir_entries {want : List UInt8} {fuel cluster : Nat} {v v' : Vol}
    {found : Except Int EntryInfo} {device device' : Device}
    (ran : exfatFindInDir want fuel cluster v device = some ((v', found), device')) :
    v'.clusterBytes = v.clusterBytes ∧
      ∀ info, found = .ok info → entriesFor want * 32 ≤ v.clusterBytes := by
  induction fuel generalizing cluster v device with
  | zero => simp [exfatFindInDir] at ran
  | succ fuel induction =>
      rw [exfatFindInDir] at ran
      split at ran
      · simp only [DiskM.pure_apply, Option.some.injEq, Prod.mk.injEq] at ran
        rcases ran with ⟨⟨rfl, rfl⟩, _⟩
        exact ⟨rfl, by simp⟩
      · rcases DiskM.of_bind ran with ⟨⟨noted, slot⟩, middle, slotsRan, ran⟩
        rcases findSlots_entries slotsRan with ⟨bytes, entries⟩
        cases slot with
        | some result =>
            simp only [DiskM.pure_apply, Option.some.injEq, Prod.mk.injEq] at ran
            rcases ran with ⟨⟨rfl, rfl⟩, _⟩
            exact ⟨bytes, fun info ok => entries info (by rw [ok])⟩
        | none =>
            rcases DiskM.of_bind ran with ⟨next, later, _, ran⟩
            have rest := induction ran
            rw [bytes] at rest
            exact rest

theorem followWalk_entries {fuel dir : Nat} {comps : List (List UInt8)} {v v' : Vol}
    {info : EntryInfo} {device device' : Device}
    (ran : followWalk fuel comps dir v device = some ((v', .ok (some info)), device')) :
    ∀ comp ∈ comps, entriesFor comp * 32 ≤ v.clusterBytes := by
  induction comps generalizing dir v device with
  | nil => simp
  | cons comp rest induction =>
      rw [followWalk] at ran
      rcases DiskM.of_bind ran with ⟨⟨noted, found⟩, middle, findRan, ran⟩
      rcases exfatFindInDir_entries findRan with ⟨bytes, entries⟩
      cases found with
      | error code => simp at ran
      | ok hit =>
          intro other member
          cases List.mem_cons.mp member with
          | inl same =>
              rw [same]
              exact entries hit rfl
          | inr later =>
              have more : rest ≠ [] := List.ne_nil_of_mem later
              simp only [List.isEmpty_iff, more, if_false] at ran
              split at ran
              · rw [← bytes]
                exact induction ran other later
              · simp at ran

/-! ## The functions -/

/-- What was written is read back by the same path. -/
def RoundTrips (v : Vol) (fuel : Nat) (path : CString) (data : List UInt8)
    (sectors : Nat → Buffer) : Prop :=
  ∀ maxBytes, data.length ≤ maxBytes →
    exfatReadWalk fuel maxBytes path.componentsLong v (Device.healthy sectors) =
      some ((v, ⟨0, data.length, data⟩), Device.healthy sectors)

/-- A write of components whose sets fit into a cluster returns. If it succeeds
it is read back exactly when the first missing component found visible room. -/
theorem exfatWriteFile_fitting {v v' : Vol} {sectors : Nat → Buffer} {fuel : Nat}
    {result : Int}
    (loaded : exfatLoadBitmapInfo v fuel (Device.healthy sectors) =
      some ((result, v'), Device.healthy sectors))
    (sound : ExfatSound v' sectors) (enough : v'.exfatClusterCount + 2 < fuel)
    (tidy : ∀ depth owner chain, DirAt v' (exfatView v' sectors) depth owner chain →
      Tidy v' (exfatView v' sectors) chain) (path : CString)
    (fits : ∀ comp ∈ path.componentsLong, entriesFor comp * 32 ≤ v'.clusterBytes)
    {data : List UInt8} (some' : data ≠ [])
    (size : data.length + v'.clusterBytes ≤ 4294967296) :
    ∃ code sectors', exfatWriteFile v fuel path.componentsLong data (Device.healthy sectors) =
        some ((v', code), Device.healthy sectors') ∧
      (code = 0 → (RoundTrips v' fuel path data sectors' ↔
        Roomy v' (exfatView v' sectors) .root path.componentsLong)) := by
  rcases sound with ⟨shape, bitmap, sound⟩
  rcases sound.owned.dirAt_root with ⟨chain, root⟩
  have chars := componentsLong_chars path
  have positive := shape.clusterBytes_pos
  rcases exfatWriteWalk_spec shape enough some' size
    (fun comp member => ⟨(chars comp member).1, (chars comp member).2.1, fits comp member⟩)
    (fun comp member => (chars comp member).2.2) sound root (.of_all tidy _ _) with
    ⟨code, sectors', ran, final, _, outcome⟩
  refine ⟨code, sectors', ?_, fun succeeded => ⟨?_, ?_⟩⟩
  · rw [exfatWriteFile, DiskM.bind_run loaded]
    exact ran
  · intro roundTrips
    by_contra crowded
    have failed := exfatReadWalk_hidden shape enough final ((outcome succeeded).2 crowded)
      data.length
    rw [roundTrips data.length (Nat.le_refl _)] at failed
    simp at failed
  · intro roomy maxBytes room
    exact exfatReadWalk_reads shape enough final ((outcome succeeded).1 roomy) (by omega) room

theorem RoundTrips.fits {v : Vol} {fuel : Nat} {path : CString} {data : List UInt8}
    {sectors : Nat → Buffer} (roundTrips : RoundTrips v fuel path data sectors)
    (some' : data ≠ []) :
    ∀ comp ∈ path.componentsLong, entriesFor comp * 32 ≤ v.clusterBytes := by
  have read := roundTrips data.length (Nat.le_refl _)
  rw [exfatReadWalk] at read
  rcases DiskM.of_bind read with ⟨⟨v', outcome⟩, middle, followed, read⟩
  cases outcome with
  | error code =>
      simp only [DiskM.pure_apply, Option.some.injEq, Prod.mk.injEq, ReadResult.mk.injEq] at read
      exact absurd read.1.2.2.2.symm some'
  | ok found =>
      cases found with
      | none =>
          simp only [DiskM.pure_apply, Option.some.injEq, Prod.mk.injEq, ReadResult.mk.injEq]
            at read
          exact absurd read.1.2.2.2.symm some'
      | some info => exact followWalk_entries followed

theorem Tidy.of_pairwise {v : Vol} {store : ClusterStore} {chain : List Nat}
    (pairs : (chainPlaces v chain).Pairwise fun place other =>
      body v store place.cl place.off = 0x00 → body v store other.cl other.off = 0x00)
    (none : ∀ place ∈ chainPlaces v chain, ¬ IsSet v store place) : Tidy v store chain where
  tail := by
    intro before place after split unused other member
    rw [split] at pairs
    have behind := (List.pairwise_append.mp pairs).2.1
    exact (List.pairwise_cons.mp behind).1 other member unused
  sets := fun place member set => absurd set (none place member)

/-- The directories of the small volume are tidy when its root directory is and
has no sets. -/
theorem exfatVol_tidy {sectors : Nat → Buffer}
    (rootLast : EndOfChain ((exfatView exfatVol sectors).next 4))
    (pairs : (chainPlaces exfatVol [4]).Pairwise fun place other =>
      body exfatVol (exfatView exfatVol sectors) place.cl place.off = 0x00 →
        body exfatVol (exfatView exfatVol sectors) other.cl other.off = 0x00)
    (none : ∀ place ∈ chainPlaces exfatVol [4],
      ¬ IsSet exfatVol (exfatView exfatVol sectors) place)
    (depth : Nat) (owner : ExfatOwner) (chain : List Nat)
    (dir : DirAt exfatVol (exfatView exfatVol sectors) depth owner chain) :
    Tidy exfatVol (exfatView exfatVol sectors) chain := by
  have root := exfatVol_root_holds rootLast
  rcases dir.live.of_no_sets (by decide) root none with rfl | rfl
  · rw [dir.holds.unique root]
    exact .of_pairwise pairs none
  · exact absurd dir.isDir (by simp [ExfatOwner.IsDir])

theorem exfatImage_tidy (depth : Nat) (owner : ExfatOwner) (chain : List Nat)
    (dir : DirAt exfatVol (exfatView exfatVol (exfatImage 6)) depth owner chain) :
    Tidy exfatVol (exfatView exfatVol (exfatImage 6)) chain :=
  exfatVol_tidy (by decide) (by decide) (by decide) depth owner chain dir

/-- A root directory with one unused slot at the end of its only cluster and
deleted entries in front of it. -/
def crowdedImage : Nat → Buffer := fun lba =>
  if lba = 4 then fun index =>
    if index % 32 = 0 ∧ 0 < index ∧ index < 480 then 0x05 else exfatImage 6 4 index
  else exfatImage 6 lba

end ParanOS
