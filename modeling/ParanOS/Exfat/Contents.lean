import ParanOS.Exfat.RawEntries
import ParanOS.Exfat.RoundTrip
import ParanOS.Fat.Contents

/-! # What a new directory leaves of an exFAT volume

A new entry set goes into slots that count as free, or into a further cluster. Where no set in
use has a free slot among its own, the other sets stay as they are, and so does what a path leads
to.
-/

namespace ParanOS

open Foundation
open ExfatOwner (LiveAt)

section

variable {v : Vol} (shape : ExfatGeometry v)
include shape

/-! ## The other sets of a directory -/

omit shape in
/-- A set behind slots that are written over is read as before. -/
theorem setAt_behind {store store' : ClusterStore} {place : Place}
    (same : ∀ index, place.off ≤ index →
      body v store' place.cl index = body v store place.cl index) :
    setAt v store' place = setAt v store place := by
  have windows : ∀ count, window (body v store' place.cl) place.off count =
      window (body v store place.cl) place.off count := by
    intro count
    rw [window, window]
    congr 1
    funext index
    exact same _ (by omega)
  simp only [setAt]
  rw [same place.off (by omega), same (place.off + 1) (by omega), windows]

/-- A slot lies beside some slots of a cluster, or is one of them. -/
theorem beside_or_within {chain : List Nat} (cl j total : Nat) {place : Place}
    (inside : place ∈ chainPlaces v chain) :
    (place.cl = cl → place.off + 32 ≤ 32 * j ∨ 32 * j + total * 32 ≤ place.off) ∨
      ∃ i < total, place = ⟨cl, 32 * j + i * 32⟩ := by
  rcases (mem_chainPlaces shape).mp inside with ⟨_, ⟨slot, aligned⟩, _⟩
  by_cases within : place.cl = cl ∧ j ≤ slot ∧ slot < j + total
  · rcases within with ⟨here, lower, upper⟩
    refine .inr ⟨slot - j, by omega, ?_⟩
    cases place
    simp only [Place.mk.injEq] at here aligned ⊢
    exact ⟨here, by omega⟩
  · refine .inl fun here => ?_
    have outside : ¬ (j ≤ slot ∧ slot < j + total) := fun both => within ⟨here, both⟩
    omega

/-- The slots of a cluster come in the order of their numbers. -/
theorem slot_before {chain : List Nat} (distinct : chain.Nodup) {before after : List Place}
    {place : Place} (split : chainPlaces v chain = before ++ place :: after) {j : Nat}
    (lower : 32 * j < place.off) : ⟨place.cl, 32 * j⟩ ∈ before := by
  have nodup := @chainPlaces_nodup v chain distinct
  rcases place_position shape (show place ∈ chainPlaces v chain by simp [split]) with
    ⟨earlier, later, slot, chainSplit, number, below⟩
  rcases chainPlaces_at shape earlier place.cl later below with ⟨rest, whole, _⟩
  rw [← number, ← chainSplit] at whole
  rw [split] at nodup whole
  rw [split_unique nodup whole]
  apply List.mem_append_right
  rw [mem_leadingPlaces]
  have offset := congrArg Place.off number
  dsimp only at offset
  exact ⟨j, by omega, rfl⟩

omit shape in
/-- Names that are equal up to ASCII case are looked up alike. -/
theorem lookup_sameName {store : ClusterStore} {want name : List UInt8}
    (nulFree : ∀ char ∈ name, char ≠ 0) (same : sameName want name = true)
    (places : List Place) : lookup v store name places = lookup v store want places := by
  have whole : name.takeWhile (· ≠ 0) = name := by
    rw [List.takeWhile_eq_self_iff]
    intro char member
    simpa using nulFree char member
  have upper := of_decide_eq_true same
  rw [whole] at upper
  have alike : sameName name = sameName want := by
    funext other
    rw [sameName, sameName, upper]
  have verdicts : verdict v store name = verdict v store want := by
    funext place
    rw [verdict, verdict, alike]
  rw [lookup, lookup, verdicts]

/-- A new set in a cluster of a directory, where there is room for it. -/
structure NewSet (v : Vol) (store store' : ClusterStore) (chain : List Nat) (cl j : Nat)
    (name : List UInt8) (first size : Nat) (isDir : Bool) : Prop where
  member : cl ∈ chain
  nonempty : name ≠ []
  short : name.length ≤ 255
  small : first < 4294967296
  room : Room v store cl (entriesFor name) j
  patched : Patched v store store' cl (32 * j) (entriesFor name * 32)
    (builtSet name first size isDir)

namespace NewSet

variable {store store' : ClusterStore} {chain : List Nat} {cl j first size : Nat}
  {name : List UInt8} {isDir : Bool} (new : NewSet v store store' chain cl j name first size isDir)
include new

omit shape in
/-- The slot that the new set begins in was free. -/
theorem free : body v store cl (32 * j) = 0x00 ∨ body v store cl (32 * j) = 0xFF := by
  have bounds := entriesFor_bounds new.nonempty new.short
  cases new.room.usable with
  | inl unused => exact .inl unused
  | inr run => exact run 0 (by omega)

omit shape in
theorem written {index : Nat} (below : index < entriesFor name * 32) :
    body v store' cl (32 * j + index) = builtSet name first size isDir index := by
  rw [new.patched.patch, Buffer.copy_inside (by omega) (by omega), Nat.add_sub_cancel_left]

theorem setAt_new : setAt v store' ⟨cl, 32 * j⟩ =
    some (name, ⟨first, size % 18446744073709551616, isDir, 0, 0⟩) := by
  have slots := shape.slots_eq
  have fits := new.room.fits
  exact setAt_patched new.nonempty new.short new.small (by omega) new.patched

/-- A set beside the new one is read as before. -/
theorem setAt_beside (own : OwnSlots v store chain) {place : Place}
    (inside : place ∈ chainPlaces v chain)
    (beside : place.cl = cl → place.off + 32 ≤ 32 * j ∨
      32 * j + entriesFor name * 32 ≤ place.off) :
    setAt v store' place = setAt v store place := by
  have bounds := entriesFor_bounds new.nonempty new.short
  by_cases here : place.cl = cl
  · cases beside here with
    | inl ahead =>
        apply setAt_before new.patched.patch (by omega) (builtSet_type _ _ _ _) here ahead
        intro set
        have span := own.span shape inside (Nat.dvd_mul_right 32 j) (by omega)
          (here ▸ new.free.imp_right .inl) set
        rw [here] at span
        exact span
    | inr behind =>
        apply setAt_behind
        intro index later
        rw [here, new.patched.patch, Buffer.copy_outside (by omega)]
  · rw [setAt, setAt, body_congr (new.patched.others place.cl here)]

omit shape in
/-- No set begins in the later slots of the new one. -/
theorem setAt_within {i : Nat} (behind : 0 < i) (below : i < entriesFor name) :
    setAt v store' ⟨cl, 32 * j + i * 32⟩ = none := by
  have type := @builtSet_later name first size i isDir behind below
  rw [← new.written (show i * 32 < entriesFor name * 32 by omega)] at type
  simp only [setAt]
  rw [if_pos]
  intro file
  rw [file] at type
  exact type (by decide)

/-- The sets still have their slots for themselves. -/
theorem own (before : OwnSlots v store chain) : OwnSlots v store' chain := by
  have bounds := entriesFor_bounds new.nonempty new.short
  intro place inside set i positive few
  rcases beside_or_within shape cl j (entriesFor name) inside with beside | ⟨index, below, rfl⟩
  · have same := new.setAt_beside shape before inside beside
    have set' : IsSet v store place := by
      rw [IsSet, ← same]
      exact set
    by_cases here : place.cl = cl
    · have kept : ∀ index, index < 32 * j ∨ 32 * j + entriesFor name * 32 ≤ index →
          body v store' place.cl index = body v store place.cl index := by
        intro index apart
        rw [here, new.patched.patch, Buffer.copy_outside (by omega)]
      cases beside here with
      | inl ahead =>
          have span := before.span shape inside (Nat.dvd_mul_right 32 j) (by omega)
            (here ▸ new.free.imp_right .inl) set'
          rw [kept (place.off + 1) (by omega)] at few
          rw [kept (place.off + i * 32) (by omega)]
          exact before place inside set' i positive few
      | inr behind =>
          rw [kept (place.off + 1) (by omega)] at few
          rw [kept (place.off + i * 32) (by omega)]
          exact before place inside set' i positive few
    · rw [body_congr (new.patched.others place.cl here)] at few ⊢
      exact before place inside set' i positive few
  · cases index with
    | zero =>
        rw [Nat.zero_mul, Nat.add_zero] at few ⊢
        have count : (body v store' cl (32 * j + 1)).toNat = entriesFor name - 1 := by
          rw [new.written (by omega), builtSet_count _ _ _ _ new.short]
        rw [count] at few
        have taken := @builtSet_taken name first size i isDir (by omega)
        have later := @builtSet_later name first size i isDir (by omega) (by omega)
        rw [new.written (by omega)]
        refine ⟨taken.1, taken.2, fun file => later ?_⟩
        rw [file]
        decide
    | succ index =>
        rw [IsSet, new.setAt_within (Nat.succ_pos index) below] at set
        exact absurd set (by simp)

/-- What a lookup comes to before any unused slot it takes as before. -/
theorem seen (before : OwnSlots v store chain) (distinct : chain.Nodup) {want : List UInt8}
    (different : sameName want name = false) {front back : List Place} {place : Place}
    (split : chainPlaces v chain = front ++ place :: back)
    (used : ∀ other ∈ front, ¬ Unused v store other) (here : ¬ Unused v store place) :
    verdict v store' want place = verdict v store want place := by
  have bounds := entriesFor_bounds new.nonempty new.short
  have inside : place ∈ chainPlaces v chain := by simp [split]
  rcases beside_or_within shape cl j (entriesFor name) inside with
    beside | ⟨i, below, rfl⟩
  · have same := new.setAt_beside shape before inside beside
    have type : body v store' place.cl place.off = body v store place.cl place.off := by
      by_cases near : place.cl = cl
      · rw [near, new.patched.patch, Buffer.copy_outside]
        have apart := beside near
        omega
      · rw [body_congr (new.patched.others place.cl near)]
    rw [verdict, verdict, type, same]
  · -- the slot was deleted, so there was no set in it
    have deleted : body v store cl (32 * j + i * 32) = 0xFF := by
      cases new.room.usable with
      | inl unused =>
          cases i with
          | zero =>
              rw [Nat.zero_mul, Nat.add_zero] at here
              exact absurd unused here
          | succ i =>
              have first := slot_before shape distinct split (j := j) (by simp only; omega)
              exact absurd unused (used _ first)
      | inr run =>
          have free := run i below
          rw [Reusable, slotType, show 32 * (j + i) = 32 * j + i * 32 by omega] at free
          exact free.resolve_left here
    have nothing : verdict v store want ⟨cl, 32 * j + i * 32⟩ = none := by
      simp only [verdict, setAt, deleted]
      rfl
    have taken := @builtSet_taken name first size i isDir below
    rw [← new.written (show i * 32 < entriesFor name * 32 by omega)] at taken
    rw [nothing, verdict, if_neg taken.1]
    cases i with
    | zero =>
        rw [Nat.zero_mul, Nat.add_zero, new.setAt_new shape]
        simp [different]
    | succ i => rw [new.setAt_within (Nat.succ_pos i) below]

/-- Every other name that was found is found as before. -/
theorem finds (before : OwnSlots v store chain) (distinct : chain.Nodup)
    (nulFree : ∀ char ∈ name, char ≠ 0) {code : Int}
    (missing : lookup v store name (chainPlaces v chain) = .error code) {want : List UInt8}
    {info : EntryInfo} (found : lookup v store want (chainPlaces v chain) = .ok info) :
    lookup v store' want (chainPlaces v chain) = .ok info := by
  have different : sameName want name = false := by
    by_contra same
    rw [lookup_sameName nulFree (by simpa using same), found] at missing
    simp at missing
  rcases lookup_ok found with ⟨front, place, back, split, passed, here⟩
  have used : ∀ other, verdict v store want other ≠ some (.error (-2)) →
      ¬ Unused v store other := by
    intro other more unused
    have zero : body v store other.cl other.off = 0x00 := unused
    apply more
    rw [verdict, if_pos zero]
  have usedFront : ∀ other ∈ front, ¬ Unused v store other := by
    intro other member
    apply used
    rw [passed other member]
    simp
  rw [split]
  apply lookup_of_passed
  · intro other member
    rcases List.append_of_mem member with ⟨earlier, later, frontSplit⟩
    rw [frontSplit, List.append_assoc, List.cons_append] at split
    rw [new.seen shape before distinct different split, passed other member]
    · intro one inEarlier
      exact usedFront one (by simp [frontSplit, inEarlier])
    · exact usedFront other member
  · rw [new.seen shape before distinct different split usedFront, here]
    apply used
    rw [here]
    simp

end NewSet

/-! ## Directories and files that stay -/

theorem OwnSlots.congr {store store' : ClusterStore} {chain : List Nat}
    (own : OwnSlots v store chain) (same : ∀ cl ∈ chain, store'.sector cl = store.sector cl) :
    OwnSlots v store' chain := by
  intro place inside set i positive few
  have bodies := body_congr (v := v) (same place.cl ((mem_chainPlaces shape).mp inside).1)
  have sets := (@IsSet.congr v store store' place bodies).1
  rw [bodies] at few ⊢
  exact own place inside (sets.mp set) i positive few

/-- A directory has perhaps more clusters than before, and all names that it had. -/
def DirSpared (v : Vol) (store store' : ClusterStore) (start : Nat) (chain : List Nat) : Prop :=
  ∃ more, Chain (v.exfatClusterCount + 2) store' start (chain ++ more) ∧
    OwnSlots v store' (chain ++ more) ∧
    ∀ want info, lookup v store want (chainPlaces v chain) = .ok info →
      lookup v store' want (chainPlaces v (chain ++ more)) = .ok info

/-- Directories whose sets have their slots for themselves are spared, and files stay as they
were. -/
structure Spares (v : Vol) (store store' : ClusterStore) : Prop where
  dirs : ∀ depth owner chain, DirAt v store depth owner chain → OwnSlots v store chain →
    DirSpared v store store' (owner.start v store) chain
  files : ∀ place members, ExfatOwner.Live v store (.entry place) →
    setIsDir v store place = false → ExfatOwner.Holds v store (.entry place) members →
    ∀ cl ∈ members, store'.next cl = store.next cl ∧ store'.sector cl = store.sector cl

section

variable {store store' : ClusterStore} {start : Nat} {chain : List Nat}

/-- No link and no byte has changed. -/
theorem DirSpared.of_same (holds : Chain (v.exfatClusterCount + 2) store start chain)
    (own : OwnSlots v store chain)
    (same : ∀ cl ∈ chain, store'.next cl = store.next cl ∧ store'.sector cl = store.sector cl) :
    DirSpared v store store' start chain := by
  refine ⟨[], ?_, ?_, ?_⟩
  · rw [List.append_nil]
    exact holds.congr fun cl member => (same cl member).1
  · rw [List.append_nil]
    exact own.congr shape fun cl member => (same cl member).2
  · intro want info found
    rw [List.append_nil, lookup_congr shape want fun cl member => (same cl member).2]
    exact found

/-- A cluster of zeros has been put behind the directory. -/
theorem DirSpared.of_further {target : Nat} (own : OwnSlots v store chain)
    (holds : Chain (v.exfatClusterCount + 2) store' start (chain ++ [target]))
    (same : ∀ cl ∈ chain, store'.sector cl = store.sector cl)
    (blank : ∀ off < v.clusterBytes, body v store' target off = 0x00) :
    DirSpared v store store' start chain := by
  refine ⟨[target], holds, ?_, ?_⟩
  · intro place inside set
    rw [chainPlaces_append] at inside
    cases List.mem_append.mp inside with
    | inl old => exact own.congr shape same place old set
    | inr new =>
        have range := (mem_chainPlaces shape).mp new
        have file := (isSet_iff.mp set).1
        rw [List.mem_singleton.mp range.1, blank place.off range.2.2] at file
        exact absurd file (by decide)
  · intro want info found
    rw [← lookup_congr shape want same] at found
    rcases lookup_ok found with ⟨front, place, back, split, passed, here⟩
    rw [chainPlaces_append, split, List.append_assoc, List.cons_append]
    exact lookup_of_passed passed here

end

section

variable {store store' : ClusterStore} {bitmap chain : List Nat} {start : Nat}
  (chained : Chained v store bitmap)
include chained

/-- Nothing in use has changed but the bitmap. -/
theorem Chained.spares (kept : InUseKept bitmap store store') : Spares v store store' where
  dirs := by
    intro depth owner members dir own
    apply DirSpared.of_same shape dir.holds own
    intro cl member
    have used := chain_next_ne_zero dir.holds member
    exact ⟨kept.next cl ⟨(dir.data cl member).1, used⟩,
      kept.sector cl ⟨used, chained.dir_outside shape dir member⟩⟩
  files := by
    intro place members live file holds cl member
    have used := chain_next_ne_zero holds member
    exact ⟨kept.next cl ⟨(holds.inside member).1, used⟩,
      kept.sector cl ⟨used, chained.outside shape live (by simp) holds member⟩⟩

variable (standing : Standing v store start chain)
include standing

omit shape in
/-- A directory in use is the one that a walk has come to, or has none of its clusters. -/
theorem Standing.dir_apart {depth : Nat} {owner : ExfatOwner} {members : List Nat}
    (dir : DirAt v store depth owner members) :
    owner.start v store = start ∧ members = chain ∨ ∀ cl ∈ members, cl ∉ chain := by
  cases standing with
  | @listed depth' owner' here same =>
      by_cases equal : owner = owner'
      · subst equal
        exact .inl ⟨same, dir.chain_eq here⟩
      · refine .inr fun cl member inChain => equal ?_
        exact chained.owned.owner_eq ⟨_, dir.live⟩ ⟨_, here.live⟩ dir.holds here.holds member
          inChain
  | unlisted _ _ vacant _ =>
      exact .inr fun cl member inChain => vacant cl inChain owner members ⟨_, dir.live⟩ dir.holds
        member

omit shape in
/-- Files have none of its clusters. -/
theorem Standing.file_apart {place : Place} {members : List Nat}
    (live : ExfatOwner.Live v store (.entry place)) (file : setIsDir v store place = false)
    (holds : ExfatOwner.Holds v store (.entry place) members) : ∀ cl ∈ members, cl ∉ chain := by
  intro cl member inChain
  cases standing with
  | listed here _ =>
      have equal := chained.owned.owner_eq ⟨_, here.live⟩ live here.holds holds inChain member
      have isDir := here.isDir
      rw [equal, ExfatOwner.IsDir, file] at isDir
      exact Bool.false_ne_true isDir
  | unlisted _ _ vacant _ => exact vacant cl inChain _ members live holds member

/-- The directory has been extended by a cluster of zeros. -/
theorem Standing.extended_spares {target : Nat}
    (fresh : Fresh (v.exfatClusterCount + 2) store target)
    (links : ∀ cl, cl ≠ chain.getLastD 0 → cl ≠ target → store'.next cl = store.next cl)
    (linked : store'.next (chain.getLastD 0) = target) (ends : store'.next target = eocMark)
    (sectors : ∀ cl, cl ∉ bitmap → cl ≠ target → store'.sector cl = store.sector cl)
    (blank : ∀ off < v.clusterBytes, body v store' target off = 0x00) :
    Spares v store store' := by
  have last := @Holds.last_mem _ _ _ _ _ _ _ 0 standing.holds standing.occupied
  have different : ∀ cl, store.next cl ≠ 0 → cl ≠ target := fun cl used equal =>
    used (equal ▸ fresh.free)
  constructor
  · intro depth owner members dir own
    have bytes : ∀ cl ∈ members, store'.sector cl = store.sector cl := fun cl member =>
      sectors cl (chained.dir_outside shape dir member)
        (different cl (chain_next_ne_zero dir.holds member))
    cases standing.dir_apart chained dir with
    | inl here =>
        rcases here with ⟨_, rfl⟩
        apply DirSpared.of_further shape own _ bytes blank
        exact dir.holds.extend dir.occupied links linked fresh.running
          (ends ▸ endOfChain_eocMark) fresh.data fun member =>
            different target (chain_next_ne_zero dir.holds member) rfl
    | inr apart =>
        apply DirSpared.of_same shape dir.holds own
        intro cl member
        refine ⟨links cl ?_ (different cl (chain_next_ne_zero dir.holds member)), bytes cl member⟩
        exact fun equal => apart cl member (equal ▸ last)
  · intro place members live file holds cl member
    have apart := standing.file_apart chained live file holds cl member
    have used := different cl (chain_next_ne_zero holds member)
    exact ⟨links cl (fun equal => apart (equal ▸ last)) used,
      sectors cl (chained.outside shape live (by simp) holds member) used⟩

/-- A set has been written for a name that was missing. -/
theorem Standing.entered_spares {cl j first size : Nat} {name : List UInt8} {isDir : Bool}
    (new : NewSet v store store' chain cl j name first size isDir)
    (nulFree : ∀ char ∈ name, char ≠ 0) {code : Int}
    (missing : lookup v store name (chainPlaces v chain) = .error code) :
    Spares v store store' := by
  constructor
  · intro depth owner members dir own
    cases standing.dir_apart chained dir with
    | inl here =>
        rcases here with ⟨_, rfl⟩
        refine ⟨[], ?_, ?_, ?_⟩
        · rw [List.append_nil]
          exact dir.holds.congr fun cl _ => by rw [new.patched.links]
        · rw [List.append_nil]
          exact new.own shape own
        · intro want info found
          rw [List.append_nil]
          exact new.finds shape own dir.linked.nodup nulFree missing found
    | inr apart =>
        apply DirSpared.of_same shape dir.holds own
        intro other member
        refine ⟨by rw [new.patched.links], new.patched.others other fun equal => ?_⟩
        exact apart other member (equal ▸ new.member)
  · intro place members live file holds other member
    refine ⟨by rw [new.patched.links], new.patched.others other fun equal => ?_⟩
    exact standing.file_apart chained live file holds other member (equal ▸ new.member)

end

/-! ## Where a path leads -/

/-- The path leads to an entry, through directories whose sets have their slots for themselves. -/
inductive Leads (v : Vol) (store : ClusterStore) :
    ExfatOwner → List (List UInt8) → EntryInfo → Prop
  | last {depth owner chain comp info} : DirAt v store depth owner chain → OwnSlots v store chain →
      lookup v store comp (chainPlaces v chain) = .ok info → Leads v store owner [comp] info
  | deeper {depth owner chain comp next rest inner info} : DirAt v store depth owner chain →
      OwnSlots v store chain → lookup v store comp (chainPlaces v chain) = .ok inner →
      inner.isDir = true → Leads v store inner.owner (next :: rest) info →
      Leads v store owner (comp :: next :: rest) info

/-- Every path still leads to what it led to, and files have their content. -/
def KeepsFiles (v : Vol) (store store' : ClusterStore) : Prop :=
  ∀ comps info, Leads v store .root comps info → Leads v store' .root comps info ∧
    (info.isDir = false → ∀ members, Chain (v.exfatClusterCount + 2) store info.cluster members →
      Chain (v.exfatClusterCount + 2) store' info.cluster members ∧
        ∀ cl ∈ members, store'.sector cl = store.sector cl)

omit shape in
theorem KeepsFiles.refl (store : ClusterStore) : KeepsFiles v store store :=
  fun _ _ leads => ⟨leads, fun _ _ holds => ⟨holds, fun _ _ => rfl⟩⟩

omit shape in
theorem KeepsFiles.trans {store middle store' : ClusterStore} (first : KeepsFiles v store middle)
    (second : KeepsFiles v middle store') : KeepsFiles v store store' := by
  intro comps info leads
  rcases first comps info leads with ⟨between, file⟩
  rcases second comps info between with ⟨after, file'⟩
  refine ⟨after, fun isFile members holds => ?_⟩
  rcases file isFile members holds with ⟨holds', same⟩
  rcases file' isFile members holds' with ⟨holds'', same'⟩
  exact ⟨holds'', fun cl member => (same' cl member).trans (same cl member)⟩

omit shape in
theorem Hit.owner_eq {store : ClusterStore} {want : List UInt8} {chain : List Nat} {place : Place}
    {info : EntryInfo} (hit : Hit v store want chain place info) : info.owner = .entry place := by
  rw [EntryInfo.owner, hit.atPlace.1, hit.atPlace.2]

omit shape in
theorem Hit.start {store : ClusterStore} {want : List UInt8} {chain : List Nat} {place : Place}
    {info : EntryInfo} (hit : Hit v store want chain place info) :
    info.owner.start v store = info.cluster := by
  rw [hit.owner_eq, ExfatOwner.start, hit.cluster]

section

variable {store store' : ClusterStore} {owner : ExfatOwner} {comps : List (List UInt8)}
  {info : EntryInfo} (leads : Leads v store owner comps info)
include leads

omit shape in
/-- The path still leads there when directories have been spared. -/
theorem Leads.spared (spares : Spares v store store') (owned : ExfatOwned v store')
    {depth' : Nat} {chain' : List Nat} (dir' : DirAt v store' depth' owner chain')
    (start : owner.start v store' = owner.start v store) : Leads v store' owner comps info := by
  induction leads generalizing depth' chain' with
  | last dir own found =>
      rcases spares.dirs _ _ _ dir own with ⟨more, holds, own', finds⟩
      have same := dir'.holds.unique (start ▸ holds)
      subst same
      exact .last dir' own' (finds _ _ found)
  | deeper dir own found isDir _ induction =>
      rcases spares.dirs _ _ _ dir own with ⟨more, holds, own', finds⟩
      have same := dir'.holds.unique (start ▸ holds)
      subst same
      have found' := finds _ _ found
      rcases lookup_hit found with ⟨place, hit⟩
      rcases lookup_hit found' with ⟨place', hit'⟩
      rcases hit'.dirAt owned dir' isDir with ⟨members, child⟩
      rw [← hit'.owner_eq] at child
      exact .deeper dir' own' found' isDir (induction child (hit'.start.trans hit.start.symm))

omit shape in
/-- The entry is one in use. -/
theorem Leads.live : ∃ place, ExfatOwner.Live v store (.entry place) ∧
    setIsDir v store place = info.isDir ∧ setStart v store place = info.cluster := by
  induction leads with
  | last dir own found =>
      rcases lookup_hit found with ⟨place, hit⟩
      exact ⟨place, ⟨_, .entry dir.live dir.isDir dir.linked hit.inside hit.set⟩, hit.isDir.symm,
        hit.cluster.symm⟩
  | deeper _ _ _ _ _ induction => exact induction

end

omit shape in
theorem Spares.keepsFiles {store store' : ClusterStore} (spares : Spares v store store')
    (owned' : ExfatOwned v store') : KeepsFiles v store store' := by
  intro comps info leads
  rcases owned'.dirAt_root with ⟨chain', root⟩
  refine ⟨leads.spared spares owned' root rfl, fun isFile members holds => ?_⟩
  rcases leads.live with ⟨place, live, isDir, start⟩
  rw [← start] at holds ⊢
  have same := spares.files place members live (isDir.trans isFile) holds
  exact ⟨holds.congr fun cl member => (same cl member).1, fun cl member => (same cl member).2⟩

/-! ## Creating directories -/

/-- A name is not found in a further cluster of zeros either. -/
theorem lookup_further {store : ClusterStore} {want : List UInt8} {chain : List Nat} {target : Nat}
    {code : Int} (missing : lookup v store want (chainPlaces v chain) = .error code)
    (blank : ∀ off < v.clusterBytes, body v store target off = 0x00) :
    ∃ code', lookup v store want (chainPlaces v (chain ++ [target])) = .error code' := by
  have behind : Blank v store [target] := by
    intro cl member
    rw [List.mem_singleton.mp member]
    exact blank
  rcases lookup_blank shape want behind with ⟨code', nothing⟩
  rw [lookup, chainPlaces_append, List.findSome?_append]
  rw [lookup] at missing nothing
  cases here : (chainPlaces v chain).findSome? (verdict v store want) with
  | none => exact ⟨code', nothing⟩
  | some result =>
      rw [here] at missing
      exact ⟨code, missing⟩

section

variable {sectors : Nat → Buffer} {bitmap chain : List Nat} {fuel start : Nat}
  {name : List UInt8} (chained : Chained v (exfatView v sectors) bitmap)
  (standing : Standing v (exfatView v sectors) start chain) {code : Int}
  (missing : lookup v (exfatView v sectors) name (chainPlaces v chain) = .error code)
  (nonempty : name ≠ []) (short : name.length ≤ 255)
include chained standing missing nonempty short

/-- A set written where there is room for it. -/
theorem Standing.write_spares (nulFree : ∀ char ∈ name, char ≠ 0) {cl j first : Nat}
    (member : cl ∈ chain) (room : Room v (exfatView v sectors) cl (entriesFor name) j)
    (small : first < 4294967296) (size : Nat) (isDir : Bool) :
    ∃ sectors', exfatWriteEntrySet v cl (32 * j) (exfatBuildEntrySet name first size isDir)
        (entriesFor name) (Device.healthy sectors) = some (0, Device.healthy sectors') ∧
      Spares v (exfatView v sectors) (exfatView v sectors') := by
  have bounds := entriesFor_le short
  have slots := shape.slots_eq
  have inside := room.fits
  rcases exfatWriteEntrySet_healthy shape sectors (exfatBuildEntrySet name first size isDir)
    (standing.holds.inside member) (Nat.dvd_mul_right 32 j) (show entriesFor name ≤ 40 by omega)
    (by omega) with ⟨sectors', wrote, patched, _⟩
  exact ⟨sectors', wrote, standing.entered_spares shape chained
    ⟨member, nonempty, short, small, room, patched⟩ nulFree missing⟩

/-- The search for room, which may extend the directory. -/
theorem Standing.findRoom_spares (enough : v.exfatClusterCount + 2 < fuel)
    (fits : entriesFor name ≤ v.slots) :
    ∃ place found, exfatFindFreeSet v fuel start (entriesFor name) (Device.healthy sectors) =
        some (place, Device.healthy found) ∧
      KeepsFiles v (exfatView v sectors) (exfatView v found) ∧
      ∀ cl off, place = some (cl, off) → ∃ chain' j code', off = 32 * j ∧
        Chained v (exfatView v found) bitmap ∧ Standing v (exfatView v found) start chain' ∧
        lookup v (exfatView v found) name (chainPlaces v chain') = .error code' ∧ cl ∈ chain' ∧
        Room v (exfatView v found) cl (entriesFor name) j := by
  have bounds := entriesFor_bounds nonempty short
  have holds := standing.holds
  have occupied := standing.occupied
  have linked := holds.linked occupied
  have length := length_le_of_nodup_of_lt linked.nodup fun cl member => (holds.inside member).2
  have last := @Holds.last_mem _ _ _ _ _ _ _ start holds occupied
  rcases freeClusters_healthy shape start (show 0 < entriesFor name by omega) linked
    (fun cl member => holds.inside member) (show chain.length < fuel by omega) with
    ⟨result, searched, search, _⟩
  cases search with
  | @room before cl after j split earlier place =>
      refine ⟨some (cl, 32 * j), sectors, ?_, .refl _, ?_⟩
      · rw [exfatFindFreeSet, DiskM.bind_run searched]
        rfl
      · intro cl' off equal
        cases equal
        exact ⟨chain, j, code, rfl, chained, standing, missing, by simp [split], place.room⟩
  | full noRoom =>
      rcases (extendDirectory_runs shape (.inr chained.bitmap) (holds.inside last)
        (holds.not_stop last)).healthy with ⟨place, found, extended, outcome⟩
      have ran : exfatFindFreeSet v fuel start (entriesFor name) (Device.healthy sectors) =
          some (place, Device.healthy found) := by
        rw [exfatFindFreeSet, DiskM.bind_run searched]
        exact extended
      rcases outcome with ⟨rfl, rfl, _⟩ | ⟨target, later, rfl, list, stays, _, attached⟩
      · exact ⟨none, found, ran, .refl _, fun cl off equal => by cases equal⟩
      have attached := attached.resolve_left Bool.false_ne_true
      have fresh := fresh_of_free shape (show target ∈ freeList v (exfatView v sectors) by
        rw [list]
        simp)
      have different : ∀ cl ∈ chain, cl ≠ target := fun cl member equal =>
        chain_next_ne_zero holds member (equal ▸ fresh.free)
      have same : chain.getLastD start = chain.getLastD 0 := by
        cases chain with
        | nil => cases holds.start_mem occupied
        | cons head rest => rw [List.getLastD_cons, List.getLastD_cons]
      rw [same] at stays attached last
      have links : ∀ cl, cl ≠ chain.getLastD 0 → cl ≠ target →
          (exfatView v found).next cl = (exfatView v sectors).next cl :=
        fun cl notLast notTarget => stays.next cl ⟨notTarget, notLast⟩
      have bytes : ∀ cl, cl ∉ bitmap → cl ≠ target →
          (exfatView v found).sector cl = (exfatView v sectors).sector cl :=
        fun cl notBitmap notTarget => stays.sector cl ⟨notBitmap, notTarget⟩
      have linkedLast := attached.linked (different _ last)
      -- no clusters are waiting for a set
      have nobody : Provided v bitmap (exfatView v sectors) start chain false 0 [] :=
        ⟨chained, standing, .empty rfl, by simp, by simp, by simp⟩
      have provided := nobody.extended shape fresh links linkedLast attached.ends bytes
        attached.blank
      have spares := standing.extended_spares shape chained fresh links linkedLast attached.ends
        bytes attached.blank
      have still : lookup v (exfatView v found) name (chainPlaces v chain) = .error code := by
        rw [lookup_congr shape name fun cl member => bytes cl
          (standing.outside shape chained member) (different cl member)]
        exact missing
      rcases lookup_further shape still attached.blank with ⟨code', missing'⟩
      refine ⟨some (target, 0), found, ran, spares.keepsFiles provided.chained.owned, ?_⟩
      intro cl off equal
      cases equal
      exact ⟨chain ++ [target], 0, code', rfl, provided.chained, provided.standing, missing',
        by simp, by omega, .inl (attached.blank 0 shape.clusterBytes_pos)⟩

/-- A directory is created under a name that was missing. -/
theorem exfatCreateEntry_keeps (enough : v.exfatClusterCount + 2 < fuel)
    (sector : 512 ≤ v.bytesPerSec) (nulFree : ∀ char ∈ name, char ≠ 0)
    (fits : entriesFor name ≤ v.slots) :
    ∃ status result sectors', exfatCreateEntry v fuel start name true []
        (Device.healthy sectors) = some ((status, result), Device.healthy sectors') ∧
      Chained v (exfatView v sectors') bitmap ∧
      KeepsFiles v (exfatView v sectors) (exfatView v sectors') ∧
      (status = 0 → ∃ members, Standing v (exfatView v sectors') result members) := by
  rcases exfatCreateEntry_chained shape enough sector chained standing nonempty short
    (fun _ => rfl) with ⟨status, result, sectors', created, _, final, newDir⟩
  refine ⟨status, result, sectors', created, final, ?_, newDir rfl⟩
  have ended : ∀ {result' sectors''}, exfatCreateEntry v fuel start name true []
      (Device.healthy sectors) = some (result', Device.healthy sectors'') →
        sectors'' = sectors' := by
    intro result' sectors'' ran
    rw [created, Option.some.injEq, Prod.mk.injEq] at ran
    exact (congrArg Device.sectors ran.2).symm
  rcases (allocContent_runs shape (.inr chained.bitmap) enough true []).healthy with
    ⟨content, middle, allocated, kept, _, outcome⟩
  have chained' := (chained.idle_kept shape kept).chained shape chained
  have standing' := standing.kept shape chained kept
  have keeps := (chained.spares shape kept).keepsFiles chained'.owned
  have missing' : lookup v (exfatView v middle) name (chainPlaces v chain) = .error code := by
    rw [lookup_congr shape name fun cl member => kept.sector cl
      ⟨chain_next_ne_zero standing.holds member, standing.outside shape chained member⟩]
    exact missing
  rcases outcome with ⟨rfl, _⟩ | ⟨⟨first, members, rfl, readied, _⟩, _⟩
  · rw [← ended (createEntry_refused allocated)]
    exact keeps
  rcases standing'.findRoom_spares shape chained' missing' nonempty short enough fits with
    ⟨place, found, searched, keepsFound, located⟩
  cases place with
  | none =>
      rw [← ended (exfatCreateEntry_full allocated searched)]
      exact keeps.trans keepsFound
  | some place =>
      rcases place with ⟨cl, off⟩
      rcases located cl off rfl with
        ⟨chain', j, code', rfl, chainedFound, standingFound, missingFound, member, room⟩
      rcases standingFound.write_spares shape chainedFound missingFound nonempty short nulFree
        member room (chain_start_lt readied.holds) 0 true with ⟨written, wrote, spares⟩
      have same := ended (exfatCreateEntry_run allocated searched wrote)
      subst same
      exact (keeps.trans keepsFound).trans (spares.keepsFiles final.owned)

end

/-- A name that a new directory may get: its set fits into a cluster. -/
structure DirName (v : Vol) (comp : List UInt8) : Prop where
  nonempty : comp ≠ []
  short : comp.length ≤ 255
  nulFree : ∀ char ∈ comp, char ≠ 0
  fits : entriesFor comp ≤ v.slots

variable {fuel : Nat} (enough : v.exfatClusterCount + 2 < fuel) (sector : 512 ≤ v.bytesPerSec)
include enough

section

include sector

/-- Making sure that the directories of a path exist. -/
theorem exfatEnsureWalk_keeps {bitmap : List Nat} {comps : List (List UInt8)}
    (names : ∀ comp ∈ comps, DirName v comp) {sectors : Nat → Buffer} {start : Nat}
    {chain : List Nat} (chained : Chained v (exfatView v sectors) bitmap)
    (standing : Standing v (exfatView v sectors) start chain) :
    ∃ code sectors', exfatEnsureWalk fuel comps start v (Device.healthy sectors) =
        some ((v, code), Device.healthy sectors') ∧
      Chained v (exfatView v sectors') bitmap ∧
      KeepsFiles v (exfatView v sectors) (exfatView v sectors') := by
  induction comps generalizing sectors start chain with
  | nil => exact ⟨0, sectors, rfl, chained, .refl _⟩
  | cons comp rest induction =>
      have name := names comp (by simp)
      have later := fun other member => names other (List.mem_cons_of_mem comp member)
      have holds := standing.holds
      have linked := holds.linked standing.occupied
      have length := length_le_of_nodup_of_lt linked.nodup fun cl member => (holds.inside member).2
      have looked := exfatFindInDir_healthy shape chained.bitmap.located comp linked
        (fun cl member => holds.inside member) (show chain.length < fuel by omega)
      rw [exfatEnsureWalk, DiskM.bind_run looked]
      cases found : lookup v (exfatView v sectors) comp (chainPlaces v chain) with
      | error code =>
          rcases exfatCreateEntry_keeps shape chained standing found name.nonempty name.short
            enough sector name.nulFree name.fits with
            ⟨status, result, middle, created, chained', keeps, newDir⟩
          dsimp only
          rw [DiskM.bind_run created]
          by_cases done : status = 0
          · rcases newDir done with ⟨members, standing'⟩
            rcases induction later chained' standing' with ⟨code', sectors', ran, final, kept⟩
            refine ⟨code', sectors', ?_, final, keeps.trans kept⟩
            rw [if_neg (by simpa using done)]
            exact ran
          · refine ⟨-1, middle, ?_, chained', keeps⟩
            rw [if_pos done]
            rfl
      | ok info =>
          rcases lookup_hit found with ⟨place, hit⟩
          by_cases isDir : info.isDir = true
          · cases standing with
            | listed dir _ =>
                rcases hit.dirAt chained.owned dir isDir with ⟨members, child⟩
                rcases induction later chained (.listed child hit.cluster.symm) with
                  ⟨code', sectors', ran, final, kept⟩
                refine ⟨code', sectors', ?_, final, kept⟩
                dsimp only
                rw [if_pos isDir]
                exact ran
            | unlisted _ _ _ none => exact absurd hit.set (none place hit.inside)
          · refine ⟨-2, sectors, ?_, chained, .refl _⟩
            dsimp only
            rw [if_neg isDir]
            rfl

end

/-! ## Reading -/

section

variable {sectors : Nat → Buffer} {bitmap : List Nat} {info : EntryInfo}
  (chained : Chained v (exfatView v sectors) bitmap)
include chained

theorem followWalk_leads {owner : ExfatOwner} {comps : List (List UInt8)}
    (leads : Leads v (exfatView v sectors) owner comps info) :
    followWalk fuel comps (owner.start v (exfatView v sectors)) v (Device.healthy sectors) =
      some ((v, .ok (some info)), Device.healthy sectors) := by
  have looked : ∀ {depth owner chain} (comp : List UInt8),
      DirAt v (exfatView v sectors) depth owner chain →
      exfatFindInDir comp fuel (owner.start v (exfatView v sectors)) v (Device.healthy sectors) =
        some ((v, lookup v (exfatView v sectors) comp (chainPlaces v chain)),
          Device.healthy sectors) := fun comp dir =>
    exfatFindInDir_healthy shape chained.bitmap.located comp dir.linked dir.data
      (dir.length_lt enough)
  induction leads with
  | last dir _ found =>
      rw [followWalk, DiskM.bind_run (looked _ dir), found]
      rfl
  | deeper dir _ found isDir _ induction =>
      rcases lookup_hit found with ⟨place, hit⟩
      rw [followWalk, DiskM.bind_run (looked _ dir), found]
      simp only [List.isEmpty_cons, Bool.false_eq_true, if_false, isDir, if_true]
      rw [← hit.start]
      exact induction

/-- What is read of a file that the path leads to. -/
theorem Leads.read {comps : List (List UInt8)}
    (leads : Leads v (exfatView v sectors) .root comps info) (isFile : info.isDir = false)
    {members : List Nat}
    (holds : Chain (v.exfatClusterCount + 2) (exfatView v sectors) info.cluster members)
    (maxBytes : Nat) : exfatReadWalk fuel maxBytes comps v (Device.healthy sectors) =
      some ((v, fileResult v (exfatView v sectors) info.cluster (min info.size 0xFFFFFFFF) maxBytes
        members), Device.healthy sectors) := by
  have followed : followWalk fuel comps v.rootClus v (Device.healthy sectors) =
      some ((v, .ok (some info)), Device.healthy sectors) :=
    followWalk_leads shape enough chained leads
  have read := readFileFromCluster_healthy shape.geometry
    (fun occupied => ⟨holds.linked occupied, fun cl member => holds.inside member⟩) enough
    (min info.size 0xFFFFFFFF) maxBytes
  rw [exfatReadWalk, DiskM.bind_run followed]
  simp only [isFile, Bool.false_eq_true, if_false]
  rw [DiskM.bind_run read]
  rfl

end

end

end ParanOS
