import ParanOS.Exfat.Walk

/-! # Sets that a lookup can see

A lookup ends at the first unused slot, but a new set goes to the first cluster
with room for it. Whether the set is seen afterwards depends on the slots in
front of it. In a directory without loose ends the two agree exactly when no
unused slots are left behind in an earlier cluster.
-/

namespace ParanOS

open Foundation
open ExfatOwner (LiveAt)

/-! ## Directories without loose ends -/

/-- A slot that has not been used so far; a lookup ends here. -/
def Unused (v : Vol) (store : ClusterStore) (place : Place) : Prop :=
  body v store place.cl place.off = 0x00

/-- Behind an unused slot all slots are unused, and the slots of a set belong to
it alone. -/
structure Tidy (v : Vol) (store : ClusterStore) (chain : List Nat) : Prop where
  tail : ∀ before place after, chainPlaces v chain = before ++ place :: after →
    Unused v store place → ∀ other ∈ after, Unused v store other
  sets : ∀ place ∈ chainPlaces v chain, IsSet v store place →
    ∀ i, 1 ≤ i → i ≤ (body v store place.cl (place.off + 1)).toNat →
      body v store place.cl (place.off + i * 32) ≠ 0x00 ∧
      body v store place.cl (place.off + i * 32) ≠ 0xFF ∧
      body v store place.cl (place.off + i * 32) ≠ exfatEntryFile

/-- A run of free slots in one cluster starts here. -/
def RunAt (v : Vol) (store : ClusterStore) (place : Place) (total : Nat) : Prop :=
  place.off + total * 32 ≤ v.clusterBytes ∧
    ∀ i < total, body v store place.cl (place.off + i * 32) = 0x00 ∨
      body v store place.cl (place.off + i * 32) = 0xFF

/-- A directory has no unused slot, or a run of free slots for the set starts at
or before its first unused slot. -/
def VisibleRoom (v : Vol) (store : ClusterStore) (chain : List Nat) (total : Nat) : Prop :=
  (∀ place ∈ chainPlaces v chain, ¬ Unused v store place) ∨
    ∃ before place after, chainPlaces v chain = before ++ place :: after ∧
      (∀ other ∈ before, ¬ Unused v store other) ∧ RunAt v store place total

/-! ## The order of slots -/

/-- The slots of one cluster below a number. -/
def leadingPlaces (cl count : Nat) : List Place :=
  (List.range count).map fun k => ⟨cl, 32 * k⟩

theorem mem_leadingPlaces {cl count : Nat} {place : Place} :
    place ∈ leadingPlaces cl count ↔ ∃ k < count, place = ⟨cl, 32 * k⟩ := by
  simp only [leadingPlaces, List.mem_map, List.mem_range]
  constructor
  · rintro ⟨k, below, rfl⟩
    exact ⟨k, below, rfl⟩
  · rintro ⟨k, below, rfl⟩
    exact ⟨k, below, rfl⟩

section

variable {v : Vol} (shape : ExfatGeometry v)
include shape

omit shape in
theorem chainPlaces_append (first second : List Nat) :
    chainPlaces v (first ++ second) = chainPlaces v first ++ chainPlaces v second :=
  List.flatMap_append

theorem chainPlaces_single (cl : Nat) : chainPlaces v [cl] = leadingPlaces cl v.slots := by
  rw [chainPlaces, List.flatMap_singleton, clusterOffsets_eq shape, leadingPlaces,
    List.map_map, List.range_eq_range']
  rfl

omit shape in
theorem leadingPlaces_split (cl : Nat) {j count : Nat} (inside : j < count) :
    ∃ rest, leadingPlaces cl count = leadingPlaces cl j ++ ⟨cl, 32 * j⟩ :: rest ∧
      ∀ k, j < k → k < count → ⟨cl, 32 * k⟩ ∈ rest := by
  refine ⟨(List.range' (j + 1) (count - (j + 1))).map fun k => ⟨cl, 32 * k⟩, ?_, ?_⟩
  · have split : List.range count =
        List.range j ++ j :: List.range' (j + 1) (count - (j + 1)) := by
      have whole := List.range'_append_1 (s := 0) (m := j) (n := count - (j + 1) + 1)
      rw [Nat.zero_add, show j + (count - (j + 1) + 1) = count by omega] at whole
      rw [List.range_eq_range', List.range_eq_range', ← List.range'_succ, whole]
    rw [leadingPlaces, split, List.map_append, List.map_cons]
    rfl
  · intro k above below
    apply List.mem_map_of_mem
    rw [List.mem_range'_1]
    omega

/-- A slot, the slots before it and the slots behind it. -/
theorem chainPlaces_at (before : List Nat) (cl : Nat) (after : List Nat) {j : Nat}
    (inside : j < v.slots) :
    ∃ rest, chainPlaces v (before ++ cl :: after) =
        (chainPlaces v before ++ leadingPlaces cl j) ++ ⟨cl, 32 * j⟩ :: rest ∧
      ∀ k, j < k → k < v.slots → ⟨cl, 32 * k⟩ ∈ rest := by
  rcases leadingPlaces_split cl inside with ⟨rest, split, later⟩
  refine ⟨rest ++ chainPlaces v after, ?_, ?_⟩
  · rw [← List.singleton_append, chainPlaces_append, chainPlaces_append,
      chainPlaces_single shape, split]
    simp
  · intro k above below
    exact List.mem_append_left _ (later k above below)

omit shape in
/-- A list without repetitions is split by a member in one way. -/
theorem split_unique {α : Type} {first second first' second' : List α} {value : α}
    (nodup : (first ++ value :: second).Nodup)
    (same : first ++ value :: second = first' ++ value :: second') : first = first' := by
  rcases List.append_eq_append_iff.mp same with ⟨extra, longer, rest⟩ | ⟨extra, longer, rest⟩
  · cases extra with
    | nil => simpa using longer.symm
    | cons head tail =>
        have again : value ∈ second := by
          rw [(List.cons.inj rest).2]
          simp
        have apart := List.nodup_cons.mp (List.nodup_append.mp nodup).2.1
        exact absurd again apart.1
  · cases extra with
    | nil => simpa using longer
    | cons head tail =>
        have inFirst : value ∈ first := by
          rw [longer, ← (List.cons.inj rest).1]
          simp
        have apart := (List.nodup_append.mp nodup).2.2
        exact absurd rfl (apart value inFirst value (by simp))

/-- Where a slot of a chain is. -/
theorem place_position {chain : List Nat} {place : Place}
    (member : place ∈ chainPlaces v chain) :
    ∃ before after j, chain = before ++ place.cl :: after ∧ place = ⟨place.cl, 32 * j⟩ ∧
      j < v.slots := by
  rcases (mem_chainPlaces shape).mp member with ⟨inChain, ⟨j, aligned⟩, inside⟩
  rcases List.append_of_mem inChain with ⟨before, after, split⟩
  have slots := shape.slots_eq
  refine ⟨before, after, j, split, ?_, by omega⟩
  rw [← aligned]

/-! ## Lookups slot by slot -/

omit shape in
/-- Only an unused slot ends a lookup without success. -/
theorem verdict_ne_error {store : ClusterStore} {want : List UInt8} {place : Place}
    (used : ¬ Unused v store place) (code : Int) :
    verdict v store want place ≠ some (.error code) := by
  have nonzero : ¬ body v store place.cl place.off = 0x00 := used
  rw [verdict, if_neg nonzero]
  cases setAt v store place with
  | none => simp
  | some set =>
      rcases set with ⟨name, info⟩
      by_cases same : sameName want name = true
      · simp [same]
      · simp [same]

omit shape in
/-- A lookup that fails passes all slots in front of the first unused one. -/
theorem verdict_of_error {store : ClusterStore} {want : List UInt8} {places : List Place}
    {code : Int} (missing : lookup v store want places = .error code) {before : List Place}
    {place : Place} {after : List Place} (split : places = before ++ place :: after)
    (used : ∀ other ∈ before, ¬ Unused v store other) (here : ¬ Unused v store place) :
    verdict v store want place = none := by
  subst split
  induction before with
  | nil =>
      rw [lookup, List.nil_append, List.findSome?_cons] at missing
      cases result : verdict v store want place with
      | none => rfl
      | some decided =>
          rw [result, Option.getD_some] at missing
          subst missing
          exact absurd result (verdict_ne_error here code)
  | cons head rest induction =>
      rw [lookup, List.cons_append, List.findSome?_cons] at missing
      cases result : verdict v store want head with
      | none =>
          rw [result] at missing
          exact induction (fun other member => used other (by simp [member])) missing
      | some decided =>
          rw [result, Option.getD_some] at missing
          subst missing
          exact absurd result (verdict_ne_error (used head (by simp)) code)

omit shape in
theorem lookup_of_passed {store : ClusterStore} {want : List UInt8} {before after : List Place}
    {place : Place} {result : Except Int EntryInfo}
    (passed : ∀ other ∈ before, verdict v store want other = none)
    (here : verdict v store want place = some result) :
    lookup v store want (before ++ place :: after) = result := by
  rw [lookup, List.findSome?_append, List.findSome?_eq_none_iff.mpr passed,
    List.findSome?_cons, here]
  rfl

omit shape in
theorem verdict_congr {store store' : ClusterStore} {want : List UInt8} {place : Place}
    (same : body v store' place.cl = body v store place.cl) :
    verdict v store' want place = verdict v store want place := by
  rw [verdict, verdict, setAt, setAt, same]

omit shape in
/-- A set in front of slots that are written over is read as before, if it does
not reach into them. -/
theorem setAt_before {store store' : ClusterStore} {cl off total : Nat} {data : Buffer}
    (patch : body v store' cl = (body v store cl).copy off (total * 32) data)
    (positive : 0 < total) (head : data 0 = exfatEntryFile) {place : Place}
    (near : place.cl = cl) (ahead : place.off + 32 ≤ off)
    (span : IsSet v store place →
      place.off + ((body v store cl (place.off + 1)).toNat + 1) * 32 ≤ off) :
    setAt v store' place = setAt v store place := by
  have same : ∀ index < off, body v store' cl index = body v store cl index := by
    intro index below
    rw [patch, Buffer.copy_outside (by omega)]
  by_cases set : IsSet v store place
  · have reach := span set
    have windows : window (body v store' cl) place.off
        (((body v store cl (place.off + 1)).toNat + 1) * 32) =
        window (body v store cl) place.off
          (((body v store cl (place.off + 1)).toNat + 1) * 32) := by
      funext index
      by_cases inside : index < ((body v store cl (place.off + 1)).toNat + 1) * 32
      · rw [window_lt inside, window_lt inside, same _ (by omega)]
      · rw [window, window, Buffer.copy_outside (by omega), Buffer.copy_outside (by omega)]
    simp only [setAt, near]
    rw [same place.off (by omega), same (place.off + 1) (by omega), windows]
  · have gone : ¬ IsSet v store' place := by
      intro set'
      have facts := isSet_iff.mp set'
      rw [near, same place.off (by omega), same (place.off + 1) (by omega)] at facts
      by_cases touching : place.off + 32 = off
      · rw [touching, patch, Buffer.copy_inside (by omega) (by omega), Nat.sub_self, head] at facts
        exact absurd facts.2.2.2.2 (by decide)
      · rw [same (place.off + 32) (by omega)] at facts
        exact set (isSet_iff.mpr (near ▸ facts))
    simp only [IsSet, Bool.not_eq_true, Option.isSome_eq_false_iff, Option.isNone_iff_eq_none]
      at set gone
    rw [set, gone]

/-- Behind its first slot a set has no free slot, and no other set begins there. -/
def OwnSlots (v : Vol) (store : ClusterStore) (chain : List Nat) : Prop :=
  ∀ place ∈ chainPlaces v chain, IsSet v store place →
    ∀ i, 1 ≤ i → i ≤ (body v store place.cl (place.off + 1)).toNat →
      body v store place.cl (place.off + i * 32) ≠ 0x00 ∧
      body v store place.cl (place.off + i * 32) ≠ 0xFF ∧
      body v store place.cl (place.off + i * 32) ≠ exfatEntryFile

/-- A set in front of a slot that is free or starts a set does not reach into it. -/
theorem OwnSlots.span {store : ClusterStore} {chain : List Nat} (own : OwnSlots v store chain)
    {place : Place} {off : Nat} (member : place ∈ chainPlaces v chain) (aligned : 32 ∣ off)
    (ahead : place.off < off)
    (stop : body v store place.cl off = 0x00 ∨ body v store place.cl off = 0xFF ∨
      body v store place.cl off = exfatEntryFile) (set : IsSet v store place) :
    place.off + ((body v store place.cl (place.off + 1)).toNat + 1) * 32 ≤ off := by
  by_contra beyond
  rcases (mem_chainPlaces shape).mp member with ⟨_, ⟨slot, slotEq⟩, _⟩
  rcases aligned with ⟨slot', rfl⟩
  have slots := own place member set (slot' - slot) (by omega) (by omega)
  rw [show place.off + (slot' - slot) * 32 = 32 * slot' by omega] at slots
  rcases stop with unused | deleted | file
  · exact slots.1 unused
  · exact slots.2.1 deleted
  · exact slots.2.2 file

/-- So it is in a tidy directory. -/
theorem Tidy.span {store : ClusterStore} {chain : List Nat} (tidy : Tidy v store chain)
    {place : Place} {off : Nat} (member : place ∈ chainPlaces v chain) (aligned : 32 ∣ off)
    (ahead : place.off < off)
    (stop : body v store place.cl off = 0x00 ∨ body v store place.cl off = 0xFF ∨
      body v store place.cl off = exfatEntryFile) (set : IsSet v store place) :
    place.off + ((body v store place.cl (place.off + 1)).toNat + 1) * 32 ≤ off :=
  OwnSlots.span shape tidy.sets member aligned ahead stop set

omit shape in
/-- What a lookup makes of a set that was stored. -/
theorem verdict_stored {store : ClusterStore} {place : Place} {name : List UInt8}
    {first : Nat} {isDir : Bool} {members : List Nat} {data : List UInt8}
    (stored : StoredSet v store place name first isDir members data)
    (chars : ∀ char ∈ name, char ≠ 0) :
    verdict v store name place = some (.ok ⟨first, data.length % 18446744073709551616, isDir,
      place.cl, place.off⟩) := by
  have set : IsSet v store place := by simp [IsSet, stored.entry]
  have used : body v store place.cl place.off ≠ 0x00 := by
    rw [(isSet_iff.mp set).1]
    decide
  have same : sameName name name = true := by
    have whole : name.takeWhile (· ≠ 0) = name := by
      rw [List.takeWhile_eq_self_iff]
      simpa using chars
    rw [sameName, whole]
    simp
  rw [verdict, if_neg used, stored.entry]
  simp [same]

/-! ## After a set was written -/

/-- A rewritten set is found where it was. -/
theorem Rewritten.lookup {store store' : ClusterStore} {depth : Nat} {owner : ExfatOwner}
    {chain : List Nat} {name data : List UInt8} {first : Nat} {place : Place}
    {members : List Nat} {info : EntryInfo}
    (done : Rewritten v store store' depth owner chain name first data place members)
    (tidy : Tidy v store chain) (nodup : chain.Nodup) (nonempty : name ≠ [])
    (short : name.length ≤ 255) (chars : ∀ char ∈ name, char ≠ 0)
    (found : ParanOS.lookup v store name (chainPlaces v chain) = .ok info)
    (atPlace : info.dirCluster = place.cl ∧ info.dirByteOff = place.off) :
    ParanOS.lookup v store' name (chainPlaces v chain) =
      .ok ⟨first, data.length % 18446744073709551616, false, place.cl, place.off⟩ := by
  have bounds := entriesFor_bounds nonempty short
  rcases lookup_ok found with ⟨before, place', after, split, passed, here⟩
  rcases verdict_ok here with ⟨_, set, parsed, _, rfl⟩
  have same : place' = place := by
    cases place'
    cases place
    simp only [Place.mk.injEq]
    exact atPlace
  subst same
  have isSet : IsSet v store place' := by simp [IsSet, parsed]
  rcases place_position shape (show place' ∈ chainPlaces v chain by simp [split]) with
    ⟨clusters, later, j, chainSplit, position, inside⟩
  rcases chainPlaces_at shape clusters place'.cl later inside with ⟨rest, canonical, _⟩
  rw [← chainSplit, ← position] at canonical
  have prefixes : before = chainPlaces v clusters ++ leadingPlaces place'.cl j := by
    apply split_unique (split ▸ chainPlaces_nodup nodup)
    rw [← split, canonical]
  have offset : place'.off = 32 * j := congrArg Place.off position
  rw [split]
  refine lookup_of_passed ?_ (verdict_stored done.stored chars)
  intro other member
  have none := passed other member
  have inChain : other ∈ chainPlaces v chain := by simp [split, member]
  have cluster := ((mem_chainPlaces shape).mp inChain).1
  by_cases near : other.cl = place'.cl
  · -- the slots of the same cluster in front of the set
    have below : other.off < place'.off := by
      rw [prefixes, List.mem_append] at member
      rcases member with earlier | leading
      · have clash := ((mem_chainPlaces shape).mp earlier).1
        rw [chainSplit] at nodup
        exact absurd rfl ((List.nodup_append.mp nodup).2.2 _ clash _ (by simp [near]))
      · rcases mem_leadingPlaces.mp leading with ⟨k, kBelow, rfl⟩
        simp only
        omega
    have aligned : 32 ∣ place'.off := by
      rw [offset]
      exact Nat.dvd_mul_right 32 j
    have otherAligned := ((mem_chainPlaces shape).mp inChain).2.1
    have unchanged := setAt_before done.patch (by omega) (builtSet_type _ _ _ _) near
      (by omega) (fun set => by
        rw [← near]
        exact tidy.span shape inChain aligned below (.inr (.inr (by
          rw [near]
          exact (isSet_iff.mp isSet).1))) set)
    have head : body v store' other.cl other.off = body v store other.cl other.off := by
      rw [near, done.patch, Buffer.copy_outside (by omega)]
    rw [verdict, unchanged, head]
    exact none
  · rw [verdict_congr (done.others other.cl cluster near)]
    exact none

/-- The place that a new set got, seen from the slots in front of it. -/
structure Seat (v : Vol) (store middle : ClusterStore) (chain : List Nat) (total : Nat)
    (chain' : List Nat) (place : Place) (clusters later : List Nat) (j : Nat) : Prop where
  split : chain' = clusters ++ place.cl :: later
  position : place = ⟨place.cl, 32 * j⟩
  inside : j < v.slots
  front : ∃ rest, chainPlaces v chain =
    (chainPlaces v clusters ++ leadingPlaces place.cl j) ++ rest
  same : ∀ other ∈ chainPlaces v clusters ++ leadingPlaces place.cl j,
    body v middle other.cl = body v store other.cl
  leading : ∀ other ∈ leadingPlaces place.cl j, ¬ Unused v store other
  free : j ≠ 0 → body v store place.cl place.off = 0x00 ∨ body v store place.cl place.off = 0xFF
  /-- The set is in front of the first unused slot exactly when there is visible
  room for it. -/
  visible : VisibleRoom v store chain total ↔
    ∀ other ∈ chainPlaces v clusters, ¬ Unused v store other

/-- A run of free slots is room. -/
theorem RunAt.room {store : ClusterStore} {place : Place} {total : Nat}
    (run : RunAt v store place total) (aligned : 32 ∣ place.off) :
    Room v store place.cl total (place.off / 32) := by
  have slots := shape.slots_eq
  have fits := run.1
  rcases aligned with ⟨k, offset⟩
  refine ⟨by omega, .inr ?_⟩
  intro i below
  have free := run.2 i below
  rw [Reusable, slotType, show 32 * (place.off / 32 + i) = place.off + i * 32 by omega]
  exact free

theorem seat_of_room {store middle : ClusterStore} {before after : List Nat}
    {cl total j : Nat} (tidy : Tidy v store (before ++ cl :: after)) (positive : 0 < total)
    (earlier : ∀ other ∈ before, ∀ j, ¬ Room v store other total j)
    (first : FirstRoom v store cl total j)
    (sectors : ∀ other ∈ before ++ cl :: after, middle.sector other = store.sector other) :
    Seat v store middle (before ++ cl :: after) total (before ++ cl :: after) ⟨cl, 32 * j⟩
      before after j := by
  have slots := shape.slots_eq
  have fits := first.room.fits
  have inside : j < v.slots := by omega
  rcases chainPlaces_at shape before cl after inside with ⟨rest, canonical, behind⟩
  have leading : ∀ other ∈ leadingPlaces cl j, ¬ Unused v store other := by
    intro other member
    rcases mem_leadingPlaces.mp member with ⟨k, below, rfl⟩
    exact first.used k below
  refine ⟨rfl, rfl, inside, ⟨_, canonical⟩, ?_, leading, ?_, ?_⟩
  · intro other member
    apply body_congr
    apply sectors
    rcases List.mem_append.mp member with inBefore | inLeading
    · exact List.mem_append_left _ ((mem_chainPlaces shape).mp inBefore).1
    · rcases mem_leadingPlaces.mp inLeading with ⟨k, _, rfl⟩
      simp
  · intro _
    rcases first.room.usable with unused | free
    · exact .inl unused
    · exact free 0 positive
  · constructor
    · rintro (none | ⟨front, place, back, split, used, run⟩)
      · intro other member
        apply none
        rw [chainPlaces_append]
        exact List.mem_append_left _ member
      · -- the run lies in no cluster without room, so behind all of them
        have range := (mem_chainPlaces shape).mp
          (show place ∈ chainPlaces v (before ++ cl :: after) by simp [split])
        have notEarlier : place ∉ chainPlaces v before := by
          intro member
          exact earlier place.cl ((mem_chainPlaces shape).mp member).1 _
            (run.room shape range.2.1)
        rw [chainPlaces_append] at split
        rcases List.append_eq_append_iff.mp split with
          ⟨extra, longer, _⟩ | ⟨extra, longer, tail⟩
        · intro other member
          exact used other (by simp [longer, member])
        · cases extra with
          | nil =>
              rw [List.append_nil] at longer
              intro other member
              exact used other (longer ▸ member)
          | cons head others =>
              refine absurd ?_ notEarlier
              rw [longer, (List.cons.inj tail).1]
              simp
    · intro clear
      right
      refine ⟨chainPlaces v before ++ leadingPlaces cl j, ⟨cl, 32 * j⟩, rest, canonical, ?_, ?_⟩
      · intro other member
        rcases List.mem_append.mp member with inBefore | inLeading
        · exact clear other inBefore
        · exact leading other inLeading
      · refine ⟨by simp only; omega, ?_⟩
        intro i below
        simp only
        rw [show 32 * j + i * 32 = 32 * (j + i) by omega]
        rcases first.room.usable with unused | free
        · left
          by_cases itself : i = 0
          · rw [itself]
            exact unused
          · exact tidy.tail _ _ _ canonical unused ⟨cl, 32 * (j + i)⟩
              (behind (j + i) (by omega) (by omega))
        · exact free i below

theorem Landing.seat {store middle : ClusterStore} {chain chain' : List Nat} {total : Nat}
    {place : Place} (landing : Landing v store middle chain total chain' place)
    (tidy : Tidy v store chain) (positive : 0 < total) :
    ∃ clusters later j, Seat v store middle chain total chain' place clusters later j := by
  cases landing with
  | @room before cl after j split earlier first sectors =>
      subst split
      exact ⟨before, after, j, seat_of_room shape tidy positive earlier first sectors⟩
  | @further target none sectors blank =>
      have slots := shape.slots_eq
      have size := shape.clusterBytes_pos
      refine ⟨chain, [], 0, rfl, rfl, by omega, ⟨[], by simp [leadingPlaces]⟩, ?_, ?_,
        by simp, ?_⟩
      · intro other member
        rw [leadingPlaces, List.range_zero, List.map_nil, List.append_nil] at member
        exact body_congr (sectors other.cl ((mem_chainPlaces shape).mp member).1)
      · simp [leadingPlaces]
      · constructor
        · rintro (clear | ⟨front, place, back, split, _, run⟩)
          · exact clear
          · have range := (mem_chainPlaces shape).mp
              (show place ∈ chainPlaces v chain by simp [split])
            exact absurd (run.room shape range.2.1) (none place.cl range.1 _)
        · exact .inl

omit shape in
/-- The first member with a property. -/
theorem first_split {α : Type} {p : α → Prop} {values : List α} (some : ∃ value ∈ values, p value) :
    ∃ before value after, values = before ++ value :: after ∧ p value ∧
      ∀ other ∈ before, ¬ p other := by
  classical
  induction values with
  | nil =>
      rcases some with ⟨value, member, _⟩
      simp at member
  | cons head rest induction =>
      by_cases here : p head
      · exact ⟨[], head, rest, rfl, here, by simp⟩
      · rcases some with ⟨value, member, holds⟩
        have later : value ∈ rest := by
          rcases List.mem_cons.mp member with rfl | later
          · exact absurd holds here
          · exact later
        rcases induction ⟨value, later, holds⟩ with ⟨before, found, after, split, found', none⟩
        refine ⟨head :: before, found, after, by rw [split]; rfl, found', ?_⟩
        intro other inBefore
        rcases List.mem_cons.mp inBefore with rfl | inRest
        · exact here
        · exact none other inRest

namespace Created

variable {store store' : ClusterStore} {depth : Nat} {owner : ExfatOwner}
  {chain chain' members : List Nat} {name data : List UInt8} {first : Nat} {isDir : Bool}
  {place : Place}
  (created : Created v store store' depth owner chain name first isDir data place chain' members)
include created

/-- The slots in front of the new set are read as before. -/
theorem verdict_front {middle : ClusterStore} {clusters later : List Nat} {j : Nat}
    (seat : Seat v store middle chain (entriesFor name) chain' place clusters later j)
    (tidy : Tidy v store chain)
    (others : ∀ cl ∈ chain', cl ≠ place.cl → body v store' cl = body v middle cl)
    (patch : body v store' place.cl = (body v middle place.cl).copy place.off
      (entriesFor name * 32) (builtSet name first data.length isDir))
    (nonempty : name ≠ []) (short : name.length ≤ 255) (other : Place)
    (front : other ∈ chainPlaces v clusters ++ leadingPlaces place.cl j) (want : List UInt8) :
    verdict v store' want other = verdict v store want other := by
  have bounds := entriesFor_bounds nonempty short
  have unchanged := seat.same other front
  have offset : place.off = 32 * j := congrArg Place.off seat.position
  rcases seat.front with ⟨rest, order⟩
  have inChain : other ∈ chainPlaces v chain := by
    rw [order]
    exact List.mem_append_left _ front
  rcases List.mem_append.mp front with earlier | leading
  · have cluster := ((mem_chainPlaces shape).mp earlier).1
    have nodup := created.dir.linked.nodup
    have different : other.cl ≠ place.cl := by
      intro equal
      rw [seat.split] at nodup
      exact absurd rfl ((List.nodup_append.mp nodup).2.2 _ cluster _ (by simp [equal]))
    apply verdict_congr
    rw [others other.cl (by rw [seat.split]; exact List.mem_append_left _ cluster) different,
      unchanged]
  · rcases mem_leadingPlaces.mp leading with ⟨k, below, rfl⟩
    have near : (⟨place.cl, 32 * k⟩ : Place).cl = place.cl := rfl
    have same := setAt_before patch (by omega) (builtSet_type _ _ _ _) near
      (by simp only; omega) (fun set => by
        have sets := (@IsSet.congr v _ _ ⟨place.cl, 32 * k⟩ unchanged).1.mp set
        have span := tidy.span shape inChain
          (show 32 ∣ place.off by rw [offset]; exact Nat.dvd_mul_right 32 j) (by simp only; omega)
          (by
            rcases seat.free (by omega) with unused | deleted
            · exact .inl unused
            · exact .inr (.inl deleted)) sets
        simp only at unchanged span ⊢
        rw [unchanged]
        exact span)
    have sameMiddle : setAt v middle ⟨place.cl, 32 * k⟩ = setAt v store ⟨place.cl, 32 * k⟩ := by
      simp only at unchanged
      rw [setAt, setAt, unchanged]
    have head : body v store' place.cl (32 * k) = body v store place.cl (32 * k) := by
      simp only at unchanged
      rw [patch, Buffer.copy_outside (by omega), unchanged]
    rw [verdict, verdict, same, sameMiddle, head]

/-- A new set is found exactly when there was visible room for it. -/
theorem lookup {code : Int} (tidy : Tidy v store chain)
    (missing : ParanOS.lookup v store name (chainPlaces v chain) = .error code)
    (nonempty : name ≠ []) (short : name.length ≤ 255) (chars : ∀ char ∈ name, char ≠ 0) :
    (VisibleRoom v store chain (entriesFor name) →
      ParanOS.lookup v store' name (chainPlaces v chain') =
        .ok ⟨first, data.length % 18446744073709551616, isDir, place.cl, place.off⟩) ∧
    (¬ VisibleRoom v store chain (entriesFor name) →
      ParanOS.lookup v store' name (chainPlaces v chain') = .error (-2)) := by
  have bounds := entriesFor_bounds nonempty short
  rcases created.landed with ⟨middle, landing, others, patch⟩
  rcases landing.seat shape tidy (by omega) with ⟨clusters, later, j, seat⟩
  have same := fun other front => created.verdict_front shape seat tidy others patch nonempty
    short other front name
  rcases seat.front with ⟨rest, order⟩
  rcases chainPlaces_at shape clusters place.cl later seat.inside with ⟨behind, canonical, _⟩
  rw [← seat.split, ← seat.position] at canonical
  -- a slot in front of the first unused one was passed before
  have passed : ∀ front other back, chainPlaces v clusters ++ leadingPlaces place.cl j =
      front ++ other :: back → (∀ earlier ∈ front, ¬ Unused v store earlier) →
      ¬ Unused v store other → verdict v store' name other = none := by
    intro front other back split used here
    rw [same other (by simp [split])]
    apply verdict_of_error missing _ used here
    · exact back ++ rest
    · rw [order, split]
      simp
  rw [seat.visible, canonical]
  constructor
  · intro clear
    have clear' : ∀ other ∈ chainPlaces v clusters ++ leadingPlaces place.cl j,
        ¬ Unused v store other := by
      intro other member
      rcases List.mem_append.mp member with earlier | leading
      · exact clear other earlier
      · exact seat.leading other leading
    refine lookup_of_passed ?_ (verdict_stored created.stored chars)
    intro other member
    rcases List.append_of_mem member with ⟨front, back, split⟩
    apply passed front other back split
    · intro earlier inFront
      exact clear' earlier (by simp [split, inFront])
    · exact clear' other member
  · intro hidden
    have leftBehind : ∃ other ∈ chainPlaces v clusters, Unused v store other := by
      by_contra none
      apply hidden
      intro other member unused
      exact none ⟨other, member, unused⟩
    rcases first_split leftBehind with ⟨front, ended, back, split, unused, used⟩
    have ends : verdict v store' name ended = some (.error (-2)) := by
      rw [same ended (by simp [split]), verdict]
      exact if_pos unused
    rw [split, List.append_assoc, List.append_assoc, List.cons_append]
    refine lookup_of_passed ?_ ends
    intro other member
    rcases List.append_of_mem member with ⟨front', back', split'⟩
    apply passed front' other (back' ++ ended :: back ++ leadingPlaces place.cl j)
    · rw [split, split']
      simp
    · intro earlier inFront
      exact used earlier (by simp [split', inFront])
    · exact used other member

end Created

end

end ParanOS
