import Mathlib.Data.List.Pairwise
import Mathlib.Order.Basic
import Mathlib.Order.Lattice

/-! # Maps made of regions

A region gives a kind to the addresses from a lower bound up to an upper one. A list
of regions that do not meet is a partial map from addresses to kinds. It can be read
in any order of the list, painted over, cut to parts of its regions and joined where
regions of one kind touch.
-/

namespace Foundation

structure Region (α κ : Type) where
  low : α
  high : α
  kind : κ

namespace Region

variable {α κ : Type} [LinearOrder α]

def Covers (region : Region α κ) (address : α) : Prop :=
  region.low ≤ address ∧ address < region.high

instance (region : Region α κ) (address : α) : Decidable (region.Covers address) :=
  inferInstanceAs (Decidable (_ ∧ _))

def Apart (first second : Region α κ) : Prop :=
  ∀ address, first.Covers address → ¬ second.Covers address

theorem Apart.symm {first second : Region α κ} (apart : first.Apart second) :
    second.Apart first :=
  fun address covered meets => apart address meets covered

instance : Std.Symm (@Apart α κ _) := ⟨fun _ _ apart => apart.symm⟩

theorem apart_of_le {first second : Region α κ} (le : first.high ≤ second.low) :
    first.Apart second :=
  fun _ before after => absurd (before.2.trans_le le) (not_lt.mpr after.1)

/-- Of two regions that do not meet one lies before the other. -/
theorem Apart.ordered {first second : Region α κ} (apart : first.Apart second)
    (firstFull : first.low < first.high) (secondFull : second.low < second.high) :
    first.high ≤ second.low ∨ second.high ≤ first.low := by
  by_contra meeting
  rw [not_or, not_le, not_le] at meeting
  exact apart (max first.low second.low)
    ⟨le_max_left _ _, max_lt firstFull meeting.1⟩ ⟨le_max_right _ _, max_lt meeting.2 secondFull⟩

/-- What a list of regions gives an address: the kind of the first region around it. -/
def kindAt (regions : List (Region α κ)) (address : α) : Option κ :=
  (regions.find? fun region => region.Covers address).map Region.kind

/-- The regions are not empty and do not meet. -/
structure Tiles (regions : List (Region α κ)) : Prop where
  full : ∀ region ∈ regions, region.low < region.high
  apart : regions.Pairwise Apart

namespace Tiles

variable {regions others : List (Region α κ)}

theorem nil : Tiles ([] : List (Region α κ)) :=
  ⟨fun _ member => absurd member List.not_mem_nil, List.Pairwise.nil⟩

theorem perm (tiles : Tiles regions) (order : regions.Perm others) : Tiles others :=
  ⟨fun region member => tiles.full region (order.mem_iff.mpr member),
    tiles.apart.perm order fun apart => apart.symm⟩

theorem map_id (tiles : Tiles regions) : Tiles (regions.map id) := by rwa [List.map_id]

theorem sublist (tiles : Tiles regions) (fewer : others.Sublist regions) : Tiles others :=
  ⟨fun region member => tiles.full region (fewer.subset member), tiles.apart.sublist fewer⟩

/-- An address lies in at most one of the regions. -/
theorem unique (tiles : Tiles regions) {first second : Region α κ} (left : first ∈ regions)
    (right : second ∈ regions) {address : α} (coversFirst : first.Covers address)
    (coversSecond : second.Covers address) : first = second := by
  by_contra different
  exact tiles.apart.forall left right different address coversFirst coversSecond

theorem kindAt_eq_some (tiles : Tiles regions) {address : α} {kind : κ} :
    kindAt regions address = some kind ↔
      ∃ region ∈ regions, region.Covers address ∧ region.kind = kind := by
  rw [kindAt, Option.map_eq_some_iff]
  constructor
  · rintro ⟨region, found, same⟩
    exact ⟨region, List.mem_of_find?_eq_some found, by simpa using List.find?_some found, same⟩
  · rintro ⟨region, member, covers, same⟩
    cases search : regions.find? fun region => region.Covers address with
    | none =>
        exact absurd covers (by simpa using List.find?_eq_none.mp search region member)
    | some other =>
        have around : other.Covers address := by simpa using List.find?_some search
        have equal := tiles.unique member (List.mem_of_find?_eq_some search) covers around
        exact ⟨other, rfl, equal ▸ same⟩

/-- The map does not depend on the order of the regions. -/
theorem kindAt_perm (tiles : Tiles regions) (order : regions.Perm others) :
    kindAt others = kindAt regions := by
  funext address
  apply Option.ext
  intro kind
  rw [(tiles.perm order).kindAt_eq_some, tiles.kindAt_eq_some]
  simp only [order.mem_iff]

end Tiles

/-! ## Parts of regions -/

/-- The parts of a region: not empty, apart, inside it and of its kind. The addresses
that `keep` holds of are those that stay. -/
structure Parts (region : Region α κ) (parts : List (Region α κ)) (keep : α → Prop) : Prop where
  tiles : Tiles parts
  kind : ∀ part ∈ parts, part.kind = region.kind
  inside : ∀ part ∈ parts, ∀ address, part.Covers address → region.Covers address
  kept : ∀ address, region.Covers address → ((∃ part ∈ parts, part.Covers address) ↔ keep address)

theorem Parts.whole {region : Region α κ} (full : region.low < region.high) {keep : α → Prop}
    (all : ∀ address, region.Covers address → keep address) : Parts region [region] keep where
  tiles :=
    ⟨fun part member => (List.mem_singleton.mp member) ▸ full, List.pairwise_singleton _ _⟩
  kind := fun part member => by rw [List.mem_singleton.mp member]
  inside := fun part member => by rw [List.mem_singleton.mp member]; exact fun _ covers => covers
  kept := fun address covers =>
    ⟨fun _ => all address covers, fun _ => ⟨region, List.mem_singleton.mpr rfl, covers⟩⟩

theorem Parts.none {region : Region α κ} {keep : α → Prop}
    (all : ∀ address, region.Covers address → ¬ keep address) : Parts region [] keep where
  tiles := Tiles.nil
  kind := fun _ member => absurd member List.not_mem_nil
  inside := fun _ member => absurd member List.not_mem_nil
  kept := fun address covers =>
    ⟨fun ⟨_, member, _⟩ => absurd member List.not_mem_nil,
      fun kept => absurd kept (all address covers)⟩

theorem Parts.congr {region : Region α κ} {parts : List (Region α κ)} {keep other : α → Prop}
    (pieces : Parts region parts keep)
    (same : ∀ address, region.Covers address → (keep address ↔ other address)) :
    Parts region parts other where
  tiles := pieces.tiles
  kind := pieces.kind
  inside := pieces.inside
  kept := fun address covers => (pieces.kept address covers).trans (same address covers)

section Cut

variable {ι : Type} {items : List ι} {region : ι → Region α κ} {cut : ι → List (Region α κ)}
  {keep : ι → α → Prop}

theorem Tiles.flatMap (tiles : Tiles (items.map region))
    (parts : ∀ item ∈ items, Parts (region item) (cut item) (keep item)) :
    Tiles (items.flatMap cut) := by
  constructor
  · intro part member
    rcases List.mem_flatMap.mp member with ⟨item, inside, piece⟩
    exact (parts item inside).tiles.full part piece
  · rw [List.pairwise_flatMap]
    refine ⟨fun item member => (parts item member).tiles.apart, ?_⟩
    apply (List.pairwise_map.mp tiles.apart).imp_of_mem
    intro first second left right apart part piece other otherPiece address covers meets
    exact apart address ((parts first left).inside part piece address covers)
      ((parts second right).inside other otherPiece address meets)

/-- An address keeps its kind where the part around it stays, and else loses it. -/
theorem Tiles.kindAt_flatMap (tiles : Tiles (items.map region))
    (parts : ∀ item ∈ items, Parts (region item) (cut item) (keep item)) {address : α}
    {kind : κ} :
    kindAt (items.flatMap cut) address = some kind ↔
      ∃ item ∈ items, (region item).Covers address ∧ (region item).kind = kind ∧
        keep item address := by
  rw [(tiles.flatMap parts).kindAt_eq_some]
  constructor
  · rintro ⟨part, member, covers, same⟩
    rcases List.mem_flatMap.mp member with ⟨item, inside, piece⟩
    have around := (parts item inside).inside part piece address covers
    exact ⟨item, inside, around, ((parts item inside).kind part piece).symm.trans same,
      ((parts item inside).kept address around).mp ⟨part, piece, covers⟩⟩
  · rintro ⟨item, inside, around, same, kept⟩
    rcases ((parts item inside).kept address around).mpr kept with ⟨part, piece, covers⟩
    exact ⟨part, List.mem_flatMap.mpr ⟨item, inside, piece⟩, covers,
      ((parts item inside).kind part piece).trans same⟩

end Cut

/-! ## Painting -/

/-- The map with one kind between two bounds. -/
def paint (map : α → Option κ) (low high : α) (kind : κ) (address : α) : Option κ :=
  if low ≤ address ∧ address < high then some kind else map address

/-- What is left of a region outside two bounds. -/
def carve (low high : α) (region : Region α κ) : List (Region α κ) :=
  (if region.low < min region.high low then [{ region with high := min region.high low }]
    else []) ++
  (if max region.low high < region.high then [{ region with low := max region.low high }] else [])

theorem mem_carve {low high : α} {region part : Region α κ} :
    part ∈ carve low high region ↔
      region.low < min region.high low ∧ part = { region with high := min region.high low } ∨
        max region.low high < region.high ∧ part = { region with low := max region.low high } := by
  rw [carve, List.mem_append]
  apply or_congr
  · split
    · next left => simp [left]
    · next left => simp [left]
  · split
    · next right => simp [right]
    · next right => simp [right]

theorem carve_parts {low high : α} (ordered : low ≤ high) (region : Region α κ) :
    Parts region (carve low high region) fun address => ¬ (low ≤ address ∧ address < high) where
  tiles := by
    constructor
    · intro part member
      rcases mem_carve.mp member with ⟨full, rfl⟩ | ⟨full, rfl⟩
      · exact full
      · exact full
    · rw [carve, List.pairwise_append]
      refine ⟨?_, ?_, ?_⟩
      · split
        · exact List.pairwise_singleton _ _
        · exact List.Pairwise.nil
      · split
        · exact List.pairwise_singleton _ _
        · exact List.Pairwise.nil
      · intro first left second right
        split at left
        · split at right
          · rw [List.mem_singleton.mp left, List.mem_singleton.mp right]
            apply apart_of_le
            exact (min_le_right _ _).trans (ordered.trans (le_max_right _ _))
          · exact absurd right List.not_mem_nil
        · exact absurd left List.not_mem_nil
  kind := by
    intro part member
    rcases mem_carve.mp member with ⟨_, rfl⟩ | ⟨_, rfl⟩
    · rfl
    · rfl
  inside := by
    intro part member address covers
    rcases mem_carve.mp member with ⟨_, rfl⟩ | ⟨_, rfl⟩
    · exact ⟨covers.1, covers.2.trans_le (min_le_left _ _)⟩
    · exact ⟨(le_max_left _ _).trans covers.1, covers.2⟩
  kept := by
    intro address covers
    constructor
    · rintro ⟨part, member, around⟩ ⟨above, below⟩
      rcases mem_carve.mp member with ⟨_, rfl⟩ | ⟨_, rfl⟩
      · exact absurd (around.2.trans_le (min_le_right _ _)) (not_lt.mpr above)
      · exact absurd ((le_max_right _ _).trans around.1) (not_le.mpr below)
    · intro outside
      rcases lt_or_ge address low with before | after
      · have inside := lt_min covers.2 before
        exact ⟨_, mem_carve.mpr (Or.inl ⟨covers.1.trans_lt inside, rfl⟩), covers.1, inside⟩
      · have inside := max_le covers.1 (not_lt.mp fun below => outside ⟨after, below⟩)
        exact ⟨_, mem_carve.mpr (Or.inr ⟨inside.trans_lt covers.2, rfl⟩), inside, covers.2⟩

/-- The regions with one more, which takes its place from the others. -/
def override (regions : List (Region α κ)) (region : Region α κ) : List (Region α κ) :=
  regions.flatMap (carve region.low region.high) ++ [region]

theorem Tiles.override {regions : List (Region α κ)} (tiles : Tiles regions)
    {region : Region α κ} (full : region.low < region.high) :
    Tiles (override regions region) := by
  have rest := tiles.map_id.flatMap fun other _ => carve_parts full.le other
  constructor
  · intro part member
    rcases List.mem_append.mp member with old | new
    · exact rest.full part old
    · rw [List.mem_singleton.mp new]
      exact full
  · refine List.pairwise_append.mpr ⟨rest.apart, List.pairwise_singleton _ _, ?_⟩
    intro part member new same address covers
    rcases List.mem_flatMap.mp member with ⟨other, _, piece⟩
    rw [List.mem_singleton.mp same]
    have parts := carve_parts full.le other
    exact (parts.kept address (parts.inside part piece address covers)).mp ⟨part, piece, covers⟩

theorem Tiles.kindAt_override {regions : List (Region α κ)} (tiles : Tiles regions)
    {region : Region α κ} (full : region.low < region.high) :
    kindAt (Region.override regions region) =
      paint (kindAt regions) region.low region.high region.kind := by
  have cuts : ∀ other ∈ regions, Parts other (carve region.low region.high other) fun address =>
      ¬ (region.low ≤ address ∧ address < region.high) :=
    fun other _ => carve_parts full.le other
  funext address
  apply Option.ext
  intro kind
  rw [(tiles.override full).kindAt_eq_some, paint]
  simp only [Region.override, List.mem_append, or_and_right, exists_or, List.mem_singleton,
    exists_eq_left]
  rw [← (tiles.map_id.flatMap cuts).kindAt_eq_some, tiles.map_id.kindAt_flatMap cuts]
  split
  · next inside =>
      rw [Option.some.injEq]
      constructor
      · rintro (⟨_, _, _, _, outside⟩ | new)
        · exact absurd inside outside
        · exact new.2
      · exact fun same => Or.inr ⟨inside, same⟩
  · next outside =>
      rw [tiles.kindAt_eq_some]
      simp only [outside, not_false_eq_true, and_true]
      constructor
      · rintro (old | ⟨covers, _⟩)
        · exact old
        · exact absurd covers outside
      · exact Or.inl

/-- Only a region around both bounds is cut in two. -/
theorem length_carve (low high : α) (region : Region α κ) :
    (carve low high region).length ≤ 1 ∨
      region.low < low ∧ high < region.high ∧ (carve low high region).length ≤ 2 := by
  rw [carve, List.length_append]
  split
  · next left =>
      split
      · next right =>
          right
          exact ⟨left.trans_le (min_le_right _ _), (le_max_right _ _).trans_lt right,
            Nat.le_refl 2⟩
      · exact Or.inl (Nat.le_refl 1)
  · left
    split
    · exact Nat.le_refl 1
    · exact Nat.zero_le 1

/-- Painting over regions that do not meet adds two of them at most. -/
theorem Tiles.length_override {regions : List (Region α κ)} (tiles : Tiles regions)
    {region : Region α κ} (full : region.low < region.high) :
    (Region.override regions region).length ≤ regions.length + 2 := by
  have single : ∀ {others : List (Region α κ)},
      (∀ other ∈ others, (carve region.low region.high other).length ≤ 1) →
      (others.flatMap (carve region.low region.high)).length ≤ others.length := by
    intro others short
    induction others with
    | nil => exact Nat.le_refl 0
    | cons other rest induction =>
        have first := short other List.mem_cons_self
        have later := induction fun next member => short next (List.mem_cons_of_mem _ member)
        rw [List.flatMap_cons, List.length_append, List.length_cons]
        omega
  have parts : (regions.flatMap (carve region.low region.high)).length ≤ regions.length + 1 := by
    induction regions with
    | nil => exact Nat.zero_le _
    | cons other rest induction =>
        rw [List.flatMap_cons, List.length_append, List.length_cons]
        rcases length_carve region.low region.high other with
          one | ⟨below, above, two⟩
        · have later := induction (tiles.sublist (List.sublist_cons_self _ _))
          omega
        · have others : ∀ next ∈ rest, (carve region.low region.high next).length ≤ 1 := by
            intro next member
            rcases length_carve region.low region.high next with
              one | ⟨nextBelow, nextAbove, _⟩
            · exact one
            · exact absurd ⟨nextBelow.le, full.trans nextAbove⟩
                ((List.pairwise_cons.mp tiles.apart).1 next member region.low
                  ⟨below.le, full.trans above⟩)
          have later := single others
          omega
  rw [Region.override, List.length_append, List.length_singleton]
  omega

/-! ## Joining -/

/-- The regions lie one after the other. -/
def Ordered (regions : List (Region α κ)) : Prop :=
  regions.Pairwise fun first second => first.high ≤ second.low

theorem Ordered.tiles {regions : List (Region α κ)} (ordered : Ordered regions)
    (full : ∀ region ∈ regions, region.low < region.high) : Tiles regions :=
  ⟨full, ordered.imp apart_of_le⟩

theorem Tiles.ordered {regions : List (Region α κ)} (tiles : Tiles regions)
    (sorted : regions.Pairwise fun first second => first.low ≤ second.low) : Ordered regions := by
  apply (tiles.apart.and sorted).imp_of_mem
  rintro first second left right ⟨apart, le⟩
  rcases apart.ordered (tiles.full first left) (tiles.full second right) with before | after
  · exact before
  · exact absurd (after.trans le) (not_le.mpr (tiles.full second right))

theorem Ordered.join {region next : Region α κ} {rest : List (Region α κ)}
    (ordered : Ordered (region :: next :: rest)) :
    Ordered ({ region with high := next.high } :: rest) :=
  List.pairwise_cons.mpr
    ⟨(List.pairwise_cons.mp (List.pairwise_cons.mp ordered).2).1,
      (List.pairwise_cons.mp (List.pairwise_cons.mp ordered).2).2⟩

theorem Tiles.join {region next : Region α κ} {rest : List (Region α κ)}
    (tiles : Tiles (region :: next :: rest)) (ordered : Ordered (region :: next :: rest)) :
    Tiles ({ region with high := next.high } :: rest) := by
  apply ordered.join.tiles
  intro joined member
  rcases List.mem_cons.mp member with rfl | old
  · have before := (List.pairwise_cons.mp ordered).1 next List.mem_cons_self
    exact (tiles.full region List.mem_cons_self).trans (before.trans_lt
      (tiles.full next (List.mem_cons_of_mem _ List.mem_cons_self)))
  · exact tiles.full joined (List.mem_cons_of_mem _ (List.mem_cons_of_mem _ old))

theorem Tiles.kindAt_join {region next : Region α κ} {rest : List (Region α κ)}
    (tiles : Tiles (region :: next :: rest)) (ordered : Ordered (region :: next :: rest))
    (same : next.kind = region.kind) (touch : next.low = region.high) :
    kindAt ({ region with high := next.high } :: rest) = kindAt (region :: next :: rest) := by
  have regionFull := tiles.full region List.mem_cons_self
  have nextFull := tiles.full next (List.mem_cons_of_mem _ List.mem_cons_self)
  funext address
  apply Option.ext
  intro kind
  rw [(tiles.join ordered).kindAt_eq_some, tiles.kindAt_eq_some]
  simp only [List.mem_cons, exists_eq_or_imp]
  rw [← or_assoc]
  apply or_congr_left
  constructor
  · rintro ⟨covers, kind⟩
    rcases lt_or_ge address next.low with before | after
    · exact Or.inl ⟨⟨covers.1, touch ▸ before⟩, kind⟩
    · exact Or.inr ⟨⟨after, covers.2⟩, same.trans kind⟩
  · rintro (⟨covers, kind⟩ | ⟨covers, kind⟩)
    · exact ⟨⟨covers.1, covers.2.trans (touch ▸ nextFull)⟩, kind⟩
    · exact ⟨⟨regionFull.le.trans (touch ▸ covers.1), covers.2⟩, same.symm.trans kind⟩

/-- No two regions of one kind that can be joined touch. -/
def Maximal (joins : κ → Bool) (regions : List (Region α κ)) : Prop :=
  ∀ first ∈ regions, ∀ second ∈ regions, joins first.kind → second.kind = first.kind →
    second.low ≠ first.high

/-- A stretch of one kind that can be joined lies in one region. -/
theorem Maximal.whole {joins : κ → Bool} {regions : List (Region α κ)}
    (maximal : Maximal joins regions) (tiles : Tiles regions) {low high : α} {kind : κ} (joinable : joins kind) (full : low < high)
    (same : ∀ address, low ≤ address → address < high → kindAt regions address = some kind) :
    ∃ region ∈ regions, region.low ≤ low ∧ high ≤ region.high ∧ region.kind = kind := by
  rcases tiles.kindAt_eq_some.mp (same low le_rfl full) with ⟨region, member, covers, kinds⟩
  refine ⟨region, member, covers.1, ?_, kinds⟩
  by_contra short
  rw [not_le] at short
  rcases tiles.kindAt_eq_some.mp (same region.high covers.2.le short) with
    ⟨next, nextMember, around, nextKind⟩
  rcases around.1.eq_or_lt with touch | overlap
  · exact maximal region member next nextMember (kinds ▸ joinable) (nextKind.trans kinds.symm)
      touch
  · have apart : region.Apart next := by
      intro address inside meets
      have equal := tiles.unique member nextMember inside meets
      exact lt_irrefl _ (equal ▸ around.2)
    rcases apart.ordered (tiles.full region member) (tiles.full next nextMember) with
      before | after
    · exact absurd overlap (not_lt.mpr before)
    · exact absurd (around.2.trans_le after) (not_lt.mpr (tiles.full region member).le)

section Join

variable [DecidableEq κ] (joins : κ → Bool)

/-- A region and those behind it, with neighbours of one kind that touch made one. -/
def joinFrom (region : Region α κ) : List (Region α κ) → List (Region α κ)
  | [] => [region]
  | next :: rest =>
      if joins region.kind ∧ next.kind = region.kind ∧ next.low = region.high then
        joinFrom { region with high := next.high } rest
      else region :: joinFrom next rest

/-- The first joined region begins where the first one does. -/
theorem joinFrom_cons (region : Region α κ) (rest : List (Region α κ)) :
    ∃ high others, joinFrom joins region rest = { region with high := high } :: others := by
  induction rest generalizing region with
  | nil => exact ⟨region.high, [], rfl⟩
  | cons next rest induction =>
      rw [joinFrom]
      split
      · rcases induction { region with high := next.high } with ⟨high, others, same⟩
        exact ⟨high, others, same⟩
      · exact ⟨region.high, _, rfl⟩

variable {joins}

/-- The bounds of the joined regions are bounds of those before. -/
theorem mem_joinFrom {rest : List (Region α κ)} {region joined : Region α κ}
    (member : joined ∈ joinFrom joins region rest) :
    (∃ first ∈ region :: rest, first.low = joined.low ∧ first.kind = joined.kind) ∧
      ∃ last ∈ region :: rest, last.high = joined.high := by
  induction rest generalizing region with
  | nil =>
      rw [List.mem_singleton.mp member]
      exact ⟨⟨region, List.mem_singleton.mpr rfl, rfl, rfl⟩, region, List.mem_singleton.mpr rfl,
        rfl⟩
  | cons next rest induction =>
      rw [joinFrom] at member
      split at member
      · rcases induction member with ⟨⟨first, firstIn, low⟩, last, lastIn, high⟩
        constructor
        · rcases List.mem_cons.mp firstIn with rfl | firstIn
          · exact ⟨region, List.mem_cons_self, low⟩
          · exact ⟨first, List.mem_cons_of_mem _ (List.mem_cons_of_mem _ firstIn), low⟩
        · rcases List.mem_cons.mp lastIn with rfl | lastIn
          · exact ⟨next, List.mem_cons_of_mem _ List.mem_cons_self, high⟩
          · exact ⟨last, List.mem_cons_of_mem _ (List.mem_cons_of_mem _ lastIn), high⟩
      · rcases List.mem_cons.mp member with rfl | member
        · exact ⟨⟨joined, List.mem_cons_self, rfl, rfl⟩, joined, List.mem_cons_self, rfl⟩
        · rcases induction member with ⟨⟨first, firstIn, low⟩, last, lastIn, high⟩
          exact ⟨⟨first, List.mem_cons_of_mem _ firstIn, low⟩, last,
            List.mem_cons_of_mem _ lastIn, high⟩

/-- Joining changes no kind, and leaves nothing to join. -/
theorem Tiles.joinFrom (joins : κ → Bool) {region : Region α κ} {rest : List (Region α κ)}
    (tiles : Tiles (region :: rest)) (ordered : Ordered (region :: rest)) :
    Tiles (joinFrom joins region rest) ∧ Ordered (Region.joinFrom joins region rest) ∧
      kindAt (Region.joinFrom joins region rest) = kindAt (region :: rest) ∧
      Maximal joins (Region.joinFrom joins region rest) := by
  induction rest generalizing region with
  | nil =>
      refine ⟨tiles, ordered, rfl, ?_⟩
      intro first left second right _ _
      rw [List.mem_singleton.mp left, List.mem_singleton.mp right]
      exact (tiles.full region List.mem_cons_self).ne
  | cons next rest induction =>
      rw [Region.joinFrom]
      split
      · next touching =>
          rw [← tiles.kindAt_join ordered touching.2.1 touching.2.2]
          exact induction (tiles.join ordered) ordered.join
      · next distant =>
          have before := (List.pairwise_cons.mp ordered).1
          rcases induction (tiles.sublist (List.sublist_cons_self _ _))
            (List.pairwise_cons.mp ordered).2 with ⟨restTiles, restOrdered, kinds, maximal⟩
          have behind : ∀ joined ∈ Region.joinFrom joins next rest, region.high ≤ joined.low := by
            intro joined member
            rcases (mem_joinFrom member).1 with ⟨first, firstIn, low, _⟩
            exact low ▸ before first firstIn
          have full : ∀ joined ∈ region :: Region.joinFrom joins next rest,
              joined.low < joined.high := by
            intro joined member
            rcases List.mem_cons.mp member with rfl | later
            · exact tiles.full joined List.mem_cons_self
            · exact restTiles.full joined later
          have arranged : Ordered (region :: Region.joinFrom joins next rest) :=
            List.pairwise_cons.mpr ⟨behind, restOrdered⟩
          refine ⟨arranged.tiles full, arranged, ?_, ?_⟩
          · funext address
            rw [kindAt, kindAt, List.find?_cons, List.find?_cons]
            split
            · rfl
            · exact congrFun kinds address
          · -- only the first two can touch where the head is one of the pair
            rcases joinFrom_cons joins next rest with ⟨high, others, shape⟩
            intro first left second right joinable same
            rcases List.mem_cons.mp left with rfl | inner
            · rcases List.mem_cons.mp right with rfl | right
              · exact (full second List.mem_cons_self).ne
              · rw [shape] at right restOrdered full
                rcases List.mem_cons.mp right with rfl | right
                · exact fun touch => distant ⟨joinable, same, touch⟩
                · have later := (List.pairwise_cons.mp restOrdered).1 second right
                  have start := full { next with high := high }
                    (List.mem_cons_of_mem _ List.mem_cons_self)
                  exact ((before next List.mem_cons_self).trans_lt (start.trans_le later)).ne'
            · rcases List.mem_cons.mp right with rfl | right
              · have later := behind first inner
                exact ((full second List.mem_cons_self).trans_le (later.trans
                  (full first (List.mem_cons_of_mem _ inner)).le)).ne
              · exact maximal first inner second right joinable same

end Join

end Region

end Foundation
