import ParanOS.Exfat.Straddle

/-! # Listed names as names to look up

`exfat_list_dir` copies the first twelve characters of a name into the thirteen bytes of
`name83`. A lookup of this text comes back to the listed set only if nothing was cut off.
-/

namespace ParanOS

open Foundation

/-- The name of a set that was read, as a string. -/
def nameText (found : Place × List UInt8 × EntryInfo) : List UInt8 :=
  found.2.1.takeWhile (· ≠ 0)

/-- What a lookup returns for a set that was read. -/
def located (found : Place × List UInt8 × EntryInfo) : EntryInfo :=
  { found.2.2 with dirCluster := found.1.cl, dirByteOff := found.1.off }

theorem sameName_iff (want : List UInt8) (found : Place × List UInt8 × EntryInfo) :
    sameName want found.2.1 = true ↔ (nameText found).map toUpper = want.map toUpper := by
  rw [sameName, decide_eq_true_eq, nameText]

/-- The listed text is the name of a set of which nothing was cut off. -/
theorem sameName_name83 (found : Place × List UInt8 × EntryInfo) :
    sameName (direntOf found).name83 found.2.1 = true ↔ (nameText found).length ≤ 12 := by
  have listed : (direntOf found).name83 = (nameText found).take 12 := rfl
  rw [sameName_iff, listed]
  constructor
  · intro same
    have lengths := congrArg List.length same
    rw [List.length_map, List.length_map, List.length_take] at lengths
    omega
  · intro short
    rw [List.take_of_length_le short]

/-! ## The sets of different slots -/

section

variable {v : Vol} {store : ClusterStore}

theorem seen_sublist (places : List Place) :
    ((seen v store places).map Prod.fst).Sublist places := by
  induction places with
  | nil => exact .slnil
  | cons place places induction =>
      rw [seen]
      split
      · exact List.nil_sublist _
      · cases setAt v store place with
        | none => exact induction.cons place
        | some set => exact induction.cons_cons place

theorem seen_setAt {places : List Place} {found : Place × List UInt8 × EntryInfo}
    (member : found ∈ seen v store places) : setAt v store found.1 = some found.2 := by
  induction places with
  | nil => cases member
  | cons place places induction =>
      rw [seen] at member
      split at member
      · cases member
      · cases parsed : setAt v store place with
        | none =>
            rw [parsed] at member
            exact induction member
        | some set =>
            rw [parsed] at member
            cases List.mem_cons.mp member with
            | inl here => exact here ▸ parsed
            | inr later => exact induction later

theorem seen_inj {places : List Place} {first second : Place × List UInt8 × EntryInfo}
    (firstIn : first ∈ seen v store places) (secondIn : second ∈ seen v store places)
    (same : first.1 = second.1) : first = second := by
  have parsed := seen_setAt firstIn
  rw [same, seen_setAt secondIn, Option.some.injEq] at parsed
  exact Prod.ext same parsed.symm

theorem seen_nodup {places : List Place} (distinct : places.Nodup) :
    (seen v store places).Nodup :=
  (distinct.sublist (seen_sublist places)).of_map Prod.fst

/-- A lookup returns a set that the walk reads exactly if it is the first of the name. -/
theorem lookup_eq_located {places : List Place} (want : List UInt8)
    {found : Place × List UInt8 × EntryInfo} (member : found ∈ seen v store places) :
    lookup v store want places = .ok (located found) ↔
      (seen v store places).find? (fun set => sameName want set.2.1) = some found := by
  have search := @lookup_seen v store want places
  constructor
  · intro returned
    cases first : (seen v store places).find? fun set => sameName want set.2.1 with
    | none =>
        rcases search.2 first with ⟨code, failed⟩
        rw [failed] at returned
        cases returned
    | some other =>
        rw [search.1 other first, Except.ok.injEq] at returned
        have cluster := congrArg EntryInfo.dirCluster returned
        have offset := congrArg EntryInfo.dirByteOff returned
        rw [seen_inj (List.mem_of_find?_eq_some first) member (congrArg₂ Place.mk cluster offset)]
  · exact search.1 found

end

/-! ## Opening a listed set -/

/-- A listing reports the sets that the driver reads, in order and as long as there is room.
The lookup of a listed text returns the listed set exactly if its name has at most twelve
characters and none of the sets read before it has the same name up to case. -/
theorem exfatListDir_finds_iff {v : Vol} (shape : ExfatGeometry v) {sectors : Nat → Buffer}
    {start fuel : Nat} {chain : List Nat}
    (linked : Linked (exfatView v sectors).next EndOfChain start chain)
    (data : ∀ cl ∈ chain, DataCluster (v.exfatClusterCount + 2) cl)
    (enough : chain.length < fuel) (maxItems : Nat) :
    exfatListDir v maxItems fuel start [] (Device.healthy sectors) =
        some ((0, ((seen v (exfatView v sectors) (chainPlaces v chain)).take maxItems).map
          direntOf), Device.healthy sectors) ∧
      ∀ before found after,
        seen v (exfatView v sectors) (chainPlaces v chain) = before ++ found :: after →
        ((∃ v', exfatFindInDir (direntOf found).name83 fuel start v (Device.healthy sectors) =
            some ((v', .ok (located found)), Device.healthy sectors)) ↔
          (nameText found).length ≤ 12 ∧
            ∀ earlier ∈ before, (nameText earlier).map toUpper ≠ (nameText found).map toUpper) := by
  refine ⟨exfatListDir_seen shape maxItems linked data enough [], ?_⟩
  intro before found after split
  have member : found ∈ seen v (exfatView v sectors) (chainPlaces v chain) := by
    rw [split]
    simp
  have fresh : found ∉ before := by
    have distinct := @seen_nodup v (exfatView v sectors) _ (@chainPlaces_nodup v _ linked.nodup)
    rw [split, List.nodup_append] at distinct
    intro earlier
    exact distinct.2.2 found earlier found (by simp) rfl
  have returns : (∃ v', exfatFindInDir (direntOf found).name83 fuel start v
        (Device.healthy sectors) = some ((v', .ok (located found)), Device.healthy sectors)) ↔
      lookup v (exfatView v sectors) (direntOf found).name83 (chainPlaces v chain) =
        .ok (located found) := by
    rcases exfatFindInDir_search shape (direntOf found).name83 linked data enough with
      ⟨v', _, run⟩
    rw [run]
    simp
  rw [returns, lookup_eq_located _ member, ← sameName_name83, split, List.find?_append]
  constructor
  · intro first
    have holds : sameName (direntOf found).name83 found.2.1 = true := by
      rw [← List.find?_append] at first
      have hit := List.find?_some first
      exact hit
    cases early : before.find? fun set => sameName (direntOf found).name83 set.2.1 with
    | some other =>
        rw [early, Option.some_or, Option.some.injEq] at first
        exact absurd (first ▸ List.mem_of_find?_eq_some early) fresh
    | none =>
        rw [List.find?_eq_none] at early
        refine ⟨holds, ?_⟩
        intro earlier earlierIn same
        apply early earlier earlierIn
        rw [sameName_iff, same, ← sameName_iff]
        exact holds
  · rintro ⟨holds, others⟩
    have none : before.find? (fun set => sameName (direntOf found).name83 set.2.1) = none := by
      rw [List.find?_eq_none]
      intro earlier earlierIn same
      rw [sameName_iff] at same
      exact others earlier earlierIn (same.trans ((sameName_iff _ _).mp holds).symm)
    rw [none, Option.none_or, List.find?_cons, holds]

/-! ## A directory with a long and a short name -/

/-- `NOTEBOOK1.TXT`, of thirteen characters. -/
def longName : List UInt8 :=
  [0x4E, 0x4F, 0x54, 0x45, 0x42, 0x4F, 0x4F, 0x4B, 0x31, 0x2E, 0x54, 0x58, 0x54]

/-- The sets of the files `NOTEBOOK1.TXT` and `B`. -/
def notedSets : List FileSet :=
  [.built longName 7 100 false (by decide) (by decide),
    .built [0x42] 8 5 false letterB_ne_nil letterB_short]

/-- The directory with these sets in cluster 5. -/
def notedImage : Nat → Buffer := fun lba =>
  if lba = 1 then Buffer.putU32 (fun _ => 0) 20 eocMark
  else if lba = 5 then fun index =>
    if index < 96 then builtSet longName 7 100 false index
    else if index < 192 then builtSet [0x42] 8 5 false (index - 96)
    else 0
  else fun _ => 0

theorem notedImage_directory : DirectoryOf exfatVol notedImage 5 [5] notedSets where
  shape := exfatVol_shape
  linked := .cons (by decide) (.nil (by decide))
  data := by
    intro cl member
    rw [List.mem_singleton.mp member]
    exact ⟨by decide, by decide⟩
  laid := ⟨by decide +kernel, by decide +kernel, by decide +kernel, by decide +kernel, by
    intro _
    decide⟩

/-- What the driver reads of it. -/
theorem notedImage_seen :
    seen exfatVol (exfatView exfatVol notedImage) (chainPlaces exfatVol [5]) =
      [(⟨5, 0⟩, longName, ⟨7, 100, false, 0, 0⟩), (⟨5, 96⟩, [0x42], ⟨8, 5, false, 0, 0⟩)] := by
  rw [notedImage_directory.seen_eq]
  decide

/-- The file `B` is found by its listed name. -/
theorem exfatListDir_finds_iff_short :
    ∃ v', exfatFindInDir [0x42] 2 5 exfatVol (Device.healthy notedImage) =
      some ((v', .ok ⟨8, 5, false, 5, 96⟩), Device.healthy notedImage) :=
  ((exfatListDir_finds_iff exfatVol_shape notedImage_directory.linked notedImage_directory.data
    (show 1 < 2 by decide) 2).2 [(⟨5, 0⟩, longName, ⟨7, 100, false, 0, 0⟩)]
    (⟨5, 96⟩, [0x42], ⟨8, 5, false, 0, 0⟩) [] notedImage_seen).mpr (by decide)

/-- `NOTEBOOK1.TXT` is listed as `NOTEBOOK1.TX`, and no file of this name is found. -/
theorem exfatListDir_cuts_name :
    ¬ ∀ (v : Vol) (sectors : Nat → Buffer) (start fuel : Nat) (chain : List Nat)
      (sets : List FileSet), DirectoryOf v sectors start chain sets → chain.length < fuel →
      (sets.map fun set => set.name.map upperUnit).Nodup → ∀ maxItems items,
        exfatListDir v maxItems fuel start [] (Device.healthy sectors) =
          some ((0, items), Device.healthy sectors) → ∀ item ∈ items, ∃ v' info,
        exfatFindInDir item.name83 fuel start v (Device.healthy sectors) =
          some ((v', .ok info), Device.healthy sectors) := by
  intro claim
  have listed := exfatListDir_seen exfatVol_shape 2 notedImage_directory.linked
    notedImage_directory.data (show 1 < 2 by decide) []
  rw [notedImage_seen] at listed
  rcases claim exfatVol notedImage 5 2 [5] notedSets notedImage_directory (by decide)
    (by decide +kernel) 2 _ listed _ (.head _) with ⟨v', info, run⟩
  have text : (direntOf (⟨5, 0⟩, longName, ⟨7, 100, false, 0, 0⟩)).name83 = longName.take 12 := by
    decide
  have observed : (exfatFindInDir (longName.take 12) 2 5 exfatVol
      (Device.healthy notedImage)).map (fun result => result.1.2.isOk) = some false := by
    decide +kernel
  rw [text] at run
  rw [run] at observed
  cases observed

end ParanOS
