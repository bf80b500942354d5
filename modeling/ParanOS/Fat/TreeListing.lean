import ParanOS.Fat.Listing
import ParanOS.Fat.Serving

/-! # Listings of the tree

`fat32_list_dir_path` on a volume that represents a tree: its code is what the tree has at the
path, and the items of a directory are its children.
-/

namespace ParanOS

open Foundation

/-- What a listing of the path returns. -/
def listCode (tree : VolumeTree) (names : List (List UInt8)) : Int :=
  match tree.node names with
  | some .dir => 0
  | some (.file _) => -3
  | none => if tree.Clear names then -2 else -4

/-- The entries that a listing shows. -/
def shownEntries (entries : List Buffer) : List Buffer :=
  (entries.takeWhile fun de => de 0 ≠ 0x00).filter fun de => Shown de

theorem listItems_eq_map (entries : List Buffer) :
    listItems entries = (shownEntries entries).map listItem := rfl

theorem mem_shownEntries {before after : List Buffer} {de : Buffer}
    (unmarked : ∀ other ∈ before, other 0 ≠ 0x00) (shown : Shown de) :
    de ∈ shownEntries (before ++ de :: after) := by
  rw [shownEntries, List.mem_filter, List.takeWhile_append_of_pos (by simpa using unmarked),
    List.takeWhile_cons_of_pos (by simpa using shown.1.1)]
  simp [shown]

/-- An entry that is shown, or an earlier one of its name, is what a lookup finds. -/
theorem exists_firstMatch {store : ClusterStore} {slots : List Slot} {de : Buffer}
    (shown : de ∈ shownEntries (slots.map (entryAt store))) :
    ∃ slot, FirstMatch (direntName de) store slots slot := by
  rw [shownEntries, List.mem_filter] at shown
  rcases shown with ⟨member, visible⟩
  have used : InUse de := (of_decide_eq_true visible).1
  induction slots with
  | nil => simp at member
  | cons slot rest induction =>
      rw [List.map_cons, List.takeWhile_cons] at member
      by_cases ended : entryAt store slot 0 = 0x00
      · simp [ended] at member
      · rw [if_pos (by simpa using ended)] at member
        by_cases matched : Matched (direntName de) (entryAt store slot)
        · exact ⟨slot, [], rest, rfl, by simp, matched⟩
        · rcases List.mem_cons.mp member with rfl | later
          · exact absurd ⟨used, rfl⟩ matched
          · rcases induction later with ⟨found, before, after, rfl, passed, hit⟩
            refine ⟨found, slot :: before, after, rfl, fun other inside => ?_, hit⟩
            rcases List.mem_cons.mp inside with rfl | inside
            · exact ⟨ended, matched⟩
            · exact passed other inside

section

variable {v : Vol} {sectors : Nat → Buffer} {tree : VolumeTree} {fuel : Nat}
  (represents : Represents v sectors tree) (enough : v.clusterLimit < fuel)
include represents enough

/-- The walk of a listing ends in the directory, or with the code of the tree. -/
theorem listWalk_tree (rest : List (List UInt8)) {comps : List (List UInt8)} {dirCl : Nat}
    {chain : List Nat} (stop : Stop v sectors comps dirCl chain) (maxItems : Nat) :
    (∃ target chain', Stop v sectors (comps ++ rest) target chain' ∧
      listWalk v fuel maxItems rest dirCl (Device.healthy sectors) =
        some ((0, (listItems (chainEntries v (view v v.clusterLimit sectors) chain')).take
          maxItems), Device.healthy sectors)) ∨
    tree.node (pathNames comps ++ pathNames rest) ≠ some .dir ∧
      listWalk v fuel maxItems rest dirCl (Device.healthy sectors) =
        some ((listCode tree (pathNames comps ++ pathNames rest), []),
          Device.healthy sectors) := by
  induction rest generalizing comps dirCl chain with
  | nil =>
      refine .inl ⟨dirCl, chain, by rwa [List.append_nil], ?_⟩
      exact listWalk_here represents.wellFormed.shape.geometry stop.dir.dirChain enough
  | cons comp rest induction =>
      have onward : pathNames comps ++ pathNames (comp :: rest) =
          pathNames (comps ++ [comp]) ++ pathNames rest := by simp
      have below : pathNames comps ++ [makeName83 comp] <+:
          pathNames comps ++ pathNames (comp :: rest) := FileTree.prefix_cons _ _ _
      cases lookup_cases represents enough stop comp with
      | dir found isDir _ stop' =>
          have later := induction stop'
          rw [List.append_assoc, List.singleton_append, ← onward] at later
          rw [listWalk, DiskM.bind_run found]
          dsimp only [hitAt]
          rw [if_pos isDir]
          exact later
      | file found isDir there _ _ _ =>
          right
          rw [listWalk, DiskM.bind_run found]
          dsimp only [hitAt]
          rw [if_neg (Bool.not_eq_true _ ▸ isDir)]
          by_cases last : rest = []
          · subst last
            rw [pathNames_cons, pathNames_nil, listCode, there]
            exact ⟨by simp, rfl⟩
          · have more : rest.isEmpty = false := by simpa using last
            have proper : pathNames comps ++ [makeName83 comp] ≠
                pathNames comps ++ pathNames (comp :: rest) := by
              intro whole
              rw [List.append_cancel_left_eq, pathNames_cons, List.cons.injEq] at whole
              exact last (pathNames_eq_nil.mp whole.2.symm)
            have noDir : tree.node (pathNames comps ++ [makeName83 comp]) ≠ some .dir := by
              simp [there]
            have nothing := FileTree.node_below noDir below proper
            rw [listCode, nothing, more]
            dsimp only
            rw [if_neg (FileTree.not_clear_of_file there below proper)]
            exact ⟨by simp, rfl⟩
      | absent missed _ missing =>
          right
          have clear := FileTree.clear_of_missing (represents.node_stop stop) missing below
          have noDir : tree.node (pathNames comps ++ [makeName83 comp]) ≠ some .dir := by
            simp [missing]
          have nothing : tree.node (pathNames comps ++ pathNames (comp :: rest)) = none := by
            by_cases whole : pathNames comps ++ [makeName83 comp] =
                pathNames comps ++ pathNames (comp :: rest)
            · rw [← whole]
              exact missing
            · exact FileTree.node_below noDir below whole
          rw [listWalk, DiskM.bind_run missed, listCode, nothing]
          dsimp only
          rw [if_pos clear]
          exact ⟨by simp, rfl⟩

omit enough in
/-- A child of the directory is among the entries that are shown, unless its name begins with a
dot. -/
theorem shows_child {comps : List (List UInt8)} {dirCl : Nat} {chain : List Nat}
    (stop : Stop v sectors comps dirCl chain) {comp : List UInt8} {node : FileNode Content}
    (child : tree.node (pathNames comps ++ [makeName83 comp]) = some node)
    (undotted : (makeName83 comp).head? ≠ some 0x2E) :
    ∃ de ∈ shownEntries (chainEntries v (view v v.clusterLimit sectors) chain),
      direntName de = makeName83 comp ∧ direntIsDir de = node.isDir := by
  have matches' : ∃ slot, FirstMatch (makeName83 comp) (view v v.clusterLimit sectors)
      (chainSlots v chain) slot := by
    by_contra none
    rw [represents.node_absent stop fun slot first => none ⟨slot, first⟩] at child
    cases child
  rcases matches' with ⟨slot, first⟩
  rcases represents.node_found stop first with ⟨_, node', found, stands⟩
  rw [child, Option.some.injEq] at found
  subst found
  have matched := first.matched
  refine ⟨entryAt (view v v.clusterLimit sectors) slot, ?_, matched.2, stands.isDir.symm⟩
  rcases first with ⟨before, after, split, passed, _⟩
  rw [chainEntries, split, List.map_append, List.map_cons]
  apply mem_shownEntries
  · intro other member
    rcases List.mem_map.mp member with ⟨earlier, inside, rfl⟩
    exact (passed earlier inside).1
  · refine ⟨matched.1, fun dot => undotted ?_⟩
    rw [← matched.2, direntName, Buffer.bytes, List.range_succ_eq_map]
    simp [dot]

/-- A listing of a path returns what the tree says, and the children of a directory as far as
there is room. -/
theorem fat32ListDirPath_tree (path : CString) {maxItems : Int} (asked : 0 < maxItems) :
    ∃ entries : List Buffer, fat32ListDirPath v fuel path maxItems (Device.healthy sectors) =
        some ((v, listCode tree (pathNames path.components83),
          (entries.map listItem).take maxItems.toNat), Device.healthy sectors) ∧
      (∀ comp node, tree.node (pathNames path.components83 ++ [makeName83 comp]) = some node →
        (makeName83 comp).head? ≠ some 0x2E →
        ∃ de ∈ entries, direntName de = makeName83 comp ∧ direntIsDir de = node.isDir) ∧
      ∀ comp, ∀ de ∈ entries, direntName de = makeName83 comp →
        tree.node (pathNames path.components83 ++ [makeName83 comp]) ≠ none := by
  rcases represents.stop_root with ⟨chain, stop⟩
  have listed : ∀ code items, listWalk v fuel maxItems.toNat path.components83 v.rootClus
      (Device.healthy sectors) = some ((code, items), Device.healthy sectors) →
      fat32ListDirPath v fuel path maxItems (Device.healthy sectors) =
        some ((v, code, items), Device.healthy sectors) := by
    intro code items ran
    simp only [fat32ListDirPath, represents.wellFormed.shape.fat32]
    rw [if_neg (by omega), DiskM.bind_run ran]
    rfl
  have walk := listWalk_tree represents enough path.components83 stop maxItems.toNat
  simp only [List.nil_append, pathNames_nil] at walk
  rcases walk with ⟨target, chain', stop', ran⟩ | ⟨noDir, ran⟩
  · have code : listCode tree (pathNames path.components83) = 0 := by
      rw [listCode, represents.node_stop stop']
    rw [← code, listItems_eq_map] at ran
    refine ⟨_, listed _ _ ran, fun comp node child undotted =>
      shows_child represents stop' child undotted, fun comp de shown named absent => ?_⟩
    rcases exists_firstMatch shown with ⟨slot, first⟩
    rw [named] at first
    rcases represents.node_found stop' first with ⟨_, node, found, _⟩
    rw [absent] at found
    cases found
  · refine ⟨[], ?_, fun comp node child _ => ?_, fun comp de shown => ?_⟩
    · rw [List.map_nil, List.take_nil]
      exact listed _ [] ran
    · have there : tree.node (pathNames path.components83 ++ [makeName83 comp]) ≠ none := by
        simp [child]
      exact absurd (tree.parent _ _ there) noDir
    · exact absurd shown List.not_mem_nil

end

/-- The root of an empty volume can be listed. -/
theorem fat32ListDirPath_tree_small :
    ∃ items, fat32ListDirPath smallVol 13 (.ofArray [0x2F]) 8 (Device.healthy formatted) =
      some ((smallVol, 0, items), Device.healthy formatted) := by
  have enough : smallVol.clusterLimit < 13 := by decide
  have asked : (0 : Int) < 8 := by decide
  rcases fat32ListDirPath_tree formatted_represents enough (.ofArray [0x2F]) asked with
    ⟨entries, ran, _⟩
  exact ⟨_, ran⟩

end ParanOS
