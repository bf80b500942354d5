import Mathlib.Data.List.Infix

/-! # Trees of files

A tree says of every path whether a directory or a file is there, and which content the
file has. Below a path there is something only if the path is a directory. The one
operation places a directory or a file at a path and makes the directories that are
missing above it. A store with limited room may stop halfway, with some of the
directories made.
-/

namespace Foundation

inductive FileNode (γ : Type) where
  | dir
  | file (content : γ)

def FileNode.isDir {γ : Type} : FileNode γ → Bool
  | dir => true
  | file _ => false

def FileNode.content? {γ : Type} : FileNode γ → Option γ
  | dir => none
  | file content => some content

theorem FileNode.eq_dir {γ : Type} {node : FileNode γ} (isDir : node.isDir = true) :
    node = .dir := by
  cases node with
  | dir => rfl
  | file content => cases isDir

structure FileTree (ν γ : Type) where
  node : List ν → Option (FileNode γ)
  root : node [] = some .dir
  parent : ∀ path name, node (path ++ [name]) ≠ none → node path = some .dir

namespace FileTree

variable {ν γ : Type}

/-- Nothing but the root. -/
def bare : FileTree ν γ where
  node path := if path.isEmpty then some .dir else none
  root := rfl
  parent := by simp

/-- No file is above the path. -/
def Clear (tree : FileTree ν γ) (path : List ν) : Prop :=
  ∀ front ∈ path.inits, front ≠ path → (tree.node front).all FileNode.isDir = true

instance [DecidableEq ν] (tree : FileTree ν γ) (path : List ν) : Decidable (tree.Clear path) :=
  inferInstanceAs (Decidable (∀ front ∈ path.inits, _))

/-- The node can be placed: no file is above the path, and what is there is of its kind. -/
structure Placeable (tree : FileTree ν γ) (path : List ν) (node : FileNode γ) : Prop where
  clear : tree.Clear path
  fits : ∀ old, tree.node path = some old → old.isDir = node.isDir

variable {tree other : FileTree ν γ} {path front : List ν} {name : ν} {node : FileNode γ}

theorem ext_node (same : tree.node = other.node) : tree = other := by
  cases tree
  cases other
  cases same
  rfl

/-- Everything above something is a directory. -/
theorem dir_above (there : tree.node path ≠ none) (above : front <+: path)
    (proper : front ≠ path) : tree.node front = some .dir := by
  rcases above with ⟨rest, rfl⟩
  induction rest using List.reverseRecOn with
  | nil => simp at proper
  | append_singleton rest last induction =>
      rw [← List.append_assoc] at there
      have dir := tree.parent _ _ there
      by_cases whole : rest = []
      · rw [whole, List.append_nil] at dir
        exact dir
      · apply induction
        · simp [dir]
        · simpa using whole

/-- So is everything on the way to a directory. -/
theorem dir_within (dir : tree.node path = some .dir) (above : front <+: path) :
    tree.node front = some .dir := by
  by_cases same : front = path
  · rw [same]
    exact dir
  · exact dir_above (by simp [dir]) above same

/-- Below anything but a directory there is nothing. -/
theorem node_below (noDir : tree.node path ≠ some .dir) {target : List ν} (below : path <+: target)
    (proper : path ≠ target) : tree.node target = none := by
  by_contra there
  exact noDir (dir_above there below proper)

/-- Behind a name that is missing in a directory there is nothing in the way. -/
theorem clear_of_missing (dir : tree.node path = some .dir)
    (missing : tree.node (path ++ [name]) = none) {target : List ν}
    (below : path ++ [name] <+: target) : tree.Clear target := by
  intro front above proper
  rcases List.prefix_or_prefix_of_prefix ((List.mem_inits _ _).mp above) below with upper | under
  · rcases List.prefix_concat_iff.mp upper with whole | upper
    · rw [whole, missing]
      rfl
    · rw [dir_within dir upper]
      rfl
  · by_cases same : path ++ [name] = front
    · rw [← same, missing]
      rfl
    · rw [node_below (by simp [missing]) under same]
      rfl

/-- A file above the path is in the way. -/
theorem not_clear_of_file {content : γ} (file : tree.node front = some (.file content))
    (above : front <+: path) (proper : front ≠ path) : ¬ tree.Clear path := by
  intro clear
  have isDir := clear front ((List.mem_inits _ _).mpr above) proper
  rw [file] at isDir
  cases isDir

theorem Placeable.of_there (there : tree.node path = some node) : tree.Placeable path node := by
  constructor
  · intro front above proper
    rw [dir_above (by simp [there]) ((List.mem_inits _ _).mp above) proper]
    rfl
  · intro old same
    rw [there, Option.some.injEq] at same
    rw [same]

/-- Under a directory there is room for a new node. -/
theorem Placeable.of_parent (dir : tree.node path = some .dir)
    (fits : ∀ old, tree.node (path ++ [name]) = some old → old.isDir = node.isDir) :
    tree.Placeable (path ++ [name]) node := by
  refine ⟨fun front above proper => ?_, fits⟩
  rcases List.prefix_concat_iff.mp ((List.mem_inits _ _).mp above) with whole | above
  · exact absurd whole proper
  · rw [dir_within dir above]
    rfl

/-- Behind a name that is missing in a directory everything can be placed. -/
theorem Placeable.of_missing (dir : tree.node path = some .dir)
    (missing : tree.node (path ++ [name]) = none) {target : List ν}
    (below : path ++ [name] <+: target) : tree.Placeable target node := by
  refine ⟨clear_of_missing dir missing below, fun old there => ?_⟩
  by_cases same : path ++ [name] = target
  · rw [← same, missing] at there
    cases there
  · rw [node_below (by simp [missing]) below same] at there
    cases there

/-- A file is in the way of all that is below it, and of a directory in its place. -/
theorem not_placeable_of_file {content : γ} (file : tree.node front = some (.file content))
    (above : front <+: path) (kind : front = path → node = .dir) :
    ¬ tree.Placeable path node := by
  intro placeable
  by_cases same : front = path
  · have isDir := placeable.fits _ (same ▸ file)
    rw [kind same] at isDir
    cases isDir
  · exact not_clear_of_file file above same placeable.clear

theorem not_placeable_of_dir {content : γ} (dir : tree.node path = some .dir) :
    ¬ tree.Placeable path (.file content) := by
  intro placeable
  cases placeable.fits _ dir

theorem prefix_cons (path : List ν) (name : ν) (rest : List ν) :
    path ++ [name] <+: path ++ name :: rest :=
  ⟨rest, (List.append_cons path name rest).symm⟩

/-! ## Placing a node -/

section

variable [DecidableEq ν] (tree) (path) (node)

def placeNode (front : List ν) : Option (FileNode γ) :=
  if front = path then some node
  else if front <+: path ∧ tree.node front = none then some .dir
  else tree.node front

variable {tree path node}

theorem placeNode_above (placeable : tree.Placeable path node) (above : front <+: path)
    (proper : front ≠ path) : tree.placeNode path node front = some .dir := by
  rw [placeNode, if_neg proper]
  cases there : tree.node front with
  | none => simp [above]
  | some old =>
      have isDir := placeable.clear front ((List.mem_inits _ _).mpr above) proper
      rw [there, Option.all_some] at isDir
      rw [if_neg (by simp), FileNode.eq_dir isDir]

theorem placeNode_root (placeable : tree.Placeable path node) :
    tree.placeNode path node [] = some .dir := by
  by_cases here : [] = path
  · have same := placeable.fits .dir (by rw [← here, tree.root])
    rw [placeNode, if_pos here, FileNode.eq_dir same.symm]
  · exact placeNode_above placeable List.nil_prefix here

theorem placeNode_parent (placeable : tree.Placeable path node) (front : List ν) (last : ν)
    (there : tree.placeNode path node (front ++ [last]) ≠ none) :
    tree.placeNode path node front = some .dir := by
  by_cases above : front ++ [last] <+: path
  · apply placeNode_above placeable ((List.prefix_append front [last]).trans above)
    intro whole
    have length := above.length_le
    rw [whole, List.length_append, List.length_singleton] at length
    omega
  · have outside : front ++ [last] ≠ path := fun whole => above (whole ▸ List.prefix_refl path)
    rw [placeNode, if_neg outside, if_neg fun both => above both.1] at there
    have dir := tree.parent front last there
    rw [placeNode]
    by_cases here : front = path
    · rw [if_pos here, FileNode.eq_dir (placeable.fits .dir (here ▸ dir)).symm]
    · rw [if_neg here, dir, if_neg (by simp)]

/-- The node at the path, and all that is above it as directories. -/
def place (placeable : tree.Placeable path node) : FileTree ν γ where
  node := tree.placeNode path node
  root := placeNode_root placeable
  parent := placeNode_parent placeable

theorem place_node (placeable : tree.Placeable path node) (front : List ν) :
    (tree.place placeable).node front = tree.placeNode path node front := rfl

/-- Under a directory only the new node is new. -/
theorem place_node_of_parent (placeable : tree.Placeable (path ++ [name]) node)
    (dir : tree.node path = some .dir) (front : List ν) :
    (tree.place placeable).node front =
      if front = path ++ [name] then some node else tree.node front := by
  rw [place_node, placeNode]
  by_cases here : front = path ++ [name]
  · rw [if_pos here, if_pos here]
  · rw [if_neg here, if_neg here, if_neg]
    rintro ⟨above, missing⟩
    rcases List.prefix_concat_iff.mp above with whole | above
    · exact here whole
    · rw [dir_within dir above] at missing
      cases missing

/-- A directory that is there is placed without effect. -/
theorem place_dir (placeable : tree.Placeable path .dir) (dir : tree.node path = some .dir) :
    tree.place placeable = tree := by
  apply ext_node
  funext front
  rw [place_node, placeNode]
  by_cases here : front = path
  · rw [if_pos here, here, dir]
  · rw [if_neg here, if_neg]
    rintro ⟨above, missing⟩
    rw [dir_within dir above] at missing
    cases missing

/-- A directory made on the way makes no difference to what is placed below it. -/
theorem place_place {inner : FileNode γ} (dir : tree.node path = some .dir)
    (first : tree.Placeable (path ++ [name]) .dir) {target : List ν}
    (below : path ++ [name] <+: target)
    (second : (tree.place first).Placeable target inner) (direct : tree.Placeable target inner) :
    (tree.place first).place second = tree.place direct := by
  apply ext_node
  funext front
  rw [place_node, place_node, placeNode, placeNode, place_node_of_parent first dir]
  by_cases whole : front = target
  · rw [if_pos whole, if_pos whole]
  · rw [if_neg whole, if_neg whole]
    by_cases here : front = path ++ [name]
    · have above : front <+: target := here ▸ below
      rw [if_pos here, if_neg (by simp)]
      by_cases missing : tree.node front = none
      · rw [if_pos ⟨above, missing⟩]
      · rw [if_neg fun both => missing both.2]
        rcases Option.ne_none_iff_exists'.mp missing with ⟨old, there⟩
        have isDir := direct.clear front ((List.mem_inits _ _).mpr above) whole
        rw [there, Option.all_some] at isDir
        rw [there, FileNode.eq_dir isDir]
    · rw [if_neg here]

end

/-! ## A store with limited room -/

/-- How a request to place a node ends: it is served, refused when something is in the way,
or cut short by a shortage behind some of the directories. -/
inductive Serves [DecidableEq ν] (scarce : List ν → Prop) (tree : FileTree ν γ) (path : List ν)
    (node : FileNode γ) : Bool → FileTree ν γ → Prop
  | placed (placeable : tree.Placeable path node) :
      Serves scarce tree path node true (tree.place placeable)
  | refused : ¬ tree.Placeable path node → Serves scarce tree path node false tree
  | short {front name rest} : path = front ++ name :: rest → tree.Placeable path node →
      tree.node (front ++ [name]) ≠ some .dir → scarce front →
      (made : tree.Placeable front .dir) → Serves scarce tree path node false (tree.place made)

namespace Serves

variable [DecidableEq ν] {scarce : List ν → Prop} {served : Bool} {after : FileTree ν γ}

/-- A directory that is there need not be made. -/
theorem dir_here (dir : tree.node path = some .dir) : Serves scarce tree path .dir true tree := by
  have placed : Serves scarce tree path .dir true _ := .placed (.of_there dir)
  rwa [place_dir _ dir] at placed

/-- A shortage in a directory that is there. -/
theorem short_here {rest : List ν} (dir : tree.node path = some .dir)
    (placeable : tree.Placeable (path ++ name :: rest) node)
    (missing : tree.node (path ++ [name]) ≠ some .dir) (shortage : scarce path) :
    Serves scarce tree (path ++ name :: rest) node false tree := by
  have short := Serves.short rfl placeable missing shortage (.of_there dir)
  rwa [place_dir _ dir] at short

/-- What is served after a directory on the way has been made is served as a whole. -/
theorem after_place {target : List ν} (dir : tree.node path = some .dir)
    (missing : tree.node (path ++ [name]) = none) (below : path ++ [name] <+: target)
    (kind : path ++ [name] = target → node = .dir)
    (first : tree.Placeable (path ++ [name]) .dir)
    (serves : Serves scarce (tree.place first) target node served after) :
    Serves scarce tree target node served after := by
  have nodes := place_node_of_parent first dir
  have nothing : ∀ front, path ++ [name] <+: front → tree.node front = none := by
    intro front under
    by_cases same : path ++ [name] = front
    · exact same ▸ missing
    · exact node_below (by simp [missing]) under same
  have direct : tree.Placeable target node := .of_missing dir missing below
  cases serves with
  | placed placeable =>
      rw [place_place dir first below placeable direct]
      exact .placed direct
  | refused blocked =>
      refine absurd ⟨?_, ?_⟩ blocked
      · intro front above proper
        rw [nodes]
        by_cases here : front = path ++ [name]
        · rw [if_pos here]
          rfl
        · rw [if_neg here]
          exact direct.clear front above proper
      · intro old there
        rw [nodes] at there
        by_cases here : target = path ++ [name]
        · rw [if_pos here, Option.some.injEq] at there
          rw [← there, kind here.symm]
        · rw [if_neg here] at there
          exact direct.fits old there
  | @short front next rest split placeable notDir shortage made =>
      have within : front ++ [next] <+: target := split ▸ prefix_cons front next rest
      -- the walk came at least as far as the new directory
      have under : path ++ [name] <+: front := by
        rcases List.prefix_or_prefix_of_prefix below within with under | upper
        · rcases List.prefix_concat_iff.mp under with whole | under
          · rw [← whole, nodes, if_pos rfl] at notDir
            exact absurd rfl notDir
          · exact under
        · have there : (tree.place first).node (path ++ [name]) = some .dir := by
            rw [nodes, if_pos rfl]
          exact absurd (dir_within there upper) notDir
      have notDir' : tree.node (front ++ [next]) ≠ some .dir := by
        rw [nothing _ (under.trans (List.prefix_append _ _))]
        simp
      have made' : tree.Placeable front .dir := by
        constructor
        · intro above member proper
          apply direct.clear above ((List.mem_inits _ _).mpr ?_) ?_
          · exact ((List.mem_inits _ _).mp member).trans ((List.prefix_append _ _).trans within)
          · intro whole
            have length := ((List.mem_inits _ _).mp member).length_le
            rw [whole, split, List.length_append, List.length_cons] at length
            omega
        · intro old there
          rw [nothing front under] at there
          cases there
      rw [place_place dir first under made made']
      exact .short split direct notDir' shortage made'

end Serves

/-! ## The files of a tree -/

/-- The content of the file at the path. -/
def fileAt (tree : FileTree ν γ) (path : List ν) : Option γ :=
  (tree.node path).bind FileNode.content?

/-- Where a directory can be placed is no file. -/
theorem Placeable.fileAt_dir (placeable : tree.Placeable path .dir) : tree.fileAt path = none := by
  rw [fileAt]
  cases there : tree.node path with
  | none => rfl
  | some old =>
      rw [FileNode.eq_dir (placeable.fits old there)]
      rfl

/-- Nothing else becomes a file, and every other file stays. -/
theorem place_fileAt [DecidableEq ν] (placeable : tree.Placeable path node) (front : List ν) :
    (tree.place placeable).fileAt front =
      (if front = path then node.content? else none).or (tree.fileAt front) := by
  by_cases here : front = path
  · rw [if_pos here, fileAt, place_node, placeNode, if_pos here, Option.bind_some, here]
    cases node with
    | dir =>
        rw [placeable.fileAt_dir]
        rfl
    | file content => rfl
  · rw [if_neg here, Option.none_or, fileAt, place_node, placeNode, if_neg here, fileAt]
    by_cases made : front <+: path ∧ tree.node front = none
    · rw [if_pos made, made.2]
      rfl
    · rw [if_neg made]

/-- Directories stay. -/
theorem place_keeps_dir [DecidableEq ν] (placeable : tree.Placeable path node) {front : List ν}
    (dir : tree.node front = some .dir) : (tree.place placeable).node front = some .dir := by
  rw [place_node, placeNode]
  by_cases here : front = path
  · have isDir := placeable.fits .dir (here ▸ dir)
    rw [if_pos here, FileNode.eq_dir isDir.symm]
  · rw [if_neg here, if_neg (by simp [dir])]
    exact dir

theorem Serves.keeps_dir [DecidableEq ν] {scarce : List ν → Prop} {served : Bool}
    {after : FileTree ν γ} (serves : Serves scarce tree path node served after) {front : List ν}
    (dir : tree.node front = some .dir) : after.node front = some .dir := by
  cases serves with
  | placed placeable => exact place_keeps_dir placeable dir
  | refused _ => exact dir
  | short _ _ _ _ made => exact place_keeps_dir made dir

theorem Serves.fileAt [DecidableEq ν] {scarce : List ν → Prop} {served : Bool}
    {after : FileTree ν γ} (serves : Serves scarce tree path node served after) (front : List ν) :
    after.fileAt front =
      (if served = true ∧ front = path then node.content? else none).or (tree.fileAt front) := by
  cases serves with
  | placed placeable => simp [place_fileAt]
  | refused _ => simp
  | short _ _ _ _ made => simp [place_fileAt, FileNode.content?]

end FileTree

end Foundation
