import ParanOS.Foundation.FileTree
import ParanOS.Fat.Growth

/-! # The volume as a tree of files

What a volume is for, without sectors, clusters and slots: a tree of files under 8.3 names. The
content of a file is what reading it returns, for every number of bytes that may be asked for.
A volume represents a tree if the paths lead to what the tree has. One edit of a directory is
then one node placed in the tree.
-/

namespace ParanOS

open Foundation

/-- What reading a file returns for every `max_bytes`. -/
abbrev Content := Nat → ReadResult

abbrev VolumeTree := FileTree (List UInt8) Content

/-- The content of a file that was written: what fits into one cluster. -/
def storedContent (v : Vol) (data : List UInt8) : Content := fun maxBytes =>
  ⟨0, min (min data.length v.clusterBytes) maxBytes, (data.take v.clusterBytes).take maxBytes⟩

/-- The 8.3 names of the components. -/
def pathNames (comps : List (List UInt8)) : List (List UInt8) := comps.map makeName83

@[simp] theorem pathNames_nil : pathNames [] = [] := rfl

@[simp] theorem pathNames_cons (comp : List UInt8) (rest : List (List UInt8)) :
    pathNames (comp :: rest) = makeName83 comp :: pathNames rest := rfl

@[simp] theorem pathNames_append (comps rest : List (List UInt8)) :
    pathNames (comps ++ rest) = pathNames comps ++ pathNames rest := List.map_append

theorem pathNames_eq_nil {comps : List (List UInt8)} : pathNames comps = [] ↔ comps = [] :=
  List.map_eq_nil_iff

/-- What the entry in a slot stands for. -/
inductive StandsFor (v : Vol) (limit : Nat) (store : ClusterStore) (slot : Slot) :
    FileNode Content → Prop
  | dir : direntIsDir (entryAt store slot) = true → StandsFor v limit store slot .dir
  | file {chain} : direntIsDir (entryAt store slot) = false →
      Chain limit store (ownerStart v store (some slot)) chain →
      StandsFor v limit store slot
        (.file fun maxBytes => entryResult v store slot maxBytes chain)

/-- What is at a path of 8.3 names. -/
inductive Shows (v : Vol) (limit : Nat) (store : ClusterStore) :
    List (List UInt8) → FileNode Content → Prop
  | root : Shows v limit store [] .dir
  | entry {comps slot node} : Resolves v store v.rootClus comps slot →
      StandsFor v limit store slot node → Shows v limit store (pathNames comps) node

structure Represents (v : Vol) (sectors : Nat → Buffer) (tree : VolumeTree) : Prop where
  wellFormed : WellFormed v sectors
  orderly : Orderly v v.clusterLimit (view v v.clusterLimit sectors)
  nodes : ∀ names node, tree.node names = some node ↔
    Shows v v.clusterLimit (view v v.clusterLimit sectors) names node

theorem StandsFor.unique {v : Vol} {limit : Nat} {store : ClusterStore} {slot : Slot}
    {node other : FileNode Content} (first : StandsFor v limit store slot node)
    (second : StandsFor v limit store slot other) : node = other := by
  cases first with
  | dir isDir =>
      cases second with
      | dir _ => rfl
      | file notDir _ => simp [isDir] at notDir
  | file notDir holds =>
      cases second with
      | dir isDir => simp [isDir] at notDir
      | file _ holds' => rw [holds.unique holds']

theorem StandsFor.isDir {v : Vol} {limit : Nat} {store : ClusterStore} {slot : Slot}
    {node : FileNode Content} (stands : StandsFor v limit store slot node) :
    node.isDir = direntIsDir (entryAt store slot) := by
  cases stands with
  | dir isDir => exact isDir.symm
  | file notDir _ => exact notDir.symm

theorem Owned.standsFor {v : Vol} {limit : Nat} {store : ClusterStore} {slot : Slot}
    (owned : Owned v limit store) (live : Live v store (some slot)) :
    ∃ node, StandsFor v limit store slot node := by
  cases isDir : direntIsDir (entryAt store slot) with
  | true => exact ⟨_, .dir isDir⟩
  | false =>
      rcases owned.tenancy.held (some slot) live with ⟨chain, holds⟩
      exact ⟨_, .file isDir holds⟩

theorem Shows.of_ne_nil {v : Vol} {limit : Nat} {store : ClusterStore}
    (comps : List (List UInt8)) {node : FileNode Content}
    (shows : Shows v limit store (pathNames comps) node) (more : comps ≠ []) :
    ∃ slot, Resolves v store v.rootClus comps slot ∧ StandsFor v limit store slot node := by
  generalize named : pathNames comps = names at shows
  cases shows with
  | root => exact absurd (pathNames_eq_nil.mp named) more
  | entry resolved stands => exact ⟨_, resolved.congr named.symm, stands⟩

theorem Shows.unique {v : Vol} {limit : Nat} {store : ClusterStore} {names : List (List UInt8)}
    {node other : FileNode Content} (first : Shows v limit store names node)
    (second : Shows v limit store names other) : node = other := by
  cases first with
  | root =>
      generalize named : [] = names at second
      cases second with
      | root => rfl
      | entry resolved _ =>
          rw [pathNames_eq_nil.mp named.symm] at resolved
          cases resolved
  | @entry comps slot _ resolved stands =>
      have more : comps ≠ [] := by
        rintro rfl
        cases resolved
      rcases second.of_ne_nil comps more with ⟨slot', resolved', stands'⟩
      rw [resolved.unique resolved'] at stands
      exact stands.unique stands'

/-- What is below a path is below a directory. -/
theorem Shows.parent {v : Vol} {limit : Nat} {store : ClusterStore} {path : List (List UInt8)}
    {name : List UInt8} {node : FileNode Content}
    (shows : Shows v limit store (path ++ [name]) node) : Shows v limit store path .dir := by
  generalize named : path ++ [name] = names at shows
  cases shows with
  | root => simp at named
  | @entry comps _ _ resolved _ =>
      rcases List.eq_nil_or_concat' comps with rfl | ⟨front, last, rfl⟩
      · cases resolved
      · rw [pathNames_append] at named
        rw [(List.append_inj' named rfl).1]
        rcases resolved.snoc with ⟨_, _, ⟨rfl, _⟩ | ⟨slot, above, isDir, _⟩, _⟩
        · exact .root
        · exact .entry above (.dir isDir)

/-- A volume represents some tree. -/
theorem exists_represents {v : Vol} {sectors : Nat → Buffer} (wellFormed : WellFormed v sectors)
    (orderly : Orderly v v.clusterLimit (view v v.clusterLimit sectors)) :
    ∃ tree, Represents v sectors tree := by
  have some_node : ∀ names, ∃ found : Option (FileNode Content), ∀ node, found = some node ↔
      Shows v v.clusterLimit (view v v.clusterLimit sectors) names node := by
    intro names
    by_cases there : ∃ node, Shows v v.clusterLimit (view v v.clusterLimit sectors) names node
    · rcases there with ⟨node, shows⟩
      refine ⟨some node, fun other => ?_⟩
      rw [Option.some.injEq]
      constructor
      · rintro rfl
        exact shows
      · exact shows.unique
    · refine ⟨none, fun node => ?_⟩
      rw [iff_false_left (by simp)]
      exact fun shows => there ⟨node, shows⟩
  choose node nodes using some_node
  refine ⟨⟨node, (nodes [] _).mpr .root, ?_⟩, wellFormed, orderly, nodes⟩
  intro path name there
  rcases Option.ne_none_iff_exists'.mp there with ⟨below, found⟩
  exact (nodes path _).mpr ((nodes _ _).mp found).parent

/-- An entry that is kept stands for the same. -/
theorem Kept.standsFor {v : Vol} {limit : Nat} {store store' : ClusterStore} {slot : Slot}
    {node : FileNode Content} (kept : Kept v limit store store' slot)
    (stands : StandsFor v limit store slot node) : StandsFor v limit store' slot node := by
  cases stands with
  | dir isDir => exact .dir (by rw [kept.entry]; exact isDir)
  | @file chain notDir holds =>
      rcases kept.chain chain (by simp [OwnerIsDir, notDir]) holds with ⟨holds', same⟩
      have content : (fun maxBytes => entryResult v store slot maxBytes chain) =
          fun maxBytes => entryResult v store' slot maxBytes chain := by
        funext maxBytes
        rw [entryResult, entryResult, kept.entry, fileResult, fileResult, chainData_congr same]
      rw [content]
      exact .file (by rw [kept.entry]; exact notDir) holds'

/-! ## Where a walk is -/

/-- The walk has come along the components to the directory. -/
structure Stop (v : Vol) (sectors : Nat → Buffer) (comps : List (List UInt8)) (dirCl : Nat)
    (chain : List Nat) : Prop where
  leads : LeadsTo v (view v v.clusterLimit sectors) v.rootClus comps dirCl
  dir : LiveDir v v.clusterLimit (view v v.clusterLimit sectors) dirCl chain

/-- One more component. -/
theorem LeadsTo.resolves {v : Vol} {store : ClusterStore} {start target : Nat} {chain : List Nat}
    {comps : List (List UInt8)} {comp : List UInt8} {slot : Slot}
    (leads : LeadsTo v store start comps target)
    (linked : Linked store.next EndOfChain target chain)
    (first : FirstMatch (makeName83 comp) store (chainSlots v chain) slot) :
    Resolves v store start (comps ++ [comp]) slot := by
  rcases leads with ⟨rfl, rfl⟩ | ⟨last, resolved, lastDir, rfl⟩
  · exact .last linked first
  · induction resolved with
    | last linked' first' => exact .step linked' first' lastDir (by simp) (.last linked first)
    | step linked' first' isDir more _ induction =>
        exact .step linked' first' isDir (by simp) (induction lastDir linked)

theorem LeadsTo.unique {v : Vol} {store : ClusterStore} {start target target' : Nat}
    {comps comps' : List (List UInt8)} (leads : LeadsTo v store start comps target)
    (leads' : LeadsTo v store start comps' target')
    (same : pathNames comps = pathNames comps') : target = target' := by
  rcases leads with ⟨rfl, rfl⟩ | ⟨slot, resolved, _, rfl⟩
  · rw [pathNames_nil, eq_comm, pathNames_eq_nil] at same
    rcases leads' with ⟨_, equal⟩ | ⟨_, resolved', _, _⟩
    · exact equal.symm
    · rw [same] at resolved'
      cases resolved'
  · rcases leads' with ⟨rfl, _⟩ | ⟨slot', resolved', _, rfl⟩
    · rw [pathNames_nil, pathNames_eq_nil] at same
      rw [same] at resolved
      cases resolved
    · rw [(resolved.congr same).unique resolved']

namespace Represents

variable {v : Vol} {sectors sectors' : Nat → Buffer} {tree : VolumeTree}
  (represents : Represents v sectors tree)
include represents

theorem stop_root : ∃ chain, Stop v sectors [] v.rootClus chain := by
  rcases represents.wellFormed.owned.liveDir_root with ⟨chain, root⟩
  exact ⟨chain, .inl ⟨rfl, rfl⟩, root⟩

variable {comps : List (List UInt8)} {dirCl : Nat} {chain : List Nat}
  (stop : Stop v sectors comps dirCl chain)
include stop

theorem node_stop : tree.node (pathNames comps) = some .dir := by
  rw [represents.nodes]
  rcases stop.leads with ⟨rfl, _⟩ | ⟨slot, resolved, isDir, _⟩
  · exact .root
  · exact .entry resolved (.dir isDir)

/-- What a lookup finds is what the tree has. -/
theorem node_found {comp : List UInt8} {slot : Slot}
    (first : FirstMatch (makeName83 comp) (view v v.clusterLimit sectors) (chainSlots v chain)
      slot) :
    Resolves v (view v v.clusterLimit sectors) v.rootClus (comps ++ [comp]) slot ∧
    ∃ node, tree.node (pathNames comps ++ [makeName83 comp]) = some node ∧
      StandsFor v v.clusterLimit (view v v.clusterLimit sectors) slot node := by
  have resolved := stop.leads.resolves (stop.dir.chain.linked stop.dir.occupied) first
  have owned := represents.wellFormed.owned
  have placed : Placed v v.clusterLimit (view v v.clusterLimit sectors) slot :=
    ⟨dirCl, chain, stop.dir, first.mem⟩
  rcases owned.standsFor (placed.live first.matched.listed) with ⟨node, stands⟩
  refine ⟨resolved, node, ?_, stands⟩
  rw [represents.nodes]
  have shows := Shows.entry resolved stands
  rwa [pathNames_append] at shows

/-- What a lookup does not find the tree does not have. -/
theorem node_absent {comp : List UInt8}
    (absent : ∀ slot, ¬ FirstMatch (makeName83 comp) (view v v.clusterLimit sectors)
      (chainSlots v chain) slot) :
    tree.node (pathNames comps ++ [makeName83 comp]) = none := by
  by_contra there
  rcases Option.ne_none_iff_exists'.mp there with ⟨node, found⟩
  rw [represents.nodes] at found
  rcases Shows.of_ne_nil (comps ++ [comp]) (by simpa using found) (by simp) with
    ⟨slot, resolved, _⟩
  rcases resolved.snoc with ⟨target, chain', leads, linked, first⟩
  rw [← stop.leads.unique leads rfl] at linked
  rw [linked.unique (stop.dir.chain.linked stop.dir.occupied)] at first
  exact absent slot first

end Represents

/-! ## One edit is one node -/

section

variable {v : Vol} {sectors sectors' : Nat → Buffer} {tree : VolumeTree} {changed : Slot}
  (represents : Represents v sectors tree)
  (frame : Frame v v.clusterLimit (view v v.clusterLimit sectors)
    (view v v.clusterLimit sectors') changed)
  (edit : Edit v v.clusterLimit (view v v.clusterLimit sectors) (view v v.clusterLimit sectors')
    changed)
include represents frame edit

/-- A path that leads to another entry leads there before and after, and to the same. -/
theorem Represents.elsewhere {comps : List (List UInt8)} {slot : Slot} {node : FileNode Content}
    (different : slot ≠ changed) :
    Resolves v (view v v.clusterLimit sectors) v.rootClus comps slot ∧
        StandsFor v v.clusterLimit (view v v.clusterLimit sectors) slot node ↔
      Resolves v (view v v.clusterLimit sectors') v.rootClus comps slot ∧
        StandsFor v v.clusterLimit (view v v.clusterLimit sectors') slot node := by
  have owned := represents.wellFormed.owned
  rcases owned.liveDir_root with ⟨chain, root⟩
  constructor
  · rintro ⟨resolved, stands⟩
    have kept := frame.kept slot (owned.live_of_resolves root resolved) different
    exact ⟨kept.resolves _ _ _ root resolved, kept.standsFor stands⟩
  · rintro ⟨resolved', stands'⟩
    have resolved := edit.resolves_back owned represents.orderly root different resolved'
    have live := owned.live_of_resolves root resolved
    rcases owned.standsFor live with ⟨_, stands⟩
    rw [((frame.kept slot live different).standsFor stands).unique stands'] at stands
    exact ⟨resolved, stands⟩

theorem Represents.intact : WellFormed v sectors' ∧
    Orderly v v.clusterLimit (view v v.clusterLimit sectors') :=
  ⟨⟨represents.wellFormed.shape, frame.owned⟩,
    edit.orderly represents.wellFormed.owned represents.orderly⟩

/-- An edit that is in no directory leaves the tree. -/
theorem Represents.idle (outside : changed = Change.nowhere) : Represents v sectors' tree := by
  subst outside
  have owned := represents.wellFormed.owned
  rcases represents.intact frame edit with ⟨wellFormed', orderly'⟩
  rcases owned.liveDir_root with ⟨chain, root⟩
  have inside : ∀ {sectors comps slot}, WellFormed v sectors →
      LiveDir v v.clusterLimit (view v v.clusterLimit sectors) v.rootClus chain →
      Resolves v (view v v.clusterLimit sectors) v.rootClus comps slot →
      slot ≠ Change.nowhere := by
    rintro _ _ _ wellFormed root resolved rfl
    have live := wellFormed.owned.live_of_resolves root resolved
    exact Change.nowhere_not_placed (wellFormed.owned.placed_of_live live).1
  refine ⟨wellFormed', orderly', fun names node => ?_⟩
  rw [represents.nodes]
  constructor
  · intro shows
    cases shows with
    | root => exact .root
    | entry resolved stands =>
        have apart := inside represents.wellFormed root resolved
        rcases (represents.elsewhere frame edit apart).mp ⟨resolved, stands⟩ with
          ⟨resolved', stands'⟩
        exact .entry resolved' stands'
  · intro shows
    cases shows with
    | root => exact .root
    | entry resolved' stands' =>
        have apart := inside wellFormed' (frame.dirs _ _ root) resolved'
        rcases (represents.elsewhere frame edit apart).mpr ⟨resolved', stands'⟩ with
          ⟨resolved, stands⟩
        exact .entry resolved stands

/-- An edit of the entry that a path leads to places one node. -/
theorem Represents.placed {comps : List (List UInt8)} {comp : List UInt8}
    {node : FileNode Content}
    (dir : tree.node (pathNames comps) = some .dir)
    (resolved' : Resolves v (view v v.clusterLimit sectors') v.rootClus (comps ++ [comp]) changed)
    (stands' : StandsFor v v.clusterLimit (view v v.clusterLimit sectors') changed node)
    (before : ∀ other, Resolves v (view v v.clusterLimit sectors) v.rootClus other changed →
      Resolves v (view v v.clusterLimit sectors') v.rootClus other changed)
    (placeable : tree.Placeable (pathNames comps ++ [makeName83 comp]) node) :
    Represents v sectors' (tree.place placeable) := by
  rcases represents.intact frame edit with ⟨wellFormed', orderly'⟩
  have whole : pathNames (comps ++ [comp]) = pathNames comps ++ [makeName83 comp] :=
    pathNames_append comps [comp]
  refine ⟨wellFormed', orderly', fun names found => ?_⟩
  rw [FileTree.place_node_of_parent placeable dir]
  -- whatever leads to the entry has this path
  have named : ∀ other, Resolves v (view v v.clusterLimit sectors') v.rootClus other changed →
      pathNames other = pathNames comps ++ [makeName83 comp] := by
    intro other otherResolved
    rw [← whole]
    exact wellFormed'.owned.names_eq_of_resolves orderly'.occupied otherResolved resolved'
  by_cases here : names = pathNames comps ++ [makeName83 comp]
  · rw [if_pos here, here, ← whole, Option.some.injEq]
    constructor
    · rintro rfl
      exact .entry resolved' stands'
    · intro shows
      rcases shows.of_ne_nil _ (by simp) with ⟨slot, resolved, stands⟩
      rw [resolved.unique resolved'] at stands
      exact stands'.unique stands
  · rw [if_neg here, represents.nodes]
    constructor
    · intro shows
      cases shows with
      | root => exact .root
      | @entry other slot _ resolved stands =>
          have apart : slot ≠ changed := by
            rintro rfl
            exact here (named other (before other resolved))
          rcases (represents.elsewhere frame edit apart).mp ⟨resolved, stands⟩ with
            ⟨resolved', stands'⟩
          exact .entry resolved' stands'
    · intro shows
      cases shows with
      | root => exact .root
      | @entry other slot _ resolved stands =>
          have apart : slot ≠ changed := by
            rintro rfl
            exact here (named other resolved)
          rcases (represents.elsewhere frame edit apart).mpr ⟨resolved, stands⟩ with
            ⟨resolved', stands'⟩
          exact .entry resolved' stands'

end

end ParanOS
