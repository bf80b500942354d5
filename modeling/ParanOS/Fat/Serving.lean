import ParanOS.Fat.FileTree

/-! # The driver serves a tree of files

Each call of the driver on a volume that represents a tree does to the tree what was asked for,
refuses because something is in the way, or stops where no cluster or no slot is free. A run of
calls goes along with a run on the tree, and every read returns what the tree has.
-/

namespace ParanOS

open Foundation

/-- No cluster is free, or no slot in the directory. -/
def Scarce (v : Vol) (sectors : Nat → Buffer) (names : List (List UInt8)) : Prop :=
  NoneFree v (view v v.clusterLimit sectors) ∨
    ∃ comps dirCl chain, pathNames comps = names ∧ Stop v sectors comps dirCl chain ∧
      ¬ HasRoom v (view v v.clusterLimit sectors) chain

/-- A directory on the path is as it was after a change elsewhere. -/
theorem Stop.kept {v : Vol} {sectors sectors' : Nat → Buffer} {comps : List (List UInt8)}
    {dirCl : Nat} {chain : List Nat} (wellFormed : WellFormed v sectors)
    (frame : Frame v v.clusterLimit (view v v.clusterLimit sectors)
      (view v v.clusterLimit sectors') Change.nowhere)
    (stop : Stop v sectors comps dirCl chain) : Stop v sectors' comps dirCl chain := by
  refine ⟨?_, frame.dirs _ _ stop.dir⟩
  rcases stop.leads with ⟨rfl, rfl⟩ | ⟨slot, resolved, isDir, rfl⟩
  · exact .inl ⟨rfl, rfl⟩
  · rcases wellFormed.owned.liveDir_root with ⟨_, root⟩
    have live := wellFormed.owned.live_of_resolves root resolved
    have different : slot ≠ Change.nowhere := by
      rintro rfl
      exact Change.nowhere_not_placed (wellFormed.owned.placed_of_live live).1
    have kept := frame.kept slot live different
    refine .inr ⟨slot, kept.resolves _ _ _ root resolved, ?_⟩
    rw [kept.entry]
    exact ⟨isDir, rfl⟩

/-- What has been stored is what reading returns. -/
theorem Stored.standsFor {v : Vol} {limit : Nat} {store : ClusterStore} {slot : Slot}
    {data : List UInt8} (stored : Stored v limit store slot data) :
    StandsFor v limit store slot (.file (storedContent v data)) := by
  have file : direntIsDir (entryAt store slot) = false := by
    simpa [OwnerIsDir] using stored.file
  have occupied : direntStartCluster (entryAt store slot) ≠ 0 := stored.occupied
  rcases stored.content with ⟨chain, holds, content⟩
  have whole : storedContent v data = fun maxBytes => entryResult v store slot maxBytes chain := by
    funext maxBytes
    rw [storedContent, entryResult, file, if_neg Bool.false_ne_true, fileResult, if_neg occupied,
      stored.size, ← content, List.take_take, Nat.min_comm maxBytes]
  rw [whole]
  exact .file file holds

section

variable {v : Vol} {sectors : Nat → Buffer} {tree : VolumeTree} {fuel : Nat}
  (represents : Represents v sectors tree) (enough : v.clusterLimit < fuel)
  {comps : List (List UInt8)} {dirCl : Nat} {chain : List Nat}
  (stop : Stop v sectors comps dirCl chain) (comp : List UInt8)
include represents enough stop

/-! ## A component -/

/-- A lookup finds what the tree has. -/
inductive Lookup (v : Vol) (sectors : Nat → Buffer) (tree : VolumeTree) (fuel : Nat)
    (comps : List (List UInt8)) (dirCl : Nat) (chain : List Nat) (comp : List UInt8) : Prop
  | dir {slot chain'} : dirFindEntry v (makeName83 comp) fuel dirCl (Device.healthy sectors) =
        some (.ok (hitAt v (view v v.clusterLimit sectors) slot), Device.healthy sectors) →
      direntIsDir (entryAt (view v v.clusterLimit sectors) slot) = true →
      tree.node (pathNames comps ++ [makeName83 comp]) = some .dir →
      Stop v sectors (comps ++ [comp])
        (enterDir v (direntStartCluster (entryAt (view v v.clusterLimit sectors) slot))) chain' →
      Lookup v sectors tree fuel comps dirCl chain comp
  | file {slot content} :
      dirFindEntry v (makeName83 comp) fuel dirCl (Device.healthy sectors) =
        some (.ok (hitAt v (view v v.clusterLimit sectors) slot), Device.healthy sectors) →
      direntIsDir (entryAt (view v v.clusterLimit sectors) slot) = false →
      tree.node (pathNames comps ++ [makeName83 comp]) = some (.file content) →
      FirstMatch (makeName83 comp) (view v v.clusterLimit sectors) (chainSlots v chain) slot →
      Resolves v (view v v.clusterLimit sectors) v.rootClus (comps ++ [comp]) slot →
      StandsFor v v.clusterLimit (view v v.clusterLimit sectors) slot (.file content) →
      Lookup v sectors tree fuel comps dirCl chain comp
  | absent {code} : dirFindEntry v (makeName83 comp) fuel dirCl (Device.healthy sectors) =
        some (.error code, Device.healthy sectors) →
      (∀ slot, ¬ FirstMatch (makeName83 comp) (view v v.clusterLimit sectors)
        (chainSlots v chain) slot) →
      tree.node (pathNames comps ++ [makeName83 comp]) = none →
      Lookup v sectors tree fuel comps dirCl chain comp

theorem lookup_cases : Lookup v sectors tree fuel comps dirCl chain comp := by
  have shape := represents.wellFormed.shape
  rcases dirFindEntry_healthy shape.geometry (makeName83 comp) stop.dir.dirChain enough with
    ⟨slot, first, ran⟩ | ⟨absent, code, ran⟩
  · rcases represents.node_found stop first with ⟨resolved, node, found, stands⟩
    have isDir := stands.isDir
    cases node with
    | dir =>
        have placed : Placed v v.clusterLimit (view v v.clusterLimit sectors) slot :=
          ⟨dirCl, chain, stop.dir, first.mem⟩
        rcases represents.wellFormed.owned.liveDir (placed.live first.matched.listed)
          isDir.symm with ⟨chain', next⟩
        exact .dir ran isDir.symm found ⟨.inr ⟨slot, resolved, isDir.symm, rfl⟩, next⟩
    | file content => exact .file ran isDir.symm found first resolved stands
  · exact .absent ran absent (represents.node_absent stop absent)

variable {comp} (nonempty : comp ≠ []) (nulFree : ∀ char ∈ comp, char ≠ 0)
  (shown : comp.head? ≠ some 0xE5)
  (absent : ∀ slot, ¬ FirstMatch (makeName83 comp) (view v v.clusterLimit sectors)
    (chainSlots v chain) slot)
include nonempty nulFree shown absent

/-- A missing directory is made, and the walk can go on in it, or there is a shortage. -/
theorem makeDirectory_places :
    (∃ result sectors', makeDirectory v fuel dirCl (makeName83 comp) (Device.healthy sectors) =
        some ((result, 0), Device.healthy sectors') ∧ result ≠ 0 ∧
      Represents v sectors' tree ∧ Scarce v sectors' (pathNames comps)) ∨
    ∃ newCl sectors', makeDirectory v fuel dirCl (makeName83 comp) (Device.healthy sectors) =
        some ((0, newCl), Device.healthy sectors') ∧ newCl ≠ 0 ∧
      Stop v sectors' (comps ++ [comp]) newCl [newCl] ∧
      ∃ placeable : tree.Placeable (pathNames comps ++ [makeName83 comp]) .dir,
        Represents v sectors' (tree.place placeable) := by
  have wellFormed := represents.wellFormed
  have missing := represents.node_absent stop absent
  have dir := represents.node_stop stop
  rcases makeDirectory_grows wellFormed.shape enough wellFormed.owned stop.dir nonempty nulFree
    shown absent with ⟨full, ran⟩ | ⟨sectors', ran, crowded, frame, edit⟩ |
      ⟨newCl, new, sectors', ran, occupied, grown⟩
  · exact .inl ⟨-3, sectors, ran, by decide, represents, .inl full⟩
  · exact .inl ⟨-5, sectors', ran, by decide, represents.idle (frame _) edit rfl,
      .inr ⟨comps, dirCl, chain, rfl, stop.kept wellFormed (frame _), crowded⟩⟩
  · have stop' := stop.kept wellFormed (grown.frame _)
    have isDir : direntIsDir (entryAt (view v v.clusterLimit sectors') new) = true := by
      rw [direntIsDir, grown.attr]
      decide
    have resolved := stop'.leads.resolves (stop'.dir.chain.linked stop'.dir.occupied) grown.first
    have placed : Placed v v.clusterLimit (view v v.clusterLimit sectors') new :=
      ⟨dirCl, chain, stop'.dir, grown.first.mem⟩
    refine .inr ⟨newCl, sectors', ran, occupied, ⟨.inr ⟨new, resolved, isDir, ?_⟩,
      ⟨⟨some new, placed.live grown.first.matched.listed, isDir, grown.start⟩, occupied,
        grown.holds⟩⟩, ⟨.of_parent dir ?_, ?_⟩⟩
    · rw [grown.start, enterDir, if_neg occupied]
    · intro old there
      rw [missing] at there
      cases there
    · apply represents.placed (grown.frame new) grown.edit dir resolved (.dir isDir)
      intro other before
      rcases wellFormed.owned.liveDir_root with ⟨_, root⟩
      exact absurd (wellFormed.owned.live_of_resolves root before) grown.dead

/-- A missing file is created, or there is a shortage. -/
theorem createFile_places (data : List UInt8) :
    (∃ code sectors', createFile v fuel dirCl (makeName83 comp) data (Device.healthy sectors) =
        some (code, Device.healthy sectors') ∧ code ≠ 0 ∧
      Represents v sectors' tree ∧ Scarce v sectors' (pathNames comps)) ∨
    ∃ sectors', createFile v fuel dirCl (makeName83 comp) data (Device.healthy sectors) =
        some (0, Device.healthy sectors') ∧
      ∃ placeable : tree.Placeable (pathNames comps ++ [makeName83 comp])
          (.file (storedContent v data)), Represents v sectors' (tree.place placeable) := by
  have wellFormed := represents.wellFormed
  have missing := represents.node_absent stop absent
  have dir := represents.node_stop stop
  rcases createFile_grows wellFormed.shape enough wellFormed.owned stop.dir nonempty nulFree
    shown absent data with ⟨full, ran⟩ | ⟨sectors', ran, crowded, frame, edit⟩ |
      ⟨newCl, new, sectors', ran, grown, stored⟩
  · exact .inl ⟨-5, sectors, ran, by decide, represents, .inl full⟩
  · exact .inl ⟨-9, sectors', ran, by decide, represents.idle (frame _) edit rfl,
      .inr ⟨comps, dirCl, chain, rfl, stop.kept wellFormed (frame _), crowded⟩⟩
  · have stop' := stop.kept wellFormed (grown.frame _)
    have resolved := stop'.leads.resolves (stop'.dir.chain.linked stop'.dir.occupied) grown.first
    refine .inr ⟨sectors', ran, .of_parent dir ?_, ?_⟩
    · intro old there
      rw [missing] at there
      cases there
    · apply represents.placed (grown.frame new) grown.edit dir resolved stored.standsFor
      intro other before
      rcases wellFormed.owned.liveDir_root with ⟨_, root⟩
      exact absurd (wellFormed.owned.live_of_resolves root before) grown.dead

end

/-- A file that is there is overwritten, unless it needs a cluster and there is none. -/
theorem overwriteFile_places {v : Vol} {sectors : Nat → Buffer} {tree : VolumeTree}
    (represents : Represents v sectors tree) {comps : List (List UInt8)} {dirCl : Nat}
    {chain : List Nat} (stop : Stop v sectors comps dirCl chain) {comp : List UInt8} {slot : Slot}
    {content : Content}
    (first : FirstMatch (makeName83 comp) (view v v.clusterLimit sectors) (chainSlots v chain)
      slot)
    (found : tree.node (pathNames comps ++ [makeName83 comp]) = some (.file content))
    (file : direntIsDir (entryAt (view v v.clusterLimit sectors) slot) = false)
    (data : List UInt8) :
    (NoneFree v (view v v.clusterLimit sectors) ∧
      overwriteFile v (hitAt v (view v v.clusterLimit sectors) slot) data
        (Device.healthy sectors) = some (-5, Device.healthy sectors)) ∨
    ∃ sectors', overwriteFile v (hitAt v (view v v.clusterLimit sectors) slot) data
        (Device.healthy sectors) = some (0, Device.healthy sectors') ∧
      ∃ placeable : tree.Placeable (pathNames comps ++ [makeName83 comp])
          (.file (storedContent v data)), Represents v sectors' (tree.place placeable) := by
  have wellFormed := represents.wellFormed
  have owned := wellFormed.owned
  rcases owned.liveDir_root with ⟨_, root⟩
  have placed : Placed v v.clusterLimit (view v v.clusterLimit sectors) slot :=
    ⟨dirCl, chain, stop.dir, first.mem⟩
  rcases overwriteFile_edits wellFormed.shape owned stop.dir first
    (placed.live first.matched.listed) file data with
    none | ⟨sectors', ran, frame, edit, overwriting⟩
  · exact .inl none
  · cases overwriting with
    | refused failed _ => exact absurd rfl failed
    | stored notDir stored _ _ _ still =>
        have before : ∀ other,
            Resolves v (view v v.clusterLimit sectors) v.rootClus other slot →
            Resolves v (view v v.clusterLimit sectors') v.rootClus other slot :=
          fun _ resolved => resolved.overwritten owned frame notDir still root
        have resolved := stop.leads.resolves (stop.dir.chain.linked stop.dir.occupied) first
        refine .inr ⟨sectors', ran, .of_parent (represents.node_stop stop) ?_, ?_⟩
        · intro old there
          rw [found, Option.some.injEq] at there
          rw [← there]
          rfl
        · exact represents.placed frame edit (represents.node_stop stop) (before _ resolved)
            stored.standsFor before _

/-! ## The walks -/

theorem ensureDirectory_miss {v : Vol} {fuel dirCl : Nat} {name11 : List UInt8} {device : Device}
    {code : Int} {made : Option ((Int × Nat) × Device)}
    (missed : dirFindEntry v name11 fuel dirCl device = some (.error code, device))
    (ran : makeDirectory v fuel dirCl name11 device = made) :
    ensureDirectory v fuel dirCl name11 device = made := by
  rw [ensureDirectory, DiskM.bind_run missed]
  exact ran

section

variable {v : Vol} {fuel : Nat} (enough : v.clusterLimit < fuel)
include enough

theorem ensureWalk_serves {rest : List (List UInt8)}
    (chars : ∀ comp ∈ rest, comp ≠ [] ∧ ∀ char ∈ comp, char ≠ 0) (findable : Findable rest)
    {sectors : Nat → Buffer} {tree : VolumeTree} (represents : Represents v sectors tree)
    {comps : List (List UInt8)} {dirCl : Nat} {chain : List Nat}
    (stop : Stop v sectors comps dirCl chain) :
    ∃ code sectors' after, ensureWalk v fuel rest dirCl (Device.healthy sectors) =
        some (code, Device.healthy sectors') ∧ Represents v sectors' after ∧
      FileTree.Serves (Scarce v sectors') tree (pathNames comps ++ pathNames rest) .dir
        (decide (code = 0)) after := by
  induction rest generalizing sectors tree comps dirCl chain with
  | nil =>
      refine ⟨0, sectors, tree, rfl, represents, ?_⟩
      rw [pathNames_nil, List.append_nil]
      exact .dir_here (represents.node_stop stop)
  | cons comp rest induction =>
      have later : ∀ comp ∈ rest, comp ≠ [] ∧ ∀ char ∈ comp, char ≠ 0 :=
        fun other member => chars other (by simp [member])
      have laterFindable : Findable rest := fun other member => findable other (by simp [member])
      rcases chars comp (by simp) with ⟨nonempty, nulFree⟩
      have onward : ∀ comps', pathNames comps' ++ pathNames (comp :: rest) =
          pathNames (comps' ++ [comp]) ++ pathNames rest := by simp
      have dir := represents.node_stop stop
      cases lookup_cases represents enough stop comp with
      | dir found isDir _ next =>
          have entered := ensureDirectory_hit found
          simp only [hitAt, isDir, if_true] at entered
          rw [ensureWalk, DiskM.bind_run entered, onward]
          exact induction later laterFindable represents next
      | file found isDir there _ _ _ =>
          have refused := ensureDirectory_hit found
          simp only [hitAt, isDir] at refused
          refine ⟨-2, sectors, tree, ?_, represents, .refused ?_⟩
          · rw [ensureWalk, DiskM.bind_run refused]
            rfl
          · exact FileTree.not_placeable_of_file there (FileTree.prefix_cons _ _ _) fun _ => rfl
      | absent missed absent missing =>
          have shown := findable comp (by simp)
          rcases makeDirectory_places represents enough stop nonempty nulFree shown absent with
            ⟨result, sectors', ran, failed, represents', shortage⟩ |
              ⟨newCl, sectors', ran, occupied, stop', placeable, represents'⟩
          · refine ⟨result, sectors', tree, ?_, represents', ?_⟩
            · rw [ensureWalk, DiskM.bind_run (ensureDirectory_miss missed ran)]
              simp [failed]
            · rw [decide_eq_false failed]
              exact .short_here dir (.of_missing dir missing (FileTree.prefix_cons _ _ _))
                (by simp [missing]) shortage
          · rcases induction later laterFindable represents' stop' with
              ⟨code, sectors'', after, ranRest, represents'', serves⟩
            refine ⟨code, sectors'', after, ?_, represents'', ?_⟩
            · rw [ensureWalk, DiskM.bind_run (ensureDirectory_miss missed ran)]
              simp only [ne_eq, not_true_eq_false, if_false, enterDir, occupied]
              exact ranRest
            · rw [← onward] at serves
              exact serves.after_place dir missing (FileTree.prefix_cons _ _ _) (fun _ => rfl)
                placeable

/-- The last component of a write. -/
theorem writeLast_serves (data : List UInt8) {comp : List UInt8} (nonempty : comp ≠ [])
    (nulFree : ∀ char ∈ comp, char ≠ 0) (shown : comp.head? ≠ some 0xE5)
    {sectors : Nat → Buffer} {tree : VolumeTree} (represents : Represents v sectors tree)
    {comps : List (List UInt8)} {dirCl : Nat} {chain : List Nat}
    (stop : Stop v sectors comps dirCl chain) :
    ∃ code sectors' after, writeWalk v fuel data [comp] dirCl (Device.healthy sectors) =
        some (code, Device.healthy sectors') ∧ Represents v sectors' after ∧
      FileTree.Serves (Scarce v sectors') tree (pathNames comps ++ [makeName83 comp])
        (.file (storedContent v data)) (decide (code = 0)) after := by
  have dir := represents.node_stop stop
  cases lookup_cases represents enough stop comp with
  | dir found isDir there _ =>
      refine ⟨-4, sectors, tree, ?_, represents, .refused (FileTree.not_placeable_of_dir there)⟩
      rw [writeWalk, DiskM.bind_run found]
      simp [overwriteFile, hitAt, isDir]
  | @file slot _ found isDir there first _ _ =>
      have ran : writeWalk v fuel data [comp] dirCl (Device.healthy sectors) =
          overwriteFile v (hitAt v (view v v.clusterLimit sectors) slot) data
            (Device.healthy sectors) := by
        rw [writeWalk, DiskM.bind_run found]
        rfl
      rcases overwriteFile_places represents stop first there isDir data with
        ⟨full, ranFull⟩ | ⟨sectors', ranDone, placeable, represents'⟩
      · refine ⟨-5, sectors, tree, ran.trans ranFull, represents, ?_⟩
        apply FileTree.Serves.short_here dir (.of_parent dir _) (by simp [there]) (.inl full)
        intro old same
        rw [there, Option.some.injEq] at same
        rw [← same]
        rfl
      · exact ⟨0, sectors', _, ran.trans ranDone, represents', .placed placeable⟩
  | absent missed absent missing =>
      have ran : writeWalk v fuel data [comp] dirCl (Device.healthy sectors) =
          createFile v fuel dirCl (makeName83 comp) data (Device.healthy sectors) := by
        rw [writeWalk, DiskM.bind_run missed]
        rfl
      rcases createFile_places represents enough stop nonempty nulFree shown absent data with
        ⟨code, sectors', ranShort, failed, represents', shortage⟩ |
          ⟨sectors', ranDone, placeable, represents'⟩
      · refine ⟨code, sectors', tree, ran.trans ranShort, represents', ?_⟩
        rw [decide_eq_false failed]
        exact .short_here dir (.of_missing dir missing (FileTree.prefix_cons _ _ _))
          (by simp [missing]) shortage
      · exact ⟨0, sectors', _, ran.trans ranDone, represents', .placed placeable⟩

theorem writeWalk_serves (data : List UInt8) {rest : List (List UInt8)}
    (chars : ∀ comp ∈ rest, comp ≠ [] ∧ ∀ char ∈ comp, char ≠ 0) (findable : Findable rest)
    {sectors : Nat → Buffer} {tree : VolumeTree} (represents : Represents v sectors tree)
    {comps : List (List UInt8)} {dirCl : Nat} {chain : List Nat}
    (stop : Stop v sectors comps dirCl chain) :
    ∃ code sectors' after, writeWalk v fuel data rest dirCl (Device.healthy sectors) =
        some (code, Device.healthy sectors') ∧ Represents v sectors' after ∧
      FileTree.Serves (Scarce v sectors') tree (pathNames comps ++ pathNames rest)
        (.file (storedContent v data)) (decide (code = 0)) after := by
  induction rest generalizing sectors tree comps dirCl chain with
  | nil =>
      refine ⟨-10, sectors, tree, rfl, represents, .refused ?_⟩
      rw [pathNames_nil, List.append_nil]
      exact FileTree.not_placeable_of_dir (represents.node_stop stop)
  | cons comp rest induction =>
      have later : ∀ comp ∈ rest, comp ≠ [] ∧ ∀ char ∈ comp, char ≠ 0 :=
        fun other member => chars other (by simp [member])
      have laterFindable : Findable rest := fun other member => findable other (by simp [member])
      rcases chars comp (by simp) with ⟨nonempty, nulFree⟩
      have shown := findable comp (by simp)
      by_cases last : rest = []
      · subst last
        exact writeLast_serves enough data nonempty nulFree shown represents stop
      have more : rest.isEmpty = false := by simpa using last
      have onward : ∀ comps', pathNames comps' ++ pathNames (comp :: rest) =
          pathNames (comps' ++ [comp]) ++ pathNames rest := by simp
      have proper : ∀ names : List (List UInt8),
          names ++ [makeName83 comp] ≠ names ++ pathNames (comp :: rest) := by
        intro names whole
        rw [List.append_cancel_left_eq, pathNames_cons, List.cons.injEq] at whole
        exact last (pathNames_eq_nil.mp whole.2.symm)
      have dir := represents.node_stop stop
      cases lookup_cases represents enough stop comp with
      | dir found isDir _ next =>
          rw [writeWalk, DiskM.bind_run found, onward]
          simp only [more, Bool.not_false, if_true, hitAt, isDir]
          exact induction later laterFindable represents next
      | file found isDir there _ _ _ =>
          refine ⟨-3, sectors, tree, ?_, represents, .refused ?_⟩
          · rw [writeWalk, DiskM.bind_run found]
            simp [more, hitAt, isDir]
          · exact FileTree.not_placeable_of_file there (FileTree.prefix_cons _ _ _)
              fun whole => absurd whole (proper _)
      | absent missed absent missing =>
          rcases makeDirectory_places represents enough stop nonempty nulFree shown absent with
            ⟨result, sectors', ran, failed, represents', shortage⟩ |
              ⟨newCl, sectors', ran, _, stop', placeable, represents'⟩
          · refine ⟨result, sectors', tree, ?_, represents', ?_⟩
            · rw [writeWalk, DiskM.bind_run missed]
              simp only [more, Bool.not_false, if_true]
              rw [DiskM.bind_run (ensureDirectory_miss missed ran)]
              simp [failed]
            · rw [decide_eq_false failed]
              exact .short_here dir (.of_missing dir missing (FileTree.prefix_cons _ _ _))
                (by simp [missing]) shortage
          · rcases induction later laterFindable represents' stop' with
              ⟨code, sectors'', after, ranRest, represents'', serves⟩
            refine ⟨code, sectors'', after, ?_, represents'', ?_⟩
            · rw [writeWalk, DiskM.bind_run missed]
              simp only [more, Bool.not_false, if_true]
              rw [DiskM.bind_run (ensureDirectory_miss missed ran)]
              exact ranRest
            · rw [← onward] at serves
              exact serves.after_place dir missing (FileTree.prefix_cons _ _ _)
                (fun whole => absurd whole (proper _)) placeable

/-! ## Reading -/

end

/-- What the tree answers to a read of a path. -/
def readNode (tree : VolumeTree) (names : List (List UInt8)) (maxBytes : Nat) : ReadResult :=
  match tree.node names with
  | some (.file content) => content maxBytes
  | some .dir => if names = [] then ⟨-5, 0, []⟩ else ⟨-4, 0, []⟩
  | none => if tree.Clear names then ⟨-2, 0, []⟩ else ⟨-3, 0, []⟩

section

variable {v : Vol} {sectors : Nat → Buffer} {tree : VolumeTree} {fuel : Nat}
  (represents : Represents v sectors tree) (enough : v.clusterLimit < fuel)
include represents enough

theorem readWalk_tree (comp : List UInt8) (rest : List (List UInt8)) {comps : List (List UInt8)}
    {dirCl : Nat} {chain : List Nat} (stop : Stop v sectors comps dirCl chain) (maxBytes : Nat) :
    readWalk v fuel maxBytes (comp :: rest) dirCl (Device.healthy sectors) =
      some (readNode tree (pathNames comps ++ pathNames (comp :: rest)) maxBytes,
        Device.healthy sectors) := by
  induction rest generalizing comp comps dirCl chain with
  | nil =>
      have wellFormed := represents.wellFormed
      cases lookup_cases represents enough stop comp with
      | dir found isDir there _ =>
          rw [readWalk, DiskM.bind_run found, pathNames_cons, pathNames_nil, readNode, there]
          simp [hitAt, isDir]
      | @file slot content found isDir there first resolved stands =>
          rcases wellFormed.owned.liveDir_root with ⟨_, root⟩
          rw [pathNames_cons, pathNames_nil, readNode, there]
          cases stands with
          | @file fileChain _ holds =>
              exact (readWalk_resolves wellFormed.shape enough wellFormed.owned stop.dir
                (.last (stop.dir.chain.linked stop.dir.occupied) first) maxBytes).2 fileChain holds
      | absent missed _ missing =>
          have clear := FileTree.clear_of_missing (represents.node_stop stop) missing
            (List.prefix_refl _)
          rw [readWalk, DiskM.bind_run missed, pathNames_cons, pathNames_nil, readNode, missing]
          simp only [if_pos clear]
          rfl
  | cons next rest induction =>
      have onward : pathNames comps ++ pathNames (comp :: next :: rest) =
          pathNames (comps ++ [comp]) ++ pathNames (next :: rest) := by simp
      have below : pathNames comps ++ [makeName83 comp] <+:
          pathNames comps ++ pathNames (comp :: next :: rest) := FileTree.prefix_cons _ _ _
      have proper : pathNames comps ++ [makeName83 comp] ≠
          pathNames comps ++ pathNames (comp :: next :: rest) := by simp
      cases lookup_cases represents enough stop comp with
      | dir found isDir _ stop' =>
          rw [readWalk, DiskM.bind_run found, onward]
          simp only [List.isEmpty_cons, Bool.not_false, if_true, hitAt, isDir]
          exact induction next stop'
      | file found isDir there _ _ _ =>
          have noDir : tree.node (pathNames comps ++ [makeName83 comp]) ≠ some .dir := by
            simp [there]
          have nothing := FileTree.node_below noDir below proper
          rw [readWalk, DiskM.bind_run found, readNode, nothing]
          simp only [if_neg (FileTree.not_clear_of_file there below proper), List.isEmpty_cons,
            Bool.not_false, if_true, hitAt, isDir, Bool.false_eq_true, if_false]
          rfl
      | absent missed _ missing =>
          have noDir : tree.node (pathNames comps ++ [makeName83 comp]) ≠ some .dir := by
            simp [missing]
          have nothing := FileTree.node_below noDir below proper
          have clear := FileTree.clear_of_missing (represents.node_stop stop) missing below
          rw [readWalk, DiskM.bind_run missed, readNode, nothing]
          simp only [if_pos clear]
          rfl

/-- Reading a path returns what the tree answers. -/
theorem fat32ReadFilePath_tree (path : CString) (maxBytes : Nat) :
    fat32ReadFilePath v fuel path maxBytes (Device.healthy sectors) =
      some ((v, readNode tree (pathNames path.components83) maxBytes), Device.healthy sectors) := by
  rcases represents.stop_root with ⟨chain, stop⟩
  have ran : readWalk v fuel maxBytes path.components83 v.rootClus (Device.healthy sectors) =
      some (readNode tree (pathNames path.components83) maxBytes, Device.healthy sectors) := by
    cases path.components83 with
    | nil =>
        rw [pathNames_nil, readNode, tree.root]
        rfl
    | cons comp rest => exact readWalk_tree represents enough comp rest stop maxBytes
  simp only [fat32ReadFilePath, represents.wellFormed.shape.fat32]
  rw [DiskM.bind_run ran]
  rfl

/-! ## Runs -/

/-- The node that a call asks for. -/
def Call.node (v : Vol) : Call → FileNode Content
  | .writeFile _ data => .file (storedContent v data)
  | .ensureDir _ => .dir

/-- A call goes along with a step on the tree. -/
theorem Call.serves (call : Call) (findable : Findable call.path.components83) :
    ∃ code sectors' after, call.run fuel v (Device.healthy sectors) =
        some ((v, code), Device.healthy sectors') ∧ Represents v sectors' after ∧
      FileTree.Serves (Scarce v sectors') tree (pathNames call.path.components83) (call.node v)
        (decide (code = 0)) after := by
  rcases represents.stop_root with ⟨chain, stop⟩
  have fat32 := represents.wellFormed.shape.fat32
  cases call with
  | writeFile path data =>
      rcases writeWalk_serves enough data (components83_chars path) findable represents stop with
        ⟨code, sectors', after, ran, represents', serves⟩
      refine ⟨code, sectors', after, ?_, represents', serves⟩
      simp only [Call.run, fat32WriteFilePath, fat32]
      rw [DiskM.bind_run ran]
      rfl
  | ensureDir path =>
      rcases ensureWalk_serves enough (components83_chars path) findable represents stop with
        ⟨code, sectors', after, ran, represents', serves⟩
      refine ⟨code, sectors', after, ?_, represents', serves⟩
      simp only [Call.run, fat32EnsureDirPath, fat32]
      rw [DiskM.bind_run ran]
      rfl

end

/-- A run of the driver next to a run on the tree: each call does to the tree what its code says,
and each read returns what the tree has at that moment. -/
inductive Serving (v : Vol) (fuel : Nat) : (Nat → Buffer) → VolumeTree →
    List (Call ⊕ CString × Nat) → (Nat → Buffer) → VolumeTree → Prop
  | done {sectors tree} : Serving v fuel sectors tree [] sectors tree
  | call {sectors tree call rest code between middle sectors' after} :
      call.run fuel v (Device.healthy sectors) = some ((v, code), Device.healthy between) →
      FileTree.Serves (Scarce v between) tree (pathNames call.path.components83) (call.node v)
        (decide (code = 0)) middle →
      Serving v fuel between middle rest sectors' after →
      Serving v fuel sectors tree (.inl call :: rest) sectors' after
  | read {sectors tree path maxBytes rest sectors' after} :
      fat32ReadFilePath v fuel path maxBytes (Device.healthy sectors) =
        some ((v, readNode tree (pathNames path.components83) maxBytes),
          Device.healthy sectors) →
      Serving v fuel sectors tree rest sectors' after →
      Serving v fuel sectors tree (.inr (path, maxBytes) :: rest) sectors' after

/-- On a volume that represents a tree every sequence of writes, directory creations and reads is
a run on the tree. -/
theorem represents_serving {v : Vol} {sectors : Nat → Buffer} {tree : VolumeTree} {fuel : Nat}
    (represents : Represents v sectors tree) (enough : v.clusterLimit < fuel)
    (requests : List (Call ⊕ CString × Nat))
    (findable : ∀ call, .inl call ∈ requests → Findable call.path.components83) :
    ∃ sectors' after, Serving v fuel sectors tree requests sectors' after ∧
      Represents v sectors' after := by
  induction requests generalizing sectors tree with
  | nil => exact ⟨sectors, tree, .done, represents⟩
  | cons request rest induction =>
      have later : ∀ call, .inl call ∈ rest → Findable call.path.components83 :=
        fun call member => findable call (by simp [member])
      cases request with
      | inl call =>
          rcases call.serves represents enough (findable call (by simp)) with
            ⟨code, between, middle, ran, represents', serves⟩
          rcases induction represents' later with ⟨sectors', after, serving, final⟩
          exact ⟨sectors', after, .call ran serves serving, final⟩
      | inr read =>
          rcases induction represents later with ⟨sectors', after, serving, final⟩
          exact ⟨sectors', after,
            .read (fat32ReadFilePath_tree represents enough read.1 read.2) serving, final⟩

/-- An empty volume represents the tree that is nothing but its root. -/
theorem represents_bare {v : Vol} {sectors : Nat → Buffer} (wellFormed : WellFormed v sectors)
    {chain : List Nat}
    (root : LiveDir v v.clusterLimit (view v v.clusterLimit sectors) v.rootClus chain)
    (empty : ∀ slot ∈ chainSlots v chain,
      entryAt (view v v.clusterLimit sectors) slot 0 = 0) :
    Represents v sectors .bare := by
  have unlisted : ∀ slot ∈ chainSlots v chain,
      ¬ Listed (entryAt (view v v.clusterLimit sectors) slot) :=
    fun slot member listed => listed.1.1 (empty slot member)
  have owners : ∀ owner, Live v (view v v.clusterLimit sectors) owner → owner = none := by
    intro owner live
    induction live with
    | root => rfl
    | entry _ _ linked member listed induction =>
        rw [induction, ownerStart, enterDir, if_neg root.occupied] at linked
        rw [linked.unique (root.chain.linked root.occupied)] at member
        exact absurd listed (unlisted _ member)
  refine ⟨wellFormed, ⟨?_, fun slot live => by cases owners _ live⟩, fun names node => ?_⟩
  · rintro dirCl other dir
    rcases dir.owner with ⟨owner, live, _, rfl⟩
    rw [owners owner live, ownerStart] at dir
    rw [dir.chain.unique root.chain]
    apply List.pairwise_of_forall_mem_list
    intro _ _ later member _
    exact empty later member
  · constructor
    · intro found
      rw [FileTree.bare] at found
      dsimp only at found
      split at found
      · next nil =>
          rw [List.isEmpty_iff.mp nil, ← Option.some.inj found]
          exact .root
      · cases found
    · intro shows
      cases shows with
      | root => rfl
      | entry resolved _ =>
          exact absurd resolved (not_resolves_of_unlisted root.dirChain unlisted)

theorem formatted_represents : Represents smallVol formatted .bare := by
  rcases smallVol_wellFormed.owned.liveDir_root with ⟨chain, root⟩
  apply represents_bare smallVol_wellFormed root
  intro slot member
  have whole : chain = [2] := by
    apply (root.chain.linked root.occupied).unique
    exact .single (by decide) (by decide)
  rw [whole] at member
  rcases mem_chainSlots.mp member with ⟨inRoot, inside, _⟩
  have first : slot.s = 0 := Nat.lt_one_iff.mp inside
  rw [entryAt, List.mem_singleton.mp inRoot, first, direntAt_lt (by decide)]
  rfl

/-- Writing `A/B` in an empty volume, then reading it. -/
theorem represents_serving_small :
    ∃ sectors' after, Serving smallVol 13 formatted .bare
        [.inl (.writeFile (.ofArray [0x41, 0x2F, 0x42]) [1, 2, 3]),
          .inr (.ofArray [0x41, 0x2F, 0x42], 512)] sectors' after ∧
      Represents smallVol sectors' after :=
  represents_serving formatted_represents (by decide) _ (by
    intro call member
    simp only [List.mem_cons, Sum.inl.injEq, reduceCtorEq, List.not_mem_nil, or_self,
      or_false] at member
    rw [member]
    unfold Findable
    decide)

end ParanOS
