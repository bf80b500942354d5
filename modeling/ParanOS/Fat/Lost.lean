import ParanOS.Fat.Contract

/-! # Lost clusters

A cluster is lost when the table has it in use and no owner can reach it. A call
that creates an entry loses nothing as long as the entry can be found again. A
call that overwrites a file keeps its first cluster only, so whatever followed
that in the file's chain is lost.
-/

namespace ParanOS

open Foundation

/-- The owner is live and holds the cluster. -/
def Owns (v : Vol) (limit : Nat) (store : ClusterStore) (owner : Owner) (cl : Nat) : Prop :=
  Live v store owner ∧ ∃ chain, Chain limit store (ownerStart v store owner) chain ∧ cl ∈ chain

/-- Every cluster that the table has in use is on the chain of the root or of a
live entry. -/
def NoLost (v : Vol) (limit : Nat) (store : ClusterStore) : Prop :=
  ∀ cl, DataCluster limit cl → store.next cl ≠ 0 → ∃ owner, Owns v limit store owner cl

theorem LiveDir.owns {v : Vol} {limit : Nat} {store : ClusterStore} {dirCl cl : Nat}
    {chain : List Nat} (dir : LiveDir v limit store dirCl chain) (member : cl ∈ chain) :
    ∃ owner, Owns v limit store owner cl := by
  rcases dir.owner with ⟨owner, live, _, rfl⟩
  exact ⟨owner, live, chain, dir.chain, member⟩

/-- Whatever an owner other than the exception held is still held. -/
theorem Frame.owns {v : Vol} {limit : Nat} {store store' : ClusterStore} {except : Slot}
    (frame : Frame v limit store store' except) {owner : Owner} {cl : Nat}
    (owns : Owns v limit store owner cl) (different : owner ≠ some except) :
    ∃ owner', Owns v limit store' owner' cl := by
  rcases owns with ⟨live, chain, holds, member⟩
  have dirCase : OwnerIsDir store owner → ∃ owner', Owns v limit store' owner' cl := by
    intro isDir
    have occupied : ownerStart v store owner ≠ 0 := by
      intro vacant
      cases holds with
      | empty _ => simp at member
      | chain some _ _ _ => exact some vacant
    have dir : LiveDir v limit store (ownerStart v store owner) chain :=
      ⟨⟨owner, live, isDir, rfl⟩, occupied, holds⟩
    exact (frame.dirs _ _ dir).owns member
  cases owner with
  | none => exact dirCase trivial
  | some slot =>
      by_cases isDir : OwnerIsDir store (some slot)
      · exact dirCase isDir
      · have kept := frame.kept slot live fun equal => different (by rw [equal])
        exact ⟨some slot, kept.live, chain, (kept.chain chain isDir holds).1, member⟩

/-- Nothing is lost when one cluster is linked anew that somebody holds then, and
the exception has lost nothing. -/
theorem NoLost.step {v : Vol} {limit target : Nat} {store store' : ClusterStore} {except : Slot}
    (noLost : NoLost v limit store) (frame : Frame v limit store store' except)
    (links : ∀ cl, cl ≠ target → store'.next cl = store.next cl)
    (new : ∃ owner, Owns v limit store' owner target)
    (old : ∀ cl, Owns v limit store (some except) cl → cl = target) :
    NoLost v limit store' := by
  intro cl data used
  by_cases same : cl = target
  · rw [same]
    exact new
  · rw [links cl same] at used
    rcases noLost cl data used with ⟨owner, owns⟩
    apply frame.owns owns
    intro excepted
    rw [excepted] at owns
    exact same (old cl owns)

theorem nowhere_owns_nothing {v : Vol} {limit : Nat} {store : ClusterStore}
    (owned : Owned v limit store) (cl : Nat) : ¬ Owns v limit store (some Change.nowhere) cl :=
  fun owns => Change.nowhere_not_placed (owned.placed_of_live owns.1).1

/-! ## The operations -/

section

variable {v : Vol} {sectors sectors' : Nat → Buffer} {dirCl : Nat} {chain : List Nat}
  (dir : LiveDir v v.clusterLimit (view v v.clusterLimit sectors) dirCl chain)

include dir

/-- A directory that can be found holds its cluster. -/
theorem DirMade.loses_nothing {comp : List UInt8} {newCl : Nat}
    (noLost : NoLost v v.clusterLimit (view v v.clusterLimit sectors))
    (made : DirMade v (view v v.clusterLimit sectors) (view v v.clusterLimit sectors') dirCl chain
      comp newCl) (shown : comp.head? ≠ some 0xE5)
    (owned : Owned v v.clusterLimit (view v v.clusterLimit sectors))
    (frame : Frame v v.clusterLimit (view v v.clusterLimit sectors)
      (view v v.clusterLimit sectors') Change.nowhere) :
    NoLost v v.clusterLimit (view v v.clusterLimit sectors') := by
  apply noLost.step frame made.claimed.links
  · exact (made.found dir shown).1.owns (by simp)
  · exact fun cl owns => absurd owns (nowhere_owns_nothing owned cl)

/-- An entry that a lookup finds holds its clusters. -/
theorem found_owns {comp : List UInt8} {slot : Slot} {data : List UInt8}
    (frame : Frame v v.clusterLimit (view v v.clusterLimit sectors)
      (view v v.clusterLimit sectors') slot)
    (found : FirstMatch (makeName83 comp) (view v v.clusterLimit sectors') (chainSlots v chain)
      slot)
    (stored : Stored v v.clusterLimit (view v v.clusterLimit sectors') slot data) :
    Owns v v.clusterLimit (view v v.clusterLimit sectors') (some slot)
      (ownerStart v (view v v.clusterLimit sectors') (some slot)) := by
  have placed : Placed v v.clusterLimit (view v v.clusterLimit sectors') slot :=
    ⟨dirCl, chain, frame.dirs dirCl chain dir, found.mem⟩
  rcases stored.content with ⟨fileChain, holds, _⟩
  exact ⟨placed.live found.matched.listed, fileChain, holds, holds.start_mem stored.occupied⟩

end

/-! ## The walks -/

/-- The path leads to no file of more than one cluster. -/
def NoLongFile (v : Vol) (store : ClusterStore) (dirCl : Nat) (comps : List (List UInt8)) : Prop :=
  ∀ slot chain, Resolves v store dirCl comps slot →
    Chain v.clusterLimit store (ownerStart v store (some slot)) chain → chain.length ≤ 1

/-- No component starts with the mark of a deleted entry. -/
def Findable (comps : List (List UInt8)) : Prop := ∀ comp ∈ comps, comp.head? ≠ some 0xE5

section

variable {v : Vol} (shape : Fat32Geometry v) {fuel : Nat} (enough : v.clusterLimit < fuel)

include shape enough

theorem ensureWalk_noLost {comps : List (List UInt8)}
    (chars : ∀ comp ∈ comps, comp ≠ [] ∧ ∀ char ∈ comp, char ≠ 0) (findable : Findable comps)
    {sectors sectors' : Nat → Buffer} {dirCl : Nat} {chain : List Nat}
    (owned : Owned v v.clusterLimit (view v v.clusterLimit sectors))
    (noLost : NoLost v v.clusterLimit (view v v.clusterLimit sectors))
    (dir : LiveDir v v.clusterLimit (view v v.clusterLimit sectors) dirCl chain)
    (succeeded : ensureWalk v fuel comps dirCl (Device.healthy sectors) =
      some (0, Device.healthy sectors')) :
    NoLost v v.clusterLimit (view v v.clusterLimit sectors') := by
  induction comps generalizing sectors dirCl chain with
  | nil =>
      rw [ensureWalk, DiskM.pure_apply, Option.some.injEq, Prod.mk.injEq] at succeeded
      have same : sectors = sectors' := congrArg Device.sectors succeeded.2
      exact same ▸ noLost
  | cons comp rest induction =>
      have later : ∀ comp ∈ rest, comp ≠ [] ∧ ∀ char ∈ comp, char ≠ 0 :=
        fun other member => chars other (by simp [member])
      have laterFindable : Findable rest := fun other member => findable other (by simp [member])
      rcases chars comp (by simp) with ⟨nonempty, nulFree⟩
      cases ensureWalk_step shape enough rest owned (.inl dir) nonempty nulFree with
      | enters _ live _ isDir ran =>
          rcases owned.liveDir live isDir with ⟨chain', next⟩
          exact induction later laterFindable owned noLost next (ran.symm.trans succeeded)
      | blocked _ _ fails ran =>
          rw [ran, Option.some.injEq, Prod.mk.injEq] at succeeded
          exact absurd succeeded.1 fails
      | makes _ frame making ran =>
          rw [ran] at succeeded
          cases making with
          | full _ _ => simp at succeeded
          | crowded _ _ => simp at succeeded
          | made made =>
              have shown := findable comp (by simp)
              exact induction later laterFindable (frame Change.nowhere).owned
                (made.loses_nothing dir noLost shown owned (frame _))
                  (made.found dir shown).1 succeeded

theorem writeWalk_noLost (data : List UInt8) {comps : List (List UInt8)}
    (chars : ∀ comp ∈ comps, comp ≠ [] ∧ ∀ char ∈ comp, char ≠ 0) (findable : Findable comps)
    {sectors sectors' : Nat → Buffer} {dirCl : Nat} {chain : List Nat}
    (owned : Owned v v.clusterLimit (view v v.clusterLimit sectors))
    (noLost : NoLost v v.clusterLimit (view v v.clusterLimit sectors))
    (dir : LiveDir v v.clusterLimit (view v v.clusterLimit sectors) dirCl chain)
    (short : NoLongFile v (view v v.clusterLimit sectors) dirCl comps)
    (succeeded : writeWalk v fuel data comps dirCl (Device.healthy sectors) =
      some (0, Device.healthy sectors')) :
    NoLost v v.clusterLimit (view v v.clusterLimit sectors') := by
  induction comps generalizing sectors dirCl chain with
  | nil => simp [writeWalk] at succeeded
  | cons comp rest induction =>
      have later : ∀ comp ∈ rest, comp ≠ [] ∧ ∀ char ∈ comp, char ≠ 0 :=
        fun other member => chars other (by simp [member])
      have laterFindable : Findable rest := fun other member => findable other (by simp [member])
      have shown := findable comp (by simp)
      rcases chars comp (by simp) with ⟨nonempty, nulFree⟩
      cases writeWalk_step shape enough data rest owned (.inl dir) nonempty nulFree with
      | @overwrites slot code after last _ live first frame overwriting ran =>
          rw [ran, Option.some.injEq, Prod.mk.injEq] at succeeded
          have same : after = sectors' := congrArg Device.sectors succeeded.2
          subst same
          cases overwriting with
          | refused failed _ => exact absurd succeeded.1 failed
          | stored file content name links sameStart stillFirst =>
              have owns := found_owns dir frame (stillFirst _ dirCl chain dir first) content
              apply noLost.step frame links ⟨_, owns⟩
              -- of a file with one cluster, that cluster is kept
              intro cl held
              rcases held with ⟨_, fileChain, holds, member⟩
              have resolved : Resolves v (view v v.clusterLimit sectors) dirCl
                  (comp :: rest) slot := by
                rw [last]
                exact .last (dir.chain.linked dir.occupied) first
              have length := short slot fileChain resolved holds
              cases holds with
              | empty _ => simp at member
              | chain occupied running linked _ =>
                  cases linked with
                  | nil stopped => exact absurd stopped running
                  | @cons _ others _ _ =>
                      have none : others = [] := List.length_eq_zero_iff.mp (by simpa using length)
                      rw [none, List.mem_singleton] at member
                      rw [sameStart occupied]
                      exact member
      | @creates code after last _ frame creating ran =>
          rw [ran, Option.some.injEq, Prod.mk.injEq] at succeeded
          have same : after = sectors' := congrArg Device.sectors succeeded.2
          subst same
          cases creating with
          | full _ _ => simp at succeeded
          | crowded _ _ => simp at succeeded
          | @created slot claimed _ new content name found =>
              have owns := found_owns dir (frame slot) (found dir shown) content
              apply noLost.step (frame Change.nowhere) claimed.links ⟨_, owns⟩
              exact fun cl held => absurd held (nowhere_owns_nothing owned cl)
      | passes more step =>
          cases step with
          | @enters middle _ live first isDir ran =>
              rcases owned.liveDir live isDir with ⟨chain', next⟩
              refine induction later laterFindable owned noLost next ?_ (ran.symm.trans succeeded)
              intro slot fileChain resolved
              exact short slot fileChain
                (.step (dir.chain.linked dir.occupied) first isDir more resolved)
          | blocked _ _ fails ran =>
              rw [ran, Option.some.injEq, Prod.mk.injEq] at succeeded
              exact absurd succeeded.1 fails
          | makes _ frame making ran =>
              rw [ran] at succeeded
              cases making with
              | full _ _ => simp at succeeded
              | crowded _ _ => simp at succeeded
              | made made =>
                  refine induction later laterFindable (frame Change.nowhere).owned
                    (made.loses_nothing dir noLost shown owned (frame _))
                      (made.found dir shown).1 ?_
                    succeeded
                  intro slot fileChain resolved
                  exact absurd resolved
                    (not_resolves_of_unlisted made.walking.dirChain made.unlisted)

end

/-! ## Runs -/

/-- Calls one after another, each of which meets the condition and returns 0. -/
inductive Successful (v : Vol) (fuel : Nat) (each : (Nat → Buffer) → Call → Prop) :
    (Nat → Buffer) → List Call → (Nat → Buffer) → Prop
  | nil {sectors} : Successful v fuel each sectors [] sectors
  | cons {sectors middle sectors' call rest} :
      call.run fuel v (Device.healthy sectors) = some ((v, 0), Device.healthy middle) →
      each sectors call → Successful v fuel each middle rest sectors' →
      Successful v fuel each sectors (call :: rest) sectors'

/-- What a call creates can be found, and what it overwrites is one cluster. -/
def Call.Sparing (v : Vol) (sectors : Nat → Buffer) : Call → Prop
  | .writeFile path _ => Findable path.components83 ∧
      NoLongFile v (view v v.clusterLimit sectors) v.rootClus path.components83
  | .ensureDir path => Findable path.components83

/-- One successful call loses no cluster. -/
theorem Call.loses_nothing {v : Vol} {sectors sectors' : Nat → Buffer} {fuel : Nat} {call : Call}
    (wellFormed : WellFormed v sectors) (enough : v.clusterLimit < fuel)
    (noLost : NoLost v v.clusterLimit (view v v.clusterLimit sectors))
    (sparing : call.Sparing v sectors)
    (ran : call.run fuel v (Device.healthy sectors) = some ((v, 0), Device.healthy sectors')) :
    NoLost v v.clusterLimit (view v v.clusterLimit sectors') := by
  rcases wellFormed.owned.liveDir_root with ⟨chain, root⟩
  cases call with
  | writeFile path data =>
      simp only [Call.run, fat32WriteFilePath, wellFormed.shape.fat32] at ran
      rcases DiskM.of_bind ran with ⟨code, between, walked, returned⟩
      simp only [DiskM.pure_apply, Option.some.injEq, Prod.mk.injEq, true_and] at returned
      rw [returned.1, returned.2] at walked
      exact writeWalk_noLost wellFormed.shape enough data (components83_chars path) sparing.1
        wellFormed.owned noLost root sparing.2 walked
  | ensureDir path =>
      simp only [Call.run, fat32EnsureDirPath, wellFormed.shape.fat32] at ran
      rcases DiskM.of_bind ran with ⟨code, between, walked, returned⟩
      simp only [DiskM.pure_apply, Option.some.injEq, Prod.mk.injEq, true_and] at returned
      rw [returned.1, returned.2] at walked
      exact ensureWalk_noLost wellFormed.shape enough (components83_chars path) sparing
        wellFormed.owned noLost root walked

/-- No cluster is lost in a run of successful calls, none of which overwrites a
file of several clusters or creates an entry that counts as deleted. -/
theorem calls_lose_nothing {v : Vol} {sectors sectors' : Nat → Buffer} {fuel : Nat}
    {calls : List Call} (wellFormed : WellFormed v sectors) (enough : v.clusterLimit < fuel)
    (noLost : NoLost v v.clusterLimit (view v v.clusterLimit sectors))
    (run : Successful v fuel (fun sectors call => call.Sparing v sectors) sectors calls sectors') :
    NoLost v v.clusterLimit (view v v.clusterLimit sectors') := by
  induction run with
  | nil => exact noLost
  | cons ran sparing _ induction =>
      rcases Call.keeps_wellFormed wellFormed enough _ with ⟨code, middle', ran', stays⟩
      rw [ran, Option.some.injEq, Prod.mk.injEq] at ran'
      have same : _ = middle' := congrArg Device.sectors ran'.2
      subst same
      exact induction stays (Call.loses_nothing wellFormed enough noLost sparing ran)

theorem formatted_noLost :
    NoLost smallVol smallVol.clusterLimit (view smallVol smallVol.clusterLimit formatted) := by
  have onlyRoot : ∀ cl < 12, (view smallVol smallVol.clusterLimit formatted).next cl ≠ 0 →
      cl = 2 := by
    decide
  intro cl data used
  have isRoot : cl = smallVol.rootClus := onlyRoot cl data.2 used
  rcases smallVol_wellFormed.owned.liveDir_root with ⟨chain, root⟩
  apply root.owns
  rw [isRoot]
  exact (root.chain.linked root.occupied).start_mem (by decide)

/-- A new file in the root of the small volume. -/
theorem calls_lose_nothing_small :
    ∃ sectors', fat32WriteFilePath smallVol 13 (.ofArray [0x41]) [1] (Device.healthy formatted) =
        some ((smallVol, 0), Device.healthy sectors') ∧
      NoLost smallVol smallVol.clusterLimit (view smallVol smallVol.clusterLimit sectors') := by
  let call := Call.writeFile (.ofArray [0x41]) [1]
  rcases call.keeps_wellFormed smallVol_wellFormed (show _ < 13 by decide) with
    ⟨code, sectors', ran, _⟩
  have returned : (call.run 13 smallVol (Device.healthy formatted)).map (fun result =>
      result.1.2) = some 0 := by
    decide +kernel
  rw [ran, Option.map_some, Option.some.injEq] at returned
  subst returned
  have absent : NoLongFile smallVol (view smallVol smallVol.clusterLimit formatted)
      smallVol.rootClus (CString.ofArray [0x41]).components83 := by
    intro slot chain resolved
    rcases smallVol_wellFormed.owned.liveDir_root with ⟨rootChain, root⟩
    refine absurd resolved (not_resolves_of_unlisted root.dirChain ?_)
    rw [(root.chain.linked root.occupied).unique (.single (by decide) (by decide))]
    exact formatted_blank
  refine ⟨sectors', ran, calls_lose_nothing smallVol_wellFormed (by decide) formatted_noLost
    (.cons ran ⟨?_, absent⟩ .nil)⟩
  intro comp member
  revert comp
  decide

/-! ## Volumes whose owners are known -/

/-- All owners with their chains: the root is among them, and what a directory among them
lists. -/
structure Census (v : Vol) (limit : Nat) (store : ClusterStore) (held : List (Owner × List Nat)) :
    Prop where
  occupied : v.rootClus ≠ 0
  root : none ∈ held.map Prod.fst
  chains : ∀ pair ∈ held, Chain limit store (ownerStart v store pair.1) pair.2
  dirs : ∀ pair ∈ held, OwnerIsDir store pair.1 → ownerStart v store pair.1 ≠ 0 ∧
    ∀ slot ∈ chainSlots v pair.2, Listed (entryAt store slot) → some slot ∈ held.map Prod.fst
  apart : ∀ pair ∈ held, ∀ pair' ∈ held, pair.1 ≠ pair'.1 → pair.2.Disjoint pair'.2

namespace Census

variable {v : Vol} {limit : Nat} {store : ClusterStore} {held : List (Owner × List Nat)}
  (census : Census v limit store held)
include census

theorem mem_of_live {owner : Owner} (live : Live v store owner) : owner ∈ held.map Prod.fst := by
  induction live with
  | root => exact census.root
  | entry _ isDir linked member listed induction =>
      rcases List.mem_map.mp induction with ⟨pair, among, rfl⟩
      rcases census.dirs pair among isDir with ⟨occupied, lists⟩
      rw [enterDir, if_neg occupied] at linked
      rw [linked.unique ((census.chains pair among).linked occupied)] at member
      exact lists _ member listed

theorem owned : Owned v limit store := by
  have holding : ∀ owner, Live v store owner → ∃ pair ∈ held, pair.1 = owner :=
    fun owner live => List.mem_map.mp (census.mem_of_live live)
  refine ⟨⟨?_, ?_⟩, census.occupied⟩
  · intro owner live
    rcases holding owner live with ⟨pair, among, rfl⟩
    exact ⟨pair.2, census.chains pair among⟩
  · intro owner other members members' live live' different first second
    rcases holding owner live with ⟨pair, among, rfl⟩
    rcases holding other live' with ⟨pair', among', rfl⟩
    rw [first.unique (census.chains pair among), second.unique (census.chains pair' among')]
    exact census.apart pair among pair' among' different

end Census

/-! ## A file of two clusters -/

/-- With one file in a root directory of one cluster, nobody else is live. -/
theorem live_of_one_file {v : Vol} {store : ClusterStore} {slot : Slot}
    (rootChain : Linked store.next EndOfChain v.rootClus [v.rootClus]) (occupied : v.rootClus ≠ 0)
    (only : ∀ other ∈ chainSlots v [v.rootClus], Listed (entryAt store other) → other = slot)
    (file : ¬ OwnerIsDir store (some slot)) {owner : Owner} (live : Live v store owner) :
    owner = none ∨ owner = some slot := by
  induction live with
  | root => exact .inl rfl
  | entry _ isDir linked member listed induction =>
      rcases induction with isRoot | isFile
      · rw [isRoot, ownerStart, enterDir, if_neg occupied] at linked
        rw [linked.unique rootChain] at member
        exact .inr (congrArg some (only _ member listed))
      · rw [isFile] at isDir
        exact absurd isDir file

theorem Owned.of_one_file {v : Vol} {limit : Nat} {store : ClusterStore} {slot : Slot}
    {chain : List Nat} (root : Chain limit store v.rootClus [v.rootClus])
    (occupied : v.rootClus ≠ 0)
    (only : ∀ other ∈ chainSlots v [v.rootClus], Listed (entryAt store other) → other = slot)
    (file : ¬ OwnerIsDir store (some slot))
    (holds : Chain limit store (ownerStart v store (some slot)) chain)
    (apart : v.rootClus ∉ chain) : Owned v limit store := by
  apply @Census.owned v limit store [(none, [v.rootClus]), (some slot, chain)]
  constructor
  · exact occupied
  · simp
  · intro pair member
    rcases List.mem_pair.mp member with rfl | rfl
    · exact root
    · exact holds
  · intro pair member isDir
    rcases List.mem_pair.mp member with rfl | rfl
    · exact ⟨occupied, fun other inside listed => by simp [only other inside listed]⟩
    · exact absurd isDir file
  · intro pair member pair' member' different
    rcases List.mem_pair.mp member with rfl | rfl
    · rcases List.mem_pair.mp member' with rfl | rfl
      · exact absurd rfl different
      · simpa using apart
    · rcases List.mem_pair.mp member' with rfl | rfl
      · exact List.disjoint_symm (by simpa using apart)
      · exact absurd rfl different

/-- The small volume with the file `A` in the clusters 3 and 4. -/
def longFile : Nat → Buffer := fun lba =>
  match lba with
  | 1 => ((Buffer.putU32 (fun _ => 0) 8 eocMark).putU32 12 4).putU32 16 eocMark
  | 2 => putDirent (fun _ => 0) 0 (makeName83 [0x41]) attrArchive 3 600
  | _ => fun _ => 0

/-- The only file of that volume. -/
def onlySlot : Slot := ⟨2, 0, 0⟩

instance (de : Buffer) : Decidable (Listed de) := inferInstanceAs (Decidable (_ ∧ _ ∧ _))

theorem smallVol_root (sectors : Nat → Buffer)
    (ends : EndOfChain ((view smallVol smallVol.clusterLimit sectors).next 2)) :
    Chain smallVol.clusterLimit (view smallVol smallVol.clusterLimit sectors) smallVol.rootClus
      [smallVol.rootClus] := by
  refine .chain (by decide) (by decide) (.single (by decide) ends) ?_
  intro cl member
  rw [List.mem_singleton.mp member]
  exact ⟨by decide, by decide⟩

theorem longFile_chain :
    Chain smallVol.clusterLimit (view smallVol smallVol.clusterLimit longFile)
      (ownerStart smallVol (view smallVol smallVol.clusterLimit longFile) (some onlySlot))
        [3, 4] := by
  have start : ownerStart smallVol (view smallVol smallVol.clusterLimit longFile)
      (some onlySlot) = 3 := by
    decide
  have second : (view smallVol smallVol.clusterLimit longFile).next 3 = 4 := by decide
  rw [start]
  refine .chain (by decide) (by decide) (.cons (by decide) ?_) ?_
  · rw [second]
    exact .single (by decide) (by decide)
  · intro cl member
    rcases List.mem_pair.mp member with rfl | rfl
    · exact ⟨by decide, by decide⟩
    · exact ⟨by decide, by decide⟩

theorem longFile_wellFormed : WellFormed smallVol longFile := by
  have root := smallVol_root longFile (by decide)
  have notDir : direntIsDir (entryAt (view smallVol smallVol.clusterLimit longFile) onlySlot) =
      false := by
    decide
  have only : ∀ other ∈ chainSlots smallVol [smallVol.rootClus],
      Listed (entryAt (view smallVol smallVol.clusterLimit longFile) other) → other = onlySlot := by
    decide
  exact ⟨smallVol_wellFormed.shape, .of_one_file root (by decide) only
    (by simp [OwnerIsDir, notDir]) longFile_chain (by decide)⟩

theorem longFile_noLost :
    NoLost smallVol smallVol.clusterLimit (view smallVol smallVol.clusterLimit longFile) := by
  have inUse : ∀ cl < 12, (view smallVol smallVol.clusterLimit longFile).next cl ≠ 0 →
      cl = 2 ∨ cl ∈ [3, 4] := by
    decide
  intro cl data used
  rcases inUse cl data.2 used with isRoot | inFile
  · have root := smallVol_root longFile (by decide)
    exact ⟨none, .root, _, root, by rw [isRoot]; decide⟩
  · have listed : Listed (entryAt (view smallVol smallVol.clusterLimit longFile) onlySlot) := by
      decide
    rcases longFile_wellFormed.owned.liveDir_root with ⟨rootChain, root⟩
    have whole : rootChain = [smallVol.rootClus] :=
      root.chain.unique (smallVol_root longFile (by decide))
    subst whole
    have placed : Placed smallVol smallVol.clusterLimit
        (view smallVol smallVol.clusterLimit longFile) onlySlot := ⟨_, _, root, by decide⟩
    exact ⟨some onlySlot, placed.live listed, _, longFile_chain, inFile⟩

/-- One byte written over that file: the entry keeps cluster 3, and cluster 4
stays in use. -/
theorem overwriting_loses_cluster :
    ¬ ∀ (v : Vol) (sectors sectors' : Nat → Buffer) (fuel : Nat) (calls : List Call),
      WellFormed v sectors → v.clusterLimit < fuel →
      NoLost v v.clusterLimit (view v v.clusterLimit sectors) →
      Successful v fuel (fun _ _ => True) sectors calls sectors' →
      NoLost v v.clusterLimit (view v v.clusterLimit sectors') := by
  intro claim
  let call := Call.writeFile (.ofArray [0x41]) [1]
  rcases call.keeps_wellFormed longFile_wellFormed (show _ < 13 by decide) with
    ⟨code, sectors', ran, _⟩
  have observed : (call.run 13 smallVol (Device.healthy longFile)).map (fun result =>
      (result.1.2, [2, 3, 4].map (view smallVol smallVol.clusterLimit result.2.sectors).next,
        decide (∀ other ∈ chainSlots smallVol [smallVol.rootClus],
          Listed (entryAt (view smallVol smallVol.clusterLimit result.2.sectors) other) →
            other = onlySlot),
        direntIsDir (entryAt (view smallVol smallVol.clusterLimit result.2.sectors) onlySlot),
        direntStartCluster (entryAt (view smallVol smallVol.clusterLimit result.2.sectors)
          onlySlot))) =
      some (0, [eocMark, eocMark, eocMark], true, false, 3) := by
    decide +kernel
  rw [ran, Option.map_some, Option.some.injEq] at observed
  simp only [List.map_cons, List.map_nil, Prod.mk.injEq, List.cons.injEq, and_true,
    Device.healthy_sectors] at observed
  rcases observed with ⟨rfl, ⟨rootEnds, fileEnds, inUse⟩, only, notDir, start⟩
  have noLost := claim smallVol longFile sectors' 13 [call] longFile_wellFormed (by decide)
    longFile_noLost (.cons ran trivial .nil)
  have root := smallVol_root sectors' (by rw [rootEnds]; exact endOfChain_eocMark)
  have file : Chain smallVol.clusterLimit (view smallVol smallVol.clusterLimit sectors')
      (ownerStart smallVol (view smallVol smallVol.clusterLimit sectors') (some onlySlot)) [3] := by
    rw [ownerStart, start]
    refine .chain (by decide) (by decide) (.single (by decide) ?_) ?_
    · rw [fileEnds]
      exact endOfChain_eocMark
    · intro cl member
      rw [List.mem_singleton.mp member]
      exact ⟨by decide, by decide⟩
  rcases noLost 4 ⟨by decide, by decide⟩ (by rw [inUse]; decide) with
    ⟨owner, live, chain, holds, member⟩
  rcases live_of_one_file (root.linked (by decide)) (by decide) (of_decide_eq_true only)
    (by simp [OwnerIsDir, notDir]) live with rfl | rfl
  · rw [holds.unique root] at member
    exact absurd member (by decide)
  · rw [holds.unique file] at member
    exact absurd member (by decide)

end ParanOS
