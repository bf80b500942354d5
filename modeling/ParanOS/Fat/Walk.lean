import ParanOS.Fat.Operations

/-! # The path walkers

Induction over the components of a path: reading follows the path as it
resolves, and writing changes what one entry holds and keeps everything else.
-/

namespace ParanOS

open Foundation

/-! ## Reading -/

/-- The result of reading the entry in a slot. -/
def entryResult (v : Vol) (store : ClusterStore) (slot : Slot) (maxBytes : Nat)
    (chain : List Nat) : ReadResult :=
  if direntIsDir (entryAt store slot) then ⟨-4, 0, []⟩
  else fileResult v store (direntStartCluster (entryAt store slot))
    ((entryAt store slot).getU32 28) maxBytes chain

section

variable {v : Vol} (shape : Fat32Geometry v) {sectors : Nat → Buffer} {fuel : Nat}
  (enough : v.clusterLimit < fuel)
include shape enough

/-- A lookup in a directory in use finds what comes first there. -/
theorem dirFindEntry_first {dirCl : Nat} {chain : List Nat} {want11 : List UInt8} {slot : Slot}
    (dir : LiveDir v v.clusterLimit (view v v.clusterLimit sectors) dirCl chain)
    (first : FirstMatch want11 (view v v.clusterLimit sectors) (chainSlots v chain) slot) :
    dirFindEntry v want11 fuel dirCl (Device.healthy sectors) =
      some (.ok (hitAt v (view v v.clusterLimit sectors) slot), Device.healthy sectors) := by
  rcases dirFindEntry_healthy shape.geometry want11 dir.dirChain enough with
    ⟨slot', first', ran⟩ | ⟨absent, _⟩
  · rw [ran, first.unique first']
  · exact absurd first (absent slot)

theorem readWalk_resolves (owned : Owned v v.clusterLimit (view v v.clusterLimit sectors))
    {dirCl : Nat} {chain : List Nat} {comps : List (List UInt8)} {slot : Slot}
    (dir : LiveDir v v.clusterLimit (view v v.clusterLimit sectors) dirCl chain)
    (resolved : Resolves v (view v v.clusterLimit sectors) dirCl comps slot)
    (maxBytes : Nat) :
    Live v (view v v.clusterLimit sectors) (some slot) ∧
    ∀ fileChain, Chain v.clusterLimit (view v v.clusterLimit sectors)
        (ownerStart v (view v v.clusterLimit sectors) (some slot)) fileChain →
      readWalk v fuel maxBytes comps dirCl (Device.healthy sectors) =
        some (entryResult v (view v v.clusterLimit sectors) slot maxBytes fileChain,
          Device.healthy sectors) := by
  induction resolved generalizing chain with
  | @last dirCl comp chain' slot linked first =>
      have sameChain := linked.unique (dir.chain.linked dir.occupied)
      subst sameChain
      have placed : Placed v v.clusterLimit (view v v.clusterLimit sectors) slot :=
        ⟨dirCl, chain', dir, first.mem⟩
      refine ⟨placed.live first.matched.listed, fun fileChain holds => ?_⟩
      have found := dirFindEntry_first shape enough dir first
      have dirOf : direntStartCluster (entryAt (view v v.clusterLimit sectors) slot) ≠ 0 →
          DirChain v v.clusterLimit (view v v.clusterLimit sectors)
            (direntStartCluster (entryAt (view v v.clusterLimit sectors) slot)) fileChain :=
        fun occupied => ⟨holds.linked occupied, fun _ => holds.inside⟩
      have read := readFileFromCluster_healthy shape.geometry dirOf enough
        ((entryAt (view v v.clusterLimit sectors) slot).getU32 28) maxBytes
      rw [readWalk, DiskM.bind_run found]
      cases isDir : direntIsDir (entryAt (view v v.clusterLimit sectors) slot) with
      | true => simp [entryResult, hitAt, isDir]
      | false => simp [entryResult, hitAt, isDir, read]
  | @step dirCl comp rest chain' middle slot linked first isDir more _ induction =>
      have sameChain := linked.unique (dir.chain.linked dir.occupied)
      subst sameChain
      have placed : Placed v v.clusterLimit (view v v.clusterLimit sectors) middle :=
        ⟨dirCl, chain', dir, first.mem⟩
      have live := placed.live first.matched.listed
      rcases owned.liveDir live isDir with ⟨chain'', next⟩
      rcases induction next with ⟨slotLive, read⟩
      refine ⟨slotLive, fun fileChain holds => ?_⟩
      have found := dirFindEntry_first shape enough dir first
      have nonempty : rest.isEmpty = false := by simpa using more
      rw [readWalk, DiskM.bind_run found]
      simp only [nonempty, Bool.not_false, if_true, hitAt, isDir]
      exact read fileChain holds

end

/-! ## Creating directories -/

section

variable {v : Vol} (shape : Fat32Geometry v) {fuel : Nat} (enough : v.clusterLimit < fuel)

/-- What a walk does at a component whose entry has to be a directory: it goes on
in the one it found, stops at a file, or creates the directory. -/
inductive DirStep (v : Vol) (fuel : Nat) (walk : List (List UInt8) → Nat → DiskM Int)
    (sectors : Nat → Buffer) (dirCl : Nat) (chain : List Nat) (comp : List UInt8)
    (rest : List (List UInt8)) : Prop
  | enters {slot} : LiveDir v v.clusterLimit (view v v.clusterLimit sectors) dirCl chain →
      Live v (view v v.clusterLimit sectors) (some slot) →
      FirstMatch (makeName83 comp) (view v v.clusterLimit sectors) (chainSlots v chain) slot →
      direntIsDir (entryAt (view v v.clusterLimit sectors) slot) = true →
      walk (comp :: rest) dirCl (Device.healthy sectors) =
        walk rest (enterDir v (direntStartCluster (entryAt (view v v.clusterLimit sectors) slot)))
          (Device.healthy sectors) →
      DirStep v fuel walk sectors dirCl chain comp rest
  | blocked {slot code} :
      FirstMatch (makeName83 comp) (view v v.clusterLimit sectors) (chainSlots v chain) slot →
      direntIsDir (entryAt (view v v.clusterLimit sectors) slot) = false → code ≠ 0 →
      walk (comp :: rest) dirCl (Device.healthy sectors) = some (code, Device.healthy sectors) →
      DirStep v fuel walk sectors dirCl chain comp rest
  | makes {result newCl sectors'} :
      (∀ slot, ¬ FirstMatch (makeName83 comp) (view v v.clusterLimit sectors)
        (chainSlots v chain) slot) →
      (∀ except, Frame v v.clusterLimit (view v v.clusterLimit sectors)
        (view v v.clusterLimit sectors') except) →
      Making v sectors sectors' dirCl chain comp result newCl →
      walk (comp :: rest) dirCl (Device.healthy sectors) =
        (if result ≠ 0 then some (result, Device.healthy sectors')
        else walk rest newCl (Device.healthy sectors')) →
      DirStep v fuel walk sectors dirCl chain comp rest

/-- An entry that is found is entered, or is no directory. -/
theorem ensureDirectory_hit {dirCl : Nat} {name11 : List UInt8} {device : Device} {hit : DirHit}
    (found : dirFindEntry v name11 fuel dirCl device = some (.ok hit, device)) :
    ensureDirectory v fuel dirCl name11 device =
      some (if direntIsDir hit.de then (0, direntStartCluster hit.de) else (-2, 0), device) := by
  rw [ensureDirectory, DiskM.bind_run found]
  by_cases isDir : direntIsDir hit.de = true
  · simp [isDir]
  · simp [isDir]

include shape enough

/-- Creating a directory whose name was not found. -/
theorem ensureDirectory_absent {sectors : Nat → Buffer} {dirCl : Nat} {chain : List Nat}
    {comp : List UInt8} (owned : Owned v v.clusterLimit (view v v.clusterLimit sectors))
    (walking : Walking v v.clusterLimit (view v v.clusterLimit sectors) dirCl chain)
    (nonempty : comp ≠ []) (nulFree : ∀ char ∈ comp, char ≠ 0)
    (absent : ∀ slot, ¬ FirstMatch (makeName83 comp) (view v v.clusterLimit sectors)
      (chainSlots v chain) slot) {code : Int}
    (missed : dirFindEntry v (makeName83 comp) fuel dirCl (Device.healthy sectors) =
      some (.error code, Device.healthy sectors)) :
    ∃ result newCl sectors',
      ensureDirectory v fuel dirCl (makeName83 comp) (Device.healthy sectors) =
        some ((result, newCl), Device.healthy sectors') ∧
      (∀ except, Frame v v.clusterLimit (view v v.clusterLimit sectors)
        (view v v.clusterLimit sectors') except) ∧
      Making v sectors sectors' dirCl chain comp result newCl := by
  rcases makeDirectory_spec shape enough owned walking nonempty nulFree absent with
    ⟨result, newCl, sectors', made, frame, making⟩
  refine ⟨result, newCl, sectors', ?_, frame, making⟩
  rw [ensureDirectory, DiskM.bind_run missed]
  exact made

theorem ensureWalk_step {sectors : Nat → Buffer} {dirCl : Nat} {chain : List Nat}
    {comp : List UInt8} (rest : List (List UInt8))
    (owned : Owned v v.clusterLimit (view v v.clusterLimit sectors))
    (walking : Walking v v.clusterLimit (view v v.clusterLimit sectors) dirCl chain)
    (nonempty : comp ≠ []) (nulFree : ∀ char ∈ comp, char ≠ 0) :
    DirStep v fuel (ensureWalk v fuel) sectors dirCl chain comp rest := by
  rcases dirFindEntry_healthy shape.geometry (makeName83 comp) walking.dirChain enough with
    ⟨slot, first, found⟩ | ⟨absent, code, missed⟩
  · rcases walking.found first with ⟨dir, live⟩
    cases isDir : direntIsDir (entryAt (view v v.clusterLimit sectors) slot) with
    | true =>
        refine .enters dir live first isDir ?_
        have entered := ensureDirectory_hit found
        rw [if_pos (show direntIsDir (hitAt v (view v v.clusterLimit sectors) slot).de = true
          from isDir)] at entered
        rw [ensureWalk, DiskM.bind_run entered]
        rfl
    | false =>
        refine .blocked first isDir (show (-2 : Int) ≠ 0 by decide) ?_
        have refused := ensureDirectory_hit found
        rw [if_neg (show ¬ direntIsDir (hitAt v (view v v.clusterLimit sectors) slot).de = true
          from Bool.eq_false_iff.mp isDir)] at refused
        rw [ensureWalk, DiskM.bind_run refused]
        rfl
  · rcases ensureDirectory_absent shape enough owned walking nonempty nulFree absent missed with
      ⟨result, newCl, sectors', ensured, frame, making⟩
    refine .makes absent frame making ?_
    rw [ensureWalk, DiskM.bind_run ensured]
    cases making with
    | full _ _ => rfl
    | crowded _ _ => rfl
    | made made =>
        simp only [ne_eq, not_true_eq_false, if_false, enterDir, made.claimed.fresh.ne_zero]

theorem ensureWalk_frame {comps : List (List UInt8)}
    (chars : ∀ comp ∈ comps, comp ≠ [] ∧ ∀ char ∈ comp, char ≠ 0)
    {sectors : Nat → Buffer} {dirCl : Nat} {chain : List Nat}
    (owned : Owned v v.clusterLimit (view v v.clusterLimit sectors))
    (walking : Walking v v.clusterLimit (view v v.clusterLimit sectors) dirCl chain) :
    ∃ code sectors', ensureWalk v fuel comps dirCl (Device.healthy sectors) =
        some (code, Device.healthy sectors') ∧
      ∀ except, Frame v v.clusterLimit (view v v.clusterLimit sectors)
        (view v v.clusterLimit sectors') except := by
  induction comps generalizing sectors dirCl chain with
  | nil => exact ⟨0, sectors, rfl, Frame.refl owned⟩
  | cons comp rest induction =>
      have later : ∀ comp ∈ rest, comp ≠ [] ∧ ∀ char ∈ comp, char ≠ 0 :=
        fun other member => chars other (by simp [member])
      rcases chars comp (by simp) with ⟨nonempty, nulFree⟩
      cases ensureWalk_step shape enough rest owned walking nonempty nulFree with
      | enters dir live first isDir ran =>
          rcases owned.liveDir live isDir with ⟨chain', next⟩
          rw [ran]
          exact induction later owned (.inl next)
      | blocked first isDir fails ran => exact ⟨_, sectors, ran, Frame.refl owned⟩
      | @makes _ _ sectors1 absent frame1 making ran =>
          rw [ran]
          cases making with
          | full _ _ => exact ⟨-3, sectors1, rfl, frame1⟩
          | crowded _ _ => exact ⟨-5, sectors1, rfl, frame1⟩
          | made made =>
              rcases induction later (frame1 Change.nowhere).owned made.walking with
                ⟨code, sectors', ranRest, frame⟩
              exact ⟨code, sectors', ranRest, fun except => (frame1 except).trans (frame except)⟩

end

/-! ## Writing -/

/-- What a walk that wrote a file has done: the data is stored under an entry
that the path resolves to, as it did before if the entry was there. -/
structure Written (v : Vol) (limit : Nat) (store store' : ClusterStore) (dirCl : Nat)
    (chain : List Nat) (comps : List (List UInt8)) (data : List UInt8) (slot : Slot) :
    Prop where
  stored : Stored v limit store' slot data
  name : ∃ comp, comps.getLast? = some comp ∧
    direntName (entryAt store' slot) = makeName83 comp
  before : Live v store (some slot) →
    ¬ OwnerIsDir store (some slot) ∧ Resolves v store dirCl comps slot
  after : LiveDir v limit store dirCl chain → (∀ comp ∈ comps, comp.head? ≠ some 0xE5) →
    Resolves v store' dirCl comps slot

theorem Written.name_cons {v : Vol} {limit : Nat} {store store' : ClusterStore} {dirCl : Nat}
    {chain : List Nat} {comps : List (List UInt8)} {data : List UInt8} {slot : Slot}
    (written : Written v limit store store' dirCl chain comps data slot) (comp : List UInt8)
    (more : comps ≠ []) :
    ∃ last, (comp :: comps).getLast? = some last ∧
      direntName (entryAt store' slot) = makeName83 last := by
  rcases written.name with ⟨last, isLast, name⟩
  refine ⟨last, ?_, name⟩
  rw [List.getLast?_cons_of_ne_nil more]
  exact isLast

theorem resolves_single {v : Vol} {limit : Nat} {store : ClusterStore} {dirCl : Nat}
    {chain : List Nat} {comp : List UInt8} {slot : Slot}
    (dir : LiveDir v limit store dirCl chain)
    (resolved : Resolves v store dirCl [comp] slot) :
    FirstMatch (makeName83 comp) store (chainSlots v chain) slot := by
  cases resolved with
  | last linked first =>
      rw [linked.unique (dir.chain.linked dir.occupied)] at first
      exact first
  | step _ _ _ more _ => exact absurd rfl more

/-- Nothing resolves below a directory that lists nothing. -/
theorem not_resolves_of_unlisted {v : Vol} {limit : Nat} {store : ClusterStore} {dirCl : Nat}
    {chain : List Nat} {comps : List (List UInt8)} {slot : Slot}
    (dir : DirChain v limit store dirCl chain)
    (unlisted : ∀ other ∈ chainSlots v chain, ¬ Listed (entryAt store other)) :
    ¬ Resolves v store dirCl comps slot := by
  intro resolved
  cases resolved with
  | last linked first =>
      rw [linked.unique dir.linked] at first
      exact unlisted slot first.mem first.matched.listed
  | @step _ _ _ _ middle _ linked first _ _ _ =>
      rw [linked.unique dir.linked] at first
      exact unlisted middle first.mem first.matched.listed

/-- Below a directory that stays where it is, a path that resolves after the
write does so from above. -/
theorem Written.after_step {v : Vol} {limit : Nat} {store store' : ClusterStore}
    {dirCl innerCl : Nat} {chain innerChain : List Nat} {comp : List UInt8}
    {rest : List (List UInt8)} {data : List UInt8} {slot middle : Slot}
    (inner : Written v limit store store' innerCl innerChain rest data slot)
    (frame : Frame v limit store store' slot) (more : rest ≠ [])
    (dir : LiveDir v limit store dirCl chain) (live : Live v store (some middle))
    (first : FirstMatch (makeName83 comp) store (chainSlots v chain) middle)
    (isDir : direntIsDir (entryAt store middle) = true)
    (resolved : Resolves v store' (enterDir v (direntStartCluster (entryAt store middle))) rest
      slot) :
    Resolves v store' dirCl (comp :: rest) slot := by
  have different : middle ≠ slot := by
    intro equal
    subst equal
    exact (inner.before live).1 isDir
  have kept := frame.kept middle live different
  have dir' := frame.dirs dirCl chain dir
  have first' := resolves_single dir'
    (kept.resolves dirCl chain [comp] dir (.last (dir.chain.linked dir.occupied) first))
  refine .step (dir'.chain.linked dir'.occupied) first' ?_ more ?_
  · rw [kept.entry]
    exact isDir
  · rw [kept.entry]
    exact resolved

/-- What the writing walk does at a component: at the last one it overwrites a
file or creates one, at any other it looks for a directory. -/
inductive WriteStep (v : Vol) (fuel : Nat) (data : List UInt8) (sectors : Nat → Buffer)
    (dirCl : Nat) (chain : List Nat) (comp : List UInt8) (rest : List (List UInt8)) : Prop
  | overwrites {slot code sectors'} : rest = [] →
      LiveDir v v.clusterLimit (view v v.clusterLimit sectors) dirCl chain →
      Live v (view v v.clusterLimit sectors) (some slot) →
      FirstMatch (makeName83 comp) (view v v.clusterLimit sectors) (chainSlots v chain) slot →
      Frame v v.clusterLimit (view v v.clusterLimit sectors)
        (view v v.clusterLimit sectors') slot →
      Overwriting v sectors sectors' slot data code →
      writeWalk v fuel data (comp :: rest) dirCl (Device.healthy sectors) =
        some (code, Device.healthy sectors') →
      WriteStep v fuel data sectors dirCl chain comp rest
  | creates {code sectors'} : rest = [] →
      (∀ slot, ¬ FirstMatch (makeName83 comp) (view v v.clusterLimit sectors)
        (chainSlots v chain) slot) →
      (∀ except, Frame v v.clusterLimit (view v v.clusterLimit sectors)
        (view v v.clusterLimit sectors') except) →
      Creating v sectors sectors' dirCl chain comp data code →
      writeWalk v fuel data (comp :: rest) dirCl (Device.healthy sectors) =
        some (code, Device.healthy sectors') →
      WriteStep v fuel data sectors dirCl chain comp rest
  | passes : rest ≠ [] → DirStep v fuel (writeWalk v fuel data) sectors dirCl chain comp rest →
      WriteStep v fuel data sectors dirCl chain comp rest

theorem writeWalk_step {v : Vol} (shape : Fat32Geometry v) {fuel : Nat}
    (enough : v.clusterLimit < fuel) (data : List UInt8) {sectors : Nat → Buffer} {dirCl : Nat}
    {chain : List Nat} {comp : List UInt8} (rest : List (List UInt8))
    (owned : Owned v v.clusterLimit (view v v.clusterLimit sectors))
    (walking : Walking v v.clusterLimit (view v v.clusterLimit sectors) dirCl chain)
    (nonempty : comp ≠ []) (nulFree : ∀ char ∈ comp, char ≠ 0) :
    WriteStep v fuel data sectors dirCl chain comp rest := by
  rcases dirFindEntry_healthy shape.geometry (makeName83 comp) walking.dirChain enough with
    ⟨slot, first, found⟩ | ⟨absent, code, missed⟩
  · rcases walking.found first with ⟨dir, live⟩
    cases rest with
    | nil =>
        rcases overwriteFile_spec shape owned live data with
          ⟨code, sectors', ran, frame, overwriting⟩
        refine .overwrites rfl dir live first frame overwriting ?_
        rw [writeWalk, DiskM.bind_run found]
        exact ran
    | cons next rest =>
        refine .passes (List.cons_ne_nil _ _) ?_
        cases isDir : direntIsDir (entryAt (view v v.clusterLimit sectors) slot) with
        | true =>
            refine .enters dir live first isDir ?_
            rw [writeWalk, DiskM.bind_run found]
            simp [hitAt, isDir]
        | false =>
            refine .blocked first isDir (show (-3 : Int) ≠ 0 by decide) ?_
            rw [writeWalk, DiskM.bind_run found]
            simp [hitAt, isDir]
  · cases rest with
    | nil =>
        rcases createFile_spec shape data enough owned walking nonempty nulFree absent with
          ⟨code', sectors', ran, frame, creating⟩
        refine .creates rfl absent frame creating ?_
        rw [writeWalk, DiskM.bind_run missed]
        exact ran
    | cons next rest =>
        refine .passes (List.cons_ne_nil _ _) ?_
        rcases ensureDirectory_absent shape enough owned walking nonempty nulFree absent missed
          with ⟨result, newCl, sectors', ensured, frame, making⟩
        refine .makes absent frame making ?_
        rw [writeWalk, DiskM.bind_run missed]
        simp only [List.isEmpty_cons, Bool.not_false, if_true]
        rw [DiskM.bind_run ensured, DiskM.ite_apply]
        rfl

theorem writeWalk_spec {v : Vol} (shape : Fat32Geometry v) {fuel : Nat}
    (enough : v.clusterLimit < fuel) (data : List UInt8) {comps : List (List UInt8)}
    (chars : ∀ comp ∈ comps, comp ≠ [] ∧ ∀ char ∈ comp, char ≠ 0)
    {sectors : Nat → Buffer} {dirCl : Nat} {chain : List Nat}
    (owned : Owned v v.clusterLimit (view v v.clusterLimit sectors))
    (walking : Walking v v.clusterLimit (view v v.clusterLimit sectors) dirCl chain) :
    ∃ code sectors' slot, writeWalk v fuel data comps dirCl (Device.healthy sectors) =
        some (code, Device.healthy sectors') ∧
      Frame v v.clusterLimit (view v v.clusterLimit sectors)
        (view v v.clusterLimit sectors') slot ∧
      (code = 0 → Written v v.clusterLimit (view v v.clusterLimit sectors)
        (view v v.clusterLimit sectors') dirCl chain comps data slot) := by
  induction comps generalizing sectors dirCl chain with
  | nil => exact ⟨-10, sectors, Change.nowhere, rfl, Frame.refl owned _, by simp⟩
  | cons comp rest induction =>
      have later : ∀ comp ∈ rest, comp ≠ [] ∧ ∀ char ∈ comp, char ≠ 0 :=
        fun other member => chars other (by simp [member])
      rcases chars comp (by simp) with ⟨nonempty, nulFree⟩
      cases writeWalk_step shape enough data rest owned walking nonempty nulFree with
      | @overwrites slot code sectors' last dir live first frame overwriting ran =>
          subst last
          refine ⟨code, sectors', slot, ran, frame, fun succeeded => ?_⟩
          cases overwriting with
          | refused failed _ => exact absurd succeeded failed
          | stored file content name _ _ stillFirst =>
              refine ⟨content, ⟨comp, rfl, name.trans first.matched.2⟩, fun _ => ⟨file,
                .last (dir.chain.linked dir.occupied) first⟩, fun _ _ => ?_⟩
              have dir' := frame.dirs dirCl chain dir
              exact .last (dir'.chain.linked dir'.occupied) (stillFirst _ dirCl chain dir first)
      | @creates code sectors' last absent frame creating ran =>
          subst last
          cases creating with
          | full _ _ => exact ⟨-5, sectors', Change.nowhere, ran, frame _, by simp⟩
          | crowded _ _ => exact ⟨-9, sectors', Change.nowhere, ran, frame _, by simp⟩
          | @created slot _ _ new content name found =>
              refine ⟨0, sectors', slot, ran, frame slot, fun _ =>
                ⟨content, ⟨comp, rfl, name⟩, fun slotLive => absurd slotLive new,
                  fun dir visible => ?_⟩⟩
              have dir' := (frame slot).dirs dirCl chain dir
              exact .last (dir'.chain.linked dir'.occupied)
                (found dir (visible comp (by simp)))
      | passes more step =>
          cases step with
          | @enters middle dir live first isDir ran =>
              rcases owned.liveDir live isDir with ⟨chain', next⟩
              rcases induction later owned (.inl next) with
                ⟨code, sectors', slot, ranRest, frame, written⟩
              refine ⟨code, sectors', slot, ran.trans ranRest, frame, fun succeeded => ?_⟩
              have inner := written succeeded
              refine ⟨inner.stored, inner.name_cons comp more, fun slotLive => ?_,
                fun _ visible => ?_⟩
              · rcases inner.before slotLive with ⟨file, resolved⟩
                exact ⟨file, .step (dir.chain.linked dir.occupied) first isDir more resolved⟩
              · exact inner.after_step frame more dir live first isDir (inner.after next
                  fun other member => visible other (by simp [member]))
          | blocked first isDir fails ran =>
              exact ⟨_, sectors, Change.nowhere, ran, Frame.refl owned _,
                fun succeeded => absurd succeeded fails⟩
          | @makes _ _ sectors1 absent frame1 making ran =>
              rw [ran]
              cases making with
              | full _ _ => exact ⟨-3, sectors1, Change.nowhere, rfl, frame1 _, by simp⟩
              | crowded _ _ => exact ⟨-5, sectors1, Change.nowhere, rfl, frame1 _, by simp⟩
              | @made newCl made =>
                  rcases induction later (frame1 Change.nowhere).owned made.walking with
                    ⟨code, sectors', slot, ranRest, frame, written⟩
                  refine ⟨code, sectors', slot, ranRest, (frame1 slot).trans frame,
                    fun succeeded => ?_⟩
                  have inner := written succeeded
                  refine ⟨inner.stored, inner.name_cons comp more, fun slotLive => ?_,
                    fun dir visible => ?_⟩
                  · -- what the new directory holds was not there before
                    have apart : slot ≠ Change.nowhere := by
                      intro equal
                      subst equal
                      exact Change.nowhere_not_placed (owned.placed_of_live slotLive).1
                    have live1 := ((frame1 Change.nowhere).kept slot slotLive apart).live
                    exact absurd (inner.before live1).2
                      (not_resolves_of_unlisted made.walking.dirChain made.unlisted)
                  · rcases made.found dir (visible comp (by simp)) with
                      ⟨next, middle, first, isDir, start⟩
                    have dir1 := (frame1 Change.nowhere).dirs dirCl chain dir
                    have live : Live v (view v v.clusterLimit sectors1) (some middle) :=
                      Placed.live ⟨dirCl, chain, dir1, first.mem⟩ first.matched.listed
                    apply inner.after_step frame more dir1 live first isDir
                    rw [start, enterDir, if_neg made.claimed.fresh.ne_zero]
                    exact inner.after next fun other member => visible other (by simp [member])

end ParanOS
