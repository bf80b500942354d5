import ParanOS.Fat.Serving

/-! # The last write of a file

Over a whole run of calls, with failures among them, a file is read as it was last written. Seen
on the tree this is short: a step on the tree makes one path a file, or none.
-/

namespace ParanOS

open Foundation

/-- Calls one after another, with what each returned. -/
def logCalls (fuel : Nat) : List Call → Vol → DiskM (Vol × List (Call × Int))
  | [], v => pure (v, [])
  | call :: rest, v => do
      let (v, code) ← call.run fuel v
      let (v, log) ← logCalls fuel rest v
      pure (v, (call, code) :: log)

/-- The data that the call writes under the names. -/
def Call.writes (names : List (List UInt8)) : Call → Option (List UInt8)
  | .writeFile path data => if names = pathNames path.components83 then some data else none
  | .ensureDir _ => none

/-- The data of the last write under the names that returned 0. -/
def lastStored (names : List (List UInt8)) : List (Call × Int) → Option (List UInt8)
  | [] => none
  | (call, code) :: log =>
      (lastStored names log).or (if code = 0 then call.writes names else none)

theorem Call.node_content (v : Vol) (call : Call) (names : List (List UInt8)) :
    (call.writes names).map (storedContent v) =
      if names = pathNames call.path.components83 then (call.node v).content? else none := by
  cases call with
  | writeFile path data =>
      rw [Call.writes, Call.path]
      split
      · rfl
      · rfl
  | ensureDir path =>
      rw [Call.writes, Call.node]
      split
      · rfl
      · rfl

section

variable {v : Vol} {sectors : Nat → Buffer} {tree : VolumeTree} {fuel : Nat}

/-- After any run the files are those that were written last, and those that were there. -/
theorem logCalls_files (represents : Represents v sectors tree) (enough : v.clusterLimit < fuel)
    (calls : List Call) (findable : ∀ call ∈ calls, Findable call.path.components83) :
    ∃ log sectors' after, logCalls fuel calls v (Device.healthy sectors) =
        some ((v, log), Device.healthy sectors') ∧ Represents v sectors' after ∧
      ∀ names, after.fileAt names =
        ((lastStored names log).map (storedContent v)).or (tree.fileAt names) := by
  induction calls generalizing sectors tree with
  | nil => exact ⟨[], sectors, tree, rfl, represents, fun _ => rfl⟩
  | cons call rest induction =>
      rcases call.serves represents enough (findable call (by simp)) with
        ⟨code, between, middle, ran, represents', serves⟩
      rcases induction represents' fun other member => findable other (by simp [member]) with
        ⟨log, sectors', after, ranRest, final, files⟩
      refine ⟨(call, code) :: log, sectors', after, ?_, final, fun names => ?_⟩
      · rw [logCalls, DiskM.bind_run ran]
        dsimp only
        rw [DiskM.bind_run ranRest]
        rfl
      · have step : middle.fileAt names =
            ((if code = 0 then call.writes names else none).map (storedContent v)).or
              (tree.fileAt names) := by
          rw [serves.fileAt]
          by_cases done : code = 0
          · rw [if_pos done, call.node_content]
            simp [done]
          · rw [if_neg done]
            simp [done]
        rw [files, step, lastStored, Option.map_or, Option.or_assoc]

/-- The path leads to a file. -/
def LeadsToFile (v : Vol) (sectors : Nat → Buffer) (path : CString) : Prop :=
  ∃ slot, Resolves v (view v v.clusterLimit sectors) v.rootClus path.components83 slot ∧
    direntIsDir (entryAt (view v v.clusterLimit sectors) slot) = false

theorem Represents.leadsToFile_iff (represents : Represents v sectors tree) (path : CString) :
    LeadsToFile v sectors path ↔ tree.fileAt (pathNames path.components83) ≠ none := by
  rw [FileTree.fileAt]
  constructor
  · rintro ⟨slot, resolved, notDir⟩
    have owned := represents.wellFormed.owned
    rcases owned.liveDir_root with ⟨_, root⟩
    rcases owned.standsFor (owned.live_of_resolves root resolved) with ⟨node, stands⟩
    rw [(represents.nodes _ _).mpr (.entry resolved stands)]
    cases stands with
    | dir isDir => simp [isDir] at notDir
    | file _ _ => simp [FileNode.content?]
  · intro file
    cases there : tree.node (pathNames path.components83) with
    | none =>
        rw [there] at file
        exact absurd rfl file
    | some node =>
        rw [there] at file
        have shows := (represents.nodes _ _).mp there
        have more : path.components83 ≠ [] := by
          intro empty
          rw [empty, pathNames_nil, tree.root, Option.some.injEq] at there
          rw [← there] at file
          exact file rfl
        rcases shows.of_ne_nil _ more with ⟨slot, resolved, stands⟩
        refine ⟨slot, resolved, ?_⟩
        rw [← stands.isDir]
        cases node with
        | dir => exact absurd rfl file
        | file content => rfl

theorem readNode_fileAt (tree : VolumeTree) (names : List (List UInt8)) (maxBytes : Nat) :
    (∀ content, tree.fileAt names = some content →
      readNode tree names maxBytes = content maxBytes) ∧
    (tree.fileAt names = none → (readNode tree names maxBytes).code ≠ 0) := by
  rw [FileTree.fileAt, readNode]
  cases tree.node names with
  | none =>
      refine ⟨fun content there => absurd there (by simp), fun _ => ?_⟩
      dsimp only
      split
      · decide
      · decide
  | some node =>
      cases node with
      | dir =>
          refine ⟨fun content there => absurd there (by simp [FileNode.content?]), fun _ => ?_⟩
          dsimp only
          split
          · decide
          · decide
      | file content =>
          refine ⟨fun other same => ?_, fun there => absurd there (by simp [FileNode.content?])⟩
          rw [← Option.some.inj same]

end

end ParanOS
