import ParanOS.Foundation.Lockstep
import ParanOS.Fat.Lost
import ParanOS.Fat.ShortName

/-! # Files of the root directory by name

`fat32_read_file` looks a name up in the root directory only, with a matcher and a
loop of its own. On names that are one upper-case component it is the path function.
-/

namespace ParanOS

open Foundation

/-! ## The lookup by name -/

/-- The eleven bytes that `match_name83` builds from the wanted name. -/
def wantName83 (name : List UInt8) : List UInt8 :=
  let base := (name.takeWhile (· ≠ 0x2E)).take 8
  let rest := name.drop base.length
  let rest := if rest.head? = some 0x2E then rest.tail else rest
  padTo 11 (padTo 8 base ++ rest.take 3)

def matchName83 (ent11 name : List UInt8) : Bool := ent11 == wantName83 name

/-- One entry of the search: a start cluster with a size, or nothing found. -/
def visitName83 (name : List UInt8) (_ _ : Nat) (sec : Buffer) (off : Nat) :
    Option (Except Int (Nat × Nat)) :=
  if sec off = 0x00 then some (.ok (0, 0))
  else if sec off = 0xE5 then none
  else if sec (off + 11) = attrLongName then none
  else if matchName83 (sec.bytes off 11) name then
    some (.ok (direntStartCluster (direntAt sec off), (direntAt sec off).getU32 28))
  else none

/-- `fat32_read_file` behind the file system test. -/
def readRootFile (v : Vol) (fuel : Nat) (name : List UInt8) (maxBytes : Nat) :
    DiskM ReadResult := do
  match ← dirScan v (visitName83 name) (.error (-2)) (.ok (0, 0)) fuel v.rootClus with
  | .error code => pure ⟨code, 0, []⟩
  | .ok (startClus, fileSize) =>
      if startClus = 0 then pure ⟨-3, 0, []⟩ -- not found
      else do
        let (failed, out) ← readClusters v fuel startClus (min fileSize maxBytes) []
        if failed then pure ⟨-4, 0, out⟩ else pure ⟨0, min fileSize maxBytes, out⟩

def fat32ReadFile (v : Vol) (fuel : Nat) (name83 : CString) (maxBytes : Nat) :
    DiskM (Vol × ReadResult) :=
  match v.fsType with
  | .exfat => fat32ReadFilePath v fuel name83 maxBytes
  | .fat32 => do
      let result ← readRootFile v fuel name83.chars maxBytes
      pure (v, result)

/-! ## The two matchers -/

theorem padTo_append (chars rest : List UInt8) (fits : chars.length = 8) :
    padTo 11 (chars ++ rest) = chars ++ padTo 3 rest := by
  simp only [padTo, List.length_append, List.append_assoc, fits]
  congr 3
  omega

/-- Twelve characters of a name are all that its short name shows. -/
theorem makeName83_take (name : List UInt8) :
    makeName83 (name.take 12) = makeName83 name := by
  have base : ((name.take 12).takeWhile (· ≠ 0x2E)).take 8 =
      (name.takeWhile (· ≠ 0x2E)).take 8 := by
    rw [← List.take_takeWhile, List.take_take]
    rfl
  have short : ((name.takeWhile (· ≠ 0x2E)).take 8).length ≤ 8 := List.length_take_le _ _
  simp only [makeName83, base]
  generalize ((name.takeWhile (· ≠ 0x2E)).take 8).length = width at short
  rw [List.drop_take]
  generalize name.drop width = rest
  -- at least four characters are left for the dot and the extension
  have left : 4 ≤ 12 - width := by omega
  generalize 12 - width = room at left
  have first : (rest.take room).head? = rest.head? := by
    rw [List.head?_take, if_neg (by omega)]
  congr 3
  by_cases dot : rest.head? = some 0x2E
  · rw [if_pos (first.trans dot), if_pos dot, ← List.drop_one, ← List.drop_one, List.drop_take,
      List.take_take, Nat.min_eq_left (by omega)]
  · rw [if_neg (first ▸ dot), if_neg dot, List.take_take, Nat.min_eq_left (by omega)]

/-- Without lower-case letters the two ways to a short name are the same. -/
theorem wantName83_eq {name : List UInt8}
    (upper : ∀ char ∈ name, ¬ (0x61 ≤ char ∧ char ≤ 0x7A)) :
    wantName83 name = makeName83 name := by
  have capitals {chars : List UInt8} (inside : ∀ char ∈ chars, char ∈ name) :
      chars.map toUpper = chars :=
    map_toUpper_capitals fun char member => if_neg (upper char (inside char member))
  have short : ((name.takeWhile (· ≠ 0x2E)).take 8).length ≤ 8 := List.length_take_le _ _
  simp only [wantName83, makeName83]
  rw [padTo_append _ _ (padTo_length short), capitals, capitals]
  · intro char member
    have behind := List.mem_of_mem_take member
    split at behind
    · exact List.mem_of_mem_drop (List.mem_of_mem_tail behind)
    · exact List.mem_of_mem_drop behind
  · intro char member
    exact (List.takeWhile_sublist _).subset (List.mem_of_mem_take member)

/-! ## The two searches -/

/-- What the search by name makes of the outcome of a lookup. -/
def rootFound : Except Int DirHit → Except Int (Nat × Nat)
  | .ok hit => .ok (direntStartCluster hit.de, hit.de.getU32 28)
  | .error code => if code = -1 then .error (-2) else .ok (0, 0)

theorem visitName83_eq {name : List UInt8}
    (upper : ∀ char ∈ name, ¬ (0x61 ≤ char ∧ char ≤ 0x7A)) :
    visitName83 name = fun lba s sec off =>
      (visitEntry (makeName83 name) lba s sec off).map rootFound := by
  funext lba s sec off
  simp only [visitName83, visitEntry, matchName83, wantName83_eq upper, beq_iff_eq]
  split
  · rfl
  · split
    · rfl
    · split
      · rfl
      · split <;> rfl

/-- Two walks whose visits correspond. -/
theorem dirScan_sideBySide {α β : Type} (v : Vol) (translate : α → β)
    (visit : Nat → Nat → Buffer → Nat → Option α) (failed exhausted : α)
    (fuel dirCl : Nat) :
    SideBySide (fun value value' => value' = translate value)
      (dirScan v visit failed exhausted fuel dirCl)
      (dirScan v (fun lba s sec off => (visit lba s sec off).map translate)
        (translate failed) (translate exhausted) fuel dirCl) := by
  induction fuel generalizing dirCl with
  | zero => exact .diverge
  | succ fuel induction =>
      rw [dirScan, dirScan]
      apply SideBySide.ite
      · exact fun _ => .pure rfl
      · intro _
        apply SideBySide.bind
        · apply @SideBySide.findSomeM? _ _ fun value value' => value' = translate value
          intro s
          apply SideBySide.bind_same
          intro sec
          cases sec with
          | none => exact .pure (.some rfl)
          | some sec =>
              have mapped := @List.map_findSome? _ _ _ (visit (clusToLba v dirCl) s sec)
                translate (slotOffsets v)
              apply SideBySide.pure
              change Option.Rel _ _ ((slotOffsets v).findSome?
                (Option.map translate ∘ visit (clusToLba v dirCl) s sec))
              rw [← mapped]
              cases (slotOffsets v).findSome? (visit (clusToLba v dirCl) s sec) with
              | none => exact .none
              | some value => exact .some rfl
        · intro found found' same
          cases same with
          | some holds => exact .pure holds
          | none => exact .bind_same _ induction

/-- The search by name is the lookup of the short name. -/
theorem rootScan_lookup (v : Vol) (fuel : Nat) {name : List UInt8}
    (upper : ∀ char ∈ name, ¬ (0x61 ≤ char ∧ char ≤ 0x7A)) {device device' : Device}
    {found : Except Int DirHit}
    (ran : dirFindEntry v (makeName83 name) fuel v.rootClus device = some (found, device')) :
    dirScan v (visitName83 name) (.error (-2)) (.ok (0, 0)) fuel v.rootClus device =
      some (rootFound found, device') := by
  have scans := dirScan_sideBySide v rootFound (visitEntry (makeName83 name)) (.error (-1))
    (.error (-3)) fuel v.rootClus
  rcases scans.returns ran with ⟨result, scanned, translated⟩
  rw [visitName83_eq upper, ← translated]
  exact scanned

theorem readRootFile_found {v : Vol} {fuel maxBytes : Nat} {name : List UInt8}
    (upper : ∀ char ∈ name, ¬ (0x61 ≤ char ∧ char ≤ 0x7A)) {device device' : Device}
    {hit : DirHit} (occupied : direntStartCluster hit.de ≠ 0)
    (found : dirFindEntry v (makeName83 name) fuel v.rootClus device =
      some (.ok hit, device')) {out : List UInt8} {device'' : Device}
    (read : readClusters v fuel (direntStartCluster hit.de)
      (min (hit.de.getU32 28) maxBytes) [] device' = some ((false, out), device'')) :
    readRootFile v fuel name maxBytes device =
      some (⟨0, min (hit.de.getU32 28) maxBytes, out⟩, device'') := by
  have scanned := rootScan_lookup v fuel upper found
  rw [readRootFile, DiskM.bind_run scanned]
  simp only [rootFound, if_neg occupied]
  rw [DiskM.bind_run read]
  rfl

theorem readRootFile_absent {v : Vol} {fuel maxBytes : Nat} {name : List UInt8}
    (upper : ∀ char ∈ name, ¬ (0x61 ≤ char ∧ char ≤ 0x7A)) {device device' : Device}
    {code : Int} (absent : dirFindEntry v (makeName83 name) fuel v.rootClus device =
      some (.error code, device')) :
    ∃ result, readRootFile v fuel name maxBytes device = some (result, device') ∧
      result.code ≠ 0 := by
  have scanned := rootScan_lookup v fuel upper absent
  by_cases broken : code = -1
  · refine ⟨⟨-2, 0, []⟩, ?_, by simp⟩
    rw [readRootFile, DiskM.bind_run scanned]
    simp only [rootFound, if_pos broken]
    rfl
  · refine ⟨⟨-3, 0, []⟩, ?_, by simp⟩
    rw [readRootFile, DiskM.bind_run scanned]
    simp only [rootFound, if_neg broken]
    rfl

/-! ## Names of one component -/

/-- A name without a slash or a drive is one component, cut to twelve characters. -/
theorem components83_flat {name : CString} (nonempty : name.chars ≠ [])
    (flat : ∀ char ∈ name.chars, char ≠ 0x2F)
    (noDrive : (name.chars.drop 1).head? ≠ some 0x3A) :
    name.components83 = [name.chars.take 12] := by
  have whole : name.chars.dropWhile (· = 0x2F) = name.chars := by
    cases shape : name.chars with
    | nil => rfl
    | cons char rest =>
        rw [List.dropWhile_cons_of_neg]
        simpa using flat char (by simp [shape])
  have undriven : skipDrivePrefix name.chars = name.chars := by
    match shape : name.chars with
    | [] => rfl
    | [char] =>
        rw [shape] at whole
        exact whole
    | drive :: colon :: rest =>
        rw [shape] at whole noDrive
        rw [skipDrivePrefix, if_neg (by simpa using noDrive)]
        exact whole
  have single := @component_of 12 name.chars [] nonempty flat (.inl rfl)
  rw [List.append_nil] at single
  rw [CString.components83, undriven, components_eq, single]
  rfl

/-- On a well-formed volume the two functions agree on the names of one component: a file
with a cluster is read by both alike, and an entry that the path function does not find is
not read by name. -/
theorem fat32ReadFile_agrees {v : Vol} {sectors : Nat → Buffer} {fuel : Nat}
    (wellFormed : WellFormed v sectors) (enough : v.clusterLimit < fuel) {name : CString}
    (nonempty : name.chars ≠ [])
    (upper : ∀ char ∈ name.chars, ¬ (0x61 ≤ char ∧ char ≤ 0x7A))
    (flat : ∀ char ∈ name.chars, char ≠ 0x2F)
    (noDrive : (name.chars.drop 1).head? ≠ some 0x3A) (maxBytes : Nat) :
    (∀ slot, Resolves v (view v v.clusterLimit sectors) v.rootClus name.components83 slot →
      direntIsDir (entryAt (view v v.clusterLimit sectors) slot) = false →
      direntStartCluster (entryAt (view v v.clusterLimit sectors) slot) ≠ 0 →
      ∃ count out,
        fat32ReadFilePath v fuel name maxBytes (Device.healthy sectors) =
          some ((v, ⟨0, count, out⟩), Device.healthy sectors) ∧
        fat32ReadFile v fuel name maxBytes (Device.healthy sectors) =
          some ((v, ⟨0, count, out⟩), Device.healthy sectors)) ∧
    ((∀ slot, ¬ Resolves v (view v v.clusterLimit sectors) v.rootClus name.components83 slot) →
      fat32ReadFilePath v fuel name maxBytes (Device.healthy sectors) =
        some ((v, ⟨-2, 0, []⟩), Device.healthy sectors) ∧
      ∃ result, fat32ReadFile v fuel name maxBytes (Device.healthy sectors) =
        some ((v, result), Device.healthy sectors) ∧ result.code ≠ 0) := by
  rcases wellFormed.owned.liveDir_root with ⟨chain, root⟩
  have single := components83_flat nonempty flat noDrive
  have short := makeName83_take name.chars
  constructor
  · intro slot resolved file occupied
    have live := wellFormed.owned.live_of_resolves root resolved
    rcases wellFormed.owned.tenancy.held (some slot) live with ⟨fileChain, holds⟩
    have path := fat32ReadFilePath_resolves wellFormed enough resolved holds maxBytes
    rw [single] at resolved
    have first : FirstMatch (makeName83 name.chars) (view v v.clusterLimit sectors)
        (chainSlots v chain) slot := by
      cases resolved with
      | last linked first =>
          rw [short, linked.unique (root.chain.linked root.occupied)] at first
          exact first
      | step _ _ _ more _ => exact absurd rfl more
    have linked := holds.linked occupied
    have length : fileChain.length ≤ v.clusterLimit :=
      length_le_of_nodup_of_lt linked.nodup fun cl member => (holds.inside member).2
    have found := dirFindEntry_first wellFormed.shape enough root first
    have read := readClusters_healthy wellFormed.shape.geometry linked
      (fun _ member => holds.inside member) (Nat.lt_of_le_of_lt length enough)
      (min ((entryAt (view v v.clusterLimit sectors) slot).getU32 28) maxBytes) []
    have byName := @readRootFile_found v fuel maxBytes name.chars upper _ _
      (hitAt v (view v v.clusterLimit sectors) slot) occupied found _ _ read
    have data : entryResult v (view v v.clusterLimit sectors) slot maxBytes fileChain =
        ⟨0, min ((entryAt (view v v.clusterLimit sectors) slot).getU32 28) maxBytes,
          (chainData v (view v v.clusterLimit sectors) fileChain).take
            (min ((entryAt (view v v.clusterLimit sectors) slot).getU32 28) maxBytes)⟩ := by
      rw [entryResult, file, fileResult, if_neg Bool.false_ne_true, if_neg occupied]
    refine ⟨_, _, data ▸ path, ?_⟩
    simp only [fat32ReadFile, wellFormed.shape.fat32]
    rw [DiskM.bind_run byName]
    rfl
  · intro absent
    have missing : ∃ code, dirFindEntry v (makeName83 name.chars) fuel v.rootClus
        (Device.healthy sectors) = some (.error code, Device.healthy sectors) := by
      rcases dirFindEntry_healthy wellFormed.shape.geometry (makeName83 name.chars)
        root.dirChain enough with ⟨slot, first, _⟩ | ⟨_, code, ran⟩
      · refine absurd ?_ (absent slot)
        rw [single]
        rw [← short] at first
        exact .last (root.chain.linked root.occupied) first
      · exact ⟨code, ran⟩
    rcases missing with ⟨code, missed⟩
    constructor
    · have walked : readWalk v fuel maxBytes [name.chars.take 12] v.rootClus
          (Device.healthy sectors) = some (⟨-2, 0, []⟩, Device.healthy sectors) := by
        rw [readWalk, short, DiskM.bind_run missed]
        rfl
      simp only [fat32ReadFilePath, wellFormed.shape.fat32]
      rw [single, DiskM.bind_run walked]
      rfl
    · rcases readRootFile_absent upper missed with ⟨result, ran, failed⟩
      refine ⟨result, ?_, failed⟩
      simp only [fat32ReadFile, wellFormed.shape.fat32]
      rw [DiskM.bind_run ran]
      rfl

theorem longFile_resolves :
    Resolves smallVol (view smallVol smallVol.clusterLimit longFile) smallVol.rootClus
      (CString.ofArray [0x41]).components83 onlySlot := by
  have root := smallVol_root longFile (by decide)
  have matched : Matched (makeName83 [0x41])
      (entryAt (view smallVol smallVol.clusterLimit longFile) onlySlot) := by
    decide
  exact .last (root.linked (by decide)) ⟨[], _, rfl, by simp, matched⟩

theorem fat32ReadFile_agrees_long :
    ∃ count out,
      fat32ReadFilePath smallVol 13 (.ofArray [0x41]) 600 (Device.healthy longFile) =
        some ((smallVol, ⟨0, count, out⟩), Device.healthy longFile) ∧
      fat32ReadFile smallVol 13 (.ofArray [0x41]) 600 (Device.healthy longFile) =
        some ((smallVol, ⟨0, count, out⟩), Device.healthy longFile) :=
  (fat32ReadFile_agrees longFile_wellFormed (by decide) (by decide) (by decide +kernel)
    (by decide +kernel) (by decide) 600).1 onlySlot longFile_resolves (by decide +kernel)
    (by decide +kernel)

end ParanOS
