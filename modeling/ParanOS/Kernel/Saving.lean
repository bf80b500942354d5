import ParanOS.Fat.Contents
import ParanOS.Fat.Lost
import ParanOS.Foundation.Causal
import ParanOS.Kernel.Login
import ParanOS.Kernel.SavePath

/-! # Opening a file and saving it again

A file goes through the editor's buffer, and from there into one cluster under the path that the
editor has put together. What a path leads to is only changed by the write itself: the directories
that the desktop creates afterwards are new.
-/

namespace ParanOS

open Foundation

/-- `notepad_open_path`, and `notepad_save_current` without a name. -/
def openThenSave (env : Env) (path : List UInt8) (ui : Ui) : DiskM (Int × Ui) := do
  let ui ← notepadOpenPath env path ui
  notepadSaveCurrent env none ui

/-- The size that the entry in a slot records. -/
def recordedSize (v : Vol) (sectors : Nat → Buffer) (slot : Slot) : Nat :=
  (entryAt (view v v.clusterLimit sectors) slot).getU32 28

/-- The path leads to a file with content, whose name `sanitize_txt_name` leaves as it is. -/
structure TextFile (v : Vol) (sectors : Nat → Buffer) (path : CString) (slot : Slot) : Prop where
  resolved : Resolves v (view v v.clusterLimit sectors) v.rootClus path.components83 slot
  file : direntIsDir (entryAt (view v v.clusterLimit sectors) slot) = false
  occupied : direntStartCluster (entryAt (view v v.clusterLimit sectors) slot) ≠ 0
  filled : recordedSize v sectors slot ≠ 0
  fixed : sanitizeTxtName 32 (pathBase path.chars) = pathBase path.chars

/-! ## Creating directories and listing the desktop -/

section

variable {ui : Ui} {env : Env} {sectors : Nat → Buffer} (wellFormed : WellFormed ui.vol sectors)
  (enough : ui.vol.clusterLimit < env.fuel)
include wellFormed enough

theorem Ui.ensureDir_onlyAdds (path : List UInt8) :
    ∃ code sectors', ui.ensureDir env path (Device.healthy sectors) =
        some ((ui, code), Device.healthy sectors') ∧ OnlyAdds ui.vol sectors sectors' := by
  rcases fat32EnsureDirPath_onlyAdds wellFormed enough (.ofArray path) with
    ⟨code, sectors', ran, adds⟩
  exact ⟨code, sectors', DiskM.bind_run ran, adds⟩

theorem ensureUserDirsOnDisk_onlyAdds (uname : List UInt8) :
    ∃ sectors', ensureUserDirsOnDisk env uname ui (Device.healthy sectors) =
        some (ui, Device.healthy sectors') ∧ OnlyAdds ui.vol sectors sectors' := by
  rw [ensureUserDirsOnDisk]
  split
  · exact ⟨sectors, rfl, .refl wellFormed⟩
  · have of_same : ∀ {run : Option (Ui × Device)}, (∃ ui' sectors',
        run = some (ui', Device.healthy sectors') ∧ ui' = ui ∧ OnlyAdds ui.vol sectors sectors') →
        ∃ sectors', run = some (ui, Device.healthy sectors') ∧
          OnlyAdds ui.vol sectors sectors' := by
      rintro run ⟨_, sectors', ran, rfl, adds⟩
      exact ⟨sectors', ran, adds⟩
    apply of_same
    apply @foldlM_healthy Ui _ _ fun current middle =>
      current = ui ∧ OnlyAdds ui.vol sectors middle
    · rintro dir _ _ middle ⟨rfl, before⟩
      rcases Ui.ensureDir_onlyAdds (before.wellFormed wellFormed) enough dir with
        ⟨code, sectors', ran, later⟩
      exact ⟨_, sectors', DiskM.bind_run ran, rfl, before.trans later⟩
    · exact ⟨rfl, .refl wellFormed⟩

theorem desktopRefreshFromPath_onlyAdds :
    ∃ ui' sectors', desktopRefreshFromPath env ui (Device.healthy sectors) =
        some (ui', Device.healthy sectors') ∧ OnlyAdds ui.vol sectors sectors' ∧
      ui'.vol = ui.vol ∧ ui'.volMounted = ui.volMounted := by
  rw [desktopRefreshFromPath]
  split
  · exact ⟨ui, sectors, rfl, .refl wellFormed, rfl, rfl⟩
  · rcases ensureUserDirsOnDisk_onlyAdds wellFormed enough ui.session.loggedInUser with
      ⟨sectors', ran, adds⟩
    rcases fat32ListDirPath_healthy (adds.wellFormed wellFormed) enough
      (.ofArray ui.session.desktopDir) 128 with ⟨⟨code, entries⟩, listed⟩
    have ranList : ui.listDir env ui.session.desktopDir 128 (Device.healthy sectors') =
        some ((ui, code, entries), Device.healthy sectors') := DiskM.bind_run listed
    rw [DiskM.bind_run ran, DiskM.bind_run ranList]
    dsimp only
    split
    · refine ⟨_, sectors', rfl, adds, ?_⟩
      rw [desktopRender]
      split <;> exact ⟨rfl, rfl⟩
    · exact ⟨_, sectors', rfl, adds, rfl, rfl⟩

end

/-! ## The editor -/

/-- The editor shows a file that was read from this path. -/
structure Opened (ui : Ui) (fullpath text : List UInt8) (ui' : Ui) : Prop where
  vol : ui'.vol = ui.vol
  volMounted : ui'.volMounted = ui.volMounted
  session : ui'.session = ui.session
  path : ui'.notepad.path = copyInto 96 fullpath
  name : ui'.notepad.name = copyInto 13 (pathBase fullpath)
  text : ui'.notepad.text = text

theorem notepadOpenPath_opened {env : Env} {ui : Ui} {path out : List UInt8} {count : Nat}
    {device device' : Device} (given : path ≠ [])
    (read : fat32ReadFilePath ui.vol env.fuel (.ofArray path) (notepadBufSize - 1) device =
      some ((ui.vol, ⟨0, count, out⟩), device')) :
    ∃ ui', notepadOpenPath env path ui device = some (ui', device') ∧
      Opened ui path (out ++ List.replicate (count - out.length) 0) ui' := by
  have ran : Ui.readFile (notepadSetPathAndName path { ui with notepad := ⟨.zero, [], [], []⟩ })
      env path (notepadBufSize - 1) device = some ((_, ⟨0, count, out⟩), device') :=
    DiskM.bind_run read
  rw [notepadOpenPath, if_neg given, DiskM.bind_run ran]
  exact ⟨_, rfl, rfl, rfl, rfl, rfl, rfl, rfl⟩

/-- What is saved, and where. -/
theorem notepadSaveCurrent_writes {env : Env} {ui ui1 : Ui} {path text : List UInt8}
    {device device' : Device} {code : Int} (opened : Opened ui path text ui1)
    (mounted : ui.volMounted = true) (given : path ≠ []) (named : pathBase path ≠ [])
    (filled : text ≠ [])
    (wrote : fat32WriteFilePath ui.vol env.fuel (.ofArray (savePath ui path)) text device =
      some ((ui.vol, code), device')) :
    ∃ ui2, ui2.vol = ui.vol ∧ notepadSaveCurrent env none ui1 device =
      (if code = 0 then (do
        let ui ← desktopRefreshFromPath env ui2
        pure (code, ui))
      else pure (code, ui2)) device' := by
  have ready : ensureVolumeMounted env ui1 device = some ((true, ui1), device) := by
    rw [ensureVolumeMounted, if_pos (opened.volMounted.trans mounted)]
    rfl
  have pathGiven : ui1.notepad.path ≠ [] := by
    rw [opened.path, copyInto]
    simpa using given
  have nameGiven : ui1.notepad.name ≠ [] := by
    rw [opened.name, copyInto]
    simpa using named
  have saved : (if pathDirname 96 ui1.notepad.path = [] then
        desktopPathForName ui1 (sanitizeTxtName 32 ui1.notepad.name)
      else pathJoin 96 (pathDirname 96 ui1.notepad.path)
        (sanitizeTxtName 32 ui1.notepad.name)) = savePath ui path := by
    rw [opened.path, opened.name, desktopPathForName, opened.session]
    rfl
  have wrote1 : ui1.writeFile env (savePath ui path) text device = some ((ui1, code), device') := by
    rw [← opened.vol] at wrote
    exact DiskM.bind_run wrote
  rw [notepadSaveCurrent, DiskM.bind_run ready]
  dsimp only
  rw [Option.getD_none, if_neg (by simpa using nameGiven), if_neg pathGiven, saved, opened.text,
    if_neg filled, DiskM.bind_run wrote1]
  by_cases done : code = 0
  · exact ⟨notepadSetPathAndName (savePath ui path) ui1, opened.vol, by rw [done]; rfl⟩
  · refine ⟨ui1, opened.vol, ?_⟩
    dsimp only
    rw [if_neg done, if_neg done]

/-! ## The content afterwards -/

section

variable {v : Vol} {sectors : Nat → Buffer} {path : CString} {slot : Slot}
  (text : TextFile v sectors path slot)
include text

theorem TextFile.path_ne_nil : path.chars ≠ [] := by
  intro empty
  have none : path.components83 = [] := by
    rw [CString.components83, empty]
    rfl
  have resolved := text.resolved
  rw [none] at resolved
  cases resolved

theorem TextFile.name_ne_nil : pathBase path.chars ≠ [] := by
  intro empty
  have fixed := text.fixed
  rw [empty] at fixed
  exact absurd fixed (by decide)

variable (wellFormed : WellFormed v sectors) {fuel : Nat} (enough : v.clusterLimit < fuel)
include wellFormed enough

/-- Reading such a file returns its bytes, as many as were asked for. -/
theorem TextFile.read :
    ∃ content : List UInt8, v.clusterBytes ≤ content.length ∧
      ∀ maxBytes, fat32ReadFilePath v fuel path maxBytes (Device.healthy sectors) =
        some ((v, ⟨0, min (recordedSize v sectors slot) maxBytes,
          content.take (min (recordedSize v sectors slot) maxBytes)⟩), Device.healthy sectors) := by
  rcases wellFormed.owned.liveDir_root with ⟨_, root⟩
  have live := wellFormed.owned.live_of_resolves root text.resolved
  rcases wellFormed.owned.tenancy.held (some slot) live with ⟨chain, holds⟩
  refine ⟨chainData v (view v v.clusterLimit sectors) chain, ?_, ?_⟩
  · have first := List.length_pos_of_mem (holds.start_mem text.occupied)
    rw [chainData_length, Vol.clusterBytes, Nat.mul_comm v.bytesPerSec]
    exact Nat.le_mul_of_pos_left _ first
  · intro maxBytes
    rw [fat32ReadFilePath_resolves wellFormed enough text.resolved holds, entryResult, text.file,
      if_neg Bool.false_ne_true, fileResult, if_neg text.occupied]
    rfl

end

/-- What is behind the write does not change the content. -/
theorem notepadSaveCurrent_contentAt {env : Env} {ui ui1 : Ui} {path : CString} {text : List UInt8}
    {sectors sectors1 : Nat → Buffer} {code : Int} {slot : Slot}
    (opened : Opened ui path.chars text ui1) (mounted : ui.volMounted = true)
    (given : path.chars ≠ []) (named : pathBase path.chars ≠ []) (filled : text ≠ [])
    (wrote : fat32WriteFilePath ui.vol env.fuel (.ofArray (savePath ui path.chars)) text
      (Device.healthy sectors) = some ((ui.vol, code), Device.healthy sectors1))
    (wellFormed : WellFormed ui.vol sectors1) (enough : ui.vol.clusterLimit < env.fuel)
    (resolved : Resolves ui.vol (view ui.vol ui.vol.clusterLimit sectors1) ui.vol.rootClus
      path.components83 slot) :
    ∃ result sectors', notepadSaveCurrent env none ui1 (Device.healthy sectors) =
        some (result, Device.healthy sectors') ∧
      contentAt ui.vol env.fuel path sectors' = contentAt ui.vol env.fuel path sectors1 := by
  rcases notepadSaveCurrent_writes opened mounted given named filled wrote with ⟨ui2, vol, ran⟩
  rw [ran]
  by_cases done : code = 0
  · rw [if_pos done]
    rw [← vol] at wellFormed enough
    rcases desktopRefreshFromPath_onlyAdds wellFormed enough with
      ⟨ui', sectors', refreshed, adds, _⟩
    rw [vol] at wellFormed enough adds
    rw [DiskM.bind_run refreshed]
    exact ⟨_, sectors', rfl, adds.contentAt_eq wellFormed enough resolved⟩
  · rw [if_neg done]
    exact ⟨_, sectors1, rfl, rfl⟩

/-- A buffer and then a cluster let a file through that fits into both. -/
theorem through_buffer_iff {content : List UInt8} {size buffer cluster : Nat}
    (long : cluster ≤ content.length) {text : List UInt8}
    (held : text = content.take (min size buffer) ++
      List.replicate (min size buffer - (content.take (min size buffer)).length) 0) :
    ((fun maxBytes => some (⟨0, min (min text.length cluster) maxBytes,
          (text.take cluster).take maxBytes⟩ : ReadResult)) =
        fun maxBytes => some ⟨0, min size maxBytes, content.take (min size maxBytes)⟩) ↔
      size ≤ min buffer cluster := by
  have length : text.length = min size buffer := by
    rw [held, List.length_append, List.length_replicate, List.length_take]
    omega
  constructor
  · intro same
    have whole := congrFun same size
    rw [Option.some.injEq, ReadResult.mk.injEq, length] at whole
    omega
  · intro fits
    have plain : text = content.take size := by
      rw [held, Nat.min_eq_left (show size ≤ buffer by omega), List.length_take,
        Nat.min_eq_left (show size ≤ content.length by omega), Nat.sub_self, List.replicate_zero,
        List.append_nil]
    funext maxBytes
    rw [length, plain, List.take_take, List.take_take]
    congr 2
    · omega
    · congr 1
      omega

/-- Opening a text file and saving it leaves what reading it returns exactly when it fits into the
editor's buffer and into one cluster, or is not the file that is saved to. -/
theorem openThenSave_contentAt_iff {env : Env} {ui : Ui} {sectors : Nat → Buffer} {path : CString}
    {slot : Slot} (wellFormed : WellFormed ui.vol sectors) (mounted : ui.volMounted = true)
    (enough : ui.vol.clusterLimit < env.fuel) (text : TextFile ui.vol sectors path slot) :
    ∃ result sectors', openThenSave env path.chars ui (Device.healthy sectors) =
        some (result, Device.healthy sectors') ∧
      (contentAt ui.vol env.fuel path sectors' = contentAt ui.vol env.fuel path sectors ↔
        recordedSize ui.vol sectors slot ≤ min (notepadBufSize - 1) (ui.vol.secPerClus * 512) ∨
          ¬ Resolves ui.vol (view ui.vol ui.vol.clusterLimit sectors) ui.vol.rootClus
            (CString.ofArray (savePath ui path.chars)).components83 slot) := by
  have samePath : CString.ofArray path.chars = path := by
    rw [CString.mk.injEq]
    exact ofArray_chars path.nulFree
  have clusterSize : ui.vol.clusterBytes = ui.vol.secPerClus * 512 := by
    rw [Vol.clusterBytes, wellFormed.shape.sector_size, Nat.mul_comm]
  rcases text.read wellFormed enough with ⟨content, long, read⟩
  have before : contentAt ui.vol env.fuel path sectors = fun maxBytes =>
      some ⟨0, min (recordedSize ui.vol sectors slot) maxBytes,
        content.take (min (recordedSize ui.vol sectors slot) maxBytes)⟩ := by
    funext maxBytes
    rw [contentAt, read]
    rfl
  have load := read (notepadBufSize - 1)
  rw [← samePath] at load
  rcases notepadOpenPath_opened text.path_ne_nil load with ⟨ui1, opens, opened⟩
  generalize held : content.take _ ++ List.replicate _ _ = loaded at opened
  have through := through_buffer_iff long held.symm
  have filled : loaded ≠ [] := by
    intro empty
    have length := congrArg List.length held
    rw [empty, List.length_append, List.length_replicate, List.length_nil, notepadBufSize] at length
    have some := text.filled
    omega
  rw [openThenSave, DiskM.bind_run opens]
  by_cases same : Resolves ui.vol (view ui.vol ui.vol.clusterLimit sectors) ui.vol.rootClus
      (CString.ofArray (savePath ui path.chars)).components83 slot
  · rcases fat32WriteFilePath_overwrites wellFormed enough text.resolved loaded text.file
      text.occupied same with ⟨sectors1, wrote, wellFormed1, resolved1, stored⟩
    rcases notepadSaveCurrent_contentAt opened mounted text.path_ne_nil text.name_ne_nil filled
      wrote wellFormed1 enough resolved1 with ⟨result, sectors', ran, after⟩
    refine ⟨result, sectors', ran, ?_⟩
    rw [after, stored, before, through, clusterSize]
    exact ⟨.inl, fun holds => holds.resolve_right fun other => other same⟩
  · rcases fat32WriteFilePath_elsewhere wellFormed enough text.resolved loaded same with
      ⟨code, sectors1, wrote, wellFormed1, resolved1, kept⟩
    rcases notepadSaveCurrent_contentAt opened mounted text.path_ne_nil text.name_ne_nil filled
      wrote wellFormed1 enough resolved1 with ⟨result, sectors', ran, after⟩
    exact ⟨result, sectors', ran, fun _ => .inr same, fun _ => after.trans kept⟩

/-- A file in a directory, with a path of at most 95 characters, is the file that is saved to. -/
theorem TextFile.saved {v : Vol} {sectors : Nat → Buffer} {path : CString} {slot : Slot}
    (text : TextFile v sectors path slot) (ui : Ui) (short : path.chars.length < 96)
    (inside : pathDirname 96 path.chars ≠ []) :
    Resolves v (view v v.clusterLimit sectors) v.rootClus
      (CString.ofArray (savePath ui path.chars)).components83 slot := by
  rw [savePath_components ui text.fixed short inside]
  exact text.resolved

/-- Opening a text file and saving it leaves the content of the file exactly when that fits into the
editor's buffer and into one cluster, or the path that is saved to leads elsewhere. It leads to the
file itself if that is in a directory and its path has at most 95 characters. -/
theorem openThenSave_unchanged_iff {env : Env} {ui : Ui} {sectors : Nat → Buffer} {path : CString}
    {slot : Slot} (wellFormed : WellFormed ui.vol sectors) (mounted : ui.volMounted = true)
    (enough : ui.vol.clusterLimit < env.fuel) (text : TextFile ui.vol sectors path slot) :
    (∃ result sectors', openThenSave env path.chars ui (Device.healthy sectors) =
        some (result, Device.healthy sectors') ∧
      (contentAt ui.vol env.fuel path sectors' = contentAt ui.vol env.fuel path sectors ↔
        recordedSize ui.vol sectors slot ≤ min (notepadBufSize - 1) (ui.vol.secPerClus * 512) ∨
          ¬ Resolves ui.vol (view ui.vol ui.vol.clusterLimit sectors) ui.vol.rootClus
            (CString.ofArray (savePath ui path.chars)).components83 slot)) ∧
    (path.chars.length < 96 → pathDirname 96 path.chars ≠ [] →
      Resolves ui.vol (view ui.vol ui.vol.clusterLimit sectors) ui.vol.rootClus
        (CString.ofArray (savePath ui path.chars)).components83 slot) :=
  ⟨openThenSave_contentAt_iff wellFormed mounted enough text, text.saved ui⟩

/-! ## A file of two clusters -/

/-- The small volume with a text file of this size in the clusters 3 and 4. -/
def textDisk (size : Nat) : Nat → Buffer := fun lba =>
  match lba with
  | 2 => putDirent (fun _ => 0) 0 (makeName83 (ascii "A.TXT")) attrArchive 3 size
  | lba => longFile lba

/-- The editor has this volume. -/
def textUi : Ui := { Ui.initial smallVol with volMounted := true }

theorem textUi_vol : textUi.vol = smallVol := rfl

theorem textDisk_wellFormed {size : Nat} (sample : size ∈ [300, 600]) :
    WellFormed smallVol (textDisk size) := by
  have facts : ∀ size ∈ [300, 600],
      EndOfChain ((view smallVol smallVol.clusterLimit (textDisk size)).next 2) ∧
      (view smallVol smallVol.clusterLimit (textDisk size)).next 3 = 4 ∧
      EndOfChain ((view smallVol smallVol.clusterLimit (textDisk size)).next 4) ∧
      ownerStart smallVol (view smallVol smallVol.clusterLimit (textDisk size))
        (some onlySlot) = 3 ∧
      direntIsDir (entryAt (view smallVol smallVol.clusterLimit (textDisk size)) onlySlot) =
        false ∧
      ∀ other ∈ chainSlots smallVol [smallVol.rootClus],
        Listed (entryAt (view smallVol smallVol.clusterLimit (textDisk size)) other) →
          other = onlySlot := by
    decide
  rcases facts size sample with ⟨rootEnds, second, ends, start, notDir, only⟩
  have chain : Chain smallVol.clusterLimit (view smallVol smallVol.clusterLimit (textDisk size))
      (ownerStart smallVol (view smallVol smallVol.clusterLimit (textDisk size))
        (some onlySlot)) [3, 4] := by
    rw [start]
    apply Holds.chain (by decide) (by decide)
    · apply Linked.cons (by decide)
      rw [second]
      exact .single (by decide) ends
    · intro cl member
      rcases List.mem_pair.mp member with rfl | rfl
      · exact ⟨by decide, by decide⟩
      · exact ⟨by decide, by decide⟩
  exact ⟨smallVol_wellFormed.shape, .of_one_file (smallVol_root (textDisk size) rootEnds)
    (by decide) only (by simp [OwnerIsDir, notDir]) chain (by decide)⟩

theorem textDisk_textFile {size : Nat} (sample : size ∈ [300, 600]) :
    TextFile smallVol (textDisk size) (CString.ofArray (ascii "C:/A.TXT")) onlySlot ∧
      recordedSize smallVol (textDisk size) onlySlot = size := by
  have facts : ∀ size ∈ [300, 600],
      EndOfChain ((view smallVol smallVol.clusterLimit (textDisk size)).next 2) ∧
      Matched (makeName83 (ascii "A.TXT"))
        (entryAt (view smallVol smallVol.clusterLimit (textDisk size)) onlySlot) ∧
      direntIsDir (entryAt (view smallVol smallVol.clusterLimit (textDisk size)) onlySlot) =
        false ∧
      direntStartCluster (entryAt (view smallVol smallVol.clusterLimit (textDisk size))
        onlySlot) ≠ 0 ∧
      recordedSize smallVol (textDisk size) onlySlot = size ∧ size ≠ 0 := by
    decide
  rcases facts size sample with ⟨rootEnds, matched, file, occupied, recorded, filled⟩
  refine ⟨⟨?_, file, occupied, by rw [recorded]; exact filled, by decide⟩, recorded⟩
  have root := (smallVol_root (textDisk size) rootEnds).linked (by decide)
  exact .last root ⟨[], _, rfl, by simp, matched⟩

/-- A file of less than one cluster is saved as it was. -/
theorem openThenSave_unchanged_iff_small :
    ∃ result sectors', openThenSave sampleEnv (ascii "C:/A.TXT") textUi
        (Device.healthy (textDisk 300)) = some (result, Device.healthy sectors') ∧
      contentAt smallVol 16 (CString.ofArray (ascii "C:/A.TXT")) sectors' =
        contentAt smallVol 16 (CString.ofArray (ascii "C:/A.TXT")) (textDisk 300) := by
  rcases textDisk_textFile (show 300 ∈ [300, 600] by decide) with ⟨text, recorded⟩
  rcases (@openThenSave_unchanged_iff sampleEnv textUi _ _ _
    (textDisk_wellFormed (by decide)) rfl (by decide) text).1 with ⟨result, sectors', ran, same⟩
  have small : recordedSize textUi.vol (textDisk 300) onlySlot ≤
      min (notepadBufSize - 1) (textUi.vol.secPerClus * 512) := by
    rw [textUi_vol, recorded]
    decide
  exact ⟨result, sectors', ran, same.mpr (.inl small)⟩

/-- Of a file of 600 bytes, the second cluster is cut off. -/
theorem openThenSave_cuts_file :
    ¬ ∀ (env : Env) (ui : Ui) (sectors : Nat → Buffer) (path : CString) (slot : Slot),
      WellFormed ui.vol sectors → ui.volMounted = true → ui.vol.clusterLimit < env.fuel →
      TextFile ui.vol sectors path slot →
      ∃ result sectors', openThenSave env path.chars ui (Device.healthy sectors) =
          some (result, Device.healthy sectors') ∧
        contentAt ui.vol env.fuel path sectors' = contentAt ui.vol env.fuel path sectors := by
  intro claim
  rcases textDisk_textFile (show 600 ∈ [300, 600] by decide) with ⟨text, recorded⟩
  have wellFormed := textDisk_wellFormed (show 600 ∈ [300, 600] by decide)
  rcases claim sampleEnv textUi _ _ _ wellFormed rfl (by decide) text with
    ⟨result, sectors', ran, same⟩
  rcases @openThenSave_contentAt_iff sampleEnv textUi _ _ _ wellFormed rfl (by decide) text with
    ⟨result', sectors'', ran', fits⟩
  rw [ran, Option.some.injEq, Prod.mk.injEq] at ran'
  have equal : sectors' = sectors'' := congrArg Device.sectors ran'.2
  rw [equal] at same
  cases fits.mp same with
  | inl small =>
      rw [textUi_vol, recorded] at small
      exact absurd small (by decide)
  | inr elsewhere => exact elsewhere (text.saved textUi (by decide) (by decide))

end ParanOS
