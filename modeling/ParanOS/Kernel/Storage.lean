import ParanOS.Fat.TreeListing
import ParanOS.Kernel.Traffic

/-! # The event loop and the tree of files

On a FAT32 disk that represents a tree of files every run of the event loop leaves a disk that
represents one, too. Nothing disappears from it, and what has another content is an emptied file
or one that was saved.
-/

namespace ParanOS

open Foundation

/-- No component of the path begins as a deleted entry does. -/
def DiskUse.Findable : DiskUse → Prop
  | .request (.write path _) => ParanOS.Findable path.components83
  | .request (.ensure path) => ParanOS.Findable path.components83
  | _ => True

/-- What a run of the event loop may do to the tree. -/
structure Settles (v : Vol) (tree after : VolumeTree) : Prop where
  dirs : ∀ names, tree.node names = some .dir → after.node names = some .dir
  files : ∀ names, tree.fileAt names ≠ none → after.fileAt names ≠ none
  contents : ∀ names content, after.fileAt names = some content →
    tree.fileAt names = some content ∨ content = storedContent v [] ∨
      ∃ dir source data, content = storedContent v data ∧ names = pathNames
        (CString.ofArray (pathJoin 96 dir (sanitizeTxtName 32 source))).components83

namespace Settles

variable {v : Vol} {tree between after : VolumeTree}

theorem refl (tree : VolumeTree) : Settles v tree tree :=
  ⟨fun _ => id, fun _ => id, fun _ _ => .inl⟩

theorem trans (first : Settles v tree between) (second : Settles v between after) :
    Settles v tree after := by
  refine ⟨fun names dir => second.dirs names (first.dirs names dir),
    fun names file => second.files names (first.files names file), fun names content there => ?_⟩
  rcases second.contents names content there with before | new
  · exact first.contents names content before
  · exact .inr new

/-- A step on the tree at a path where the content may be stored. -/
theorem of_serves {scarce : List (List UInt8) → Prop} {path : List (List UInt8)}
    {node : FileNode Content} {served : Bool}
    (serves : FileTree.Serves scarce tree path node served after)
    (may : ∀ content, node.content? = some content → content = storedContent v [] ∨
      ∃ dir source data, content = storedContent v data ∧ path = pathNames
        (CString.ofArray (pathJoin 96 dir (sanitizeTxtName 32 source))).components83) :
    Settles v tree after := by
  refine ⟨fun names => serves.keeps_dir, fun names file => ?_, fun names content there => ?_⟩
  · rw [serves.fileAt]
    rcases Option.ne_none_iff_exists'.mp file with ⟨content, before⟩
    rw [before]
    cases (if served = true ∧ names = path then node.content? else none) with
    | none => simp
    | some new => simp
  · rw [serves.fileAt] at there
    by_cases here : served = true ∧ names = path
    · rw [if_pos here] at there
      cases stored : node.content? with
      | none =>
          rw [stored, Option.none_or] at there
          exact .inl there
      | some new =>
          rw [stored, Option.some_or, Option.some.injEq] at there
          rw [here.2, ← there]
          exact .inr (may new stored)
    · rw [if_neg here, Option.none_or] at there
      exact .inl there

end Settles

section

variable {v : Vol} {sectors : Nat → Buffer} {tree : VolumeTree} {fuel : Nat}
  (represents : Represents v sectors tree) (enough : v.clusterLimit < fuel)
include represents enough

/-- One use of the disk. -/
theorem UiUse.settles {use : DiskUse} (asked : UiUse use) (findable : use.Findable)
    {next : (Bool × Vol) × Device}
    (stepped : use.Step fuel ((true, v), Device.healthy sectors) next) :
    ∃ sectors' after, next = ((true, v), Device.healthy sectors') ∧
      Represents v sectors' after ∧ Settles v tree after := by
  have calls : ∀ call : Call, Findable call.path.components83 →
      (∀ content, (call.node v).content? = some content → content = storedContent v [] ∨
        ∃ dir source data, content = storedContent v data ∧
          pathNames call.path.components83 = pathNames
            (CString.ofArray (pathJoin 96 dir (sanitizeTxtName 32 source))).components83) →
      ∀ v' code device', call.run fuel v (Device.healthy sectors) = some ((v', code), device') →
        ∃ sectors' after, ((true, v'), device') = ((true, v), Device.healthy sectors') ∧
          Represents v sectors' after ∧ Settles v tree after := by
    intro call findable may v' code device' ran
    rcases call.serves represents enough findable with
      ⟨code', sectors', after, ran', represents', serves⟩
    rw [ran, Option.some.injEq, Prod.mk.injEq, Prod.mk.injEq] at ran'
    rcases ran' with ⟨⟨rfl, _⟩, rfl⟩
    exact ⟨sectors', after, rfl, represents', .of_serves serves may⟩
  cases stepped with
  | request ran =>
      cases asked with
      | readPath path maxBytes =>
          have read := fat32ReadFilePath_tree represents enough path maxBytes
          simp only [Request.run] at ran
          rw [DiskM.bind_run read] at ran
          simp only [DiskM.pure_apply, Option.some.injEq, Prod.mk.injEq] at ran
          rcases ran with ⟨⟨rfl, _⟩, rfl⟩
          exact ⟨sectors, tree, rfl, represents, .refl tree⟩
      | list path maxItems =>
          have listed : ∃ result, fat32ListDirPath v fuel path maxItems (Device.healthy sectors) =
              some ((v, result), Device.healthy sectors) := by
            by_cases some : 0 < maxItems
            · rcases fat32ListDirPath_tree represents enough path some with ⟨entries, ran, _⟩
              exact ⟨_, ran⟩
            · simp only [fat32ListDirPath, represents.wellFormed.shape.fat32]
              rw [if_pos (by omega)]
              exact ⟨_, rfl⟩
          rcases listed with ⟨result, listed⟩
          simp only [Request.run] at ran
          rw [DiskM.bind_run listed] at ran
          simp only [DiskM.pure_apply, Option.some.injEq, Prod.mk.injEq] at ran
          rcases ran with ⟨⟨rfl, _⟩, rfl⟩
          exact ⟨sectors, tree, rfl, represents, .refl tree⟩
      | ensure uname member =>
          rcases DiskM.of_bind ran with ⟨⟨v', code⟩, device', called, rest⟩
          simp only [DiskM.pure_apply, Option.some.injEq, Prod.mk.injEq] at rest
          rcases rest with ⟨⟨rfl, _⟩, rfl⟩
          refine calls (.ensureDir _) findable ?_ _ _ _ called
          intro content there
          cases there
      | save dir source data =>
          rcases DiskM.of_bind ran with ⟨⟨v', code⟩, device', called, rest⟩
          simp only [DiskM.pure_apply, Option.some.injEq, Prod.mk.injEq] at rest
          rcases rest with ⟨⟨rfl, _⟩, rfl⟩
          refine calls (.writeFile _ data) findable (fun content there => ?_) _ _ _ called
          exact .inr ⟨dir, source, data, (Option.some.inj there).symm, rfl⟩
      | empty path =>
          rcases DiskM.of_bind ran with ⟨⟨v', code⟩, device', called, rest⟩
          simp only [DiskM.pure_apply, Option.some.injEq, Prod.mk.injEq] at rest
          rcases rest with ⟨⟨rfl, _⟩, rfl⟩
          refine calls (.writeFile path []) findable (fun content there => ?_) _ _ _ called
          exact .inl (Option.some.inj there).symm

/-- A whole list of them. -/
theorem trace_settles {uses : List DiskUse} {last : (Bool × Vol) × Device}
    (asked : ∀ use ∈ uses, UiUse use) (findable : ∀ use ∈ uses, use.Findable)
    (trace : Trace (DiskUse.Step fuel) ((true, v), Device.healthy sectors) uses last) :
    ∃ sectors' after, last = ((true, v), Device.healthy sectors') ∧
      Represents v sectors' after ∧ Settles v tree after := by
  generalize start : ((true, v), Device.healthy sectors) = first at trace
  induction trace generalizing sectors tree with
  | nil => exact ⟨sectors, tree, start.symm, represents, .refl tree⟩
  | @cons _ _ _ use _ stepped _ induction =>
      subst start
      rcases (asked use (by simp)).settles represents enough (findable use (by simp)) stepped with
        ⟨between, middle, rfl, represents', settles⟩
      rcases induction represents' (fun other member => asked other (by simp [member]))
        (fun other member => findable other (by simp [member])) rfl with
        ⟨sectors', after, final, represents'', settles'⟩
      exact ⟨sectors', after, final, represents'', settles.trans settles'⟩

end

/-- The name prompt on an empty volume, about to create a file. -/
def promptUi : Ui :=
  { Ui.initial smallVol with
    volMounted := true
    prompt := ⟨true, false, ascii "A", .createTxt, []⟩ }

end ParanOS
