import ParanOS.Foundation.Rules

/-! # Programs in lockstep

Two programs that make the same calls on every device, with related results: each of them
returns when the other does.
-/

namespace Foundation

namespace SideBySide

variable {α β : Type} {related : α → β → Prop}

theorem mono {looser : α → β → Prop} {left : DiskM α} {right : DiskM β}
    (steps : SideBySide related left right)
    (implies : ∀ value other, related value other → looser value other) :
    SideBySide looser left right := by
  constructor
  intro device value device' ran
  rcases steps.returns ran with ⟨other, otherRan, holds⟩
  exact ⟨other, otherRan, implies value other holds⟩

/-- The same program on both sides, then programs that correspond for each of its results. -/
theorem bind_same {γ : Type} (program : DiskM γ) {leftRest : γ → DiskM α}
    {rightRest : γ → DiskM β}
    (second : ∀ value, SideBySide related (leftRest value) (rightRest value)) :
    SideBySide related (program >>= leftRest) (program >>= rightRest) := by
  apply (same program).bind
  intro value other equal
  cases equal
  exact second value

theorem diverge : SideBySide related DiskM.diverge DiskM.diverge := by
  constructor
  intro device value device' ran
  cases ran

/-- Two searches whose steps correspond. -/
theorem findSomeM? {ι : Type} {visit : ι → DiskM (Option α)} {visit' : ι → DiskM (Option β)}
    (steps : ∀ position, SideBySide (Option.Rel related) (visit position) (visit' position))
    (positions : List ι) :
    SideBySide (Option.Rel related) (positions.findSomeM? visit)
      (positions.findSomeM? visit') := by
  induction positions with
  | nil => exact pure .none
  | cons head tail induction =>
      rw [List.findSomeM?_cons, List.findSomeM?_cons]
      apply bind (steps head)
      intro found found' equal
      cases equal with
      | none => exact induction
      | some holds => exact pure (.some holds)

end SideBySide

structure Lockstep {α β : Type} (related : α → β → Prop) (left : DiskM α)
    (right : DiskM β) : Prop where
  forth : SideBySide related left right
  back : SideBySide (fun other value => related value other) right left

namespace Lockstep

variable {α β γ δ : Type} {related : α → β → Prop} {related' : γ → δ → Prop}

theorem of_eq {left right : DiskM α} (equal : left = right) :
    Lockstep (fun value other => value = other) left right := by
  cases equal
  exact ⟨.same left, (SideBySide.same left).mono fun _ _ same => same.symm⟩

theorem mono {looser : α → β → Prop} {left : DiskM α} {right : DiskM β}
    (steps : Lockstep related left right)
    (implies : ∀ value other, related value other → looser value other) :
    Lockstep looser left right where
  forth := steps.forth.mono implies
  back := steps.back.mono fun other value => implies value other

theorem pure {value : α} {other : β} (holds : related value other) :
    Lockstep related (Pure.pure value) (Pure.pure other) where
  forth := .pure holds
  back := .pure holds

theorem diverge : Lockstep related DiskM.diverge DiskM.diverge where
  forth := .diverge
  back := .diverge

theorem bind {left : DiskM α} {right : DiskM β} {leftRest : α → DiskM γ}
    {rightRest : β → DiskM δ} (first : Lockstep related left right)
    (second : ∀ value other, related value other →
      Lockstep related' (leftRest value) (rightRest other)) :
    Lockstep related' (left >>= leftRest) (right >>= rightRest) where
  forth := first.forth.bind fun value other holds => (second value other holds).forth
  back := first.back.bind fun other value holds => (second value other holds).back

theorem bind_same (program : DiskM α) {leftRest : α → DiskM γ} {rightRest : α → DiskM δ}
    (second : ∀ value, Lockstep related' (leftRest value) (rightRest value)) :
    Lockstep related' (program >>= leftRest) (program >>= rightRest) where
  forth := .bind_same program fun value => (second value).forth
  back := .bind_same program fun value => (second value).back

theorem ite {condition : Prop} [Decidable condition] {leftYes leftNo : DiskM α}
    {rightYes rightNo : DiskM β} (whenTrue : Lockstep related leftYes rightYes)
    (whenFalse : Lockstep related leftNo rightNo) :
    Lockstep related (if condition then leftYes else leftNo)
      (if condition then rightYes else rightNo) where
  forth := .ite (fun _ => whenTrue.forth) fun _ => whenFalse.forth
  back := .ite (fun _ => whenTrue.back) fun _ => whenFalse.back

end Lockstep

end Foundation
