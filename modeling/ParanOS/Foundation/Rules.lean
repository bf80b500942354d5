import ParanOS.Foundation.Device

/-! # Rules for programs over a device

Two kinds of statements about a program that hold for every device, whatever
calls fail: that its results satisfy a predicate, and that two programs run side
by side do the same to the device and have related results. Both are proved
along the structure of the programs.
-/

namespace Foundation

/-- Every result of the program satisfies the predicate. -/
structure Ensures {α : Type} (program : DiskM α) (post : α → Prop) : Prop where
  returns : ∀ {device value device'}, program device = some (value, device') → post value

namespace Ensures

variable {α β : Type}

theorem pure {value : α} {post : α → Prop} (holds : post value) :
    Ensures (Pure.pure value) post := by
  constructor
  intro device result device' ran
  simp only [DiskM.pure_apply, Option.some.injEq, Prod.mk.injEq] at ran
  rcases ran with ⟨rfl, _⟩
  exact holds

theorem diverge {post : α → Prop} : Ensures (DiskM.diverge : DiskM α) post := by
  constructor
  intro device result device' ran
  simp at ran

theorem trivial (program : DiskM α) : Ensures program fun _ => True :=
  ⟨fun _ => True.intro⟩

theorem bind {program : DiskM α} {rest : α → DiskM β} {middle : α → Prop} {post : β → Prop}
    (first : Ensures program middle) (second : ∀ value, middle value → Ensures (rest value) post) :
    Ensures (program >>= rest) post := by
  constructor
  intro device result device' ran
  rcases DiskM.of_bind ran with ⟨value, between, programRan, restRan⟩
  exact (second value (first.returns programRan)).returns restRan

theorem ite {condition : Prop} [Decidable condition] {positive negative : DiskM α}
    {post : α → Prop} (whenTrue : condition → Ensures positive post)
    (whenFalse : ¬ condition → Ensures negative post) :
    Ensures (if condition then positive else negative) post := by
  split
  · next holds => exact whenTrue holds
  · next fails => exact whenFalse fails

theorem mono {program : DiskM α} {post weaker : α → Prop} (ensured : Ensures program post)
    (weakened : ∀ value, post value → weaker value) : Ensures program weaker :=
  ⟨fun ran => weakened _ (ensured.returns ran)⟩

theorem both {program : DiskM α} {post other : α → Prop} (first : Ensures program post)
    (second : Ensures program other) : Ensures program fun value => post value ∧ other value :=
  ⟨fun ran => ⟨first.returns ran, second.returns ran⟩⟩

/-- What a search of a list finds is what one of its steps finds. -/
theorem findSomeM? {ι : Type} {visit : ι → DiskM (Option α)} {post : α → Prop}
    (steps : ∀ position, Ensures (visit position) fun found => ∀ value ∈ found, post value)
    (positions : List ι) :
    Ensures (positions.findSomeM? visit) fun found => ∀ value ∈ found, post value := by
  induction positions with
  | nil => exact pure fun _ absent => absurd absent (Option.not_mem_none _)
  | cons head tail induction =>
      rw [List.findSomeM?_cons]
      apply bind (steps head)
      intro found holds
      cases found with
      | some value => exact pure holds
      | none => exact induction

/-- A loop over a list keeps what each of its steps keeps. -/
theorem foldlM {ι : Type} {step : α → ι → DiskM α} {invariant : α → Prop}
    (kept : ∀ value index, invariant value → Ensures (step value index) invariant)
    (indices : List ι) {value : α} (holds : invariant value) :
    Ensures (indices.foldlM step value) invariant := by
  induction indices generalizing value with
  | nil => exact pure holds
  | cons head tail induction =>
      rw [List.foldlM_cons]
      exact bind (kept value head holds) fun next nextHolds => induction nextHolds

end Ensures

/-- The program makes no write call in the runs whose result satisfies the
predicate. -/
structure ReadOnlyWhen {α : Type} (post : α → Prop) (program : DiskM α) : Prop where
  returns : ∀ {device value device'}, program device = some (value, device') → post value →
    device'.sectors = device.sectors ∧ device'.writeFaults = device.writeFaults

namespace ReadOnlyWhen

variable {α β : Type}

theorem of_readOnly {post : α → Prop} {program : DiskM α} (readOnly : ReadOnly program) :
    ReadOnlyWhen post program :=
  ⟨fun ran _ => readOnly _ _ _ ran⟩

/-- Runs that cannot have such a result do not matter. -/
theorem of_excluded {post : α → Prop} {program : DiskM α}
    (excluded : Ensures program fun value => ¬ post value) : ReadOnlyWhen post program :=
  ⟨fun ran holds => absurd holds (excluded.returns ran)⟩

theorem bind {program : DiskM α} {rest : α → DiskM β} {middle : α → Prop} {post : β → Prop}
    (first : ReadOnlyWhen middle program) (second : ∀ value, ReadOnlyWhen post (rest value))
    (earlier : ∀ value, Ensures (rest value) fun result => post result → middle value) :
    ReadOnlyWhen post (program >>= rest) := by
  constructor
  intro device result device' ran holds
  rcases DiskM.of_bind ran with ⟨value, between, programRan, restRan⟩
  have before := first.returns programRan ((earlier value).returns restRan holds)
  have after := (second value).returns restRan holds
  exact ⟨after.1.trans before.1, after.2.trans before.2⟩

theorem ite {condition : Prop} [Decidable condition] {positive negative : DiskM α}
    {post : α → Prop} (whenTrue : ReadOnlyWhen post positive)
    (whenFalse : ReadOnlyWhen post negative) :
    ReadOnlyWhen post (if condition then positive else negative) := by
  split
  · exact whenTrue
  · exact whenFalse

end ReadOnlyWhen

/-- When the left program returns, so does the right one from the same device: it
leaves the same device and its result is related to that of the left one. -/
structure SideBySide {α β : Type} (related : α → β → Prop) (left : DiskM α) (right : DiskM β) :
    Prop where
  returns : ∀ {device value device'}, left device = some (value, device') →
    ∃ other, right device = some (other, device') ∧ related value other

namespace SideBySide

variable {α β γ δ : Type}

theorem pure {related : α → β → Prop} {value : α} {other : β} (holds : related value other) :
    SideBySide related (Pure.pure value) (Pure.pure other) := by
  constructor
  intro device result device' ran
  simp only [DiskM.pure_apply, Option.some.injEq, Prod.mk.injEq] at ran
  rcases ran with ⟨rfl, rfl⟩
  exact ⟨other, rfl, holds⟩

theorem same (program : DiskM α) : SideBySide Eq program program :=
  ⟨fun ran => ⟨_, ran, rfl⟩⟩

theorem bind {before : α → β → Prop} {after : γ → δ → Prop} {left : DiskM α} {right : DiskM β}
    {leftRest : α → DiskM γ} {rightRest : β → DiskM δ} (first : SideBySide before left right)
    (second : ∀ value other, before value other →
      SideBySide after (leftRest value) (rightRest other)) :
    SideBySide after (left >>= leftRest) (right >>= rightRest) := by
  constructor
  intro device result device' ran
  rcases DiskM.of_bind ran with ⟨value, between, leftRan, restRan⟩
  rcases first.returns leftRan with ⟨other, rightRan, related⟩
  rcases (second value other related).returns restRan with ⟨final, finalRan, finalRelated⟩
  exact ⟨final, (DiskM.bind_run rightRan).trans finalRan, finalRelated⟩

theorem ite {condition : Prop} [Decidable condition] {leftYes leftNo : DiskM α}
    {rightYes rightNo : DiskM β} {related : α → β → Prop}
    (whenTrue : condition → SideBySide related leftYes rightYes)
    (whenFalse : ¬ condition → SideBySide related leftNo rightNo) :
    SideBySide related (if condition then leftYes else leftNo)
      (if condition then rightYes else rightNo) := by
  split
  · next holds => exact whenTrue holds
  · next fails => exact whenFalse fails

/-- Two loops over one list keep a relation that each of their steps keeps. -/
theorem foldlM {ι : Type} {leftStep : α → ι → DiskM α} {rightStep : β → ι → DiskM β}
    {related : α → β → Prop}
    (kept : ∀ value other index, related value other →
      SideBySide related (leftStep value index) (rightStep other index))
    (indices : List ι) {value : α} {other : β} (holds : related value other) :
    SideBySide related (indices.foldlM leftStep value) (indices.foldlM rightStep other) := by
  induction indices generalizing value other with
  | nil => exact pure holds
  | cons head tail induction =>
      rw [List.foldlM_cons, List.foldlM_cons]
      exact bind (kept value other head holds) fun _ _ nextHolds => induction nextHolds

end SideBySide

end Foundation
