import ParanOS.Foundation.Rules

/-! # Programs as traces of operations

A program that reaches the device only through a few operations does to the device what some list
of them does. The operations are the labels of a step relation over the device and a state that
the program hands on; the rules put the labels of a program's parts together.
-/

namespace Foundation

/-- Labelled steps one after another. -/
inductive Trace {κ σ : Type} (step : κ → σ → σ → Prop) : σ → List κ → σ → Prop
  | nil (state) : Trace step state [] state
  | cons {first middle last label labels} :
      step label first middle → Trace step middle labels last →
      Trace step first (label :: labels) last

namespace Trace

variable {κ σ : Type} {step : κ → σ → σ → Prop} {first middle last : σ} {labels more : List κ}
  {label : κ}

theorem single (stepped : step label first last) : Trace step first [label] last :=
  .cons stepped (.nil last)

theorem append (before : Trace step first labels middle) (after : Trace step middle more last) :
    Trace step first (labels ++ more) last := by
  induction before with
  | nil => exact after
  | cons stepped _ induction => exact .cons stepped (induction after)

/-- What every step keeps is kept by the trace. -/
theorem keeps (invariant : σ → Prop)
    (kept : ∀ {label state next}, step label state next → invariant state → invariant next)
    (trace : Trace step first labels last) (holds : invariant first) : invariant last := by
  induction trace with
  | nil => exact holds
  | cons stepped _ induction => exact induction (kept stepped holds)

end Trace

/-- Whatever the device does, the program does to it and to the state what a list of operations
does, each of which may be asked for. -/
structure Issues {κ σ α : Type} (step : κ → σ × Device → σ × Device → Prop) (asked : κ → Prop)
    (start : σ) (program : DiskM α) (final : α → σ) : Prop where
  returns : ∀ {device value device'}, program device = some (value, device') →
    ∃ labels, (∀ label ∈ labels, asked label) ∧
      Trace step (start, device) labels (final value, device')

namespace Issues

variable {κ σ α β : Type} {step : κ → σ × Device → σ × Device → Prop} {asked : κ → Prop} {start : σ}

theorem pure {value : α} {final : α → σ} (same : final value = start) :
    Issues step asked start (Pure.pure value) final := by
  constructor
  intro device result device' ran
  simp only [DiskM.pure_apply, Option.some.injEq, Prod.mk.injEq] at ran
  rcases ran with ⟨rfl, rfl⟩
  exact ⟨[], by simp, same ▸ .nil _⟩

theorem diverge {final : α → σ} : Issues step asked start (DiskM.diverge : DiskM α) final := by
  constructor
  intro device result device' ran
  simp at ran

/-- An operation on its own. -/
theorem single {label : κ} {program : DiskM α} {final : α → σ} (may : asked label)
    (performs : ∀ {device value device'}, program device = some (value, device') →
      step label (start, device) (final value, device')) :
    Issues step asked start program final := by
  constructor
  intro device value device' ran
  exact ⟨[label], by simp [may], .single (performs ran)⟩

theorem bind {program : DiskM α} {rest : α → DiskM β} {middle : α → σ} {final : β → σ}
    (first : Issues step asked start program middle)
    (second : ∀ value, Issues step asked (middle value) (rest value) final) :
    Issues step asked start (program >>= rest) final := by
  constructor
  intro device result device' ran
  rcases DiskM.of_bind ran with ⟨value, between, programRan, restRan⟩
  rcases first.returns programRan with ⟨labels, mayFirst, before⟩
  rcases (second value).returns restRan with ⟨more, maySecond, after⟩
  refine ⟨labels ++ more, fun label member => ?_, before.append after⟩
  rcases List.mem_append.mp member with member | member
  · exact mayFirst label member
  · exact maySecond label member

theorem ite {condition : Prop} [Decidable condition] {positive negative : DiskM α} {final : α → σ}
    (whenTrue : condition → Issues step asked start positive final)
    (whenFalse : ¬ condition → Issues step asked start negative final) :
    Issues step asked start (if condition then positive else negative) final := by
  split
  · next holds => exact whenTrue holds
  · next fails => exact whenFalse fails

theorem foldlM {ι : Type} {loop : α → ι → DiskM α} (final : α → σ) (indices : List ι)
    (each : ∀ index ∈ indices, ∀ value, Issues step asked (final value) (loop value index) final)
    (value : α) : Issues step asked (final value) (indices.foldlM loop value) final := by
  induction indices generalizing value with
  | nil => exact pure rfl
  | cons head tail induction =>
      rw [List.foldlM_cons]
      apply bind (each head (by simp) value)
      intro next
      exact induction (fun index member => each index (by simp [member])) next

theorem mono {program : DiskM α} {final : α → σ} {wider : κ → Prop}
    (issues : Issues step asked start program final) (widened : ∀ label, asked label → wider label) :
    Issues step wider start program final := by
  constructor
  intro device value device' ran
  rcases issues.returns ran with ⟨labels, may, trace⟩
  exact ⟨labels, fun label member => widened label (may label member), trace⟩

end Issues

end Foundation
