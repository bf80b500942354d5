import ParanOS.Kernel.Hidden

/-! # Two ways to confirm the name prompt

A click confirms the prompt by `name_prompt_commit`, which looks at what the
prompt was opened for. Enter always creates a file. The two agree for the prompt
that creates a file, and where there is no volume to act on.
-/

namespace ParanOS

open Foundation

/-- What confirming does to the editor, the prompt and the disk. -/
def effect (confirm : DiskM Ui) (device : Device) :
    Option (Notepad × NamePrompt × (Nat → Buffer)) :=
  (confirm device).map fun result => (result.1.notepad, result.1.prompt, result.2.sectors)

/-- Enter in the prompt. -/
def confirmByEnter (env : Env) (ui : Ui) : DiskM Ui := promptKey env 0x1C ui

/-- Both ways to confirm have the same effect. -/
def SameEffect (env : Env) (ui : Ui) (device : Device) : Prop :=
  effect (confirmByEnter env ui) device = effect (namePromptCommit env ui) device

/-- There is a volume, or a disk from which one may be mounted. -/
def volumeAtHand (env : Env) (ui : Ui) : Bool := ui.volMounted || env.diskPresent

theorem ensureVolumeMounted_none (env : Env) {ui : Ui} (none : volumeAtHand env ui = false) :
    ensureVolumeMounted env ui = pure (false, ui) := by
  have absent := Bool.or_eq_false_iff.mp none
  rw [ensureVolumeMounted, absent.1, absent.2]
  rfl

/-- Without a volume both ways only close the prompt. -/
theorem confirm_without_volume (env : Env) {ui : Ui} (none : volumeAtHand env ui = false) :
    confirmByEnter env ui = pure (promptDone ui) ∧
      namePromptCommit env ui = pure (promptDone ui) := by
  have created : createTxtFileFromPrompt env ui = pure (promptDone ui) := by
    rw [createTxtFileFromPrompt, ensureVolumeMounted_none env none]
    rfl
  refine ⟨created, ?_⟩
  unfold namePromptCommit
  cases ui.prompt.mode with
  | createTxt => exact created
  | openTxt =>
      dsimp only
      rw [ensureVolumeMounted_none env none]
      rfl
  | saveAs =>
      dsimp only
      rw [ensureVolumeMounted_none env none]
      rfl
  | none => rfl

/-- The editor with `A.TXT`, then "Save As..." of its menu. -/
def openSaveAs : List Input :=
  openFirstFile ++ [mouseInput 100 10 false, mouseInput 100 10 true, mouseInput 100 106 false,
    mouseInput 100 106 true]

def withMode (mode : PromptMode) (ui : Ui) : Ui :=
  { ui with prompt := { ui.prompt with mode := mode } }

/-- The editor's text after confirming in both ways, with the prompt of that run
taken for another purpose. -/
def textsAfter (mode : PromptMode) (machine : Machine) :
    Option (List UInt8) × Option (List UInt8) :=
  let text := fun confirm : DiskM Ui => (confirm machine.device).map (·.1.notepad.text)
  (text (confirmByEnter sampleEnv (withMode mode machine.ui)),
    text (namePromptCommit sampleEnv (withMode mode machine.ui)))

theorem textsAfter_same {mode : PromptMode} {machine : Machine}
    (same : SameEffect sampleEnv (withMode mode machine.ui) machine.device) :
    (textsAfter mode machine).1 = (textsAfter mode machine).2 := by
  have texts := congrArg (Option.map fun result => result.1.text) same
  rw [effect, effect, Option.map_map, Option.map_map] at texts
  exact texts

/-- The prompt after that run, and the texts for each purpose that it may be taken for. -/
theorem openSaveAs_observed :
    (sampleRun openSaveAs (mouseInput 100 106 false)).map (fun run =>
      ((run.2.ui.prompt.active, run.2.ui.prompt.mode, volumeAtHand sampleEnv run.2.ui),
        [PromptMode.openTxt, .saveAs, .none].map fun mode => textsAfter mode run.2)) =
      some ((true, .saveAs, true), List.replicate 3 (some [0x0A], some [0x41])) := by
  decide +kernel

/-- The three other purposes, each on a state of the run up to "Save As...". -/
theorem other_modes_differ {mode : PromptMode} (other : mode ≠ .createTxt) :
    ∃ env ui device, ui.prompt.active = true ∧ ui.prompt.mode = mode ∧
      volumeAtHand env ui = true ∧ ¬ SameEffect env ui device := by
  rcases Option.map_eq_some_iff.mp openSaveAs_observed with ⟨⟨_, machine⟩, _, same⟩
  simp only [List.map_cons, List.map_nil, List.replicate, Prod.mk.injEq, List.cons.injEq,
    and_true] at same
  rcases same with ⟨⟨active, _, volume⟩, opened, saved, none⟩
  refine ⟨sampleEnv, withMode mode machine.ui, machine.device, active, rfl, volume, fun agree => ?_⟩
  have texts := textsAfter_same agree
  have differ : (some [0x0A] : Option (List UInt8)) ≠ some [0x41] := by decide
  cases mode with
  | createTxt => exact other rfl
  | openTxt => exact differ (by rw [opened] at texts; exact texts)
  | saveAs => exact differ (by rw [saved] at texts; exact texts)
  | none => exact differ (by rw [none] at texts; exact texts)

/-- For a purpose of the prompt, and with or without a volume: Enter and a click
have the same effect in every such state and on every disk exactly if the prompt
creates a file or there is no volume. -/
theorem enter_equals_click_iff (mode : PromptMode) (volume : Bool) :
    (∀ env ui device, ui.prompt.active = true → ui.prompt.mode = mode →
      volumeAtHand env ui = volume → SameEffect env ui device) ↔
      mode = .createTxt ∨ volume = false := by
  constructor
  · intro always
    by_contra neither
    rw [not_or, Bool.not_eq_false] at neither
    rcases other_modes_differ neither.1 with ⟨env, ui, device, active, isMode, atHand, differ⟩
    exact differ (always env ui device active isMode (atHand.trans neither.2.symm))
  · intro condition env ui device _ isMode atHand
    rcases condition with create | none
    · rw [SameEffect, namePromptCommit, isMode, create]
      rfl
    · have done := confirm_without_volume env (atHand.trans none)
      rw [SameEffect, done.1, done.2]

/-- Enter after "Save As..." writes a line feed over the file and loses the text,
where a click would have stored the text. -/
theorem enter_overwrites_file :
    ¬ ∀ (env : Env) (machine : Machine), Reachable env machine →
      machine.ui.prompt.active = true → SameEffect env machine.ui machine.device := by
  intro claim
  rcases Option.map_eq_some_iff.mp openSaveAs_observed with ⟨⟨current, next⟩, ran, same⟩
  rcases sampleRun_reachable ran with ⟨reachable, stepped⟩
  simp only [List.map_cons, List.map_nil, List.replicate, Prod.mk.injEq, List.cons.injEq,
    and_true] at same
  rcases same with ⟨⟨active, saving, _⟩, _, saved, _⟩
  have agree := claim sampleEnv next (reachable.later (.cons stepped trivial (.nil _))) active
  have kept : SameEffect sampleEnv (withMode .saveAs next.ui) next.device := by
    rw [← saving]
    exact agree
  have texts := textsAfter_same kept
  rw [saved] at texts
  exact absurd texts (by decide)

end ParanOS
