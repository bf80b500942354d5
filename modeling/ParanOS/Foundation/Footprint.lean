import ParanOS.Foundation.Bytes

/-! # Which bytes a program reads

Programs that read bytes of a buffer, with the offsets of all the bytes they read. A
buffer has a byte at every offset, so a program may read behind the part of the buffer
that it was given; whether it does is a property of the offsets. A loop that uses up
its bound has no result, and the offsets that it read until then.
-/

namespace Foundation

/-- The result, none for a loop that did not end within its bound, and the offsets
read. -/
def PeekM (α : Type) := Buffer → Option α × List Nat

namespace PeekM

variable {α β : Type}

instance : Monad PeekM where
  pure value := fun _ => (some value, [])
  bind program rest := fun buffer =>
    match (program buffer).1 with
    | none => (none, (program buffer).2)
    | some value => ((rest value buffer).1, (program buffer).2 ++ (rest value buffer).2)

/-- A loop has used up its bound. -/
def diverge : PeekM α := fun _ => (none, [])

@[simp] theorem diverge_apply (buffer : Buffer) : (diverge : PeekM α) buffer = (none, []) := rfl

@[simp] theorem pure_apply (value : α) (buffer : Buffer) :
    (pure value : PeekM α) buffer = (some value, []) := rfl

/-- A program whose result is known is followed by the rest. -/
theorem bind_run {program : PeekM α} {rest : α → PeekM β} {buffer : Buffer} {value : α}
    {reads : List Nat} (ran : program buffer = (some value, reads)) :
    (program >>= rest) buffer =
      ((rest value buffer).1, reads ++ (rest value buffer).2) := by
  simp only [bind, ran]

theorem bind_none {program : PeekM α} {rest : α → PeekM β} {buffer : Buffer} {reads : List Nat}
    (ran : program buffer = (none, reads)) : (program >>= rest) buffer = (none, reads) := by
  simp only [bind, ran]

theorem bind_fst (program : PeekM α) (rest : α → PeekM β) (buffer : Buffer) :
    ((program >>= rest) buffer).1 = (program buffer).1.bind fun value => (rest value buffer).1 := by
  cases ran : program buffer with
  | mk result reads =>
      cases result with
      | none => rw [bind_none ran]; rfl
      | some value => rw [bind_run ran]; rfl

end PeekM

/-! ## Reading fields -/

def peek8 (offset : Nat) : PeekM UInt8 := fun buffer => (some (buffer offset), [offset])

def peek16 (offset : Nat) : PeekM Nat := fun buffer =>
  (some (buffer.getU16 offset), [offset, offset + 1])

def peek32 (offset : Nat) : PeekM Nat := fun buffer =>
  (some (buffer.getU32 offset), [offset, offset + 1, offset + 2, offset + 3])

@[simp] theorem peek8_fst (offset : Nat) (buffer : Buffer) :
    (peek8 offset buffer).1 = some (buffer offset) := rfl

@[simp] theorem peek16_fst (offset : Nat) (buffer : Buffer) :
    (peek16 offset buffer).1 = some (buffer.getU16 offset) := rfl

@[simp] theorem peek32_fst (offset : Nat) (buffer : Buffer) :
    (peek32 offset buffer).1 = some (buffer.getU32 offset) := rfl

/-! ## Reading below a limit -/

/-- Every byte that the program reads is below the limit. -/
def ReadsBelow {α : Type} (limit : Nat) (program : PeekM α) (buffer : Buffer) : Prop :=
  ∀ offset ∈ (program buffer).2, offset < limit

section

variable {α β : Type} {limit : Nat} {buffer : Buffer}

@[simp] theorem readsBelow_pure (value : α) :
    ReadsBelow limit (pure value : PeekM α) buffer ↔ True := by
  simp [ReadsBelow]

@[simp] theorem readsBelow_diverge :
    ReadsBelow limit (PeekM.diverge : PeekM α) buffer ↔ True := by
  simp [ReadsBelow]

@[simp] theorem readsBelow_peek8 (offset : Nat) :
    ReadsBelow limit (peek8 offset) buffer ↔ offset < limit := by
  simp [ReadsBelow, peek8]

@[simp] theorem readsBelow_peek16 (offset : Nat) :
    ReadsBelow limit (peek16 offset) buffer ↔ offset + 1 < limit := by
  simp only [ReadsBelow, peek16, List.mem_cons, List.not_mem_nil, or_false, forall_eq_or_imp,
    forall_eq]
  omega

@[simp] theorem readsBelow_peek32 (offset : Nat) :
    ReadsBelow limit (peek32 offset) buffer ↔ offset + 3 < limit := by
  simp only [ReadsBelow, peek32, List.mem_cons, List.not_mem_nil, or_false, forall_eq_or_imp,
    forall_eq]
  omega

/-- A sequence of programs reads below the limit if each of them does, on the results
of those before. -/
theorem readsBelow_bind {program : PeekM α} {rest : α → PeekM β} :
    ReadsBelow limit (program >>= rest) buffer ↔
      ReadsBelow limit program buffer ∧
        ∀ value, (program buffer).1 = some value → ReadsBelow limit (rest value) buffer := by
  simp only [ReadsBelow]
  cases ran : program buffer with
  | mk result reads =>
      cases result with
      | none => simp [PeekM.bind_none ran]
      | some value =>
          rw [PeekM.bind_run ran]
          simp only [List.mem_append, Option.some.injEq, forall_eq']
          constructor
          · intro below
            exact ⟨fun offset member => below offset (.inl member),
              fun offset member => below offset (.inr member)⟩
          · rintro ⟨first, second⟩ offset member
            cases member with
            | inl early => exact first offset early
            | inr late => exact second offset late

end

/-! ## Loops -/

section

variable {ι α : Type} {buffer : Buffer}

/-- A program for each value of a list, in order. -/
def PeekM.each (program : ι → PeekM α) : List ι → PeekM (List α)
  | [] => pure []
  | head :: rest => do
      let value ← program head
      let values ← PeekM.each program rest
      pure (value :: values)

theorem PeekM.each_fst {program : ι → PeekM α} {value : ι → α} {list : List ι}
    (returns : ∀ item ∈ list, (program item buffer).1 = some (value item)) :
    (PeekM.each program list buffer).1 = some (list.map value) := by
  induction list with
  | nil => rfl
  | cons head rest induction =>
      have first := returns head List.mem_cons_self
      have others := induction fun item member => returns item (List.mem_cons_of_mem head member)
      rw [PeekM.each, PeekM.bind_fst, first, Option.bind_some, PeekM.bind_fst, others]
      rfl

/-- A loop over programs that return reads below a limit if each of them does. -/
theorem readsBelow_each {program : ι → PeekM α} {value : ι → α} {list : List ι} {limit : Nat}
    (returns : ∀ item ∈ list, (program item buffer).1 = some (value item)) :
    ReadsBelow limit (PeekM.each program list) buffer ↔
      ∀ item ∈ list, ReadsBelow limit (program item) buffer := by
  induction list with
  | nil => simp [PeekM.each]
  | cons head rest induction =>
      have first := returns head List.mem_cons_self
      have others : ∀ item ∈ rest, (program item buffer).1 = some (value item) :=
        fun item member => returns item (List.mem_cons_of_mem head member)
      rw [PeekM.each, readsBelow_bind, first]
      simp only [Option.some.injEq, forall_eq']
      rw [readsBelow_bind, induction others, PeekM.each_fst others]
      simp

end

end Foundation
