import Mathlib.Data.List.Pairwise
import Mathlib.Order.Basic

/-! # Objects in one memory

An object is a list of values at an address. A memory carries a list of objects when
they do not meet and their values stand at their addresses. Writing outside all objects
changes nothing, a new object only has to lie outside them, and a value is written in
one object at a time.
-/

namespace Foundation

structure Object (β : Type) where
  base : Nat
  values : List β

namespace Object

variable {β : Type}

def Around (object : Object β) (address : Nat) : Prop :=
  object.base ≤ address ∧ address < object.base + object.values.length

def Apart (first second : Object β) : Prop :=
  ∀ address, first.Around address → ¬ second.Around address

theorem Apart.symm {first second : Object β} (apart : first.Apart second) :
    second.Apart first :=
  fun address covered meets => apart address meets covered

instance : Std.Symm (@Apart β) := ⟨fun _ _ apart => apart.symm⟩

/-- The values of the object stand at its addresses. -/
def Stands (memory : Nat → β) (object : Object β) : Prop :=
  ∀ index, ∀ value ∈ object.values[index]?, memory (object.base + index) = value

theorem around_index (object : Object β) {index : Nat} {value : β}
    (found : value ∈ object.values[index]?) : object.Around (object.base + index) := by
  rcases List.getElem?_eq_some_iff.mp found with ⟨less, _⟩
  exact ⟨Nat.le_add_right _ _, Nat.add_lt_add_left less _⟩

theorem Stands.congr {memory after : Nat → β} {object : Object β}
    (stands : object.Stands memory)
    (same : ∀ address, object.Around address → after address = memory address) :
    object.Stands after := by
  intro index value found
  rw [same _ (object.around_index found)]
  exact stands index value found

end Object

/-- The memory holds the objects, which do not meet. -/
structure Carries {β : Type} (memory : Nat → β) (objects : List (Object β)) : Prop where
  apart : objects.Pairwise Object.Apart
  stands : ∀ object ∈ objects, object.Stands memory

namespace Carries

variable {β : Type} {memory after : Nat → β} {objects : List (Object β)}

theorem nil : Carries memory [] :=
  ⟨List.Pairwise.nil, fun _ member => absurd member List.not_mem_nil⟩

theorem congr (carries : Carries memory objects)
    (same : ∀ object ∈ objects, ∀ address, object.Around address →
      after address = memory address) : Carries after objects :=
  ⟨carries.apart, fun object member =>
    (carries.stands object member).congr (same object member)⟩

theorem sublist {fewer : List (Object β)} (carries : Carries memory objects)
    (sub : fewer.Sublist objects) : Carries memory fewer :=
  ⟨carries.apart.sublist sub, fun object member =>
    carries.stands object (sub.subset member)⟩

theorem cons {object : Object β} (carries : Carries memory objects)
    (outside : ∀ other ∈ objects, object.Apart other) (stands : object.Stands memory) :
    Carries memory (object :: objects) :=
  ⟨List.pairwise_cons.mpr ⟨outside, carries.apart⟩, by
    intro other member
    rcases List.mem_cons.mp member with rfl | old
    · exact stands
    · exact carries.stands other old⟩

/-- An address lies in at most one object. -/
theorem unique (carries : Carries memory objects) {first second : Object β}
    (left : first ∈ objects) (right : second ∈ objects) {address : Nat}
    (inFirst : first.Around address) (inSecond : second.Around address) : first = second := by
  by_contra different
  exact carries.apart.forall left right different address inFirst inSecond

end Carries

/-! ## Writing in an object -/

/-- The object with a value in the place of an address. -/
def Object.write {β : Type} (address : Nat) (value : β) (object : Object β) : Object β :=
  if object.base ≤ address then
    { object with values := object.values.set (address - object.base) value }
  else object

namespace Object

variable {β : Type} {address : Nat} {value : β}

theorem write_base (object : Object β) : (object.write address value).base = object.base := by
  rw [write]
  split
  · rfl
  · rfl

theorem write_length (object : Object β) :
    (object.write address value).values.length = object.values.length := by
  rw [write]
  split
  · exact List.length_set
  · rfl

theorem around_write (object : Object β) (other : Nat) :
    (object.write address value).Around other ↔ object.Around other := by
  rw [Around, Around, write_base, write_length]

theorem Stands.write {memory : Nat → β} {object : Object β} (stands : object.Stands memory) :
    (object.write address value).Stands
      fun other => if other = address then value else memory other := by
  intro index result found
  rw [write_base]
  rw [Object.write] at found
  dsimp only
  by_cases here : object.base + index = address
  · rw [if_pos here]
    subst here
    rw [if_pos (Nat.le_add_right _ _), Nat.add_sub_cancel_left] at found
    dsimp only at found
    rw [List.getElem?_set_self'] at found
    rcases Option.map_eq_some_iff.mp found with ⟨_, _, same⟩
    exact same
  · rw [if_neg here]
    split at found
    · next below =>
        dsimp only at found
        rw [List.getElem?_set_ne (by omega)] at found
        exact stands index result found
    · exact stands index result found

end Object

theorem Carries.write {β : Type} {memory : Nat → β} {objects : List (Object β)}
    (carries : Carries memory objects) (address : Nat) (value : β) :
    Carries (fun other => if other = address then value else memory other)
      (objects.map (Object.write address value)) := by
  constructor
  · rw [List.pairwise_map]
    apply carries.apart.imp
    intro first second apart other inFirst inSecond
    exact apart other ((first.around_write other).mp inFirst)
      ((second.around_write other).mp inSecond)
  · intro object member
    rcases List.mem_map.mp member with ⟨old, oldIn, rfl⟩
    exact (carries.stands old oldIn).write

end Foundation
