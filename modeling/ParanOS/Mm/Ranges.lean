import ParanOS.Mm.ExtMem

/-! # The types that a run of ranges leaves

After any calls of `memmap_alloc_range`, `pmm_check_type` gives an address the type of the
last range around it that has been taken.
-/

namespace ParanOS.Memmap

open Foundation

theorem pmmCheckType_eq {entries : List Entry} (sound : Sound entries) (addr : UInt64) :
    pmmCheckType entries addr = (kinds entries addr.toNat).elim (-1) UInt32.toUInt64 := by
  have covers : ∀ entry ∈ entries,
      (addr ≥ entry.base ∧ addr < entry.top ↔ entry.region.Covers addr.toNat) := by
    intro entry member
    rw [Entry.top, ge_iff_le, UInt64.le_iff_toNat_le, UInt64.lt_iff_toNat_lt,
      (sound.proper member).toNat_top, Region.Covers, Entry.region_low, Entry.region_high]
  rw [pmmCheckType]
  cases search : entries.find? fun entry => addr ≥ entry.base ∧ addr < entry.top with
  | none =>
      have absent : kinds entries addr.toNat = none := by
        rw [Option.eq_none_iff_forall_ne_some]
        intro kind found
        rcases sound.tiles.kindAt_eq_some.mp found with ⟨region, member, around, _⟩
        rcases List.mem_map.mp member with ⟨entry, entryIn, rfl⟩
        have missed := List.find?_eq_none.mp search entry entryIn
        exact missed (decide_eq_true ((covers entry entryIn).mpr around))
      rw [absent]
      rfl
  | some entry =>
      have member := List.mem_of_find?_eq_some search
      have inside : addr ≥ entry.base ∧ addr < entry.top := by
        simpa using List.find?_some search
      have found : kinds entries addr.toNat = some entry.type :=
        sound.tiles.kindAt_eq_some.mpr ⟨entry.region, List.mem_map_of_mem member,
          (covers entry member).mp inside, rfl⟩
      rw [found]
      rfl

/-- The arguments of `memmap_alloc_range`. -/
structure RangeCall where
  base : UInt64
  length : UInt64
  type : UInt32
  overlayType : UInt32
  doPanic : Bool
  simulation : Bool
  newEntry : Bool

namespace RangeCall

def run (call : RangeCall) (entries : List Entry) : Except Fault (Bool × List Entry) :=
  memmapAllocRangeIn entries call.base call.length call.type call.overlayType call.doPanic
    call.simulation call.newEntry

/-- The range does not leave the addresses that are not negative when signed. -/
def InBounds (call : RangeCall) : Prop := call.base.toNat + call.length.toNat < 2 ^ 63

/-- A call that has returned true and was no simulation gives its range its type. -/
def Around (call : RangeCall) (taken : Bool) (address : Nat) : Prop :=
  taken = true ∧ call.simulation = false ∧ call.base.toNat ≤ address ∧
    address < call.base.toNat + call.length.toNat

instance (call : RangeCall) (taken : Bool) (address : Nat) :
    Decidable (call.Around taken address) :=
  inferInstanceAs (Decidable (_ ∧ _ ∧ _ ∧ _))

end RangeCall

/-- Calls one after another, with what they have returned, the last one first. -/
def runRanges : List RangeCall → List (RangeCall × Bool) → List Entry →
    Except Fault (List (RangeCall × Bool) × List Entry)
  | [], log, entries => .ok (log, entries)
  | call :: calls, log, entries =>
      match call.run entries with
      | .error fault => .error fault
      | .ok (taken, entries) => runRanges calls ((call, taken) :: log) entries

/-- The type that the last call around an address has given it, or else the one it had. There
is no usable memory in the first page. -/
def lastType (log : List (RangeCall × Bool)) (before : Nat → Option UInt32) (address : Nat) :
    Option UInt32 :=
  match log.find? fun entry => entry.1.Around entry.2 address with
  | some (call, _) => if call.type = usable ∧ address < 0x1000 then none else some call.type
  | none => before address

theorem RangeCall.run_types {call : RangeCall} {entries result : List Entry} {taken : Bool}
    (settled : Settled entries) (bounds : call.InBounds)
    (run : call.run entries = .ok (taken, result)) (address : Nat) :
    Settled result ∧ kinds result address =
      if call.Around taken address then
        if call.type = usable ∧ address < 0x1000 then none else some call.type
      else kinds entries address := by
  rcases memmapAllocRangeIn_spec settled bounds run with
    ⟨rfl, untaken, _⟩ | ⟨_, took, real, resultSettled, types⟩
  · refine ⟨settled, ?_⟩
    rw [if_neg]
    rintro ⟨took, real, above, below⟩
    rcases untaken took with none | simulated
    · rw [none] at below
      change _ < _ + 0 at below
      omega
    · rw [real] at simulated
      exact Bool.false_ne_true simulated
  · refine ⟨resultSettled, ?_⟩
    rw [types]
    by_cases inside : call.base.toNat ≤ address ∧
        address < call.base.toNat + call.length.toNat
    · rw [if_pos ⟨took, real, inside.1, inside.2⟩, settle, Region.paint, if_pos inside]
      simp only [Option.some.injEq]
    · rw [if_neg fun around => inside ⟨around.2.2.1, around.2.2.2⟩,
        settle_paint_outside inside, settled.settle_kinds]

theorem runRanges_types {calls : List RangeCall} {log after : List (RangeCall × Bool)}
    {entries result : List Entry} {before : Nat → Option UInt32} (settled : Settled entries)
    (bounds : ∀ call ∈ calls, call.InBounds) (types : kinds entries = lastType log before)
    (run : runRanges calls log entries = .ok (after, result)) :
    Settled result ∧ kinds result = lastType after before := by
  induction calls generalizing log entries with
  | nil =>
      rw [runRanges, Except.ok.injEq, Prod.mk.injEq] at run
      rw [← run.1, ← run.2]
      exact ⟨settled, types⟩
  | cons call calls induction =>
      rw [runRanges] at run
      split at run
      · simp at run
      · next taken middle ran =>
          have step := RangeCall.run_types settled (bounds call List.mem_cons_self) ran
          apply induction (step 0).1 (fun other member => bounds other
            (List.mem_cons_of_mem _ member)) _ run
          funext address
          rw [(step address).2, lastType, List.find?_cons]
          by_cases around : call.Around taken address
          · rw [if_pos around, decide_eq_true around]
          · rw [if_neg around, decide_eq_false around, types]
            rfl

end ParanOS.Memmap
