import ParanOS.Mm.Sanitise

/-! # The allocators over the memory map

`ext_mem_alloc` takes a block from the top of the last usable entry that has room for
it, below 4 GiB unless asked otherwise. `conv_mem_alloc` goes up through the memory
below 1 MiB. Both clear their blocks. `pmm_free` makes a range usable again, and
`pmm_realloc` moves a block. The memory is the one behind the table: the table itself
is a static array.
-/

namespace ParanOS.Memmap

open Foundation

/-! ## The code -/

/-- The table, the bytes of the memory and the static variables. -/
structure Memory where
  memmap : List Entry
  bytes : Nat → UInt8
  allocationsDisallowed : Bool
  convBase : UInt64

def memset (bytes : Nat → UInt8) (address : Nat) (value : UInt8) (count : Nat) : Nat → UInt8 :=
  fun other => if address ≤ other ∧ other < address + count then value else bytes other

def memcpy (bytes : Nat → UInt8) (target source count : Nat) : Nat → UInt8 :=
  fun other =>
    if target ≤ other ∧ other < target + count then bytes (source + (other - target))
    else bytes other

def memmapAllocRange (memory : Memory) (base length : UInt64) (type overlayType : UInt32)
    (doPanic simulation newEntry : Bool) : Except Fault (Bool × Memory) :=
  match memmapAllocRangeIn memory.memmap base length type overlayType doPanic simulation
      newEntry with
  | .error fault => .error fault
  | .ok (taken, memmap) => .ok (taken, { memory with memmap })

/-- The base and the length of the block that an entry has to give, compared as signed
numbers. -/
def topBlock (count alignment : UInt64) (allowHighAllocs : Bool) (entry : Entry) :
    Option (UInt64 × UInt64) :=
  if entry.type ≠ 1 then none
  else
    let entryBase := entry.base.toInt64
    let wholeTop := (entry.base + entry.length).toInt64
    let clipped := wholeTop ≥ 0x100000000 && !allowHighAllocs
    let entryTop := if clipped then 0x100000000 else wholeTop
    if clipped ∧ entryBase ≥ entryTop then none
    else
      let allocBase := (alignDown (entryTop - count.toInt64).toUInt64 alignment).toInt64
      if allocBase < entryBase then none
      else some (allocBase.toUInt64, (entryTop - allocBase).toUInt64)

/-- `ext_mem_alloc_type_aligned_mode`: the entries are tried from the last one down. -/
def extMemAllocTypeAlignedMode (memory : Memory) (count : UInt64) (type : UInt32)
    (alignment : UInt64) (allowHighAllocs : Bool) : Except Fault (UInt64 × Memory) :=
  let count := alignUp count alignment
  if memory.allocationsDisallowed then .error (.panic "Memory allocations disallowed")
  else
    match memory.memmap.reverse.findSome? (topBlock count alignment allowHighAllocs) with
    | none => .error (.panic "High memory allocator: Out of memory")
    | some (allocBase, alignedLength) =>
        match memmapAllocRange memory allocBase alignedLength type usable true false false with
        | .error fault => .error fault
        | .ok (_, memory) =>
            match pmmSanitiseEntries false memory.memmap with
            | .error fault => .error fault
            | .ok memmap =>
                .ok (allocBase, { memory with
                  memmap, bytes := memset memory.bytes allocBase.toNat 0 count.toNat })

def extMemAllocTypeAligned (memory : Memory) (count : UInt64) (type : UInt32)
    (alignment : UInt64) : Except Fault (UInt64 × Memory) :=
  extMemAllocTypeAlignedMode memory count type alignment false

def extMemAllocType (memory : Memory) (count : UInt64) (type : UInt32) :
    Except Fault (UInt64 × Memory) :=
  extMemAllocTypeAligned memory count type 4096

def extMemAlloc (memory : Memory) (count : UInt64) : Except Fault (UInt64 × Memory) :=
  extMemAllocType memory count bootloaderReclaimable

/-- The loop of `conv_mem_alloc`, which moves its static base up page by page. -/
def convLoop (count : UInt64) : (fuel : Nat) → Memory → Except Fault (UInt64 × Memory)
  | 0, _ => .error .endless
  | fuel + 1, memory =>
      if memory.convBase + count > 0x100000 then
        .error (.panic "Conventional memory allocation failed")
      else
        match memmapAllocRange memory memory.convBase count bootloaderReclaimable usable false
            false false with
        | .error fault => .error fault
        | .ok (true, taken) =>
            match pmmSanitiseEntries false taken.memmap with
            | .error fault => .error fault
            | .ok memmap =>
                .ok (memory.convBase, { taken with
                  memmap
                  bytes := memset taken.bytes memory.convBase.toNat 0 count.toNat
                  convBase := memory.convBase + count })
        | .ok (false, memory) => convLoop count fuel { memory with
            convBase := memory.convBase + 4096 }

def convMemAlloc (memory : Memory) (count : UInt64) : Except Fault (UInt64 × Memory) :=
  if memory.allocationsDisallowed then .error (.panic "Memory allocations disallowed")
  else convLoop (alignUp count 4096) 257 memory

def pmmFree (memory : Memory) (ptr count : UInt64) : Except Fault Memory :=
  let count := alignUp count 4096
  if memory.allocationsDisallowed then .error (.panic "Memory allocations disallowed")
  else
    match memmapAllocRange memory ptr count usable 0 false false true with
    | .error fault => .error fault
    | .ok (_, memory) => .ok memory

/-- The null pointer is 0. -/
def pmmRealloc (memory : Memory) (oldPtr oldSize newSize : UInt64) :
    Except Fault (UInt64 × Memory) :=
  if newSize = 0 then
    if oldPtr ≠ 0 then
      match pmmFree memory oldPtr oldSize with
      | .error fault => .error fault
      | .ok memory => .ok (0, memory)
    else .ok (0, memory)
  else if oldPtr = 0 then extMemAlloc memory newSize
  else
    match extMemAlloc memory newSize with
    | .error fault => .error fault
    | .ok (newPtr, memory) =>
        let count := if newSize > oldSize then oldSize else newSize
        let copied := { memory with
          bytes := memcpy memory.bytes newPtr.toNat oldPtr.toNat count.toNat }
        match pmmFree copied oldPtr oldSize with
        | .error fault => .error fault
        | .ok memory => .ok (newPtr, memory)

/-! ## Giving a range a type -/

/-- The types of a tidied table: no usable memory in the first page. -/
def settle (types : Nat → Option UInt32) (address : Nat) : Option UInt32 :=
  if types address = some usable ∧ address < 0x1000 then none else types address

theorem settle_eq_some {types : Nat → Option UInt32} {address : Nat} {kind : UInt32} :
    settle types address = some kind ↔
      types address = some kind ∧ (kind = usable → 0x1000 ≤ address) := by
  rw [settle]
  split
  · next dropped =>
      constructor
      · intro absurd
        simp at absurd
      · rintro ⟨found, stays⟩
        have same := Option.some.inj (found.symm.trans dropped.1)
        exact absurd (stays same) (Nat.not_le.mpr dropped.2)
  · next kept =>
      refine ⟨fun found => ⟨found, fun same => ?_⟩, fun both => both.1⟩
      by_contra low
      exact kept ⟨found.trans (congrArg some same), Nat.not_le.mp low⟩

theorem settle_paint_outside {types : Nat → Option UInt32} {low high address : Nat}
    {kind : UInt32} (outside : ¬ (low ≤ address ∧ address < high)) :
    settle (Region.paint types low high kind) address = settle types address := by
  rw [settle, settle, Region.paint, if_neg outside]

theorem settle_paint_inside {types : Nat → Option UInt32} {low high address : Nat}
    {kind : UInt32} (inside : low ≤ address ∧ address < high)
    (stays : kind = usable → 0x1000 ≤ address) :
    settle (Region.paint types low high kind) address = some kind := by
  rw [settle, Region.paint, if_pos inside, if_neg]
  rintro ⟨same, low⟩
  exact absurd (stays (Option.some.inj same)) (Nat.not_le.mpr low)

theorem Settled.settle_kinds {entries : List Entry} (settled : Settled entries) :
    settle (kinds entries) = kinds entries := by
  funext address
  rw [settle, if_neg]
  rintro ⟨kind, low⟩
  exact settled.firstPage address low kind

theorem sanitise_settle {entries result : List Entry} (sound : Sound entries)
    (run : pmmSanitiseEntries false entries = .ok result) :
    Settled result ∧ result.length ≤ entries.length ∧ kinds result = settle (kinds entries) := by
  rcases pmmSanitiseEntries_spec false sound with ⟨other, ran, settled, length, types⟩ | ⟨ran, _⟩
  · rw [ran, Except.ok.injEq] at run
    rw [← run]
    refine ⟨settled, length, ?_⟩
    funext address
    apply Option.ext
    intro kind
    rw [types, settle_eq_some]
    constructor
    · rintro ⟨entry, member, covers, rfl, keeps⟩
      exact ⟨sound.tiles.kindAt_eq_some.mpr ⟨_, List.mem_map_of_mem member, covers, rfl⟩,
        fun kind => (keeps kind).1⟩
    · rintro ⟨found, stays⟩
      rcases sound.tiles.kindAt_eq_some.mp found with ⟨region, member, covers, same⟩
      rcases List.mem_map.mp member with ⟨entry, entryIn, rfl⟩
      exact ⟨entry, entryIn, covers, same, fun kind =>
        ⟨stays (same.symm.trans kind), fun aligned => absurd aligned Bool.false_ne_true⟩⟩
  · rw [ran] at run
    simp at run

/-- A table with an address that keeps its type does not become empty. -/
theorem sanitise_total {entries : List Entry} (sound : Sound entries) {address : Nat}
    {kind : UInt32} (found : kinds entries address = some kind)
    (stays : kind = usable → 0x1000 ≤ address) :
    ∃ result, pmmSanitiseEntries false entries = .ok result := by
  rcases pmmSanitiseEntries_spec false sound with ⟨result, ran, _⟩ | ⟨_, none⟩
  · exact ⟨result, ran⟩
  · rcases sound.tiles.kindAt_eq_some.mp found with ⟨region, member, covers, same⟩
    rcases List.mem_map.mp member with ⟨entry, entryIn, rfl⟩
    refine absurd (fun usable => ⟨stays (same.symm.trans usable), ?_⟩)
      (none entry entryIn address covers)
    exact fun aligned => by simp at aligned

/-- The addresses of a block. -/
def InBlock (base length : UInt64) (address : Nat) : Prop :=
  base.toNat ≤ address ∧ address < base.toNat + length.toNat

theorem newAndSanitise_spec {entries result : List Entry} {base length : UInt64} {type : UInt32}
    {taken : Bool} (sound : Sound entries) (range : Range base length)
    (run : newAndSanitise entries base length type = .ok (taken, result)) :
    taken = true ∧ Settled result ∧ kinds result = settle
      (Region.paint (kinds entries) base.toNat (base.toNat + length.toNat) type) := by
  rw [newAndSanitise] at run
  split at run
  · simp at run
  · next painted paints =>
      split at run
      · simp at run
      · next cleaned cleans =>
          rw [Except.ok.injEq, Prod.mk.injEq] at run
          rcases run with ⟨rfl, rfl⟩
          rcases pmmNewEntry_sound sound range paints with ⟨paintedSound, types⟩
          rcases sanitise_settle paintedSound cleans with ⟨settled, _, same⟩
          exact ⟨rfl, settled, types ▸ same⟩

/-- Tidying goes wrong only where nothing is left, and a painted range that keeps its type
is left. -/
theorem newAndSanitise_ends {entries : List Entry} {base length : UInt64} {type : UInt32}
    (sound : Sound entries) (range : Range base length)
    (stays : type = usable → 0x1000 ≤ base.toNat) :
    (∃ result, newAndSanitise entries base length type = .ok (true, result)) ∨
      newAndSanitise entries base length type = .error (.panic "Memory map exhausted.") ∧
        memmapMaxEntries < entries.length + 2 := by
  rw [newAndSanitise]
  rcases pmmNewEntry_ends sound range type with ⟨painted, paints⟩ | ⟨failed, much⟩
  · rcases pmmNewEntry_sound sound range paints with ⟨paintedSound, types⟩
    have found : kinds painted base.toNat = some type := by
      rw [types, Region.paint, if_pos]
      exact ⟨Nat.le_refl _, Nat.lt_add_of_pos_right range.full⟩
    rcases sanitise_total paintedSound found stays with ⟨result, tidy⟩
    rw [paints]
    dsimp only
    rw [tidy]
    exact Or.inl ⟨result, rfl⟩
  · rw [failed]
    exact Or.inr ⟨rfl, much⟩

/-- A call leaves the table as it was, or paints its range. -/
theorem memmapAllocRangeIn_spec {entries result : List Entry} {base length : UInt64}
    {type overlayType : UInt32} {doPanic simulation newEntry taken : Bool}
    (settled : Settled entries) (high : base.toNat + length.toNat < 2 ^ 63)
    (run : memmapAllocRangeIn entries base length type overlayType doPanic simulation newEntry =
      .ok (taken, result)) :
    result = entries ∧ (taken = true → length = 0 ∨ simulation = true) ∧
        (taken = false → doPanic = false ∧ newEntry = false) ∨
      0 < length.toNat ∧ taken = true ∧ simulation = false ∧ Settled result ∧
        kinds result = settle
          (Region.paint (kinds entries) base.toNat (base.toNat + length.toNat) type) := by
  rw [memmapAllocRangeIn] at run
  split at run
  · next none =>
      rw [Except.ok.injEq, Prod.mk.injEq] at run
      exact Or.inl ⟨run.2.symm, fun _ => Or.inl none, fun none => by simp [← run.1] at none⟩
  · next some =>
      have full : 0 < length.toNat := by
        rw [Nat.pos_iff_ne_zero]
        exact fun zero => some (UInt64.toNat_inj.mp zero)
      have painted : newAndSanitise entries base length type = .ok (taken, result) →
          taken = true ∧ Settled result ∧ kinds result = settle
            (Region.paint (kinds entries) base.toNat (base.toNat + length.toNat) type) :=
        newAndSanitise_spec settled.toSound ⟨full, high⟩
      split at run
      · next simulated =>
          rw [Except.ok.injEq, Prod.mk.injEq] at run
          rw [Bool.and_eq_true] at simulated
          exact Or.inl ⟨run.2.symm, fun _ => Or.inr simulated.1,
            fun none => by simp [← run.1] at none⟩
      · next real =>
        split at run
        · split at run
          · next simulated =>
              rw [Except.ok.injEq, Prod.mk.injEq] at run
              exact Or.inl ⟨run.2.symm, fun _ => Or.inr simulated,
                fun none => by simp [← run.1] at none⟩
          · next real =>
              rcases painted run with ⟨took, rest⟩
              exact Or.inr ⟨full, took, by simpa using real, rest⟩
        · split at run
          · simp at run
          · next quiet =>
            split at run
            · next old =>
                rw [Except.ok.injEq, Prod.mk.injEq] at run
                rw [old, Bool.true_and, Bool.not_eq_true] at quiet
                exact Or.inl ⟨run.2.symm, fun took => by simp [← run.1] at took,
                  fun _ => ⟨quiet, by simpa using old⟩⟩
            · next fresh =>
                rcases painted run with ⟨took, rest⟩
                rw [Bool.not_eq_true, Bool.not_eq_false'] at fresh
                rw [fresh, Bool.and_true, Bool.not_eq_true] at real
                exact Or.inr ⟨full, took, real, rest⟩

/-! ## Blocks from the top -/

/-- The top of the memory from which blocks are taken. -/
def allocLimit (allowHighAllocs : Bool) : Nat := if allowHighAllocs then 2 ^ 63 else 2 ^ 32

theorem toInt_toInt64 {value : UInt64} (bound : value.toNat < 2 ^ 63) :
    value.toInt64.toInt = value.toNat := by
  change value.toBitVec.toInt = value.toNat
  rw [BitVec.toInt_eq_toNat_of_lt]
  · rfl
  · change 2 * value.toNat < 2 ^ 64
    omega

theorem toInt_toInt64_neg {value : UInt64} (bound : 2 ^ 63 ≤ value.toNat) :
    value.toInt64.toInt < 0 := by
  change value.toBitVec.toInt < 0
  rw [BitVec.toInt_eq_toNat_cond, if_neg]
  · change (value.toNat : Int) - (2 ^ 64 : Nat) < 0
    have less := value.toNat_lt
    omega
  · change ¬ 2 * value.toNat < 2 ^ 64
    omega

theorem toNat_alignDown (value alignment : UInt64) :
    (alignDown value alignment).toNat = value.toNat / alignment.toNat * alignment.toNat := by
  rw [alignDown, UInt64.toNat_mul, UInt64.toNat_div]
  exact Nat.mod_eq_of_lt ((Nat.div_mul_le_self _ _).trans_lt value.toNat_lt)

/-- A request whose arithmetic does not overflow. -/
structure Request (count alignment : UInt64) : Prop where
  aligned : 0 < alignment.toNat
  full : 0 < count.toNat
  bound : count.toNat + 2 * alignment.toNat < 2 ^ 63

/-- The size of a block, which is a multiple of its alignment. -/
def blockSize (count alignment : UInt64) : Nat :=
  (count.toNat + (alignment.toNat - 1)) / alignment.toNat * alignment.toNat

section Top

variable {count alignment : UInt64}

theorem Request.toNat_alignUp (request : Request count alignment) :
    (alignUp count alignment).toNat = blockSize count alignment := by
  have aligned := request.aligned
  have bound := request.bound
  have less : (alignment - 1).toNat = alignment.toNat - 1 :=
    UInt64.toNat_sub_of_le _ _ (UInt64.le_iff_toNat_le.mpr aligned)
  have sum : (count + (alignment - 1)).toNat = count.toNat + (alignment.toNat - 1) := by
    rw [UInt64.toNat_add, less]
    exact Nat.mod_eq_of_lt (by omega)
  rw [alignUp, UInt64.toNat_mul, UInt64.toNat_div, sum]
  have product := Nat.div_mul_le_self (count.toNat + (alignment.toNat - 1)) alignment.toNat
  exact Nat.mod_eq_of_lt (by omega)

theorem Request.blockSize_bounds (request : Request count alignment) :
    count.toNat ≤ blockSize count alignment ∧
      blockSize count alignment < count.toNat + alignment.toNat := by
  have aligned := request.aligned
  have product := Nat.div_mul_le_self (count.toNat + (alignment.toNat - 1)) alignment.toNat
  have remainder := Nat.mod_lt (count.toNat + (alignment.toNat - 1)) aligned
  have parts := Nat.div_add_mod' (count.toNat + (alignment.toNat - 1)) alignment.toNat
  rw [blockSize]
  constructor
  · omega
  · omega

/-- Where the top of an entry is taken to be. -/
def Entry.topBelow (entry : Entry) (allowHighAllocs : Bool) : Nat :=
  min entry.region.high (allocLimit allowHighAllocs)

/-- The candidate of an entry with its top at `top` is the block below it, or negative. -/
theorem Request.candidate (request : Request count alignment) {top : UInt64}
    (bound : top.toNat < 2 ^ 63) :
    blockSize count alignment ≤ top.toNat ∧
        (alignDown (top - alignUp count alignment) alignment).toNat =
          (top.toNat - blockSize count alignment) / alignment.toNat * alignment.toNat ∨
      top.toNat < blockSize count alignment ∧
        2 ^ 63 ≤ (alignDown (top - alignUp count alignment) alignment).toNat := by
  have size := request.toNat_alignUp
  rw [toNat_alignDown]
  rcases Nat.lt_or_ge top.toNat (blockSize count alignment) with short | long
  · right
    refine ⟨short, ?_⟩
    have sizeBounds := request.blockSize_bounds
    have requestBound := request.bound
    have wrapped : (top - alignUp count alignment).toNat =
        2 ^ 64 - blockSize count alignment + top.toNat := by
      rw [UInt64.toNat_sub, size]
      exact Nat.mod_eq_of_lt (by omega)
    have remainder := Nat.mod_lt (2 ^ 64 - blockSize count alignment + top.toNat) request.aligned
    have parts := Nat.div_add_mod' (2 ^ 64 - blockSize count alignment + top.toNat)
      alignment.toNat
    rw [wrapped]
    omega
  · left
    refine ⟨long, ?_⟩
    rw [UInt64.toNat_sub_of_le _ _ (UInt64.le_iff_toNat_le.mpr (size ▸ long)), size]

/-- The top that `topBlock` takes. -/
def chosenTop (allowHighAllocs : Bool) (entry : Entry) : UInt64 :=
  if (entry.base + entry.length).toInt64 ≥ 0x100000000 && !allowHighAllocs then 0x100000000
  else entry.base + entry.length

theorem toNat_chosenTop {entry : Entry} (proper : entry.Proper) (allowHighAllocs : Bool) :
    (chosenTop allowHighAllocs entry).toNat = entry.topBelow allowHighAllocs := by
  have high := proper.high
  have top := proper.toNat_top
  have signed : (entry.base + entry.length).toInt64 ≥ 0x100000000 ↔
      2 ^ 32 ≤ entry.base.toNat + entry.length.toNat := by
    rw [ge_iff_le, Int64.le_iff_toInt_le, toInt_toInt64 (by omega), top]
    have limit : (0x100000000 : Int64).toInt = 2 ^ 32 := rfl
    rw [limit]
    omega
  rw [chosenTop, Entry.topBelow, allocLimit, Entry.region_high]
  cases allowHighAllocs with
  | true =>
      simp only [Bool.not_true, Bool.and_false, Bool.false_eq_true, if_false, if_true]
      omega
  | false =>
      simp only [Bool.not_false, Bool.and_true, decide_eq_true_eq, signed, Bool.false_eq_true,
        if_false]
      split
      · change 2 ^ 32 = _
        omega
      · omega

theorem topBlock_eq {count alignment : UInt64} {allowHighAllocs : Bool} {entry : Entry}
    (kind : entry.type = usable) :
    topBlock count alignment allowHighAllocs entry =
      if ((entry.base + entry.length).toInt64 ≥ 0x100000000 && !allowHighAllocs) ∧
          entry.base.toInt64 ≥ (chosenTop allowHighAllocs entry).toInt64 then none
      else if (alignDown (chosenTop allowHighAllocs entry - count) alignment).toInt64 <
          entry.base.toInt64 then none
      else some (alignDown (chosenTop allowHighAllocs entry - count) alignment,
        chosenTop allowHighAllocs entry -
          alignDown (chosenTop allowHighAllocs entry - count) alignment) := by
  have one : ¬ entry.type ≠ 1 := not_not.mpr kind
  rw [topBlock, if_neg one, chosenTop]
  dsimp only
  cases (entry.base + entry.length).toInt64 ≥ 0x100000000 && !allowHighAllocs with
  | true => rfl
  | false => rfl

/-- The signed comparisons of the code, as those of numbers. -/
theorem topBlock_eq_some (request : Request count alignment) {allowHighAllocs : Bool}
    {entry : Entry} (proper : entry.Proper) {base length : UInt64} :
    topBlock (alignUp count alignment) alignment allowHighAllocs entry = some (base, length) ↔
      entry.type = usable ∧
        blockSize count alignment ≤ entry.topBelow allowHighAllocs ∧
        base.toNat = (entry.topBelow allowHighAllocs - blockSize count alignment) /
          alignment.toNat * alignment.toNat ∧
        entry.base.toNat ≤ base.toNat ∧
        base.toNat + length.toNat = entry.topBelow allowHighAllocs := by
  by_cases kind : entry.type = usable
  · have high := proper.high
    have full := request.full
    have sizes := request.blockSize_bounds
    have chosen := toNat_chosenTop proper allowHighAllocs
    have topLe : entry.topBelow allowHighAllocs ≤ entry.base.toNat + entry.length.toNat :=
      min_le_left _ _
    have topBound : (chosenTop allowHighAllocs entry).toNat < 2 ^ 63 := by omega
    have baseSigned : entry.base.toInt64.toInt = entry.base.toNat := toInt_toInt64 (by omega)
    rw [topBlock_eq kind]
    generalize chosenTop allowHighAllocs entry = top at chosen topBound ⊢
    rw [← chosen]
    split
    · next above =>
        -- the entry begins above the limit
        have above := Int64.le_iff_toInt_le.mp above.2
        rw [baseSigned, toInt_toInt64 topBound] at above
        have product := Nat.div_mul_le_self (top.toNat - blockSize count alignment)
          alignment.toNat
        constructor
        · intro absurd
          simp at absurd
        · rintro ⟨_, _, _, _, _⟩
          omega
    · rcases request.candidate topBound with ⟨long, base⟩ | ⟨short, negative⟩
      · have product := Nat.div_mul_le_self (top.toNat - blockSize count alignment)
          alignment.toNat
        generalize alignDown (top - alignUp count alignment) alignment = candidate at base ⊢
        have signed : candidate.toInt64.toInt = candidate.toNat := toInt_toInt64 (by omega)
        have rest : (top - candidate).toNat = top.toNat - candidate.toNat :=
          UInt64.toNat_sub_of_le _ _ (UInt64.le_iff_toNat_le.mpr (by omega))
        split
        · next low =>
            rw [Int64.lt_iff_toInt_lt, signed, baseSigned] at low
            constructor
            · intro absurd
              simp at absurd
            · rintro ⟨_, _, same, _, _⟩
              omega
        · next fits =>
            rw [Int64.lt_iff_toInt_lt, signed, baseSigned] at fits
            rw [Option.some.injEq, Prod.mk.injEq]
            constructor
            · rintro ⟨rfl, rfl⟩
              exact ⟨kind, long, base, by omega, by omega⟩
            · rintro ⟨_, _, sameBase, _, sum⟩
              constructor
              · exact UInt64.toNat_inj.mp (by omega)
              · exact UInt64.toNat_inj.mp (by omega)
      · rw [if_pos]
        · constructor
          · intro absurd
            simp at absurd
          · rintro ⟨_, long, _⟩
            omega
        · have below := toInt_toInt64_neg negative
          rw [Int64.lt_iff_toInt_lt, baseSigned]
          omega
  · have other : entry.type ≠ 1 := kind
    rw [topBlock, if_pos other]
    simp [kind]

end Top

end ParanOS.Memmap
