import Mathlib.Data.Finset.Card
import ParanOS.Exfat.Bitmap
import ParanOS.Exfat.Agreement

/-! # Releasing a chain

`exfat_free_chain` follows links that it clears on its way, and clears bits of
the bitmap, which it finds through links too. The table is taken here as it is
on the device: chains may go round in a circle or lead out of the volume.
-/

namespace ParanOS

open Foundation

/-! ## One round -/

/-- Where the loop of `exfat_free_chain` stops. -/
def ChainStop (cl : Nat) : Prop := EndOfChain cl ∨ cl = 0

instance (cl : Nat) : Decidable (ChainStop cl) :=
  inferInstanceAs (Decidable (_ ∨ _))

/-- The bitmap has a bit for the cluster. -/
def HasBit (v : Vol) (cl : Nat) : Prop :=
  v.exfatBitmapClus ≠ 0 ∧ bitmapIndex cl / 8 < v.exfatBitmapSize

instance (v : Vol) (cl : Nat) : Decidable (HasBit v cl) :=
  inferInstanceAs (Decidable (_ ∧ _))

/-- The sectors after `exfat_mark_bitmap` has cleared a bit. -/
def clearBit (v : Vol) (sectors : Nat → Buffer) (cl : Nat) : Nat → Buffer :=
  if HasBit v cl then
    store sectors (bitmapSector v sectors cl)
      ((sectors (bitmapSector v sectors cl)).putU8 (bitmapOffset v cl)
        (markByte (sectors (bitmapSector v sectors cl) (bitmapOffset v cl))
          (bitmapIndex cl % 8) false))
  else sectors

/-- The sectors after one round of `exfat_free_chain`. -/
def releaseCluster (v : Vol) (sectors : Nat → Buffer) (cl : Nat) : Nat → Buffer :=
  clearBit v (setFatEntry v sectors cl 0) cl

theorem exfatMarkBitmap_clears (v : Vol) (sectors : Nat → Buffer) (cl : Nat) :
    ∃ code, exfatMarkBitmap v cl false (Device.healthy sectors) =
      some (code, Device.healthy (clearBit v sectors cl)) := by
  by_cases bit : HasBit v cl
  · have size := bit.2
    rw [exfatMarkBitmap, if_neg bit.1, if_neg (by omega), if_neg (by omega), clearBit, if_pos bit]
    exact ⟨0, markBitmapByte_healthy v sectors cl false⟩
  · rw [clearBit, if_neg bit, exfatMarkBitmap]
    by_cases unknown : v.exfatBitmapClus = 0
    · exact ⟨0, by simp [unknown]⟩
    · by_cases empty : v.exfatBitmapSize = 0
      · exact ⟨0, by simp [empty]⟩
      · have beyond : ¬ bitmapIndex cl / 8 < v.exfatBitmapSize := fun inside =>
          bit ⟨unknown, inside⟩
        exact ⟨-1, by simp [unknown, empty, show v.exfatBitmapSize ≤ bitmapIndex cl / 8 by omega]⟩

theorem exfatFreeChain_stop {v : Vol} {cl fuel : Nat} (stopped : ChainStop cl)
    (device : Device) : exfatFreeChain v (fuel + 1) cl device = some (0, device) := by
  have condition : isEndCluster cl = true ∨ cl = 0 := stopped
  rw [exfatFreeChain, if_pos condition]
  rfl

theorem exfatFreeChain_round {v : Vol} {cl fuel : Nat} (running : ¬ ChainStop cl)
    (sectors : Nat → Buffer) :
    exfatFreeChain v (fuel + 1) cl (Device.healthy sectors) =
      exfatFreeChain v fuel (fatEntry v sectors cl)
        (Device.healthy (releaseCluster v sectors cl)) := by
  have condition : ¬ (isEndCluster cl = true ∨ cl = 0) := running
  rcases exfatMarkBitmap_clears v (setFatEntry v sectors cl 0) cl with ⟨code, marked⟩
  rw [exfatFreeChain, if_neg condition, DiskM.bind_run (fatReadFatEntry_healthy v cl sectors),
    DiskM.bind_run (fatWriteFatEntry_healthy v cl 0 sectors), DiskM.bind_run marked]
  rfl

/-! ## Bits go out only -/

/-- No bit is set that was not set before. -/
def Dimmed (sectors sectors' : Nat → Buffer) : Prop :=
  ∀ lba off bit, (sectors' lba off).toNat.testBit bit = true →
    (sectors lba off).toNat.testBit bit = true

theorem Dimmed.trans {sectors sectors' sectors'' : Nat → Buffer} (first : Dimmed sectors sectors')
    (second : Dimmed sectors' sectors'') : Dimmed sectors sectors'' :=
  fun lba off bit set => first lba off bit (second lba off bit set)

theorem setFatEntry_dimmed (v : Vol) (sectors : Nat → Buffer) (cl : Nat) :
    Dimmed sectors (setFatEntry v sectors cl 0) := by
  intro lba off bit set
  rw [setFatEntry] at set
  by_cases here : lba = fatSector v cl
  · rw [here, store_same, Buffer.putU32] at set
    by_cases inside : fatEntOff v cl ≤ off ∧ off < fatEntOff v cl + 4
    · rw [Buffer.copy_inside inside.1 inside.2, Buffer.littleEndian_testBit, Nat.zero_and,
        Nat.zero_or, Nat.testBit_and] at set
      simp only [Bool.and_eq_true, decide_eq_true_eq] at set
      have old := set.2.1
      rw [Buffer.getU32_testBit _ _ (by omega) set.1] at old
      rw [here, ← old]
      congr 4
      omega
    · rw [Buffer.copy_outside (by omega)] at set
      rw [here]
      exact set
  · rw [store_other here] at set
    exact set

/-- Which bit is cleared. -/
theorem clearBit_testBit (v : Vol) (sectors : Nat → Buffer) (cl lba off bit : Nat) :
    (clearBit v sectors cl lba off).toNat.testBit bit =
      if HasBit v cl ∧ lba = bitmapSector v sectors cl ∧ off = bitmapOffset v cl ∧
          bit = bitmapIndex cl % 8 then false
      else (sectors lba off).toNat.testBit bit := by
  rw [clearBit]
  by_cases has : HasBit v cl
  · rw [if_pos has]
    by_cases sector : lba = bitmapSector v sectors cl
    · rw [sector, store_same, Buffer.putU8]
      by_cases byte : off = bitmapOffset v cl
      · rw [byte, Buffer.copy_inside (by omega) (by omega),
          markByte_testBit _ _ (Nat.mod_lt _ (by omega))]
        simp [has]
      · rw [Buffer.copy_outside (by omega)]
        simp [byte]
    · rw [store_other sector]
      simp [sector]
  · rw [if_neg has]
    simp [has]

theorem releaseCluster_dimmed (v : Vol) (sectors : Nat → Buffer) (cl : Nat) :
    Dimmed sectors (releaseCluster v sectors cl) := by
  apply (setFatEntry_dimmed v sectors cl).trans
  intro lba off bit set
  rw [releaseCluster, clearBit_testBit] at set
  split at set
  · simp at set
  · exact set

/-- A free cluster stays free. -/
theorem Dimmed.fatEntry {v : Vol} {sectors sectors' : Nat → Buffer} {cl : Nat}
    (dimmed : Dimmed sectors sectors') (free : fatEntry v sectors cl = 0) :
    fatEntry v sectors' cl = 0 := by
  apply Nat.eq_of_testBit_eq
  intro position
  have before := congrArg (fun entry => entry.testBit position) free
  have mask : (0x0FFFFFFF : Nat) = 2 ^ 28 - 1 := rfl
  simp only [ParanOS.fatEntry, mask, Nat.testBit_and, Nat.testBit_two_pow_sub_one,
    Nat.zero_testBit, Bool.and_eq_false_iff, decide_eq_false_iff_not] at before ⊢
  by_cases low : position < 28
  · have clear := before.resolve_right (by simpa using low)
    have split : position = 8 * (position / 8) + position % 8 := (Nat.div_add_mod _ _).symm
    left
    rw [split, Buffer.getU32_testBit _ _ (by omega) (by omega)] at clear ⊢
    by_contra set
    have old := dimmed _ _ _ (by simpa using set)
    rw [clear] at old
    exact Bool.false_ne_true old
  · exact .inr low

theorem fatEntry_setFatEntry_zero (v : Vol) (sectors : Nat → Buffer) (cl : Nat) :
    fatEntry v (setFatEntry v sectors cl 0) cl = 0 := by
  have bound := Buffer.getU32_lt (sectors (fatSector v cl)) (fatEntOff v cl)
  have masked := and_lowMask ((0 % 268435456 +
    (sectors (fatSector v cl)).getU32 (fatEntOff v cl) / 268435456 * 268435456) % 4294967296) 28
  rw [fatEntry, setFatEntry, store_same, Buffer.getU32_putU32, joinEntry_eq 0 bound]
  exact masked.trans (by omega)

theorem fatEntry_releaseCluster (v : Vol) (sectors : Nat → Buffer) (cl : Nat) :
    fatEntry v (releaseCluster v sectors cl) cl = 0 := by
  have dimmed : Dimmed (setFatEntry v sectors cl 0) (releaseCluster v sectors cl) := by
    intro lba off bit set
    rw [releaseCluster, clearBit_testBit] at set
    split at set
    · simp at set
    · exact set
  exact dimmed.fatEntry (fatEntry_setFatEntry_zero v sectors cl)

/-! ## The loop ends -/

/-- The links that are left. -/
def liveEntries (v : Vol) (sectors : Nat → Buffer) : Finset Nat :=
  (Finset.range 268435448).filter fun cl => fatEntry v sectors cl ≠ 0

/-- Every round takes away a link, or has come to a cluster without one. -/
theorem liveEntries_round {v : Vol} {sectors : Nat → Buffer} {cl : Nat} (running : ¬ ChainStop cl)
    (linked : fatEntry v sectors cl ≠ 0) :
    (liveEntries v (releaseCluster v sectors cl)).card < (liveEntries v sectors).card := by
  apply Finset.card_lt_card
  rw [Finset.ssubset_iff_of_subset]
  · have below : cl < 268435448 := by
      by_contra above
      exact running (.inl ((endOfChain_iff cl).mpr (by omega)))
    refine ⟨cl, Finset.mem_filter.mpr ⟨Finset.mem_range.mpr below, linked⟩, ?_⟩
    intro member
    exact (Finset.mem_filter.mp member).2 (fatEntry_releaseCluster v sectors cl)
  · intro other member
    rcases Finset.mem_filter.mp member with ⟨below, left⟩
    refine Finset.mem_filter.mpr ⟨below, fun free => left ?_⟩
    exact (releaseCluster_dimmed v sectors cl).fatEntry free

theorem exfatFreeChain_ends {v : Vol} {fuel : Nat} (sectors : Nat → Buffer) (cl : Nat)
    (enough : (liveEntries v sectors).card + 2 ≤ fuel) :
    ∃ sectors', exfatFreeChain v fuel cl (Device.healthy sectors) =
      some (0, Device.healthy sectors') := by
  induction fuel generalizing sectors cl with
  | zero => omega
  | succ fuel induction =>
      by_cases stopped : ChainStop cl
      · exact ⟨sectors, exfatFreeChain_stop stopped _⟩
      · rw [exfatFreeChain_round stopped]
        by_cases last : fatEntry v sectors cl = 0
        · cases fuel with
          | zero => omega
          | succ fuel => exact ⟨_, exfatFreeChain_stop (.inr last) _⟩
        · have fewer := liveEntries_round stopped last
          exact induction _ _ (by omega)

theorem liveEntries_card_le (v : Vol) (sectors : Nat → Buffer) :
    (liveEntries v sectors).card ≤ 268435448 := by
  have bound := Finset.card_filter_le (Finset.range 268435448) fun cl => fatEntry v sectors cl ≠ 0
  rwa [Finset.card_range] at bound

/-! ## What the loop frees -/

/-- Entries of different clusters do not overlap. -/
theorem fatEntOff_apart {v : Vol} (power : v.bytesPerSec = 2 ^ v.exfatBpsShift) {cl other : Nat}
    (running : ¬ EndOfChain cl) (running' : ¬ EndOfChain other) (different : cl ≠ other)
    (same : fatSector v cl = fatSector v other) :
    fatEntOff v cl + 4 ≤ fatEntOff v other ∨ fatEntOff v other + 4 ≤ fatEntOff v cl := by
  rw [endOfChain_iff] at running running'
  rw [fatSector, fatSector, u32_of_lt (show cl * 4 < 4294967296 by omega),
    u32_of_lt (show other * 4 < 4294967296 by omega)] at same
  rw [fatEntOff, fatEntOff, u32_of_lt (show cl * 4 < 4294967296 by omega),
    u32_of_lt (show other * 4 < 4294967296 by omega)]
  have below := Nat.div_le_self (cl * 4) v.bytesPerSec
  have below' := Nat.div_le_self (other * 4) v.bytesPerSec
  have rows : cl * 4 / v.bytesPerSec = other * 4 / v.bytesPerSec := by
    simp only [u32] at same
    generalize cl * 4 / v.bytesPerSec = row at same below
    generalize other * 4 / v.bytesPerSec = row' at same below' ⊢
    omega
  have parts := Nat.div_add_mod (cl * 4) v.bytesPerSec
  have parts' := Nat.div_add_mod (other * 4) v.bytesPerSec
  rw [rows] at parts
  cases shift : v.exfatBpsShift with
  | zero =>
      rw [shift] at power
      simp only [power] at parts parts' rows
      omega
  | succ shift' =>
      cases shift' with
      | zero =>
          rw [shift] at power
          simp only [power] at parts parts' rows
          omega
      | succ shift' =>
          have whole : v.bytesPerSec = 4 * 2 ^ shift' := by
            rw [power, shift, Nat.pow_succ, Nat.pow_succ, Nat.mul_assoc, Nat.mul_comm]
          have slot : cl * 4 % v.bytesPerSec = 4 * (cl % 2 ^ shift') := by
            rw [whole, Nat.mul_comm cl 4, Nat.mul_mod_mul_left]
          have slot' : other * 4 % v.bytesPerSec = 4 * (other % 2 ^ shift') := by
            rw [whole, Nat.mul_comm other 4, Nat.mul_mod_mul_left]
          omega

theorem fatEntry_setFatEntry_other {v : Vol} (power : v.bytesPerSec = 2 ^ v.exfatBpsShift)
    (sectors : Nat → Buffer) (val : Nat) {cl other : Nat} (running : ¬ EndOfChain cl)
    (running' : ¬ EndOfChain other) (different : other ≠ cl) :
    fatEntry v (setFatEntry v sectors cl val) other = fatEntry v sectors other := by
  rw [fatEntry, fatEntry, setFatEntry]
  by_cases same : fatSector v other = fatSector v cl
  · have apart := fatEntOff_apart power running' running different same
    rw [same, store_same, Buffer.putU32, Buffer.getU32_copy_outside apart]
  · rw [store_other same]

/-- The walk to a bit depends on the entries on its way only. -/
theorem walkEntries_congr {v : Vol} {sectors sectors' : Nat → Buffer} {step cl : Nat}
    (same : ∀ earlier < step, ¬ EndOfChain (walkEntries v sectors earlier cl) →
      fatEntry v sectors' (walkEntries v sectors earlier cl) =
        fatEntry v sectors (walkEntries v sectors earlier cl)) :
    walkEntries v sectors' step cl = walkEntries v sectors step cl := by
  induction step generalizing cl with
  | zero => rfl
  | succ step induction =>
      cases ended : isEndCluster cl with
      | true => simp [walkEntries, ended]
      | false =>
          have first := same 0 (by omega) (by simpa [EndOfChain, walkEntries] using ended)
          simp only [walkEntries] at first
          simp only [walkEntries, ended, Bool.false_eq_true, if_false, first]
          apply induction
          intro earlier below
          have later := same (earlier + 1) (by omega)
          simpa only [walkEntries, ended, Bool.false_eq_true, if_false] using later

/-- The clusters that `exfat_free_chain` comes to. -/
abbrev OnChain (v : Vol) (sectors : Nat → Buffer) (start : Nat) : Nat → Prop :=
  Reached (fatEntry v sectors) ChainStop start

theorem OnChain.running {v : Vol} {sectors : Nat → Buffer} {start cl : Nat}
    (reached : OnChain v sectors start cl) : ¬ EndOfChain cl :=
  fun stopped => reached.not_stop (.inl stopped)

/-- The clusters whose entries are looked up on the way to a bit. -/
def OnBitmapWalk (v : Vol) (sectors : Nat → Buffer) (cl : Nat) : Prop :=
  ∃ step, cl = walkEntries v sectors step v.exfatBitmapClus

/-- The bits of a chain's clusters are not in sectors with its entries or the
bitmap's, and are found without a link of the chain. -/
structure BitmapApart (v : Vol) (sectors : Nat → Buffer) (start : Nat) : Prop where
  outside : ∀ cl, OnChain v sectors start cl → HasBit v cl → ∀ other, ¬ EndOfChain other →
    OnChain v sectors start other ∨ OnBitmapWalk v sectors other →
    bitmapSector v sectors cl ≠ fatSector v other
  walk : ∀ cl, OnChain v sectors start cl → HasBit v cl →
    ∀ step < bitmapIndex cl / 8 / v.clusterBytes,
      ¬ OnChain v sectors start (walkEntries v sectors step v.exfatBitmapClus)

/-- The freed clusters have no link and no bit; other links and bits are as
before. -/
structure Released (v : Vol) (before after : Nat → Buffer) (freed : Nat → Prop) : Prop where
  zero : ∀ cl, freed cl → fatEntry v after cl = 0
  clear : ∀ cl, freed cl → HasBit v cl →
    (after (bitmapSector v before cl) (bitmapOffset v cl)).toNat.testBit (bitmapIndex cl % 8) =
      false
  entries : ∀ cl, ¬ EndOfChain cl → ¬ freed cl →
    (∀ other, freed other → HasBit v other → bitmapSector v before other ≠ fatSector v cl) →
    fatEntry v after cl = fatEntry v before cl
  bits : ∀ lba off bit, (∀ cl, freed cl → lba ≠ fatSector v cl) →
    (∀ cl, freed cl → HasBit v cl → lba = bitmapSector v before cl → off = bitmapOffset v cl →
      bit ≠ bitmapIndex cl % 8) →
    (after lba off).toNat.testBit bit = (before lba off).toNat.testBit bit

section

variable {v : Vol} (power : v.bytesPerSec = 2 ^ v.exfatBpsShift) {before sectors : Nat → Buffer}
  {start : Nat} (apart : BitmapApart v before start) {freed : Nat → Prop}

include power apart

/-- The bit of a cluster on the chain is where it was at first, also when the
link of the cluster has gone. -/
theorem Released.bitmapSector_eq {cl : Nat} (state : Released v before sectors freed)
    (inside : ∀ cl, freed cl → OnChain v before start cl) (reached : OnChain v before start cl)
    (has : HasBit v cl) :
    bitmapSector v (setFatEntry v sectors cl 0) cl = bitmapSector v before cl := by
  rw [bitmapSector, bitmapSector, walkEntries_congr]
  intro step below running
  have offChain := apart.walk cl reached has step below
  rw [fatEntry_setFatEntry_other power _ _ reached.running running
    fun same => offChain (same ▸ reached)]
  apply state.entries _ running
  · exact fun released => offChain (inside _ released)
  · intro other released otherHas
    exact apart.outside other (inside other released) otherHas _ running (.inr ⟨step, rfl⟩)

/-- One round frees one more cluster. -/
theorem Released.round {cl : Nat} (state : Released v before sectors freed)
    (inside : ∀ cl, freed cl → OnChain v before start cl)
    (reached : OnChain v before start cl) :
    Released v before (releaseCluster v sectors cl) fun other => freed other ∨ other = cl := by
  have dimmed := releaseCluster_dimmed v sectors cl
  have place := state.bitmapSector_eq power apart inside reached
  constructor
  · intro other released
    cases released with
    | inl earlier => exact dimmed.fatEntry (state.zero other earlier)
    | inr same =>
        rw [same]
        exact fatEntry_releaseCluster v sectors cl
  · intro other released has
    cases released with
    | inl earlier =>
        by_contra set
        have old := dimmed _ _ _ (by simpa using set)
        rw [state.clear other earlier has] at old
        exact Bool.false_ne_true old
    | inr same =>
        subst same
        rw [releaseCluster, clearBit_testBit, place has, if_pos ⟨has, rfl, rfl, rfl⟩]
  · intro other running kept away
    have different : other ≠ cl := fun same => kept (.inr same)
    have entry : fatEntry v (releaseCluster v sectors cl) other =
        fatEntry v (setFatEntry v sectors cl 0) other := by
      rw [fatEntry, fatEntry, releaseCluster, clearBit]
      by_cases has : HasBit v cl
      · rw [if_pos has, store_other]
        rw [place has]
        exact (away cl (.inr rfl) has).symm
      · rw [if_neg has]
    rw [entry, fatEntry_setFatEntry_other power sectors 0 reached.running running different]
    exact state.entries other running (fun earlier => kept (.inl earlier))
      fun other' earlier => away other' (.inl earlier)
  · intro lba off bit outside other
    rw [releaseCluster, clearBit_testBit, if_neg]
    · rw [setFatEntry, store_other (outside cl (.inr rfl))]
      exact state.bits lba off bit (fun cl' earlier => outside cl' (.inl earlier))
        fun cl' earlier => other cl' (.inl earlier)
    · rintro ⟨has, sector, byte, same⟩
      rw [place has] at sector
      exact other cl (.inr rfl) has sector byte same

/-- A run frees what it has come to; at its end that is everything on the
chain. -/
theorem Released.run {fuel cl : Nat} {code : Int} {device : Device}
    (state : Released v before sectors freed)
    (inside : ∀ cl, freed cl → OnChain v before start cl)
    (position : ChainStop cl ∨ OnChain v before start cl)
    (closed : ∀ other, freed other → ChainStop (fatEntry v before other) ∨
      freed (fatEntry v before other) ∨ fatEntry v before other = cl)
    (first : freed start ∨ start = cl)
    (ran : exfatFreeChain v fuel cl (Device.healthy sectors) = some (code, device)) :
    ∃ after, device = Device.healthy after ∧
      Released v before after (OnChain v before start) := by
  induction fuel generalizing sectors cl freed with
  | zero => simp [exfatFreeChain] at ran
  | succ fuel induction =>
      by_cases stopped : ChainStop cl
      · rw [exfatFreeChain_stop stopped] at ran
        have all : freed = OnChain v before start := by
          funext other
          apply propext
          constructor
          · exact inside other
          · intro reached
            apply reached.of_closed
            · intro running
              exact first.resolve_right fun same => running (same ▸ stopped)
            · intro other released running
              have next := (closed other released).resolve_left running
              exact next.resolve_right fun same => running (same ▸ stopped)
        refine ⟨sectors, ?_, all ▸ state⟩
        simp only [Option.some.injEq, Prod.mk.injEq] at ran
        exact ran.2.symm
      · have reached := position.resolve_left stopped
        rw [exfatFreeChain_round stopped] at ran
        -- a cluster that was freed before has no link any more
        have next : freed cl ∧ fatEntry v sectors cl = 0 ∨
            fatEntry v sectors cl = fatEntry v before cl := by
          by_cases again : freed cl
          · exact .inl ⟨again, state.zero cl again⟩
          · right
            apply state.entries cl reached.running again
            intro other released has
            exact apart.outside other (inside other released) has cl reached.running (.inl reached)
        apply induction (state.round power apart inside reached)
        · intro other released
          cases released with
          | inl earlier => exact inside other earlier
          | inr same => exact same ▸ reached
        · cases next with
          | inl again => exact .inl (.inr again.2)
          | inr link =>
              rw [link]
              by_cases done : ChainStop (fatEntry v before cl)
              · exact .inl done
              · exact .inr (reached.link done)
        · intro other released
          by_cases earlier : freed other
          · exact (closed other earlier).imp_right fun rest => .inl rest
          · have same := released.resolve_left earlier
            subst same
            cases next with
            | inl again => exact absurd again.1 earlier
            | inr link => exact .inr (.inr link.symm)
        · exact .inl (first.imp_right fun same => same)
        · exact ran

end

/-- Freeing a chain ends, whatever the table holds. It frees what the chain
comes to and nothing else, unless the way to a bit leads along the chain. -/
theorem exfatFreeChain_released {v : Vol} (power : v.bytesPerSec = 2 ^ v.exfatBpsShift)
    (sectors : Nat → Buffer) (start : Nat) {fuel : Nat} (enough : 268435450 ≤ fuel) :
    ∃ sectors', exfatFreeChain v fuel start (Device.healthy sectors) =
        some (0, Device.healthy sectors') ∧
      (BitmapApart v sectors start →
        Released v sectors sectors' (OnChain v sectors start)) := by
  have bound := liveEntries_card_le v sectors
  have rounds : (liveEntries v sectors).card + 2 ≤ fuel := by omega
  rcases exfatFreeChain_ends sectors start rounds with ⟨sectors', ran⟩
  refine ⟨sectors', ran, ?_⟩
  intro apart
  have begun : Released v sectors sectors fun _ => False :=
    ⟨fun _ none => none.elim, fun _ none => none.elim, fun _ _ _ _ => rfl, fun _ _ _ _ _ => rfl⟩
  have position : ChainStop start ∨ OnChain v sectors start start := by
    by_cases stopped : ChainStop start
    · exact .inl stopped
    · exact .inr (.start stopped)
  rcases begun.run power apart (fun _ none => none.elim) position (fun _ none => none.elim)
    (.inr rfl) ran with ⟨after, same, released⟩
  have sectorsSame := congrArg Device.sectors same
  simp only [Device.healthy_sectors] at sectorsSame
  rw [sectorsSame]
  exact released

/-- The clusters 5 and 6 of the small volume in a circle. -/
def exfatCircle : Nat → Buffer :=
  setFatEntry exfatVol (setFatEntry exfatVol (exfatImage 30) 5 6) 6 5

theorem exfatCircle_onChain {cl : Nat} (reached : OnChain exfatVol exfatCircle 5 cl) :
    cl = 5 ∨ cl = 6 := by
  have first : fatEntry exfatVol exfatCircle 5 = 6 := by decide
  have second : fatEntry exfatVol exfatCircle 6 = 5 := by decide
  apply reached.of_closed
  · exact fun _ => .inl rfl
  · intro value inside _
    cases inside with
    | inl same => exact .inr (same ▸ first)
    | inr same => exact .inl (same ▸ second)

theorem exfatCircle_bitmapApart : BitmapApart exfatVol exfatCircle 5 where
  outside := by
    intro cl reached _ other _ consulted
    have sector : bitmapSector exfatVol exfatCircle cl = 3 := by
      cases exfatCircle_onChain reached with
      | inl same => exact same ▸ rfl
      | inr same => exact same ▸ rfl
    have last : isEndCluster (fatEntry exfatVol exfatCircle 3) = true := by decide
    rw [sector]
    cases consulted with
    | inl onChain =>
        cases exfatCircle_onChain onChain with
        | inl same => exact same ▸ by decide
        | inr same => exact same ▸ by decide
    | inr walked =>
        rcases walked with ⟨step, rfl⟩
        cases step with
        | zero => decide
        | succ step =>
            have stopped : walkEntries exfatVol exfatCircle (step + 1) 3 =
                fatEntry exfatVol exfatCircle 3 := by
              cases step with
              | zero => rfl
              | succ step =>
                  rw [walkEntries, if_neg (by decide), walkEntries, if_pos last]
            have entry : fatEntry exfatVol exfatCircle 3 = eocMark := by decide
            have bitmap : exfatVol.exfatBitmapClus = 3 := rfl
            rw [bitmap, stopped, entry]
            decide
  walk := by
    intro cl reached _ step below
    have none : bitmapIndex cl / 8 / exfatVol.clusterBytes = 0 := by
      cases exfatCircle_onChain reached with
      | inl same => exact same ▸ rfl
      | inr same => exact same ▸ rfl
    omega

theorem exfatFreeChain_released_circle :
    ∃ sectors', exfatFreeChain exfatVol 268435450 5 (Device.healthy exfatCircle) =
        some (0, Device.healthy sectors') ∧
      Released exfatVol exfatCircle sectors' (OnChain exfatVol exfatCircle 5) := by
  rcases exfatFreeChain_released (v := exfatVol) rfl exfatCircle 5 (Nat.le_refl 268435450) with
    ⟨sectors', ran, released⟩
  exact ⟨sectors', ran, released exfatCircle_bitmapApart⟩

/-- A volume with a bitmap of two clusters, 3 and 4500, far behind the table. -/
def exfatSpread : Vol :=
  { exfatVol with
    firstDataLba := 4194304
    exfatHeapOffset := 4194304
    exfatClusterCount := 8192
    exfatBitmapSize := 1024
    fatSz32 := 65
    exfatFatLength := 65
    totSec32 := 4202496 }

/-- A chain that starts in cluster 10 and runs into the bitmap's; all bits of
its clusters are set. -/
def exfatCrossed : Nat → Buffer := fun lba =>
  if lba = 1 then Buffer.putU32 (Buffer.putU32 (fun _ => 0) 40 3) 12 4500
  else if lba = 36 then Buffer.putU32 (fun _ => 0) 80 eocMark
  else if lba = 4194305 then Buffer.putU16 (fun _ => 0) 0 0x0102
  else if lba = 4198802 then Buffer.putU8 (fun _ => 0) 50 0x04
  else fun _ => 0

theorem exfatSpread_outside {cl other : Nat} (has : HasBit exfatSpread cl)
    (running : ¬ EndOfChain other) :
    bitmapSector exfatSpread exfatCrossed cl ≠ fatSector exfatSpread other := by
  rw [endOfChain_iff] at running
  have table : fatSector exfatSpread other < 4194304 := by
    rw [fatSector, u32_of_lt (show other * 4 < 4294967296 by omega)]
    simp only [exfatSpread, exfatVol, u32]
    omega
  have covered : bitmapIndex cl / 8 < 1024 := has.2
  have steps : bitmapIndex cl / 8 / 512 = 0 ∨ bitmapIndex cl / 8 / 512 = 1 := by omega
  have row : bitmapIndex cl / 8 % 512 / 512 = 0 := by omega
  have bitmap : 4194304 ≤ bitmapSector exfatSpread exfatCrossed cl := by
    have size : exfatSpread.clusterBytes = 512 := rfl
    have sector : exfatSpread.bytesPerSec = 512 := rfl
    rw [bitmapSector, size, sector, row]
    cases steps with
    | inl first =>
        rw [first]
        decide
    | inr second =>
        rw [second]
        decide
  omega

/-- When the freed chain runs into the bitmap's, the link to the bitmap's second
cluster goes before the bit there is looked for. -/
theorem exfatFreeChain_leaves_bit :
    ¬ ∀ (v : Vol) (sectors : Nat → Buffer) (start fuel : Nat),
      v.bytesPerSec = 2 ^ v.exfatBpsShift →
      (∀ cl other, HasBit v cl → ¬ EndOfChain other →
        bitmapSector v sectors cl ≠ fatSector v other) →
      268435450 ≤ fuel →
      ∃ sectors', exfatFreeChain v fuel start (Device.healthy sectors) =
          some (0, Device.healthy sectors') ∧
        Released v sectors sectors' (OnChain v sectors start) := by
  intro claim
  rcases claim exfatSpread exfatCrossed 10 (268435446 + 1 + 1 + 1 + 1) rfl
    (fun _ _ has running => exfatSpread_outside has running) (by decide) with
    ⟨sectors', ran, released⟩
  have first : fatEntry exfatSpread exfatCrossed 10 = 3 := by decide +kernel
  have second : fatEntry exfatSpread exfatCrossed 3 = 4500 := by decide +kernel
  have reached : OnChain exfatSpread exfatCrossed 10 4500 := by
    have start : OnChain exfatSpread exfatCrossed 10 10 := .start (by decide)
    have middle := start.link (by rw [first]; decide)
    rw [first] at middle
    have last := middle.link (by rw [second]; decide)
    rwa [second] at last
  have second' : fatEntry exfatSpread (releaseCluster exfatSpread exfatCrossed 10) 3 = 4500 := by
    decide +kernel
  have third : ChainStop (fatEntry exfatSpread (releaseCluster exfatSpread
      (releaseCluster exfatSpread exfatCrossed 10) 3) 4500) := by
    decide +kernel
  rw [exfatFreeChain_round (by decide), first, exfatFreeChain_round (by decide), second',
    exfatFreeChain_round (by decide), exfatFreeChain_stop third, Option.some.injEq,
    Prod.mk.injEq] at ran
  have sectorsSame := congrArg Device.sectors ran.2
  simp only [Device.healthy_sectors] at sectorsSame
  have clear := released.clear 4500 reached (by decide +kernel)
  rw [← sectorsSame] at clear
  exact absurd clear (by decide +kernel)

end ParanOS
