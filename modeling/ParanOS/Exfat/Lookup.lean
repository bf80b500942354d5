import ParanOS.Exfat.Content
import ParanOS.Exfat.File

/-! # exFAT lookups as searches over slots

What the slot walks of `fs_fat32.c` read on a healthy device, in terms of the
bytes of whole clusters: the set that starts in a slot, and the first slot of a
directory at which a lookup ends.
-/

namespace ParanOS

open Foundation

/-! ## Clusters as buffers -/

/-- The bytes of a cluster by offset. -/
def body (v : Vol) (store : ClusterStore) (cl : Nat) : Buffer := fun index =>
  store.sector cl (index / v.bytesPerSec) (index % v.bytesPerSec)

theorem body_congr {v : Vol} {store store' : ClusterStore} {cl : Nat}
    (same : store'.sector cl = store.sector cl) : body v store' cl = body v store cl := by
  funext index
  rw [body, body, same]

/-- A slot lies in one sector, if sectors consist of whole slots. -/
theorem slot_split {size off index : Nat} (positive : 0 < size) (slots : 32 ∣ size)
    (aligned : 32 ∣ off) (inside : index < 32) :
    (off + index) / size = off / size ∧ (off + index) % size = off % size + index := by
  rcases aligned with ⟨slot, rfl⟩
  rcases slots with ⟨count, total⟩
  have bound := Nat.mod_lt (32 * slot) positive
  have remainder : 32 * slot % size = 32 * (slot % count) := by
    rw [total, Nat.mul_mod_mul_left]
  have fits : 32 * slot % size + index < size := by omega
  have split : 32 * slot + index = size * (32 * slot / size) + (32 * slot % size + index) := by
    rw [← Nat.add_assoc, Nat.div_add_mod]
  rw [split, Nat.mul_add_div positive, Nat.mul_add_mod, Nat.div_eq_of_lt fits,
    Nat.mod_eq_of_lt fits]
  exact ⟨rfl, rfl⟩

/-- A slot of a directory: cluster and offset in it. -/
structure Place where
  cl : Nat
  off : Nat
  deriving DecidableEq

/-- The places of a chain of clusters in the order of a directory walk. -/
def chainPlaces (v : Vol) (chain : List Nat) : List Place :=
  chain.flatMap fun cl => (clusterOffsets v).map fun off => ⟨cl, off⟩

theorem chainPlaces_nodup {v : Vol} {chain : List Nat} (distinct : chain.Nodup) :
    (chainPlaces v chain).Nodup := by
  have offsets : (clusterOffsets v).Nodup :=
    List.nodup_range.map fun _ _ same => Nat.eq_of_mul_eq_mul_left (by decide) same
  rw [chainPlaces, List.nodup_flatMap]
  constructor
  · intro cl _
    exact offsets.map fun _ _ same => congrArg Place.off same
  · apply distinct.imp
    intro first second different place inFirst inSecond
    rcases List.mem_map.mp inFirst with ⟨_, _, rfl⟩
    rcases List.mem_map.mp inSecond with ⟨_, _, same⟩
    exact different (congrArg Place.cl same).symm

section

variable {v : Vol} (shape : ExfatGeometry v)
include shape

theorem ExfatGeometry.clusterBytes_dvd : 32 ∣ v.clusterBytes :=
  Dvd.dvd.mul_right shape.geometry.slot_dvd _

theorem mem_clusterOffsets {off : Nat} :
    off ∈ clusterOffsets v ↔ 32 ∣ off ∧ off < v.clusterBytes := by
  have aligned := shape.clusterBytes_dvd
  simp only [clusterOffsets, List.mem_map, List.mem_range]
  constructor
  · rintro ⟨index, below, rfl⟩
    exact ⟨Nat.dvd_mul_right 32 index, by omega⟩
  · rintro ⟨⟨index, rfl⟩, below⟩
    exact ⟨index, by omega, rfl⟩

theorem mem_chainPlaces {chain : List Nat} {place : Place} :
    place ∈ chainPlaces v chain ↔
      place.cl ∈ chain ∧ 32 ∣ place.off ∧ place.off < v.clusterBytes := by
  simp only [chainPlaces, List.mem_flatMap, List.mem_map, mem_clusterOffsets shape]
  constructor
  · rintro ⟨cl, member, off, range, rfl⟩
    exact ⟨member, range⟩
  · rintro ⟨member, range⟩
    exact ⟨place.cl, member, place.off, range, rfl⟩

/-- A slot lies in one sector. -/
theorem slot_div {off index : Nat} (aligned : 32 ∣ off) (inside : index < 32) :
    (off + index) / v.bytesPerSec = off / v.bytesPerSec ∧
      (off + index) % v.bytesPerSec = off % v.bytesPerSec + index :=
  slot_split shape.geometry.sector_pos shape.geometry.slot_dvd aligned inside

theorem body_slot (store : ClusterStore) (cl : Nat) {off index : Nat} (aligned : 32 ∣ off)
    (inside : index < 32) :
    store.sector cl (off / v.bytesPerSec) (off % v.bytesPerSec + index) =
      body v store cl (off + index) := by
  rcases slot_div shape aligned inside with ⟨quotient, remainder⟩
  rw [body, quotient, remainder]

theorem body_slot_start (store : ClusterStore) (cl : Nat) {off : Nat} (aligned : 32 ∣ off) :
    store.sector cl (off / v.bytesPerSec) (off % v.bytesPerSec) = body v store cl off :=
  body_slot shape store cl aligned (show 0 < 32 by omega)

omit shape in
theorem offset_sector_lt {off : Nat} (inside : off < v.clusterBytes) :
    off / v.bytesPerSec < v.secPerClus :=
  Nat.div_lt_of_lt_mul inside

/-- The sector of a slot on the device. -/
theorem slot_sector (sectors : Nat → Buffer) {cl off : Nat}
    (data : DataCluster (v.exfatClusterCount + 2) cl) (inside : off < v.clusterBytes) :
    sectors (u32 (clusToLba v cl + off / v.bytesPerSec)) =
      (exfatView v sectors).sector cl (off / v.bytesPerSec) :=
  shape.geometry.sector_eq sectors data (offset_sector_lt inside)

theorem rd_slot (sectors : Nat → Buffer) {cl off : Nat}
    (data : DataCluster (v.exfatClusterCount + 2) cl) (inside : off < v.clusterBytes) :
    rd (clusToLba v cl + off / v.bytesPerSec) (Device.healthy sectors) =
      some (some ((exfatView v sectors).sector cl (off / v.bytesPerSec)),
        Device.healthy sectors) := by
  rw [rd_healthy, slot_sector shape sectors data inside]

/-! ## Reading a set -/

/-- A part of a buffer, and zeros behind it. -/
def window (buffer : Buffer) (offset count : Nat) : Buffer :=
  Buffer.copy (fun _ => 0) 0 count fun index => buffer (offset + index)

omit shape in
theorem window_lt {buffer : Buffer} {offset count index : Nat} (inside : index < count) :
    window buffer offset count index = buffer (offset + index) := by
  rw [window, Buffer.copy_inside (by omega) (by omega), Nat.sub_zero]

/-- Collecting the next slot. -/
theorem window_step (store : ClusterStore) (cl : Nat) {start : Nat} (aligned : 32 ∣ start)
    (i : Nat) :
    (window (body v store cl) start (i * 32)).copy (i * 32) 32
        (fun index => store.sector cl ((start + i * 32) / v.bytesPerSec)
          ((start + i * 32) % v.bytesPerSec + index)) =
      window (body v store cl) start ((i + 1) * 32) := by
  have slotAligned : 32 ∣ start + i * 32 := Nat.dvd_add aligned (Nat.dvd_mul_left 32 i)
  funext index
  by_cases here : i * 32 ≤ index ∧ index < i * 32 + 32
  · rw [Buffer.copy_inside here.1 here.2, window_lt (by omega),
      body_slot shape store cl slotAligned (by omega)]
    congr 1
    omega
  · rw [Buffer.copy_outside (by omega)]
    by_cases earlier : index < i * 32
    · rw [window_lt earlier, window_lt (by omega)]
    · rw [window, window, Buffer.copy_outside (by omega), Buffer.copy_outside (by omega)]

theorem collectLoop_reads (sectors : Nat → Buffer) {cl start : Nat}
    (data : DataCluster (v.exfatClusterCount + 2) cl) (aligned : 32 ∣ start) (count i : Nat)
    (fits : start + (i + count) * 32 ≤ v.clusterBytes) (last : Option (Nat × Buffer))
    (current : ∀ cached ∈ last, cached.2 = (exfatView v sectors).sector cl cached.1) :
    Reading (collectLoop v (clusToLba v cl) start count i last
        (window (body v (exfatView v sectors) cl) start (i * 32))) sectors fun failed result =>
      failed = true ∧ result = none ∨ failed = false ∧
        result = some (window (body v (exfatView v sectors) cl) start ((i + count) * 32)) := by
  induction count generalizing i last with
  | zero => exact .pure (.inr ⟨rfl, rfl⟩)
  | succ count induction =>
      have step := window_step shape (exfatView v sectors) cl aligned i
      have total : i + (count + 1) = i + 1 + count := by omega
      rw [total] at fits ⊢
      cases found : last.filter fun cached =>
          cached.1 == (start + i * 32) / v.bytesPerSec with
      | some cached =>
          rcases Option.filter_eq_some_iff.mp found with ⟨known, same⟩
          have content := current cached known
          rw [beq_iff_eq.mp same] at content
          simp only [collectLoop, found, content, step]
          exact induction (i + 1) fits last current
      | none =>
          simp only [collectLoop, found]
          apply Reading.rd_bind
          · exact .pure (.inl ⟨rfl, rfl⟩)
          · rw [slot_sector shape sectors data (show start + i * 32 < v.clusterBytes by omega)]
            simp only [step]
            apply induction (i + 1) fits
            intro cached known
            rw [← Option.mem_some.mp known]

/-- The set that starts in a slot, if there is one that can be parsed. -/
def setAt (v : Vol) (store : ClusterStore) (place : Place) :
    Option (List UInt8 × EntryInfo) :=
  let slot := body v store place.cl
  let secondary := (slot (place.off + 1)).toNat
  if slot place.off ≠ exfatEntryFile then none
  else if secondary = 0 then none
  else if secondary > 40 then none
  else if place.off + (secondary + 1) * 32 > v.clusterBytes then none
  else exfatParseFileSet (window slot place.off ((secondary + 1) * 32)) secondary

/-- The slot holds the start of a set that a lookup collects. -/
structure Collected (v : Vol) (store : ClusterStore) (place : Place) : Prop where
  file : body v store place.cl place.off = exfatEntryFile
  positive : (body v store place.cl (place.off + 1)).toNat ≠ 0
  short : (body v store place.cl (place.off + 1)).toNat ≤ 40
  inside : place.off + ((body v store place.cl (place.off + 1)).toNat + 1) * 32 ≤ v.clusterBytes

/-- A set that could not be read is taken for none. -/
theorem exfatSetAt_reads (sectors : Nat → Buffer) {cl off : Nat}
    (data : DataCluster (v.exfatClusterCount + 2) cl) (aligned : 32 ∣ off) :
    Reading (exfatSetAt v cl off ((exfatView v sectors).sector cl (off / v.bytesPerSec))) sectors
      fun failed result =>
        failed = true ∧ result = none ∧ Collected v (exfatView v sectors) ⟨cl, off⟩ ∨
        failed = false ∧ result = setAt v (exfatView v sectors) ⟨cl, off⟩ := by
  have first := body_slot_start shape (exfatView v sectors) cl aligned
  have second := body_slot shape (exfatView v sectors) cl aligned (show 1 < 32 by omega)
  simp only [exfatSetAt, setAt, first, second]
  split
  · exact .pure (.inr ⟨rfl, rfl⟩)
  · next file =>
      split
      · exact .pure (.inr ⟨rfl, rfl⟩)
      · next positive =>
          split
          · exact .pure (.inr ⟨rfl, rfl⟩)
          · next short =>
              by_cases outside : off +
                  ((body v (exfatView v sectors) cl (off + 1)).toNat + 1) * 32 > v.clusterBytes
              · rw [if_pos outside, exfatCollectEntries, if_pos outside]
                exact .pure (.inr ⟨rfl, rfl⟩)
              · have collected := collectLoop_reads shape sectors data aligned
                  ((body v (exfatView v sectors) cl (off + 1)).toNat + 1) 0 (by omega) none
                  (by simp)
                have empty : window (body v (exfatView v sectors) cl) off (0 * 32) =
                    fun _ => 0 := by
                  funext index
                  rw [window, Buffer.copy_outside (by omega)]
                rw [empty, Nat.zero_add] at collected
                rw [if_neg outside, exfatCollectEntries, if_neg outside]
                apply collected.bind
                intro failed set outcome
                rcases outcome with ⟨rfl, rfl⟩ | ⟨rfl, rfl⟩
                · refine .pure (.inl ⟨rfl, rfl, ?_⟩)
                  exact ⟨not_not.mp file, positive, Nat.le_of_not_gt short,
                    Nat.le_of_not_gt outside⟩
                · exact .pure (.inr ⟨rfl, rfl⟩)

/-! ## Looking up a set -/

/-- How a lookup ends in a slot, if it does. -/
def verdict (v : Vol) (store : ClusterStore) (want : List UInt8) (place : Place) :
    Option (Except Int EntryInfo) :=
  if body v store place.cl place.off = 0x00 then some (.error (-2))
  else match setAt v store place with
    | none => none
    | some (name, info) =>
        if sameName want name then
          some (.ok { info with dirCluster := place.cl, dirByteOff := place.off })
        else none

/-- The result of `exfat_find_in_dir` over the slots of a directory. -/
def lookup (v : Vol) (store : ClusterStore) (want : List UInt8) (places : List Place) :
    Except Int EntryInfo :=
  (places.findSome? (verdict v store want)).getD (.error (-3))

/-- The walk goes on behind these slots: there is no end marker among them, and none of the
sets that were read has the name. `missed` says whether the reading of one failed. -/
structure PassedOver (v : Vol) (store : ClusterStore) (want : List UInt8) (places : List Place)
    (missed : Bool) : Prop where
  used : ∀ place ∈ places, body v store place.cl place.off ≠ 0x00
  unread : missed = true → ∃ place ∈ places, Collected v store place
  read : missed = false → ∀ place ∈ places, verdict v store want place = none

/-- How the walk over these slots may end when reads fail, and whether one did. -/
inductive Sweep (v : Vol) (store : ClusterStore) (want : List UInt8) (places : List Place) :
    Bool → Option (Except Int EntryInfo) → Prop
  | stopped {code} : Sweep v store want places true (some (.error code))
  | decided {before place after missed result} : places = before ++ place :: after →
      PassedOver v store want before missed → verdict v store want place = some result →
      Sweep v store want places missed (some result)
  | passed {missed} : PassedOver v store want places missed →
      Sweep v store want places missed none

omit shape in
theorem PassedOver.append {store : ClusterStore} {want : List UInt8} {first second : List Place}
    {missed missed' : Bool} (passed : PassedOver v store want first missed)
    (passed' : PassedOver v store want second missed') :
    PassedOver v store want (first ++ second) (missed || missed') where
  used := by
    intro place member
    rcases List.mem_append.mp member with here | there
    · exact passed.used place here
    · exact passed'.used place there
  unread := by
    intro either
    rcases Bool.or_eq_true_iff.mp either with here | there
    · rcases passed.unread here with ⟨place, member, collected⟩
      exact ⟨place, List.mem_append_left second member, collected⟩
    · rcases passed'.unread there with ⟨place, member, collected⟩
      exact ⟨place, List.mem_append_right first member, collected⟩
  read := by
    intro neither place member
    rcases Bool.or_eq_false_iff.mp neither with ⟨notHere, notThere⟩
    rcases List.mem_append.mp member with here | there
    · exact passed.read notHere place here
    · exact passed'.read notThere place there

namespace Sweep

variable {store : ClusterStore} {want : List UInt8} {first second : List Place}
  {missed missed' : Bool} {found : Option (Except Int EntryInfo)}

omit shape

/-- Behind the slots that were passed the walk goes on. -/
theorem behind (passed : PassedOver v store want first missed)
    (sweep : Sweep v store want second missed' found) :
    Sweep v store want (first ++ second) (missed || missed') found := by
  cases sweep with
  | stopped =>
      rw [Bool.or_true]
      exact .stopped
  | @decided before place after _ _ split passed' here =>
      refine .decided (?_ : _ = first ++ before ++ place :: after) (passed.append passed') here
      rw [split, List.append_assoc]
  | passed passed' => exact .passed (passed.append passed')

/-- Where the walk has ended, the slots behind are not looked at. -/
theorem within {result : Except Int EntryInfo}
    (sweep : Sweep v store want first missed (some result))
    (second : List Place) : Sweep v store want (first ++ second) missed (some result) := by
  cases sweep with
  | stopped => exact .stopped
  | @decided before place after _ _ split passed here =>
      refine .decided (?_ : _ = before ++ place :: (after ++ second)) passed here
      rw [split, List.append_assoc, List.cons_append]

/-- Without a failed read, the walk is a search. -/
theorem eq_findSome? (sweep : Sweep v store want first false found) :
    found = first.findSome? (verdict v store want) := by
  cases sweep with
  | decided split passed here =>
      rw [split, List.findSome?_append, List.findSome?_eq_none_iff.mpr (passed.read rfl),
        Option.none_or, List.findSome?_cons, here]
  | passed passed => exact (List.findSome?_eq_none_iff.mpr (passed.read rfl)).symm

end Sweep

theorem findSlots_reads (located : v.exfatBitmapClus ≠ 0) (sectors : Nat → Buffer)
    (want : List UInt8) {cl : Nat} (data : DataCluster (v.exfatClusterCount + 2) cl)
    (offsets : List Nat) (range : ∀ off ∈ offsets, 32 ∣ off ∧ off < v.clusterBytes) :
    Reading (findSlots v want cl offsets) sectors fun failed result => result.1 = v ∧
      Sweep v (exfatView v sectors) want (offsets.map fun off => ⟨cl, off⟩) failed result.2 := by
  induction offsets with
  | nil => exact .pure ⟨rfl, .passed ⟨by simp, by simp, by simp⟩⟩
  | cons off rest induction =>
      rcases range off (by simp) with ⟨aligned, inside⟩
      have later := induction fun other member => range other (by simp [member])
      have first := body_slot_start shape (exfatView v sectors) cl aligned
      apply Reading.rd_bind
      · exact .pure ⟨rfl, .stopped⟩
      · rw [slot_sector shape sectors data inside]
        simp only [first]
        have noted : noteBitmap v ((exfatView v sectors).sector cl (off / v.bytesPerSec))
            (off % v.bytesPerSec) = v := by
          rw [noteBitmap, if_neg (by simp [located])]
        rw [noted]
        apply Reading.ite
        · intro ended
          refine .pure ⟨rfl, .decided (List.nil_append _).symm ⟨by simp, by simp, by simp⟩ ?_⟩
          rw [verdict, if_pos ended]
        · intro used
          -- the set in this slot does not end the walk
          have passes : ∀ failed, (failed = true →
                Collected v (exfatView v sectors) ⟨cl, off⟩) →
              (failed = false → verdict v (exfatView v sectors) want ⟨cl, off⟩ = none) →
              Reading (findSlots v want cl rest) sectors fun failed' result => result.1 = v ∧
                Sweep v (exfatView v sectors) want ((off :: rest).map fun off => ⟨cl, off⟩)
                  (failed || failed') result.2 := by
            intro failed unread read
            apply later.mono
            intro failed' result both
            refine ⟨both.1, both.2.behind (?_ : PassedOver v _ want [⟨cl, off⟩] failed)⟩
            exact ⟨by simpa using used, fun missed => by simpa using unread missed,
              fun done => by simpa using read done⟩
          apply (exfatSetAt_reads shape sectors data aligned).bind
          intro failed set outcome
          rcases outcome with ⟨rfl, rfl, collected⟩ | ⟨rfl, rfl⟩
          · exact passes true (fun _ => collected) (by simp)
          · cases parsed : setAt v (exfatView v sectors) ⟨cl, off⟩ with
            | none =>
                apply passes false (by simp)
                intro _
                rw [verdict, if_neg used, parsed]
            | some found =>
                rcases found with ⟨name, info⟩
                apply Reading.ite
                · intro same
                  refine .pure ⟨rfl, .decided (List.nil_append _).symm
                    ⟨by simp, by simp, by simp⟩ ?_⟩
                  rw [verdict, if_neg used, parsed]
                  simp [same]
                · intro other
                  apply passes false (by simp)
                  intro _
                  rw [verdict, if_neg used, parsed]
                  simp [other]

/-- A lookup returns, whichever reads fail. -/
theorem exfatFindInDir_reads (located : v.exfatBitmapClus ≠ 0) {sectors : Nat → Buffer}
    (want : List UInt8) {start fuel : Nat} {chain : List Nat}
    (linked : Linked (exfatView v sectors).next EndOfChain start chain)
    (data : ∀ cl ∈ chain, DataCluster (v.exfatClusterCount + 2) cl)
    (enough : chain.length < fuel) :
    Reading (exfatFindInDir want fuel start v) sectors fun failed result => result.1 = v ∧
      ∃ found, Sweep v (exfatView v sectors) want (chainPlaces v chain) failed found ∧
        result.2 = found.getD (.error (-3)) := by
  induction linked, enough using Linked.walk with
  | nil stopped =>
      have ended : isEndCluster _ = true := stopped
      rw [exfatFindInDir, if_pos ended]
      exact .pure ⟨rfl, none, .passed ⟨by simp [chainPlaces], by simp, by simp [chainPlaces]⟩,
        rfl⟩
  | @cons cl rest fuel running tail shorter induction =>
      have clData := data cl (by simp)
      have going : isEndCluster cl = false := by
        simpa [EndOfChain] using running
      have later := induction (fun other member => data other (by simp [member]))
      have next := shape.geometry.fatEntry_eq sectors clData.2 running
      rw [exfatFindInDir, going, if_neg Bool.false_ne_true, chainPlaces, List.flatMap_cons]
      apply (findSlots_reads shape located sectors want clData (clusterOffsets v)
        fun off member => (mem_clusterOffsets shape).mp member).bind
      intro failed result outcome
      rcases result with ⟨v', found⟩
      rcases outcome with ⟨same, here⟩
      dsimp only at same here
      subst same
      cases found with
      | some result =>
          refine .pure ⟨rfl, some result, ?_, rfl⟩
          rw [Bool.or_false]
          exact here.within _
      | none =>
          cases here with
          | passed passed =>
              apply (fatReadFatEntry_reads v' sectors cl).bind
              intro failed' value read
              rcases read with ⟨rfl, rfl⟩ | ⟨rfl, rfl⟩
              · -- an unread table entry counts as the end of the chain
                cases fuel with
                | zero => simp at shorter
                | succ fuel =>
                    rw [exfatFindInDir, if_pos (by decide)]
                    refine .pure ⟨rfl, some (.error (-3)), ?_, rfl⟩
                    rw [Bool.true_or, Bool.or_true]
                    exact .stopped
              · rw [next]
                apply later.mono
                intro failed'' result both
                rcases both with ⟨same, found, sweep, returned⟩
                rw [Bool.false_or]
                exact ⟨same, found, sweep.behind passed, returned⟩

/-- Without a failed read, a lookup is a search. -/
theorem exfatFindInDir_healthy (located : v.exfatBitmapClus ≠ 0) {sectors : Nat → Buffer}
    (want : List UInt8) {start fuel : Nat} {chain : List Nat}
    (linked : Linked (exfatView v sectors).next EndOfChain start chain)
    (data : ∀ cl ∈ chain, DataCluster (v.exfatClusterCount + 2) cl)
    (enough : chain.length < fuel) :
    exfatFindInDir want fuel start v (Device.healthy sectors) =
      some ((v, lookup v (exfatView v sectors) want (chainPlaces v chain)),
        Device.healthy sectors) := by
  rcases (exfatFindInDir_reads shape located want linked data enough).healthy with
    ⟨_, result, _, ⟨same, found, sweep, returned⟩, ran⟩
  rcases result with ⟨v', result⟩
  rw [ran, lookup, ← sweep.eq_findSome?, ← returned, ← same]

end

end ParanOS
