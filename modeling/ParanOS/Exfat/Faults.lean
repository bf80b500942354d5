import ParanOS.Exfat.Room
import ParanOS.Foundation.Failures

/-! # The exFAT operations when calls fail

What lookups, allocation, freeing and the writing of content and of entry sets do on a
device some of whose calls fail. The driver ignores many of the failures; what can be
said of a run then is mostly which links and which clusters it leaves alone.
-/

namespace ParanOS

open Foundation

/-! ## The values of the table -/

/-- A value that the driver leaves in a table entry: none, a further cluster, or the end. -/
def LinkValue (limit link : Nat) : Prop := link = 0 ∨ DataCluster limit link ∨ link = eocMark

theorem linkValue_eocMark (limit : Nat) : LinkValue limit eocMark := .inr (.inr rfl)

/-- Nothing has changed but the content of clusters and the low 28 bits of entries, these
to values that the driver leaves there. -/
structure Relinked (v : Vol) (sectors sectors' : Nat → Buffer) : Prop where
  confined : ExfatConfined v sectors sectors'
  links : ∀ cl, DataCluster (v.exfatClusterCount + 2) cl →
    (exfatView v sectors').next cl = (exfatView v sectors).next cl ∨
      LinkValue (v.exfatClusterCount + 2) ((exfatView v sectors').next cl)

namespace Relinked

variable {v : Vol} {sectors sectors' sectors'' : Nat → Buffer}

theorem refl (v : Vol) (sectors : Nat → Buffer) : Relinked v sectors sectors :=
  ⟨.refl _ _ _, fun _ _ => .inl rfl⟩

theorem trans (first : Relinked v sectors sectors') (second : Relinked v sectors' sectors'') :
    Relinked v sectors sectors'' := by
  refine ⟨first.confined.trans second.confined, ?_⟩
  intro cl data
  cases second.links cl data with
  | inl same =>
      rw [same]
      exact first.links cl data
  | inr value => exact .inr value

/-- A change of contents only. -/
theorem of_next (confined : ExfatConfined v sectors sectors')
    (same : (exfatView v sectors').next = (exfatView v sectors).next) :
    Relinked v sectors sectors' :=
  ⟨confined, fun _ _ => .inl (by rw [same])⟩

end Relinked

/-! ## The table and the bitmap -/

theorem exfatWalkChain_reads (v : Vol) (sectors : Nat → Buffer) (step cl : Nat) :
    Reading (exfatWalkChain v step cl) sectors fun failed value =>
      failed = false → value = walkEntries v sectors step cl := by
  induction step generalizing cl with
  | zero => exact .pure fun _ => rfl
  | succ step induction =>
      rw [exfatWalkChain, walkEntries]
      apply Reading.ite
      · intro ended
        rw [if_pos ended]
        exact .pure fun _ => rfl
      · intro going
        rw [if_neg going]
        apply (fatReadFatEntry_reads v sectors cl).bind
        intro failed next read
        rcases read with ⟨rfl, rfl⟩ | ⟨rfl, rfl⟩
        · exact (induction eocMark).mono fun _ _ _ none => by simp at none
        · exact (induction _).mono fun _ _ right none => right (by simpa using none)

/-- The chain of the bitmap, or none while the volume has not noted where its bitmap is. -/
def KnownBitmap (v : Vol) (store : ClusterStore) (chain : List Nat) : Prop :=
  v.exfatBitmapClus = 0 ∧ chain = [] ∨ Bitmap v store chain

namespace KnownBitmap

variable {v : Vol} {store store' : ClusterStore} {chain : List Nat}
  (bitmap : KnownBitmap v store chain)
include bitmap

theorem congr (agree : ∀ cl ∈ chain, store'.next cl = store.next cl) :
    KnownBitmap v store' chain :=
  bitmap.imp_right fun located => located.congr agree

theorem next_ne_zero {cl : Nat} (member : cl ∈ chain) : store.next cl ≠ 0 := by
  cases bitmap with
  | inl unknown =>
      rw [unknown.2] at member
      cases member
  | inr located => exact located.next_ne_zero member

theorem data {cl : Nat} (member : cl ∈ chain) : DataCluster (v.exfatClusterCount + 2) cl := by
  cases bitmap with
  | inl unknown =>
      rw [unknown.2] at member
      cases member
  | inr located => exact located.data cl member

/-- What keeps the clusters in use keeps the bitmap. -/
theorem inUse (kept : ∀ cl, 2 ≤ cl ∧ store.next cl ≠ 0 → store'.next cl = store.next cl) :
    KnownBitmap v store' chain :=
  bitmap.congr fun _ member => kept _ ⟨(bitmap.data member).1, bitmap.next_ne_zero member⟩

end KnownBitmap

section

variable {v : Vol} (shape : ExfatGeometry v) {writes : Bool}
include shape

/-- Marking a cluster changes the content of the bitmap and nothing else. -/
theorem exfatMarkBitmap_runs {sectors : Nat → Buffer} {chain : List Nat}
    (known : KnownBitmap v (exfatView v sectors) chain) {cl : Nat}
    (data : DataCluster (v.exfatClusterCount + 2) cl) (used : Bool) :
    Runs ⟨false, writes⟩ (exfatMarkBitmap v cl used) sectors fun _ sectors' =>
      ClusterStore.Undisturbed (fun _ => True) (· ∉ chain) (exfatView v sectors)
        (exfatView v sectors') ∧ Relinked v sectors sectors' := by
  rcases known with unknown | bitmap
  · rw [exfatMarkBitmap, if_pos unknown.1]
    exact .pure ⟨.refl _ _ _, .refl _ _⟩
  have index := bitmapIndex_eq shape data
  have walk := walkEntries_eq shape bitmap.linked bitmap.data (bitmap.index_lt data)
  have inBitmap := bitmap.data _ (bitmap.place_mem data)
  have sectorIndex : (bitPlace v chain cl).s < v.secPerClus := by
    apply Nat.div_lt_of_lt_mul
    exact Nat.mod_lt _ shape.clusterBytes_pos
  rw [exfatMarkBitmap]
  apply Runs.ite
  · exact fun _ => .pure ⟨.refl _ _ _, .refl _ _⟩
  · intro _
    apply Runs.ite
    · exact fun _ => .pure ⟨.refl _ _ _, .refl _ _⟩
    · intro _
      apply Runs.ite
      · exact fun _ => .pure ⟨.refl _ _ _, .refl _ _⟩
      · intro _
        apply (Runs.read (exfatWalkChain_reads v sectors _ _)).bind
        intro target between outcome
        rcases outcome with ⟨rfl, arrived⟩
        rw [arrived rfl, index, walk]
        apply Runs.rd_bind
        · intro may
          simp at may
        · apply Runs.wr_bind
          · exact fun _ => .pure ⟨.refl _ _ _, .refl _ _⟩
          · refine .pure ?_
            have stored := shape.geometry.view_store between
              ((between (u32 (clusToLba v (bitPlace v chain cl).cl +
                (bitPlace v chain cl).s))).putU8
                (bitPlace v chain cl).off (markByte
                  (between (u32 (clusToLba v (bitPlace v chain cl).cl + (bitPlace v chain cl).s))
                    (bitPlace v chain cl).off) (bitPlace v chain cl).bit used))
              inBitmap sectorIndex
            have kept := @ClusterStore.Undisturbed.write (fun _ => True) (· ∉ chain)
              (exfatView v between) (bitPlace v chain cl).cl (bitPlace v chain cl).s
              ((between (u32 (clusToLba v (bitPlace v chain cl).cl +
                (bitPlace v chain cl).s))).putU8
                (bitPlace v chain cl).off (markByte
                  (between (u32 (clusToLba v (bitPlace v chain cl).cl + (bitPlace v chain cl).s))
                    (bitPlace v chain cl).off) (bitPlace v chain cl).bit used))
              (by simp [bitmap.place_mem data])
            rw [← stored] at kept
            refine ⟨kept, .of_next (.store_cluster shape.geometry _ inBitmap sectorIndex) ?_⟩
            funext other
            exact kept.next other trivial

/-- Writing a link, where the write may fail. -/
theorem fatWriteFatEntry_view (sectors : Nat → Buffer) {clus val : Nat}
    (below : clus < v.exfatClusterCount + 2) (running : ¬ EndOfChain clus)
    (value : LinkValue (v.exfatClusterCount + 2) (val % 268435456)) :
    Runs ⟨false, writes⟩ (fatWriteFatEntry v clus val) sectors fun code sectors' =>
      Relinked v sectors sectors' ∧
      (code ≠ 0 ∧ sectors' = sectors ∧ writes = true ∨
        code = 0 ∧ exfatView v sectors' = (exfatView v sectors).link clus (val % 268435456)) := by
  apply (fatWriteFatEntry_runs v clus val sectors).mono
  intro code sectors' written
  rcases written with ⟨failed, rfl, may⟩ | ⟨done, rfl⟩
  · exact ⟨.refl _ _, .inl ⟨failed, rfl, by simpa [Trouble.Possible] using may⟩⟩
  · have linked := shape.geometry.view_setFatEntry sectors val below running
    refine ⟨⟨.set_entry shape.geometry val below running, ?_⟩, .inr ⟨done, linked⟩⟩
    intro cl _
    rw [exfatView, linked]
    by_cases here : cl = clus
    · rw [here, ClusterStore.link_next_same]
      exact .inr value
    · exact .inl (ClusterStore.link_next_other here)

/-! ## Allocating and freeing -/

/-- The first cluster of the free list, or none and nothing changed. -/
theorem exfatAllocCluster_runs {sectors : Nat → Buffer} {chain : List Nat}
    (bitmap : KnownBitmap v (exfatView v sectors) chain) :
    Runs ⟨false, writes⟩ (exfatAllocCluster v) sectors fun target sectors' =>
      target = 0 ∧ sectors' = sectors ∧ (writes = true ∨ freeList v (exfatView v sectors) = []) ∨
      Fresh (v.exfatClusterCount + 2) (exfatView v sectors) target ∧
        (∃ later, freeList v (exfatView v sectors) = target :: later) ∧
        (exfatView v sectors').next target = eocMark ∧
        ClusterStore.Undisturbed (· ≠ target) (· ∉ chain) (exfatView v sectors)
          (exfatView v sectors') ∧ Relinked v sectors sectors' := by
  apply allocScan_runs
  · intro may
    simp at may
  · intro used
    refine .inl ⟨rfl, rfl, .inr (List.eq_nil_iff_forall_not_mem.mpr ?_)⟩
    intro cl member
    have free := mem_freeList.mp member
    have taken := used cl free.1 (by omega)
    rw [shape.fatEntry_eq sectors free.2.1] at taken
    exact taken free.2.2
  · intro target lower upper earlier free
    have inside : target < exfatMaxClusters v := by omega
    rw [shape.fatEntry_eq sectors inside] at free
    have first : ∃ later, freeList v (exfatView v sectors) = target :: later := by
      apply ClusterStore.free_eq_cons (mem_freeList.mpr ⟨lower, inside, free⟩)
      intro cl above below
      rw [← shape.fatEntry_eq sectors (by omega)]
      exact earlier cl above below
    have fresh := shape.fresh lower inside free
    have outside : target ∉ chain := fun member => bitmap.next_ne_zero member free
    apply (fatWriteFatEntry_view shape sectors fresh.data.2 fresh.running
      (linkValue_eocMark _)).bind
    intro code claimed written
    rcases written with ⟨relinked, ⟨failed, rfl, may⟩ | ⟨done, linked⟩⟩
    · rw [if_pos failed]
      exact .pure (.inl ⟨rfl, rfl, .inl may⟩)
    · rw [if_neg (by simpa using done)]
      have bitmap' : KnownBitmap v (exfatView v claimed) chain := by
        apply bitmap.congr
        intro cl member
        rw [linked, ClusterStore.link_next_other]
        intro equal
        exact outside (equal ▸ member)
      apply (exfatMarkBitmap_runs shape bitmap' fresh.data true).bind
      intro _ sectors' outcome
      rcases outcome with ⟨marked, relinked'⟩
      refine .pure (.inr ⟨fresh, first, ?_, ?_, relinked.trans relinked'⟩)
      · rw [marked.next target trivial, linked, ClusterStore.link_next_same]
        rfl
      · have step : ClusterStore.Undisturbed (· ≠ target) (· ∉ chain) (exfatView v sectors)
            (exfatView v claimed) := by
          rw [linked]
          exact .link _ (by simp)
        exact step.trans (marked.mono (fun _ _ => trivial) fun _ kept => kept)

/-- Freeing a chain changes its links, as far as the writes go. -/
theorem exfatFreeChain_runs {sectors : Nat → Buffer} {chain members : List Nat}
    {start fuel : Nat} (bitmap : KnownBitmap v (exfatView v sectors) chain)
    (linked : Linked (exfatView v sectors).next EndOfChain start members)
    (data : ∀ cl ∈ members, DataCluster (v.exfatClusterCount + 2) cl)
    (apart : ∀ cl ∈ members, cl ∉ chain) (enough : members.length < fuel) :
    Runs ⟨false, writes⟩ (exfatFreeChain v fuel start) sectors fun _ sectors' =>
      ClusterStore.Undisturbed (· ∉ members) (· ∉ chain) (exfatView v sectors)
        (exfatView v sectors') ∧ Relinked v sectors sectors' := by
  induction members generalizing sectors start fuel with
  | nil =>
      cases linked with
      | nil stopped =>
          cases fuel with
          | zero => simp at enough
          | succ fuel =>
              have ended : isEndCluster start = true := stopped
              rw [exfatFreeChain, if_pos (.inl ended)]
              exact .pure ⟨.refl _ _ _, .refl _ _⟩
  | cons head rest induction =>
      cases linked with
      | cons running tail =>
          cases fuel with
          | zero => simp at enough
          | succ fuel =>
              have headData := data head (by simp)
              have nodup := List.nodup_cons.mp (Linked.cons running tail).nodup
              have going : ¬ (isEndCluster head = true ∨ head = 0) := by
                intro ended
                rcases ended with ended | zero
                · exact running ended
                · have lower := headData.1
                  omega
              rw [exfatFreeChain, if_neg going]
              apply (Runs.read (fatReadFatEntry_reads v sectors head)).bind
              intro next between outcome
              rcases outcome with ⟨rfl, ⟨failing, _⟩ | ⟨_, rfl⟩⟩
              · simp at failing
              rw [shape.geometry.fatEntry_eq between headData.2 running]
              have zero : LinkValue (v.exfatClusterCount + 2) (0 % 268435456) := .inl rfl
              apply (fatWriteFatEntry_view shape between headData.2 running zero).bind
              intro code unlinked written
              rcases written with ⟨relinked, written⟩
              have step : ClusterStore.Undisturbed (· ≠ head) (· ∉ chain) (exfatView v between)
                  (exfatView v unlinked) := by
                rcases written with ⟨_, rfl, _⟩ | ⟨_, linked⟩
                · exact .refl _ _ _
                · rw [linked]
                  exact .link _ (by simp)
              have bitmap' : KnownBitmap v (exfatView v unlinked) chain := by
                apply bitmap.congr
                intro cl member
                exact step.next cl fun equal => apart head (by simp) (equal ▸ member)
              apply (exfatMarkBitmap_runs shape bitmap' headData false).bind
              intro _ marked outcome
              rcases outcome with ⟨afterMark, relinked'⟩
              have both := step.trans (afterMark.mono (fun _ _ => trivial) fun _ kept => kept)
              have tail' : Linked (exfatView v marked).next EndOfChain
                  ((exfatView v between).next head) rest := by
                apply tail.congr
                intro cl member
                exact both.next cl fun equal => nodup.1 (equal ▸ member)
              have bitmap'' : KnownBitmap v (exfatView v marked) chain := by
                apply bitmap.congr
                intro cl member
                exact both.next cl fun equal => apart head (by simp) (equal ▸ member)
              apply (induction bitmap'' tail' (fun cl member => data cl (by simp [member]))
                (fun cl member => apart cl (by simp [member])) (by simpa using enough)).mono
              intro _ sectors' outcome
              rcases outcome with ⟨freed, relinked''⟩
              refine ⟨?_, (relinked.trans relinked').trans relinked''⟩
              apply (both.mono _ fun _ kept => kept).trans (freed.mono _ fun _ kept => kept)
              · intro cl outside
                exact fun equal => outside (by simp [equal])
              · intro cl outside
                exact fun member => outside (by simp [member])

/-- Clusters that were free have been taken, and some of them are linked from the first
on. Links may be missing. -/
structure Gathered (v : Vol) (chain : List Nat) (before after : ClusterStore) (first : Nat)
    (taken : List Nat) : Prop where
  kept : ClusterStore.Undisturbed (· ∉ taken) (· ∉ chain) before after
  lowest : taken = (freeList v before).take taken.length
  used : ∀ cl ∈ taken, after.next cl ≠ 0
  last : taken ≠ [] → after.next (taken.getLastD 0) = eocMark
  start : taken = [] ∧ first = 0 ∨ first ∈ taken ∧ ∃ members,
    Linked after.next EndOfChain first members ∧ ∀ cl ∈ members, cl ∈ taken

namespace Gathered

variable {chain taken : List Nat} {before after : ClusterStore} {first : Nat}

omit shape in
theorem none (v : Vol) (chain : List Nat) (store : ClusterStore) :
    Gathered v chain store store 0 [] :=
  ⟨.refl _ _ _, by simp, by simp, by simp, .inl ⟨rfl, rfl⟩⟩

variable (state : Gathered v chain before after first taken)
include state

omit shape in
theorem free : ∀ cl ∈ taken, cl ∈ freeList v before := by
  intro cl member
  rw [state.lowest] at member
  exact List.mem_of_mem_take member

omit shape in
theorem nodup : taken.Nodup := by
  rw [state.lowest]
  exact (freeList_nodup before).sublist (List.take_sublist _ _)

omit shape in
/-- The other free clusters are left. -/
theorem freeList_after : freeList v after = (freeList v before).drop taken.length := by
  apply ClusterStore.free_drop
  · intro cl member
    exact state.used cl (state.lowest ▸ member)
  · intro cl outside
    exact state.kept.next cl fun member => outside (state.lowest ▸ member)

theorem data {cl : Nat} (member : cl ∈ taken) : DataCluster (v.exfatClusterCount + 2) cl :=
  (fresh_of_free shape (state.free cl member)).data

theorem running {cl : Nat} (member : cl ∈ taken) : ¬ EndOfChain cl :=
  (fresh_of_free shape (state.free cl member)).running

omit shape in
theorem outside (bitmap : KnownBitmap v before chain) : ∀ cl ∈ taken, cl ∉ chain := by
  intro cl member inBitmap
  exact bitmap.next_ne_zero inBitmap (mem_freeList.mp (state.free cl member)).2.2

omit shape in
theorem bitmap (located : KnownBitmap v before chain) : KnownBitmap v after chain := by
  apply located.congr
  intro cl inBitmap
  exact state.kept.next cl fun member => state.outside located cl member inBitmap

omit shape in
theorem last_mem (some : taken ≠ []) : taken.getLastD 0 ∈ taken := by
  rcases List.eq_nil_or_concat' taken with rfl | ⟨earlier, last, rfl⟩
  · exact absurd rfl some
  · rw [List.getLastD_concat]
    simp

omit shape in
/-- Clusters taken are as many as were free, at most. -/
theorem length_le : taken.length ≤ (freeList v before).length :=
  (List.subperm_of_subset state.nodup state.free).length_le

theorem length_lt {fuel : Nat} (enough : v.exfatClusterCount + 2 < fuel) {members : List Nat}
    (linked : Linked after.next EndOfChain first members) (inside : ∀ cl ∈ members, cl ∈ taken) :
    members.length < fuel := by
  have bound := length_le_of_nodup_of_lt linked.nodup fun cl member =>
    (state.data shape (inside cl member)).2
  omega

omit shape in
/-- Whatever happens to the clusters taken, what was in use is left alone. -/
theorem spares {after' : ClusterStore} {touched : List Nat} (inside : ∀ cl ∈ touched, cl ∈ taken)
    (changed : ClusterStore.Undisturbed (· ∉ touched) (· ∉ chain) after after') :
    ClusterStore.Undisturbed (before.next · ≠ 0) (· ∉ chain) before after' := by
  have apart : ∀ cl, before.next cl ≠ 0 → cl ∉ taken := fun cl used member =>
    used (mem_freeList.mp (state.free cl member)).2.2
  apply (state.kept.mono apart fun _ kept => kept).trans (changed.mono _ fun _ kept => kept)
  exact fun cl used member => apart cl used (inside cl member)

omit shape in
/-- The chain from the first cluster on, behind whose last cluster a new one may have
been linked. -/
theorem relink {after' : ClusterStore} {members : List Nat} {target : Nat}
    (linked : Linked after.next EndOfChain first members)
    (inside : ∀ cl ∈ members, cl ∈ taken) (some : taken ≠ []) (running : ¬ EndOfChain target)
    (others : ∀ cl ∈ taken, cl ≠ taken.getLastD 0 → after'.next cl = after.next cl)
    (marked : after'.next target = eocMark)
    (last : after'.next (taken.getLastD 0) = after.next (taken.getLastD 0) ∨
      after'.next (taken.getLastD 0) = target) :
    ∃ members', Linked after'.next EndOfChain first members' ∧
      ∀ cl ∈ members', cl ∈ taken ++ [target] := by
  rcases last with same | redirected
  · refine ⟨members, ?_, fun cl member => List.mem_append_left _ (inside cl member)⟩
    apply linked.congr
    intro cl member
    by_cases isLast : cl = taken.getLastD 0
    · rw [isLast, same]
    · exact others cl (inside cl member) isLast
  · by_cases reached : taken.getLastD 0 ∈ members
    · rcases linked.suffix reached with ⟨earlier, later, split, fromLast⟩
      have final : later = [] := by
        cases fromLast with
        | cons _ rest =>
            rw [state.last some] at rest
            cases rest with
            | nil _ => rfl
            | cons going _ => exact absurd endOfChain_eocMark going
      rw [final] at split
      subst split
      refine ⟨earlier ++ [taken.getLastD 0, target], ?_, ?_⟩
      · refine linked.extend ?_ redirected running (marked ▸ endOfChain_eocMark)
        intro cl member
        apply others cl (inside cl (by simp [member]))
        intro isLast
        have nodup := linked.nodup
        rw [List.nodup_append] at nodup
        exact nodup.2.2 cl member _ (by simp) isLast
      · intro cl member
        rcases List.mem_append.mp member with early | late
        · exact List.mem_append_left _ (inside cl (by simp [early]))
        · rcases List.mem_cons.mp late with rfl | new
          · exact List.mem_append_left _ (state.last_mem some)
          · exact List.mem_append_right _ new
    · refine ⟨members, ?_, fun cl member => List.mem_append_left _ (inside cl member)⟩
      apply linked.congr
      intro cl member
      apply others cl (inside cl member)
      intro isLast
      exact reached (isLast ▸ member)

/-- One more cluster, linked behind the last one unless that failed. -/
theorem claim {middle after' : ClusterStore} {target : Nat}
    (fresh : Fresh (v.exfatClusterCount + 2) after target)
    (first' : ∃ later, freeList v after = target :: later)
    (marked : middle.next target = eocMark)
    (step : ClusterStore.Undisturbed (· ≠ target) (· ∉ chain) after middle)
    (linked : after' = middle ∨
      taken ≠ [] ∧ after' = middle.link (taken.getLastD 0) target) :
    Gathered v chain before after' (if first = 0 then target else first) (taken ++ [target]) := by
  have notTaken : target ∉ taken := fun member => state.used target member fresh.free
  have different : ∀ cl ∈ taken, cl ≠ target := fun cl member equal => notTaken (equal ▸ member)
  have lastDifferent : taken ≠ [] → target ≠ taken.getLastD 0 := fun some equal =>
    notTaken (equal ▸ state.last_mem some)
  have others : ∀ cl, cl ≠ target → cl ≠ taken.getLastD 0 → after'.next cl = after.next cl := by
    intro cl notTarget notLast
    rcases linked with rfl | ⟨_, rfl⟩
    · exact step.next cl notTarget
    · rw [ClusterStore.link_next_other notLast]
      exact step.next cl notTarget
  have marked' : after'.next target = eocMark := by
    rcases linked with rfl | ⟨some, rfl⟩
    · exact marked
    · rw [ClusterStore.link_next_other (lastDifferent some)]
      exact marked
  have last : taken ≠ [] → after'.next (taken.getLastD 0) = after.next (taken.getLastD 0) ∨
      after'.next (taken.getLastD 0) = target := by
    intro some
    rcases linked with rfl | ⟨_, rfl⟩
    · exact .inl (step.next _ (lastDifferent some).symm)
    · exact .inr (ClusterStore.link_next_same _ _ _)
  refine ⟨?_, ?_, ?_, ?_, ?_⟩
  · have here : ClusterStore.Undisturbed (· ∉ taken ++ [target]) (· ∉ chain) middle after' := by
      rcases linked with rfl | ⟨some, rfl⟩
      · exact .refl _ _ _
      · exact .link _ fun outside => outside (List.mem_append_left _ (state.last_mem some))
    apply (state.kept.mono _ fun _ kept => kept).trans
      ((step.mono _ fun _ kept => kept).trans here)
    · exact fun cl outside member => outside (List.mem_append_left _ member)
    · exact fun cl outside equal => outside (by simp [equal])
  · rcases first' with ⟨later, next⟩
    rw [state.freeList_after] at next
    have whole := List.take_append_drop taken.length (freeList v before)
    rw [next, ← state.lowest, List.append_cons] at whole
    rw [← whole, List.take_left]
  · intro cl member
    rcases List.mem_append.mp member with old | new
    · by_cases isLast : cl = taken.getLastD 0
      · have some : taken ≠ [] := List.ne_nil_of_mem old
        rw [isLast]
        rcases last some with same | redirected
        · rw [same]
          exact state.used _ (state.last_mem some)
        · rw [redirected]
          exact fresh.ne_zero
      · rw [others cl (different cl old) isLast]
        exact state.used cl old
    · rw [List.mem_singleton.mp new, marked']
      decide
  · intro _
    rw [List.getLastD_concat]
    exact marked'
  · rcases state.start with ⟨empty, vacant⟩ | ⟨member, members, chained, inside⟩
    · subst empty
      rw [if_pos vacant]
      refine .inr ⟨by simp, [target], ?_, by simp⟩
      exact .single fresh.running (marked' ▸ endOfChain_eocMark)
    · have lower := (state.data shape member).1
      rw [if_neg (by omega)]
      refine .inr ⟨List.mem_append_left _ member, ?_⟩
      have some : taken ≠ [] := List.ne_nil_of_mem member
      exact state.relink chained inside some fresh.running
        (fun cl inTaken notLast => others cl (different cl inTaken) notLast) marked' (last some)

end Gathered

/-- The clusters asked for, or none, and then nothing that was in use has changed. -/
theorem allocChain_runs {sectors middle : Nat → Buffer} {chain taken : List Nat}
    {first fuel : Nat} (enough : v.exfatClusterCount + 2 < fuel)
    (bitmap : KnownBitmap v (exfatView v sectors) chain)
    (state : Gathered v chain (exfatView v sectors) (exfatView v middle) first taken) (need : Nat)
    (wanted : taken ≠ [] ∨ need ≠ 0) :
    Runs ⟨false, writes⟩ (allocChain v fuel need first (taken.getLastD 0)) middle
      fun start sectors' => Relinked v middle sectors' ∧
        (start = 0 ∧ ClusterStore.Undisturbed ((exfatView v sectors).next · ≠ 0) (· ∉ chain)
          (exfatView v sectors) (exfatView v sectors') ∧
          (writes = true ∨ (freeList v (exfatView v sectors)).length < taken.length + need) ∨
        start ≠ 0 ∧ ∃ all, all.length = taken.length + need ∧
          Gathered v chain (exfatView v sectors) (exfatView v sectors') start all) := by
  induction need generalizing middle first taken with
  | zero =>
      have nonempty : taken ≠ [] := by simpa using wanted
      have last := state.last_mem nonempty
      have same : (exfatView v middle).link (taken.getLastD 0) (eocMark % 268435456) =
          exfatView v middle := ClusterStore.link_eq_self (state.last nonempty)
      have occupied : first ≠ 0 := by
        rcases state.start with ⟨empty, _⟩ | ⟨member, _⟩
        · exact absurd empty nonempty
        · have lower := (state.data shape member).1
          omega
      rw [allocChain]
      apply (fatWriteFatEntry_view shape middle (state.data shape last).2
        (state.running shape last) (linkValue_eocMark _)).bind
      intro code sectors' written
      have unchanged : exfatView v sectors' = exfatView v middle := by
        rcases written.2 with ⟨_, rfl, _⟩ | ⟨_, linked⟩
        · rfl
        · rw [linked, same]
      refine .pure ⟨written.1, .inr ⟨occupied, taken, rfl, ?_⟩⟩
      rw [unchanged]
      exact state
  | succ need induction =>
      rw [allocChain]
      apply (exfatAllocCluster_runs shape (state.bitmap bitmap)).bind
      intro target claimed outcome
      rcases outcome with ⟨rfl, rfl, reason⟩ | ⟨fresh, lowest, marked, step, relinked⟩
      · have refused : writes = true ∨
            (freeList v (exfatView v sectors)).length < taken.length + (need + 1) := by
          apply reason.imp_right
          intro none
          rw [state.freeList_after, List.drop_eq_nil_iff] at none
          omega
        rw [if_pos rfl, rollBack]
        rcases state.start with ⟨_, rfl⟩ | ⟨member, members, linked, inside⟩
        · rw [if_neg (by simp)]
          exact .pure ⟨.refl _ _, .inl ⟨rfl, state.spares
            (show ∀ cl ∈ [], cl ∈ taken by simp) (.refl _ _ _), refused⟩⟩
        · have lower := (state.data shape member).1
          rw [if_pos (by omega)]
          apply (exfatFreeChain_runs shape (state.bitmap bitmap) linked
            (fun cl inChain => state.data shape (inside cl inChain))
            (fun cl inChain => state.outside bitmap cl (inside cl inChain))
            (state.length_lt shape enough linked inside)).bind
          intro _ sectors' freed
          exact .pure ⟨freed.2, .inl ⟨rfl, state.spares inside freed.1, refused⟩⟩
      · rw [if_neg fresh.ne_zero, linkBehind]
        have link : Runs ⟨false, writes⟩ (if taken.getLastD 0 ≠ 0 then
            fatWriteFatEntry v (taken.getLastD 0) target else pure 0) claimed fun _ sectors' =>
              Relinked v claimed sectors' ∧ (exfatView v sectors' = exfatView v claimed ∨
                taken ≠ [] ∧ exfatView v sectors' =
                  (exfatView v claimed).link (taken.getLastD 0) target) := by
          apply Runs.ite
          · intro nonzero
            have some : taken ≠ [] := by
              intro empty
              exact nonzero (by rw [empty]; rfl)
            have last := state.last_mem some
            have small := (endOfChain_iff target).not.mp fresh.running
            have whole : target % 268435456 = target := Nat.mod_eq_of_lt (by omega)
            have value : LinkValue (v.exfatClusterCount + 2) (target % 268435456) := by
              rw [whole]
              exact .inr (.inl fresh.data)
            apply (fatWriteFatEntry_view shape claimed (state.data shape last).2
              (state.running shape last) value).mono
            intro code sectors' written
            rcases written with ⟨relinked, ⟨_, rfl, _⟩ | ⟨_, linked⟩⟩
            · exact ⟨relinked, .inl rfl⟩
            · rw [whole] at linked
              exact ⟨relinked, .inr ⟨some, linked⟩⟩
          · exact fun _ => .pure ⟨.refl _ _, .inl rfl⟩
        apply link.bind
        intro _ sectors' outcome
        rcases outcome with ⟨relinked', linked⟩
        have later := induction (state.claim shape fresh lowest marked step linked)
          (.inl (by simp))
        rw [List.getLastD_concat, List.length_append, List.length_singleton, Nat.add_assoc,
          Nat.add_comm 1 need] at later
        apply later.mono
        intro start final outcome
        exact ⟨(relinked.trans relinked').trans outcome.1, outcome.2⟩

/-! ## Content -/

/-- Nothing that was in use has changed, except in the bitmap. -/
abbrev InUseKept (bitmap : List Nat) (store store' : ClusterStore) : Prop :=
  store.Undisturbed (fun cl => 2 ≤ cl ∧ store.next cl ≠ 0)
    (fun cl => store.next cl ≠ 0 ∧ cl ∉ bitmap) store'

omit shape in
/-- Writing into clusters just taken keeps what was in use. -/
theorem Gathered.inUseKept {before middle after : ClusterStore} {bitmap taken members : List Nat}
    {first : Nat} (state : Gathered v bitmap before middle first taken)
    (inside : ∀ cl ∈ members, cl ∈ taken)
    (stored : ClusterStore.Undisturbed (fun _ => True) (· ∉ members) middle after) :
    InUseKept bitmap before after := by
  have taking : InUseKept bitmap before middle :=
    (state.spares (show ∀ cl ∈ [], cl ∈ taken by simp) (.refl _ _ _)).mono
      (fun _ both => both.2) fun _ both => both.2
  apply taking.trans (stored.mono (fun _ _ => trivial) _)
  exact fun cl both inChain => both.1 (mem_freeList.mp (state.free cl (inside cl inChain))).2.2

/-- Clusters that were free are now the chain of a content. -/
structure Readied (v : Vol) (store store' : ClusterStore) (first : Nat) (members : List Nat)
    (count : Nat) : Prop where
  holds : Chain (v.exfatClusterCount + 2) store' first members
  free : ∀ cl ∈ members, store.next cl = 0
  few : members.length ≤ count

/-- What is linked of clusters just taken, whatever has been written into them. -/
theorem Gathered.readied {before middle after : ClusterStore}
    {bitmap taken members : List Nat} {first : Nat}
    (state : Gathered v bitmap before middle first taken) (member : first ∈ taken)
    (linked : Linked middle.next EndOfChain first members) (inside : ∀ cl ∈ members, cl ∈ taken)
    (links : ∀ cl, after.next cl = middle.next cl) :
    Readied v before after first members taken.length where
  holds := by
    have lower := (state.data shape member).1
    exact .chain (by omega) (state.running shape member) (linked.congr fun cl _ => links cl)
      fun cl inChain => state.data shape (inside cl inChain)
  free := fun cl inChain => (mem_freeList.mp (state.free cl (inside cl inChain))).2.2
  few := (List.subperm_of_subset linked.nodup inside).length_le

/-- The clusters for a content, or none. None are left over where they do not suffice. -/
theorem exfatAllocChainForSize_runs {sectors : Nat → Buffer} {bitmap : List Nat} {fuel : Nat}
    (enough : v.exfatClusterCount + 2 < fuel)
    (located : KnownBitmap v (exfatView v sectors) bitmap) (bytes : Nat) :
    Runs ⟨false, writes⟩ (exfatAllocChainForSize v fuel bytes) sectors fun start sectors' =>
      Relinked v sectors sectors' ∧
      (start = 0 ∧ InUseKept bitmap (exfatView v sectors) (exfatView v sectors') ∧
        (writes = true ∨ clustersNeeded v bytes = 0 ∨
          (freeList v (exfatView v sectors)).length < clustersNeeded v bytes) ∨
      start ≠ 0 ∧ clustersNeeded v bytes ≠ 0 ∧ ∃ all, all.length = clustersNeeded v bytes ∧
        Gathered v bitmap (exfatView v sectors) (exfatView v sectors') start all) := by
  rw [exfatAllocChainForSize]
  apply Runs.ite
  · intro empty
    rw [empty, clustersNeeded_zero shape]
    exact .pure ⟨.refl _ _, .inl ⟨rfl, .refl _ _ _, .inr (.inl rfl)⟩⟩
  · intro _
    by_cases overflow : clustersNeeded v bytes = 0
    · rw [overflow, allocChain]
      have entry : 0 < v.exfatClusterCount + 2 := by omega
      apply (fatWriteFatEntry_view shape sectors entry (by decide) (linkValue_eocMark _)).bind
      intro code sectors' written
      refine .pure ⟨written.1, .inl ⟨rfl, ?_, .inr (.inl rfl)⟩⟩
      rcases written.2 with ⟨_, rfl, _⟩ | ⟨_, linked⟩
      · exact .refl _ _ _
      · rw [linked]
        exact .link _ (by omega)
    · apply (allocChain_runs shape enough located (.none v bitmap (exfatView v sectors))
        (clustersNeeded v bytes) (.inr overflow)).mono
      intro start sectors' outcome
      rw [List.length_nil, Nat.zero_add] at outcome
      refine ⟨outcome.1, ?_⟩
      rcases outcome.2 with ⟨refused, kept, reason⟩ | ⟨occupied, all, length, state⟩
      · exact .inl ⟨refused, kept.mono (fun _ both => both.2) fun _ both => both.2,
          reason.imp_right .inr⟩
      · exact .inr ⟨occupied, overflow, all, length, state⟩

theorem exfatZeroCluster_runs (sectors : Nat → Buffer) {cl : Nat}
    (data : DataCluster (v.exfatClusterCount + 2) cl) :
    Runs ⟨false, writes⟩ (exfatZeroCluster v cl) sectors fun _ sectors' =>
      ClusterStore.Undisturbed (fun _ => True) (· ≠ cl) (exfatView v sectors)
        (exfatView v sectors') ∧ Relinked v sectors sectors' ∧
      (writes = true ∨ ∀ off < v.clusterBytes, body v (exfatView v sectors') cl off = 0x00) := by
  rw [exfatZeroCluster]
  apply (writeSectors_runs shape.geometry data v.secPerClus 0 [] (by omega) sectors).bind
  intro failed sectors' stored
  rcases stored with ⟨kept, confined, complete⟩
  have relinked : Relinked v sectors sectors' :=
    .of_next confined (funext fun other => kept.next other trivial)
  have blank : writes = true ∨
      ∀ off < v.clusterBytes, body v (exfatView v sectors') cl off = 0x00 := by
    apply complete.imp (fun failing => failing.2)
    intro written off inside
    rw [body, exfatView, written.2, ClusterStore.writeRun_sector_inside (Nat.zero_le _)]
    · simp [pieces, Buffer.ofList]
    · rw [Nat.zero_add]
      exact offset_sector_lt inside
  exact .ite (fun _ => .pure ⟨kept, relinked, blank⟩) fun _ => .pure ⟨kept, relinked, blank⟩

/-- Writing a content into a chain, whose first cluster holds the beginning of it when all
went well. -/
theorem exfatWriteChain_runs {sectors : Nat → Buffer} {start fuel : Nat} {members : List Nat}
    (linked : Linked (exfatView v sectors).next EndOfChain start members)
    (data : ∀ cl ∈ members, DataCluster (v.exfatClusterCount + 2) cl)
    (enough : members.length < fuel) (src : List UInt8) :
    Runs ⟨false, writes⟩ (exfatWriteChain v fuel start src) sectors fun code sectors' =>
      ClusterStore.Undisturbed (fun _ => True) (· ∉ members) (exfatView v sectors)
        (exfatView v sectors') ∧ Relinked v sectors sectors' ∧
      (code = 0 → src ≠ [] → ¬ EndOfChain start →
        clusterData v (exfatView v sectors') start =
          (Buffer.ofList src).bytes 0 (v.secPerClus * v.bytesPerSec)) := by
  induction members generalizing sectors start fuel src with
  | nil =>
      cases linked with
      | nil stopped =>
          cases fuel with
          | zero => simp at enough
          | succ fuel =>
              have ended : isEndCluster start = true := stopped
              rw [exfatWriteChain, if_pos (.inl ended)]
              exact .pure ⟨.refl _ _ _, .refl _ _, fun _ _ going => absurd stopped going⟩
  | cons head rest induction =>
      cases linked with
      | cons running tail =>
          cases fuel with
          | zero => simp at enough
          | succ fuel =>
              have headData := data head (by simp)
              have nodup := List.nodup_cons.mp (Linked.cons running tail).nodup
              have going : isEndCluster head = false := by
                simpa [EndOfChain] using running
              rw [exfatWriteChain]
              apply Runs.ite
              · intro done
                refine .pure ⟨.refl _ _ _, .refl _ _, ?_⟩
                intro _ some going
                rcases done with ended | empty
                · exact absurd ended going
                · exact absurd empty some
              · intro _
                apply (writeSectors_runs shape.geometry headData v.secPerClus 0 src
                  (by omega) sectors).bind
                intro failed middle outcome
                rcases outcome with ⟨kept, confined, complete⟩
                have relinked : Relinked v sectors middle :=
                  .of_next confined (funext fun other => kept.next other trivial)
                have keptHere : ClusterStore.Undisturbed (fun _ => True) (· ∉ head :: rest)
                    (exfatView v sectors) (exfatView v middle) :=
                  kept.mono (fun _ kept => kept) fun cl outside equal => outside (by simp [equal])
                apply Runs.ite
                · exact fun _ => .pure ⟨keptHere, relinked, by simp⟩
                · intro done
                  apply (Runs.read (fatReadFatEntry_reads v middle head)).bind
                  intro next between read
                  rcases read with ⟨rfl, ⟨failing, _⟩ | ⟨_, rfl⟩⟩
                  · simp at failing
                  rw [shape.geometry.fatEntry_eq between headData.2 running,
                    kept.next head trivial]
                  have tail' : Linked (exfatView v between).next EndOfChain
                      ((exfatView v sectors).next head) rest :=
                    tail.congr fun cl _ => kept.next cl trivial
                  apply (induction tail' (fun cl member => data cl (by simp [member]))
                    (by simpa using enough) (src.drop v.clusterBytes)).mono
                  intro code sectors' later
                  refine ⟨keptHere.trans (later.1.mono (fun _ kept => kept) fun cl outside member =>
                    outside (by simp [member])), relinked.trans later.2.1, ?_⟩
                  intro _ _ _
                  have written : view v (v.exfatClusterCount + 2) between =
                      (exfatView v sectors).writeRun head 0 v.secPerClus fun index =>
                        pieces v src (index - 0) := by
                    rcases complete with ⟨failing, _⟩ | ⟨_, written⟩
                    · exact absurd failing done
                    · exact written
                  rw [← clusterData_pieces v (exfatView v sectors) head src, clusterData,
                    later.1.sector head nodup.1, exfatView, written]
                  rfl

end

end ParanOS
