import ParanOS.Foundation.Bytes
import ParanOS.Foundation.Linked

/-! # Clusters linked by a table

The abstract content of a volume whose space is divided into numbered
clusters: each cluster has an entry in a table of links and a number of
sectors. Changing a link and replacing a sector are independent.
-/

namespace Foundation

structure ClusterStore where
  next : Nat → Nat
  sector : Nat → Nat → Buffer

namespace ClusterStore

/-- Change one table entry. -/
def link (store : ClusterStore) (cluster target : Nat) : ClusterStore where
  next := fun other => if other = cluster then target else store.next other
  sector := store.sector

/-- Replace one sector of a cluster. -/
def write (store : ClusterStore) (cluster index : Nat) (content : Buffer) :
    ClusterStore where
  next := store.next
  sector := fun other position =>
    if other = cluster ∧ position = index then content else store.sector other position

/-- Replace `count` sectors of a cluster from `first` on. -/
def writeRun (store : ClusterStore) (cluster first count : Nat) (content : Nat → Buffer) :
    ClusterStore where
  next := store.next
  sector := fun other position =>
    if other = cluster ∧ first ≤ position ∧ position < first + count then content position
    else store.sector other position

@[simp] theorem link_sector (store : ClusterStore) (cluster target : Nat) :
    (store.link cluster target).sector = store.sector := rfl

@[simp] theorem write_next (store : ClusterStore) (cluster index : Nat)
    (content : Buffer) : (store.write cluster index content).next = store.next := rfl

@[simp] theorem link_next_same (store : ClusterStore) (cluster target : Nat) :
    (store.link cluster target).next cluster = target := if_pos rfl

theorem link_next_other {store : ClusterStore} {cluster target other : Nat}
    (different : other ≠ cluster) :
    (store.link cluster target).next other = store.next other := if_neg different

theorem link_eq_self {store : ClusterStore} {cluster target : Nat}
    (same : store.next cluster = target) : store.link cluster target = store := by
  have links : (store.link cluster target).next = store.next := by
    funext other
    by_cases here : other = cluster
    · rw [here, link_next_same, same]
    · exact link_next_other here
  simp only [link] at links ⊢
  rw [links]

@[simp] theorem write_sector_same (store : ClusterStore) (cluster index : Nat)
    (content : Buffer) :
    (store.write cluster index content).sector cluster index = content :=
  if_pos ⟨rfl, rfl⟩

theorem write_sector_other {store : ClusterStore} {cluster index other position : Nat}
    {content : Buffer} (different : other ≠ cluster ∨ position ≠ index) :
    (store.write cluster index content).sector other position =
      store.sector other position := by
  apply if_neg
  omega

@[simp] theorem writeRun_next (store : ClusterStore) (cluster first count : Nat)
    (content : Nat → Buffer) :
    (store.writeRun cluster first count content).next = store.next := rfl

theorem writeRun_sector_inside {store : ClusterStore} {cluster first count position : Nat}
    {content : Nat → Buffer} (lower : first ≤ position) (upper : position < first + count) :
    (store.writeRun cluster first count content).sector cluster position =
      content position := if_pos ⟨rfl, lower, upper⟩

theorem writeRun_sector_outside {store : ClusterStore}
    {cluster first count other position : Nat} {content : Nat → Buffer}
    (outside : other ≠ cluster ∨ position < first ∨ first + count ≤ position) :
    (store.writeRun cluster first count content).sector other position =
      store.sector other position := by
  apply if_neg
  omega

theorem writeRun_zero (store : ClusterStore) (cluster first : Nat) (content : Nat → Buffer) :
    store.writeRun cluster first 0 content = store := by
  have same : (store.writeRun cluster first 0 content).sector = store.sector := by
    funext other position
    apply writeRun_sector_outside
    omega
  simp only [writeRun] at same ⊢
  rw [same]

/-- The links and the contents of the given clusters are as they were. -/
structure Undisturbed (links contents : Nat → Prop) (store store' : ClusterStore) : Prop where
  next : ∀ cl, links cl → store'.next cl = store.next cl
  sector : ∀ cl, contents cl → store'.sector cl = store.sector cl

namespace Undisturbed

variable {links contents : Nat → Prop} {store store' store'' : ClusterStore}

theorem refl (links contents : Nat → Prop) (store : ClusterStore) :
    Undisturbed links contents store store :=
  ⟨fun _ _ => rfl, fun _ _ => rfl⟩

theorem trans (first : Undisturbed links contents store store')
    (second : Undisturbed links contents store' store'') :
    Undisturbed links contents store store'' :=
  ⟨fun cl kept => (second.next cl kept).trans (first.next cl kept),
    fun cl kept => (second.sector cl kept).trans (first.sector cl kept)⟩

theorem mono {links' contents' : Nat → Prop} (undisturbed : Undisturbed links contents store store')
    (fewerLinks : ∀ cl, links' cl → links cl) (fewerContents : ∀ cl, contents' cl → contents cl) :
    Undisturbed links' contents' store store' :=
  ⟨fun cl kept => undisturbed.next cl (fewerLinks cl kept),
    fun cl kept => undisturbed.sector cl (fewerContents cl kept)⟩

theorem link {cluster : Nat} (target : Nat) (apart : ¬ links cluster) :
    Undisturbed links contents store (store.link cluster target) :=
  ⟨fun _ kept => link_next_other fun equal => apart (equal ▸ kept), fun _ _ => rfl⟩

theorem write {cluster : Nat} (index : Nat) (content : Buffer) (apart : ¬ contents cluster) :
    Undisturbed links contents store (store.write cluster index content) := by
  refine ⟨fun _ _ => rfl, fun cl kept => ?_⟩
  funext position
  exact write_sector_other (.inl fun equal => apart (equal ▸ kept))

end Undisturbed

/-- The first sector of a run, then the rest of it. -/
theorem writeRun_succ (store : ClusterStore) (cluster first count : Nat)
    (content : Nat → Buffer) :
    store.writeRun cluster first (count + 1) content =
      (store.write cluster first (content first)).writeRun cluster (first + 1) count
        content := by
  simp only [writeRun, write, mk.injEq, true_and]
  funext other position
  by_cases later : other = cluster ∧ first + 1 ≤ position ∧ position < first + 1 + count
  · rw [if_pos later, if_pos (by omega)]
  · rw [if_neg later]
    by_cases here : other = cluster ∧ position = first
    · rw [if_pos here, if_pos (by omega), here.2]
    · rw [if_neg here, if_neg (by omega)]

theorem writeRun_congr (store : ClusterStore) (cluster first count : Nat)
    {content content' : Nat → Buffer}
    (agree : ∀ position, first ≤ position → position < first + count →
      content position = content' position) :
    store.writeRun cluster first count content =
      store.writeRun cluster first count content' := by
  simp only [writeRun, mk.injEq, true_and]
  funext other position
  by_cases inside : other = cluster ∧ first ≤ position ∧ position < first + count
  · rw [if_pos inside, if_pos inside, agree position inside.2.1 inside.2.2]
  · rw [if_neg inside, if_neg inside]

/-! ## Free clusters -/

/-- The clusters below a bound whose entry is zero. Clusters are numbered from
two on. -/
def free (store : ClusterStore) (bound : Nat) : List Nat :=
  (List.range' 2 (bound - 2)).filter fun cluster => store.next cluster == 0

theorem mem_free {store : ClusterStore} {bound cluster : Nat} :
    cluster ∈ store.free bound ↔ 2 ≤ cluster ∧ cluster < bound ∧ store.next cluster = 0 := by
  rw [free, List.mem_filter, List.mem_range'_1, beq_iff_eq]
  omega

theorem free_nodup (store : ClusterStore) (bound : Nat) : (store.free bound).Nodup :=
  List.Nodup.filter _ List.nodup_range'

theorem free_congr {store store' : ClusterStore} {bound : Nat}
    (same : ∀ cluster < bound, store'.next cluster = store.next cluster) :
    store'.free bound = store.free bound := by
  apply List.filter_congr
  intro cluster member
  rw [List.mem_range'_1] at member
  rw [same cluster (by omega)]

/-- The free list begins with the lowest free cluster. -/
theorem free_eq_cons {store : ClusterStore} {bound cluster : Nat}
    (member : cluster ∈ store.free bound)
    (lowest : ∀ earlier, 2 ≤ earlier → earlier < cluster → store.next earlier ≠ 0) :
    ∃ later, store.free bound = cluster :: later := by
  rcases mem_free.mp member with ⟨lower, upper, free⟩
  have split : List.range' 2 (bound - 2) = List.range' 2 (cluster - 2) ++
      cluster :: List.range' (cluster + 1) (bound - cluster - 1) := by
    have total : bound - 2 = cluster - 2 + (bound - cluster - 1 + 1) := by omega
    have start : 2 + (cluster - 2) = cluster := by omega
    rw [total, ← List.range'_append_1, List.range'_succ, start]
  have before : (List.range' 2 (cluster - 2)).filter (fun other => store.next other == 0) = [] := by
    rw [List.filter_eq_nil_iff]
    intro earlier inside
    have range := List.mem_range'_1.mp inside
    simpa using lowest earlier range.1 (by omega)
  refine ⟨(List.range' (cluster + 1) (bound - cluster - 1)).filter fun other =>
    store.next other == 0, ?_⟩
  rw [ClusterStore.free, split, List.filter_append, before, List.nil_append,
    List.filter_cons_of_pos (by simpa using free)]

theorem free_of_taken {store store' : ClusterStore} {bound : Nat} {taken : List Nat}
    (used : ∀ cluster ∈ taken, store'.next cluster ≠ 0)
    (others : ∀ cluster, cluster ∉ taken → store'.next cluster = store.next cluster) :
    store'.free bound = (store.free bound).filter (· ∉ taken) := by
  rw [free, free, List.filter_filter]
  apply List.filter_congr
  intro cluster _
  by_cases member : cluster ∈ taken
  · simp [member, used cluster member]
  · simp [member, others cluster member]

/-- When the first clusters of the free list have been taken into use, the others are left. -/
theorem free_drop {store store' : ClusterStore} {bound count : Nat}
    (used : ∀ cluster ∈ (store.free bound).take count, store'.next cluster ≠ 0)
    (others : ∀ cluster, cluster ∉ (store.free bound).take count →
      store'.next cluster = store.next cluster) :
    store'.free bound = (store.free bound).drop count := by
  rw [free_of_taken used others]
  generalize taken : (store.free bound).take count = first
  generalize left : (store.free bound).drop count = last
  have whole : store.free bound = first ++ last := by
    rw [← taken, ← left, List.take_append_drop]
  have nodup := store.free_nodup bound
  rw [whole, List.nodup_append] at nodup
  rw [whole, List.filter_append, List.filter_eq_nil_iff.mpr, List.nil_append, List.filter_eq_self]
  · intro cluster stays
    rw [decide_eq_true_eq]
    exact fun member => nodup.2.2 cluster member cluster stays rfl
  · intro cluster member
    simpa using member

/-- Free clusters that have been taken into use are no longer counted. -/
theorem length_free_of_taken {store store' : ClusterStore} {bound : Nat} {taken : List Nat}
    (nodup : taken.Nodup) (free : ∀ cluster ∈ taken, cluster ∈ store.free bound)
    (used : ∀ cluster ∈ taken, store'.next cluster ≠ 0)
    (others : ∀ cluster, 2 ≤ cluster → cluster ∉ taken →
      (store'.next cluster = 0 ↔ store.next cluster = 0)) :
    (store'.free bound).length + taken.length = (store.free bound).length := by
  have gone : ((store.free bound).filter (· ∈ taken)).Perm taken := by
    rw [List.perm_ext_iff_of_nodup ((store.free_nodup bound).filter _) nodup]
    intro cluster
    rw [List.mem_filter, decide_eq_true_eq]
    exact ⟨fun both => both.2, fun member => ⟨free cluster member, member⟩⟩
  have rest : ((store.free bound).filter fun cluster => !decide (cluster ∈ taken)).Perm
      (store'.free bound) := by
    rw [List.perm_ext_iff_of_nodup ((store.free_nodup bound).filter _) (store'.free_nodup bound)]
    intro cluster
    rw [List.mem_filter, mem_free, mem_free, Bool.not_eq_true', decide_eq_false_iff_not]
    constructor
    · intro both
      exact ⟨both.1.1, both.1.2.1, (others cluster both.1.1 both.2).mpr both.1.2.2⟩
    · intro stays
      have outside : cluster ∉ taken := fun member => used cluster member stays.2.2
      exact ⟨⟨stays.1, stays.2.1, (others cluster stays.1 outside).mp stays.2.2⟩, outside⟩
  have split := List.length_eq_length_filter_add (l := store.free bound) (· ∈ taken)
  rw [gone.length_eq, rest.length_eq] at split
  omega

end ClusterStore

end Foundation
