import ParanOS.Exfat.Contract
import ParanOS.Fat.Contract

/-! # Writing to the path of a directory

The FAT32 writer refuses a path that leads to a directory. The exFAT writer has
no such check: it replaces the directory by a file unless it finds no clusters
for the data.
-/

namespace ParanOS

open Foundation
open ExfatOwner (LiveAt)

/-! ## Paths of directories -/

/-- Whether a path leads to a directory, by the lookups of the FAT32 walks. -/
def fatLeadsToDir (v : Vol) (fuel : Nat) : List (List UInt8) → Nat → DiskM Bool
  | [], _ => pure true
  | comp :: rest, dirCl => do
      match ← dirFindEntry v (makeName83 comp) fuel dirCl with
      | .error _ => pure false
      | .ok hit =>
          if direntIsDir hit.de then
            fatLeadsToDir v fuel rest (enterDir v (direntStartCluster hit.de))
          else pure false

/-- Whether a path leads to a directory, by the lookups of the exFAT walks. -/
def exfatLeadsToDir (fuel : Nat) : List (List UInt8) → Nat → Vol → DiskM Bool
  | [], _, _ => pure true
  | comp :: rest, dir, v => do
      match ← exfatFindInDir comp fuel dir v with
      | (_, .error _) => pure false
      | (v, .ok info) => if info.isDir then exfatLeadsToDir fuel rest info.cluster v else pure false

def leadsToDir (v : Vol) (fuel : Nat) (path : CString) : DiskM Bool :=
  match v.fsType with
  | .fat32 => fatLeadsToDir v fuel path.components83 v.rootClus
  | .exfat => exfatLeadsToDir fuel path.componentsLong v.rootClus v

/-- The volume as a write finds it: on exFAT a sound one, with the bitmap
located. -/
def ReadyVol (v v' : Vol) (fuel : Nat) (sectors : Nat → Buffer) : Prop :=
  match v.fsType with
  | .fat32 => v' = v
  | .exfat => (∃ result, exfatLoadBitmapInfo v fuel (Device.healthy sectors) =
        some ((result, v'), Device.healthy sectors)) ∧
      ExfatSound v' sectors ∧ v'.exfatClusterCount + 2 < fuel

/-- The write is refused and leaves every sector as it was. -/
def RefusesWrite (v : Vol) (fuel : Nat) (path : CString) (data : List UInt8)
    (sectors : Nat → Buffer) : Prop :=
  ∃ v' code device', fat32WriteFilePath v fuel path data (Device.healthy sectors) =
      some ((v', code), device') ∧
    code ≠ 0 ∧ device'.sectors = sectors

/-! ## FAT32 -/

theorem fatLeadsToDir_readOnly (v : Vol) (fuel : Nat) (comps : List (List UInt8))
    (dirCl : Nat) : ReadOnly (fatLeadsToDir v fuel comps dirCl) := by
  induction comps generalizing dirCl with
  | nil => exact .pure true
  | cons comp rest induction =>
      apply ReadOnly.bind (dirFindEntry_readOnly v _ fuel dirCl)
      intro found
      cases found with
      | error _ => exact .pure false
      | ok hit => exact .ite (induction _) (.pure false)

/-- Whatever calls fail, the write ends where the lookups end. -/
theorem writeWalk_refuses_dir {v : Vol} {fuel : Nat} (data : List UInt8)
    {comps : List (List UInt8)} {dirCl : Nat} {device device' : Device}
    (leads : fatLeadsToDir v fuel comps dirCl device = some (true, device')) :
    ∃ code, writeWalk v fuel data comps dirCl device = some (code, device') ∧ code ≠ 0 := by
  induction comps generalizing dirCl device with
  | nil =>
      simp only [fatLeadsToDir, DiskM.pure_apply, Option.some.injEq, Prod.mk.injEq, true_and]
        at leads
      exact ⟨-10, by simp [writeWalk, leads], by decide⟩
  | cons comp rest induction =>
      rw [fatLeadsToDir] at leads
      rcases DiskM.of_bind leads with ⟨found, middle, looked, leads⟩
      rw [writeWalk, DiskM.bind_run looked]
      cases found with
      | error _ => simp at leads
      | ok hit =>
          cases isDir : direntIsDir hit.de with
          | false => simp [isDir] at leads
          | true =>
              simp only [isDir, if_true] at leads
              cases rest with
              | nil =>
                  simp only [fatLeadsToDir, DiskM.pure_apply, Option.some.injEq, Prod.mk.injEq,
                    true_and] at leads
                  exact ⟨-4, by simp [overwriteFile, isDir, leads], by decide⟩
              | cons next others =>
                  rcases induction leads with ⟨code, ran, refused⟩
                  exact ⟨code, by simpa [isDir] using ran, refused⟩

/-! ## exFAT -/

/-- There is data, and the allocator finds too few clusters for it. A size whose
rounding up overflows asks for none, and puts the end mark into entry 0. -/
def NoRoomFor (v : Vol) (sectors : Nat → Buffer) (data : List UInt8) : Prop :=
  data ≠ [] ∧
    if clustersNeeded v data.length = 0 then fatEntry v sectors 0 = eocMark
    else (freeList v (exfatView v sectors)).length < clustersNeeded v data.length

theorem refusedSectors_eq_self_iff (v : Vol) (sectors : Nat → Buffer) (need : Nat) :
    refusedSectors v sectors need = sectors ↔
      (need = 0 → fatEntry v sectors 0 = eocMark) := by
  rw [refusedSectors]
  by_cases overflow : need = 0
  · rw [if_pos overflow, setFatEntry_eq_self_iff]
    simp [overflow, eocMark]
  · simp [overflow]

section

variable {v : Vol} (shape : ExfatGeometry v) {fuel : Nat}
  (enough : v.exfatClusterCount + 2 < fuel)
include shape enough

theorem exfatWriteWalk_refuses_dir_iff (data : List UInt8) {comps : List (List UInt8)}
    (names : ∀ comp ∈ comps, comp ≠ [] ∧ comp.length ≤ 255) (more : comps ≠ [])
    {sectors : Nat → Buffer} {bitmap chain : List Nat} {depth : Nat} {owner : ExfatOwner}
    (sound : Sound v (exfatView v sectors) bitmap)
    (dir : DirAt v (exfatView v sectors) depth owner chain) {device : Device}
    (leads : exfatLeadsToDir fuel comps (owner.start v (exfatView v sectors)) v
      (Device.healthy sectors) = some (true, device)) :
    ∃ code sectors',
      exfatWriteWalk fuel data comps (owner.start v (exfatView v sectors)) v
        (Device.healthy sectors) = some ((v, code), Device.healthy sectors') ∧
      (code ≠ 0 ∧ sectors' = sectors ↔ NoRoomFor v sectors data) := by
  induction comps generalizing depth owner chain with
  | nil => exact absurd rfl more
  | cons comp rest induction =>
      have looked := exfatFindInDir_spec shape enough comp sound dir
      rw [exfatLeadsToDir, DiskM.bind_run looked] at leads
      rw [exfatWriteWalk, DiskM.bind_run looked]
      cases found : lookup v (exfatView v sectors) comp (chainPlaces v chain) with
      | error code =>
          rw [found] at leads
          simp at leads
      | ok info =>
          rw [found] at leads
          rcases lookup_hit found with ⟨place, hit⟩
          cases isDir : info.isDir with
          | false => simp [isDir] at leads
          | true =>
              simp only [isDir, if_true] at leads
              cases rest with
              | nil =>
                  rcases names comp (by simp) with ⟨nonempty, short⟩
                  simp only [List.isEmpty_nil, if_true]
                  rcases exfatOverwrite_spec shape data enough sound dir hit.inside hit.set nonempty
                    short hit.fits hit.cluster hit.atPlace with
                    ⟨sectors', first, members, ran, _, _, _, filled⟩ | ⟨wanted, refused, short⟩
                  · refine ⟨0, sectors', by rw [DiskM.bind_run ran]; rfl, by simp, ?_⟩
                    rintro ⟨wanted, room⟩
                    rcases filled wanted with ⟨_, _, needed, enough⟩
                    rw [if_neg needed] at room
                    omega
                  · refine ⟨-7, _, by rw [DiskM.bind_run refused]; rfl, ?_⟩
                    rw [refusedSectors_eq_self_iff, NoRoomFor]
                    by_cases overflow : clustersNeeded v data.length = 0
                    · simp [overflow, wanted]
                    · have few := short.resolve_left overflow
                      simp [overflow, wanted, few]
              | cons next others =>
                  rcases hit.dirAt sound.owned dir isDir with ⟨members, child⟩
                  rw [hit.cluster] at leads
                  rcases induction (fun other member => names other (by simp [member]))
                    (by simp) child leads with ⟨code, sectors', ran, outcome⟩
                  refine ⟨code, sectors', ?_, outcome⟩
                  simp only [List.isEmpty_cons, Bool.false_eq_true, if_false, isDir, if_true]
                  rw [hit.cluster]
                  exact ran

end

/-! ## The function -/

end ParanOS
