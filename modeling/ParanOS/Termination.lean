import ParanOS.Driver
import ParanOS.Exfat.Termination
import ParanOS.Fat.Contract

/-! # When directory walks return

The searches and listings of `fs_fat32.c` on any volume and any content of the device,
all of whose reads succeed. None of the loops has a bound, so a chain that runs in a
circle through clusters in which nothing ends the walk keeps it going for ever.
-/

namespace ParanOS

open Foundation

/-- The walk of `fat32_list_dir_path` ends. -/
def ListDirPathEnds (v : Vol) (sectors : Nat → Buffer) (path : CString) (maxItems : Int) : Prop :=
  match v.fsType with
  | .exfat => SetWalkEnds v sectors maxItems.toNat path.componentsLong v.rootClus
  | .fat32 => maxItems ≤ 0 ∨ ListWalkEnds v sectors maxItems.toNat path.components83 v.rootClus

theorem fat32ListDirPath_returns_iff (v : Vol) (sectors : Nat → Buffer) (path : CString)
    (maxItems : Int) :
    Returns (fun fuel => fat32ListDirPath v fuel path maxItems) sectors ↔
      ListDirPathEnds v sectors path maxItems := by
  unfold fat32ListDirPath ListDirPathEnds
  cases v.fsType with
  | exfat => exact exfatListWalk_returns_iff v sectors _ _ _
  | fat32 =>
      by_cases unasked : maxItems ≤ 0
      · simp [Returns, unasked]
      · have asked : 0 < maxItems.toNat := by omega
        simp only [unasked, if_false, false_or]
        rw [← listWalk_returns_iff v sectors asked]
        simp [Returns, Option.bind_eq_none_iff, Option.ne_none_iff_exists']

/-- The small volume with deleted entries only, and cluster 2 linked to itself. -/
def circular : Nat → Buffer := fun lba =>
  if lba = 1 then Buffer.putU32 (fun _ => 0) 8 2 else fun _ => 0xE5

theorem circular_link (count : Nat) : linkAt smallVol circular 2 count = 2 := by
  induction count with
  | zero => rfl
  | succ count induction =>
      rw [linkAt, Function.iterate_succ_apply', ← linkAt, induction]
      decide

end ParanOS
