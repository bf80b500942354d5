import ParanOS.Exfat.File

/-! # The path functions of the driver

The public functions of `fs_fat32.h` that take a path. Each branches on the
file system type and then walks the components of the path. They return the
volume as well, in which an exFAT lookup may have noted the allocation bitmap.
The bound `fuel` is for the loops along a chain of clusters.
-/

namespace ParanOS

open Foundation

def fat32ReadFilePath (v : Vol) (fuel : Nat) (path : CString) (maxBytes : Nat) :
    DiskM (Vol × ReadResult) :=
  match v.fsType with
  | .exfat => exfatReadWalk fuel maxBytes path.componentsLong v
  | .fat32 => do
      let result ← readWalk v fuel maxBytes path.components83 v.rootClus
      pure (v, result)

def fat32WriteFilePath (v : Vol) (fuel : Nat) (path : CString) (data : List UInt8) :
    DiskM (Vol × Int) :=
  match v.fsType with
  | .exfat => exfatWriteFile v fuel path.componentsLong data
  | .fat32 => do
      let code ← writeWalk v fuel data path.components83 v.rootClus
      pure (v, code)

def fat32EnsureDirPath (v : Vol) (fuel : Nat) (path : CString) : DiskM (Vol × Int) :=
  match v.fsType with
  | .exfat => exfatEnsureWalk fuel path.componentsLong v.rootClus v
  | .fat32 => do
      let code ← ensureWalk v fuel path.components83 v.rootClus
      pure (v, code)

def fat32ListDirPath (v : Vol) (fuel : Nat) (path : CString) (maxItems : Int) :
    DiskM (Vol × Int × List Dirent) :=
  match v.fsType with
  | .exfat => exfatListWalk fuel maxItems.toNat path.componentsLong v.rootClus v
  | .fat32 =>
      if maxItems ≤ 0 then pure (v, -1, [])
      else do
        let (code, items) ← listWalk v fuel maxItems.toNat path.components83 v.rootClus
        pure (v, code, items)

/-- Listing a directory makes no write call, whatever reads fail. -/
theorem fat32ListDirPath_readOnly (v : Vol) (fuel : Nat) (path : CString) (maxItems : Int) :
    ReadOnly (fat32ListDirPath v fuel path maxItems) := by
  unfold fat32ListDirPath
  cases v.fsType with
  | exfat => exact exfatListWalk_readOnly fuel _ _ _ v
  | fat32 => exact .ite (.pure _) (.bind (listWalk_readOnly v fuel _ _ _) fun _ => .pure _)

/-! ## Runs -/

/-- A call that may change the volume. -/
inductive Call
  | writeFile (path : CString) (data : List UInt8)
  | ensureDir (path : CString)

def Call.path : Call → CString
  | writeFile path _ => path
  | ensureDir path => path

def Call.run (call : Call) (fuel : Nat) (v : Vol) : DiskM (Vol × Int) :=
  match call with
  | writeFile path data => fat32WriteFilePath v fuel path data
  | ensureDir path => fat32EnsureDirPath v fuel path

/-- Calls one after another, whatever each of them returns. -/
def runCalls (fuel : Nat) : List Call → Vol → DiskM Vol
  | [], v => pure v
  | call :: rest, v => do
      let (v, _) ← call.run fuel v
      runCalls fuel rest v

end ParanOS
