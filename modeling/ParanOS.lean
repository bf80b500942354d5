import ParanOS.Foundation.Bytes
import ParanOS.Foundation.Linked
import ParanOS.Foundation.Device
import ParanOS.Foundation.Rules
import ParanOS.Foundation.Failures
import ParanOS.Foundation.ClusterStore
import ParanOS.Foundation.Cells
import ParanOS.Foundation.Tenancy
import ParanOS.Fat.Volume
import ParanOS.Fat.Mount
import ParanOS.Fat.Table
import ParanOS.Fat.Path
import ParanOS.Fat.Directory
import ParanOS.Fat.File
import ParanOS.Fat.Lookup
import ParanOS.Fat.Transfer
import ParanOS.Fat.WellFormed
import ParanOS.Fat.Entry
import ParanOS.Fat.Change
import ParanOS.Fat.Steps
import ParanOS.Fat.Operations
import ParanOS.Fat.Walk
import ParanOS.Exfat.Space
import ParanOS.Exfat.Directory
import ParanOS.Exfat.File
import ParanOS.Driver
import ParanOS.Fat.Contract
import ParanOS.Exfat.Bitmap
import ParanOS.Exfat.Agreement
import ParanOS.Exfat.Allocation
import ParanOS.Exfat.Content
import ParanOS.Exfat.Lookup
import ParanOS.Exfat.Room
import ParanOS.Exfat.EntrySet
import ParanOS.Exfat.Ownership
import ParanOS.Exfat.Change
import ParanOS.Exfat.Sound
import ParanOS.Exfat.Operations
import ParanOS.Exfat.Walk
import ParanOS.Exfat.Contract
import ParanOS.Exfat.Visible
import ParanOS.Exfat.RoundTrip
import ParanOS.Exfat.Faults
import ParanOS.Exfat.Interrupted
import ParanOS.Exfat.OldOrNew
import ParanOS.Overwrite
import ParanOS.Kernel.Heap
import ParanOS.Kernel.Text
import ParanOS.Kernel.State
import ParanOS.Kernel.Apps
import ParanOS.Kernel.Menus
import ParanOS.Kernel.Loop
import ParanOS.Kernel.Frame
import ParanOS.Kernel.Handlers
import ParanOS.Kernel.Run
import ParanOS.Kernel.Invariant
import ParanOS.Kernel.Login
import ParanOS.Kernel.Focus
import ParanOS.Kernel.Hidden
import ParanOS.Kernel.Explorer
import ParanOS.Kernel.Opening
import ParanOS.Kernel.Prompt
import ParanOS.Kernel.Logout
import ParanOS.Fat.Lost
import ParanOS.Fat.Refusal
import ParanOS.Fat.Misread
import ParanOS.Fat.Shortfall
import ParanOS.Foundation.Footprint
import ParanOS.Foundation.Layout
import ParanOS.Foundation.Pursuit
import ParanOS.Fat.Termination
import ParanOS.Exfat.Refusal
import ParanOS.Exfat.Misread
import ParanOS.Refusal
import ParanOS.Misread
import ParanOS.Exfat.Termination
import ParanOS.Termination
import ParanOS.Foundation.Radix
import ParanOS.Foundation.Ring
import ParanOS.Kernel.Accounts
import ParanOS.Kernel.Keyboard
import ParanOS.Kernel.Modifiers
import ParanOS.Kernel.Taskbar
import ParanOS.Media.Wav
import ParanOS.Media.Riff
import ParanOS.Media.Resample
import ParanOS.Media.Sound
import ParanOS.Media.Ac97
import ParanOS.Media.Bmp
import ParanOS.Media.Wallpaper
import ParanOS.Media.Viewer
import ParanOS.Media.Cursor
import ParanOS.Mm.Pmm
import ParanOS.Mm.Query
import ParanOS.Mm.Translate
import ParanOS.Task.Fairness
import ParanOS.Task.Stack
import ParanOS.Exfat.Allotment
import ParanOS.Exfat.Transfer
import ParanOS.Exfat.Release
import ParanOS.Media.ResampleRange
import ParanOS.Mm.Malloc
import ParanOS.Mm.Unmap
import ParanOS.Mm.Reported
import ParanOS.Mm.Backing
import ParanOS.Exfat.Straddle
import ParanOS.Exfat.Neighbours
import ParanOS.Exfat.Noting
import ParanOS.Exfat.RawEntries
import ParanOS.Fat.ShortName
import ParanOS.Exhaustion
import ParanOS.Exfat.Encoding
import ParanOS.Exfat.Checksum
import ParanOS.Foundation.Logged
import ParanOS.Exfat.Bounds
import ParanOS.Exfat.Listed
import ParanOS.Fat.Idempotent
import ParanOS.Fat.Listing
import ParanOS.Fat.Label
import ParanOS.Foundation.Lines
import ParanOS.Kernel.UserFile
import ParanOS.Kernel.UserStore
import ParanOS.Disk.Ata
import ParanOS.Disk.Addressing
import ParanOS.Foundation.Lockstep
import ParanOS.Foundation.Delivered
import ParanOS.Fat.RootFile
import ParanOS.Fat.Filled
import ParanOS.Fat.Truncated
import ParanOS.Remount
import ParanOS.Fat.Contents
import ParanOS.Kernel.SavePath
import ParanOS.Kernel.Saving
import ParanOS.Kernel.Selected
import ParanOS.Foundation.Grid
import ParanOS.Foundation.Scaling
import ParanOS.Kernel.ListCells
import ParanOS.Kernel.MenuRows
import ParanOS.Kernel.EditorText
import ParanOS.Kernel.Mouse
import ParanOS.Task.Usage
import ParanOS.Foundation.Copies
import ParanOS.Screen.Framebuffer
import ParanOS.Screen.Copy
import ParanOS.Screen.Blit
import ParanOS.Screen.Panic
import ParanOS.Screen.Draw
import ParanOS.Screen.Backdrop
import ParanOS.Screen.Cached
import ParanOS.Foundation.Causal
import ParanOS.Fat.Causal
import ParanOS.Exfat.Causal
import ParanOS.Exfat.Contents
import ParanOS.Filed
import ParanOS.Kernel.UserReset
import ParanOS.Fat.Cells
import ParanOS.Kernel.Parent
import ParanOS.Screen.Letterbox
import ParanOS.Screen.ImageViewer
import ParanOS.Foundation.Regions
import ParanOS.Foundation.Selection
import ParanOS.Foundation.Objects
import ParanOS.Mm.Memmap
import ParanOS.Mm.Overlap
import ParanOS.Mm.Sanitise
import ParanOS.Mm.ExtMem
import ParanOS.Mm.Blocks
import ParanOS.Mm.Objects
import ParanOS.Mm.Ranges
import ParanOS.Mm.Pages
import ParanOS.Mm.Usable
import ParanOS.Mm.Boot
import ParanOS.Foundation.FileTree
import ParanOS.Fat.Edit
import ParanOS.Fat.Growth
import ParanOS.Fat.FileTree
import ParanOS.Fat.Serving
import ParanOS.Fat.LastWrite
import ParanOS.Fat.TreeListing
import ParanOS.Foundation.Traces
import ParanOS.Kernel.Requests
import ParanOS.Kernel.Traffic
import ParanOS.Kernel.Storage
import ParanOS.Foundation.CachedWalks
import ParanOS.Mm.Tlb
