import BlockFs.MetaDefines
import BlockFs.CommUtils
import BlockFs.SuperBlock
import BlockFs.State
import BlockFs.BlockHandle
import BlockFs.DirHandle
import BlockFs.File
import BlockFs.FileHandle
import BlockFs.OpenFile
import BlockFs.FileSystem
import BlockFs.Stat
import BlockFs.Mount
import BlockFs.Lib.Fallible
import BlockFs.Lib.Reaches
import BlockFs.Lib.Ledger
import BlockFs.Operations
import BlockFs.FreshMount
import BlockFs.BlockTable
import BlockFs.Persist
import BlockFs.Resources
import BlockFs.Extend
import BlockFs.Recycle
import BlockFs.Shrink
import BlockFs.ShrinkAccounts
import BlockFs.Quiet
import BlockFs.Filing
import BlockFs.Create
import BlockFs.Remove
import BlockFs.Registered
import BlockFs.Links
import BlockFs.Moves
import BlockFs.Truncate
import BlockFs.Coherent
import BlockFs.Calls
import BlockFs.Transfer
import BlockFs.Alive
import BlockFs.Assertions
import BlockFs.Directories
import BlockFs.Indexes
import BlockFs.Tree
import BlockFs.Lib.Locks
import BlockFs.Mutexes
import BlockFs.Lib.Interleaving
import BlockFs.PageWrites
import BlockFs.Growth
import BlockFs.Refusals
import BlockFs.Cutting
import BlockFs.Frames
import BlockFs.Descriptors
import BlockFs.Stock
import BlockFs.Supplies
import BlockFs.Shelves
import BlockFs.FreeLists
import BlockFs.Registry
import BlockFs.Turns
import BlockFs.Entries
import BlockFs.Relocation
import BlockFs.Renaming
import BlockFs.Namespace
import BlockFs.Creations
import BlockFs.NameSafety
import BlockFs.NameSections
import BlockFs.NameRuns
import BlockFs.Pins
import BlockFs.Remount
import BlockFs.Removal
import BlockFs.Lib.Extent
import BlockFs.Layout
import BlockFs.Ownership
import BlockFs.BlockLocks
import BlockFs.Lib.Sweep
import BlockFs.Counts
import BlockFs.Offsets
import BlockFs.Cursors
import BlockFs.Lib.Holder
import BlockFs.FileLocks
import BlockFs.Listing
import BlockFs.Lib.Host
import BlockFs.CopyRange
import BlockFs.Attributes
import BlockFs.Unlinking
import BlockFs.Lib.Cuts
import BlockFs.Lib.DoWhile
import BlockFs.Planning
import BlockFs.Contents
import BlockFs.Effects
import BlockFs.ReadBack
import BlockFs.Gaps
import BlockFs.Pwriters
import BlockFs.Isolation
import BlockFs.Lib.Lines
import BlockFs.ConfigParser
import BlockFs.ConfigText
import BlockFs.ConfigSave
import BlockFs.ConfigReload
import BlockFs.ConfigStore
import BlockFs.ConfigRuns
import BlockFs.Lib.Visits
import BlockFs.Seating
import BlockFs.Boarding
import BlockFs.Stowing
import BlockFs.Booting
import BlockFs.Lib.WriteBack
import BlockFs.Mirroring
import BlockFs.Flushing
import BlockFs.Tenancy
import BlockFs.Nesting
import BlockFs.Tidiness
import BlockFs.Lasting
import BlockFs.Remounting
import BlockFs.Sessions
