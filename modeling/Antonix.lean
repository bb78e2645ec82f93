import Antonix.Lib.Transition
import Antonix.Lib.Bitmap
import Antonix.Lib.Ledger
import Antonix.Types
import Antonix.MmPhys.Spec
import Antonix.MmPhys.Ownership
import Antonix.Lib.ByteMem
import Antonix.MmSkheap.Basic
import Antonix.MmSkheap.Spec
import Antonix.MmSkheap.Grant
import Antonix.MmSkheap.Ownership
import Antonix.MmSkheap.Containment
import Antonix.Lib.Tiling
import Antonix.StdlibMemory.Basic
import Antonix.StdlibMemory.Layout
import Antonix.StdlibMemory.Writes
import Antonix.StdlibMemory.Invariant
import Antonix.StdlibMemory.Spec
import Antonix.StdlibMemory.Ownership
import Antonix.MmVirt.Basic
import Antonix.MmVirt.Paging
import Antonix.MmVirt.Regions
import Antonix.MmVirt.Disjointness
import Antonix.MmVirt.Mapping
import Antonix.MmVirt.Isolation
import Antonix.MmVirt.WriteAccess
import Antonix.MmVirt.HeapGrowth
import Antonix.Lib.Chain
import Antonix.Scheduler.Basic
import Antonix.Scheduler.System
import Antonix.Scheduler.Spec
import Antonix.Scheduler.RunQueue
import Antonix.Lib.Buffer
import Antonix.Lib.Ring
import Antonix.Lib.BoundedQueue
import Antonix.RingBuffer.Basic
import Antonix.RingBuffer.Refinement
import Antonix.Henjin.MessageQueue
import Antonix.SyncObjs.Mutex
import Antonix.SyncObjs.Event
import Antonix.PciBus.Basic
import Antonix.PciBus.Scan
import Antonix.Vfs.File
import Antonix.Lib.NameTree
import Antonix.Vfs.Tree
import Antonix.Vfs.Children
import Antonix.Vfs.Place
import Antonix.Vfs.Create
import Antonix.Vfs.Shape
import Antonix.Vfs.Mount
import Antonix.Drivers.AtapiPrompt
import Antonix.Drivers.SectorFile
import Antonix.Drivers.SectorRead
import Antonix.Drivers.SectorCalls
import Antonix.Drivers.Fat16
import Antonix.Drivers.FatRead
import Antonix.Drivers.Iso9660
import Antonix.Drivers.FileContent
import Antonix.MmPhys.Search
import Antonix.MmPhys.Marking
import Antonix.MmSkheap.Search
import Antonix.DescTables.Basic
import Antonix.DescTables.IrqLines
import Antonix.Drivers.MouseStream
import Antonix.Lib.LittleEndian
import Antonix.Nxgi.Geometry
import Antonix.Henjin.MouseEvents
import Antonix.Henjin.MouseMessages
import Antonix.Henjin.MouseDelivery
import Antonix.Audio.IsaDma
import Antonix.Audio.Session
import Antonix.Audio.LifeCycle
import Antonix.Nxgi.Graphics
import Antonix.Lib.LineWalk
import Antonix.Nxgi.Pixels
import Antonix.Nxgi.Lines
import Antonix.Nxgi.Glyphs
import Antonix.Nxgi.Text
import Antonix.Nxgi.Clipping
import Antonix.MmSkheap.LastBlock
import Antonix.MmSkheap.Realloc
import Antonix.StdlibMemory.ShortBlocks
import Antonix.StdlibMemory.Failure
import Antonix.StdlibMemory.Realloc
import Antonix.StdlibMemory.FirstFit
import Antonix.StdlibMemory.Coalescing
import Antonix.MmVirt.Leaks
import Antonix.MmVirt.TempMap
import Antonix.Streams.ElfProbe
import Antonix.Vfs.MountPath
import Antonix.Vfs.Mkdir
import Antonix.Vfs.AddFailure
import Antonix.Scheduler.RoundRobin
import Antonix.Scheduler.Stacks
import Antonix.Scheduler.StackPlacement
import Antonix.Scheduler.ThreadSystem
import Antonix.Scheduler.ThreadExit
import Antonix.SyncObjs.Contention
import Antonix.Timer.Clock
import Antonix.Timer.Sleep
import Antonix.Timer.Timeouts
import Antonix.Drivers.BootSector
import Antonix.Drivers.FatChain
import Antonix.Drivers.FatLog
import Antonix.Drivers.FatDirectory
import Antonix.MmVirt.PageTables
import Antonix.MmVirt.Windows
import Antonix.Scheduler.Process
import Antonix.Elf.Loader
import Antonix.Elf.Segments
import Antonix.Elf.Headers
import Antonix.Elf.Robustness
import Antonix.Elf.Placement
import Antonix.Elf.Image
import Antonix.RingBuffer.Upto
import Antonix.Vfs.Normalize
import Antonix.Drivers.IsoNames
import Antonix.Drivers.IsoReaddir
import Antonix.Drivers.IsoDescriptors
import Antonix.Drivers.IsoLookup
import Antonix.Drivers.FatListing
import Antonix.Drivers.FatPath
import Antonix.Drivers.CacheCoherence
import Antonix.Nxgi.Canvas
import Antonix.Nxgi.Painting
import Antonix.Nxgi.LineLoop
import Antonix.Lib.PlaneSegments
import Antonix.Nxgi.Intersection
import Antonix.Nxgi.Border
import Antonix.Henjin.ChildControls
import Antonix.Henjin.MouseRouting
import Antonix.Henjin.MouseCoordinates
import Antonix.Lib.Dma8237
import Antonix.Audio.DmaWindow
import Antonix.Audio.Playback
import Antonix.Nxgi.LineClipping
import Antonix.PciBus.Termination
import Antonix.Lib.Numeral
import Antonix.Libc.Sprintf
import Antonix.Libc.Rendering
import Antonix.Lib.TextScreen
import Antonix.Vga.Terminal
import Antonix.Vga.Reference
import Antonix.Vga.Printing
import Antonix.Drivers.Console
import Antonix.KConsole.CommandLine
import Antonix.KConsole.LineBlocks
import Antonix.Ps2.Keyboard
import Antonix.Ps2.KeyboardQueue
import Antonix.Drivers.Ata
import Antonix.Drivers.AtaAddressing
import Antonix.Drivers.AtaBlocks
import Antonix.Drivers.Floppy
import Antonix.Syscall.Handlers
import Antonix.Syscall.Robustness
import Antonix.Lib.CString
import Antonix.Libc.FormatScan
import Antonix.DevMuxer.Basic
import Antonix.DevMuxer.Forwarding
import Antonix.DevMuxer.Lifetime
import Antonix.Drivers.FatRootdir
import Antonix.Drivers.FatTable
import Antonix.Vfs.UrlSplitting
import Antonix.Libc.StrExplode
import Antonix.Lib.DoublyLinked
import Antonix.Libc.LinkedList
import Antonix.Libc.DlistRefinement
import Antonix.Lib.OverlappingCopy
import Antonix.Libc.MemBlocks
import Antonix.Henjin.Damage
import Antonix.Henjin.Resolution
import Antonix.KConsole.Session
import Antonix.Lib.HandleTable
import Antonix.MmVirt.KernelSpace
import Antonix.SyncObjs.Spinlock
import Antonix.Vfs.Directories
import Antonix.Vfs.Store
