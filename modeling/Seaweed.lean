import Seaweed.Library.Words
import Seaweed.Library.Numerals
import Seaweed.Library.Runs
import Seaweed.Library.FirstFit
import Seaweed.Library.SearchReads
import Seaweed.Library.Ledger
import Seaweed.Library.Memory
import Seaweed.Library.RunQueue
import Seaweed.Library.BoundedWaiting
import Seaweed.Library.SpinLock
import Seaweed.Library.TextGrid
import Seaweed.Library.X86
import Seaweed.Library.Records
import Seaweed.Library.Agreement
import Seaweed.Library.Paging
import Seaweed.Library.Sectors
import Seaweed.Library.Regions
import Seaweed.Library.RootedTree
import Seaweed.Library.TreeWalk
import Seaweed.Libk.MemUtils
import Seaweed.Libk.AsmUtils
import Seaweed.Libk.String
import Seaweed.Libk.Itob
import Seaweed.Libk.Output
import Seaweed.Libk.Print
import Seaweed.Libk.Backspace
import Seaweed.Mm.PhysicalPageManager
import Seaweed.Mm.PageRuns
import Seaweed.Mm.E820
import Seaweed.Mm.KHeap
import Seaweed.Mm.BitmapMemory
import Seaweed.Mm.VirtualPageManager
import Seaweed.Mm.BootMemory
import Seaweed.Mm.DirectMap
import Seaweed.Boot.PageTables
import Seaweed.Mm.AddressSpaces
import Seaweed.Mm.SpaceMaps
import Seaweed.Mm.ExactSpaces
import Seaweed.Mm.ReservedFrames
import Seaweed.Mm.SpacePlan
import Seaweed.Mm.FreePages
import Seaweed.Mm.LargeSpaces
import Seaweed.Mm.SpaceLeaks
import Seaweed.Mm.SpaceFailures
import Seaweed.Mm.SpaceDirectory
import Seaweed.Mm.HeapRuns
import Seaweed.Mm.HeapFrees
import Seaweed.Mm.HeapAccess
import Seaweed.Mm.HeapTable
import Seaweed.Mm.Krealloc
import Seaweed.Mm.KreallocFails
import Seaweed.Mm.KreallocCopy
import Seaweed.Int.Isr
import Seaweed.Int.Idt
import Seaweed.Int.Tss
import Seaweed.Int.Apic
import Seaweed.Int.RedirectionReads
import Seaweed.Int.MaskLines
import Seaweed.Int.Gdt
import Seaweed.Sched.Scheduler
import Seaweed.Sched.TaskRuns
import Seaweed.Sched.MutualExclusion
import Seaweed.Sched.Fifo
import Seaweed.Sched.BoundedWaiting
import Seaweed.Sched.LockedSteps
import Seaweed.Sched.SectionProgress
import Seaweed.Sched.ContextSwitch
import Seaweed.Sched.Smp
import Seaweed.Sched.Interleavings
import Seaweed.Sched.KernelStacks
import Seaweed.Sched.BringUp
import Seaweed.Sched.BootTasks
import Seaweed.Sched.TaskTable
import Seaweed.Sched.Threads
import Seaweed.Sched.FreshTables
import Seaweed.Sched.CoreTables
import Seaweed.Sched.Resume
import Seaweed.Drivers.Ahci
import Seaweed.Drivers.CommandSlots
import Seaweed.Drivers.Pci
import Seaweed.Drivers.PciScan
import Seaweed.Drivers.PciDevices
import Seaweed.Drivers.PciBar
import Seaweed.Drivers.Bmp
import Seaweed.Libk.Screen
import Seaweed.Acpi.Rsdp
import Seaweed.Acpi.Madt
import Seaweed.Acpi.MadtReads
import Seaweed.Acpi.MadtStores
import Seaweed.Fs.Bfs
import Seaweed.Fs.ReadWrite
import Seaweed.Fs.Mount
import Seaweed.Fs.MountReads
import Seaweed.Fs.DriveTransfers
import Seaweed.Fs.SataSteps
import Seaweed.Fs.SataInterleavings
import Seaweed.Fs.SharedDrive
import Seaweed.Net.E1000
import Seaweed.Int.Syscall
import Seaweed.Mm.PageInterleavings
