import KiOS.Library.EventMachine
import KiOS.Library.Align
import KiOS.Library.Bitmap
import KiOS.Library.BitSet
import KiOS.Library.Radix
import KiOS.Library.Ring
import KiOS.Library.ByteMemory
import KiOS.Library.CopyLoop
import KiOS.Library.Cyclic
import KiOS.Library.Numeral
import KiOS.Library.Program
import KiOS.Text.CString
import KiOS.Text.StringMemory
import KiOS.Text.Memmove
import KiOS.Mm.Pmm
import KiOS.Mm.PmmInit
import KiOS.Mm.PmmAccounting
import KiOS.Mm.PmmFreeSet
import KiOS.Mm.PmmRefinement
import KiOS.Mm.LiveMemory
import KiOS.Mm.Vmm
import KiOS.Mm.PageTree
import KiOS.Mm.Mapping
import KiOS.Mm.Mmu
import KiOS.Mm.VmmRefinement
import KiOS.Mm.VmmIsolation
import KiOS.Mm.VmmIdentity
import KiOS.Mm.PmmFrames
import KiOS.Mm.Heap
import KiOS.Mm.HeapBounds
import KiOS.Mm.HeapLedger
import KiOS.Mm.HeapLoop
import KiOS.Mm.HeapBacking
import KiOS.Mm.Tlb
import KiOS.Task.Scheduler
import KiOS.Task.Runs
import KiOS.Task.Context
import KiOS.Task.Eligibility
import KiOS.Task.TaskMemory
import KiOS.Task.TaskTable
import KiOS.Task.RoundRobin
import KiOS.Drivers.KeyboardIrq
import KiOS.Drivers.KeyboardPolling
import KiOS.Drivers.KeyboardModifiers
import KiOS.Drivers.KeyboardReader
import KiOS.Drivers.Vga
import KiOS.Drivers.Terminal
import KiOS.Drivers.VgaNumber
import KiOS.Shell.Readline
import KiOS.Shell.LineEditor
import KiOS.Shell.Execute
import KiOS.Shell.Session
import KiOS.Commands.Time
import KiOS.Commands.Memory
import KiOS.Commands.Footprint
import KiOS.Commands.HeapTest
import KiOS.Commands.Aftermath
import KiOS.Commands.Holding
import KiOS.Commands.Memtest
import KiOS.Commands.Vmtest
import KiOS.Commands.Usertest
import KiOS.Commands.CommandRuns
import KiOS.Commands.MemoryLeaks
import KiOS.Commands.LiveHeap
import KiOS.Commands.Report
import KiOS.Commands.Meminfo
import KiOS.Cpu.Machine
import KiOS.Cpu.IrqStub
import KiOS.Cpu.Syscall
import KiOS.Cpu.SyscallRuns
import KiOS.Cpu.SyscallHandler
import KiOS.Cpu.DescriptorTables
import KiOS.Cpu.Exceptions
import KiOS.Cpu.PanicScreen
import KiOS.Cpu.Pic
import KiOS.Cpu.IrqDispatch
import KiOS.Task.Preemption
import KiOS.Task.WakeUp
import KiOS.Boot.LoadKernel
import KiOS.Boot.KernelImage
