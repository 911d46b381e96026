import CloudOS.Ipc.Cull
import CloudOS.Lib.Closure
import CloudOS.Ipc.Cascade
import CloudOS.Ipc.State
import CloudOS.Ipc.Change
import CloudOS.Ipc.Authority
import CloudOS.Ipc.Delivery
import CloudOS.Ipc.Staleness
import CloudOS.Heap.Safety
import CloudOS.Ipc.Mailbox
import CloudOS.Process.Agreement
import CloudOS.Process.Attuned
import CloudOS.Process.LostWakeup
import CloudOS.Process.ParentWake
import CloudOS.Process.Saturation
import CloudOS.Process.RefusedBlock
import CloudOS.Elf.Copy
import CloudOS.Elf.Loaded
import CloudOS.Elf.Loaders
import CloudOS.Initramfs.Archive
import CloudOS.Initramfs.Build
import CloudOS.Initramfs.Lookup
import CloudOS.Ipc.NoTask
import CloudOS.Ipc.Traffic
import CloudOS.Lib.Fifo
import CloudOS.Paging.KernelHalf
import CloudOS.Process.Answer
import CloudOS.Process.Concord
import CloudOS.Process.Registers
import CloudOS.Process.TablesAgree
import CloudOS.Process.WakeCause
import CloudOS.Scheduler.Fifo
import CloudOS.Heap.Complete
import CloudOS.Heap.History
import CloudOS.Process.AnyChild
import CloudOS.Process.Collected
import CloudOS.Process.Zombies
import CloudOS.Process.UserRange
import CloudOS.Process.SafeReceive
import CloudOS.PhysMem.Account
import CloudOS.Initramfs.Grammar
import CloudOS.Initramfs.InitSize
import CloudOS.Shell.Editing
import CloudOS.Multiboot.Faithful
import CloudOS.PhysMem.Order
import CloudOS.Paging.Progress
import CloudOS.Paging.Mirror
import CloudOS.Elf.Rollback
import CloudOS.Process.Handles
import CloudOS.Klog.Newest
import CloudOS.Shell.Printed
import CloudOS.Vga.Console
import CloudOS.Kernel.Isolation
import CloudOS.Kernel.Ledger
