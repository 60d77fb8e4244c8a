import UsacSyscalls.Foundation.Program
import UsacSyscalls.Foundation.Transition
import UsacSyscalls.Project1.Syscalls
import UsacSyscalls.Project2.Agreement
import UsacSyscalls.Project3.Disclosure
import UsacSyscalls.Project3.Exits
import UsacSyscalls.Project3.Interleaving
import UsacSyscalls.Project3.Ownership
import UsacSyscalls.Project3.Refinement
import UsacSyscalls.Project3.WriteFrame
import UsacSyscalls.Statistics
import UsacSyscalls.Foundation.KeyedList
import UsacSyscalls.Project3.Walks
import UsacSyscalls.Project3.Commutation
import UsacSyscalls.Foundation.Monitor
import UsacSyscalls.Project2.Figures
import UsacSyscalls.Inspection.Balance
import UsacSyscalls.Inspection.AddressSpaces
import UsacSyscalls.Inspection.RcuDiscipline
import UsacSyscalls.Project2.TamallocStats
import UsacSyscalls.Project1.CacheFigure
import UsacSyscalls.Project1.DiskFigures
import UsacSyscalls.Foundation.LinkedList
import UsacSyscalls.Kernel.Heap
import UsacSyscalls.Project3.HeapCalls
import UsacSyscalls.Foundation.Protocol
import UsacSyscalls.Project3.HeapDiscipline
import UsacSyscalls.Project3.HeapInterleaving
import UsacSyscalls.Project3.HeapProgress
import UsacSyscalls.Project3.HeapRegistration
import UsacSyscalls.Foundation.Decimal
import UsacSyscalls.Userland.Isolation
import UsacSyscalls.Userland.FillTest
import UsacSyscalls.Userland.GrantLoop
import UsacSyscalls.Foundation.Interruption
import UsacSyscalls.Userland.MemoryMonitor
import UsacSyscalls.Project1.IoModule
import UsacSyscalls.Credentials.Privileges
