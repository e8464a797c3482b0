import BbbEth.Cpsw.Tx.Polled
import BbbEth.Cpsw.Tx.Balance
import BbbEth.Cpsw.Tx.WakeUp
import BbbEth.Cpsw.Rx.Accounts
import BbbEth.Mmc.Teardown
import BbbEth.Mmc.Attribution
import BbbEth.Mmc.Eviction
import BbbEth.Cpsw.Rx.Eviction
import BbbEth.Console.Editor
import BbbEth.Console.Directory
import BbbEth.Console.Cat
import BbbEth.Echo.Fidelity
import BbbEth.MainLoop.Keystroke
import BbbEth.MainLoop.UdpLog
import BbbEth.Console.Grammar
import BbbEth.Console.Mount
import BbbEth.Console.Bounds
import BbbEth.Console.Protection
import BbbEth.Console.Failure
import BbbEth.Cpsw.Ale.Unique
import BbbEth.Edma.Isolation
import BbbEth.Libc.Expansion
import BbbEth.Mmc.Clock
import BbbEth.Mmc.Speed
import BbbEth.Mmc.Capacity
import BbbEth.Mmc.Plan
import BbbEth.Mmc.Wait
import BbbEth.Libc.Division
import BbbEth.Udp.Transmit
import BbbEth.Mmu.PageTable
import BbbEth.Cp15.Lines
import BbbEth.Edma.Errors
import BbbEth.Edma.Routing
import BbbEth.Irq.Dispatch
import BbbEth.Cpsw.Ale.Multicast
import BbbEth.Cpsw.Ale.Vlan
import BbbEth.Cpsw.Switch.Configuration
import BbbEth.Cpsw.Phy.Selection
import BbbEth.Irq.Reentry
import BbbEth.FatFs.Clock
import BbbEth.FatFs.Consistency
import BbbEth.Udp.Locator
import BbbEth.Cpsw.Switch.Fields
import BbbEth.Mmc.Polling
import BbbEth.Libc.Objects
import BbbEth.FatFs.File
import BbbEth.FatFs.Content
import BbbEth.FatFs.Disk
import BbbEth.FatFs.Files
import BbbEth.FatFs.Service
import BbbEth.FatFs.Spent
import BbbEth.FatFs.Calls
