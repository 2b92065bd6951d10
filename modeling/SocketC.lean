import SocketC.Transition
import SocketC.Ring
import SocketC.Custody
import SocketC.Desk
import SocketC.LittleEndian
import SocketC.Merge
import SocketC.Tally
import SocketC.Buffer
import SocketC.Monitor
import SocketC.Linked
import SocketC.Priority
import SocketC.Staging
import SocketC.Sweep
import SocketC.Positional
import SocketC.UserPool
import SocketC.Handout
import SocketC.OverflowCheck
import SocketC.Wakeup
import SocketC.KernelPool
import SocketC.Ownership
import SocketC.PoolDesks
import SocketC.Statistics
import SocketC.WebClient
import SocketC.WebBooks
import SocketC.WebRuns
import SocketC.JoinDeadlock
import SocketC.WebAccounting
import SocketC.WebDistribution
import SocketC.WebJoins
import SocketC.Lines
import SocketC.Readline
import SocketC.WebRequests
import SocketC.RequestProtocol
import SocketC.GetCommand
import SocketC.ErrDoit
import SocketC.WebServer
import SocketC.ClientIsolation
import SocketC.EchoLoop
import SocketC.EchoSession
import SocketC.EchoDelivery
import SocketC.ThreadServer
import SocketC.ThreadArgument
import SocketC.ForkServer
import SocketC.ForkDescriptors
import SocketC.ForkZombies
import SocketC.AsioServer
import SocketC.AsioFaults
import SocketC.Mesg
import SocketC.MesgPipe
import SocketC.MesgChecked
import SocketC.MesgDecoder
import SocketC.Json
import SocketC.VehicleCommands
import SocketC.CommandSections
import SocketC.CommandRepeats
import SocketC.CommandDiff
import SocketC.VehicleClient
import SocketC.ClientShutdown
import SocketC.WatcherRaces
import SocketC.WatcherUpdates
import SocketC.RwLock
import SocketC.RwLockDestroy
import SocketC.RwLockWakeup
import SocketC.MessageQueue
import SocketC.MessageQueueOrder
import SocketC.MessageQueueWaits
import SocketC.MessageQueueNotify
import SocketC.ProdCons
import SocketC.Semaphore
import SocketC.NonblockingClient
import SocketC.DatagramClient
import SocketC.PassingServer
import SocketC.PassingMessages
import SocketC.SelectServer
import SocketC.StreamIO
import SocketC.InetAddress
import SocketC.InetAddress6
import SocketC.InetShorthand
import SocketC.SemaphoreOpen
