import SocketProgram.Library.Runs
import SocketProgram.Library.Pipe
import SocketProgram.Library.Memory
import SocketProgram.Library.Source
import SocketProgram.Library.Frames
import SocketProgram.Library.FirstFit
import SocketProgram.Library.Blocks
import SocketProgram.Library.Ledger
import SocketProgram.Library.Interrupts
import SocketProgram.Library.OnesComplement
import SocketProgram.Library.Words
import SocketProgram.Library.Ring
import SocketProgram.Library.Descriptors
import SocketProgram.Library.Repeats
import SocketProgram.Library.Progress
import SocketProgram.Library.Workers
import SocketProgram.Library.Heap
import SocketProgram.Library.Printf
import SocketProgram.Kernel
import SocketProgram.Readline
import SocketProgram.ReadlineDescriptors
import SocketProgram.ThreadReadline
import SocketProgram.Transfer
import SocketProgram.Framing
import SocketProgram.Stdio
import SocketProgram.ReadlineLaw
import SocketProgram.EchoSystem
import SocketProgram.EchoDeadlock
import SocketProgram.BroadcastAlarm
import SocketProgram.BroadcastJump
import SocketProgram.BroadcastPipe
import SocketProgram.BroadcastPselect
import SocketProgram.UdpTimeout
import SocketProgram.ChildReaping
import SocketProgram.Heartbeat
import SocketProgram.PollServer
import SocketProgram.PollServerScan
import SocketProgram.SigioServer
import SocketProgram.SigioServerWakeups
import SocketProgram.SigioServerOverflow
import SocketProgram.SigioServerFailures
import SocketProgram.SigioServerMask
import SocketProgram.InCksum
import SocketProgram.InterfaceSizing
import SocketProgram.InterfaceWalk
import SocketProgram.InterfaceAliases
import SocketProgram.UdpWrite
import SocketProgram.UdpEcho
import SocketProgram.UdpRead
import SocketProgram.TcpUdpServer
import SocketProgram.TestUdp
import SocketProgram.ConnectTimeo
import SocketProgram.DaemonInit
import SocketProgram.DaytimeClient
import SocketProgram.DnsQuery
import SocketProgram.Ping
import SocketProgram.PingBounds
import SocketProgram.PingLoop
import SocketProgram.PingV6
import SocketProgram.Checksum
import SocketProgram.Traceroute
import SocketProgram.TracerouteAlarm
import SocketProgram.TracerouteV6
import SocketProgram.TracerouteSchedule
import SocketProgram.SelectServer
import SocketProgram.SelectServerScan
import SocketProgram.SelectServerShortcuts
import SocketProgram.SelectServerFailures
import SocketProgram.SelectServerEcho
import SocketProgram.SelectServerCapacity
import SocketProgram.SelectClient
import SocketProgram.SelectClientStdio
import SocketProgram.SapLoop
import SocketProgram.Mycat
import SocketProgram.MyOpen
import SocketProgram.NonblockClient
import SocketProgram.NonblockClientRuns
import SocketProgram.NonblockClientStall
import SocketProgram.WrittenLaw
import SocketProgram.StrEcho
import SocketProgram.ReadlineBuf
import SocketProgram.InterfaceRetries
import SocketProgram.ConnectNonb
import SocketProgram.StrCliPrints
import SocketProgram.KqueueClient
import SocketProgram.ThreadClient
import SocketProgram.ForkServer
import SocketProgram.ThreadServer
import SocketProgram.ThreadServerCells
import SocketProgram.InterfaceList
