import YServerCore.Lib.StepMachine
import YServerCore.Lib.RWLock
import YServerCore.Lib.SwapRemove
import YServerCore.Lib.ByteMemory
import YServerCore.Lib.ByteCopy
import YServerCore.Lib.FrameStream
import YServerCore.Lib.WriteBuffer
import YServerCore.Lib.Mutexes
import YServerCore.Lib.Monitor
import YServerCore.Lib.EventLog
import YServerCore.Lib.KeyedLog
import YServerCore.Lib.TaskPool
import YServerCore.Lib.SqlText
import YServerCore.Lib.PrintfFormat
import YServerCore.Lib.Segments
import YServerCore.Lib.LineInput
import YServerCore.Lock.Lock
import YServerCore.Lock.Threads
import YServerCore.Lock.Guards
import YServerCore.Lock.Owner
import YServerCore.Lock.Reentry
import YServerCore.Lock.Misuse
import YServerCore.Lock.Instructions
import YServerCore.Lock.Interleavings
import YServerCore.Registry.SessionManager
import YServerCore.Registry.Positions
import YServerCore.Packet.PacketDataStructure
import YServerCore.Packet.PacketProcess
import YServerCore.Receive.OnRecv
import YServerCore.Receive.Framing
import YServerCore.Receive.Bounds
import YServerCore.Receive.StaleBytes
import YServerCore.Receive.KeptBytes
import YServerCore.Receive.Representation
import YServerCore.Receive.Progress
import YServerCore.Receive.FrontRun
import YServerCore.Receive.Compaction
import YServerCore.Send.SendPacket
import YServerCore.Send.Broadcast
import YServerCore.Send.Overlapped
import YServerCore.Send.SelfWait
import YServerCore.Send.LockOrder
import YServerCore.Send.Room
import YServerCore.Send.Joining
import YServerCore.Send.Outcomes
import YServerCore.Send.EmptyPosts
import YServerCore.Requests.Handlers
import YServerCore.Requests.Server
import YServerCore.Requests.Identity
import YServerCore.Requests.Objects
import YServerCore.Requests.Passwords
import YServerCore.Requests.Order
import YServerCore.Requests.TextFields
import YServerCore.Database.Statements
import YServerCore.Database.Queries
import YServerCore.Database.Accounts
import YServerCore.Requests.Replies
import YServerCore.Requests.ReplyMemory
import YServerCore.Requests.Wire
import YServerCore.Requests.Failures
import YServerCore.Requests.FormatStrings
import YServerCore.Network.Completions
import YServerCore.Network.Lifetime
import YServerCore.Network.Workers
import YServerCore.Network.History
import YServerCore.Network.Dispatching
import YServerCore.Network.Serving
import YServerCore.Network.Chats
import YServerCore.Network.Relaying
import YServerCore.Thread.Thread
import YServerCore.Thread.DataQueue
import YServerCore.Thread.Sleeping
import YServerCore.Client.RecieveWork
import YServerCore.Client.Loop
import YServerCore.Client.SendToServer
import YServerCore.Client.Main
import YServerCore.Client.Agreement
import YServerCore.Client.FailedReceive
import YServerCore.Server.Main
import YServerCore.Server.Progress
import YServerCore.Server.Program
