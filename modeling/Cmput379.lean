import Cmput379.Lib.Run
import Cmput379.Lib.Progress
import Cmput379.Lib.RemoteCache
import Cmput379.Lib.Monitor
import Cmput379.Lib.SharedCell
import Cmput379.Sdn.Packet
import Cmput379.Sdn.Codec
import Cmput379.Sdn.Traffic
import Cmput379.Sdn.Switch
import Cmput379.Sdn.Controller
import Cmput379.Sdn.Buffer
import Cmput379.Sdn.Fifo
import Cmput379.Sdn.Network
import Cmput379.Sdn.Effects
import Cmput379.Sdn.Steps
import Cmput379.Sdn.SwitchSteps
import Cmput379.Sdn.Invariant
import Cmput379.Sdn.StopAndWait
import Cmput379.Sdn.Ledger
import Cmput379.Sdn.FlowTable
import Cmput379.Sdn.Decision
import Cmput379.Sdn.RelayPort
import Cmput379.Sdn.Replay
import Cmput379.Sdn.Progress
import Cmput379.Sdn.Trail
import Cmput379.Sdn.Header
import Cmput379.Sdn.Line
import Cmput379.Sdn.Relaying
import Cmput379.Sdn.Descriptors
import Cmput379.Sdn.Handling
import Cmput379.Sdn.Reconnect
import Cmput379.Sdn.SwitchLoop
import Cmput379.Sdn.Conservation
import Cmput379.Sdn.LivePorts
import Cmput379.Sdn.ControllerLoop
import Cmput379.Sdn.Slots
import Cmput379.Sdn.Counters
import Cmput379.Sdn.Balance
import Cmput379.Sdn.Malformed
import Cmput379.Sdn.TrafficGrammar
import Cmput379.Sdn.IpRange
import Cmput379.Sdn.Main
import Cmput379.Prodcon.Machine
import Cmput379.Prodcon.Moves
import Cmput379.Prodcon.Threads
import Cmput379.Prodcon.Wakeup
import Cmput379.Prodcon.Accounts
import Cmput379.Prodcon.Queue
import Cmput379.Prodcon.Completion
import Cmput379.Prodcon.Termination
import Cmput379.Prodcon.Summary
import Cmput379.Prodcon.Log
import Cmput379.Msh379.Shell
import Cmput379.Msh379.Survivors
import Cmput379.Msh379.Kills
import Cmput379.Msh379.Tasks
import Cmput379.Msh379.Limit
import Cmput379.Lib.Forest
import Cmput379.Lib.Lines
import Cmput379.Msh379.Check
import Cmput379.Msh379.Descendants
import Cmput379.Msh379.Rows
import Cmput379.Msh379.Output
import Cmput379.Shell379.Shell
import Cmput379.Shell379.ProcessTable
import Cmput379.Shell379.Signals
import Cmput379.Shell379.Child
import Cmput379.Shell379.Lines
import Cmput379.Shell379.Limit
import Cmput379.Lib.Tally
import Cmput379.Transactions.Server
import Cmput379.Transactions.Accounts
import Cmput379.Transactions.Rounds
import Cmput379.Transactions.Summary
import Cmput379.Transactions.Turns
import Cmput379.Transactions.Slots
import Cmput379.Transactions.Completion
import Cmput379.Transactions.Buffer
import Cmput379.Transactions.FailedReads
import Cmput379.A3w22.Master
import Cmput379.A3w22.Switch
import Cmput379.A3w22.Answers
import Cmput379.A3w22.SwitchLoop
import Cmput379.A3w22.OwnLines
import Cmput379.A3w22.Wedge
import Cmput379.A3w22.MasterLoop
import Cmput379.Lib.Framing
import Cmput379.A2w22.Messages
import Cmput379.A2w22.Controller
import Cmput379.A2w22.Switch
import Cmput379.A2w22.Network
import Cmput379.A2w22.Balance
import Cmput379.A2w22.AsSent
import Cmput379.A2w22.Delivery
import Cmput379.A2w22.Forwarding
import Cmput379.A2w22.SwitchLoop
import Cmput379.A2w22.Conservation
import Cmput379.A2w22.Dropped
import Cmput379.A2w22.Duplicates
import Cmput379.A2w22.TrafficFile
