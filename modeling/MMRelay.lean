import MMRelay.Lib.Run
import MMRelay.Queue.Latch
import MMRelay.Queue.Orderly
import MMRelay.Queue.Fifo
import MMRelay.Mesh.Confinement
import MMRelay.Matrix.Bound
import MMRelay.Matrix.Echo
import MMRelay.Names.Convergence
import MMRelay.Names.Order
import MMRelay.Lib.Escape
import MMRelay.Names.Shuffle
import MMRelay.Names.Faults
import MMRelay.Loader.Install
import MMRelay.Schema.Preserve
import MMRelay.Migrate.NoLoss
import MMRelay.MessageMap.Retention
import MMRelay.Database.Close
import MMRelay.Database.Deadlock
import MMRelay.Radio.Reconnect
import MMRelay.Radio.Skew
import MMRelay.Radio.Identity
import MMRelay.Radio.Drain
import MMRelay.Radio.Retry
import MMRelay.Radio.Accounted
import MMRelay.Relay.Agreement
import MMRelay.Lib.Frame
import MMRelay.Migrate.Footprint
import MMRelay.Migrate.Plan
import MMRelay.Migrate.Locality
import MMRelay.Lib.Trees
import MMRelay.Matrix.BotUser
import MMRelay.Matrix.Fidelity
import MMRelay.Matrix.Claimed
import MMRelay.Lib.Retransmit
import MMRelay.Matrix.Send
import MMRelay.Plugins.MeshRelay
import MMRelay.Executor.DaemonSafe
import MMRelay.Executor.Probe
import MMRelay.Plugins.Drop
import MMRelay.Loader.Repository
import MMRelay.Loader.Checkout
import MMRelay.Commands.Bang
import MMRelay.Commands.Mention
import MMRelay.Commands.Content
import MMRelay.Commands.Authentic
import MMRelay.Commands.Mesh
import MMRelay.Lib.Alike
import MMRelay.Mesh.Ports
import MMRelay.Queue.RateLimit
import MMRelay.Lib.Counted
import MMRelay.Lib.Exact
import MMRelay.Migrate.Prepared
import MMRelay.Migrate.Preparable
import MMRelay.Migrate.Replaced
import MMRelay.Migrate.Foretold
import MMRelay.Bridge.Thread
import MMRelay.Loader.Policy
import MMRelay.Executor.BleSafe
import MMRelay.Matrix.Rooms
import MMRelay.Plugins.NodeData
import MMRelay.Loader.Pin
import MMRelay.Plugins.Lifecycle
import MMRelay.Config.Env
import MMRelay.Config.Check
import MMRelay.Config.Served
import MMRelay.Main.Ready
import MMRelay.Session.Login
