import Antenna.RingSteps
import Antenna.RingRefinement
import Antenna.WakeupChecks
import Antenna.SendChecks
import Antenna.Library.Turtle
import Antenna.RoutingChecks
import Antenna.EscapeChecks
import Antenna.PropertyChecks
import Antenna.EventChecks
import Antenna.ArgumentChecks
import Antenna.AutoExport
import Antenna.ReloadChecks
import Antenna.RouterChecks
import Antenna.HandleChecks
import Antenna.WorkerLoop
import Antenna.PlatformChecks
import Antenna.WsForwarder
import Antenna.ScriptVm
import Antenna.PipelineFaults
import Antenna.EscapeFraming
import Antenna.ThemeBundle
import Antenna.SelectResults
import Antenna.ReplyChecks
import Antenna.ConstructGraph
import Antenna.EmitPump
import Antenna.ThemeResolver
import Antenna.ThemeChecks
import Antenna.DirectiveChecks
import Antenna.ValidatedOutput
import Antenna.JsonChecks
import Antenna.CompletionChecks
import Antenna.InsertAnnouncements
import Antenna.HealthChecks
import Antenna.RouterLatch
import Antenna.DagSubscriptions
import Antenna.BlocklistChecks
import Antenna.RequestChecks
import Antenna.FieldChecks
import Antenna.RequestBodies
import Antenna.Timestamps
import Antenna.ExtendsWalk
import Antenna.DirectiveStripping
import Antenna.RingTraps
import Antenna.EmitFraming
import Antenna.EmbeddedChecks
import Antenna.ScriptQueries
import Antenna.NodeProgress
import Antenna.WsLink
import Antenna.DagRuntime
import Antenna.StartupChecks
import Antenna.PipeMode
import Antenna.CarrierClient
import Antenna.ThemeRuns
import Antenna.RunLoop
import Antenna.WsProcess
