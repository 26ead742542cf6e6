import Tempio.EndToEnd.Attribution
import Tempio.EndToEnd.CommandAck
import Tempio.EndToEnd.CommandId
import Tempio.EndToEnd.CommandPath
import Tempio.EndToEnd.Deployment
import Tempio.EndToEnd.HubAddress
import Tempio.EndToEnd.HubStatus
import Tempio.EndToEnd.Notifications
import Tempio.EndToEnd.Provenance
import Tempio.EndToEnd.Readings
import Tempio.EndToEnd.ReportPath
import Tempio.Hub.AckBacklog
import Tempio.Hub.AddressPlace
import Tempio.Hub.ConnectionSlots
import Tempio.Hub.Discovery
import Tempio.Hub.Expiry
import Tempio.Hub.FlushSteps
import Tempio.Hub.IrTiming
import Tempio.Hub.NodeTypes
import Tempio.Hub.OneCopy
import Tempio.Hub.OneQueue
import Tempio.Hub.Order
import Tempio.Hub.PoolCalls
import Tempio.Hub.PoolRoom
import Tempio.Hub.QueueCalls
import Tempio.Hub.Rest
import Tempio.Hub.TimedPool
import Tempio.Hub.WifiManager
import Tempio.Sensor.Awake
import Tempio.Sensor.Durable
import Tempio.Sensor.StateCalls
import Tempio.Server.AckLog
import Tempio.Server.AllOrNothing
import Tempio.Server.Dashboard
import Tempio.Server.LogLifeCycle
import Tempio.Server.ReportStore
import Tempio.Server.Routes
import Tempio.Server.Settlement
import Tempio.Server.Subscriber
