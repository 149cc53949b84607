import AwsIotSensors.Lib.Runs
import AwsIotSensors.Lib.CString
import AwsIotSensors.Lib.MachineInt
import AwsIotSensors.Lib.SlotTable
import AwsIotSensors.Lib.PlainText
import AwsIotSensors.Lib.Exceptions
import AwsIotSensors.Lib.Json
import AwsIotSensors.Lib.JsonText
import AwsIotSensors.Lib.Dict
import AwsIotSensors.Lib.Queue
import AwsIotSensors.Lib.Bc
import AwsIotSensors.Lib.Html
import AwsIotSensors.Shadow
import AwsIotSensors.Esp8266.Loop
import AwsIotSensors.Esp8266.ReconnectTimer
import AwsIotSensors.Esp8266.ClientName
import AwsIotSensors.Esp8266.Payload
import AwsIotSensors.Esp8266.Pace
import AwsIotSensors.Esp8266.Identity
import AwsIotSensors.Esp8266.Boot
import AwsIotSensors.Emcute.Api
import AwsIotSensors.Emcute.Commands
import AwsIotSensors.Emcute.Rows
import AwsIotSensors.Emcute.Table
import AwsIotSensors.Emcute.Session
import AwsIotSensors.Emcute.Unsubscribe
import AwsIotSensors.Emcute.Will
import AwsIotSensors.Emcute.Reported
import AwsIotSensors.Emcute.Residue
import AwsIotSensors.Emcute.Publications
import AwsIotSensors.Emcute.Preemption
import AwsIotSensors.Emcute.Transcript
import AwsIotSensors.Emcute.Emptying
import AwsIotSensors.RandomPub.Readings
import AwsIotSensors.RandomPub.Encoding
import AwsIotSensors.RandomPub.Publisher
import AwsIotSensors.RandomPub.Connection
import AwsIotSensors.RandomPub.Discipline
import AwsIotSensors.RandomPub.Range
import AwsIotSensors.RandomPub.Shell
import AwsIotSensors.RandomPub.Transcript
import AwsIotSensors.RandomPub.Subscriptions
import AwsIotSensors.Mosquitto.RandomPub
import AwsIotSensors.Mosquitto.Readings
import AwsIotSensors.Dashboard.Database
import AwsIotSensors.Dashboard.InPlace
import AwsIotSensors.Dashboard.Page
import AwsIotSensors.Dashboard.Polling
import AwsIotSensors.Dashboard.DeliveryOrder
import AwsIotSensors.Dashboard.Rendering
import AwsIotSensors.Dashboard.Requests
import AwsIotSensors.Dashboard.Cells
import AwsIotSensors.Dashboard.Transport
import AwsIotSensors.Dashboard.Site
import AwsIotSensors.Dashboard.CatchUp
import AwsIotSensors.Dashboard.SiteOrder
import AwsIotSensors.Dashboard.Tabs
import AwsIotSensors.Dashboard.Safety
