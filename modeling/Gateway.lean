import Gateway.Schemes.Lts
import Gateway.Schemes.Flag
import Gateway.Schemes.Since
import Gateway.Schemes.Latest
import Gateway.Schemes.Descriptors
import Gateway.Schemes.Multipart
import Gateway.Schemes.Pairs
import Gateway.Schemes.Numeral
import Gateway.Schemes.Decimal
import Gateway.Schemes.Separated
import Gateway.Schemes.Serial
import Gateway.Schemes.Regex
import Gateway.Util.Incomplete
import Gateway.Model.Ids
import Gateway.Core.Command
import Gateway.Core.Answer
import Gateway.Core.Dispatcher
import Gateway.Core.Refusal
import Gateway.Core.Notification
import Gateway.Core.StatusChanges
import Gateway.Model.Base
import Gateway.Model.Sample
import Gateway.Zmq.DeviceManagerTable
import Gateway.Zmq.Handle
import Gateway.Zmq.Message
import Gateway.Zmq.RoundTrip
import Gateway.Zmq.ResultRoundTrip
import Gateway.Zmq.Hello
import Gateway.Zmq.Requests
import Gateway.Zmq.Replies
import Gateway.Zmq.Owners
import Gateway.Zmq.Broker
import Gateway.Zmq.SettingTable
import Gateway.Zmq.DefaultResults
import Gateway.Zmq.UnknownIds
import Gateway.Zmq.DataSocket
import Gateway.Zmq.Routing
import Gateway.Zmq.Wire
import Gateway.Zmq.Frames
import Gateway.Zmq.Inbound
import Gateway.Zmq.Client
import Gateway.Zmq.Handshake
import Gateway.Managers.Listening
import Gateway.Managers.DeviceManager
import Gateway.Managers.Matching
import Gateway.Managers.CheckQueue
import Gateway.Managers.Publication
import Gateway.ZWave.NotificationProcessor
import Gateway.ZWave.Waiting
import Gateway.ZWave.Factory
import Gateway.ZWave.Actuators
import Gateway.ZWave.Extraction
import Gateway.ZWave.Detection
import Gateway.Managers.Batch
import Gateway.Managers.Mismatch
import Gateway.Managers.LastState
import Gateway.Jablotron.Parser
import Gateway.Jablotron.Temperature
import Gateway.Jablotron.Events
import Gateway.Jablotron.Retransmission
import Gateway.Jablotron.Switch
import Gateway.Jablotron.Framing
import Gateway.Jablotron.SerialControl
import Gateway.Jablotron.Ownership
import Gateway.Jablotron.Scan
import Gateway.Jablotron.DeviceTypes
import Gateway.Managers.Receiving
import Gateway.Managers.Commanded
import Gateway.Managers.Performing
import Gateway.Exporters.NamedPipe
import Gateway.Exporters.Shipping
import Gateway.Managers.Origin
import Gateway.Zmq.Origin
import Gateway.Zmq.FakeHandlerTest
import Gateway.Zmq.HandlerTasks
import Gateway.Zmq.HandlerReplies
import Gateway.System.Network
import Gateway.System.Exchange
import Gateway.System.Serving
import Gateway.System.Delivery
import Gateway.System.Commands
import Gateway.Util.CSV
import Gateway.Exporters.Stream
import Gateway.Core.Distributor
import Gateway.Core.VirtualSensor
import Gateway.System.Sensors
import Gateway.Zmq.Reports
import Gateway.Jablotron.Run
import Gateway.ZWave.Reports
import Gateway.System.Reporting
import Gateway.System.Unanswered
