import Ccmqsrv.Foundations.Bytes
import Ccmqsrv.Foundations.OrderedMap
import Ccmqsrv.Foundations.Json
import Ccmqsrv.Foundations.JsonNumber
import Ccmqsrv.Foundations.JsonString
import Ccmqsrv.Exc
import Ccmqsrv.Foundations.JsonCodec
import Ccmqsrv.Foundations.Machine
import Ccmqsrv.RpcUtils
import Ccmqsrv.CallProxy
import Ccmqsrv.ArgumentRoundTrip
import Ccmqsrv.RequestHandling
import Ccmqsrv.Response
import Ccmqsrv.OutcomeFidelity
import Ccmqsrv.ServerRobustness
import Ccmqsrv.ReplyDelivery
import Ccmqsrv.Registrations
import Ccmqsrv.Foundations.Monitor
import Ccmqsrv.AsyncResult
import Ccmqsrv.ResultMailbox
import Ccmqsrv.Client
import Ccmqsrv.ClientInvariants
import Ccmqsrv.PendingRequests
import Ccmqsrv.CallProgress
import Ccmqsrv.ParsedValues
import Ccmqsrv.ArgumentConversion
import Ccmqsrv.MessageGrammar
import Ccmqsrv.HandlerIds
import Ccmqsrv.EventDelivery
import Ccmqsrv.ReplyHandling
import Ccmqsrv.PublishWakeup
import Ccmqsrv.CallHistory
import Ccmqsrv.ReplyReceipt
import Ccmqsrv.Network
import Ccmqsrv.Correlation
import Ccmqsrv.PublishOrder
import Ccmqsrv.ClientLocks
import Ccmqsrv.ClientLifetime
import Ccmqsrv.Endpoint
import Ccmqsrv.WaitConn
import Ccmqsrv.ClientCommands
import Ccmqsrv.ProcessSurvival
import Ccmqsrv.WorkerCalls
import Ccmqsrv.Foundations.Broker
import Ccmqsrv.Foundations.QueueBroker
import Ccmqsrv.Foundations.Conveyance
import Ccmqsrv.Foundations.Topic
import Ccmqsrv.AtMostOnce
import Ccmqsrv.MessageSafety
import Ccmqsrv.Progress
import Ccmqsrv.Foundations.RemoteCall
import Ccmqsrv.RemoteCalls
import Ccmqsrv.ReplyReturn
import Ccmqsrv.WaitingCalls
import Ccmqsrv.PublisherReturn
import Ccmqsrv.WaitingPublishers
import Ccmqsrv.EventHandling
import Ccmqsrv.LocalCalls
