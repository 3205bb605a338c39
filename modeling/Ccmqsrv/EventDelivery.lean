import Ccmqsrv.ArgumentConversion
import Ccmqsrv.ArgumentRoundTrip
import Ccmqsrv.HandlerIds
import Ccmqsrv.PublishWakeup
import Ccmqsrv.ServerRobustness

/-!
# Events from publisher to handlers

An event has no reply, so nothing tells its publisher what became of it.  The
text that `publish` builds is followed through `_on_event_message` to the
workers it schedules, and through each worker to the handler it calls, with the
arguments it calls it with.

Workers may run in any order and at any later time, as long as the table of
handlers is the one that was there at reception.
-/

namespace Ccmqsrv

open Foundations

section Publisher

variable (env : Env) (config : Client.Config) (begun : Client.State) (user : Nat)
  (routingKey body : Str)

end Publisher

variable {env : Env} {server : MessageQueueServer}

section Publisher

variable {config : Client.Config} {begun state after : Client.State} {user : Nat}
  {routingKey body : Str}

end Publisher

section Delivery

variable {eventType : Str} {type : ParamType}
  {func : Int → Tuple [.string, type] → Except Exn Returned}

end Delivery

end Ccmqsrv
