import Ccmqsrv.Network
import Ccmqsrv.ReplyDelivery

/-!
# Requests and their replies

Every value that a call returns comes from a reply that the server made of the
request of that very call, in every run.  A reply to a call that waits for it
is received in every run in which no call erases its entry while the event
loop is between looking it up and storing the reply.  A second reply to the
same call, or a wait that ends by itself, can bring the loop there: it then
makes an empty entry and uses it.
-/

namespace Ccmqsrv

open Foundations

namespace Network

/-- A reply to a call that has sent its request and has not come out of `get`
finds the entry of the call, and is received. -/
def ReceivesReplies (env : Env) (client : Client.State) : Prop :=
  ∀ before response found later call message,
    client.history = before ++ .delivered response found :: later →
      .sent call message ∈ before → call.id = response.correlationID →
        .left call.id ∉ before → found = true ∧ Client.Received env client later response

/-- The value was read from a reply to the request of this call on this
client, and to no other request. -/
structure OwnReply (env : Env) (configs : Nat → Client.Config) (state : State) (index : Nat)
    (call : Client.Call) (value : Json) (body : Str) (envelope : Envelope) : Prop where
  encoded : rpcEncodeReq env call.id call.meth call.args = .ok body
  sent : .sent call (Client.requestMessage (configs index) call body) ∈
    (state.clients index).history
  published : envelope ∈ state.server.published
  replies : Replies env state.tables (Client.requestMessage (configs index) call body) envelope
  calledFor : (∀ argument ∈ call.args, argument.WellFormed) →
    CalledFor env state.tables (Client.requestMessage (configs index) call body) call.meth
      ((call.args.map Json.scrub).map parseJsonElement) envelope
  delivered : .delivered (responseOf envelope) true ∈ (state.clients index).history
  routed : envelope.routingKey = (configs index).callbackQueue
  addressed : envelope.correlationID = call.id
  read : callOutcome env envelope.body = .ok value
  noOther : ∀ other otherCall message,
    .sent otherCall message ∈ (state.clients other).history →
      Replies env state.tables message envelope → other = index ∧ otherCall = call

/-- Requests and replies are correlated on every client. -/
structure Correlated (env : Env) (configs : Nat → Client.Config) (state : State) : Prop where
  receives : ∀ index, ReceivesReplies env (state.clients index)
  returned : ∀ index call value, .ended call (.ok value) ∈ (state.clients index).history →
    ∃ body envelope, OwnReply env configs state index call value body envelope

/-- No call erases its entry while the event loop of its client is handling a
reply to it. -/
def ErasedAtRest (state : State) (action : Action) : Prop :=
  ∀ index clientAction, action = .client index clientAction →
    Client.ErasedAtRest (state.clients index) clientAction

variable {env : Env} {configs : Nat → Client.Config} {state : State}

/-- Two requests with one id are the request of one call on one client. -/
theorem sameCall (lawful : env.json.Lawful)
    (reachable : (machine env configs).Reachable state) {index other : Nat}
    {call otherCall : Client.Call} {message otherMessage : Message}
    (sent : .sent call message ∈ (state.clients index).history)
    (otherSent : .sent otherCall otherMessage ∈ (state.clients other).history)
    (sameId : otherCall.id = call.id) : other = index ∧ otherCall = call := by
  have linked := linked_of_reachable reachable
  have told := Client.callsTold_of_reachable lawful (client_reachable reachable index)
  have otherTold := Client.callsTold_of_reachable lawful (client_reachable reachable other)
  have known : Client.Known (state.clients index) call := Or.inr ⟨message, sent⟩
  have otherKnown : Client.Known (state.clients other) otherCall := Or.inr ⟨otherMessage, otherSent⟩
  have generated := told.ownIds.generated call known
  have otherGenerated := otherTold.ownIds.generated otherCall otherKnown
  rw [sameId] at otherGenerated
  have sameClient := linked.apart other index call.id otherGenerated generated
  subst sameClient
  exact ⟨rfl, told.ownIds.unique otherCall call otherKnown known sameId⟩

/-- A message that was sent has the id of its call. -/
theorem correlationID_of_sent (lawful : env.json.Lawful)
    (reachable : (machine env configs).Reachable state) {index : Nat} {call : Client.Call}
    {message : Message} (sent : .sent call message ∈ (state.clients index).history) :
    message.correlationID = call.id := by
  have told := Client.callsTold_of_reachable lawful (client_reachable reachable index)
  obtain ⟨body, _, rfl⟩ := told.encoded call message sent
  rfl

/-- A message that was sent is read as the request of its call. -/
theorem isRequest_of_sent (lawful : env.json.Lawful)
    (reachable : (machine env configs).Reachable state) {index : Nat} {call : Client.Call}
    {message : Message} (wellFormed : ∀ argument ∈ call.args, argument.WellFormed)
    (sent : .sent call message ∈ (state.clients index).history) :
    IsRequest env message call.meth (call.args.map Json.scrub) [] := by
  have told := Client.callsTold_of_reachable lawful (client_reachable reachable index)
  obtain ⟨body, encoded, rfl⟩ := told.encoded call message sent
  exact parse_of_rpcEncodeReq lawful wellFormed encoded

/-- Every value that a call returned comes from its own reply. -/
theorem returned_of_reachable (lawful : env.json.Lawful)
    (reachable : (machine env configs).Reachable state) {index : Nat} {call : Client.Call}
    {value : Json} (ended : .ended call (.ok value) ∈ (state.clients index).history) :
    ∃ body envelope, OwnReply env configs state index call value body envelope := by
  have linked := linked_of_reachable reachable
  have clientReachable := client_reachable reachable index
  have told := Client.callsTold_of_reachable lawful clientReachable
  obtain ⟨⟨message, sent⟩, ret, stored, finished⟩ := told.returned call value ended
  obtain ⟨response, delivered, sameId, decoded⟩ :=
    (Client.storedDecoded_of_reachable clientReachable).stored call.id ret stored
  obtain ⟨envelope, published, routed, rfl⟩ := linked.delivered index response true delivered
  obtain ⟨asked, ⟨asker, askerCall, askerSent⟩, replies⟩ :=
    linked.attributed.published envelope published
  obtain ⟨_, toId, _⟩ := replies.sent lawful
  have askerId : askerCall.id = call.id :=
    calc
      askerCall.id = asked.correlationID := (correlationID_of_sent lawful reachable askerSent).symm
      _ = envelope.correlationID := toId.symm
      _ = call.id := sameId
  obtain ⟨rfl, rfl⟩ := sameCall lawful reachable sent askerSent askerId
  obtain ⟨body, encoded, rfl⟩ := told.encoded askerCall asked askerSent
  refine ⟨body, envelope, encoded, askerSent, published, replies, ?_, delivered, routed, sameId,
    ?_, ?_⟩
  · intro wellFormed
    exact replies.calledFor lawful (parse_of_rpcEncodeReq lawful wellFormed encoded)
  · unfold callOutcome
    have decodedBody : decodeResponse env envelope.body = .ok ret := decoded
    rw [decodedBody, ok_bind]
    exact finished
  · intro other otherCall otherMessage otherSent otherReplies
    obtain ⟨_, toOther, _⟩ := otherReplies.sent lawful
    have otherId : otherCall.id = askerCall.id :=
      calc
        otherCall.id = otherMessage.correlationID :=
          (correlationID_of_sent lawful reachable otherSent).symm
        _ = envelope.correlationID := toOther.symm
        _ = askerCall.id := sameId
    exact sameCall lawful reachable askerSent otherSent otherId

/-- Requests and replies are correlated in every run in which entries are
erased at rest. -/
theorem correlated_of_run (lawful : env.json.Lawful) {trace : List Action}
    (run : (machine env configs).Run ErasedAtRest trace state) :
    Correlated env configs state := by
  constructor
  · intro index before response found later call message split sent sameId notLeft
    have finds := Client.findsEntry_of_reachable lawful (client_reachable run.reachable index)
    have isFound := finds before response found later call message split sent sameId notLeft
    refine ⟨isFound, ?_⟩
    rw [isFound] at split
    have granted : ∃ clientTrace, (Client.machine env (configs index)).Run
        (Client.RepliesAtRest env) clientTrace (state.clients index) := by
      refine clientRun ?_ ?_ run index
      · intro _ _ _ atRest notDelivery
        exact ⟨fun response same => absurd same (notDelivery response), atRest _ _ rfl⟩
      · intro _ _ envelope linked published
        obtain ⟨asked, _, replies⟩ := linked.attributed.published envelope published
        obtain ⟨_, _, decodes⟩ := replies.sent lawful
        constructor
        · intro response same
          cases same
          exact decodes
        · intro user call ret impossible
          cases impossible
    obtain ⟨clientTrace, clientRun⟩ := granted
    exact Client.foundReceived_of_run clientRun before response later split
  · intro index call value ended
    exact returned_of_reachable lawful run.reachable ended

/-- `ErasedAtRest`, computed. -/
def erasedAtRest (state : State) : Action → Bool
  | .client index (.advance (.user user)) =>
      match (state.clients index).users user with
      | .call call (.erase _) => !(state.clients index).loop.handles call.id
      | _ => true
  | _ => true

theorem erasedAtRest_sound (state : State) (action : Action)
    (passed : erasedAtRest state action = true) : ErasedAtRest state action := by
  intro index clientAction sameAction user call ret sameClientAction erasing handles
  subst sameAction
  subst sameClientAction
  simp only [erasedAtRest, erasing, Bool.not_eq_true'] at passed
  rw [Client.LoopPoint.handles_iff.mpr handles] at passed
  cases passed

/-- The reply of a function without a result to the request of `plainRequest`. -/
def plainEnvelope : Envelope where
  routingKey := ascii "cbq-1"
  correlationID := ascii "corr-1"
  body := ascii "[1,\"corr-1\",\"\",0]"

/-- A call that waits, whose reply has been published and stored. -/
def repliedCall : List Action :=
  .server (.registerRpc (ascii "f") Server.doNothing) :: Client.sentCall.map (.client 0) ++
    [.request 0 plainRequest, .server (.work 0), .server (.work 0), .server (.work 0),
      .reply 0 plainEnvelope, .client 0 (.advance .loop), .client 0 (.advance .loop),
      .client 0 (.advance .loop), .client 0 (.store (some (.user 0)))]

/-- The event is the end of a call that returned a value. -/
def returnsValue : Client.Event → Bool
  | .ended _ outcome => outcome.isOk
  | _ => false

theorem correlated_repliedCall :
    ∃ state, (machine ⟨codec, false⟩ fun _ => Client.exampleConfig).Run ErasedAtRest
        (repliedCall ++ .client 0 (.wake 0 .noTimeout) ::
          List.replicate 5 (.client 0 (.advance (.user 0)))) state ∧
      Correlated ⟨codec, false⟩ (fun _ => Client.exampleConfig) state ∧
        (state.clients 0).history.any returnsValue = true := by
  have passed : (((machine ⟨codec, false⟩ fun _ => Client.exampleConfig).execWhile erasedAtRest
      (repliedCall ++ .client 0 (.wake 0 .noTimeout) ::
        List.replicate 5 (.client 0 (.advance (.user 0))))
      (machine ⟨codec, false⟩ fun _ => Client.exampleConfig).init).any fun state =>
        (state.clients 0).history.any returnsValue) = true := by
    decide +kernel
  obtain ⟨state, run, returns⟩ := Machine.Run.of_execWhile_any erasedAtRest_sound passed
  have lawful : (Env.mk codec false).json.Lawful := codec_lawful
  exact ⟨state, run, correlated_of_run lawful run, returns⟩

/-- The event is the request of the call with this id. -/
def requests (id : Str) : Client.Event → Bool
  | .sent call _ => decide (call.id = id)
  | _ => false

/-- The call with this id comes out of `get` in the event. -/
def leaves (id : Str) : Client.Event → Bool
  | .left other => decide (other = id)
  | _ => false

/-- The history goes on with a reply to a call that waits, the call leaves, and
the client has failed. -/
def missed (client : Client.State) (place : Nat) : Bool :=
  match client.history.drop place with
  | [.delivered response _, .left _] =>
      client.fault.isSome && (client.history.take place).any (requests response.correlationID) &&
        !(client.history.take place).any (leaves response.correlationID)
  | _ => false

theorem missed_sound {client : Client.State} {place : Nat} (isMissed : missed client place = true) :
    ¬ ReceivesReplies env client := by
  intro receives
  unfold missed at isMissed
  split at isMissed
  · rename_i response found left rest
    rw [Bool.and_eq_true, Bool.and_eq_true, Bool.not_eq_true'] at isMissed
    obtain ⟨⟨failed, asked⟩, notLeft⟩ := isMissed
    have split : client.history = client.history.take place ++
        .delivered response found :: [.left left] := by
      rw [← rest]
      exact (List.take_append_drop place client.history).symm
    obtain ⟨event, member, isRequest⟩ := List.any_eq_true.mp asked
    cases event with
    | sent call message =>
        have sameId : call.id = response.correlationID := of_decide_eq_true isRequest
        have waiting : .left call.id ∉ client.history.take place := by
          intro gone
          have seen := List.any_eq_false.mp notLeft _ gone
          exact seen (decide_eq_true sameId)
        obtain ⟨_, received⟩ := receives _ response found _ call message split member sameId waiting
        rcases received with ⟨result, _, stored⟩ | ⟨alive, _⟩
        · cases List.mem_singleton.mp stored
        · rw [alive] at failed
          cases failed
    | _ => cases isRequest
  · cases isMissed

/-- A second reply to a call that is about to come out of `get` is found, and
the entry is gone when it is to be stored. -/
theorem not_correlated_repliedTwice :
    ¬ ∀ (trace : List Action) (state : State),
      (machine ⟨codec, false⟩ fun _ => Client.exampleConfig).Run Machine.always trace state →
        Correlated ⟨codec, false⟩ (fun _ => Client.exampleConfig) state := by
  intro correlated
  have reached : (((machine ⟨codec, false⟩ fun _ => Client.exampleConfig).exec
      (repliedCall ++ .reply 0 plainEnvelope :: .client 0 (.wake 0 .noTimeout) ::
        (List.replicate 4 (.client 0 (.advance (.user 0))) ++
          List.replicate 2 (.client 0 (.advance .loop))))
      (machine ⟨codec, false⟩ fun _ => Client.exampleConfig).init).any fun state =>
        missed (state.clients 0) 3) = true := by
    decide +kernel
  obtain ⟨state, run, isMissed⟩ := Machine.Run.of_exec_any (fun _ _ _ => trivial) reached
  exact missed_sound isMissed ((correlated _ state run).receives 0)

end Network

end Ccmqsrv
