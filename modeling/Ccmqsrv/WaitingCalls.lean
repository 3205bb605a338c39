import Ccmqsrv.Progress
import Ccmqsrv.ReplyReturn

/-!
# A call that waits can return

While a call is blocked in `get`, its request is answered as any other.  The
event loop of its client then takes the replies from the callback queue one
after the other, stores them, and so comes to the reply of the call.
-/

namespace Ccmqsrv

open Foundations

namespace Deployment

/-- Steps of the broker, of the workers, of the event loop of the client and of
the caller. -/
def Receiving (index user : Nat) (state : State) : Action → Prop
  | .client other action =>
      other = index ∧ Client.Receives user (state.parties.clients index) action
  | .reply other => other = index
  | action => Serving state action

/-- A call of a running client is blocked in `get`, and the client consumes its
callback queue. -/
structure WaitsAt (env : Env) (site : Site) (index user : Nat) (call : Client.Call)
    (state : State) : Prop where
  run : ∃ trace, (machine env site).Run (Addressed site) trace state
  running : state.running index = true
  waits : Client.Waits env (site.config index) user call (state.parties.clients index)
  consumes : state.traffic.broker.Done (.client index)
    (.consume (site.callbackQueue index) true)

variable {env : Env} {site : Site} {state after : State} {action : Action} {index user : Nat}
  {call : Client.Call} {parcel : Parcel}

theorem addressed_of_receiving (receiving : Receiving index user state action) :
    Addressed site state action := by
  cases action with
  | client other action =>
      cases action with
      | call caller routingKey meth args uuid => exact False.elim receiving.2
      | publish publisher routingKey evtType eventData => exact False.elim receiving.2
      | _ => trivial
  | _ => trivial

theorem receiving_of_serving (serving : Serving state action) :
    Receiving index user state action := by
  cases action with
  | client other action => exact False.elim serving
  | reply other => exact False.elim serving
  | _ => exact serving

section Client

/-- Broker and server are as before. -/
structure Beside (state later : State) : Prop where
  traffic : later.traffic = state.traffic
  running : later.running = state.running
  server : later.parties.server = state.parties.server

/-- Steps that need nothing from without: no call, no event, no message and no
confirmation. -/
def Inward : Client.Action → Prop
  | .advance _ => True
  | .store _ => True
  | .wake _ _ => True
  | .wakePublisher _ => True
  | _ => False

theorem inward_of_receives {client : Client.State} {clientAction : Client.Action}
    (receives : Client.Receives user client clientAction) : Inward clientAction := by
  cases clientAction with
  | advance thread => trivial
  | store notified => trivial
  | wake other status => trivial
  | _ => exact False.elim receives

/-- What the client does by itself it does at its site. -/
theorem leads_client {goes : Client.State → Client.Action → Prop}
    {guard : State → Action → Prop} {client : Client.State} (running : state.running index = true)
    (inward : ∀ {client clientAction}, goes client clientAction → Inward clientAction)
    (allows : ∀ {later clientAction}, goes (later.parties.clients index) clientAction →
      guard later (.client index clientAction))
    (leads : (Client.machine env (site.config index)).Leads goes
      (state.parties.clients index) client) :
    ∃ later, (machine env site).Leads guard state later ∧
      later.parties.clients index = client ∧ Beside state later := by
  refine leads.invariant (fun client => ∃ later,
    (machine env site).Leads guard state later ∧
      later.parties.clients index = client ∧ Beside state later) ?_ ?_
  · exact ⟨state, Relation.ReflTransGen.refl, rfl, rfl, rfl, rfl⟩
  · intro client next clientAction earlier goesOn moved
    obtain ⟨later, leadsLater, rfl, beside⟩ := earlier
    have blocked : (clientAction.isDelivery || clientAction.reuses later.parties.ids ||
        !later.running index || !granted site later index clientAction) = false := by
      rw [beside.running, running]
      have isInward := inward goesOn
      cases clientAction with
      | advance thread => rfl
      | store notified => rfl
      | wake other status => rfl
      | wakePublisher other => rfl
      | _ => exact False.elim isInward
    have stepped : (machine env site).step later (.client index clientAction) =
        some { later with parties := later.parties.putClient index next } := by
      have moved : Client.step env (site.config index) (later.parties.clients index)
          clientAction = some next := moved
      show step env site later (.client index clientAction) = _
      rw [step, if_neg (Bool.eq_false_iff.mp blocked), moved]
      rfl
    exact ⟨_, leadsLater.trans (Machine.Leads.step (allows goesOn) stepped),
      Network.State.putClient_self .., beside.traffic, beside.running, beside.server⟩

/-- The steps by which a call receives its reply. -/
private theorem leads_receiving {client : Client.State} (running : state.running index = true)
    (leads : (Client.machine env (site.config index)).Leads (Client.Receives user)
      (state.parties.clients index) client) :
    ∃ later, (machine env site).Leads (Receiving index user) state later ∧
      later.parties.clients index = client ∧ Beside state later := by
  refine leads_client running inward_of_receives ?_ leads
  intro later clientAction receives
  exact ⟨rfl, receives⟩

private theorem WaitsAt.of_leads (waitsAt : WaitsAt env site index user call state)
    {later : State} (leads : (machine env site).Leads (Receiving index user) state later)
    (beside : Beside state later)
    (waits : Client.Waits env (site.config index) user call (later.parties.clients index)) :
    WaitsAt env site index user call later := by
  obtain ⟨trace, run⟩ := waitsAt.run
  obtain ⟨more, runLater⟩ := (leads.weaken addressed_of_receiving).run run
  refine ⟨⟨_, runLater⟩, ?_, waits, ?_⟩
  · rw [beside.running]
    exact waitsAt.running
  · rw [beside.traffic]
    exact waitsAt.consumes

/-- The event loop of the client comes to rest. -/
private theorem WaitsAt.rests (waitsAt : WaitsAt env site index user call state) :
    ∃ later, (machine env site).Leads (Receiving index user) state later ∧
      WaitsAt env site index user call later ∧ Beside state later ∧
        (later.parties.clients index).loop = .idle := by
  obtain ⟨client, moves, waits, idle⟩ := waitsAt.waits.rests
  obtain ⟨later, leads, rfl, beside⟩ := leads_receiving waitsAt.running moves
  exact ⟨later, leads, waitsAt.of_leads leads beside waits, beside, idle⟩

end Client

section Delivery

private theorem Consumes.noack_client {queue : Str} {noack : Bool}
    (consumes : Consumes site (.client index) queue noack) : noack = true := by
  cases consumes
  rfl

/-- The next reply can be delivered to a client whose event loop rests. -/
private theorem WaitsAt.deliver (waitsAt : WaitsAt env site index user call state)
    (lawful : env.json.Lawful) (idle : (state.parties.clients index).loop = .idle)
    {rest : List Parcel}
    (front : state.traffic.broker.contents (site.callbackQueue index) = parcel :: rest) :
    ∃ later, (machine env site).Leads (Receiving index user) state later ∧
      WaitsAt env site index user call later ∧
      later.traffic.broker.contents (site.callbackQueue index) = rest ∧
      later.parties.server = state.parties.server ∧
      (parcel.id = call.id →
        (later.parties.clients index).loop = .decode (responseOf parcel)) := by
  obtain ⟨trace, run⟩ := waitsAt.run
  have sound := sound_of_run lawful run
  obtain ⟨consumer, consuming, isClient, isQueue, isNoack⟩ := waitsAt.consumes
  have ready : ∀ other ∈ state.traffic.broker.consumers,
      other.connection = consumer.connection → other.queue = consumer.queue →
        state.traffic.broker.ready other = true := by
    intro other otherConsuming sameConnection _
    have consumes := consumes_of_mem sound otherConsuming
    rw [sameConnection, isClient] at consumes
    exact Broker.ready_of_noack consumes.noack_client
  have waiting : state.traffic.broker.contents consumer.queue ≠ [] := by
    rw [isQueue, front]
    exact List.cons_ne_nil _ _
  have delivered := site.broker.delivered consuming ready waiting
  rw [isClient, isQueue] at delivered
  obtain ⟨⟨message, tag, broker⟩, delivered⟩ := Option.isSome_iff_exists.mp delivered
  obtain ⟨other, _, isOther, delivers⟩ := site.broker.delivers delivered
  have taken := delivers.front
  rw [isOther, front] at taken
  cases taken
  have came := arrived_of_delivers delivers
  rw [isOther] at came
  obtain ⟨client, moved, decoding⟩ := waitsAt.waits.takes idle (responseOf parcel)
  have takes : Client.step env (site.config index) (state.parties.clients index)
      (.deliver (responseOf parcel)) = some client := moved
  have stepped : (machine env site).step state (.reply index) = some { state with
      parties := state.parties.putClient index client
      traffic := state.traffic.delivering (site.callbackQueue index) parcel broker } := by
    show step env site state (.reply index) = _
    rw [step, delivered]
    show (Client.step env (site.config index) (state.parties.clients index)
      (.deliver (responseOf parcel)) >>= _) = _
    rw [takes]
    rfl
  have allowed : Receiving index user state (.reply index) := rfl
  refine ⟨_, Machine.Leads.step allowed stepped,
    ⟨⟨_, run.next (addressed_of_receiving allowed) stepped⟩, waitsAt.running, ?_, ?_⟩, rfl, rfl, ?_⟩
  · rw [Network.State.putClient_self]
    refine waitsAt.waits.next moved rfl ?_
    intro response same
    cases same
    exact decodes_of_arrived lawful sound came
  · obtain ⟨consumer, consuming, rest⟩ := waitsAt.consumes
    exact ⟨consumer, delivers.consumers ▸ consuming, rest⟩
  · rw [Network.State.putClient_self]
    exact decoding

/-- The event loop comes to the reply with the id of the call. -/
private theorem WaitsAt.comesTo (lawful : env.json.Lawful) {waiting : List Parcel}
    (isWaiting : ∃ parcel ∈ waiting, parcel.id = call.id) :
    ∀ {state : State}, WaitsAt env site index user call state →
      state.traffic.broker.contents (site.callbackQueue index) = waiting →
        ∃ parcel ∈ waiting, parcel.id = call.id ∧
          ∃ later, (machine env site).Leads (Receiving index user) state later ∧
            WaitsAt env site index user call later ∧
            later.parties.server = state.parties.server ∧
            (later.parties.clients index).loop = .decode (responseOf parcel) := by
  induction waiting with
  | nil =>
      obtain ⟨parcel, impossible, _⟩ := isWaiting
      cases impossible
  | cons front rest inductionHypothesis =>
      intro state waitsAt contents
      obtain ⟨rested, toRest, waitsRested, beside, idle⟩ := waitsAt.rests
      have frontRested : rested.traffic.broker.contents (site.callbackQueue index) =
          front :: rest := by
        rw [beside.traffic]
        exact contents
      obtain ⟨later, toLater, waitsLater, contentsLater, server, decoding⟩ :=
        waitsRested.deliver lawful idle frontRested
      by_cases isOwn : front.id = call.id
      · exact ⟨front, List.mem_cons_self, isOwn, later, toRest.trans toLater, waitsLater,
          server.trans beside.server, decoding isOwn⟩
      · have isLater : ∃ parcel ∈ rest, parcel.id = call.id := by
          obtain ⟨parcel, member, sameId⟩ := isWaiting
          rcases List.mem_cons.mp member with isFront | isRest
          · exact absurd (isFront ▸ sameId) isOwn
          · exact ⟨parcel, isRest, sameId⟩
        obtain ⟨parcel, member, sameId, final, toFinal, waitsFinal, serverFinal, handles⟩ :=
          inductionHypothesis isLater waitsLater contentsLater
        exact ⟨parcel, List.mem_cons_of_mem _ member, sameId, final,
          (toRest.trans toLater).trans toFinal, waitsFinal,
          serverFinal.trans (server.trans beside.server), handles⟩

/-- A call whose reply is in the callback queue can return what it reads there. -/
private theorem WaitsAt.returns (waitsAt : WaitsAt env site index user call state)
    (lawful : env.json.Lawful)
    (isWaiting : ∃ parcel ∈ state.traffic.broker.contents (site.callbackQueue index),
      parcel.id = call.id) :
    ∃ final, (machine env site).Leads (Receiving index user) state final ∧
      final.parties.server = state.parties.server ∧
      (final.parties.clients index).users user = .idle ∧
      ∃ envelope ∈ state.parties.server.published, envelope.correlationID = call.id ∧
        .ended call (callOutcome env envelope.body) ∈ (final.parties.clients index).history := by
  obtain ⟨parcel, member, sameId, decoding, toDecoding, waits, server, isDecode⟩ :=
    WaitsAt.comesTo lawful isWaiting waitsAt rfl
  obtain ⟨trace, run⟩ := waitsAt.run
  have sound := sound_of_run lawful run
  have came : parcel ∈ state.traffic.arrived (site.callbackQueue index) :=
    List.mem_append_right _ member
  obtain ⟨envelope, published, _, same⟩ := envelope_of_arrived sound.settled sound.behaved came
  obtain ⟨result, decoded⟩ := decodes_of_arrived lawful sound came
  obtain ⟨stored, toStored, waitsStored, idle, object, found, done, isResult⟩ :=
    waits.waits.stores_decode isDecode decoded
  have isOwn : (responseOf parcel).correlationID = call.id := sameId
  rw [isOwn] at found
  obtain ⟨ended, toEnded, isIdle, hasEnded⟩ := waitsStored.returns idle found done
  obtain ⟨final, toFinal, rfl, beside⟩ :=
    leads_receiving waits.running (toStored.trans toEnded)
  refine ⟨final, toDecoding.trans toFinal, beside.server.trans server, isIdle, envelope,
    published, ?_, ?_⟩
  · exact (congrArg Client.Response.correlationID same).trans isOwn
  · have outcome : callOutcome env envelope.body = finishCall env result := by
      have sameBody : envelope.body = (responseOf parcel).body :=
        congrArg Client.Response.body same
      rw [callOutcome, sameBody, decoded]
      rfl
    rw [outcome, ← isResult]
    exact hasEnded

end Delivery

section Serving

/-- The client is where it was, and has got nothing. -/
structure Undelivered (site : Site) (index : Nat) (state later : State) : Prop where
  clients : later.parties.clients = state.parties.clients
  running : later.running = state.running
  delivered : later.traffic.delivered (site.callbackQueue index) =
    state.traffic.delivered (site.callbackQueue index)

/-- Broker and workers leave the clients to themselves. -/
private theorem undelivered_of_serving {later : State}
    (leads : (machine env site).Leads Serving state later) : Undelivered site index state later := by
  refine leads.invariant (Undelivered site index state) ⟨rfl, rfl, rfl⟩ ?_
  intro between next action earlier serving stepped
  have same := earlier
  cases step_effect stepped with
  | handle next handled => exact ⟨same.clients, same.running, same.delivered⟩
  | refuse next refused => exact ⟨same.clients, same.running, same.delivered⟩
  | @request consumer parcel tag broker server connection queue delivers moved =>
      refine ⟨same.clients, same.running, Eq.trans ?_ same.delivered⟩
      rw [queue]
      exact Traffic.delivered_delivering_of_ne _ _ _ (site.callbackNotRpc index)
  | @server action server notMessage moved => exact ⟨same.clients, same.running, same.delivered⟩
  | start ready => exact False.elim serving
  | client notDelivery fresh isRunning isGranted moved => exact False.elim serving
  | reply connection queue delivers moved => exact False.elim serving
  | event connection queue delivers moved => exact False.elim serving

/-- The call is blocked in `get`, its request is not lost, and no reply to it
was delivered. -/
structure Waiting (site : Site) (state : State) (index user : Nat) (call : Client.Call) : Prop where
  running : state.running index = true
  inCall : (state.parties.clients index).users user = .call call (.get .blocked)
  requested : ∃ parcel ∈ state.traffic.arrived site.rpcQueue ++
    pendingParcels site state (.client index) (ownCall site index), parcel.id = call.id
  unanswered : call.id ∉ (state.traffic.delivered (site.callbackQueue index)).map Parcel.id

/-- The request of the call is one of those that get a reply. -/
private theorem Waiting.own (waiting : Waiting site state index user call)
    (sound : Sound env site state) :
    ∃ parcel ∈ (state.traffic.arrived site.rpcQueue).filter (ownCall site index) ++
      pendingParcels site state (.client index) (ownCall site index), parcel.id = call.id := by
  obtain ⟨parcel, member, sameId⟩ := waiting.requested
  refine ⟨parcel, ?_, sameId⟩
  rcases List.mem_append.mp member with came | isPending
  · obtain ⟨other, own, known⟩ := call_of_arrived sound came
    have distinct := (Client.consistent_of_reachable
      (Network.client_reachable sound.reachable index)).distinct
    have linked := Network.linked_of_reachable sound.reachable
    have isOther := linked.apart other index parcel.id known
      (sameId ▸ distinct.known waiting.inCall)
    subst isOther
    exact List.mem_append_left _ (List.mem_filter.mpr ⟨came, own⟩)
  · exact List.mem_append_right _ isPending

/-- Broker and workers bring the reply while the call waits, and it returns
what it reads from the reply. -/
theorem Waiting.returns (waiting : Waiting site state index user call) (lawful : env.json.Lawful)
    {trace : List Action} (run : (machine env site).Run (Careful site) trace state)
    (setup : site.serverSetup.length ≤ state.traffic.handled (.receive .server))
    (named : site.rpcQueue ≠ []) (provided : Provided env site state index) :
    ∃ later final, (machine env site).Leads Serving state later ∧
      later.parties.clients = state.parties.clients ∧
      (machine env site).Leads (Receiving index user) later final ∧
      final.parties.server = later.parties.server ∧
      (final.parties.clients index).users user = .idle ∧
      ∃ envelope ∈ later.parties.server.published, envelope.correlationID = call.id ∧
        .ended call (callOutcome env envelope.body) ∈ (final.parties.clients index).history := by
  have addressedRun := run.weaken Careful.addressed
  obtain ⟨alive, attentive⟩ := attentive_of_run lawful run
  have attends : Attends env site state := ⟨⟨_, addressedRun⟩, alive, setup⟩
  obtain ⟨parcel, isOwn, sameId⟩ := waiting.own (sound_of_run lawful addressedRun)
  obtain ⟨answered, toAnswered, attendsAnswered, allAnswered⟩ :=
    attends.answerAll lawful named provided
  obtain ⟨later, toLater, attendsLater, handledOn, allHandled⟩ :=
    attendsAnswered.handleAll lawful (.receive (.client index))
  have leads := toAnswered.trans toLater
  have undelivered : Undelivered site index state answered := undelivered_of_serving toAnswered
  have still : Undelivered site index state later := undelivered_of_serving leads
  have isWaiting : ∃ reply ∈ later.traffic.broker.contents (site.callbackQueue index),
      reply.id = call.id := by
    obtain ⟨reply, member, _, isReply⟩ := allAnswered parcel isOwn
    have isCall : reply.id = call.id := isReply.trans sameId
    rcases List.mem_append.mp member with wasDelivered | inQueue
    · rw [undelivered.delivered] at wasDelivered
      exact absurd (isCall ▸ List.mem_map_of_mem wasDelivered) waiting.unanswered
    · obtain ⟨more, contents, _⟩ := handledOn.contents (site.callbackQueue index)
      refine ⟨reply, ?_, isCall⟩
      rw [contents]
      exact List.mem_append_left _ inQueue
  have waitsAt : WaitsAt env site index user call later := by
    have sound := attendsLater.sound lawful
    refine ⟨attendsLater.run, ?_, ⟨Network.client_reachable sound.reachable index, ?_, ?_⟩, ?_⟩
    · rw [still.running]
      exact waiting.running
    · rw [still.clients]
      exact attentive index
    · rw [still.clients]
      exact waiting.inCall
    · have isMade : site.made index = true :=
        sound.started.made index (still.running ▸ waiting.running)
      refine sound.settled.done (.receive (.client index)) _ ?_
      rw [allHandled, List.take_length, logs_receive_client isMade]
      simp [Site.clientSetup]
  obtain ⟨final, toFinal, ended⟩ := waitsAt.returns lawful isWaiting
  exact ⟨later, final, leads, still.clients, toFinal, ended⟩

/-- A call that waits for its reply can return: by steps of the broker, the
workers, the event loop of its client and the caller itself it ends with what
it reads from a reply of the server. -/
theorem waiting_call_can_return (lawful : env.json.Lawful) {trace : List Action}
    (run : (machine env site).Run (Careful site) trace state)
    (setup : site.serverSetup.length ≤ state.traffic.handled (.receive .server))
    (named : site.rpcQueue ≠ []) (provided : Provided env site state index)
    (waiting : Waiting site state index user call) :
    ∃ final, (machine env site).Leads (Receiving index user) state final ∧
      (final.parties.clients index).users user = .idle ∧
      ∃ envelope ∈ final.parties.server.published, envelope.correlationID = call.id ∧
        .ended call (callOutcome env envelope.body) ∈
          (final.parties.clients index).history := by
  obtain ⟨later, final, toLater, _, toFinal, server, isIdle, envelope, published, rest⟩ :=
    waiting.returns lawful run setup named provided
  refine ⟨final, (toLater.weaken receiving_of_serving).trans toFinal, isIdle, envelope, ?_, rest⟩
  rw [server]
  exact published

/-- A test for a caller of the example site that waits. -/
def waitsInGet (state : State) : Bool :=
  match (state.parties.clients 0).users 0 with
  | .call call (.get .blocked) =>
      state.running 0 &&
        (pendingParcels exampleNames.site state (.client 0) (ownCall exampleNames.site 0)).any
          (fun parcel => parcel.id == call.id) &&
          (state.traffic.delivered (exampleNames.site.callbackQueue 0)).isEmpty
  | _ => false

theorem waiting_of_waitsInGet (waits : waitsInGet state = true) :
    ∃ call, Waiting exampleNames.site state 0 0 call := by
  unfold waitsInGet at waits
  split at waits
  · rename_i call inCall
    obtain ⟨present, nothing⟩ := Bool.and_eq_true_iff.mp waits
    obtain ⟨running, requested⟩ := Bool.and_eq_true_iff.mp present
    obtain ⟨parcel, member, sameId⟩ := List.any_eq_true.mp requested
    refine ⟨call, running, inCall, ⟨parcel, ?_, eq_of_beq sameId⟩, ?_⟩
    · exact List.mem_append_right _ member
    · rw [List.isEmpty_iff.mp nothing]
      exact List.not_mem_nil
  · cases waits

/-- The call of the example up to its wait. -/
def exampleWait : List Action :=
  exampleSetup ++ exampleCall ++ List.replicate 4 (.client 0 (.advance (.user 0)))

theorem waiting_call_can_return_exampleWait :
    ∃ state final call outcome, (machine ⟨codec, false⟩ exampleNames.site).Run
        (Careful exampleNames.site) exampleWait state ∧
      (machine ⟨codec, false⟩ exampleNames.site).Leads (Receiving 0 0) state final ∧
        .ended call outcome ∈ (final.parties.clients 0).history := by
  have passed : ((machine ⟨codec, false⟩ exampleNames.site).execWhile careful exampleWait
      (machine ⟨codec, false⟩ exampleNames.site).init).any
        (fun state => givenRequest state && waitsInGet state) = true := by
    decide +kernel
  obtain ⟨state, run, passed⟩ := Machine.Run.of_execWhile_any careful_sound passed
  obtain ⟨given, waits⟩ := Bool.and_eq_true_iff.mp passed
  obtain ⟨call, waiting⟩ := waiting_of_waitsInGet waits
  obtain ⟨setup, provided⟩ := provided_of_givenRequest given
  obtain ⟨final, leads, _, envelope, _, _, ended⟩ :=
    waiting_call_can_return codec_lawful run setup (by decide) provided waiting
  exact ⟨state, final, call, _, run, leads, ended⟩

end Serving

end Deployment

end Ccmqsrv
