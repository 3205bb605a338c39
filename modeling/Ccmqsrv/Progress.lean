import Ccmqsrv.AtMostOnce
import Ccmqsrv.MessageSafety
import Ccmqsrv.Registrations

/-!
# A request gets its reply

The broker gives the server one request at a time and waits for the
acknowledgement, which goes through the broker as well.  Nothing in this gets
stuck: wherever a run stands, the broker and the workers of a server that has
set up its channels can bring every request on the way to its end, while the
clients rest.
-/

namespace Ccmqsrv

open Foundations

namespace Deployment

variable {env : Env} {site : Site} {state after later : State} {action : Action}
  {channel : Channel}

/-- Steps of the broker and of the workers. -/
def Serving (_ : State) : Action → Prop
  | .handle _ => True
  | .request => True
  | .server (.work _) => True
  | _ => False

theorem addressed_of_serving (serving : Serving state action) : Addressed site state action := by
  cases action with
  | client index action => exact False.elim serving
  | _ => trivial

/-- The server is alive and its channels are set up. -/
structure Attends (env : Env) (site : Site) (state : State) : Prop where
  run : ∃ trace, (machine env site).Run (Addressed site) trace state
  alive : state.parties.server.fault = none
  setup : site.serverSetup.length ≤ state.traffic.handled (.receive .server)

theorem Attends.sound (attends : Attends env site state) (lawful : env.json.Lawful) :
    Sound env site state := by
  obtain ⟨_, run⟩ := attends.run
  exact sound_of_run lawful run

theorem Attends.isOpen (attends : Attends env site state) (lawful : env.json.Lawful) :
    Open site state := by
  obtain ⟨_, run⟩ := attends.run
  exact open_of_run lawful run

/-- What the server asked for when it set up its channels is there. -/
theorem Attends.done (attends : Attends env site state) (lawful : env.json.Lawful)
    {request : ChannelRequest} (isSetup : request ∈ site.serverSetup) :
    state.traffic.broker.Done .server request := by
  refine (attends.sound lawful).settled.done (.receive .server) request ?_
  obtain ⟨place, within, same⟩ := List.getElem_of_mem isSetup
  have isLogged : (logs site state (.receive .server))[place]? = some request := by
    rw [logs, List.getElem?_append_left within, List.getElem?_eq_getElem within, same]
  refine List.mem_of_getElem? (i := place) ?_
  rw [List.getElem?_take, if_pos (Nat.lt_of_lt_of_le within attends.setup)]
  exact isLogged

section Handling

/-- The broker has handled requests of the channel, and nothing else has
happened. -/
structure HandledOn (site : Site) (channel : Channel) (state later : State) : Prop where
  parties : later.parties = state.parties
  acks : later.acks = state.acks
  delivered : later.traffic.delivered = state.traffic.delivered
  further : state.traffic.handled channel ≤ later.traffic.handled channel
  others : ∀ other, other ≠ channel → later.traffic.handled other = state.traffic.handled other
  contents : ∀ queue, ∃ more,
    later.traffic.broker.contents queue = state.traffic.broker.contents queue ++ more ∧
      ∀ parcel ∈ more, publishRequest parcel ∈
        (logs site state channel).drop (state.traffic.handled channel)

theorem HandledOn.start (site : Site) (channel : Channel) (state : State) :
    HandledOn site channel state state :=
  ⟨rfl, rfl, rfl, Nat.le_refl _, fun _ _ => rfl, fun _ => ⟨[], by simp, by simp⟩⟩

theorem logs_congr (parties : later.parties = state.parties) (acks : later.acks = state.acks) :
    logs site later = logs site state := by
  funext channel
  unfold logs
  rw [parties, acks]

theorem HandledOn.next (handledOn : HandledOn site channel state later)
    {request : ChannelRequest} {broker : Broker Connection Str Parcel}
    (next : (logs site later channel)[later.traffic.handled channel]? = some request)
    (handled : later.traffic.broker.Handled site.broker.accepts channel.connection request broker) :
    HandledOn site channel state
      { later with traffic := later.traffic.handling channel broker } := by
  constructor
  · exact handledOn.parties
  · exact handledOn.acks
  · exact handledOn.delivered
  · show _ ≤ (later.traffic.handling channel broker).handled channel
    rw [Traffic.handled_handling_self]
    exact Nat.le_succ_of_le handledOn.further
  · intro other different
    show (later.traffic.handling channel broker).handled other = _
    rw [Traffic.handled_handling_of_ne _ _ different]
    exact handledOn.others other different
  · intro queue
    obtain ⟨more, same, wereAsked⟩ := handledOn.contents queue
    refine ⟨more ++ later.traffic.broker.arrivals site.broker.accepts request queue, ?_, ?_⟩
    · rw [← List.append_assoc, ← same]
      exact handled.contents_eq queue
    · intro parcel member
      rcases List.mem_append.mp member with earlier | arrives
      · exact wereAsked parcel earlier
      · obtain ⟨exchange, routingKey, rfl⟩ := mem_arrivals arrives
        rw [(mem_logs_publish (List.mem_of_getElem? next)).2.1,
          logs_congr handledOn.parties handledOn.acks] at next
        refine List.mem_of_getElem?
          (i := later.traffic.handled channel - state.traffic.handled channel) ?_
        rw [List.getElem?_drop, Nat.add_sub_cancel' handledOn.further]
        exact next

/-- The broker handles requests of one channel. -/
def HandlesOn (channel : Channel) (_ : State) : Action → Prop
  | .handle other => other = channel
  | _ => False

theorem serving_of_handlesOn (handles : HandlesOn channel state action) :
    Serving state action := by
  cases action with
  | handle other => trivial
  | _ => exact False.elim handles

/-- The broker can handle the next request of a channel. -/
private theorem exists_handled (lawful : env.json.Lawful) {trace : List Action}
    (run : (machine env site).Run (Addressed site) trace state) {request : ChannelRequest}
    (next : (logs site state channel)[state.traffic.handled channel]? = some request) :
    ∃ broker, state.traffic.broker.Handled site.broker.accepts channel.connection request broker ∧
      (machine env site).step state (.handle channel) =
        some { state with traffic := state.traffic.handling channel broker } := by
  have isOpen := open_of_run lawful run
  obtain ⟨broker, handles⟩ := Option.isSome_iff_exists.mp
    (site.broker.welcomed (welcomes_next (sound_of_run lawful run) isOpen.acknowledges next))
  refine ⟨broker, site.broker.handled handles, ?_⟩
  show step env site state (.handle channel) = _
  rw [step, if_neg (Bool.eq_false_iff.mp (isOpen.channels channel))]
  simp only [next, handles]

/-- The broker can handle all requests of a channel. -/
theorem exists_allHandled (lawful : env.json.Lawful) {trace : List Action}
    (run : (machine env site).Run (Addressed site) trace state) (channel : Channel) :
    ∃ final, (machine env site).Leads (HandlesOn channel) state final ∧
      HandledOn site channel state final ∧
        final.traffic.handled channel = (logs site final channel).length := by
  have reached : ∃ final, (machine env site).Leads (HandlesOn channel) state final ∧
      ((∃ trace, (machine env site).Run (Addressed site) trace final) ∧
        HandledOn site channel state final) ∧
        (logs site final channel).length - final.traffic.handled channel = 0 := by
    refine Machine.Leads.of_measure
      (fun later => (logs site later channel).length - later.traffic.handled channel)
      (fun later => (∃ trace, (machine env site).Run (Addressed site) trace later) ∧
        HandledOn site channel state later) ?_ ⟨⟨trace, run⟩, HandledOn.start site channel state⟩
    intro later held waits
    obtain ⟨⟨trace, run⟩, handledOn⟩ := held
    have within : later.traffic.handled channel < (logs site later channel).length := by
      omega
    have next := List.getElem?_eq_getElem within
    obtain ⟨broker, handled, stepped⟩ := exists_handled lawful run next
    have allowed : HandlesOn channel later (.handle channel) := rfl
    refine ⟨_, Machine.Leads.step allowed stepped,
      ⟨⟨_, run.next (addressed_of_serving (serving_of_handlesOn allowed)) stepped⟩,
        handledOn.next next handled⟩, ?_⟩
    show (logs site later channel).length -
      (later.traffic.handling channel broker).handled channel < _
    rw [Traffic.handled_handling_self]
    omega
  obtain ⟨final, leads, ⟨⟨_, runFinal⟩, handledOn⟩, done⟩ := reached
  have within := (sound_of_run lawful runFinal).settled.handled_le channel
  exact ⟨final, leads, handledOn, by omega⟩

/-- A server that attends goes on to. -/
private theorem Attends.handledOn (attends : Attends env site state)
    (leads : (machine env site).Leads Serving state later)
    (handledOn : HandledOn site channel state later) : Attends env site later := by
  obtain ⟨trace, run⟩ := attends.run
  obtain ⟨more, runLater⟩ := (leads.weaken addressed_of_serving).run run
  refine ⟨⟨_, runLater⟩, ?_, ?_⟩
  · rw [handledOn.parties]
    exact attends.alive
  · by_cases same : Channel.receive .server = channel
    · subst same
      exact Nat.le_trans attends.setup handledOn.further
    · rw [handledOn.others _ same]
      exact attends.setup

theorem Attends.handleAll (attends : Attends env site state) (lawful : env.json.Lawful)
    (channel : Channel) :
    ∃ final, (machine env site).Leads Serving state final ∧ Attends env site final ∧
      HandledOn site channel state final ∧
        final.traffic.handled channel = (logs site final channel).length := by
  obtain ⟨_, run⟩ := attends.run
  obtain ⟨final, handling, handledOn, handled⟩ := exists_allHandled lawful run channel
  have leads := handling.weaken serving_of_handlesOn
  exact ⟨final, leads, attends.handledOn leads handledOn, handledOn, handled⟩

end Handling

section Working

/-- A function is registered for the method, and its outcome can be sent. -/
def Provides (server : MessageQueueServer) (meth : Str) (args : List Any) : Prop :=
  ∃ f, server.rpcFuncMap.lookup meth = some (some f) ∧ Replied f args

/-- The worker comes to its end. -/
def Serviceable (env : Env) (server : MessageQueueServer) : Task → Prop
  | .rpc message =>
      ∃ meth args, rpcFind env server message = .ok (.call meth args) ∧ Provides server meth args
  | .rpcCall _ meth args => Provides server meth args
  | .rpcReply message res => Survives server (.rpcReply message res)
  | .event eventType cbId eventData => Survives server (.event eventType cbId eventData)

instance : DecidablePred Sendable
  | .ok value => inferInstanceAs (Decidable value.document.ValidUtf8)
  | .error (.runtimeError text) => inferInstanceAs (Decidable (validUtf8 (cString text) = true))
  | .error .badAnyCast => isFalse id
  | .error .badFunctionCall => isFalse id
  | .error .jsonException => isFalse id
  | .error (.baseException _ _) => isFalse id
  | .error .stdException => isFalse id

instance (f : Handler) (data : List Any) : Decidable (Replied f data) :=
  inferInstanceAs (Decidable (∃ args, getTuple f.params data = .ok args ∧ Sendable (f.func args)))

instance (server : MessageQueueServer) (meth : Str) (args : List Any) :
    Decidable (Provides server meth args) :=
  inferInstanceAs (Decidable (∃ f, server.rpcFuncMap.lookup meth = some (some f) ∧ Replied f args))

instance (env : Env) (server : MessageQueueServer) : DecidablePred (Serviceable env server)
  | .rpc message =>
      match looked : rpcFind env server message with
      | .ok (.call meth args) => decidable_of_iff (Provides server meth args)
          ⟨fun provides => ⟨meth, args, looked, provides⟩, fun good => by
            obtain ⟨_, _, same, provides⟩ := good
            rw [looked] at same
            cases same
            exact provides⟩
      | .ok (.reply _) => isFalse fun good => by
          obtain ⟨_, _, same, _⟩ := good
          rw [looked] at same
          cases same
      | .error _ => isFalse fun good => by
          obtain ⟨_, _, same, _⟩ := good
          rw [looked] at same
          cases same
  | .rpcCall _ meth args => inferInstanceAs (Decidable (Provides server meth args))
  | .rpcReply message res => inferInstanceAs (Decidable (Survives server (.rpcReply message res)))
  | .event eventType cbId eventData =>
      inferInstanceAs (Decidable (Survives server (.event eventType cbId eventData)))

/-- How many steps the worker has to take. -/
def stepsLeft : Task → Nat
  | .rpc _ => 3
  | .rpcCall _ _ _ => 2
  | .rpcReply _ _ => 1
  | .event _ _ _ => 1

variable {server : MessageQueueServer} {tables : List MessageQueueServer}

/-- A step of such a worker leaves the tables alone and less to do. -/
theorem workStep_serviceable (lawful : env.json.Lawful) {task : Task}
    (worker : WorkerOf env tables task) (good : Serviceable env server task) :
    ∃ calls next published, workStep env server task = (server, ⟨calls, .ok (next, published)⟩) ∧
      (∀ later ∈ next, Serviceable env server later) ∧
        (next.map stepsLeft).sum < stepsLeft task := by
  have ends : Survives server task → Server.Finds server task →
      (∀ next published, (workStep env server task).2.outcome = .ok (next, published) →
        next = []) →
        ∃ calls next published,
          workStep env server task = (server, ⟨calls, .ok (next, published)⟩) ∧
          (∀ later ∈ next, Serviceable env server later) ∧
            (next.map stepsLeft).sum < stepsLeft task := by
    intro survives finds leaves
    obtain ⟨⟨next, published⟩, done⟩ := (workStep_survives lawful worker).mpr survives
    cases leaves next published done
    refine ⟨(workStep env server task).2.calls, [], published,
      Prod.ext (Server.workStep_server env finds) ?_, nofun, ?_⟩
    · rw [← done]
    · cases task <;> exact Nat.succ_pos _
  cases task with
  | rpc message =>
      obtain ⟨meth, args, looked, provides⟩ := good
      refine ⟨[], [.rpcCall message meth args], [], ?_, ?_, Nat.lt_succ_self 2⟩
      · rw [workStep, looked]
        rfl
      · exact List.forall_mem_singleton.mpr provides
  | rpcCall message meth args =>
      obtain ⟨f, registered, replied⟩ := good
      obtain ⟨res, document, called, answers, errorValid⟩ := call_replied lawful message replied
      refine ⟨(callFunction env (some f) (initialRes message) args).calls,
        [.rpcReply message res], [], ?_, ?_, Nat.lt_succ_self 1⟩
      · rw [workStep, rpcCall_of_lookup registered]
        simp only [Recorded.andThen, called]
        rfl
      · exact List.forall_mem_singleton.mpr ⟨ne_initialRes_of_answers lawful answers, errorValid⟩
  | rpcReply message res =>
      refine ends good trivial ?_
      intro next published done
      obtain ⟨_, _, returned⟩ := bind_eq_ok.mp done
      cases returned
      rfl
  | event eventType cbId eventData =>
      refine ends good ?_ ?_
      · obtain ⟨f, registered, _⟩ := good
        exact Option.isSome_of_eq_some registered
      · intro next published done
        obtain ⟨_, _, returned⟩ := bind_eq_ok.mp done
        cases returned
        rfl

/-- Workers have taken steps, and nothing else has happened. -/
structure Worked (env : Env) (state later : State) : Prop where
  clients : later.parties.clients = state.parties.clients
  traffic : later.traffic = state.traffic
  serviceable : ∀ task ∈ later.parties.server.tasks,
    Serviceable env later.parties.server.server task

/-- The workers can do all that there is to do. -/
theorem Attends.workAll (attends : Attends env site state) (lawful : env.json.Lawful)
    (serviceable : ∀ task ∈ state.parties.server.tasks,
      Serviceable env state.parties.server.server task) :
    ∃ final, (machine env site).Leads Serving state final ∧ Attends env site final ∧
      final.parties.clients = state.parties.clients ∧ final.traffic = state.traffic ∧
        final.parties.server.tasks = [] := by
  have reached : ∃ final, (machine env site).Leads Serving state final ∧
      (Attends env site final ∧ Worked env state final) ∧
        (final.parties.server.tasks.map stepsLeft).sum = 0 := by
    refine Machine.Leads.of_measure (fun later => (later.parties.server.tasks.map stepsLeft).sum)
      (fun later => Attends env site later ∧ Worked env state later) ?_
      ⟨attends, rfl, rfl, serviceable⟩
    intro later held busy
    obtain ⟨attends, worked⟩ := held
    obtain ⟨trace, run⟩ := attends.run
    cases isTasks : later.parties.server.tasks with
    | nil =>
        rw [isTasks] at busy
        exact absurd rfl busy
    | cons task rest =>
        have member : task ∈ later.parties.server.tasks := by
          rw [isTasks]
          exact List.mem_cons_self
        obtain ⟨calls, next, published, stepped, good, fewer⟩ := workStep_serviceable lawful
          ((attends.sound lawful).workers lawful member) (worked.serviceable task member)
        have moved : Server.step env later.parties.server (.work 0) =
            some { later.parties.server with
              tasks := next ++ rest
              published := later.parties.server.published ++ published
              calls := later.parties.server.calls ++ calls.map (WorkerCall.mk task) } := by
          rw [Server.step, if_neg (by rw [attends.alive]; exact Bool.false_ne_true)]
          simp only [isTasks, List.getElem?_cons_zero, stepped, List.eraseIdx_cons_zero]
        have allowed : Serving later (.server (.work 0)) := trivial
        have steppedSite : (machine env site).step later (.server (.work 0)) =
            some { later with
              parties := later.parties.putServer
                { later.parties.server with
                  tasks := next ++ rest
                  published := later.parties.server.published ++ published
                  calls := later.parties.server.calls ++ calls.map (WorkerCall.mk task) } } := by
          show step env site later (.server (.work 0)) = _
          rw [step, moved]
          rfl
        refine ⟨_, Machine.Leads.step allowed steppedSite, ⟨⟨⟨_, run.next
          (addressed_of_serving allowed) steppedSite⟩, attends.alive, attends.setup⟩,
          worked.clients, worked.traffic, ?_⟩, ?_⟩
        · intro other isOther
          rcases List.mem_append.mp isOther with isNew | isOld
          · exact good other isNew
          · exact worked.serviceable other (isTasks ▸ List.mem_cons_of_mem _ isOld)
        · show ((next ++ rest).map stepsLeft).sum < ((task :: rest).map stepsLeft).sum
          rw [List.map_append, List.sum_append, List.map_cons, List.sum_cons]
          omega
  obtain ⟨final, leads, ⟨attendsFinal, worked⟩, nothing⟩ := reached
  refine ⟨final, leads, attendsFinal, worked.clients, worked.traffic, ?_⟩
  cases isTasks : final.parties.server.tasks with
  | nil => rfl
  | cons task rest =>
      rw [isTasks, List.map_cons, List.sum_cons] at nothing
      have positive : 0 < stepsLeft task := by
        cases task <;> exact Nat.succ_pos _
      omega

end Working

section Fetching

/-- The server has taken requests from its queue, and workers for them are
there. -/
structure Fetched (env : Env) (site : Site) (state later : State) : Prop where
  clients : later.parties.clients = state.parties.clients
  handled : ∀ connection,
    later.traffic.handled (.send connection) = state.traffic.handled (.send connection)
  serviceable : ∀ task ∈ later.parties.server.tasks,
    Serviceable env later.parties.server.server task
  waiting : ∀ parcel ∈ later.traffic.broker.contents site.rpcQueue,
    Serviceable env later.parties.server.server (.rpc parcel.message)

/-- The server publishes nothing on `recv_channel`. -/
private theorem contents_of_receive {connection : Connection}
    (handledOn : HandledOn site (.receive connection) state later) (queue : Str) :
    later.traffic.broker.contents queue = state.traffic.broker.contents queue := by
  obtain ⟨more, same, wereAsked⟩ := handledOn.contents queue
  have nothing : more = [] := by
    refine List.eq_nil_iff_forall_not_mem.mpr fun parcel member => ?_
    have isSend := (mem_logs_publish (List.mem_of_mem_drop (wereAsked parcel member))).1
    cases isSend
  rw [same, nothing, List.append_nil]

private theorem Fetched.handledOn (fetched : Fetched env site state later)
    {connection : Connection} (handledOn : HandledOn site (.receive connection) later after) :
    Fetched env site state after := by
  have server : after.parties.server = later.parties.server := by rw [handledOn.parties]
  constructor
  · rw [handledOn.parties]
    exact fetched.clients
  · intro other
    rw [handledOn.others (.send other) nofun]
    exact fetched.handled other
  · rw [server]
    exact fetched.serviceable
  · rw [server, contents_of_receive handledOn]
    exact fetched.waiting

/-- When all acknowledgements were handled, the next request is delivered. -/
private theorem Attends.fetch (attends : Attends env site state) (lawful : env.json.Lawful)
    (named : site.rpcQueue ≠ [])
    (handled : state.traffic.handled (.receive .server) =
      (logs site state (.receive .server)).length)
    (waiting : state.traffic.broker.contents site.rpcQueue ≠ []) :
    ∃ parcel tag broker, state.traffic.broker.contents site.rpcQueue =
        parcel :: broker.contents site.rpcQueue ∧
      (machine env site).step state .request = some { state with
        parties := state.parties.putServer { state.parties.server with
          tasks := .rpc parcel.message :: state.parties.server.tasks }
        traffic := state.traffic.delivering site.rpcQueue parcel broker
        acks := state.acks ++ [tag] } := by
  have isConsume : .consume site.rpcQueue false ∈ site.serverSetup := by
    unfold Site.serverSetup Site.callsSetup
    rw [if_neg (by simpa using named)]
    simp
  obtain ⟨consumer, consuming, isServer, isQueue, _⟩ := attends.done lawful isConsume
  have nothing : state.traffic.broker.unacked .server = [] := by
    have acknowledges := (attends.isOpen lawful).acknowledges
    unfold Acknowledges at acknowledges
    rw [acknowledges, handled, List.drop_length]
    rfl
  have delivered := site.broker.delivered consuming
    (fun other _ same _ => Broker.ready_of_unacked (same.trans isServer ▸ nothing))
    (isQueue ▸ waiting)
  rw [isServer, isQueue] at delivered
  obtain ⟨⟨parcel, tag, broker⟩, delivered⟩ := Option.isSome_iff_exists.mp delivered
  obtain ⟨_, _, sameQueue, delivers⟩ := site.broker.delivers delivered
  refine ⟨parcel, tag, broker, ?_, ?_⟩
  · rw [← sameQueue]
    exact delivers.front
  · have moved : Server.step env state.parties.server (.rpcMessage parcel.message) =
        some { state.parties.server with
          tasks := .rpc parcel.message :: state.parties.server.tasks } := by
      rw [Server.step, if_neg (by rw [attends.alive]; exact Bool.false_ne_true)]
    show step env site state .request = _
    rw [step, delivered]
    show (Server.step env state.parties.server (.rpcMessage parcel.message) >>= _) = _
    rw [moved]
    rfl

/-- The server can take all requests that are in its queue. -/
theorem Attends.fetchAll (attends : Attends env site state) (lawful : env.json.Lawful)
    (named : site.rpcQueue ≠ []) (fetched : Fetched env site state state) :
    ∃ final, (machine env site).Leads Serving state final ∧ Attends env site final ∧
      Fetched env site state final ∧ final.traffic.broker.contents site.rpcQueue = [] := by
  have reached : ∃ final, (machine env site).Leads Serving state final ∧
      (Attends env site final ∧ Fetched env site state final) ∧
        (final.traffic.broker.contents site.rpcQueue).length = 0 := by
    refine Machine.Leads.of_measure
      (fun later => (later.traffic.broker.contents site.rpcQueue).length)
      (fun later => Attends env site later ∧ Fetched env site state later) ?_ ⟨attends, fetched⟩
    intro later held waits
    obtain ⟨attends, fetched⟩ := held
    obtain ⟨between, leads, attendsBetween, handledOn, handled⟩ :=
      attends.handleAll lawful (.receive .server)
    have still := contents_of_receive handledOn site.rpcQueue
    have fetchedBetween := fetched.handledOn handledOn
    have waiting : between.traffic.broker.contents site.rpcQueue ≠ [] := by
      rw [still]
      exact List.ne_nil_of_length_pos (Nat.pos_of_ne_zero waits)
    obtain ⟨parcel, tag, broker, front, stepped⟩ :=
      attendsBetween.fetch lawful named handled waiting
    have allowed : Serving between .request := trivial
    obtain ⟨trace, run⟩ := attendsBetween.run
    refine ⟨_, leads.trans (Machine.Leads.step allowed stepped),
      ⟨⟨⟨_, run.next (addressed_of_serving allowed) stepped⟩, attendsBetween.alive,
        attendsBetween.setup⟩, fetchedBetween.clients, fetchedBetween.handled, ?_, ?_⟩, ?_⟩
    · refine List.forall_mem_cons.mpr ⟨?_, fetchedBetween.serviceable⟩
      exact fetchedBetween.waiting parcel (front ▸ List.mem_cons_self)
    · intro other member
      exact fetchedBetween.waiting other (front ▸ List.mem_cons_of_mem _ member)
    · show (broker.contents site.rpcQueue).length < _
      rw [← still, front]
      exact Nat.lt_succ_self _
  obtain ⟨final, leads, ⟨attendsFinal, fetchedFinal⟩, nothing⟩ := reached
  exact ⟨final, leads, attendsFinal, fetchedFinal, List.length_eq_zero_iff.mp nothing⟩

end Fetching

section Answering

/-- The workers of the server and the requests of the client come to an end. -/
structure Provided (env : Env) (site : Site) (state : State) (index : Nat) : Prop where
  workers : ∀ task ∈ state.parties.server.tasks,
    Serviceable env state.parties.server.server task
  waiting : ∀ parcel ∈ state.traffic.broker.contents site.rpcQueue ++
      pendingParcels site state (.client index) (ownCall site index),
    Serviceable env state.parties.server.server (.rpc parcel.message)

/-- A reply with the id of the request has come to the callback queue. -/
def Answered (site : Site) (state : State) (index : Nat) (parcel : Parcel) : Prop :=
  ∃ reply ∈ state.traffic.delivered (site.callbackQueue index) ++
      state.traffic.broker.contents (site.callbackQueue index),
    reply.origin = .server ∧ reply.id = parcel.id

variable {index : Nat} {parcel : Parcel}

/-- The request is the client's own, and so is its id. -/
private theorem own_of_arrived (sound : Sound env site state)
    (came : parcel ∈ state.traffic.arrived site.rpcQueue)
    (isOrigin : parcel.origin = .client index) :
    ownCall site index parcel = true ∧ parcel.id ∈ (state.parties.clients index).ids := by
  obtain ⟨other, own, known⟩ := call_of_arrived sound came
  rw [(ownCall_iff.mp own).1] at isOrigin
  cases isOrigin
  exact ⟨own, known⟩

/-- When the broker has handled what the client gave, the requests in the queue
of the server are those that were waiting. -/
private theorem Provided.fetched (provided : Provided env site state index)
    (lawful : env.json.Lawful) (attends : Attends env site later)
    (handledOn : HandledOn site (.send (.client index)) state later) :
    Fetched env site later later := by
  have server : later.parties.server = state.parties.server := by rw [handledOn.parties]
  refine ⟨rfl, fun _ => rfl, ?_, ?_⟩
  · rw [server]
    exact provided.workers
  · intro parcel member
    rw [server]
    refine provided.waiting parcel ?_
    have came : parcel ∈ later.traffic.arrived site.rpcQueue := List.mem_append_right _ member
    obtain ⟨more, same, wereAsked⟩ := handledOn.contents site.rpcQueue
    rw [same] at member
    rcases List.mem_append.mp member with waits | isNew
    · exact List.mem_append_left _ waits
    · have asked := wereAsked parcel isNew
      have isSend := (mem_logs_publish (List.mem_of_mem_drop asked)).1
      have isOrigin : parcel.origin = .client index := by
        injection isSend with isOrigin
        exact isOrigin.symm
      refine List.mem_append_right _ (List.mem_filterMap.mpr ⟨_, asked, ?_⟩)
      exact Option.filter_some_pos (own_of_arrived (attends.sound lawful) came isOrigin).1

/-- A server without open workers has published a reply for what it took. -/
private theorem Attends.envelope (attends : Attends env site state) (lawful : env.json.Lawful)
    (idle : state.parties.server.tasks = [])
    (taken : parcel ∈ state.traffic.delivered site.rpcQueue)
    (own : ownCall site index parcel = true) :
    ∃ envelope ∈ state.parties.server.published, envelope.correlationID = parcel.id ∧
      envelope.routingKey = site.callbackQueue index := by
  have sound := attends.sound lawful
  obtain ⟨_, run⟩ := attends.run
  have perm := inHand_of_run lawful run attends.alive
  rw [Server.State.inHand, idle] at perm
  have isPublished := perm.mem_iff.mpr (List.mem_map_of_mem taken)
  obtain ⟨envelope, published, sameId⟩ := List.mem_map.mp isPublished
  refine ⟨envelope, published, sameId, ?_⟩
  have linked := Network.linked_of_reachable sound.reachable
  obtain ⟨message, ⟨asker, call, sent⟩, replies⟩ := linked.attributed.published envelope published
  obtain ⟨toReply, toId, _⟩ := replies.sent lawful
  obtain ⟨isReplyTo, isCallId⟩ := replyTo_of_asked lawful sound.reachable sent
  have known := (own_of_arrived sound (List.mem_append_left _ taken) (ownCall_iff.mp own).1).2
  have told := Client.callsTold_of_reachable lawful
    (Network.client_reachable sound.reachable asker)
  have generated := told.ownIds.generated call (Or.inr ⟨message, sent⟩)
  rw [← isCallId, ← toId, sameId] at generated
  rw [toReply, isReplyTo, linked.apart asker index parcel.id generated known]

/-- What the server has published comes to the callback queue. -/
private theorem Attends.answered (attends : Attends env site state) (lawful : env.json.Lawful)
    (handled : state.traffic.handled (.send .server) = (logs site state (.send .server)).length)
    {envelope : Envelope} (published : envelope ∈ state.parties.server.published)
    (isId : envelope.correlationID = parcel.id)
    (toClient : envelope.routingKey = site.callbackQueue index) :
    Answered site state index parcel := by
  obtain ⟨_, run⟩ := attends.run
  have carried := (carried_replies lawful run index).parcels_eq
  have nothing : pendingParcels site state .server (ownReply site index) = [] := by
    rw [pendingParcels, handled, List.drop_length]
    rfl
  have isReply : replyParcel envelope ∈ parcels site state .server (ownReply site index) := by
    refine List.mem_filterMap.mpr ⟨_, List.mem_map_of_mem published, ?_⟩
    exact Option.filter_some_pos (ownReply_iff.mpr ⟨rfl, toClient⟩)
  rw [carried, nothing, List.append_nil, List.nil_append] at isReply
  exact ⟨replyParcel envelope, List.mem_of_mem_filter isReply, rfl, isId⟩

/-- Broker and workers can bring all requests that are not lost to their replies. -/
theorem Attends.answerAll (attends : Attends env site state) (lawful : env.json.Lawful)
    (named : site.rpcQueue ≠ []) (provided : Provided env site state index) :
    ∃ final, (machine env site).Leads Serving state final ∧ Attends env site final ∧
      ∀ parcel ∈ (state.traffic.arrived site.rpcQueue).filter (ownCall site index) ++
          pendingParcels site state (.client index) (ownCall site index),
        Answered site final index parcel := by
  obtain ⟨trace, run⟩ := attends.run
  have isBind : .bindQueue site.rpcExchange site.rpcQueue site.rpcQueue ∈ site.serverSetup := by
    unfold Site.serverSetup Site.callsSetup
    rw [if_neg (by simpa using named)]
    simp
  have listening : Listening site state := attends.done lawful isBind
  obtain ⟨lost, carried⟩ := carried_calls lawful run index
  obtain ⟨sent, toSent, attendsSent, handledOn, allSent⟩ :=
    attends.handleAll lawful (.send (.client index))
  obtain ⟨taken, toTaken, attendsTaken, fetched, nothingWaits⟩ :=
    attendsSent.fetchAll lawful named (provided.fetched lawful attendsSent handledOn)
  obtain ⟨worked, toWorked, attendsWorked, sameClients, sameTraffic, idle⟩ :=
    attendsTaken.workAll lawful fetched.serviceable
  obtain ⟨final, toFinal, attendsFinal, repliesHandled, allReplied⟩ :=
    attendsWorked.handleAll lawful (.send .server)
  have leadsTaken := toSent.trans toTaken
  have carriedTaken := carried_calls_of_listening lawful run listening carried
    (leadsTaken.weaken addressed_of_serving)
  have clients : taken.parties.clients = state.parties.clients := by
    rw [fetched.clients, handledOn.parties]
  have sameLog : logs site taken (.send (.client index)) = logs site state (.send (.client index)) := by
    rw [logs, logs, clients]
  have nothingPending : pendingParcels site taken (.client index) (ownCall site index) = [] := by
    have handledTaken : taken.traffic.handled (.send (.client index)) =
        (logs site taken (.send (.client index))).length := by
      rw [fetched.handled, allSent, sameLog, logs_congr handledOn.parties handledOn.acks]
    rw [pendingParcels, handledTaken, List.drop_length]
    rfl
  have isTaken : (taken.traffic.delivered site.rpcQueue).filter (ownCall site index) =
      (state.traffic.arrived site.rpcQueue).filter (ownCall site index) ++
        pendingParcels site state (.client index) (ownCall site index) := by
    have all := carriedTaken.parcels_eq
    have sameParcels : parcels site taken (.client index) (ownCall site index) =
        parcels site state (.client index) (ownCall site index) := by
      rw [parcels, parcels, sameLog]
    rw [nothingPending, List.append_nil, Traffic.arrived, nothingWaits, List.append_nil,
      sameParcels, carried.parcels_eq, List.append_assoc] at all
    exact (List.append_cancel_left all).symm
  refine ⟨final, leadsTaken.trans (toWorked.trans toFinal), attendsFinal, ?_⟩
  intro parcel member
  rw [← isTaken] at member
  obtain ⟨isDelivered, own⟩ := List.mem_filter.mp member
  obtain ⟨envelope, published, isId, toClient⟩ :=
    attendsWorked.envelope lawful idle (sameTraffic ▸ isDelivered) own
  exact attendsFinal.answered lawful allReplied (repliesHandled.parties ▸ published) isId toClient

/-- Wherever a run stands, broker and workers can bring every request of the
client to its reply, but for those that the server was too late for. -/
theorem requests_can_be_answered (lawful : env.json.Lawful) {trace : List Action}
    (run : (machine env site).Run (Addressed site) trace state)
    (alive : state.parties.server.fault = none)
    (setup : site.serverSetup.length ≤ state.traffic.handled (.receive .server))
    (named : site.rpcQueue ≠ []) (provided : Provided env site state index) :
    ∃ final lost rest, (machine env site).Leads Serving state final ∧
      lost <+: handledParcels site state (.client index) (ownCall site index) ∧
        parcels site state (.client index) (ownCall site index) = lost ++ rest ∧
          ∀ parcel ∈ rest, Answered site final index parcel := by
  have attends : Attends env site state := ⟨⟨_, run⟩, alive, setup⟩
  obtain ⟨lost, carried⟩ := carried_calls lawful run index
  obtain ⟨final, leads, _, answered⟩ := attends.answerAll lawful named provided
  refine ⟨final, lost, _, leads, ⟨_, carried.handledParcels_eq.symm⟩, ?_, answered⟩
  rw [carried.parcels_eq, List.append_assoc]

/-- The request has been given, and everything else is still to come. -/
def givenRequest (state : State) : Bool :=
  state.parties.server.fault.isNone &&
    decide (exampleNames.site.serverSetup.length ≤ state.traffic.handled (.receive .server)) &&
      state.parties.server.tasks.isEmpty &&
        (state.traffic.broker.contents (ascii "calls")).isEmpty &&
          (handledParcels exampleNames.site state (.client 0) (ownCall exampleNames.site 0)).isEmpty &&
            (pendingParcels exampleNames.site state (.client 0) (ownCall exampleNames.site 0)).all
              (fun parcel => decide (Serviceable ⟨codec, false⟩ state.parties.server.server
                (.rpc parcel.message))) &&
              !(parcels exampleNames.site state (.client 0) (ownCall exampleNames.site 0)).isEmpty

theorem provided_of_givenRequest (given : givenRequest state = true) :
    exampleNames.site.serverSetup.length ≤ state.traffic.handled (.receive .server) ∧
      Provided ⟨codec, false⟩ exampleNames.site state 0 := by
  simp only [givenRequest, Bool.and_eq_true, Option.isNone_iff_eq_none, decide_eq_true_eq,
    List.isEmpty_iff, List.all_eq_true, Bool.not_eq_true', List.isEmpty_eq_false_iff] at given
  obtain ⟨⟨⟨⟨⟨⟨_, setup⟩, idle⟩, nothing⟩, _⟩, serviceable⟩, _⟩ := given
  refine ⟨setup, ?_, ?_⟩
  · rw [idle]
    exact nofun
  · intro parcel member
    rw [show state.traffic.broker.contents exampleNames.site.rpcQueue = [] from nothing] at member
    exact serviceable parcel member

/-- The request of the example is answered. -/
theorem requests_can_be_answered_example :
    ∃ state final parcel, (machine ⟨codec, false⟩ exampleNames.site).Run
        (Addressed exampleNames.site) (exampleSetup ++ exampleCall) state ∧
      parcel ∈ parcels exampleNames.site state (.client 0) (ownCall exampleNames.site 0) ∧
        (machine ⟨codec, false⟩ exampleNames.site).Leads Serving state final ∧
          Answered exampleNames.site final 0 parcel := by
  have passed : ((machine ⟨codec, false⟩ exampleNames.site).execWhile addressed
      (exampleSetup ++ exampleCall) (machine ⟨codec, false⟩ exampleNames.site).init).any
        givenRequest = true := by
    decide +kernel
  obtain ⟨state, run, given⟩ := Machine.Run.of_execWhile_any addressed_sound passed
  obtain ⟨setup, provided⟩ := provided_of_givenRequest given
  simp only [givenRequest, Bool.and_eq_true, Option.isNone_iff_eq_none, List.isEmpty_iff,
    Bool.not_eq_true', List.isEmpty_eq_false_iff] at given
  obtain ⟨⟨⟨⟨⟨⟨alive, _⟩, _⟩, _⟩, noneHandled⟩, _⟩, some⟩ := given
  obtain ⟨final, lost, rest, leads, isLost, all, answered⟩ :=
    requests_can_be_answered codec_lawful run alive setup (by decide) provided
  rw [noneHandled] at isLost
  rw [List.prefix_nil.mp isLost, List.nil_append] at all
  obtain ⟨parcel, member⟩ := List.exists_mem_of_ne_nil _ some
  exact ⟨state, final, parcel, run, member, leads, answered parcel (all ▸ member)⟩

end Answering

end Deployment

end Ccmqsrv
