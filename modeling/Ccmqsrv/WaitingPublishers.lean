import Ccmqsrv.PublisherReturn
import Ccmqsrv.WaitingCalls

/-!
# A publish can be completed

A thread in `publish` waits until some bind of its client was confirmed.  As
long as no notification comes too early, it never waits in vain: the threads,
the event loop and the broker on the channel for sending can bring its event to
its queue.
-/

namespace Ccmqsrv

open Foundations

namespace Deployment

/-- Steps of the client, with no call and no publish begun, and of the broker on
its channel for sending. -/
def Publishing (index user : Nat) (state : State) : Action → Prop
  | .handle channel => channel = .send (.client index)
  | .client other action => other = index ∧
      (Client.Proceeds user (state.parties.clients index) action ∨ action = .bindSuccess)
  | _ => False

/-- The site is used with care, and no client notifies a publisher before it
waits, unless another bind is due. -/
structure Mindful (site : Site) (state : State) (action : Action) : Prop where
  careful : Careful site state action
  keeps : ∀ index clientAction, action = .client index clientAction →
    Client.KeepsWakeups (state.parties.clients index) clientAction

/-- The message of an event as it comes to its queue. -/
def eventParcel (site : Site) (index : Nat) (routingKey data : Str) : Parcel where
  origin := .client index
  exchange := site.eventExchange
  routingKey
  message := { body := data, correlationID := [], replyTo := [] }

variable {env : Env} {site : Site} {state after later : State} {action : Action}
  {index user : Nat} {routingKey data : Str}

theorem addressed_of_publishing (publishing : Publishing index user state action) :
    Addressed site state action := by
  cases action with
  | client other action =>
      obtain ⟨_, proceeds | rfl⟩ := publishing
      · cases action with
        | call caller routingKey meth args uuid => exact False.elim proceeds
        | publish publisher routingKey evtType eventData => exact False.elim proceeds
        | _ => trivial
      · trivial
  | _ => trivial

theorem publishing_of_handlesOn (handles : HandlesOn (.send (.client index)) state action) :
    Publishing index user state action := by
  cases action with
  | handle channel => exact handles
  | _ => exact False.elim handles

theorem inward_of_proceeds {client : Client.State} {clientAction : Client.Action}
    (proceeds : Client.Proceeds user client clientAction) : Inward clientAction := by
  cases clientAction with
  | advance thread => trivial
  | store notified => trivial
  | wakePublisher other => trivial
  | _ => exact False.elim proceeds

section Runs

private theorem due_putClient {parties : Network.State} {mover : Nat} {client : Client.State}
    (due : ∀ index, Client.WakeupsDue (parties.clients index)) (moved : Client.WakeupsDue client)
    (index : Nat) : Client.WakeupsDue ((parties.putClient mover client).clients index) := by
  by_cases same : index = mover
  · subst same
    rw [Network.State.putClient_self]
    exact moved
  · rw [Network.State.putClient_of_ne _ _ same]
    exact due index

/-- No client loses a wake-up of a publisher. -/
theorem due_of_run {trace : List Action} (run : (machine env site).Run (Mindful site) trace state)
    (index : Nat) : Client.WakeupsDue (state.parties.clients index) := by
  refine run.invariant (fun _ state => ∀ index, Client.WakeupsDue (state.parties.clients index))
    ?_ ?_ index
  · intro _ _ _ inited
    cases inited
  · intro _ state _ _ _ due mindful stepped
    cases step_effect stepped with
    | @client mover clientAction client notDelivery fresh isRunning isGranted moved =>
        have keeps := mindful.keeps mover clientAction rfl
        exact due_putClient due ((due mover).next keeps (Client.step_effect moved).2)
    | @reply mover consumer parcel tag broker client connection queue delivers moved =>
        have keeps : Client.KeepsWakeups (state.parties.clients mover)
            (.deliver (responseOf parcel)) := nofun
        exact due_putClient due ((due mover).next keeps (Client.step_effect moved).2)
    | _ => exact due

private theorem idle_putClient {parties : Network.State} {mover : Nat} {client : Client.State}
    (idle : (parties.clients index).users user = .idle)
    (moved : index = mover → client.users user = (parties.clients mover).users user) :
    ((parties.putClient mover client).clients index).users user = .idle := by
  by_cases same : index = mover
  · subst same
    rw [Network.State.putClient_self, moved rfl]
    exact idle
  · rw [Network.State.putClient_of_ne _ _ same]
    exact idle

/-- No thread uses a client before its constructor has returned. -/
theorem idle_of_stopped (reachable : (machine env site).Reachable state)
    (stopped : state.running index = false) (user : Nat) :
    (state.parties.clients index).users user = .idle := by
  refine reachable.invariant (fun state => state.running index = false →
    (state.parties.clients index).users user = .idle) (fun _ => rfl) ?_ stopped
  intro state _ _ _ idle stepped stopped
  cases step_effect stepped with
  | @start mover ready =>
      have stopped : Function.update state.running mover true index = false := stopped
      by_cases same : index = mover
      · rw [same, Function.update_self] at stopped
        cases stopped
      · rw [Function.update_of_ne same] at stopped
        exact idle stopped
  | client notDelivery fresh isRunning isGranted moved =>
      refine idle_putClient (idle stopped) ?_
      intro same
      subst same
      rw [show state.running index = false from stopped] at isRunning
      cases isRunning
  | reply connection queue delivers moved =>
      refine idle_putClient (idle stopped) ?_
      intro _
      exact (Client.step_effect moved).2.users_of_ne nofun
  | _ => exact idle stopped

end Runs

section Completion

/-- The publisher can publish its event. -/
def CanPublish (env : Env) (site : Site) (index user : Nat) (routingKey data : Str)
    (state : State) : Prop :=
  ∃ final before, (machine env site).Leads (Publishing index user) state final ∧
    ((final.parties.clients index).users user = .idle ∧
      (state.parties.clients index).commands <+: before) ∧
        (final.parties.clients index).commands =
          before ++ [Client.eventCommand (site.config index) routingKey data]

/-- What the client does by itself it does at its site. -/
private theorem leads_publishing {client : Client.State} (running : state.running index = true)
    (leads : (Client.machine env (site.config index)).Leads (Client.Proceeds user)
      (state.parties.clients index) client) :
    ∃ later, (machine env site).Leads (Publishing index user) state later ∧
      later.parties.clients index = client ∧ Beside state later := by
  refine leads_client running inward_of_proceeds ?_ leads
  intro later clientAction proceeds
  exact ⟨rfl, Or.inl proceeds⟩

private theorem CanPublish.of_client (running : state.running index = true)
    (publishes : Client.CanPublish env (site.config index) user routingKey data
      (state.parties.clients index)) : CanPublish env site index user routingKey data state := by
  obtain ⟨client, before, moves, idle, grows, published⟩ := publishes
  obtain ⟨final, leads, rfl, _⟩ := leads_publishing running moves
  exact ⟨final, before, leads, ⟨idle, grows⟩, published⟩

private theorem CanPublish.of_leads
    (leads : (machine env site).Leads (Publishing index user) state later)
    (publishes : CanPublish env site index user routingKey data later) :
    CanPublish env site index user routingKey data state := by
  obtain ⟨final, before, toFinal, ⟨idle, grows⟩, published⟩ := publishes
  have earlier : (state.parties.clients index).commands <+:
      (later.parties.clients index).commands := by
    refine leads.invariant (fun between => (state.parties.clients index).commands <+:
      (between.parties.clients index).commands) (List.prefix_refl _) ?_
    intro between next action grown _ stepped
    exact grown.trans (commands_grows (step_effect stepped) index)
  exact ⟨final, before, leads.trans toFinal, ⟨idle, earlier.trans grows⟩, published⟩

/-- The confirmation of a bind comes when the broker has handled all binds. -/
private theorem publishes_of_awaits (running : state.running index = true)
    (handled : state.traffic.handled (.send (.client index)) =
      (logs site state (.send (.client index))).length)
    (awaits : Client.AwaitsBind env (site.config index) user routingKey data
      (state.parties.clients index)) : CanPublish env site index user routingKey data state := by
  obtain ⟨client, moved, publishes⟩ := awaits.confirmed
  have isGranted : granted site state index .bindSuccess = true := by
    unfold granted confirmed
    rw [handled, List.take_length]
    exact decide_eq_true (Nat.lt_add_of_pos_right (Nat.pos_of_ne_zero awaits.pending))
  have stepped : (machine env site).step state (.client index .bindSuccess) =
      some { state with parties := state.parties.putClient index client } := by
    have moved : Client.step env (site.config index) (state.parties.clients index)
        .bindSuccess = some client := moved
    have allowed : ((Client.Action.bindSuccess).isDelivery ||
        (Client.Action.bindSuccess).reuses state.parties.ids || !state.running index ||
          !granted site state index .bindSuccess) = false := by
      rw [running, isGranted]
      rfl
    show step env site state (.client index .bindSuccess) = _
    rw [step, if_neg (Bool.eq_false_iff.mp allowed), moved]
    rfl
  have allowed : Publishing index user state (.client index .bindSuccess) := ⟨rfl, Or.inr rfl⟩
  refine CanPublish.of_leads (Machine.Leads.step allowed stepped)
    (CanPublish.of_client running ?_)
  show Client.CanPublish _ _ _ _ _ ((state.parties.putClient index client).clients index)
  rw [Network.State.putClient_self]
  exact publishes

/-- Handling requests starts and stops no client. -/
private theorem running_of_handlesOn {channel : Channel}
    (leads : (machine env site).Leads (HandlesOn channel) state later) :
    later.running = state.running := by
  refine leads.invariant (fun later => later.running = state.running) rfl ?_
  intro between next action same handles stepped
  cases step_effect stepped with
  | handle next handled => exact same
  | refuse next refused => exact same
  | _ => exact False.elim handles

/-- A publisher can publish its event. -/
private theorem canPublish_of_run (lawful : env.json.Lawful) {trace : List Action}
    {point : Client.PublishPoint} (run : (machine env site).Run (Mindful site) trace state)
    (inPublish : (state.parties.clients index).users user = .publish routingKey data point) :
    CanPublish env site index user routingKey data state := by
  have careful := run.weaken Mindful.careful
  have addressedRun := careful.weaken Careful.addressed
  have running : state.running index = true := by
    cases stopped : state.running index with
    | true => rfl
    | false =>
        rw [idle_of_stopped run.reachable stopped user] at inPublish
        cases inPublish
  have well : Client.Well env (site.config index) (state.parties.clients index) :=
    ⟨Network.client_reachable (sound_of_run lawful addressedRun).reachable index,
      (attentive_of_run lawful careful).2 index⟩
  rcases well.publishes_or_awaits (due_of_run run index) inPublish with
    publishes | ⟨client, moves, awaits⟩
  · exact CanPublish.of_client running publishes
  · obtain ⟨waiting, toWaiting, rfl, beside⟩ := leads_publishing running moves
    obtain ⟨_, runWaiting⟩ := (toWaiting.weaken addressed_of_publishing).run addressedRun
    obtain ⟨handling, handles, handledOn, handled⟩ :=
      exists_allHandled lawful runWaiting (.send (.client index))
    have isRunning : handling.running index = true := by
      rw [running_of_handlesOn handles, beside.running]
      exact running
    have sameClients : handling.parties.clients index = waiting.parties.clients index := by
      rw [handledOn.parties]
    exact CanPublish.of_leads (toWaiting.trans (handles.weaken publishing_of_handlesOn))
      (publishes_of_awaits isRunning handled (sameClients ▸ awaits))

private theorem parcels_of_commands {before : List Client.Command}
    (grows : (state.parties.clients index).commands <+: before)
    (published : (later.parties.clients index).commands =
      before ++ [Client.eventCommand (site.config index) routingKey data]) :
    ∃ earlier, parcels site state (.client index) (ownEvent site index routingKey) <+: earlier ∧
      parcels site later (.client index) (ownEvent site index routingKey) =
        earlier ++ [eventParcel site index routingKey data] := by
  have own : ownEvent site index routingKey (eventParcel site index routingKey data) = true :=
    ownEvent_iff.mpr ⟨rfl, rfl, rfl⟩
  refine ⟨(before.map (commandRequest index)).filterMap fun request =>
    (Deployment.published request).filter (ownEvent site index routingKey), ?_, ?_⟩
  · exact (grows.map _).filterMap _
  · rw [parcels, logs, published, List.map_append, List.filterMap_append]
    congr 1
    exact List.filterMap_cons_some (Option.filter_some_pos own)

/-- A publish that was begun can be completed: by steps of the threads and the
event loop of the client and of the broker on its channel for sending the
thread returns, and its event comes to its queue after all that the client had
published with the routing key before. -/
theorem publish_can_complete (lawful : env.json.Lawful) {trace : List Action}
    {point : Client.PublishPoint} (run : (machine env site).Run (Mindful site) trace state)
    (inPublish : (state.parties.clients index).users user = .publish routingKey data point) :
    ∃ final earlier, (machine env site).Leads (Publishing index user) state final ∧
      (final.parties.clients index).users user = .idle ∧
      parcels site state (.client index) (ownEvent site index routingKey) <+: earlier ∧
      (final.traffic.arrived routingKey).filter (ownEvent site index routingKey) =
        earlier ++ [eventParcel site index routingKey data] := by
  obtain ⟨ended, before, toEnded, ⟨idle, grows⟩, published⟩ := canPublish_of_run lawful run inPublish
  have addressedRun := (run.weaken Mindful.careful).weaken Careful.addressed
  obtain ⟨_, runEnded⟩ := (toEnded.weaken addressed_of_publishing).run addressedRun
  obtain ⟨final, handles, handledOn, handled⟩ :=
    exists_allHandled lawful runEnded (.send (.client index))
  have toFinal : (machine env site).Leads (Publishing index user) state final :=
    toEnded.trans (handles.weaken publishing_of_handlesOn)
  obtain ⟨_, runFinal⟩ := (toFinal.weaken addressed_of_publishing).run addressedRun
  have sameClients : final.parties.clients index = ended.parties.clients index := by
    rw [handledOn.parties]
  rw [← sameClients] at published idle
  obtain ⟨earlier, isEarlier, all⟩ := parcels_of_commands grows published
  have nothingPending :
      pendingParcels site final (.client index) (ownEvent site index routingKey) = [] := by
    rw [pendingParcels, handled, List.drop_length]
    rfl
  have arrived := (carried_events lawful runFinal index routingKey).parcels_eq
  rw [nothingPending, List.append_nil, List.nil_append, all] at arrived
  exact ⟨final, earlier, toFinal, idle, isEarlier, arrived.symm⟩

/-- `Mindful`, computed for clients of the example site. -/
def mindful (state : State) (action : Action) : Bool :=
  careful state action &&
    match action with
    | .client index clientAction =>
        Client.keepsWakeups (state.parties.clients index) clientAction
    | _ => true

theorem mindful_sound (state : State) (action : Action) (passed : mindful state action = true) :
    Mindful exampleNames.site state action := by
  obtain ⟨isCareful, keeps⟩ := Bool.and_eq_true_iff.mp passed
  refine ⟨careful_sound state action isCareful, ?_⟩
  intro index clientAction same
  subst same
  exact Client.keepsWakeups_sound _ _ keeps

/-- A publisher of the example site waits for its bind. -/
def exampleBlocked : List Action :=
  exampleSetup ++ .client 0 (.publish 1 (ascii "events") (ascii "e") .null) ::
    List.replicate 7 (.client 0 (.advance (.user 1)))

theorem publish_can_complete_exampleBlocked :
    ∃ state final routingKey data, (machine ⟨codec, false⟩ exampleNames.site).Run
        (Mindful exampleNames.site) exampleBlocked state ∧
      (state.parties.clients 0).users 1 = .publish routingKey data .blocked ∧
        (machine ⟨codec, false⟩ exampleNames.site).Leads (Publishing 0 1) state final ∧
          eventParcel exampleNames.site 0 routingKey data ∈ final.traffic.arrived routingKey := by
  have passed : ((machine ⟨codec, false⟩ exampleNames.site).execWhile mindful exampleBlocked
      (machine ⟨codec, false⟩ exampleNames.site).init).any
        (fun state => ((state.parties.clients 0).users 1).blocked) = true := by
    decide +kernel
  obtain ⟨state, run, blocked⟩ := Machine.Run.of_execWhile_any mindful_sound passed
  unfold Client.Activity.blocked at blocked
  split at blocked
  · rename_i routingKey data inPublish
    obtain ⟨final, earlier, leads, _, _, arrived⟩ :=
      publish_can_complete codec_lawful run inPublish
    refine ⟨state, final, routingKey, data, run, inPublish, leads, ?_⟩
    refine List.mem_of_mem_filter (p := ownEvent exampleNames.site 0 routingKey) ?_
    rw [arrived]
    exact List.mem_append_right _ (List.mem_singleton_self _)
  · cases blocked

end Completion

end Deployment

end Ccmqsrv
