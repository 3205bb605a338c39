import Ccmqsrv.Foundations.Broker
import Ccmqsrv.Foundations.Conveyance

/-!
# Traffic through a broker

Connections give their requests on channels.  The broker handles the requests
of a channel in the order they were given, and takes messages from the front of
a queue to a consumer.  What was given so far is a log for each channel, and
logs only go on.

Whatever the broker has was asked for in some log, and what handled requests
were for is there.
-/

namespace Ccmqsrv.Foundations

variable {χ κ ν μ : Type}

/-- A broker, and how far it is. -/
structure Traffic (χ κ ν μ : Type) where
  broker : Broker κ ν μ := {}
  /-- How many requests of the channel were handled. -/
  handled : χ → Nat := fun _ => 0
  /-- What was taken from the queue, for the statements about runs. -/
  delivered : ν → List μ := fun _ => []

namespace Traffic

/-- The broker has handled the next request of the channel. -/
def handling [DecidableEq χ] (traffic : Traffic χ κ ν μ) (channel : χ) (broker : Broker κ ν μ) :
    Traffic χ κ ν μ :=
  { traffic with
    broker
    handled := Function.update traffic.handled channel (traffic.handled channel + 1) }

/-- The broker has delivered the front message of the queue. -/
def delivering [DecidableEq ν] (traffic : Traffic χ κ ν μ) (queue : ν) (message : μ)
    (broker : Broker κ ν μ) : Traffic χ κ ν μ :=
  { traffic with
    broker
    delivered := Function.update traffic.delivered queue (traffic.delivered queue ++ [message]) }

section Fields

variable [DecidableEq χ] [DecidableEq ν] (traffic : Traffic χ κ ν μ) {channel other : χ}
  {queue different : ν} (message : μ) (broker : Broker κ ν μ)

omit [DecidableEq ν] in
@[simp]
theorem handled_handling_self :
    (traffic.handling channel broker).handled channel = traffic.handled channel + 1 :=
  Function.update_self ..

omit [DecidableEq ν] in
theorem handled_handling_of_ne (isOther : other ≠ channel) :
    (traffic.handling channel broker).handled other = traffic.handled other :=
  Function.update_of_ne isOther ..

omit [DecidableEq χ] in
@[simp]
theorem delivered_delivering_self :
    (traffic.delivering queue message broker).delivered queue =
      traffic.delivered queue ++ [message] :=
  Function.update_self ..

omit [DecidableEq χ] in
theorem delivered_delivering_of_ne (isOther : different ≠ queue) :
    (traffic.delivering queue message broker).delivered different = traffic.delivered different :=
  Function.update_of_ne isOther ..

omit [DecidableEq χ] in
theorem delivered_prefix_delivering (other : ν) :
    traffic.delivered other <+: (traffic.delivering queue message broker).delivered other := by
  by_cases same : other = queue
  · subst same
    rw [delivered_delivering_self]
    exact List.prefix_append _ _
  · exact (delivered_delivering_of_ne traffic message broker same) ▸ List.prefix_refl _

end Fields

/-- What came to the queue. -/
def arrived (traffic : Traffic χ κ ν μ) (queue : ν) : List μ :=
  traffic.delivered queue ++ traffic.broker.contents queue

variable [DecidableEq ν]

/-- The state of the broker and the logs agree. -/
structure Settled (accepts : ν → ν → Bool) (connection : χ → κ)
    (logs : χ → List (BrokerRequest κ ν μ)) (traffic : Traffic χ κ ν μ) : Prop where
  handled_le : ∀ channel, traffic.handled channel ≤ (logs channel).length
  done : ∀ channel, ∀ request ∈ (logs channel).take (traffic.handled channel),
    traffic.broker.Done (connection channel) request
  queues : ∀ queue kind, traffic.broker.kind queue = some kind →
    ∃ channel, .declareQueue queue kind ∈ logs channel
  bindings : ∀ binding ∈ traffic.broker.bindings,
    ∃ channel, .bindQueue binding.exchange binding.queue binding.key ∈ logs channel
  bound : ∀ binding ∈ traffic.broker.bindings, ∃ kind,
    traffic.broker.kind binding.queue = some kind
  consumers : ∀ consumer ∈ traffic.broker.consumers, ∃ channel,
    connection channel = consumer.connection ∧
      .consume consumer.queue consumer.noack ∈ logs channel
  messages : ∀ queue, ∀ message ∈ traffic.arrived queue, ∃ channel exchange key,
    .publish exchange key message ∈ logs channel ∧
      traffic.broker.leads accepts exchange key queue = true

variable {accepts : ν → ν → Bool} {connection : χ → κ}
  {logs later : χ → List (BrokerRequest κ ν μ)} {traffic : Traffic χ κ ν μ}
  {broker : Broker κ ν μ} {request : BrokerRequest κ ν μ} {channel : χ} {queue : ν}

theorem settled_start (accepts : ν → ν → Bool) (connection : χ → κ)
    (logs : χ → List (BrokerRequest κ ν μ)) :
    Settled accepts connection logs ({} : Traffic χ κ ν μ) :=
  ⟨fun _ => Nat.zero_le _, nofun, nofun, nofun, nofun, nofun, nofun⟩

theorem leads_mono {earlier after : Broker κ ν μ} (bindings : earlier.bindings ⊆ after.bindings)
    {exchange : Option ν} {key : ν} (leads : earlier.leads accepts exchange key queue = true) :
    after.leads accepts exchange key queue = true := by
  cases exchange with
  | none => exact leads
  | some exchange =>
      obtain ⟨binding, member, matched⟩ := List.any_eq_true.mp leads
      exact List.any_eq_true.mpr ⟨binding, bindings member, matched⟩

namespace Settled

theorem extend (settled : Settled accepts connection logs traffic)
    (grows : ∀ channel, logs channel <+: later channel) :
    Settled accepts connection later traffic := by
  constructor
  · intro channel
    exact Nat.le_trans (settled.handled_le channel) (grows channel).length_le
  · intro channel request member
    obtain ⟨rest, same⟩ := grows channel
    rw [← same, List.take_append_of_le_length (settled.handled_le channel)] at member
    exact settled.done channel request member
  · intro queue kind declared
    obtain ⟨channel, member⟩ := settled.queues queue kind declared
    exact ⟨channel, (grows channel).subset member⟩
  · intro binding bound
    obtain ⟨channel, member⟩ := settled.bindings binding bound
    exact ⟨channel, (grows channel).subset member⟩
  · exact settled.bound
  · intro consumer consuming
    obtain ⟨channel, own, member⟩ := settled.consumers consumer consuming
    exact ⟨channel, own, (grows channel).subset member⟩
  · intro queue message came
    obtain ⟨channel, exchange, key, member, leads⟩ := settled.messages queue message came
    exact ⟨channel, exchange, key, (grows channel).subset member, leads⟩

variable [DecidableEq κ]

section Handle

variable [DecidableEq χ] (settled : Settled accepts connection logs traffic)
  (next : (logs channel)[traffic.handled channel]? = some request)
  (handled : traffic.broker.Handled accepts (connection channel) request broker)

include settled next handled

private theorem done_handle (other : χ) :
    ∀ earlier ∈ (logs other).take ((traffic.handling channel broker).handled other),
      broker.Done (connection other) earlier := by
  intro earlier member
  by_cases same : other = channel
  · subst same
    rw [handled_handling_self, List.take_add_one, next] at member
    rcases List.mem_append.mp member with before | isLast
    · exact handled.done_of_done (settled.done other earlier before)
    · rw [List.mem_singleton.mp isLast]
      exact handled.done
  · rw [handled_handling_of_ne _ _ same] at member
    exact handled.done_of_done (settled.done other earlier member)

private theorem messages_handle (queue : ν) :
    ∀ message ∈ (traffic.handling channel broker).arrived queue, ∃ source exchange key,
      .publish exchange key message ∈ logs source ∧
        broker.leads accepts exchange key queue = true := by
  intro message came
  rw [arrived, handling, handled.contents_eq, ← List.append_assoc] at came
  rcases List.mem_append.mp came with before | arrives
  · obtain ⟨source, exchange, key, member, leads⟩ := settled.messages queue message before
    exact ⟨source, exchange, key, member, leads_mono handled.bindings_subset leads⟩
  · have inLog := List.mem_of_getElem? next
    cases request with
    | publish exchange key published =>
        rw [Broker.arrivals] at arrives
        split at arrives
        · rename_i goes
          rw [List.mem_singleton.mp arrives]
          exact ⟨channel, exchange, key, inLog,
            leads_mono handled.bindings_subset (Bool.and_eq_true_iff.mp goes).2⟩
        · cases arrives
    | _ => cases arrives

theorem handle : Settled accepts connection logs (traffic.handling channel broker) := by
  have inLog := List.mem_of_getElem? next
  constructor
  · intro other
    by_cases same : other = channel
    · subst same
      rw [handled_handling_self]
      exact (List.getElem?_eq_some_iff.mp next).1
    · rw [handled_handling_of_ne _ _ same]
      exact settled.handled_le other
  · exact fun other => settled.done_handle next handled other
  · intro queue kind declared
    rcases handled.kind_before declared with before | asked
    · exact settled.queues queue kind before
    · exact ⟨channel, asked ▸ inLog⟩
  · intro binding bound
    rcases handled.binding_before bound with before | asked
    · exact settled.bindings binding before
    · exact ⟨channel, asked ▸ inLog⟩
  · intro binding bound
    rcases handled.binding_before bound with before | asked
    · obtain ⟨kind, declared⟩ := settled.bound binding before
      exact ⟨kind, handled.kind_of_kind declared⟩
    · subst asked
      exact handled.kind_of_bind
  · intro consumer consuming
    rcases handled.consumer_before consuming with before | ⟨own, asked⟩
    · exact settled.consumers consumer before
    · exact ⟨channel, own.symm, asked ▸ inLog⟩
  · exact fun queue => settled.messages_handle next handled queue

end Handle

section Deliver

variable {consumer : Consumer κ ν} {message : μ} {tag : Nat}
  (delivers : traffic.broker.Delivers consumer message tag broker)

include delivers

/-- A delivery takes a message from a queue, and nothing else comes or goes. -/
theorem arrived_delivering (queue : ν) :
    (traffic.delivering consumer.queue message broker).arrived queue = traffic.arrived queue := by
  by_cases same : queue = consumer.queue
  · rw [arrived, arrived, same, delivered_delivering_self, delivers.front, List.append_assoc]
    rfl
  · rw [arrived, arrived, delivered_delivering_of_ne _ _ _ same, ← delivers.others queue same]
    rfl

theorem deliver (settled : Settled accepts connection logs traffic) :
    Settled accepts connection logs (traffic.delivering consumer.queue message broker) := by
  constructor
  · exact settled.handled_le
  · intro channel request member
    exact delivers.done_of_done (settled.done channel request member)
  · intro queue kind declared
    rw [delivering, delivers.kind] at declared
    exact settled.queues queue kind declared
  · intro binding bound
    rw [delivering, delivers.bindings] at bound
    exact settled.bindings binding bound
  · intro binding bound
    rw [delivering, delivers.bindings] at bound
    rw [delivering, delivers.kind]
    exact settled.bound binding bound
  · intro other consuming
    rw [delivering, delivers.consumers] at consuming
    exact settled.consumers other consuming
  · intro queue came arrives
    rw [arrived_delivering delivers] at arrives
    obtain ⟨source, exchange, key, member, leads⟩ := settled.messages queue came arrives
    exact ⟨source, exchange, key, member, leads_mono delivers.bindings_subset leads⟩

end Deliver

end Settled

/-- The queue gets the messages of the channel in order, apart from those that
are lost. -/
def Carries (traffic : Traffic χ κ ν μ) (logs : χ → List (BrokerRequest κ ν μ)) (channel : χ)
    (queue : ν) (message : BrokerRequest κ ν μ → Option μ) (keep : μ → Bool) (lost : List μ) :
    Prop :=
  Conveys message keep (logs channel) (traffic.handled channel) lost
    (traffic.broker.contents queue) (traffic.delivered queue)

namespace Carries

variable {message : BrokerRequest κ ν μ → Option μ} {keep : μ → Bool} {lost : List μ}
  {source : χ}

omit [DecidableEq ν] in
theorem extend (carries : traffic.Carries logs source queue message keep lost)
    (grows : logs source <+: later source) :
    traffic.Carries later source queue message keep lost := by
  obtain ⟨rest, same⟩ := grows
  unfold Carries
  rw [← same]
  exact Conveys.extend carries rest

variable [DecidableEq κ]

theorem deliver {consumer : Consumer κ ν} {taken : μ} {tag : Nat}
    (carries : traffic.Carries logs source queue message keep lost)
    (delivers : traffic.broker.Delivers consumer taken tag broker) :
    (traffic.delivering consumer.queue taken broker).Carries logs source queue message keep
      lost := by
  unfold Carries
  by_cases same : queue = consumer.queue
  · subst same
    rw [delivered_delivering_self]
    exact Conveys.take carries delivers.front
  · rw [delivered_delivering_of_ne _ _ _ same]
    exact Conveys.aside carries (congrArg (List.filter keep) (delivers.others queue same))

variable [DecidableEq χ]

/-- A request of the channel is handled and puts its message into the queue, or
one of another channel puts nothing of this one there. -/
theorem handle (carries : traffic.Carries logs source queue message keep lost)
    (next : (logs channel)[traffic.handled channel]? = some request)
    (handled : traffic.broker.Handled accepts (connection channel) request broker)
    (own : channel = source → (traffic.broker.arrivals accepts request queue).filter keep =
      (message request).toList)
    (others : channel ≠ source →
      (traffic.broker.arrivals accepts request queue).filter keep = []) :
    (traffic.handling channel broker).Carries logs source queue message keep lost := by
  have put : (broker.contents queue).filter keep =
      (traffic.broker.contents queue).filter keep ++
        (traffic.broker.arrivals accepts request queue).filter keep := by
    rw [handled.contents_eq, List.filter_append]
  unfold Carries
  by_cases same : channel = source
  · subst same
    rw [handled_handling_self]
    refine Conveys.handle carries next ?_
    rw [← own rfl]
    exact put
  · rw [handled_handling_of_ne _ _ (Ne.symm same)]
    refine Conveys.aside carries ?_
    rw [others same, List.append_nil] at put
    exact put

/-- A request is handled while nothing has come to the queue and nothing comes. -/
theorem handle_lost (carries : traffic.Carries logs source queue message keep lost)
    (next : (logs channel)[traffic.handled channel]? = some request)
    (handled : traffic.broker.Handled accepts (connection channel) request broker)
    (nothing : (traffic.arrived queue).filter keep = [])
    (none : (traffic.broker.arrivals accepts request queue).filter keep = []) :
    ∃ lost, (traffic.handling channel broker).Carries logs source queue message keep lost := by
  have same : (broker.contents queue).filter keep = (traffic.broker.contents queue).filter keep := by
    rw [handled.contents_eq, List.filter_append, none, List.append_nil]
  unfold Carries
  by_cases isSource : channel = source
  · subst isSource
    rw [handled_handling_self]
    exact ⟨_, (Conveys.lose carries next nothing).aside same⟩
  · rw [handled_handling_of_ne _ _ (Ne.symm isSource)]
    exact ⟨lost, Conveys.aside carries same⟩

end Carries

end Traffic

end Ccmqsrv.Foundations
