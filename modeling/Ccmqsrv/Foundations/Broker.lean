import Mathlib.Logic.Function.Basic
import Mathlib.Data.List.Basic

/-!
# Message brokers

A broker has exchanges, queues and bindings between them.  A message that is
published to an exchange is put once into every queue that a binding with a
matching key leads to; the default exchange leads to the queue that has the key
for its name.  Consumers take messages from the front of their queue.

Connections give requests one after the other.  A broker may refuse a request
that refers to something that does not exist, declares a queue as something
else than it is, uses a queue of another connection, acknowledges nothing, or
needs a name that the broker keeps to itself.

How a broker works is left open: `BrokerService` has its two operations as
parameters, with laws about what can be seen of it.  Connections stay open,
queues are not deleted, and there is room for every message.
-/

namespace Ccmqsrv.Foundations

variable {κ ν μ : Type}

/-- How a queue was declared. -/
structure QueueKind (κ : Type) where
  durable : Bool
  autodelete : Bool
  /-- The connection that the queue is exclusive to. -/
  owner : Option κ
  deriving DecidableEq

structure Binding (ν : Type) where
  exchange : ν
  queue : ν
  key : ν
  deriving DecidableEq

structure Consumer (κ ν : Type) where
  connection : κ
  queue : ν
  noack : Bool
  /-- The number of deliveries without acknowledgement, or zero for any. -/
  prefetch : Nat

/-- A broker, as far as it can be seen, and whatever else it keeps. -/
structure Broker (κ ν μ : Type) where
  exchanges : List ν := []
  /-- How the queue was declared, if it was. -/
  kind : ν → Option (QueueKind κ) := fun _ => none
  /-- The oldest message is first. -/
  contents : ν → List μ := fun _ => []
  bindings : List (Binding ν) := []
  consumers : List (Consumer κ ν) := []
  /-- The prefetch of consumers to come. -/
  prefetch : κ → Nat := fun _ => 0
  /-- The tag of the last delivery. -/
  lastTag : κ → Nat := fun _ => 0
  /-- Tags of deliveries that were not acknowledged. -/
  unacked : κ → List Nat := fun _ => []
  memory : List UInt8 := []

inductive BrokerRequest (κ ν μ : Type) where
  | declareExchange (exchange : ν)
  | declareQueue (queue : ν) (kind : QueueKind κ)
  | bindQueue (exchange queue key : ν)
  | setQos (prefetch : Nat)
  | consume (queue : ν) (noack : Bool)
  /-- Without an exchange the message goes to the default exchange. -/
  | publish (exchange : Option ν) (key : ν) (message : μ)
  | ack (tag : Nat)

/-- Which names can be declared, and which can be keys. -/
structure NameLimits (ν : Type) where
  permits : ν → Prop
  fits : ν → Prop
  fits_of_permits : ∀ {name}, permits name → fits name

namespace Broker

/-- The consumer may be given another message. -/
def ready (broker : Broker κ ν μ) (consumer : Consumer κ ν) : Bool :=
  consumer.noack || consumer.prefetch = 0 ||
    (broker.unacked consumer.connection).length < consumer.prefetch

variable [DecidableEq κ] [DecidableEq ν]

/-- The connection may use the queue. -/
def opens (broker : Broker κ ν μ) (connection : κ) (queue : ν) : Bool :=
  (broker.kind queue).any fun kind => kind.owner.all fun owner => owner = connection

/-- A binding leads from the exchange to the queue; `accepts` matches the key
of a binding with the key of a message. -/
def routes (broker : Broker κ ν μ) (accepts : ν → ν → Bool) (exchange key queue : ν) : Bool :=
  broker.bindings.any fun binding =>
    binding.exchange = exchange && binding.queue = queue && accepts binding.key key

/-- A message with this key goes from the exchange to the queue. -/
def leads (broker : Broker κ ν μ) (accepts : ν → ν → Bool) : Option ν → ν → ν → Bool
  | none, key, queue => queue = key
  | some exchange, key, queue => broker.routes accepts exchange key queue

/-- The messages that a request puts into a queue. -/
def arrivals (broker : Broker κ ν μ) (accepts : ν → ν → Bool) :
    BrokerRequest κ ν μ → ν → List μ
  | .publish exchange key message, queue =>
      if (broker.kind queue).isSome && broker.leads accepts exchange key queue then [message]
      else []
  | _, _ => []

/-- The open deliveries after a request. -/
def acknowledged (broker : Broker κ ν μ) (connection : κ) : BrokerRequest κ ν μ → κ → List Nat
  | .ack tag =>
      Function.update broker.unacked connection ((broker.unacked connection).erase tag)
  | _ => broker.unacked

/-- What can be seen of a request that was not refused. -/
structure Handled (broker : Broker κ ν μ) (accepts : ν → ν → Bool) (connection : κ)
    (request : BrokerRequest κ ν μ) (after : Broker κ ν μ) : Prop where
  contents_eq : ∀ queue,
    after.contents queue = broker.contents queue ++ broker.arrivals accepts request queue
  kind_iff : ∀ queue kind, after.kind queue = some kind ↔
    broker.kind queue = some kind ∨ request = .declareQueue queue kind
  exchange_iff : ∀ exchange, exchange ∈ after.exchanges ↔
    exchange ∈ broker.exchanges ∨ request = .declareExchange exchange
  binding_iff : ∀ binding, binding ∈ after.bindings ↔
    binding ∈ broker.bindings ∨ request = .bindQueue binding.exchange binding.queue binding.key
  bound : ∀ {exchange queue key}, request = .bindQueue exchange queue key →
    ∃ kind, broker.kind queue = some kind
  consumer_iff : ∀ consumer, consumer ∈ after.consumers ↔
    consumer ∈ broker.consumers ∨ consumer.connection = connection ∧
      consumer.prefetch = broker.prefetch connection ∧
        request = .consume consumer.queue consumer.noack
  unacked : after.unacked = broker.acknowledged connection request

/-- The broker has no reason to refuse the request. -/
def Welcomes (broker : Broker κ ν μ) (names : NameLimits ν) (connection : κ) :
    BrokerRequest κ ν μ → Prop
  | .declareExchange exchange => names.permits exchange
  | .declareQueue queue kind => names.permits queue ∧
      kind.owner.all (fun owner => owner = connection) = true ∧
        ∀ other, broker.kind queue = some other → other = kind
  | .bindQueue exchange queue key => names.fits key ∧ exchange ∈ broker.exchanges ∧
      broker.opens connection queue = true
  | .setQos _ => True
  | .consume queue _ => broker.opens connection queue = true
  | .publish exchange key _ => names.fits key ∧
      ∀ name, exchange = some name → name ∈ broker.exchanges
  | .ack tag => tag ∈ broker.unacked connection

/-- Everything a delivery does. -/
structure Delivers (broker : Broker κ ν μ) (consumer : Consumer κ ν) (message : μ) (tag : Nat)
    (after : Broker κ ν μ) : Prop where
  consuming : consumer ∈ broker.consumers
  front : broker.contents consumer.queue = message :: after.contents consumer.queue
  others : ∀ other, other ≠ consumer.queue → after.contents other = broker.contents other
  kind : after.kind = broker.kind
  exchanges : after.exchanges = broker.exchanges
  bindings : after.bindings = broker.bindings
  consumers : after.consumers = broker.consumers
  unacked : after.unacked = Function.update broker.unacked consumer.connection
    (if consumer.noack then broker.unacked consumer.connection
      else broker.unacked consumer.connection ++ [tag])

end Broker

/-- What is known of a broker: its two operations with their laws. -/
structure BrokerService (κ ν μ : Type) [DecidableEq κ] [DecidableEq ν] where
  names : NameLimits ν
  /-- The key of a binding matches the key of a message. -/
  accepts : ν → ν → Bool
  /-- The broker after a request, if it is not refused. -/
  handle : Broker κ ν μ → κ → BrokerRequest κ ν μ → Option (Broker κ ν μ)
  /-- The message the connection is given from the queue with its tag, and the
  broker after it. -/
  deliver : Broker κ ν μ → κ → ν → Option (μ × Nat × Broker κ ν μ)
  handled : ∀ {broker after : Broker κ ν μ} {connection request},
    handle broker connection request = some after →
      broker.Handled accepts connection request after
  welcomed : ∀ {broker : Broker κ ν μ} {connection request},
    broker.Welcomes names connection request →
      (handle broker connection request).isSome = true
  delivers : ∀ {broker after : Broker κ ν μ} {connection queue message tag},
    deliver broker connection queue = some (message, tag, after) →
      ∃ consumer, consumer.connection = connection ∧ consumer.queue = queue ∧
        broker.Delivers consumer message tag after
  delivered : ∀ {broker : Broker κ ν μ} {consumer}, consumer ∈ broker.consumers →
    (∀ other ∈ broker.consumers, other.connection = consumer.connection →
      other.queue = consumer.queue → broker.ready other = true) →
        broker.contents consumer.queue ≠ [] →
          (deliver broker consumer.connection consumer.queue).isSome = true

namespace Broker

variable {broker after : Broker κ ν μ} {connection : κ}

/-- Without open deliveries every consumer may be given a message. -/
theorem ready_of_unacked {consumer : Consumer κ ν}
    (nothing : broker.unacked consumer.connection = []) : broker.ready consumer = true := by
  unfold ready
  rw [nothing]
  cases consumer.prefetch <;> simp

/-- Who does not acknowledge may always be given a message. -/
theorem ready_of_noack {consumer : Consumer κ ν} (noack : consumer.noack = true) :
    broker.ready consumer = true := by
  unfold ready
  rw [noack]
  simp

/-- What a request was for is there. -/
def Done (broker : Broker κ ν μ) (connection : κ) : BrokerRequest κ ν μ → Prop
  | .declareExchange exchange => exchange ∈ broker.exchanges
  | .declareQueue queue kind => broker.kind queue = some kind
  | .bindQueue exchange queue key => ⟨exchange, queue, key⟩ ∈ broker.bindings
  | .setQos _ => True
  | .consume queue noack => ∃ consumer ∈ broker.consumers, consumer.connection = connection ∧
      consumer.queue = queue ∧ consumer.noack = noack
  | .publish _ _ _ => True
  | .ack _ => True

variable [DecidableEq κ] [DecidableEq ν] {accepts : ν → ν → Bool}
  {request : BrokerRequest κ ν μ} {queue : ν}

namespace Handled

section Frame

variable (handled : broker.Handled accepts connection request after)

include handled

/-- A queue stays what it was declared as. -/
theorem kind_of_kind {kind : QueueKind κ} (declared : broker.kind queue = some kind) :
    after.kind queue = some kind :=
  (handled.kind_iff queue kind).mpr (Or.inl declared)

theorem kind_before {kind : QueueKind κ} (declared : after.kind queue = some kind) :
    broker.kind queue = some kind ∨ request = .declareQueue queue kind :=
  (handled.kind_iff queue kind).mp declared

theorem exchanges_subset : broker.exchanges ⊆ after.exchanges :=
  fun exchange known => (handled.exchange_iff exchange).mpr (Or.inl known)

theorem bindings_subset : broker.bindings ⊆ after.bindings :=
  fun binding bound => (handled.binding_iff binding).mpr (Or.inl bound)

theorem binding_before {binding : Binding ν} (bound : binding ∈ after.bindings) :
    binding ∈ broker.bindings ∨
      request = .bindQueue binding.exchange binding.queue binding.key :=
  (handled.binding_iff binding).mp bound

theorem consumers_subset : broker.consumers ⊆ after.consumers :=
  fun consumer consuming => (handled.consumer_iff consumer).mpr (Or.inl consuming)

theorem consumer_before {consumer : Consumer κ ν} (consuming : consumer ∈ after.consumers) :
    consumer ∈ broker.consumers ∨
      consumer.connection = connection ∧ request = .consume consumer.queue consumer.noack := by
  rcases (handled.consumer_iff consumer).mp consuming with before | ⟨own, _, asked⟩
  · exact Or.inl before
  · exact Or.inr ⟨own, asked⟩

theorem unacked_eq (notAck : ∀ tag, request ≠ .ack tag) : after.unacked = broker.unacked := by
  rw [handled.unacked]
  cases request with
  | ack tag => exact absurd rfl (notAck tag)
  | _ => rfl

end Frame

theorem kind_of_bind {exchange key : ν}
    (handled : broker.Handled accepts connection (.bindQueue exchange queue key) after) :
    ∃ kind, after.kind queue = some kind := by
  obtain ⟨kind, declared⟩ := handled.bound rfl
  exact ⟨kind, handled.kind_of_kind declared⟩

theorem unacked_ack {tag : Nat}
    (handled : broker.Handled accepts connection (.ack tag) after) :
    after.unacked =
      Function.update broker.unacked connection ((broker.unacked connection).erase tag) :=
  handled.unacked

theorem done (handled : broker.Handled accepts connection request after) :
    after.Done connection request := by
  cases request with
  | declareExchange exchange => exact (handled.exchange_iff exchange).mpr (Or.inr rfl)
  | declareQueue queue kind => exact (handled.kind_iff queue kind).mpr (Or.inr rfl)
  | bindQueue exchange queue key => exact (handled.binding_iff _).mpr (Or.inr rfl)
  | consume queue noack =>
      let consumer : Consumer κ ν :=
        { connection, queue, noack, prefetch := broker.prefetch connection }
      have consuming : consumer ∈ after.consumers :=
        (handled.consumer_iff consumer).mpr (Or.inr ⟨rfl, rfl, rfl⟩)
      exact ⟨consumer, consuming, rfl, rfl, rfl⟩
  | setQos prefetch => trivial
  | publish exchange key message => trivial
  | ack tag => trivial

/-- What requests were for stays there. -/
theorem done_of_done {other : κ} {earlier : BrokerRequest κ ν μ}
    (handled : broker.Handled accepts connection request after)
    (done : broker.Done other earlier) : after.Done other earlier := by
  cases earlier with
  | declareExchange exchange => exact handled.exchanges_subset done
  | declareQueue queue kind => exact handled.kind_of_kind done
  | bindQueue exchange queue key => exact handled.bindings_subset done
  | consume queue noack =>
      obtain ⟨consumer, member, isOwn⟩ := done
      exact ⟨consumer, handled.consumers_subset member, isOwn⟩
  | setQos prefetch => trivial
  | publish exchange key message => trivial
  | ack tag => trivial

end Handled

omit [DecidableEq ν] in
theorem Delivers.bindings_subset {consumer : Consumer κ ν} {message : μ} {tag : Nat}
    (delivers : broker.Delivers consumer message tag after) :
    broker.bindings ⊆ after.bindings := by
  rw [delivers.bindings]
  exact List.Subset.refl _

omit [DecidableEq ν] in
theorem Delivers.done_of_done {consumer : Consumer κ ν} {message : μ} {tag : Nat} {other : κ}
    {earlier : BrokerRequest κ ν μ} (delivers : broker.Delivers consumer message tag after)
    (done : broker.Done other earlier) : after.Done other earlier := by
  unfold Done at done ⊢
  rw [delivers.exchanges, delivers.kind, delivers.bindings, delivers.consumers]
  exact done

end Broker

end Ccmqsrv.Foundations
