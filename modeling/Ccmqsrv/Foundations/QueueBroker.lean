import Ccmqsrv.Foundations.Broker

/-!
# A broker that keeps its queues as lists

A broker that obeys the laws of `BrokerService`.  It refuses a request only
when the laws allow it, and counts its deliveries on each connection.
-/

namespace Ccmqsrv.Foundations

namespace QueueBroker

variable {κ ν μ : Type} [DecidableEq κ] [DecidableEq ν]

/-- The names as a test. -/
structure NameTest (ν : Type) where
  permits : ν → Bool
  fits : ν → Bool
  fits_of_permits : ∀ {name}, permits name = true → fits name = true

/-- The names that pass the test. -/
def NameTest.limits (names : NameTest ν) : NameLimits ν where
  permits name := names.permits name = true
  fits name := names.fits name = true
  fits_of_permits := names.fits_of_permits

/-- The message is put into the queues it goes to. -/
def deposit (broker : Broker κ ν μ) (goes : ν → Bool) (message : μ) : Broker κ ν μ :=
  { broker with
    contents := fun queue =>
      broker.contents queue ++
        if (broker.kind queue).isSome && goes queue then [message] else [] }

/-- The broker after a request, if it is not refused. -/
def handle (names : NameTest ν) (accepts : ν → ν → Bool) (broker : Broker κ ν μ)
    (connection : κ) : BrokerRequest κ ν μ → Option (Broker κ ν μ)
  | .declareExchange exchange =>
      if names.permits exchange then
        some { broker with exchanges := exchange :: broker.exchanges }
      else
        none
  | .declareQueue queue kind =>
      match broker.kind queue with
      | some found => if found = kind then some broker else none
      | none =>
          if names.permits queue then
            some { broker with kind := Function.update broker.kind queue (some kind) }
          else
            none
  | .bindQueue exchange queue key =>
      if names.fits key && broker.exchanges.contains exchange &&
          broker.opens connection queue then
        some { broker with bindings := ⟨exchange, queue, key⟩ :: broker.bindings }
      else
        none
  | .setQos prefetch =>
      some { broker with prefetch := Function.update broker.prefetch connection prefetch }
  | .consume queue noack =>
      if broker.opens connection queue then
        let consumer : Consumer κ ν :=
          { connection, queue, noack, prefetch := broker.prefetch connection }
        some { broker with consumers := consumer :: broker.consumers }
      else
        none
  | .publish exchange key message =>
      if names.fits key && exchange.all broker.exchanges.contains then
        some (deposit broker (broker.leads accepts exchange key) message)
      else
        none
  | .ack tag =>
      if (broker.unacked connection).contains tag then
        some
          { broker with
            unacked := Function.update broker.unacked connection
              ((broker.unacked connection).erase tag) }
      else
        none

/-- The front message of the queue with its tag, and the broker without it. -/
def deliver (broker : Broker κ ν μ) (connection : κ) (queue : ν) :
    Option (μ × Nat × Broker κ ν μ) :=
  match broker.consumers.find? (fun consumer =>
      consumer.connection = connection && consumer.queue = queue), broker.contents queue with
  | some consumer, message :: rest =>
      if broker.ready consumer then
        let tag := broker.lastTag connection + 1
        let unacked := if consumer.noack then broker.unacked connection
          else broker.unacked connection ++ [tag]
        some (message, tag,
          { broker with
            contents := Function.update broker.contents queue rest
            lastTag := Function.update broker.lastTag connection tag
            unacked := Function.update broker.unacked connection unacked })
      else
        none
  | _, _ => none

variable {names : NameTest ν} {accepts : ν → ν → Bool} {broker after : Broker κ ν μ}
  {connection : κ} {request : BrokerRequest κ ν μ}

private theorem handled_declareQueue {queue : ν} {kind : QueueKind κ}
    (handles : handle names accepts broker connection (.declareQueue queue kind) = some after) :
    broker.Handled accepts connection (.declareQueue queue kind) after := by
  have frame : ∀ kinds : ν → Option (QueueKind κ), (∀ other declared,
      kinds other = some declared ↔ broker.kind other = some declared ∨
        BrokerRequest.declareQueue queue kind = (.declareQueue other declared :
          BrokerRequest κ ν μ)) →
      broker.Handled accepts connection (.declareQueue queue kind)
        { broker with kind := kinds } := by
    intro kinds declares
    constructor
    · intro other
      exact (List.append_nil _).symm
    · exact declares
    · simp
    · simp
    · nofun
    · simp
    · rfl
  cases found : broker.kind queue with
  | some declared =>
      by_cases same : declared = kind
      · simp only [handle, found, if_pos same] at handles
        cases handles
        refine frame broker.kind fun other known => ?_
        constructor
        · exact Or.inl
        · rintro (before | asked)
          · exact before
          · cases asked
            rw [found, same]
      · simp only [handle, found, if_neg same] at handles
        cases handles
  | none =>
      by_cases permitted : names.permits queue = true
      · simp only [handle, found, if_pos permitted] at handles
        cases handles
        refine frame _ fun other known => ?_
        by_cases isNew : other = queue
        · subst isNew
          simp [found]
        · rw [Function.update_of_ne isNew]
          simp [Ne.symm isNew]
      · simp only [handle, found, if_neg permitted] at handles
        cases handles

theorem handled_of_handle (handles : handle names accepts broker connection request = some after) :
    broker.Handled accepts connection request after := by
  cases request with
  | declareQueue queue kind => exact handled_declareQueue handles
  | declareExchange exchange =>
      by_cases permitted : names.permits exchange = true
      · rw [handle, if_pos permitted] at handles
        cases handles
        exact ⟨fun _ => (List.append_nil _).symm, by simp, by simp [or_comm, eq_comm], by simp,
          nofun, by simp, rfl⟩
      · rw [handle, if_neg permitted] at handles
        cases handles
  | bindQueue exchange queue key =>
      by_cases usable : (names.fits key && broker.exchanges.contains exchange &&
          broker.opens connection queue) = true
      · rw [handle, if_pos usable] at handles
        cases handles
        obtain ⟨_, opened⟩ := Bool.and_eq_true_iff.mp usable
        obtain ⟨kind, declared, _⟩ := (Option.any_eq_true _ _).mp opened
        refine ⟨fun _ => (List.append_nil _).symm, by simp, by simp, ?_, ?_, by simp, rfl⟩
        · intro binding
          rw [List.mem_cons, or_comm]
          refine or_congr_right ⟨?_, ?_⟩
          · rintro rfl
            rfl
          · intro same
            cases binding
            cases same
            rfl
        · intro _ _ _ same
          cases same
          exact ⟨kind, declared⟩
      · rw [handle, if_neg usable] at handles
        cases handles
  | setQos prefetch =>
      cases handles
      exact ⟨fun _ => (List.append_nil _).symm, by simp, by simp, by simp, nofun, by simp, rfl⟩
  | consume queue noack =>
      by_cases opened : broker.opens connection queue = true
      · rw [handle, if_pos opened] at handles
        cases handles
        refine ⟨fun _ => (List.append_nil _).symm, by simp, by simp, by simp, nofun, ?_, rfl⟩
        intro consumer
        rw [List.mem_cons, or_comm]
        refine or_congr_right ⟨?_, ?_⟩
        · rintro rfl
          exact ⟨rfl, rfl, rfl⟩
        · rintro ⟨own, prefetch, same⟩
          obtain ⟨owner, other, ack, limit⟩ := consumer
          have owns : owner = connection := own
          have limits : limit = broker.prefetch connection := prefetch
          cases same
          rw [owns, limits]
      · rw [handle, if_neg opened] at handles
        cases handles
  | publish exchange key message =>
      by_cases usable : (names.fits key && exchange.all broker.exchanges.contains) = true
      · rw [handle, if_pos usable] at handles
        cases handles
        exact ⟨fun _ => rfl, by simp [deposit], by simp [deposit], by simp [deposit], nofun,
          by simp [deposit], rfl⟩
      · rw [handle, if_neg usable] at handles
        cases handles
  | ack tag =>
      by_cases known : (broker.unacked connection).contains tag = true
      · rw [handle, if_pos known] at handles
        cases handles
        exact ⟨fun _ => (List.append_nil _).symm, by simp, by simp, by simp, nofun, by simp, rfl⟩
      · rw [handle, if_neg known] at handles
        cases handles

theorem isSome_handle (welcome : broker.Welcomes names.limits connection request) :
    (handle names accepts broker connection request).isSome = true := by
  cases request with
  | declareExchange exchange =>
      have permitted : names.permits exchange = true := welcome
      rw [handle, if_pos permitted]
      rfl
  | declareQueue queue kind =>
      obtain ⟨permitted, _, same⟩ := welcome
      have permitted : names.permits queue = true := permitted
      cases found : broker.kind queue with
      | none =>
          simp only [handle, found, if_pos permitted]
          rfl
      | some declared =>
          simp only [handle, found, if_pos (same declared found)]
          rfl
  | bindQueue exchange queue key =>
      obtain ⟨fits, known, opened⟩ := welcome
      have usable : (names.fits key && broker.exchanges.contains exchange &&
          broker.opens connection queue) = true := by
        rw [show names.fits key = true from fits, List.contains_iff_mem.mpr known, opened]
        rfl
      rw [handle, if_pos usable]
      rfl
  | setQos prefetch => rfl
  | consume queue noack =>
      have opened : broker.opens connection queue = true := welcome
      rw [handle, if_pos opened]
      rfl
  | publish exchange key message =>
      obtain ⟨fits, known⟩ := welcome
      have there : exchange.all broker.exchanges.contains = true := by
        cases exchange with
        | none => rfl
        | some exchange => exact List.contains_iff_mem.mpr (known exchange rfl)
      have usable : (names.fits key && exchange.all broker.exchanges.contains) = true := by
        rw [show names.fits key = true from fits, there]
        rfl
      rw [handle, if_pos usable]
      rfl
  | ack tag =>
      have known : (broker.unacked connection).contains tag = true :=
        List.contains_iff_mem.mpr welcome
      rw [handle, if_pos known]
      rfl

theorem delivers_of_deliver {queue : ν} {message : μ} {tag : Nat}
    (delivered : deliver broker connection queue = some (message, tag, after)) :
    ∃ consumer, consumer.connection = connection ∧ consumer.queue = queue ∧
      broker.Delivers consumer message tag after := by
  unfold deliver at delivered
  split at delivered
  · rename_i consumer front rest found stored
    by_cases isReady : broker.ready consumer = true
    · rw [if_pos isReady] at delivered
      cases delivered
      have isConsumer := List.find?_some found
      simp only [Bool.and_eq_true, decide_eq_true_eq] at isConsumer
      obtain ⟨sameConnection, sameQueue⟩ := isConsumer
      subst sameConnection
      subst sameQueue
      refine ⟨consumer, rfl, rfl, List.mem_of_find?_eq_some found, ?_, ?_, rfl, rfl, rfl, rfl, rfl⟩
      · show _ = _ :: Function.update broker.contents consumer.queue rest consumer.queue
        rw [Function.update_self, stored]
      · intro other different
        exact Function.update_of_ne different _ _
    · rw [if_neg isReady] at delivered
      cases delivered
  · cases delivered

/-- What waits in a queue with consumers that are ready can be delivered. -/
theorem isSome_deliver {consumer : Consumer κ ν} (consuming : consumer ∈ broker.consumers)
    (ready : ∀ other ∈ broker.consumers, other.connection = consumer.connection →
      other.queue = consumer.queue → broker.ready other = true)
    (waiting : broker.contents consumer.queue ≠ []) :
    (deliver broker consumer.connection consumer.queue).isSome = true := by
  cases found : broker.consumers.find? (fun other =>
      other.connection = consumer.connection && other.queue = consumer.queue) with
  | none =>
      have missed := List.find?_eq_none.mp found consumer consuming
      simp at missed
  | some other =>
      have isOther := List.find?_some found
      simp only [Bool.and_eq_true, decide_eq_true_eq] at isOther
      have isReady := ready other (List.mem_of_find?_eq_some found) isOther.1 isOther.2
      cases stored : broker.contents consumer.queue with
      | nil => exact absurd stored waiting
      | cons message rest =>
          simp only [deliver, found, stored]
          rw [if_pos isReady]
          rfl

/-- The broker with its laws. -/
def service (κ μ : Type) [DecidableEq κ] (names : NameTest ν) (accepts : ν → ν → Bool) :
    BrokerService κ ν μ where
  names := names.limits
  accepts := accepts
  handle := handle names accepts
  deliver := deliver
  handled := handled_of_handle
  welcomed := isSome_handle
  delivers := delivers_of_deliver
  delivered := isSome_deliver

end QueueBroker

end Ccmqsrv.Foundations
