import Ccmqsrv.PendingRequests
import Ccmqsrv.Foundations.Log

/-!
# What the event loop does with a reply

The event loop handles one reply at a time, in steps between which other
threads come in.  A reply to a call that has sent its request and is still
waiting always finds the entry of the call.  It is stored there as long as no
call erases its entry while the loop is handling a reply to it, and everything
stored was decoded from a reply that was found.
-/

namespace Ccmqsrv

open Foundations

namespace Client

/-- The event is recorded by the event loop while it handles a reply. -/
def Event.OfLoop : Event → Prop
  | .delivered _ _ => True
  | .stored _ _ => True
  | _ => False

/-- The loop is not handling a reply. -/
def LoopPoint.Rests : LoopPoint → Prop
  | .idle => True
  | .notify => True
  | _ => False

theorem LoopPoint.Rests.idle_or_notify {point : LoopPoint} (rests : point.Rests) :
    point = .idle ∨ point = .notify := by
  cases point with
  | idle => exact Or.inl rfl
  | notify => exact Or.inr rfl
  | _ => exact False.elim rests

/-- The next step of the event loop or of a call can fail: a body does not
decode, or an object is not there. -/
inductive Faulty (env : Env) (state : State) : Prop
  | decode {response : Response} {fault : Fault} :
      state.loop = .decode response → decodeResponse env response.body = .error fault →
        Faulty env state
  | handled {id : Str} : state.loop.Handles id → state.object id = none → Faulty env state
  | call {user : Nat} {call : Call} {point : CallPoint} :
      state.users user = .call call point → point.Registered → state.object call.id = none →
        Faulty env state

/-- What a step does to the event loop, and what the loop records in it. -/
inductive LoopMove (env : Env) (state : State) (action : Action) (after : State) : Prop
  | aside {events : List Event} :
      after.loop = state.loop → after.fault = state.fault →
        after.history = state.history ++ events → (∀ event ∈ events, ¬ event.OfLoop) →
          LoopMove env state action after
  | faults : Faulty env state → after.loop = state.loop → after.history = state.history →
      LoopMove env state action after
  | deliver {response : Response} :
      action = .deliver response → state.loop = .idle →
        (state.reqEvents.lookup response.correlationID).isSome = true →
          after.loop = .decode response → after.fault = state.fault →
            after.history = state.history ++ [.delivered response true] →
              LoopMove env state action after
  | deliverUnknown {response : Response} :
      action = .deliver response → state.loop = .idle →
        state.reqEvents.lookup response.correlationID = none →
          after.loop = .idle → after.fault = state.fault →
            after.history = state.history ++ [.delivered response false] →
              LoopMove env state action after
  | decode {response : Response} {result : Str × Str} :
      state.loop = .decode response → decodeResponse env response.body = .ok result →
        after.loop = .lookup response.correlationID result → after.fault = state.fault →
          after.history = state.history → LoopMove env state action after
  | set {id : Str} {result : Str × Str} {point : SetPoint} :
      state.loop = .lookup id result ∨ state.loop = .set id result .enter →
        after.loop = .set id result point → after.fault = state.fault →
          after.history = state.history → LoopMove env state action after
  | store {id : Str} {result : Str × Str} :
      state.loop = .set id result .locked → after.loop = .idle → after.fault = state.fault →
        after.history = state.history ++ [.stored id result] → LoopMove env state action after
  | rests : state.loop.Rests → after.loop.Rests → after.fault = state.fault →
      after.history = state.history → LoopMove env state action after

variable {env : Env} {config : Config} {state after : State} {action : Action}

private theorem LoopMove.still (loop : after.loop = state.loop) (fault : after.fault = state.fault)
    (history : after.history = state.history) : LoopMove env state action after :=
  LoopMove.aside loop fault (history.trans (List.append_nil _).symm) (by simp)

private theorem CallEffect.loopMove {user : Nat} {call : Call} {point : CallPoint}
    (inCall : state.users user = .call call point)
    (effect : CallEffect env config state user call point after) :
    LoopMove env state action after := by
  cases effect with
  | encodeFault failed => exact LoopMove.aside rfl rfl rfl (by simp [Event.OfLoop])
  | send => exact LoopMove.aside rfl rfl rfl (by simp [Event.OfLoop])
  | lookupNull missing =>
      have kept := state.subscript_keeps call.id
      exact LoopMove.faults (.call inCall trivial missing) kept.1 kept.2
  | @get _ _ _ next found advanced =>
      refine LoopMove.aside rfl rfl rfl ?_
      cases next <;> simp [leaving, Event.OfLoop]
  | getDestroyed notThrew missing =>
      exact LoopMove.faults (.call inCall trivial missing) rfl rfl
  | throw => exact LoopMove.aside rfl rfl rfl (by simp [Event.OfLoop])
  | finish => exact LoopMove.aside rfl rfl rfl (by simp [Event.OfLoop])
  | _ => exact LoopMove.still rfl rfl rfl

private theorem LoopEffect.loopMove {point : LoopPoint} (atPoint : state.loop = point)
    (effect : LoopEffect env state point after) : LoopMove env state action after := by
  cases effect with
  | decode decoded => exact LoopMove.decode atPoint decoded rfl rfl rfl
  | decodeFault failed => exact LoopMove.faults (.decode atPoint failed) rfl rfl
  | lookup found => exact LoopMove.set (Or.inl atPoint) rfl rfl rfl
  | @lookupNull id result missing =>
      have handles : state.loop.Handles id := by
        rw [atPoint]
        rfl
      have kept := state.subscript_keeps id
      exact LoopMove.faults (.handled handles missing) kept.1 kept.2
  | lock found free => exact LoopMove.set (Or.inr atPoint) rfl rfl rfl
  | @setDestroyed id result missing =>
      have handles : state.loop.Handles id := by
        rw [atPoint]
        rfl
      exact LoopMove.faults (.handled handles missing) rfl rfl
  | notify =>
      refine LoopMove.rests ?_ trivial rfl rfl
      rw [atPoint]
      trivial

theorem Effect.loopMove (effect : Effect env config state action after) :
    LoopMove env state action after := by
  cases effect with
  | call begun idle fresh => exact LoopMove.still rfl rfl rfl
  | callRefused => exact LoopMove.aside rfl rfl rfl (by simp [Event.OfLoop])
  | publish idle => exact LoopMove.still rfl rfl rfl
  | publishRefused => exact LoopMove.aside rfl rfl rfl (by simp [Event.OfLoop])
  | callStep inCall effect => exact effect.loopMove inCall
  | publishStep publishing effect =>
      exact LoopMove.still effect.frame.loop effect.frame.fault effect.frame.history
  | loopStep effect => exact effect.loopMove rfl
  | wake inCall found => exact LoopMove.still rfl rfl rfl
  | wakeDestroyed inCall missing =>
      exact LoopMove.faults (.call inCall trivial missing) rfl rfl
  | wakePublisher publishing => exact LoopMove.still rfl rfl rfl
  | deliver idle found => exact LoopMove.deliver rfl idle found rfl rfl rfl
  | deliverUnknown idle missing => exact LoopMove.deliverUnknown rfl idle missing idle rfl rfl
  | store storing found chosen => exact LoopMove.store storing rfl rfl rfl
  | @storeDestroyed _ id _ storing missing =>
      have handles : state.loop.Handles id := by
        rw [storing]
        rfl
      exact LoopMove.faults (.handled handles missing) rfl rfl
  | bindSuccess idle pending =>
      refine LoopMove.rests ?_ trivial rfl rfl
      rw [idle]
      trivial

/-- The result was decoded from a reply to this id for which the loop found an
entry. -/
def Decoded (env : Env) (history : List Event) (id : Str) (result : Str × Str) : Prop :=
  ∃ response, .delivered response true ∈ history ∧ response.correlationID = id ∧
    decodeResponse env response.body = .ok result

private theorem Decoded.mono {history later : List Event} {id : Str} {result : Str × Str}
    (decoded : Decoded env history id result) (grows : history ⊆ later) :
    Decoded env later id result := by
  obtain ⟨response, found, rest⟩ := decoded
  exact ⟨response, grows found, rest⟩

/-- What is known of the reply that the loop is handling. -/
def LoopPoint.Follows (env : Env) (history : List Event) : LoopPoint → Prop
  | .decode response => .delivered response true ∈ history
  | .lookup id result => Decoded env history id result
  | .set id result _ => Decoded env history id result
  | _ => True

private theorem LoopPoint.Follows.mono {history later : List Event} {point : LoopPoint}
    (follows : point.Follows env history) (grows : history ⊆ later) :
    point.Follows env later := by
  cases point with
  | decode response => exact grows follows
  | lookup id result => exact Decoded.mono follows grows
  | set id result point => exact Decoded.mono follows grows
  | _ => trivial

/-- Every stored result was decoded from a reply. -/
structure StoredDecoded (env : Env) (state : State) : Prop where
  follows : state.loop.Follows env state.history
  stored : ∀ id result, .stored id result ∈ state.history → Decoded env state.history id result

/-- The event that a step of the event loop appends, if any. -/
private theorem LoopMove.grows (move : LoopMove env state action after) :
    ∃ events, after.history = state.history ++ events ∧
      (∀ response found, .delivered response found ∈ events → action = .deliver response) ∧
        ∀ id result, .stored id result ∈ events → state.loop = .set id result .locked := by
  cases move with
  | @aside events loop fault history quiet =>
      refine ⟨events, history, ?_, ?_⟩
      · intro response found member
        exact absurd trivial (quiet _ member)
      · intro id result member
        exact absurd trivial (quiet _ member)
  | deliver delivering idle found loop fault history =>
      refine ⟨_, history, ?_, by simp⟩
      intro response found member
      cases List.mem_singleton.mp member
      exact delivering
  | deliverUnknown delivering idle missing loop fault history =>
      refine ⟨_, history, ?_, by simp⟩
      intro response found member
      cases List.mem_singleton.mp member
      exact delivering
  | store storing loop fault history =>
      refine ⟨_, history, by simp, ?_⟩
      intro id result member
      cases List.mem_singleton.mp member
      exact storing
  | faults faulty loop history => exact ⟨[], by simp [history], by simp, by simp⟩
  | decode decoding decoded loop fault history => exact ⟨[], by simp [history], by simp, by simp⟩
  | set setting loop fault history => exact ⟨[], by simp [history], by simp, by simp⟩
  | rests before loop fault history => exact ⟨[], by simp [history], by simp, by simp⟩

theorem LoopMove.history_subset (move : LoopMove env state action after) :
    state.history ⊆ after.history := by
  obtain ⟨events, history, _⟩ := move.grows
  rw [history]
  exact List.subset_append_left _ _

theorem LoopMove.delivered_before (move : LoopMove env state action after) {response : Response}
    {found : Bool} (delivered : .delivered response found ∈ after.history) :
    .delivered response found ∈ state.history ∨ action = .deliver response := by
  obtain ⟨events, history, delivers, _⟩ := move.grows
  rw [history] at delivered
  exact (List.mem_append.mp delivered).imp_right (delivers response found)

private theorem LoopMove.stored_before (move : LoopMove env state action after) {id : Str}
    {result : Str × Str} (stored : .stored id result ∈ after.history) :
    .stored id result ∈ state.history ∨ state.loop = .set id result .locked := by
  obtain ⟨events, history, _, stores⟩ := move.grows
  rw [history] at stored
  exact (List.mem_append.mp stored).imp_right (stores id result)

private theorem LoopMove.follows (move : LoopMove env state action after)
    (follows : state.loop.Follows env state.history) :
    after.loop.Follows env after.history := by
  have grows := move.history_subset
  cases move with
  | aside loop fault history quiet =>
      rw [loop]
      exact follows.mono grows
  | faults faulty loop history =>
      rw [loop]
      exact follows.mono grows
  | deliver delivering idle found loop fault history =>
      rw [loop, history]
      exact List.mem_append_right _ List.mem_cons_self
  | deliverUnknown delivering idle missing loop fault history =>
      rw [loop]
      trivial
  | decode decoding decoded loop fault history =>
      rw [decoding] at follows
      rw [loop]
      exact ⟨_, grows follows, rfl, decoded⟩
  | @set id result point setting loop fault history =>
      have decoded : Decoded env state.history id result := by
        rcases setting with looking | entering
        · rw [looking] at follows
          exact follows
        · rw [entering] at follows
          exact follows
      rw [loop]
      exact decoded.mono grows
  | store storing loop fault history =>
      rw [loop]
      trivial
  | rests before loop fault history =>
      rcases loop.idle_or_notify with isIdle | isNotify
      · rw [isIdle]
        trivial
      · rw [isNotify]
        trivial

theorem StoredDecoded.next (known : StoredDecoded env state)
    (move : LoopMove env state action after) : StoredDecoded env after where
  follows := move.follows known.follows
  stored := by
    intro id result stored
    have grows := move.history_subset
    rcases move.stored_before stored with earlier | storing
    · exact (known.stored id result earlier).mono grows
    · have follows := known.follows
      rw [storing] at follows
      exact Decoded.mono follows grows

theorem storedDecoded_of_reachable (reachable : (machine env config).Reachable state) :
    StoredDecoded env state := by
  refine reachable.invariant (StoredDecoded env) ?_ ?_
  · refine ⟨trivial, ?_⟩
    intro id result stored
    cases stored
  · intro _ _ _ _ known stepped
    exact known.next (step_effect stepped).2.loopMove

/-- A delivery in the history was there before, or is made in this step. -/
private theorem LoopMove.split (move : LoopMove env state action after) {before later : List Event}
    {response : Response} {found : Bool}
    (split : after.history = before ++ .delivered response found :: later) :
    (∃ rest events, state.history = before ++ .delivered response found :: rest ∧
      later = rest ++ events ∧ after.history = state.history ++ events) ∨
        (before = state.history ∧
          found = (state.reqEvents.lookup response.correlationID).isSome ∧
            (found = true → after.loop = .decode response ∧ after.fault = state.fault)) := by
  have silent : after.history = state.history →
      ∃ rest events, state.history = before ++ .delivered response found :: rest ∧
        later = rest ++ events ∧ after.history = state.history ++ events := by
    intro history
    exact ⟨later, [], history.symm.trans split, (List.append_nil _).symm,
      history.trans (List.append_nil _).symm⟩
  have single : ∀ {event : Event}, after.history = state.history ++ [event] →
      (∃ rest events, state.history = before ++ .delivered response found :: rest ∧
        later = rest ++ events ∧ after.history = state.history ++ events) ∨
          (before = state.history ∧ .delivered response found = event) := by
    intro event history
    refine (split_append_singleton (history.symm.trans split)).imp_left ?_
    intro inOld
    obtain ⟨rest, old, laterEq⟩ := inOld
    exact ⟨rest, [event], old, laterEq, history⟩
  cases move with
  | @aside events loop fault history quiet =>
      left
      rcases split_append (history.symm.trans split) with ⟨rest, old, laterEq⟩ | ⟨rest, _, new⟩
      · exact ⟨rest, events, old, laterEq, history⟩
      · have recorded : Event.delivered response found ∈ events := by
          rw [new]
          exact List.mem_append_right _ List.mem_cons_self
        exact absurd trivial (quiet _ recorded)
  | deliver delivering idle known loop fault history =>
      refine (single history).imp_right fun here => ?_
      obtain ⟨beforeEq, same⟩ := here
      cases same
      exact ⟨beforeEq, known.symm, fun _ => ⟨loop, fault⟩⟩
  | deliverUnknown delivering idle missing loop fault history =>
      refine (single history).imp_right fun here => ?_
      obtain ⟨beforeEq, same⟩ := here
      cases same
      refine ⟨beforeEq, ?_, fun impossible => nomatch impossible⟩
      rw [missing]
      rfl
  | store storing loop fault history =>
      refine (single history).imp_right fun here => ?_
      cases here.2
  | faults faulty loop history => exact Or.inl (silent history)
  | decode decoding decoded loop fault history => exact Or.inl (silent history)
  | set setting loop fault history => exact Or.inl (silent history)
  | rests before loop fault history => exact Or.inl (silent history)

/-- A reply to a call that has sent its request and is still waiting finds the
entry of the call. -/
def FindsEntry (state : State) : Prop :=
  ∀ before response found later call message,
    state.history = before ++ .delivered response found :: later →
      .sent call message ∈ before → call.id = response.correlationID →
        .left call.id ∉ before → found = true

theorem FindsEntry.next (finds : FindsEntry state) (consistent : Consistent state)
    (waiting : SentAwaits state) (move : LoopMove env state action after) : FindsEntry after := by
  intro before response found later call message split sent same notLeft
  rcases move.split split with ⟨rest, _, old, _⟩ | ⟨rfl, foundEq, _⟩
  · exact finds before response found rest call message old sent same notLeft
  · obtain ⟨user, point, inCall, awaits⟩ := waiting call message sent notLeft
    obtain ⟨object, entry, _⟩ := consistent.entries user call point inCall awaits.registered
    rw [foundEq, ← same]
    exact isSome_of_object entry

/-- The loop is handling this response. -/
def LoopPoint.Brings (env : Env) (response : Response) : LoopPoint → Prop
  | .decode other => other = response
  | .lookup id result =>
      id = response.correlationID ∧ decodeResponse env response.body = .ok result
  | .set id result _ =>
      id = response.correlationID ∧ decodeResponse env response.body = .ok result
  | _ => False

/-- What was decoded from the response has been stored for the call, or the
loop is on its way there. -/
def Received (env : Env) (state : State) (later : List Event) (response : Response) : Prop :=
  (∃ result, decodeResponse env response.body = .ok result ∧
    .stored response.correlationID result ∈ later) ∨
      (state.fault = none ∧ state.loop.Brings env response)

private theorem Received.next {rest events : List Event} {response : Response}
    (received : Received env state rest response) (move : LoopMove env state action after)
    (sound : ¬ Faulty env state) (grown : after.history = state.history ++ events) :
    Received env after (rest ++ events) response := by
  rcases received with ⟨result, decoded, stored⟩ | ⟨alive, brings⟩
  · exact Or.inl ⟨result, decoded, List.mem_append_left _ stored⟩
  cases move with
  | aside loop fault history quiet =>
      right
      rw [loop, fault]
      exact ⟨alive, brings⟩
  | faults faulty loop history => exact absurd faulty sound
  | deliver delivering idle found loop fault history =>
      rw [idle] at brings
      exact False.elim brings
  | deliverUnknown delivering idle missing loop fault history =>
      rw [idle] at brings
      exact False.elim brings
  | decode decoding decoded loop fault history =>
      rw [decoding] at brings
      cases brings
      right
      rw [loop, fault]
      exact ⟨alive, rfl, decoded⟩
  | @set id result point setting loop fault history =>
      have same : id = response.correlationID ∧
          decodeResponse env response.body = .ok result := by
        rcases setting with looking | entering
        · rw [looking] at brings
          exact brings
        · rw [entering] at brings
          exact brings
      right
      rw [loop, fault]
      exact ⟨alive, same⟩
  | @store id result storing loop fault history =>
      rw [storing] at brings
      obtain ⟨same, decoded⟩ : id = response.correlationID ∧ _ := brings
      have new := List.append_cancel_left (grown.symm.trans history)
      refine Or.inl ⟨result, decoded, ?_⟩
      rw [new, same]
      exact List.mem_append_right _ List.mem_cons_self
  | rests before loop fault history =>
      rcases before.idle_or_notify with isIdle | isNotify
      · rw [isIdle] at brings
        exact False.elim brings
      · rw [isNotify] at brings
        exact False.elim brings

/-- Every reply that found an entry is received. -/
def FoundReceived (env : Env) (state : State) : Prop :=
  ∀ before response later, state.history = before ++ .delivered response true :: later →
    Received env state later response

theorem FoundReceived.next (received : FoundReceived env state) (alive : state.fault = none)
    (sound : ¬ Faulty env state) (move : LoopMove env state action after) :
    FoundReceived env after := by
  intro before response later split
  rcases move.split split with ⟨rest, events, old, rfl, grown⟩ | ⟨_, _, delivered⟩
  · exact (received before response rest old).next move sound grown
  · obtain ⟨loop, fault⟩ := delivered rfl
    right
    rw [loop, fault]
    exact ⟨alive, rfl⟩

/-- What a step does to the table of pending requests. -/
inductive TableMove (env : Env) (state : State) (action : Action) (after : State) : Prop
  | keeps : after.reqEvents = state.reqEvents → TableMove env state action after
  | sets {id : Str} {object : AsyncResult Thread} :
      after.reqEvents = state.reqEvents.insert id (some object) →
        TableMove env state action after
  | erases {user : Nat} {call : Call} {ret : Str × Str} :
      action = .advance (.user user) → state.users user = .call call (.erase ret) →
        after.reqEvents = state.reqEvents.erase call.id → TableMove env state action after
  | faults : Faulty env state → TableMove env state action after

theorem Effect.tableMove (effect : Effect env config state action after) :
    TableMove env state action after := by
  cases effect with
  | callStep inCall effect =>
      cases effect with
      | register => exact TableMove.sets rfl
      | lookupNull missing => exact TableMove.faults (.call inCall trivial missing)
      | get found advanced => exact TableMove.sets rfl
      | move found => exact TableMove.sets rfl
      | getDestroyed notThrew missing => exact TableMove.faults (.call inCall trivial missing)
      | erase => exact TableMove.erases rfl inCall rfl
      | _ => exact TableMove.keeps rfl
  | publishStep publishing effect => exact TableMove.keeps effect.frame.reqEvents
  | loopStep effect =>
      generalize atPoint : state.loop = point at effect
      cases effect with
      | @lookupNull id result missing =>
          have handles : state.loop.Handles id := by
            rw [atPoint]
            rfl
          exact TableMove.faults (.handled handles missing)
      | lock found free => exact TableMove.sets rfl
      | _ => exact TableMove.keeps rfl
  | wake inCall found => exact TableMove.sets rfl
  | store storing found chosen => exact TableMove.sets rfl
  | _ => exact TableMove.keeps rfl

/-- Delivered bodies are bodies of replies, and entries are erased at rest. -/
structure RepliesAtRest (env : Env) (state : State) (action : Action) : Prop where
  decodes : ∀ response, action = .deliver response →
    ∃ result, decodeResponse env response.body = .ok result
  erasedAtRest : ErasedAtRest state action

/-- The event loop finds what it needs. -/
structure Attentive (env : Env) (state : State) : Prop where
  alive : state.fault = none
  decodes : ∀ response, state.loop = .decode response →
    ∃ result, decodeResponse env response.body = .ok result
  handled : ∀ id, state.loop.Handles id → ∃ object, state.object id = some object
  nonNull : ∀ id, (state.reqEvents.lookup id).isSome = true →
    ∃ object, state.object id = some object

theorem Attentive.sound (attentive : Attentive env state) (consistent : Consistent state) :
    ¬ Faulty env state := by
  intro faulty
  cases faulty with
  | decode decoding failed =>
      obtain ⟨result, decoded⟩ := attentive.decodes _ decoding
      rw [failed] at decoded
      cases decoded
  | handled handles missing =>
      obtain ⟨object, found⟩ := attentive.handled _ handles
      rw [missing] at found
      cases found
  | call inCall registered missing =>
      obtain ⟨object, found, _⟩ := consistent.entries _ _ _ inCall registered
      rw [missing] at found
      cases found

private theorem object_insert {id other : Str} {object : AsyncResult Thread}
    (inserted : after.reqEvents = state.reqEvents.insert other (some object))
    (present : id = other ∨ ∃ object, state.object id = some object) :
    ∃ object, after.object id = some object := by
  unfold State.object at present ⊢
  rw [inserted]
  by_cases same : id = other
  · rw [same, OrderedMap.lookup_insert_self]
    exact ⟨object, rfl⟩
  · rw [OrderedMap.lookup_insert_of_ne _ _ same]
    exact present.resolve_left same

/-- An object stays unless its entry is erased. -/
private theorem TableMove.object (move : TableMove env state action after)
    (sound : ¬ Faulty env state) {id : Str}
    (notErased : ∀ user call ret, action = .advance (.user user) →
      state.users user = .call call (.erase ret) → id ≠ call.id)
    (present : ∃ object, state.object id = some object) :
    ∃ object, after.object id = some object := by
  cases move with
  | keeps kept =>
      unfold State.object at present ⊢
      rw [kept]
      exact present
  | sets inserted => exact object_insert inserted (Or.inr present)
  | @erases user call ret acts erasing erased =>
      unfold State.object at present ⊢
      rw [erased, OrderedMap.lookup_erase_of_ne _ (notErased user call ret acts erasing)]
      exact present
  | faults faulty => exact absurd faulty sound

private theorem TableMove.nonNull (move : TableMove env state action after)
    (sound : ¬ Faulty env state)
    (nonNull : ∀ id, (state.reqEvents.lookup id).isSome = true →
      ∃ object, state.object id = some object) {id : Str}
    (present : (after.reqEvents.lookup id).isSome = true) :
    ∃ object, after.object id = some object := by
  cases move with
  | keeps kept =>
      unfold State.object at nonNull ⊢
      rw [kept] at present ⊢
      exact nonNull id present
  | @sets other object inserted =>
      refine object_insert inserted ?_
      by_cases same : id = other
      · exact Or.inl same
      · rw [inserted, OrderedMap.lookup_insert_of_ne _ _ same] at present
        exact Or.inr (nonNull id present)
  | @erases user call ret acts erasing erased =>
      rw [erased] at present
      by_cases same : id = call.id
      · rw [same, OrderedMap.lookup_erase_self] at present
        cases present
      · rw [OrderedMap.lookup_erase_of_ne _ same] at present
        unfold State.object at nonNull ⊢
        rw [erased, OrderedMap.lookup_erase_of_ne _ same]
        exact nonNull id present
  | faults faulty => exact absurd faulty sound

/-- The loop handles an id that it handled before, or one that was just
delivered and is in the table. -/
private theorem LoopMove.handles_before (move : LoopMove env state action after) {id : Str}
    (handles : after.loop.Handles id) :
    state.loop.Handles id ∨
      ∃ response, action = .deliver response ∧ (state.reqEvents.lookup id).isSome = true := by
  cases move with
  | aside loop fault history quiet =>
      rw [loop] at handles
      exact Or.inl handles
  | faults faulty loop history =>
      rw [loop] at handles
      exact Or.inl handles
  | deliver delivering idle found loop fault history =>
      rw [loop] at handles
      cases handles
      exact Or.inr ⟨_, delivering, found⟩
  | deliverUnknown delivering idle missing loop fault history =>
      rw [loop] at handles
      exact False.elim handles
  | decode decoding decoded loop fault history =>
      rw [loop] at handles
      rw [decoding]
      exact Or.inl handles
  | set setting loop fault history =>
      rw [loop] at handles
      rcases setting with looking | entering
      · rw [looking]
        exact Or.inl handles
      · rw [entering]
        exact Or.inl handles
  | store storing loop fault history =>
      rw [loop] at handles
      exact False.elim handles
  | rests before loop fault history =>
      rcases loop.idle_or_notify with isIdle | isNotify
      · rw [isIdle] at handles
        exact False.elim handles
      · rw [isNotify] at handles
        exact False.elim handles

private theorem LoopMove.decode_before (move : LoopMove env state action after)
    {response : Response} (decoding : after.loop = .decode response) :
    state.loop = .decode response ∨ action = .deliver response := by
  cases move with
  | aside loop fault history quiet => exact Or.inl (loop.symm.trans decoding)
  | faults faulty loop history => exact Or.inl (loop.symm.trans decoding)
  | deliver delivering idle found loop fault history =>
      cases loop.symm.trans decoding
      exact Or.inr delivering
  | deliverUnknown delivering idle missing loop fault history =>
      cases loop.symm.trans decoding
  | decode earlier decoded loop fault history => cases loop.symm.trans decoding
  | set setting loop fault history => cases loop.symm.trans decoding
  | store storing loop fault history => cases loop.symm.trans decoding
  | rests before loop fault history =>
      rw [decoding] at loop
      exact False.elim loop

private theorem LoopMove.fault_eq (move : LoopMove env state action after)
    (sound : ¬ Faulty env state) : after.fault = state.fault := by
  cases move with
  | faults faulty loop history => exact absurd faulty sound
  | aside loop fault history quiet => exact fault
  | deliver delivering idle found loop fault history => exact fault
  | deliverUnknown delivering idle missing loop fault history => exact fault
  | decode decoding decoded loop fault history => exact fault
  | set setting loop fault history => exact fault
  | store storing loop fault history => exact fault
  | rests before loop fault history => exact fault

theorem Attentive.next (attentive : Attentive env state) (consistent : Consistent state)
    (atRest : RepliesAtRest env state action) (effect : Effect env config state action after) :
    Attentive env after := by
  have sound := attentive.sound consistent
  have table := effect.tableMove
  have move := effect.loopMove
  constructor
  · exact (move.fault_eq sound).trans attentive.alive
  · intro response decoding
    rcases move.decode_before decoding with earlier | delivering
    · exact attentive.decodes response earlier
    · exact atRest.decodes response delivering
  · intro id handles
    rcases move.handles_before handles with earlier | ⟨response, delivering, found⟩
    · refine table.object sound ?_ (attentive.handled id earlier)
      intro user call ret acts erasing same
      exact atRest.erasedAtRest user call ret acts erasing (same ▸ earlier)
    · refine table.object sound ?_ (attentive.nonNull id found)
      intro user call ret acts
      rw [delivering] at acts
      cases acts
  · intro id present
    exact table.nonNull sound attentive.nonNull present

/-- Replies to calls that wait are found in every run, and received in every
run in which entries are erased at rest. -/
theorem findsEntry_of_reachable (lawful : env.json.Lawful)
    (reachable : (machine env config).Reachable state) : FindsEntry state := by
  refine reachable.invariant FindsEntry ?_ ?_
  · intro before response found later call message split
    exact absurd split.symm (List.append_ne_nil_of_right_ne_nil _ (List.cons_ne_nil _ _))
  · intro _ _ _ earlier finds stepped
    have told := callsTold_of_reachable lawful earlier
    exact finds.next (consistent_of_reachable earlier) told.awaits (step_effect stepped).2.loopMove

theorem foundReceived_of_run {trace : List Action}
    (run : (machine env config).Run (RepliesAtRest env) trace state) :
    FoundReceived env state := by
  have held : Attentive env state ∧ FoundReceived env state := by
    refine run.invariant (fun _ state => Attentive env state ∧ FoundReceived env state) ?_ ?_
    · refine ⟨⟨rfl, ?_, ?_, ?_⟩, ?_⟩
      · intro response decoding
        cases decoding
      · intro id handles
        exact False.elim handles
      · intro id present
        cases present
      · intro before response later split
        exact absurd split.symm (List.append_ne_nil_of_right_ne_nil _ (List.cons_ne_nil _ _))
    · intro _ state _ _ earlier held atRest stepped
      obtain ⟨alive, effect⟩ := step_effect stepped
      have consistent := consistent_of_reachable earlier.reachable
      exact ⟨held.1.next consistent atRest effect,
        held.2.next alive (held.1.sound consistent) effect.loopMove⟩
  exact held.2

end Client

end Ccmqsrv
