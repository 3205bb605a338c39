import Ccmqsrv.ClientInvariants

/-!
# What the history says of a call

A step adds to the history what one call does next, or what the event loop
does next, or neither.  The calls are followed here from their request to
their end: a call that returned a value sent its request, no other call has
its id, and the value is the one that the event loop stored for it.
-/

namespace Ccmqsrv

open Foundations

namespace Client

/-- The event is recorded by a call. -/
def Event.OfCall : Event → Prop
  | .sent _ _ => True
  | .left _ => True
  | .ended _ _ => True
  | _ => False

/-- How a call goes on, and what it records. -/
inductive CallMoves (env : Env) (config : Config) (state : State) (call : Call) :
    CallPoint → List Event → CallPoint → Prop
  | lockRegister : CallMoves env config state call .register [] .registering
  | register : CallMoves env config state call .registering [] .encode
  | encode {body : Str} : rpcEncodeReq env call.id call.meth call.args = .ok body →
      CallMoves env config state call .encode [] (.send body)
  | lockSend {body : Str} : CallMoves env config state call (.send body) [] (.sending body)
  | send {body : Str} :
      CallMoves env config state call (.sending body)
        [.sent call (requestMessage config call body)] .await
  | lockAwait : CallMoves env config state call .await [] .lookup
  | lookup : CallMoves env config state call .lookup [] (.get .enter)
  | get {point next : GetPoint} :
      CallMoves env config state call (.get point) (leaving call.id next) (.get next)
  | move {object : AsyncResult Thread} : state.object call.id = some object →
      CallMoves env config state call (.get .returned) [] (.erase object.result)
  | erase {ret : Str × Str} : CallMoves env config state call (.erase ret) [] (.finish ret)

/-- How a call ends. -/
inductive CallEnds (env : Env) (call : Call) : CallPoint → Cpp Json → Prop
  | encodeFault {fault : Fault} :
      rpcEncodeReq env call.id call.meth call.args = .error fault →
        CallEnds env call .encode (.error fault)
  | throw :
      CallEnds env call (.get .threw)
        (throwing (.runtimeError (ascii "call function timeout.")))
  | finish {ret : Str × Str} : CallEnds env call (.finish ret) (finishCall env ret)

/-- What a step does to the calls, and what calls record in it. -/
inductive CallsMove (env : Env) (config : Config) (state after : State) : Prop
  | rest {events : List Event} :
      (∀ user call point, after.users user = .call call point ↔
        state.users user = .call call point) →
          after.ids = state.ids → after.history = state.history ++ events →
            (∀ event ∈ events, ¬ event.OfCall) → CallsMove env config state after
  | begins {user : Nat} {call : Call} :
      state.users user = .idle → call.id ∉ state.ids →
        after.users = Function.update state.users user (.call call .register) →
          after.ids = call.id :: state.ids → after.history = state.history →
            CallsMove env config state after
  | moves {user : Nat} {call : Call} {point next : CallPoint} {events : List Event} :
      state.users user = .call call point →
        CallMoves env config state call point events next →
          after.users = Function.update state.users user (.call call next) →
            after.ids = state.ids → after.history = state.history ++ events →
              CallsMove env config state after
  | ends {user : Nat} {call : Call} {point : CallPoint} {outcome : Cpp Json} :
      state.users user = .call call point → CallEnds env call point outcome →
        after.users = Function.update state.users user .idle →
          after.ids = state.ids → after.history = state.history ++ [.ended call outcome] →
            CallsMove env config state after

variable {env : Env} {config : Config} {state after : State} {action : Action}

/-- A step that records nothing and leaves the threads alone. -/
private theorem CallsMove.still (users : after.users = state.users) (ids : after.ids = state.ids)
    (history : after.history = state.history) : CallsMove env config state after := by
  refine CallsMove.rest ?_ ids (history.trans (List.append_nil _).symm) (by simp)
  intro user call point
  rw [users]

/-- A thread outside the calls goes from one activity to another. -/
private theorem CallsMove.outside {user : Nat} {activity : Activity}
    (users : after.users = Function.update state.users user activity) (rests : activity.Rests)
    (before : ∀ call point, state.users user ≠ .call call point)
    (ids : after.ids = state.ids) (history : after.history = state.history) :
    CallsMove env config state after := by
  refine CallsMove.rest ?_ ids (history.trans (List.append_nil _).symm) (by simp)
  intro other call point
  rw [users]
  by_cases same : other = user
  · subst same
    rw [Function.update_self]
    constructor
    · intro inCall
      rw [inCall] at rests
      exact False.elim rests
    · intro inCall
      exact absurd inCall (before call point)
  · rw [Function.update_of_ne same]

private theorem CallEffect.callsMove {user : Nat} {call : Call} {point : CallPoint}
    (inCall : state.users user = .call call point)
    (effect : CallEffect env config state user call point after) :
    CallsMove env config state after := by
  have silent : state.history = state.history ++ [] := (List.append_nil _).symm
  cases effect with
  | lockRegister free => exact CallsMove.moves inCall .lockRegister rfl rfl silent
  | register => exact CallsMove.moves inCall .register rfl rfl silent
  | encode encoded => exact CallsMove.moves inCall (.encode encoded) rfl rfl silent
  | encodeFault failed => exact CallsMove.ends inCall (.encodeFault failed) rfl rfl rfl
  | lockSend free => exact CallsMove.moves inCall .lockSend rfl rfl silent
  | send => exact CallsMove.moves inCall .send rfl rfl rfl
  | lockAwait free => exact CallsMove.moves inCall .lockAwait rfl rfl silent
  | lookup found => exact CallsMove.moves inCall .lookup rfl rfl silent
  | lookupNull missing =>
      have frame := state.subscript_frame call.id
      exact CallsMove.still frame.1 frame.2 (state.subscript_keeps call.id).2
  | get found advanced => exact CallsMove.moves inCall .get rfl rfl rfl
  | move found => exact CallsMove.moves inCall (.move found) rfl rfl silent
  | getDestroyed notThrew missing => exact CallsMove.still rfl rfl rfl
  | throw => exact CallsMove.ends inCall .throw rfl rfl rfl
  | erase => exact CallsMove.moves inCall .erase rfl rfl silent
  | finish => exact CallsMove.ends inCall .finish rfl rfl rfl

theorem Effect.callsMove (effect : Effect env config state action after) :
    CallsMove env config state after := by
  have refl : ∀ {next : State}, next.users = state.users → ∀ user call point,
      next.users user = .call call point ↔ state.users user = .call call point := by
    intro next users user call point
    rw [users]
  cases effect with
  | call begun idle fresh => exact CallsMove.begins idle fresh rfl rfl rfl
  | callRefused => exact CallsMove.rest (refl rfl) rfl rfl (by simp [Event.OfCall])
  | publish idle =>
      refine CallsMove.outside rfl trivial ?_ rfl rfl
      intro call point inCall
      rw [idle] at inCall
      cases inCall
  | publishRefused => exact CallsMove.rest (refl rfl) rfl rfl (by simp [Event.OfCall])
  | callStep inCall effect => exact effect.callsMove inCall
  | publishStep publishing effect =>
      obtain ⟨activity, users, rests⟩ := effect.frame.users
      refine CallsMove.outside users rests ?_ effect.frame.ids effect.frame.history
      intro call point inCall
      rw [publishing] at inCall
      cases inCall
  | loopStep effect =>
      generalize state.loop = point at effect
      cases effect with
      | @lookupNull id _ missing =>
          have frame := state.subscript_frame id
          exact CallsMove.still frame.1 frame.2 (state.subscript_keeps id).2
      | _ => exact CallsMove.still rfl rfl rfl
  | @wake _ status call _ inCall found =>
      have woken : CallMoves env config state call (.get .blocked) [] (.get (.woken status)) :=
        @CallMoves.get env config state call .blocked (.woken status)
      exact CallsMove.moves inCall woken rfl rfl (List.append_nil _).symm
  | wakeDestroyed inCall missing => exact CallsMove.still rfl rfl rfl
  | wakePublisher publishing =>
      refine CallsMove.outside rfl trivial ?_ rfl rfl
      intro call point inCall
      rw [publishing] at inCall
      cases inCall
  | deliver idle found => exact CallsMove.rest (refl rfl) rfl rfl (by simp [Event.OfCall])
  | deliverUnknown idle missing =>
      exact CallsMove.rest (refl rfl) rfl rfl (by simp [Event.OfCall])
  | store storing found chosen =>
      exact CallsMove.rest (refl rfl) rfl rfl (by simp [Event.OfCall])
  | storeDestroyed storing missing => exact CallsMove.still rfl rfl rfl
  | bindSuccess idle pending => exact CallsMove.still rfl rfl rfl

theorem CallsMove.history_subset (move : CallsMove env config state after) :
    state.history ⊆ after.history := by
  intro event member
  cases move with
  | rest calls ids history quiet =>
      rw [history]
      exact List.mem_append_left _ member
  | begins idle fresh users ids history =>
      rw [history]
      exact member
  | moves inCall moves users ids history =>
      rw [history]
      exact List.mem_append_left _ member
  | ends inCall ends users ids history =>
      rw [history]
      exact List.mem_append_left _ member

/-- The call is in progress, or has sent its request. -/
def Known (state : State) (call : Call) : Prop :=
  (∃ user point, state.users user = .call call point) ∨
    ∃ message, .sent call message ∈ state.history

/-- A known call has a generated id that no other call has. -/
structure OwnIds (state : State) : Prop where
  generated : ∀ call, Known state call → call.id ∈ state.ids
  unique : ∀ call other, Known state call → Known state other → call.id = other.id → call = other

/-- An event that was not recorded by a call that moved was there before. -/
private theorem mem_of_quiet {events : List Event} {event : Event}
    (quiet : ∀ event ∈ events, ¬ event.OfCall) (ofCall : event.OfCall)
    (member : event ∈ state.history ++ events) : event ∈ state.history := by
  rcases List.mem_append.mp member with earlier | new
  · exact earlier
  · exact absurd ofCall (quiet event new)

/-- The only event a call records when it sends its request. -/
private theorem CallMoves.sent {call sender : Call} {point next : CallPoint}
    {events : List Event} {message : Message}
    (moves : CallMoves env config state call point events next)
    (member : .sent sender message ∈ events) :
    sender = call ∧ next = .await ∧
      ∃ body, point = .sending body ∧ message = requestMessage config call body := by
  cases moves with
  | send =>
      cases List.mem_singleton.mp member
      exact ⟨rfl, rfl, _, rfl, rfl⟩
  | @get point next =>
      cases next <;> simp [leaving] at member
  | _ => cases member

/-- A request in the history was there before, or is sent by the call that
moves. -/
theorem CallsMove.sent_before (move : CallsMove env config state after) {call : Call}
    {message : Message} (sent : .sent call message ∈ after.history) :
    .sent call message ∈ state.history ∨
      ∃ user body, state.users user = .call call (.sending body) ∧
        after.users = Function.update state.users user (.call call .await) ∧
          message = requestMessage config call body := by
  cases move with
  | rest calls ids history quiet =>
      rw [history] at sent
      exact Or.inl (mem_of_quiet quiet trivial sent)
  | begins idle fresh users ids history =>
      rw [history] at sent
      exact Or.inl sent
  | moves inCall moves users ids history =>
      rw [history] at sent
      rcases List.mem_append.mp sent with earlier | new
      · exact Or.inl earlier
      · obtain ⟨rfl, rfl, body, rfl, same⟩ := moves.sent new
        exact Or.inr ⟨_, body, inCall, users, same⟩
  | ends inCall ends users ids history =>
      rw [history] at sent
      rcases List.mem_append.mp sent with earlier | new
      · exact Or.inl earlier
      · cases List.mem_singleton.mp new

/-- The end of a call was there before, or comes from the call that ends. -/
theorem CallsMove.ended_before (move : CallsMove env config state after) {call : Call}
    {outcome : Cpp Json} (ended : .ended call outcome ∈ after.history) :
    .ended call outcome ∈ state.history ∨
      ∃ user point, state.users user = .call call point ∧ CallEnds env call point outcome ∧
        after.users = Function.update state.users user .idle := by
  cases move with
  | rest calls ids history quiet =>
      rw [history] at ended
      exact Or.inl (mem_of_quiet quiet trivial ended)
  | begins idle fresh users ids history =>
      rw [history] at ended
      exact Or.inl ended
  | moves inCall moves users ids history =>
      rw [history] at ended
      rcases List.mem_append.mp ended with earlier | new
      · exact Or.inl earlier
      · cases moves with
        | @get point next => cases next <;> simp [leaving] at new
        | send => cases List.mem_singleton.mp new
        | _ => cases new
  | ends inCall ends users ids history =>
      rw [history] at ended
      rcases List.mem_append.mp ended with earlier | new
      · exact Or.inl earlier
      · cases List.mem_singleton.mp new
        exact Or.inr ⟨_, _, inCall, ends, users⟩

/-- At most one call becomes known in a step, with an id of its own. -/
theorem CallsMove.known (move : CallsMove env config state after) :
    (after.ids = state.ids ∧ ∀ call, Known after call → Known state call) ∨
      ∃ begun : Call, begun.id ∉ state.ids ∧ after.ids = begun.id :: state.ids ∧
        ∀ call, Known after call → call = begun ∨ Known state call := by
  have sender : ∀ {call : Call} {message : Message}, .sent call message ∈ after.history →
      Known state call := by
    intro call message sent
    rcases move.sent_before sent with earlier | ⟨user, body, inCall, _⟩
    · exact Or.inr ⟨message, earlier⟩
    · exact Or.inl ⟨user, _, inCall⟩
  cases move with
  | rest calls ids history quiet =>
      refine Or.inl ⟨ids, fun call known => ?_⟩
      rcases known with ⟨user, point, inCall⟩ | ⟨message, sent⟩
      · exact Or.inl ⟨user, point, (calls user call point).mp inCall⟩
      · exact sender sent
  | @begins starter begun idle fresh users ids history =>
      refine Or.inr ⟨begun, fresh, ids, fun call known => ?_⟩
      rcases known with ⟨user, point, inCall⟩ | ⟨message, sent⟩
      · rw [users] at inCall
        rcases eq_call_of_update inCall with ⟨_, same⟩ | ⟨_, earlier⟩
        · cases same
          exact Or.inl rfl
        · exact Or.inr (Or.inl ⟨user, point, earlier⟩)
      · exact Or.inr (sender sent)
  | moves stepping moves users ids history =>
      refine Or.inl ⟨ids, fun call known => ?_⟩
      rcases known with ⟨user, point, inCall⟩ | ⟨message, sent⟩
      · rw [users] at inCall
        rcases eq_call_of_update inCall with ⟨_, same⟩ | ⟨_, earlier⟩
        · cases same
          exact Or.inl ⟨_, _, stepping⟩
        · exact Or.inl ⟨user, point, earlier⟩
      · exact sender sent
  | ends stepping ends users ids history =>
      refine Or.inl ⟨ids, fun call known => ?_⟩
      rcases known with ⟨user, point, inCall⟩ | ⟨message, sent⟩
      · rw [users] at inCall
        rcases eq_call_of_update inCall with ⟨_, same⟩ | ⟨_, earlier⟩
        · cases same
        · exact Or.inl ⟨user, point, earlier⟩
      · exact sender sent

theorem OwnIds.next (own : OwnIds state) (move : CallsMove env config state after) :
    OwnIds after := by
  rcases move.known with ⟨ids, before⟩ | ⟨begun, fresh, ids, before⟩
  · constructor
    · intro call known
      rw [ids]
      exact own.generated call (before call known)
    · intro call other known otherKnown
      exact own.unique call other (before call known) (before other otherKnown)
  · have notBegun : ∀ call, Known state call → call.id ≠ begun.id := by
      intro call known same
      exact fresh (same ▸ own.generated call known)
    constructor
    · intro call known
      rw [ids]
      rcases before call known with rfl | earlier
      · exact List.mem_cons_self
      · exact List.mem_cons_of_mem _ (own.generated call earlier)
    · intro call other known otherKnown same
      rcases before call known with rfl | earlier
      · rcases before other otherKnown with rfl | otherEarlier
        · rfl
        · exact absurd same.symm (notBegun other otherEarlier)
      · rcases before other otherKnown with rfl | otherEarlier
        · exact absurd same (notBegun call earlier)
        · exact own.unique call other earlier otherEarlier same

/-- The request of the call was sent. -/
def Sent (history : List Event) (call : Call) : Prop :=
  ∃ message, .sent call message ∈ history

/-- What is known of a call that has come to this point. -/
def CallPoint.Follows (env : Env) (history : List Event) (call : Call) : CallPoint → Prop
  | .register => True
  | .registering => True
  | .encode => True
  | .send body => rpcEncodeReq env call.id call.meth call.args = .ok body
  | .sending body => rpcEncodeReq env call.id call.meth call.args = .ok body
  | .await => Sent history call
  | .lookup => Sent history call
  | .get _ => Sent history call
  | .erase ret => Sent history call ∧ (ret = ([], []) ∨ .stored call.id ret ∈ history)
  | .finish ret => Sent history call ∧ (ret = ([], []) ∨ .stored call.id ret ∈ history)

private theorem Sent.mono {history later : List Event} {call : Call} (sent : Sent history call)
    (grows : history ⊆ later) : Sent later call := by
  obtain ⟨message, member⟩ := sent
  exact ⟨message, grows member⟩

private theorem CallPoint.Follows.mono {history later : List Event} {call : Call}
    {point : CallPoint} (follows : point.Follows env history call) (grows : history ⊆ later) :
    point.Follows env later call := by
  have taken : ∀ {ret : Str × Str},
      Sent history call ∧ (ret = ([], []) ∨ .stored call.id ret ∈ history) →
        Sent later call ∧ (ret = ([], []) ∨ .stored call.id ret ∈ later) := by
    intro ret known
    exact ⟨known.1.mono grows, known.2.imp_right fun stored => grows stored⟩
  cases point with
  | await => exact Sent.mono follows grows
  | lookup => exact Sent.mono follows grows
  | get point => exact Sent.mono follows grows
  | erase ret => exact taken follows
  | finish ret => exact taken follows
  | _ => exact follows

/-- Each call in progress is where its history has brought it. -/
def CallsFollow (env : Env) (state : State) : Prop :=
  ∀ user call point, state.users user = .call call point → point.Follows env state.history call

private theorem CallMoves.follows {user : Nat} {call : Call} {point next : CallPoint}
    {events : List Event} (consistent : Consistent state)
    (inCall : state.users user = .call call point)
    (moves : CallMoves env config state call point events next)
    (follows : point.Follows env state.history call) :
    next.Follows env (state.history ++ events) call := by
  have grows : state.history ⊆ state.history ++ events := List.subset_append_left _ _
  cases moves with
  | lockRegister => trivial
  | register => trivial
  | encode encoded => exact encoded
  | lockSend => exact follows
  | send => exact ⟨_, List.mem_append_right _ List.mem_cons_self⟩
  | lockAwait => exact Sent.mono follows grows
  | lookup => exact Sent.mono follows grows
  | get => exact Sent.mono follows grows
  | @move object found =>
      obtain ⟨entry, sameEntry, fits⟩ := consistent.entries user call _ inCall trivial
      rw [found] at sameEntry
      cases sameEntry
      refine ⟨Sent.mono follows grows, ?_⟩
      exact fits.result_stored.imp_right fun stored => grows stored
  | @erase ret =>
      have kept : (CallPoint.erase ret).Follows env (state.history ++ []) call :=
        CallPoint.Follows.mono follows grows
      exact kept

theorem CallsFollow.next (follow : CallsFollow env state) (consistent : Consistent state)
    (move : CallsMove env config state after) : CallsFollow env after := by
  intro user call point inCall
  have grows := move.history_subset
  cases move with
  | rest calls ids history quiet =>
      exact (follow user call point ((calls user call point).mp inCall)).mono grows
  | begins idle fresh users ids history =>
      rw [users] at inCall
      rcases eq_call_of_update inCall with ⟨_, same⟩ | ⟨_, earlier⟩
      · cases same
        trivial
      · exact (follow user call point earlier).mono grows
  | moves stepping moves users ids history =>
      rw [users] at inCall
      rcases eq_call_of_update inCall with ⟨_, same⟩ | ⟨_, earlier⟩
      · cases same
        rw [history]
        exact moves.follows consistent stepping (follow _ _ _ stepping)
      · exact (follow user call point earlier).mono grows
  | ends stepping ends users ids history =>
      rw [users] at inCall
      rcases eq_call_of_update inCall with ⟨_, same⟩ | ⟨_, earlier⟩
      · cases same
      · exact (follow user call point earlier).mono grows

/-- A request in the history is the encoding of its call. -/
def SentEncoded (env : Env) (config : Config) (state : State) : Prop :=
  ∀ call message, .sent call message ∈ state.history →
    ∃ body, rpcEncodeReq env call.id call.meth call.args = .ok body ∧
      message = requestMessage config call body

theorem SentEncoded.next (encoded : SentEncoded env config state)
    (follow : CallsFollow env state) (move : CallsMove env config state after) :
    SentEncoded env config after := by
  intro call message sent
  rcases move.sent_before sent with earlier | ⟨user, body, inCall, _, same⟩
  · exact encoded call message earlier
  · have bodyOf : rpcEncodeReq env call.id call.meth call.args = .ok body :=
      follow user call _ inCall
    exact ⟨body, bodyOf, same⟩

/-- The call has sent its request and has not come out of `get`. -/
def CallPoint.Awaits : CallPoint → Prop
  | .await => True
  | .lookup => True
  | .get .returned => False
  | .get .threw => False
  | .get _ => True
  | _ => False

theorem CallPoint.Awaits.registered {point : CallPoint} (awaits : point.Awaits) :
    point.Registered := by
  cases point with
  | await => trivial
  | lookup => trivial
  | get point => trivial
  | _ => exact False.elim awaits

private theorem CallMoves.awaits {call : Call} {point next : CallPoint} {events : List Event}
    (moves : CallMoves env config state call point events next) (awaits : point.Awaits) :
    next.Awaits ∨ .left call.id ∈ events := by
  cases moves with
  | lockAwait => exact Or.inl trivial
  | lookup => exact Or.inl trivial
  | @get point next =>
      cases next with
      | returned => exact Or.inr List.mem_cons_self
      | threw => exact Or.inr List.mem_cons_self
      | _ => exact Or.inl trivial
  | _ => exact False.elim awaits

/-- A call that has sent its request waits for the reply until it leaves `get`. -/
def SentAwaits (state : State) : Prop :=
  ∀ call message, .sent call message ∈ state.history → .left call.id ∉ state.history →
    ∃ user point, state.users user = .call call point ∧ point.Awaits

theorem SentAwaits.next (waiting : SentAwaits state) (move : CallsMove env config state after) :
    SentAwaits after := by
  intro call message sent notLeft
  have grows := move.history_subset
  rcases move.sent_before sent with earlier | ⟨user, body, _, users, _⟩
  · obtain ⟨user, point, inCall, awaits⟩ := waiting call message earlier fun left =>
      notLeft (grows left)
    cases move with
    | rest calls ids history quiet =>
        exact ⟨user, point, (calls user call point).mpr inCall, awaits⟩
    | @begins starter begun idle fresh users ids history =>
        have different : user ≠ starter := by
          intro same
          rw [same, idle] at inCall
          cases inCall
        refine ⟨user, point, ?_, awaits⟩
        rw [users, Function.update_of_ne different]
        exact inCall
    | @moves mover moving here next events stepping moves users ids history =>
        by_cases same : user = mover
        · subst same
          rw [inCall] at stepping
          cases stepping
          have either := moves.awaits awaits
          rw [history, List.mem_append, not_or] at notLeft
          refine ⟨user, next, ?_, either.resolve_right notLeft.2⟩
          rw [users, Function.update_self]
        · refine ⟨user, point, ?_, awaits⟩
          rw [users, Function.update_of_ne same]
          exact inCall
    | @ends ender ending here outcome stepping ends users ids history =>
        by_cases same : user = ender
        · subst same
          rw [inCall] at stepping
          cases stepping
          cases ends <;> exact False.elim awaits
        · refine ⟨user, point, ?_, awaits⟩
          rw [users, Function.update_of_ne same]
          exact inCall
  · refine ⟨user, .await, ?_, trivial⟩
    rw [users, Function.update_self]

/-- A call that returned a value has read it from a stored result. -/
def ReturnedStored (env : Env) (state : State) : Prop :=
  ∀ call value, .ended call (.ok value) ∈ state.history →
    Sent state.history call ∧
      ∃ ret, .stored call.id ret ∈ state.history ∧ finishCall env ret = .ok value

/-- A result that was never stored is no document, so nothing is returned from
it. -/
theorem ReturnedStored.next (lawful : env.json.Lawful) (returned : ReturnedStored env state)
    (follow : CallsFollow env state) (move : CallsMove env config state after) :
    ReturnedStored env after := by
  intro call value ended
  have grows := move.history_subset
  rcases move.ended_before ended with earlier | ⟨user, point, inCall, ends, _⟩
  · obtain ⟨sent, ret, stored, finished⟩ := returned call value earlier
    exact ⟨sent.mono grows, ret, grows stored, finished⟩
  · have follows := follow user call point inCall
    generalize same : (Except.ok value : Cpp Json) = outcome at ends
    cases ends with
    | encodeFault failed => cases same
    | throw => cases same
    | @finish ret =>
        obtain ⟨sent, stored⟩ : Sent state.history call ∧ _ := follows
        rcases stored with empty | stored
        · rw [empty, finishCall_success, jsonParse, lawful.parse_nil] at same
          cases same
        · exact ⟨sent.mono grows, ret, grows stored, rfl⟩

/-- What the history of a client tells of its calls. -/
structure CallsTold (env : Env) (config : Config) (state : State) : Prop where
  ownIds : OwnIds state
  follow : CallsFollow env state
  encoded : SentEncoded env config state
  awaits : SentAwaits state
  returned : ReturnedStored env state

theorem callsTold_of_reachable (lawful : env.json.Lawful)
    (reachable : (machine env config).Reachable state) : CallsTold env config state := by
  refine reachable.invariant (CallsTold env config) ?_ ?_
  · have nothing : ∀ call : Call, ¬ Known {} call := by
      intro call known
      rcases known with ⟨user, point, inCall⟩ | ⟨message, sent⟩
      · cases inCall
      · cases sent
    constructor
    · constructor
      · intro call known
        exact absurd known (nothing call)
      · intro call _ known
        exact absurd known (nothing call)
    · intro user call point inCall
      cases inCall
    · intro call message sent
      cases sent
    · intro call message sent
      cases sent
    · intro call value ended
      cases ended
  · intro _ _ _ earlier told stepped
    have move := (step_effect stepped).2.callsMove
    exact
      { ownIds := told.ownIds.next move
        follow := told.follow.next (consistent_of_reachable earlier) move
        encoded := told.encoded.next told.follow move
        awaits := told.awaits.next move
        returned := told.returned.next lawful told.follow move }

end Client

end Ccmqsrv
