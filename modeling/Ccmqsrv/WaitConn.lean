import Ccmqsrv.Endpoint
import Mathlib.Data.List.Range

/-!
# Waiting for the broker

`wait_conn` tries to connect until it succeeds or has used up its tries, and
sleeps after each failure.  The loop stops when it should.  A socket that does
not connect is not closed, and the delay is the exclusive or of 2 and the round,
which goes up only from the first round to the second.
-/

namespace Ccmqsrv

open Foundations

/-- What `socket` and `connect` return in one round. -/
structure Attempt where
  /-- The descriptor, unless `socket` returns -1. -/
  socket : Option Nat
  connects : Bool

/-- The round ends in a connection. -/
def Attempt.succeeds (attempt : Attempt) : Bool :=
  attempt.socket.isSome && attempt.connects

inductive SysCall where
  | socket (result : Option Nat)
  | connect (serverSocket : Nat) (addr : Str) (port : Nat) (success : Bool)
  | sleep (seconds : Nat)
  | close (serverSocket : Nat)
  deriving DecidableEq

/-- The calls made, and how the loop failed to return if it did. -/
structure Waited where
  calls : List SysCall
  fault : Option Fault := none

def Waited.after (rest : Waited) (calls : List SysCall) : Waited :=
  { rest with calls := calls ++ rest.calls }

/-- The counter is an `int`. -/
def increment (i : Nat) (rest : Waited) : Waited :=
  if i + 1 < 2 ^ 31 then rest else { calls := [], fault := some .undefined }

/-- The address that is given to `inet_addr`. -/
def inetAddr (addr : Str) : Str :=
  if addr = ascii "localhost" then ascii "127.0.0.1" else addr

/-- The rest of the loop in round `i`.  Its `^` is the exclusive or. -/
def waitConnFrom (attempts : Nat → Attempt) (port : Nat) : Nat → Nat → Str → Waited
  | 0, _, _ => { calls := [] }
  | remaining + 1, i, addr =>
      match (attempts i).socket with
      | none =>
          (increment i (waitConnFrom attempts port remaining (i + 1) addr)).after
            [.socket none, .sleep (2 ^^^ i)]
      | some serverSocket =>
          let addr := inetAddr addr
          if (attempts i).connects then
            { calls :=
                [.socket (some serverSocket), .connect serverSocket addr (port % 2 ^ 16) true,
                  .close serverSocket] }
          else
            (increment i (waitConnFrom attempts port remaining (i + 1) addr)).after
              [.socket (some serverSocket), .connect serverSocket addr (port % 2 ^ 16) false,
                .sleep (2 ^^^ i)]

/-- `wait_conn` -/
def waitConn (attempts : Nat → Attempt) (addr : Str) (port maxTries : Nat) : Waited :=
  waitConnFrom attempts port maxTries 0 addr

/-- `run_server` up to `setup`. -/
def runServer (attempts : Nat → Attempt) (conn : Str) (maxTries : Nat) : Cpp (List SysCall) := do
  let (addr, port) ← connEndpoint conn
  let waited := waitConn attempts addr port maxTries
  match waited.fault with
  | some fault => .error fault
  | none => return waited.calls

namespace SysCall

def isSocket : SysCall → Bool
  | .socket _ => true
  | _ => false

def delay : SysCall → Option Nat
  | .sleep seconds => some seconds
  | _ => none

/-- The descriptors that are open after the call. -/
def track (opened : List Nat) : SysCall → List Nat
  | .socket (some serverSocket) => serverSocket :: opened
  | .close serverSocket => opened.erase serverSocket
  | _ => opened

end SysCall

/-- The number of attempts. -/
def tries (calls : List SysCall) : Nat :=
  calls.countP SysCall.isSocket

def delays (calls : List SysCall) : List Nat :=
  calls.filterMap SysCall.delay

def openAfter (opened : List Nat) (calls : List SysCall) : List Nat :=
  calls.foldl SysCall.track opened

/-- The loop returns after the first success or the last try, with all sockets
closed and after delays that never decrease. -/
structure RetryLaw (attempts : Nat → Attempt) (maxTries : Nat) (waited : Waited) : Prop where
  returns : waited.fault = none
  bounded : tries waited.calls ≤ maxTries
  continued : ∀ j, j + 1 < tries waited.calls → (attempts j).succeeds = false
  stopped : tries waited.calls = maxTries ∨
    ∃ j, tries waited.calls = j + 1 ∧ (attempts j).succeeds = true
  closed : openAfter [] waited.calls = []
  delays : (delays waited.calls).Pairwise (· ≤ ·)

/-- The number of rounds that fail before one succeeds, from round `i` on. -/
def failures (attempts : Nat → Attempt) : Nat → Nat → Nat
  | 0, _ => 0
  | remaining + 1, i =>
      if (attempts i).succeeds then 0 else failures attempts remaining (i + 1) + 1

section Failures

variable {attempts : Nat → Attempt}

theorem failures_le : ∀ (remaining i : Nat), failures attempts remaining i ≤ remaining
  | 0, _ => Nat.le_refl 0
  | remaining + 1, i => by
      unfold failures
      split
      · exact Nat.zero_le _
      · exact Nat.succ_le_succ (failures_le remaining (i + 1))

theorem fails_of_lt {remaining i j : Nat} (before : j < failures attempts remaining i) :
    (attempts (i + j)).succeeds = false := by
  induction remaining generalizing i j with
  | zero => exact absurd before (Nat.not_lt_zero j)
  | succ remaining inductionHypothesis =>
      unfold failures at before
      by_cases succeeds : (attempts i).succeeds = true
      · rw [if_pos succeeds] at before
        exact absurd before (Nat.not_lt_zero j)
      · rw [if_neg succeeds] at before
        cases j with
        | zero => simpa using succeeds
        | succ j =>
            have later := inductionHypothesis (i := i + 1) (Nat.lt_of_succ_lt_succ before)
            have sameRound : i + 1 + j = i + (j + 1) := by omega
            rwa [sameRound] at later

theorem succeeds_of_lt {remaining i : Nat} (stops : failures attempts remaining i < remaining) :
    (attempts (i + failures attempts remaining i)).succeeds = true := by
  induction remaining generalizing i with
  | zero => exact absurd stops (Nat.not_lt_zero _)
  | succ remaining inductionHypothesis =>
      unfold failures at stops ⊢
      by_cases succeeds : (attempts i).succeeds = true
      · rw [if_pos succeeds]
        exact succeeds
      · rw [if_neg succeeds] at stops ⊢
        have later := inductionHypothesis (Nat.lt_of_succ_lt_succ stops)
        have sameRound : i + 1 + failures attempts remaining (i + 1) =
            i + (failures attempts remaining (i + 1) + 1) := by omega
        rwa [sameRound] at later

end Failures

section Rounds

variable {attempts : Nat → Attempt} (port remaining : Nat) {i : Nat} (addr : Str)

theorem increment_returned {rest : Waited} (returned : (increment i rest).fault = none) :
    increment i rest = rest ∧ rest.fault = none := by
  unfold increment at returned ⊢
  split at returned
  · rename_i fits
    exact ⟨if_pos fits, returned⟩
  · cases returned

/-- All connections are to the address and the port. -/
def Targets (addr : Str) (port : Nat) (calls : List SysCall) : Prop :=
  ∀ serverSocket target number success,
    .connect serverSocket target number success ∈ calls → target = addr ∧ number = port

theorem Targets.append {port : Nat} {addr : Str} {first second : List SysCall}
    (left : Targets addr port first) (right : Targets addr port second) :
    Targets addr port (first ++ second) := by
  intro serverSocket target number success member
  rcases List.mem_append.mp member with inFirst | inSecond
  · exact left serverSocket target number success inFirst
  · exact right serverSocket target number success inSecond

theorem inetAddr_inetAddr : inetAddr (inetAddr addr) = inetAddr addr := by
  unfold inetAddr
  by_cases isLocal : addr = ascii "localhost"
  · rw [if_pos isLocal]
    rfl
  · rw [if_neg isLocal, if_neg isLocal]

/-- What the calls of a round do, whatever it was. -/
structure Round (addr : Str) (port : Nat) (socket : Option Nat) (slept : List Nat)
    (calls : List SysCall) : Prop where
  tries : tries calls = 1
  delays : delays calls = slept
  /-- A descriptor is open after the round. -/
  openAfter : ∀ opened, openAfter opened calls = socket.toList ++ opened
  targets : Targets (inetAddr addr) (port % 2 ^ 16) calls

/-- A round that connects closes its socket and ends the loop. -/
theorem waitConnFrom_of_succeeds (succeeds : (attempts i).succeeds = true) :
    ∃ calls, waitConnFrom attempts port (remaining + 1) i addr = { calls } ∧
      Round addr port none [] calls := by
  obtain ⟨isSocket, connects⟩ := Bool.and_eq_true_iff.mp succeeds
  obtain ⟨serverSocket, hasSocket⟩ := Option.isSome_iff_exists.mp isSocket
  rw [waitConnFrom, hasSocket]
  simp only [connects, if_true]
  refine ⟨_, rfl, rfl, rfl, fun opened => ?_, ?_⟩
  · exact List.erase_cons_head serverSocket opened
  · intro _ target number _ member
    simp only [List.mem_cons, SysCall.connect.injEq, reduceCtorEq, false_or, or_false,
      List.not_mem_nil] at member
    exact ⟨member.2.1, member.2.2.1⟩

/-- A round that fails leaves its socket open, sleeps and goes on. -/
theorem waitConnFrom_of_fails (fails : (attempts i).succeeds = false) :
    ∃ calls next, waitConnFrom attempts port (remaining + 1) i addr =
        (increment i (waitConnFrom attempts port remaining (i + 1) next)).after calls ∧
      Round addr port (attempts i).socket [2 ^^^ i] calls ∧ inetAddr next = inetAddr addr := by
  rw [waitConnFrom]
  cases hasSocket : (attempts i).socket with
  | none =>
      refine ⟨_, addr, rfl, ?_, rfl⟩
      refine ⟨rfl, rfl, fun _ => rfl, ?_⟩
      intro _ target number _ member
      simp at member
  | some serverSocket =>
      have refused : (attempts i).connects = false := by
        simpa [Attempt.succeeds, hasSocket] using fails
      simp only [refused]
      refine ⟨_, inetAddr addr, rfl, ?_, inetAddr_inetAddr addr⟩
      refine ⟨rfl, rfl, fun _ => rfl, ?_⟩
      intro _ target number _ member
      simp only [List.mem_cons, SysCall.connect.injEq, reduceCtorEq, false_or, or_false,
        List.not_mem_nil] at member
      exact ⟨member.2.1, member.2.2.1⟩

/-- What a loop that returns has done. -/
structure Loop (attempts : Nat → Attempt) (addr : Str) (port remaining i : Nat)
    (calls : List SysCall) : Prop where
  tries : tries calls = min (failures attempts remaining i + 1) remaining
  delays : delays calls = (List.range' i (failures attempts remaining i)).map (2 ^^^ ·)
  /-- The sockets of the rounds that failed are open. -/
  openAfter : ∀ opened, openAfter opened calls =
    ((List.range' i (failures attempts remaining i)).filterMap fun j =>
      (attempts j).socket).reverse ++ opened
  targets : Targets (inetAddr addr) (port % 2 ^ 16) calls

theorem waitConnFrom_loop
    (returned : (waitConnFrom attempts port remaining i addr).fault = none) :
    Loop attempts addr port remaining i (waitConnFrom attempts port remaining i addr).calls := by
  induction remaining generalizing i addr with
  | zero => exact ⟨rfl, rfl, fun _ => rfl, nofun⟩
  | succ remaining inductionHypothesis =>
      by_cases succeeds : (attempts i).succeeds = true
      · obtain ⟨calls, same, round⟩ :=
          waitConnFrom_of_succeeds port remaining addr succeeds
        have stops : failures attempts (remaining + 1) i = 0 := by
          unfold failures
          exact if_pos succeeds
        rw [same]
        constructor
        · rw [stops, round.tries]
          omega
        · rw [stops, round.delays]
          rfl
        · intro opened
          rw [stops, round.openAfter]
          rfl
        · exact round.targets
      · have fails : (attempts i).succeeds = false := by simpa using succeeds
        obtain ⟨calls, next, same, round, sameAddr⟩ :=
          waitConnFrom_of_fails port remaining addr fails
        have continues : failures attempts (remaining + 1) i =
            failures attempts remaining (i + 1) + 1 := by
          conv_lhs => unfold failures
          exact if_neg succeeds
        rw [same] at returned
        obtain ⟨isRest, restReturned⟩ := increment_returned returned
        have rest := inductionHypothesis next restReturned
        rw [same, isRest]
        unfold Waited.after
        constructor
        · rw [continues]
          unfold tries
          rw [List.countP_append]
          have one := round.tries
          have others := rest.tries
          unfold tries at one others
          omega
        · rw [continues, List.range'_succ, List.map_cons]
          unfold delays
          rw [List.filterMap_append]
          exact congrArg₂ (· ++ ·) round.delays rest.delays
        · intro opened
          rw [continues, List.range'_succ]
          unfold openAfter
          rw [List.foldl_append]
          have front := round.openAfter opened
          have back := rest.openAfter ((attempts i).socket.toList ++ opened)
          unfold openAfter at front back
          rw [front, back]
          cases hasSocket : (attempts i).socket with
          | none => simp [hasSocket]
          | some serverSocket => simp [hasSocket]
        · have others := rest.targets
          rw [sameAddr] at others
          exact round.targets.append others

/-- The counter does not overflow while fewer than 2^31 rounds fail. -/
theorem waitConnFrom_returns (fits : i + failures attempts remaining i < 2 ^ 31) :
    (waitConnFrom attempts port remaining i addr).fault = none := by
  induction remaining generalizing i addr with
  | zero => rfl
  | succ remaining inductionHypothesis =>
      by_cases succeeds : (attempts i).succeeds = true
      · obtain ⟨calls, same, _⟩ := waitConnFrom_of_succeeds port remaining addr succeeds
        rw [same]
      · have fails : (attempts i).succeeds = false := by simpa using succeeds
        obtain ⟨calls, next, same, _⟩ := waitConnFrom_of_fails port remaining addr fails
        rw [failures, if_neg succeeds] at fits
        have small : i + 1 < 2 ^ 31 := by omega
        rw [same, increment, if_pos small]
        exact inductionHypothesis next (by omega)

end Rounds

section Law

variable (attempts : Nat → Attempt) (addr : Str) (port maxTries : Nat)

/-- The loop stops at the first success or after the last try. -/
theorem tries_waitConn (fits : failures attempts maxTries 0 < 2 ^ 31) :
    (waitConn attempts addr port maxTries).fault = none ∧
      tries (waitConn attempts addr port maxTries).calls =
        min (failures attempts maxTries 0 + 1) maxTries := by
  have returned : (waitConn attempts addr port maxTries).fault = none :=
    waitConnFrom_returns port maxTries addr (by omega)
  exact ⟨returned, (waitConnFrom_loop port maxTries addr returned).tries⟩

/-- Delays of rounds from the first on decrease with the third. -/
private theorem pairwise_delays_iff (rounds : Nat) :
    ((List.range' 0 rounds).map (2 ^^^ ·)).Pairwise (· ≤ ·) ↔ rounds ≤ 2 := by
  constructor
  · intro ordered
    by_contra more
    have length : ((List.range' 0 rounds).map (2 ^^^ ·)).length = rounds := by simp
    have decreases := List.pairwise_iff_getElem.mp ordered 1 2 (by omega) (by omega) (by omega)
    simp at decreases
  · intro few
    interval_cases rounds <;> decide

/-- Sockets are closed and delays go up exactly if at most two rounds fail, and
these get no socket. -/
theorem retryLaw_iff :
    RetryLaw attempts maxTries (waitConn attempts addr port maxTries) ↔
      failures attempts maxTries 0 ≤ 2 ∧
        ∀ j < failures attempts maxTries 0, (attempts j).socket = none := by
  constructor
  · intro law
    have loop := waitConnFrom_loop port maxTries addr law.returns
    constructor
    · have ordered := law.delays
      unfold waitConn at ordered
      rw [loop.delays] at ordered
      exact (pairwise_delays_iff _).mp ordered
    · intro j failed
      have closed := law.closed
      unfold waitConn at closed
      rw [loop.openAfter, List.append_nil, List.reverse_eq_nil_iff,
        List.filterMap_eq_nil_iff] at closed
      exact closed j (List.mem_range'_1.mpr ⟨Nat.zero_le j, by omega⟩)
  · intro condition
    obtain ⟨few, noSockets⟩ := condition
    obtain ⟨returned, count⟩ := tries_waitConn attempts addr port maxTries (by omega)
    have loop := waitConnFrom_loop port maxTries addr returned
    have bounded : failures attempts maxTries 0 ≤ maxTries := failures_le maxTries 0
    refine ⟨returned, ?_, ?_, ?_, ?_, ?_⟩
    · omega
    · intro j continued
      have before : j < failures attempts maxTries 0 := by omega
      have fails := fails_of_lt before
      rwa [Nat.zero_add] at fails
    · by_cases stops : failures attempts maxTries 0 < maxTries
      · right
        have succeeds := succeeds_of_lt stops
        rw [Nat.zero_add] at succeeds
        exact ⟨_, by omega, succeeds⟩
      · left
        omega
    · unfold waitConn
      rw [loop.openAfter, List.append_nil, List.reverse_eq_nil_iff, List.filterMap_eq_nil_iff]
      intro j member
      have inRange := List.mem_range'_1.mp member
      exact noSockets j (by omega)
    · unfold waitConn
      rw [loop.delays]
      exact (pairwise_delays_iff _).mpr few

/-- The server waits for the endpoint of its URI, if it can find it. -/
theorem runServer_targets {uri : Uri} (inPlace : uri.InPlace) {calls : List SysCall}
    (returned : runServer attempts uri.text maxTries = .ok calls) :
    Targets (inetAddr uri.host) uri.portNumber calls := by
  have found : connEndpoint uri.text = .ok (uri.host, uri.portNumber) := uri.inPlace_iff.mpr inPlace
  have small : uri.portNumber % 2 ^ 16 = uri.portNumber := by
    apply Nat.mod_eq_of_lt
    unfold Uri.portNumber
    cases uri.port with
    | none => decide
    | some port => exact port.small
  unfold runServer at returned
  rw [found] at returned
  simp only [ok_bind] at returned
  cases outcome : (waitConn attempts uri.host uri.portNumber maxTries).fault with
  | some fault =>
      rw [outcome] at returned
      cases returned
  | none =>
      rw [outcome] at returned
      cases returned
      have loop := waitConnFrom_loop uri.portNumber maxTries uri.host outcome
      have targets := loop.targets
      rw [small] at targets
      exact targets

end Law

/-- The broker is not there in the first round. -/
def refusedOnce (i : Nat) : Attempt where
  socket := some (i + 3)
  connects := i == 1

/-- A socket stays open. -/
theorem not_retryLaw_refusedOnce :
    openAfter [] (waitConn refusedOnce (ascii "localhost") 5672 10).calls = [3] ∧
      ¬ ∀ (attempts : Nat → Attempt) (addr : Str) (port maxTries : Nat),
        RetryLaw attempts maxTries (waitConn attempts addr port maxTries) := by
  have leaked : openAfter [] (waitConn refusedOnce (ascii "localhost") 5672 10).calls = [3] := by
    decide
  refine ⟨leaked, fun law => ?_⟩
  have closed := (law refusedOnce (ascii "localhost") 5672 10).closed
  rw [leaked] at closed
  cases closed

end Ccmqsrv
