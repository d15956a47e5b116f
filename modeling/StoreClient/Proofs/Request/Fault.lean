import StoreClient.Proofs.Request.Outcome
import Mathlib.Data.List.Induction

/-!
# Faults and failures

An exchange holds a fault and a status, and callers take the fault as the sign that the response
could not be decoded. Whatever is done with an exchange, the status `clientFailure` comes with a
fault. The fault may outlive the status, though: a response that is taken over sets the status and
leaves a fault of an earlier response where it is. This is the only way in which the two part.
-/

namespace StoreClient

namespace Exchange

/-- Whether a fault is recorded exactly if the response could not be decoded. -/
def Agrees (x : Exchange) : Prop := x.fault ≠ none ↔ x.status = .clientFailure

theorem agrees_of_failed {x : Exchange} {fault : Fault} (hFault : x.fault = some fault)
    (hStatus : x.status = .clientFailure) : x.Agrees := by
  have hSome : x.fault ≠ none := by
    rw [hFault]
    exact Option.some_ne_none fault
  exact iff_of_true hSome hStatus

theorem agrees_of_faultless {x : Exchange} (hFault : x.fault = none)
    (hStatus : x.status ≠ .clientFailure) : x.Agrees :=
  iff_of_false (fun hSome => hSome hFault) hStatus

/-- What may happen to an exchange once its request was made. -/
inductive Event where
  /-- Bytes are read as the response. -/
  | read (frame : Bytes)
  /-- The value is taken. -/
  | value
  /-- The caller records a fault. -/
  | fail (fault : Fault)
  /-- The exchange is replaced by its copy for a retry. -/
  | retry
deriving DecidableEq, Repr

end Exchange

/-! ## Reading -/

namespace Envelope

variable {e : Envelope} {x : Exchange} {frame : Bytes}

/-- A response that cannot be read is a failure, and its fault is kept. -/
theorem read_of_fault {fault : Fault} (h : e.readFault? x frame = some fault) :
    (e.read x frame).status = .clientFailure ∧ (e.read x frame).fault = some fault := by
  unfold readFault? at h
  unfold read
  cases hParse : Header.parse frame with
  | error parseFault =>
    simp only [hParse, Option.some.injEq] at h
    subst h
    exact ⟨rfl, rfl⟩
  | ok header =>
    cases hToken : e.readToken x.vbucket frame header with
    | error tokenFault =>
      simp only [hParse, hToken, Option.some.injEq] at h
      subst h
      simp only [hToken]
      exact ⟨rfl, rfl⟩
    | ok token => simp [hParse, hToken] at h

/-- A response that is taken over leaves the fault as it was, even if it is that of another
response. -/
theorem read_of_no_fault (h : e.readFault? x frame = none) :
    (e.read x frame).status ≠ .clientFailure ∧ (e.read x frame).fault = x.fault := by
  unfold readFault? at h
  unfold read
  cases hParse : Header.parse frame with
  | error parseFault => simp [hParse] at h
  | ok header =>
    have hStatus : header.status ≠ .clientFailure := Status.ofCode_ne_clientFailure _
    cases hToken : e.readToken x.vbucket frame header with
    | error tokenFault => simp [hParse, hToken] at h
    | ok token =>
      simp only [hToken]
      cases token with
      | none => exact ⟨hStatus, rfl⟩
      | some token => exact ⟨hStatus, rfl⟩

end Envelope

namespace Operation

variable {α : Type} (op : Operation α) {x : Exchange}

/-! ## One event -/

/-- The exchange after an event. -/
def step (x : Exchange) : Exchange.Event → Exchange
  | .read frame => op.read x frame
  | .value => op.afterValue x
  | .fail fault => x.fail fault
  | .retry => x.retryCopy

/-- Whether an event takes a response over while the fault of an earlier one is recorded. -/
def Outlives (x : Exchange) (event : Exchange.Event) : Prop :=
  ∃ frame, event = .read frame ∧ x.fault ≠ none ∧ op.readFault? x frame = none

/-- Taking the value either changes nothing or fails. -/
theorem afterValue_cases (x : Exchange) :
    op.afterValue x = x ∨ ∃ fault, op.afterValue x = x.fail fault := by
  unfold afterValue
  split
  · exact Or.inr ⟨_, rfl⟩
  · exact Or.inl rfl

theorem not_outlives_of_ne_read {event : Exchange.Event} (h : ∀ frame, event ≠ .read frame) :
    ¬ op.Outlives x event := by
  rintro ⟨frame, hFrame, -⟩
  exact h frame hFrame

/-- A failure is never left without a fault. -/
theorem fault_of_failure_step (h : x.status = .clientFailure → x.fault ≠ none)
    (event : Exchange.Event) :
    (op.step x event).status = .clientFailure → (op.step x event).fault ≠ none := by
  intro hFailure
  cases event with
  | read frame =>
    cases hFault : op.readFault? x frame with
    | some fault =>
      rw [step, (Envelope.read_of_fault hFault).2]
      exact Option.some_ne_none fault
    | none => exact absurd hFailure (Envelope.read_of_no_fault hFault).1
  | value =>
    rcases op.afterValue_cases x with hSame | ⟨fault, hFail⟩
    · rw [step, hSame] at hFailure ⊢
      exact h hFailure
    · rw [step, hFail]
      exact Option.some_ne_none fault
  | fail fault => exact Option.some_ne_none fault
  | retry => exact nomatch hFailure

/-- An exchange whose fault and status agree is brought out of agreement by one event only. -/
theorem agrees_step_iff (h : x.Agrees) (event : Exchange.Event) :
    (op.step x event).Agrees ↔ ¬ op.Outlives x event := by
  cases event with
  | read frame =>
    cases hFault : op.readFault? x frame with
    | some fault =>
      obtain ⟨hStatus, hRecorded⟩ := Envelope.read_of_fault hFault
      -- the status agrees with the new fault
      refine iff_of_true (Exchange.agrees_of_failed hRecorded hStatus) ?_
      rintro ⟨frame', hFrame, -, hNone⟩
      cases hFrame
      cases hFault.symm.trans hNone
    | none =>
      -- the fault is the old one, and the status is no failure
      obtain ⟨hStatus, hKept⟩ := Envelope.read_of_no_fault hFault
      constructor
      · rintro hAgrees ⟨frame', hFrame, hOld, -⟩
        rw [← hKept] at hOld
        exact hStatus (hAgrees.1 hOld)
      · intro hNot
        have hNew : x.fault = none := by
          by_contra hOld
          exact hNot ⟨frame, rfl, hOld, hFault⟩
        exact Exchange.agrees_of_faultless (hKept.trans hNew) hStatus
  | value =>
    refine iff_of_true ?_ (op.not_outlives_of_ne_read fun frame hRead => nomatch hRead)
    rcases op.afterValue_cases x with hSame | ⟨fault, hFail⟩
    · rw [step, hSame]
      exact h
    · rw [step, hFail]
      exact Exchange.agrees_of_failed rfl rfl
  | fail fault =>
    have hAgrees : (x.fail fault).Agrees := Exchange.agrees_of_failed rfl rfl
    exact iff_of_true hAgrees (op.not_outlives_of_ne_read fun frame hRead => nomatch hRead)
  | retry =>
    have hAgrees : x.retryCopy.Agrees := Exchange.agrees_of_faultless rfl fun h => nomatch h
    exact iff_of_true hAgrees (op.not_outlives_of_ne_read fun frame hRead => nomatch hRead)

/-! ## Runs -/

/-- The exchange after some events. -/
def run (x : Exchange) (events : List Exchange.Event) : Exchange := events.foldl op.step x

theorem run_concat (x : Exchange) (events : List Exchange.Event) (event : Exchange.Event) :
    op.run x (events ++ [event]) = op.step (op.run x events) event := by
  unfold run
  rw [List.foldl_append]
  rfl

/-- If a failure has a fault at first, every failure in the course of events has one. -/
theorem fault_of_failure_run (h : x.status = .clientFailure → x.fault ≠ none)
    (events : List Exchange.Event) :
    (op.run x events).status = .clientFailure → (op.run x events).fault ≠ none := by
  induction events generalizing x with
  | nil => exact h
  | cons event events ih => exact ih (op.fault_of_failure_step h event)

/-- From a new exchange on, a failure always has its fault. Fault and status agree in every state of
a run exactly if the run never takes a response over while the fault of an earlier one is recorded:
neither a copy for a retry nor another failure lies between the two. -/
theorem fault_agrees_throughout_iff (hFault : x.fault = none) (hStatus : x.status = .success)
    (events : List Exchange.Event) :
    ((op.run x events).status = .clientFailure → (op.run x events).fault ≠ none) ∧
      ((∀ before, before <+: events → (op.run x before).Agrees) ↔
        ∀ before event, before ++ [event] <+: events → ¬ op.Outlives (op.run x before) event) := by
  have hNew : x.status ≠ .clientFailure := by
    rw [hStatus]
    decide
  refine ⟨op.fault_of_failure_run (fun hFailure => absurd hFailure hNew) events, ?_⟩
  constructor
  · intro hAll before event hPrefix
    have hBefore := hAll before ((List.prefix_append before [event]).trans hPrefix)
    have hAfter := hAll (before ++ [event]) hPrefix
    rw [run_concat] at hAfter
    exact (op.agrees_step_iff hBefore event).1 hAfter
  · intro hNone before
    -- from the first event on: each event meets an exchange in agreement
    induction before using List.reverseRecOn with
    | nil => exact fun _ => Exchange.agrees_of_faultless hFault hNew
    | append_singleton before event ih =>
      intro hPrefix
      have hBefore := ih ((List.prefix_append before [event]).trans hPrefix)
      rw [run_concat]
      exact (op.agrees_step_iff hBefore event).2 (hNone before event hPrefix)

end Operation

namespace Request

/-- No response came, the request was sent again, and the response to it was read. -/
theorem fault_agrees_after_retry :
    let op := (Request.hello ⟨[4]⟩).operation
    let x : Exchange := { key := some "c" }
    let events : List Exchange.Event :=
      [.read [], .value, .retry,
        .read [129, 31, 0, 0, 0, 0, 0, 0, 0, 0, 0, 2, 0, 0, 0, 0, 0, 0, 0, 0, 0, 0, 0, 0, 0, 4]]
    x.fault = none ∧ x.status = .success ∧
      ((op.run x events).status = .clientFailure → (op.run x events).fault ≠ none) ∧
      ((∀ before, before <+: events → (op.run x before).Agrees) ↔
        ∀ before event, before ++ [event] <+: events → ¬ op.Outlives (op.run x before) event) :=
  ⟨rfl, rfl, Operation.fault_agrees_throughout_iff _ rfl rfl _⟩

/-- No response came, and then the response was read after all: the request has succeeded, its value
is there, and the exchange still holds the fault of the first reading. -/
theorem fault_outlives_failure :
    let op := (Request.hello ⟨[4]⟩).operation
    let x : Exchange := { key := some "c" }
    let response : Bytes :=
      [129, 31, 0, 0, 0, 0, 0, 0, 0, 0, 0, 2, 0, 0, 0, 0, 0, 0, 0, 0, 0, 0, 0, 0, 0, 4]
    let final := op.run x [.read [], .read response]
    x.fault = none ∧ x.status = .success ∧ final.status = .success ∧ op.value final = [4] ∧
      final.fault = some (.incompleteFrame 24 0) ∧ ¬ final.Agrees := by
  refine ⟨rfl, rfl, by rfl, by rfl, by rfl, ?_⟩
  intro hAgrees
  have hFailure := hAgrees.1 (by decide)
  cases hFailure

end Request

end StoreClient
