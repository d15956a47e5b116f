import StoreClient.Proofs.Pool.Events

/-!
# The journal of a session

The journal of a session names with each event of the pool the call that it is about. A call that
blocks lies within one use of the session, any other call is a task. A step that answers an error
leaves the error as the last event of the journal.
-/

namespace StoreClient

namespace Session

open Pool

variable {s : Session} {st : Step} {ops : List Op} {result : Session × Answer} {e : PoolError}

/-! ## Steps and uses -/

/-- Each pending task has a waiter that was queued, and all waiters have a number that was given
out. -/
structure Enrolled (s : Session) : Prop where
  attended : s.Attended
  numbered : s.pool.Numbered

theorem Attended.begun {n : Nat} {t : Task} (hs : s.Attended) (hTask : s.task? n = some t) :
    t.waiter < s.pool.waiterCount :=
  hs.queued t (List.mem_of_find?_eq_some hTask)

/-- The operations of a step are regular: each wait that ends was begun, and is followed by an
attempt. -/
theorem Performs.regular (hs : s.Attended) (h : s.Performs st ops result) :
    s.pool.Regular ops := by
  cases h with
  | idle | drop => exact .nil _
  | operation hOperates => cases hOperates <;> exact .one trivial
  | release => exact .one trivial
  | dropGuard => exact .quiet trivial (.one trivial)
  | cancel n t hTask => exact .one (hs.begun hTask)
  | call guarded before hCalls =>
    cases hCalls with
    | acquire => exact regular_acquireOps _ _
    | afterDisposal => exact .quiet trivial (regular_acquireOps _ _)
    | afterRelease => exact .quiet trivial (regular_acquireOps _ _)
  | start => exact regular_callStepOps _
  | poll n t before hTask hResumes =>
    cases hResumes with
    | completed => exact regular_callStepOps _
    | overdue =>
      obtain ⟨ops, hOps⟩ := callStepOps_eq (s.pool.timeOut t.waiter)
      have hRest := regular_callStepOps (s.pool.timeOut t.waiter)
      rw [hOps] at hRest
      show s.pool.Regular (.timeOut t.waiter :: (s.pool.timeOut t.waiter).callStepOps)
      rw [hOps]
      exact .afterWait (hs.begun hTask) hRest

/-- The operations of any use are regular. -/
theorem regular_useOps (hs : s.Attended) (u : Use) : s.pool.Regular (s.useOps u) := by
  cases u with
  | step st =>
    refine ((s.performs st).regular hs).append ?_
    split
    · exact .nil _
    · exact .one trivial
  | giveBack h =>
    rw [useOps]
    split
    · exact .one trivial
    · exact .nil _

theorem Enrolled.use (hs : s.Enrolled) (u : Use) : (s.use u).Enrolled := by
  refine ⟨hs.attended.use u, ?_⟩
  rw [use_pool]
  exact (regular_useOps hs.attended u).numbered hs.numbered

theorem Enrolled.useAll (hs : s.Enrolled) (uses : List Use) : (s.useAll uses).Enrolled := by
  induction uses generalizing s with
  | nil => exact hs
  | cons u uses ih => exact ih (hs.use u)

theorem enrolled_fresh (endpoint : Endpoint) (config : PoolConfig) (factory : List FactoryOutcome) :
    Enrolled { pool := fresh endpoint config factory } where
  attended := attended_fresh endpoint config factory
  numbered := ⟨fun _ hw => absurd hw List.not_mem_nil, fun _ hw => absurd hw List.not_mem_nil⟩

/-- The error that a step answers. -/
def Answer.error? : Answer → Option PoolError
  | .refused e => some e
  | .started _ answer => answer.error?
  | _ => none

/-- An error that a caller is told is what its call came to. -/
theorem deliver_error {guarded : Bool} {outcome : Outcome}
    (hError : (s.deliver guarded outcome).2.error? = some e) : outcome = .error e := by
  cases outcome with
  | ok h => cases hError
  | error e' =>
    cases hError
    rfl

theorem acquire_error {guarded : Bool} (hs : s.pool.Numbered)
    (hError : (s.acquire guarded).2.error? = some e) : s.pool.Refuses s.pool.callOps e :=
  acquire_refuses hs (deliver_error hError)

theorem acquireStep_of_error {n : Nat} {guarded : Bool}
    (hError : (s.advanceTask n guarded).2.error? = some e) :
    s.pool.acquireStep.2 = .done (.error e) := by
  unfold advanceTask at hError
  rcases hStep : s.pool.acquireStep with ⟨r, outcome | w⟩
  · rw [hStep] at hError
    rw [deliver_error hError]
  · rw [hStep] at hError
    cases hError

theorem advanceTask_error {n : Nat} {guarded : Bool} (hs : s.pool.Numbered)
    (hError : (s.advanceTask n guarded).2.error? = some e) :
    s.pool.Refuses s.pool.callStepOps e :=
  acquireStep_refuses hs (acquireStep_of_error hError)

/-- An error that is answered to a call comes with its last event, whatever precedes the call in a
step. -/
theorem Calls.endsInError (hs : s.Enrolled) {guarded : Bool} {before : List Op}
    (h : s.Calls st guarded before)
    (hError : ({ s with pool := s.pool.applyAll before }.acquire guarded).2.error? = some e)
    (hNot : e ≠ .closed) :
    s.pool.EndsInError (before ++ (s.pool.applyAll before).callOps) e := by
  cases h with
  | acquire => exact (acquire_error hs.numbered hError).endsInError hNot
  | afterDisposal =>
    have hDisposed : (s.pool.applyAll [.dispose]).disposed = true := dispose_disposed s.pool
    rw [acquire_of_disposed (s := { s with pool := s.pool.applyAll [.dispose] }) hDisposed]
      at hError
    cases hError
    exact absurd rfl hNot
  | afterRelease i slot hSlot =>
    have hQuiet : s.pool.Quiet (.release slot.handle) := trivial
    have hNumbered : (s.pool.release slot.handle).Numbered := hs.numbered.quiet hQuiet
    refine EndsInError.cons (release_factory _ _) ?_
    exact (acquire_error (s := { s with pool := s.pool.release slot.handle }) hNumbered
      hError).endsInError hNot

/-- An error that is answered to a task comes with the last event. -/
theorem Resumes.endsInError (hs : s.Enrolled) {n : Nat} {t : Task} {before : List Op}
    (hTask : s.task? n = some t) (h : s.Resumes t before)
    (hError : ({ s with pool := s.pool.applyAll before }.advanceTask
      t.number t.guarded).2.error? = some e)
    (hNot : e ≠ .closed) :
    s.pool.EndsInError (before ++ (s.pool.applyAll before).callStepOps) e := by
  cases h with
  | completed => exact (advanceTask_error hs.numbered hError).endsInError hNot
  | overdue =>
    have hNumbered := hs.numbered.timeOut (hs.attended.begun hTask)
    have hFactory : (s.pool.timeOut t.waiter).factory = s.pool.factory :=
      congrArg Stock.factory (timeOut_sameStock _ _).stock
    -- the end of the wait is an event of the same step, and takes nothing from the factory
    refine EndsInError.cons hFactory ?_
    exact (advanceTask_error (s := { s with pool := s.pool.timeOut t.waiter }) hNumbered
      hError).endsInError hNot

/-- A step that answers an error has called for a connection, and the last event of the call tells
where the error comes from. -/
theorem Performs.endsInError (hs : s.Enrolled) (h : s.Performs st ops result)
    (hError : result.2.error? = some e) (hNot : e ≠ .closed) : s.pool.EndsInError ops e := by
  cases h with
  | idle hIdle => cases hIdle <;> cases hError
  | operation hOperates => cases hOperates <;> cases hError
  | release | drop | dropGuard | cancel => cases hError
  | call guarded before hCalls => exact hCalls.endsInError hs hError hNot
  | start guarded =>
    exact (advanceTask_error (s := { s with started := s.started + 1 }) hs.numbered
      hError).endsInError hNot
  | poll n t before hTask hResumes => exact hResumes.endsInError hs hTask hError hNot

/-! ## The journal -/

/-- A call for a connection: one that blocks, by the place of the use in which it is made, or one
that does not, by the number of its task. -/
inductive Call where
  /-- A call that blocks. -/
  | blocking (place : Nat)
  /-- A call that does not block. -/
  | task (number : Nat)
deriving DecidableEq, Repr

/-- An event, and the call that it is about. -/
structure Entry where
  call : Call
  event : Event
deriving DecidableEq, Repr

/-- The call that makes progress in a use. -/
def callOf (s : Session) (place : Nat) : Use → Call
  | .step (.start _) => .task s.started
  | .step (.poll n) => .task n
  | _ => .blocking place

/-- The events of a use, with the call that they are about. -/
def entries (s : Session) (place : Nat) (u : Use) : List Entry :=
  (s.pool.events (s.useOps u)).map fun event => { call := s.callOf place u, event }

/-- What is written down while a session is used; the place of the first use is given. -/
def journal (s : Session) (place : Nat) : List Use → List Entry
  | [] => []
  | u :: uses => s.entries place u ++ (s.use u).journal (place + 1) uses

/-- A journal is kept in the order of the uses. -/
theorem journal_append (s : Session) (place : Nat) (uses uses' : List Use) :
    s.journal place (uses ++ uses') =
      s.journal place uses ++ (s.useAll uses).journal (place + uses.length) uses' := by
  induction uses generalizing s place with
  | nil => rfl
  | cons u uses ih =>
    have hPlace : place + (u :: uses).length = place + 1 + uses.length := by
      rw [List.length_cons]
      omega
    rw [hPlace, List.cons_append, journal, journal, ih, List.append_assoc]
    rfl

theorem useAll_append (s : Session) (uses uses' : List Use) :
    s.useAll (uses ++ uses') = (s.useAll uses).useAll uses' :=
  List.foldl_append

/-- Nothing is written down about the end of a session. -/
theorem events_step (s : Session) (st : Step) :
    s.pool.events (s.useOps (.step st)) = s.pool.events (s.performOps st) := by
  rw [useOps, events_append]
  split
  · exact List.append_nil _
  · exact List.append_nil _

end Session

end StoreClient
