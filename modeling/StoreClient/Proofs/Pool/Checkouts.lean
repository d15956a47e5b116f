import StoreClient.Proofs.Pool.Closing
import StoreClient.Proofs.Pool.Counts
import StoreClient.Proofs.Pool.Runs
import StoreClient.Proofs.Pool.Tasks

/-!
# Every call is counted once

A call for a connection begins in one use of a session and is answered, given up or still pending
later on. What it is answered, if anything, is what the events of that use tell (`Answers`), and so
the pool counts it once: as given a connection or as denied one, unless it was refused because the
pool had been disposed of. What honest callers hold is what they were given and have not given back.
-/

namespace StoreClient

namespace Session

open Pool

variable {s : Session} {st : Step} {ops : List Op} {result : Session × Answer} {u : Use} {n : Nat}
  {guarded : Bool}

/-! ## Answers -/

/-- Whether a call was answered with a connection. -/
def Answer.isCheckedOut : Answer → Bool
  | .checkedOut _ _ => true
  | .started _ answer => answer.isCheckedOut
  | _ => false

/-- What the events of a step, and whether the pool was disposed of when a call was answered, tell
about the answer. -/
structure Answers (p : Pool) (disposed : Bool) (events : List Event) (answer : Answer) :
    Prop where
  given : events.countP Event.isCheckedOut = if answer.isCheckedOut then 1 else 0
  denied : events.countP Event.isDenied =
    if answer.error?.isSome && !disposed then 1 else 0
  closed : disposed = true → ∀ e, answer.error? = some e → e = .closed
  failed : disposed = false → ∀ e, answer.error? = some e →
    (∃ n, e = .unavailable p.endpoint n) ∨ p.factory.head? = some (.failure e)

/-- An attempt is the end of a call after some waits, and tells how the call is answered. -/
theorem answers_of_tells {p : Pool} {outcome : Outcome} {x : Event} (hTells : p.Tells outcome x)
    (waits : Nat) (s : Session) (guarded : Bool) :
    Answers p false (List.replicate waits .timedOut ++ [x]) (s.deliver guarded outcome).2 := by
  cases hTells with
  | given h =>
    refine ⟨?_, ?_, nofun, fun _ e hError => by cases hError⟩
    · simp [deliver, Event.isCheckedOut, Answer.isCheckedOut]
    · simp [deliver, Event.isDenied, Answer.error?]
  | @failed e hHead =>
    refine ⟨?_, ?_, nofun, fun _ e' hError => ?_⟩
    · simp [deliver, Event.isCheckedOut, Answer.isCheckedOut]
    · simp [deliver, Event.isDenied, Answer.error?]
    · cases hError
      exact Or.inr hHead
  | refused n =>
    refine ⟨?_, ?_, nofun, fun _ e' hError => ?_⟩
    · simp [deliver, Event.isCheckedOut, Answer.isCheckedOut]
    · simp [deliver, Event.isDenied, Answer.error?]
    · cases hError
      exact Or.inl ⟨n, rfl⟩

/-- A refusal because of the disposal comes without an event. -/
theorem answers_closed (p : Pool) : Answers p true [] (.refused .closed) := by
  refine ⟨rfl, rfl, fun _ e hError => ?_, nofun⟩
  cases hError
  rfl

/-- Nobody is answered, and nothing happens that is counted. -/
theorem answers_nothing {p : Pool} {disposed : Bool} {events : List Event} {answer : Answer}
    (hEvents : events = []) (hGiven : answer.isCheckedOut = false)
    (hError : answer.error? = none) : Answers p disposed events answer := by
  subst hEvents
  refine ⟨?_, ?_, fun _ e hSome => ?_, fun _ e hSome => ?_⟩
  · simp [hGiven]
  · simp [hError]
  · cases hError.symm.trans hSome
  · cases hError.symm.trans hSome

/-- What happens in a step before a call goes on does not change the answer. -/
theorem Answers.after {p q : Pool} {disposed : Bool} {before events : List Event} {answer : Answer}
    (h : Answers q disposed events answer) (hBefore : ∀ x ∈ before, x = .timedOut)
    (hEndpoint : q.endpoint = p.endpoint) (hFactory : q.factory = p.factory) :
    Answers p disposed (before ++ events) answer := by
  have hNone : before = List.replicate before.length .timedOut :=
    List.eq_replicate_of_mem hBefore
  have hGiven : before.countP Event.isCheckedOut = 0 := by
    rw [hNone]
    simp [Event.isCheckedOut]
  have hDenied : before.countP Event.isDenied = 0 := by
    rw [hNone]
    simp [Event.isDenied]
  refine ⟨?_, ?_, h.closed, ?_⟩
  · rw [List.countP_append, hGiven, Nat.zero_add]
    exact h.given
  · rw [List.countP_append, hDenied, Nat.zero_add]
    exact h.denied
  · rw [← hEndpoint, ← hFactory]
    exact h.failed

theorem Answers.started {p : Pool} {disposed : Bool} {events : List Event} {answer : Answer}
    (h : Answers p disposed events answer) (n : Nat) :
    Answers p disposed events (.started n answer) :=
  ⟨h.given, h.denied, h.closed, h.failed⟩

/-- The events of a blocking call tell its answer. -/
theorem acquire_answers (hs : s.pool.Numbered) (guarded : Bool) :
    Answers s.pool (s.acquire guarded).1.pool.disposed (s.pool.events s.pool.callOps)
      (s.acquire guarded).2 := by
  have hSame : (s.acquire guarded).1.pool.disposed = s.pool.disposed :=
    congrArg Prod.snd (acquire_settings s guarded)
  rw [hSame]
  cases hDisposed : s.pool.disposed with
  | true =>
    rw [acquire_of_disposed hDisposed, events_callOps_of_disposed hDisposed]
    exact answers_closed s.pool
  | false =>
    obtain ⟨waits, x, hEvents, hTells⟩ := acquire_events hs hDisposed
    rw [hEvents]
    exact answers_of_tells hTells waits _ guarded

/-- The events of a poll tell its answer. -/
theorem advanceTask_answers (hs : s.pool.Numbered) (n : Nat) (guarded : Bool) :
    Answers s.pool (s.advanceTask n guarded).1.pool.disposed (s.pool.events s.pool.callStepOps)
      (s.advanceTask n guarded).2 := by
  have hSame : (s.advanceTask n guarded).1.pool.disposed = s.pool.disposed :=
    congrArg Prod.snd (advanceTask_settings s n guarded)
  rw [hSame]
  cases hDisposed : s.pool.disposed with
  | true =>
    rw [advanceTask_of_disposed hDisposed, events_callStepOps_of_disposed hDisposed]
    exact answers_closed s.pool
  | false =>
    unfold advanceTask
    rcases acquireStep_events hs hDisposed with ⟨r, w, hStep, hEvents⟩ |
      ⟨r, outcome, waits, x, hStep, hEvents, hTells⟩
    · rw [hStep, hEvents]
      exact answers_nothing rfl rfl rfl
    · rw [hStep, hEvents]
      exact answers_of_tells hTells waits _ guarded

theorem eventsOf_timeOut (p : Pool) (w : WaiterId) :
    ∀ x ∈ p.eventsOf (.timeOut w), x = .timedOut := by
  intro x hx
  rw [eventsOf] at hx
  split at hx
  · cases hx
  · exact List.mem_singleton.1 hx

/-- A call is answered what its events tell, whatever precedes it in a step. -/
theorem Calls.answers (hs : s.Enrolled) {before : List Op} (h : s.Calls st guarded before) :
    Answers s.pool ({ s with pool := s.pool.applyAll before }.acquire guarded).1.pool.disposed
      (s.pool.events (before ++ (s.pool.applyAll before).callOps))
      ({ s with pool := s.pool.applyAll before }.acquire guarded).2 := by
  cases h with
  | acquire => exact acquire_answers hs.numbered guarded
  | afterDisposal =>
    have hDisposed : (s.pool.applyAll [.dispose]).disposed = true := dispose_disposed s.pool
    have hEvents : s.pool.events ([.dispose] ++ (s.pool.applyAll [.dispose]).callOps) = [] :=
      events_callOps_of_disposed hDisposed
    rw [acquire_disposed, hDisposed, hEvents,
      acquire_of_disposed (s := { s with pool := s.pool.applyAll [.dispose] }) hDisposed]
    exact answers_closed s.pool
  | afterRelease i slot hSlot =>
    have hQuiet : s.pool.Quiet (.release slot.handle) := trivial
    have hNumbered : (s.pool.release slot.handle).Numbered := hs.numbered.quiet hQuiet
    have hCall := acquire_answers (s := { s with pool := s.pool.release slot.handle })
      hNumbered false
    have hNone : ∀ x ∈ s.pool.eventsOf (.release slot.handle), x = .timedOut :=
      fun x hx => absurd hx List.not_mem_nil
    exact hCall.after hNone (apply_endpoint s.pool (.release slot.handle))
      (release_factory s.pool slot.handle)

/-- A task that goes on is answered what its events tell. -/
theorem Resumes.answers (hs : s.Enrolled) {t : Task} {before : List Op} (hTask : s.task? n = some t)
    (h : s.Resumes t before) :
    Answers s.pool
      ({ s with pool := s.pool.applyAll before }.advanceTask t.number t.guarded).1.pool.disposed
      (s.pool.events (before ++ (s.pool.applyAll before).callStepOps))
      ({ s with pool := s.pool.applyAll before }.advanceTask t.number t.guarded).2 := by
  cases h with
  | completed => exact advanceTask_answers hs.numbered t.number t.guarded
  | overdue =>
    have hNumbered := hs.numbered.timeOut (hs.attended.begun hTask)
    exact (advanceTask_answers (s := { s with pool := s.pool.timeOut t.waiter }) hNumbered
      t.number t.guarded).after (eventsOf_timeOut s.pool t.waiter)
      (apply_endpoint s.pool (.timeOut t.waiter))
      (congrArg Stock.factory (timeOut_sameStock s.pool t.waiter).stock)

/-- A step answers what its events tell. -/
theorem Performs.answers (hs : s.Enrolled) (h : s.Performs st ops result) :
    Answers s.pool result.1.pool.disposed (s.pool.events ops) result.2 := by
  cases h with
  | idle hIdle => cases hIdle <;> exact answers_nothing rfl rfl rfl
  | operation hOperates => cases hOperates <;> exact answers_nothing rfl rfl rfl
  | release | drop | dropGuard | cancel => exact answers_nothing rfl rfl rfl
  | call guarded before hCalls => exact hCalls.answers hs
  | start guarded =>
    exact (advanceTask_answers (s := { s with started := s.started + 1 }) hs.numbered s.started
      guarded).started s.started
  | poll n t before hTask hResumes => exact hResumes.answers hs hTask

/-! ## Uses -/

/-- Whether the pool was disposed of when a use answered. -/
def closedIn (s : Session) : Use → Bool
  | .step st => (s.perform st).1.pool.disposed
  | .giveBack _ => s.pool.disposed

/-- Whether a use gives a caller a connection. -/
def gives (s : Session) (u : Use) : Bool := (s.answer u).isCheckedOut

/-- Whether a use tells a caller an error, and not because the pool was disposed of. -/
def denies (s : Session) (u : Use) : Bool := (s.answer u).error?.isSome && !s.closedIn u

/-- Whether a use refuses a caller because the pool was disposed of. -/
def refuses (s : Session) (u : Use) : Bool := (s.answer u).error?.isSome && s.closedIn u

/-- The events of any use tell what its caller is answered. -/
theorem use_answers (hs : s.Enrolled) (u : Use) :
    Answers s.pool (s.closedIn u) (s.pool.events (s.useOps u)) (s.answer u) := by
  cases u with
  | step st =>
    rw [events_step]
    exact (s.performs st).answers hs
  | giveBack h =>
    rw [useOps]
    split
    · exact answers_nothing rfl rfl rfl
    · exact answers_nothing rfl rfl rfl

/-- A pool counts a call when it answers it, unless it was disposed of. -/
theorem use_counts (hs : s.Enrolled) (u : Use) :
    (s.use u).pool.metrics.successful =
        s.pool.metrics.successful + (if s.gives u then 1 else 0) ∧
      (s.use u).pool.metrics.failed = s.pool.metrics.failed + if s.denies u then 1 else 0 := by
  have hAnswers := use_answers hs u
  have hCounts := counts_applyAll s.pool (s.useOps u)
  rw [← use_pool] at hCounts
  refine ⟨?_, ?_⟩
  · rw [gives, ← hAnswers.given]
    exact congrArg Prod.fst hCounts
  · rw [denies, ← hAnswers.denied]
    exact congrArg (·.2.1) hCounts

theorem useAll_built (s : Session) (uses : List Use) :
    (s.useAll uses).pool.endpoint = s.pool.endpoint ∧
      (s.useAll uses).pool.config = s.pool.config := by
  rw [useAll_pool]
  exact applyAll_built _ _

/-- Over a whole run the pool counts the answers that it gives. -/
theorem useAll_counts (hs : s.Enrolled) (uses : List Use) :
    (s.useAll uses).pool.metrics.successful =
        s.pool.metrics.successful + (s.visits uses).countP (fun v => v.1.gives v.2) ∧
      (s.useAll uses).pool.metrics.failed =
        s.pool.metrics.failed + (s.visits uses).countP fun v => v.1.denies v.2 := by
  induction uses generalizing s with
  | nil => exact ⟨rfl, rfl⟩
  | cons u uses ih =>
    obtain ⟨hGiven, hDenied⟩ := use_counts hs u
    obtain ⟨hGivenRest, hDeniedRest⟩ := ih (hs.use u)
    have hRest : s.useAll (u :: uses) = (s.use u).useAll uses := rfl
    rw [hRest, visits, List.countP_cons, List.countP_cons]
    dsimp only
    omega

/-! ## Calls that begin and end -/

/-- Whether a call for a connection begins in a use. -/
def begins (s : Session) : Use → Bool
  | .step (.acquire _) | .step (.start _) | .step (.handOff none) => true
  | .step (.handOff (some i)) => (s.slot? i).isSome
  | _ => false

/-- Whether a call that is pending is given up in a use. -/
def givesUp (s : Session) : Use → Bool
  | .step (.cancel n) => (s.task? n).isSome
  | _ => false

/-- Whether a call was answered. -/
def Answer.isFinal (answer : Answer) : Bool := answer.isCheckedOut || answer.error?.isSome

theorem deliver_isFinal (s : Session) (guarded : Bool) (outcome : Outcome) :
    (s.deliver guarded outcome).2.isFinal = true := by
  cases outcome <;> rfl

/-- A final answer is a connection, an error or a refusal because of the disposal, and only one of
them. -/
theorem final_eq (s : Session) (u : Use) :
    (if (s.answer u).isFinal then 1 else 0) =
      (if s.gives u then 1 else 0) + (if s.denies u then 1 else 0) +
        if s.refuses u then 1 else 0 := by
  have hApart : (s.answer u).isCheckedOut = true → (s.answer u).error? = none := by
    generalize s.answer u = answer
    induction answer with
    | started n answer ih => exact ih
    | _ => simp [Answer.isCheckedOut, Answer.error?]
  unfold gives denies refuses Answer.isFinal
  cases hGiven : (s.answer u).isCheckedOut with
  | true => simp [hApart hGiven]
  | false =>
    cases (s.answer u).error? with
    | none => rfl
    | some e => cases s.closedIn u <;> rfl

/-- Pending tasks have different numbers that were given out. -/
structure Enlisted (s : Session) : Prop where
  lt : ∀ t ∈ s.tasks, t.number < s.started
  nodup : (s.tasks.map (·.number)).Nodup

theorem Enlisted.congr {after : Session} (hs : s.Enlisted) (hTasks : after.tasks = s.tasks)
    (hStarted : after.started = s.started) : after.Enlisted := by
  refine ⟨?_, ?_⟩
  · rw [hTasks, hStarted]
    exact hs.lt
  · rw [hTasks]
    exact hs.nodup

theorem Enlisted.removeTask (hs : s.Enlisted) (n : Nat) : (s.removeTask n).Enlisted where
  lt := fun t ht => hs.lt t (List.mem_filter.1 ht).1
  nodup := hs.nodup.sublist (List.filter_sublist.map _)

/-- No task has the number of the next one. -/
theorem Enlisted.removeTask_started (hs : s.Enlisted) :
    (s.removeTask s.started).tasks = s.tasks :=
  List.filter_eq_self.2 fun t ht => bne_iff_ne.2 (Nat.ne_of_lt (hs.lt t ht))

theorem Enlisted.length_removeTask (hs : s.Enlisted) {t : Task} (ht : t ∈ s.tasks) :
    s.tasks.length = (s.removeTask t.number).tasks.length + 1 :=
  (perm_cons_filter_key hs.nodup ht).length_eq

/-- A task that keeps waiting is there once. -/
theorem Enlisted.putTask (hs : s.Enlisted) {t : Task} (hNumber : t.number < s.started) :
    (s.putTask t).Enlisted ∧
      (s.putTask t).tasks.length = (s.removeTask t.number).tasks.length + 1 := by
  have hPut := putTask_perm hs.nodup t
  have hFresh : t.number ∉ (s.removeTask t.number).tasks.map (·.number) := by
    intro hMem
    obtain ⟨v, hv, hEq⟩ := List.mem_map.1 hMem
    exact number_ne_of_removeTask hv hEq
  refine ⟨⟨fun v hv => ?_, ?_⟩, hPut.length_eq⟩
  · rw [putTask_started]
    rcases List.mem_cons.1 (hPut.mem_iff.1 hv) with rfl | hv
    · exact hNumber
    · exact hs.lt v (List.mem_filter.1 hv).1
  · have hRest := (hs.removeTask t.number).nodup
    exact (hPut.map Task.number).nodup_iff.2 (List.nodup_cons.2 ⟨hFresh, hRest⟩)

/-- A task that goes on is answered or stays pending. -/
theorem Enlisted.advanceTask (hs : s.Enlisted) (hNumber : n < s.started) (guarded : Bool) :
    (s.advanceTask n guarded).1.Enlisted ∧
      (s.removeTask n).tasks.length + 1 =
        (s.advanceTask n guarded).1.tasks.length +
          if (s.advanceTask n guarded).2.isFinal then 1 else 0 := by
  unfold Session.advanceTask
  rcases s.pool.acquireStep with ⟨r, outcome | w⟩
  · dsimp only
    rw [deliver_isFinal, deliver_eq, if_pos rfl]
    exact ⟨(hs.removeTask n).congr rfl rfl, rfl⟩
  · have hPool : Enlisted { s with pool := r } := hs.congr rfl rfl
    obtain ⟨hPut, hLength⟩ := hPool.putTask
      (t := { number := n, waiter := w, deadline := s.now + r.config.waitTimeout, guarded }) hNumber
    dsimp only
    rw [hLength]
    exact ⟨hPut, rfl⟩

theorem acquire_isFinal (s : Session) (guarded : Bool) : (s.acquire guarded).2.isFinal = true :=
  deliver_isFinal _ guarded _

theorem Enlisted.acquire (hs : s.Enlisted) (guarded : Bool) : (s.acquire guarded).1.Enlisted := by
  obtain ⟨r, handles, -, hEq⟩ := acquire_cases s guarded
  rw [hEq]
  exact hs.congr rfl rfl

theorem Idles.begins_eq {now : Nat} {owned : Bool} {answer : Answer}
    (h : s.Idles st now owned answer) : s.begins (.step st) = false := by
  cases h with
  | noHandOff hSlot => exact congrArg Option.isSome hSlot
  | _ => rfl

theorem Idles.givesUp_eq {now : Nat} {owned : Bool} {answer : Answer}
    (h : s.Idles st now owned answer) : s.givesUp (.step st) = false := by
  cases h with
  | noCancel hTask => exact congrArg Option.isSome hTask
  | _ => rfl

theorem Idles.isFinal_eq {now : Nat} {owned : Bool} {answer : Answer}
    (h : s.Idles st now owned answer) : answer.isFinal = false := by
  cases h <;> rfl

theorem Calls.begins_eq {before : List Op} (h : s.Calls st guarded before) :
    s.begins (.step st) = true := by
  cases h with
  | afterRelease i slot hSlot => exact congrArg Option.isSome hSlot
  | _ => rfl

theorem Calls.givesUp_eq {before : List Op} (h : s.Calls st guarded before) :
    s.givesUp (.step st) = false := by
  cases h <;> rfl

/-- The calls that were pending before a step, and the one that begins in it, are answered, given up
or pending after it. -/
theorem Enlisted.perform (hs : s.Enlisted) (h : s.Performs st ops result) :
    result.1.Enlisted ∧
      s.tasks.length + (if s.begins (.step st) then 1 else 0) =
        result.1.tasks.length + (if result.2.isFinal then 1 else 0) +
          if s.givesUp (.step st) then 1 else 0 := by
  cases h with
  | idle hIdle =>
    rw [hIdle.begins_eq, hIdle.givesUp_eq, hIdle.isFinal_eq]
    exact ⟨hs.congr rfl rfl, rfl⟩
  | operation hOperates => cases hOperates <;> exact ⟨hs.congr rfl rfl, rfl⟩
  | release | drop | dropGuard => exact ⟨hs.congr rfl rfl, rfl⟩
  | cancel n t hTask =>
    have hGivesUp : s.givesUp (.step (.cancel n)) = true := congrArg Option.isSome hTask
    obtain ⟨hMem, rfl⟩ := task?_eq_some hTask
    rw [hGivesUp]
    exact ⟨(hs.removeTask t.number).congr rfl rfl, hs.length_removeTask hMem⟩
  | call guarded before hCalls =>
    have hBefore : Enlisted { s with pool := s.pool.applyAll before } := hs.congr rfl rfl
    rw [hCalls.begins_eq, hCalls.givesUp_eq, acquire_tasks, acquire_isFinal]
    exact ⟨hBefore.acquire guarded, rfl⟩
  | start guarded =>
    have hStarted : Enlisted { s with started := s.started + 1 } :=
      ⟨fun t ht => Nat.lt_succ_of_lt (hs.lt t ht), hs.nodup⟩
    obtain ⟨hNext, hLength⟩ := hStarted.advanceTask (Nat.lt_succ_self s.started) guarded
    have hBefore : (({ s with started := s.started + 1 } : Session).removeTask s.started).tasks =
        s.tasks := hs.removeTask_started
    rw [hBefore] at hLength
    exact ⟨hNext, hLength⟩
  | poll n t before hTask =>
    obtain ⟨hMem, -⟩ := task?_eq_some hTask
    have hResumed : Enlisted { s with pool := s.pool.applyAll before } := hs.congr rfl rfl
    obtain ⟨hNext, hLength⟩ := hResumed.advanceTask (hs.lt t hMem) t.guarded
    exact ⟨hNext, (hs.length_removeTask hMem).trans hLength⟩

theorem settle_enlisted (hs : s.Enlisted) : s.settle.Enlisted := by
  unfold settle
  split
  · exact hs
  · exact hs.congr rfl rfl

/-- The calls that are pending before a use, or begin in it, are those that are pending afterwards,
answered or given up. -/
theorem Enlisted.use (hs : s.Enlisted) (u : Use) :
    (s.use u).Enlisted ∧
      s.tasks.length + (if s.begins u then 1 else 0) =
        (s.use u).tasks.length + ((if s.gives u then 1 else 0) + (if s.denies u then 1 else 0) +
          if s.refuses u then 1 else 0) + if s.givesUp u then 1 else 0 := by
  rw [← final_eq]
  cases u with
  | step st =>
    obtain ⟨hNext, hLength⟩ := hs.perform (s.performs st)
    have hTasks : (s.use (.step st)).tasks = (s.perform st).1.tasks := settle_tasks _
    rw [hTasks]
    exact ⟨settle_enlisted hNext, hLength⟩
  | giveBack h =>
    have hSame : (s.use (.giveBack h)).tasks = s.tasks ∧
        (s.use (.giveBack h)).started = s.started := by
      rw [Session.use]
      split <;> exact ⟨rfl, rfl⟩
    rw [hSame.1]
    exact ⟨hs.congr hSame.1 hSame.2, rfl⟩

/-- The calls that begin in a run are answered or given up in it, or pending in the end. -/
theorem Enlisted.useAll (hs : s.Enlisted) (uses : List Use) :
    (s.useAll uses).Enlisted ∧
      s.tasks.length + (s.visits uses).countP (fun v => v.1.begins v.2) =
        (s.useAll uses).tasks.length + ((s.visits uses).countP (fun v => v.1.gives v.2) +
          (s.visits uses).countP (fun v => v.1.denies v.2) +
          (s.visits uses).countP fun v => v.1.refuses v.2) +
          (s.visits uses).countP fun v => v.1.givesUp v.2 := by
  induction uses generalizing s with
  | nil => exact ⟨hs, rfl⟩
  | cons u uses ih =>
    obtain ⟨hNext, hFirst⟩ := hs.use u
    obtain ⟨hLast, hRest⟩ := ih hNext
    have hSame : s.useAll (u :: uses) = (s.use u).useAll uses := rfl
    rw [hSame]
    refine ⟨hLast, ?_⟩
    simp only [visits, List.countP_cons]
    omega

theorem enlisted_fresh (endpoint : Endpoint) (config : PoolConfig) (factory : List FactoryOutcome) :
    Enlisted { pool := fresh endpoint config factory } := ⟨nofun, List.nodup_nil⟩

/-- Who gives a call up is not answered. -/
theorem answer_of_givesUp (hGivesUp : s.givesUp u = true) : (s.answer u).isFinal = false := by
  cases u with
  | giveBack h => cases hGivesUp
  | step st =>
    cases st with
    | cancel n =>
      rw [answer, step_eq, Session.perform]
      cases s.task? n <;> rfl
    | _ => cases hGivesUp

/-- A call that is refused because the pool was disposed of, or given up, is not counted. -/
theorem uncounted (h : s.refuses u = true ∨ s.givesUp u = true) :
    s.gives u = false ∧ s.denies u = false := by
  have hFinal := final_eq s u
  have hNone : (if s.gives u then 1 else 0) + (if s.denies u then 1 else 0) = 0 := by
    rcases h with hRefuses | hGivesUp
    · have hOnce : (if (s.answer u).isFinal then 1 else 0) ≤ 1 := by split <;> omega
      rw [if_pos hRefuses] at hFinal
      omega
    · rw [answer_of_givesUp hGivesUp, if_neg Bool.false_ne_true] at hFinal
      omega
  refine ⟨Bool.eq_false_iff.2 fun hGives => ?_, Bool.eq_false_iff.2 fun hDenies => ?_⟩
  · rw [if_pos hGives] at hNone
    omega
  · rw [if_pos hDenies] at hNone
    omega

/-! ## Slots -/

theorem deliver_length (s : Session) (guarded : Bool) (outcome : Outcome) :
    (s.deliver guarded outcome).1.slots.length =
      s.slots.length + if (s.deliver guarded outcome).2.isCheckedOut then 1 else 0 := by
  cases outcome with
  | ok h => exact List.length_append
  | error e => rfl

/-- A poll adds a slot exactly if it is answered with a connection. -/
theorem advanceTask_length (s : Session) (n : Nat) (guarded : Bool) :
    (s.advanceTask n guarded).1.slots.length =
      s.slots.length + if (s.advanceTask n guarded).2.isCheckedOut then 1 else 0 := by
  unfold advanceTask
  rcases s.pool.acquireStep with ⟨r, outcome | w⟩
  · exact deliver_length _ guarded outcome
  · dsimp only
    rw [putTask_slots]
    rfl

/-- A step fills a slot whenever it gives a caller a connection, and only then. -/
theorem Performs.length (h : s.Performs st ops result) :
    result.1.slots.length = s.slots.length + if result.2.isCheckedOut then 1 else 0 := by
  cases h with
  | idle hIdle => cases hIdle <;> rfl
  | operation hOperates => cases hOperates <;> rfl
  | release => rfl
  | drop => exact List.length_set
  | dropGuard => exact List.length_set
  | cancel => rfl
  | call guarded => exact deliver_length _ guarded _
  | start guarded => exact advanceTask_length _ _ guarded
  | poll n t => exact advanceTask_length _ t.number t.guarded

/-- A slot is filled whenever a caller is given a connection, and only then. -/
theorem use_length (s : Session) (u : Use) :
    (s.use u).slots.length = s.slots.length + if s.gives u then 1 else 0 := by
  cases u with
  | giveBack h =>
    rw [use]
    split <;> rfl
  | step st =>
    have hSlots : (s.use (.step st)).slots = (s.perform st).1.slots := settle_slots _
    rw [hSlots]
    exact (s.performs st).length

end Session

namespace Custody

open Pool Session

variable {c : Custody} {st : Step}

/-- The slots whose connections are given back in a run, in order. -/
def givenBack (c : Custody) : List Step → List Nat
  | [] => []
  | st :: rest => (c.session.givesBack? st).toList ++ (c.step st).givenBack rest

/-- What a step of honest callers gives back was held once. -/
theorem Placed.length_kept (hc : c.Placed)
    (hHonest : ∀ i ∈ c.session.givesBack? st, i ∈ c.held.map (·.1)) :
    c.held.length = (c.kept st).length + (c.session.givesBack? st).toList.length := by
  cases hGives : c.session.givesBack? st with
  | none =>
    rw [kept_of_none hGives]
    rfl
  | some i =>
    obtain ⟨k, hk, rfl⟩ := List.mem_map.1 (hHonest i hGives)
    have hKept : c.kept st = c.held.filter (·.1 != k.1) := by
      rw [kept, hGives]
    rw [hKept]
    exact (perm_cons_filter_key hc.nodup hk).length_eq

/-- What a step hands out is held after it, and what it gives back is not. -/
theorem Placed.step_length (hc : c.Placed)
    (hHonest : ∀ i ∈ c.session.givesBack? st, i ∈ c.held.map (·.1)) :
    c.held.length + (if c.session.gives (.step st) then 1 else 0) =
      (c.step st).held.length + (c.session.givesBack? st).toList.length := by
  obtain ⟨-, slots', guarded, handles, hEmptied, hSlots, -⟩ :=
    hc.holds (c.session.performs st) hHonest
  have hStep : (c.session.step st).1.slots = slots' ++ slotsOf guarded handles := by
    rw [step_eq, settle_slots]
    exact hSlots
  have hNew : slots'.length + handles.length =
      c.session.slots.length + if c.session.gives (.step st) then 1 else 0 := by
    rw [← use_length, show (c.session.use (.step st)).slots = _ from hStep, List.length_append,
      slotsOf, List.length_map]
  have hHeld := congrArg List.length (step_held hEmptied hStep)
  have hNumbered : (numberedFrom c.session.slots.length handles).length = handles.length := by
    rw [numberedFrom, List.length_map, List.length_zipIdx]
  have hKept := hc.length_kept hHonest
  have hSame := hEmptied.1
  rw [List.length_append, hNumbered] at hHeld
  omega

/-- What was handed out is held or was given back. -/
theorem Unclosed.run_length {steps : List Step} (hc : c.Unclosed) (hEnrolled : c.session.Enrolled)
    (hHonest : c.Honest steps) :
    (c.run steps).session.pool.metrics.successful + c.held.length =
      c.session.pool.metrics.successful + (c.run steps).held.length +
        (c.givenBack steps).length := by
  induction steps generalizing c with
  | nil => rfl
  | cons st rest ih =>
    have hRest := ih (hc.step hHonest.1).1 (hEnrolled.use (.step st)) hHonest.2
    have hStep := hc.placed.step_length hHonest.1
    have hCount : (c.step st).session.pool.metrics.successful = _ :=
      (use_counts hEnrolled (.step st)).1
    have hRun : c.run (st :: rest) = (c.step st).run rest := rfl
    rw [hRun, givenBack, List.length_append]
    omega

end Custody

namespace Session

open Pool

/-- Every call for a connection is counted once, whatever is done to a pool. A call that was begun
was given a connection, was denied one, was refused because the pool had been disposed of, was given
up, or is pending. The pool counts those of the first two kinds: `successful` are the calls that
were given a connection, and `failed` are those that were told that none is available or an error of
the factory. It also counts the waits whose end came before anybody had completed their waiters.
Where connections are given back once, the successful calls are the connections that are held and
those that were given back. -/
theorem calls_counted_once (endpoint : Endpoint) (config : PoolConfig)
    (factory : List FactoryOutcome) (uses : List Use) :
    let start : Session := { pool := fresh endpoint config factory }
    let s := start.useAll uses
    let visits := start.visits uses
    let lapsed := start.pool.lapsed (start.runOps uses)
    s.pool.metrics.successful = visits.countP (fun v => v.1.gives v.2) ∧
      s.pool.metrics.failed = visits.countP (fun v => v.1.denies v.2) ∧
      s.pool.metrics.timedOut = lapsed.length ∧ lapsed.Nodup ∧
      (∀ w ∈ lapsed, w < s.pool.waiterCount) ∧
      visits.countP (fun v => v.1.begins v.2) =
        s.tasks.length + (visits.countP (fun v => v.1.gives v.2) +
          visits.countP (fun v => v.1.denies v.2) + visits.countP fun v => v.1.refuses v.2) +
          visits.countP (fun v => v.1.givesUp v.2) ∧
      (∀ u e, (s.answer u).error? = some e →
        if s.closedIn u then e = .closed
        else (∃ n, e = .unavailable endpoint n) ∨ s.pool.factory.head? = some (.failure e)) ∧
      (∀ u, s.refuses u = true ∨ s.givesUp u = true →
        (s.use u).pool.metrics.successful = s.pool.metrics.successful ∧
          (s.use u).pool.metrics.failed = s.pool.metrics.failed) ∧
      ∀ steps, (Custody.start endpoint config factory).Honest steps →
        let c := (Custody.start endpoint config factory).run steps
        let back := (Custody.start endpoint config factory).givenBack steps
        c.handles.Nodup ∧ c.session.pool.metrics.successful = c.held.length + back.length := by
  intro start s visits lapsed
  have hStart : start.Enrolled := enrolled_fresh endpoint config factory
  have hs : s.Enrolled := hStart.useAll uses
  obtain ⟨hGiven, hDenied⟩ := useAll_counts hStart uses
  have hPool : s.pool = start.pool.applyAll (start.runOps uses) := useAll_pool start uses
  have hLapsed : s.pool.metrics.timedOut = lapsed.length := by
    have hCounts := congrArg (·.2.2) (counts_applyAll start.pool (start.runOps uses))
    have hNone : start.pool.metrics.timedOut = 0 := rfl
    rw [hPool, length_lapsed]
    simpa [counts, countsOf, hNone] using hCounts
  have hEndpoint : s.pool.endpoint = endpoint := (useAll_built start uses).1
  obtain ⟨-, hCalls⟩ := (enlisted_fresh endpoint config factory).useAll uses
  refine ⟨?_, ?_, hLapsed, nodup_lapsed _ _, fun w hw => ?_, ?_, fun u e hError => ?_,
    fun u hNot => ?_, fun steps hHonest => ?_⟩
  · exact hGiven.trans (Nat.zero_add _)
  · exact hDenied.trans (Nat.zero_add _)
  · -- a waiter whose wait has lapsed is completed
    have hDone : s.pool.isCompleted w = true := by
      rw [hPool]
      exact completed_of_lapsed hw
    exact hs.numbered.completed w (List.contains_iff_mem.1 hDone)
  · exact (Nat.zero_add _).symm.trans hCalls
  · -- the error of a later call
    have hAnswers := use_answers hs u
    split
    · exact hAnswers.closed ‹_› e hError
    · rw [← hEndpoint]
      exact hAnswers.failed (Bool.eq_false_iff.2 ‹_›) e hError
  · -- a call that is not counted
    obtain ⟨hGives, hDenies⟩ := uncounted hNot
    have hCounts := use_counts hs u
    rw [hGives, hDenies] at hCounts
    exact hCounts
  · -- honest callers
    intro c back
    have hUnclosed := Custody.unclosed_start endpoint config factory
    have hNodup := ((hUnclosed.run hHonest).1.intact.nodup).of_append_right
    have hCount := hUnclosed.run_length (enrolled_fresh endpoint config factory) hHonest
    have hNone : (Custody.start endpoint config factory).held.length = 0 := rfl
    have hZero :
        (Custody.start endpoint config factory).session.pool.metrics.successful = 0 := rfl
    rw [hNone, hZero, Nat.zero_add] at hCount
    exact ⟨hNodup, hCount⟩

/-- Of four calls one is given the connection, one is denied it after a wait, one is given up and
one is refused because of the disposal. The connection is given back. -/
theorem four_calls_counted :
    let steps : List Step := [.acquire true, .start false, .advance 2500, .poll 0, .start false,
      .cancel 1, .drop 0, .dispose, .acquire false]
    let c := (Custody.start ⟨.v4 [127, 0, 0, 1], 11210⟩
      { maxSize := 1, maxAcquireRetryCount := 1 } []).run steps
    c.held = [] ∧ c.session.pool.metrics.successful = 1 ∧ c.session.pool.metrics.failed = 1 ∧
      c.session.pool.metrics.timedOut = 1 := by
  obtain ⟨-, hDenied, hLapsed, -, -, -, -, -, hHeld⟩ :=
    calls_counted_once ⟨.v4 [127, 0, 0, 1], 11210⟩ { maxSize := 1, maxAcquireRetryCount := 1 } []
      [.step (.acquire true), .step (.start false), .step (.advance 2500), .step (.poll 0),
        .step (.start false), .step (.cancel 1), .step (.drop 0), .step .dispose,
        .step (.acquire false)]
  obtain ⟨-, hGiven⟩ := hHeld [.acquire true, .start false, .advance 2500, .poll 0, .start false,
    .cancel 1, .drop 0, .dispose, .acquire false] (by decide +kernel)
  exact ⟨by decide +kernel, hGiven.trans (by decide +kernel), hDenied.trans (by decide +kernel),
    hLapsed.trans (by decide +kernel)⟩

end Session

end StoreClient
