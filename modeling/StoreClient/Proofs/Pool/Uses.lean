import StoreClient.Pool.Session

/-!
# Uses of a pool

All that is done to a pool comes down to a few operations, one after the other. A blocking call is a
list of attempts with waits that end in between, a step of a session is a short list of operations,
and so is all that callers do who keep a connection after they have given it back, or after they
have only seen it among the idle ones, and who may give it back again at any time. What every
operation keeps, every use of a pool keeps.

What a step can do is said once (`Performs`): the pool has no part in it, it is a single operation,
a slot is emptied, a task is given up, or somebody calls for a connection after what precedes the
call. What is claimed of every step is proved by these cases.
-/

namespace StoreClient

namespace Pool

/-- An operation of a pool, or something that happens to one of its connections. -/
inductive Op where
  /-- Connections are opened in advance. -/
  | openMinimum
  /-- A caller tries to get a connection. -/
  | attempt
  /-- A wait is over. -/
  | timeOut (w : WaiterId)
  /-- A wait is given up. -/
  | abandon (w : WaiterId)
  /-- A connection is given back. -/
  | release (h : Handle)
  /-- The pool is disposed of. -/
  | dispose
  /-- A connection dies, or comes back to life. -/
  | setDead (h : Handle) (dead : Bool)
  /-- A connection closes by itself. -/
  | shut (h : Handle)
  /-- The guard of a connection is dropped, which is noted before the connection is given back. -/
  | returning (h : Handle)
  /-- Buffers are taken from the allocator and given back. -/
  | cycleBuffers (count : Nat)

/-- The pool after an operation. -/
def apply (p : Pool) : Op → Pool
  | .openMinimum => p.openMinimum
  | .attempt => p.attempt.1
  | .timeOut w => p.timeOut w
  | .abandon w => p.abandon w
  | .release h => p.release h
  | .dispose => p.dispose
  | .setDead h dead => p.modify h ({ · with dead })
  | .shut h => p.modify h ({ · with shutdown := true })
  | .returning h => p.note .trace "returning connection to pool" [p.idValue h]
  | .cycleBuffers count =>
    let (taken, allocator) := p.allocator.acquireMany count
    { p with allocator := taken.foldl BufferAllocator.release allocator }

/-- The pool after some operations. -/
def applyAll (p : Pool) (ops : List Op) : Pool := ops.foldl apply p

theorem applyAll_append (p : Pool) (ops ops' : List Op) :
    p.applyAll (ops ++ ops') = (p.applyAll ops).applyAll ops' :=
  List.foldl_append

/-- What every operation keeps, every list of operations keeps. -/
theorem applyAll_induction {P : Pool → Prop} (hApply : ∀ p op, P p → P (p.apply op)) {p : Pool}
    (hp : P p) (ops : List Op) : P (p.applyAll ops) := by
  induction ops generalizing p with
  | nil => exact hp
  | cons op ops ih => exact ih (hApply p op hp)

/-! ## Calls -/

/-- The operations of a blocking call with a bound on its waits. -/
def acquireOps (p : Pool) : (waits : Nat) → List Op
  | 0 => [.attempt]
  | waits + 1 =>
    .attempt ::
      match p.attempt with
      | (q, .queued w) => .timeOut w :: acquireOps (q.timeOut w) waits
      | _ => []

/-- A blocking call is the operations that it consists of. -/
theorem applyAll_acquireOps (p : Pool) (waits : Nat) :
    p.applyAll (p.acquireOps waits) = (p.acquireWithin waits).1 := by
  induction waits generalizing p with
  | zero =>
    unfold acquireWithin
    change p.attempt.1 = _
    rcases p.attempt with ⟨q, h | w | e⟩ <;> rfl
  | succ waits ih =>
    unfold acquireOps acquireWithin
    change p.attempt.1.applyAll _ = _
    rcases p.attempt with ⟨q, h | w | e⟩
    · rfl
    · exact ih (q.timeOut w)
    · rfl

/-- The operations of a blocking call. -/
def callOps (p : Pool) : List Op := p.acquireOps (p.config.maxAcquireRetryCount - p.failures)

theorem applyAll_callOps (p : Pool) : p.applyAll p.callOps = p.acquire.1 :=
  applyAll_acquireOps p _

/-- The operations of a call that does not block, up to the first wait that takes time. -/
def callStepOps (p : Pool) : List Op := if p.config.waitTimeout = 0 then p.callOps else [.attempt]

theorem applyAll_callStepOps (p : Pool) : p.applyAll p.callStepOps = p.acquireStep.1 := by
  unfold callStepOps acquireStep
  split
  · exact applyAll_callOps p
  · change p.attempt.1 = _
    rcases p.attempt with ⟨q, h | w | e⟩ <;> rfl

end Pool

namespace Session

open Pool (Op)

variable {s : Session} {st : Step} {ops : List Op}

/-! ## Steps -/

/-- The operations that a step consists of. -/
def performOps (s : Session) : Step → List Op
  | .openMinimum => [.openMinimum]
  | .dispose => [.dispose]
  | .acquire _ => s.pool.callOps
  | .start _ => s.pool.callStepOps
  | .poll n =>
    match s.task? n with
    | none => []
    | some t =>
      if s.pool.isCompleted t.waiter then s.pool.callStepOps
      else if t.deadline ≤ s.now then
        .timeOut t.waiter :: (s.pool.timeOut t.waiter).callStepOps
      else []
  | .cancel n => ((s.task? n).map fun t => .abandon t.waiter).toList
  | .advance _ => []
  | .release i => ((s.slot? i).map fun slot => .release slot.handle).toList
  | .drop i =>
    match s.slot? i with
    | none => []
    | some slot => if slot.guarded then [.returning slot.handle, .release slot.handle] else []
  | .handOff none => .dispose :: s.pool.dispose.callOps
  | .handOff (some i) =>
    match s.slot? i with
    | none => []
    | some slot => .release slot.handle :: (s.pool.release slot.handle).callOps
  | .dropPool => []
  | .kill h => [.setDead h true]
  | .revive h => [.setDead h false]
  | .shut h => [.shut h]
  | .cycleBuffers count => [.cycleBuffers count]

/-- A step in which nothing happens to the pool, with the clock and the handle of the pool after it
and the answer. -/
inductive Idles (s : Session) : Step → (now : Nat) → (owned : Bool) → Answer → Prop
  /-- The task that is polled does not exist. -/
  | noPoll {n : Nat} (hTask : s.task? n = none) : Idles s (.poll n) s.now s.owned .noSuchTask
  /-- The task that is polled waits. -/
  | waits {n : Nat} {t : Task} (hTask : s.task? n = some t)
      (hWaits : ¬s.pool.isCompleted t.waiter = true) (hEarly : ¬t.deadline ≤ s.now) :
      Idles s (.poll n) s.now s.owned .pending
  /-- The task that is given up does not exist. -/
  | noCancel {n : Nat} (hTask : s.task? n = none) :
      Idles s (.cancel n) s.now s.owned (.existed false)
  /-- There is nothing in the slot whose connection is given back. -/
  | noRelease {i : Nat} (hSlot : s.slot? i = none) :
      Idles s (.release i) s.now s.owned .noSuchSlot
  /-- There is nothing in the slot that is emptied. -/
  | noDrop {i : Nat} (hSlot : s.slot? i = none) : Idles s (.drop i) s.now s.owned .noSuchSlot
  /-- There is nothing in the slot whose connection is handed to another caller. -/
  | noHandOff {i : Nat} (hSlot : s.slot? i = none) :
      Idles s (.handOff (some i)) s.now s.owned .noSuchSlot
  /-- Time passes. -/
  | advance (millis : Nat) : Idles s (.advance millis) (s.now + millis) s.owned .nothing
  /-- The handle of the pool is dropped. -/
  | dropPool : Idles s .dropPool s.now false .nothing

/-- A step that is one operation of the pool, or happens to one of its connections, and the
answer. -/
inductive Operates (s : Session) : Step → Op → Answer → Prop
  /-- Connections are opened in advance. -/
  | openMinimum : Operates s .openMinimum .openMinimum .nothing
  /-- The pool is disposed of. -/
  | dispose : Operates s .dispose .dispose .nothing
  /-- A connection dies. -/
  | kill (h : Handle) : Operates s (.kill h) (.setDead h true) .nothing
  /-- A connection comes back to life. -/
  | revive (h : Handle) : Operates s (.revive h) (.setDead h false) .nothing
  /-- A connection closes by itself. -/
  | shut (h : Handle) : Operates s (.shut h) (.shut h) .nothing
  /-- Buffers are taken from the allocator and given back. -/
  | cycleBuffers (count : Nat) :
      Operates s (.cycleBuffers count) (.cycleBuffers count)
        (.available (s.pool.apply (.cycleBuffers count)).allocator.available)

/-- A step that makes a blocking call, and what is done to the pool before the call. -/
inductive Calls (s : Session) : Step → (guarded : Bool) → (before : List Op) → Prop
  /-- The call is the whole step. -/
  | acquire (guarded : Bool) : Calls s (.acquire guarded) guarded []
  /-- The pool is disposed of while the caller waits. -/
  | afterDisposal : Calls s (.handOff none) false [.dispose]
  /-- A connection is given back while the caller waits. -/
  | afterRelease (i : Nat) (slot : Slot) (hSlot : s.slot? i = some slot) :
      Calls s (.handOff (some i)) false [.release slot.handle]

/-- A poll goes on with a task, and what is done to the pool before. -/
inductive Resumes (s : Session) (t : Task) : (before : List Op) → Prop
  /-- The waiter was completed. -/
  | completed (hDone : s.pool.isCompleted t.waiter = true) : Resumes s t []
  /-- The wait is over. -/
  | overdue (hWaits : ¬s.pool.isCompleted t.waiter = true) (hOver : t.deadline ≤ s.now) :
      Resumes s t [.timeOut t.waiter]

/-- What a step does: its operations, the session after them and the answer. -/
inductive Performs (s : Session) : Step → List Op → Session × Answer → Prop
  /-- The pool has no part in it. -/
  | idle {st : Step} {now : Nat} {owned : Bool} {answer : Answer}
      (hIdle : s.Idles st now owned answer) : Performs s st [] ({ s with now, owned }, answer)
  /-- It is one operation of the pool. -/
  | operation {st : Step} {op : Op} {answer : Answer} (hOperates : s.Operates st op answer) :
      Performs s st [op] ({ s with pool := s.pool.apply op }, answer)
  /-- The connection of a slot is given back. -/
  | release (i : Nat) (slot : Slot) (hSlot : s.slot? i = some slot) :
      Performs s (.release i) [.release slot.handle]
        ({ s with pool := s.pool.release slot.handle }, .nothing)
  /-- A connection without a guard is dropped. -/
  | drop (i : Nat) (slot : Slot) (hSlot : s.slot? i = some slot) (hBare : slot.guarded = false) :
      Performs s (.drop i) [] ({ s with slots := s.slots.set i none }, .nothing)
  /-- A guard is dropped. -/
  | dropGuard (i : Nat) (slot : Slot) (hSlot : s.slot? i = some slot)
      (hGuarded : slot.guarded = true) :
      Performs s (.drop i) [.returning slot.handle, .release slot.handle]
        ({ s with
            pool := (s.pool.apply (.returning slot.handle)).release slot.handle
            slots := s.slots.set i none },
          .guardDropped (s.pool.idOf slot.handle)
            ((s.pool.connection? slot.handle).any (·.used)))
  /-- A task is given up. -/
  | cancel (n : Nat) (t : Task) (hTask : s.task? n = some t) :
      Performs s (.cancel n) [.abandon t.waiter]
        ({ s with pool := s.pool.abandon t.waiter }.removeTask n, .existed true)
  /-- A caller calls for a connection and waits for it. -/
  | call {st : Step} (guarded : Bool) (before : List Op) (hCalls : s.Calls st guarded before) :
      Performs s st (before ++ (s.pool.applyAll before).callOps)
        ({ s with pool := s.pool.applyAll before }.acquire guarded)
  /-- A task is started. -/
  | start (guarded : Bool) :
      Performs s (.start guarded) s.pool.callStepOps
        (({ s with started := s.started + 1 }.advanceTask s.started guarded).1,
          .started s.started ({ s with started := s.started + 1 }.advanceTask s.started guarded).2)
  /-- A task goes on. -/
  | poll (n : Nat) (t : Task) (before : List Op) (hTask : s.task? n = some t)
      (hResumes : s.Resumes t before) :
      Performs s (.poll n) (before ++ (s.pool.applyAll before).callStepOps)
        ({ s with pool := s.pool.applyAll before }.advanceTask t.number t.guarded)

/-- A poll goes on with a pending task, or the task waits. -/
theorem performs_poll {n : Nat} {t : Task} (hTask : s.task? n = some t) :
    s.Performs (.poll n) (s.performOps (.poll n)) (s.perform (.poll n)) := by
  rw [performOps, perform, hTask]
  dsimp only [pollTask]
  split
  · exact .poll n t [] hTask (.completed ‹_›)
  · split
    · exact .poll n t [.timeOut t.waiter] hTask (.overdue ‹_› ‹_›)
    · exact .idle (.waits hTask ‹_› ‹_›)

/-- A slot that is filled is emptied, and the guard in it gives its connection back. -/
theorem performs_drop {i : Nat} {slot : Slot} (hSlot : s.slot? i = some slot) :
    s.Performs (.drop i) (s.performOps (.drop i)) (s.perform (.drop i)) := by
  rw [performOps, perform, hSlot]
  dsimp only [dropSlot]
  cases hGuarded : slot.guarded with
  | false => exact .drop i slot hSlot hGuarded
  | true => exact .dropGuard i slot hSlot hGuarded

/-- Every step does one of these things. -/
theorem performs (s : Session) (st : Step) :
    s.Performs st (s.performOps st) (s.perform st) := by
  cases st with
  | openMinimum => exact .operation .openMinimum
  | dispose => exact .operation .dispose
  | acquire guarded => exact .call guarded [] (.acquire guarded)
  | start guarded => exact .start guarded
  | poll n =>
    cases hTask : s.task? n with
    | none =>
      rw [performOps, perform, hTask]
      exact .idle (.noPoll hTask)
    | some t => exact performs_poll hTask
  | cancel n =>
    rw [performOps, perform]
    cases hTask : s.task? n with
    | none => exact .idle (.noCancel hTask)
    | some t => exact .cancel n t hTask
  | advance millis => exact .idle (.advance millis)
  | release i =>
    rw [performOps, perform]
    cases hSlot : s.slot? i with
    | none => exact .idle (.noRelease hSlot)
    | some slot => exact .release i slot hSlot
  | drop i =>
    cases hSlot : s.slot? i with
    | none =>
      rw [performOps, perform, hSlot]
      exact .idle (.noDrop hSlot)
    | some slot => exact performs_drop hSlot
  | handOff slot =>
    cases slot with
    | none => exact .call false [.dispose] .afterDisposal
    | some i =>
      rw [performOps, perform]
      cases hSlot : s.slot? i with
      | none => exact .idle (.noHandOff hSlot)
      | some slot => exact .call false [.release slot.handle] (.afterRelease i slot hSlot)
  | dropPool => exact .idle .dropPool
  | kill h => exact .operation (.kill h)
  | revive h => exact .operation (.revive h)
  | shut h => exact .operation (.shut h)
  | cycleBuffers count => exact .operation (.cycleBuffers count)

theorem deliver_pool (s : Session) (guarded : Bool) (outcome : Pool.Outcome) :
    (s.deliver guarded outcome).1.pool = s.pool := by
  cases outcome <;> rfl

theorem acquire_pool (s : Session) (guarded : Bool) :
    (s.acquire guarded).1.pool = s.pool.applyAll s.pool.callOps := by
  rw [Pool.applyAll_callOps]
  exact deliver_pool _ guarded _

theorem advanceTask_pool (s : Session) (n : Nat) (guarded : Bool) :
    (s.advanceTask n guarded).1.pool = s.pool.applyAll s.pool.callStepOps := by
  rw [Pool.applyAll_callStepOps]
  unfold advanceTask
  rcases s.pool.acquireStep with ⟨p, outcome | w⟩
  · exact deliver_pool _ guarded outcome
  · unfold putTask
    dsimp only
    split <;> rfl

theorem Performs.pool_eq {result : Session × Answer} (h : s.Performs st ops result) :
    result.1.pool = s.pool.applyAll ops := by
  cases h with
  | idle | operation | release | drop | dropGuard | cancel => rfl
  | call => rw [acquire_pool, Pool.applyAll_append]
  | start => exact advanceTask_pool { s with started := s.started + 1 } _ _
  | poll => rw [advanceTask_pool, Pool.applyAll_append]

/-- What a step does to the pool is done by its operations. -/
theorem perform_pool (s : Session) (st : Step) :
    (s.perform st).1.pool = s.pool.applyAll (s.performOps st) :=
  (s.performs st).pool_eq

/-! ## Uses -/

/-- What callers do who may keep every connection that they have ever seen. -/
inductive Use where
  /-- A step of a session. -/
  | step (st : Step)
  /-- Gives a connection back that the pool has made, whoever holds it and wherever it is. -/
  | giveBack (h : Handle)

/-- The session after a use. -/
def use (s : Session) : Use → Session
  | .step st => (s.step st).1
  | .giveBack h =>
    if h < s.pool.connections.length then { s with pool := s.pool.release h } else s

/-- The session after some uses, one after the other. -/
def useAll (s : Session) (uses : List Use) : Session := uses.foldl use s

/-- The operations that a use consists of. -/
def useOps (s : Session) : Use → List Op
  | .step st => s.performOps st ++ if (s.perform st).1.isHeld then [] else [.dispose]
  | .giveBack h => if h < s.pool.connections.length then [.release h] else []

/-- What a use does to the pool is done by its operations. -/
theorem use_pool (s : Session) (u : Use) : (s.use u).pool = s.pool.applyAll (s.useOps u) := by
  cases u with
  | step st =>
    have hStep : (s.use (.step st)).pool = (s.perform st).1.settle.pool := rfl
    rw [hStep, useOps, Pool.applyAll_append, ← perform_pool]
    unfold settle
    split <;> rfl
  | giveBack h =>
    rw [use, useOps]
    split <;> rfl

/-! ## What operations keep -/

variable {P : Pool → Prop}

/-- What every operation keeps, every use keeps. -/
theorem use_induction (hApply : ∀ p op, P p → P (p.apply op)) {s : Session} (hs : P s.pool)
    (u : Use) : P (s.use u).pool := by
  rw [use_pool]
  exact Pool.applyAll_induction hApply hs _

theorem useAll_induction (hApply : ∀ p op, P p → P (p.apply op)) {s : Session} (hs : P s.pool)
    (uses : List Use) : P (s.useAll uses).pool := by
  induction uses generalizing s with
  | nil => exact hs
  | cons u uses ih => exact ih (use_induction hApply hs u)

end Session

end StoreClient
