import StoreClient.Proofs.Pool.Queue

/-!
# A waiter that is left out

The line of a pool in which one waiter is left out has the other waiters in the same order, and they
are completed alike; those queued later have the number before. Operations on the connections do not
look at the line at all. The other operations come to the same in both pools as long as they do not
complete the waiter that is left out: a wakeup passes it over in the queue if it was completed
before. Only a disposal may complete it, as it completes all waiters.
-/

namespace StoreClient

/-! ## Numbers -/

/-- The number of the `m`-th of some things once the `n`-th of them is left out. -/
def renumber (n m : Nat) : Nat := if m < n then m else m - 1

theorem renumber_of_lt {n m : Nat} (h : m < n) : renumber n m = m := if_pos h

theorem renumber_of_gt {n m : Nat} (h : n < m) : renumber n m = m - 1 :=
  if_neg (Nat.lt_asymm h)

/-- Numbers other than the one that is left out stay apart. -/
theorem renumber_inj {n k m : Nat} (hk : k ≠ n) (hm : m ≠ n) :
    renumber n k = renumber n m ↔ k = m := by
  unfold renumber
  split <;> split <;> omega

theorem renumber_beq {n k m : Nat} (hk : k ≠ n) (hm : m ≠ n) :
    (renumber n k == renumber n m) = (k == m) := by
  rw [Bool.eq_iff_iff, beq_iff_eq, beq_iff_eq]
  exact renumber_inj hk hm

/-- Some numbers without one of them. -/
def leaveOut (n : Nat) (l : List Nat) : List Nat := (l.filter (· != n)).map (renumber n)

theorem leaveOut_cons_self (n : Nat) (l : List Nat) : leaveOut n (n :: l) = leaveOut n l := by
  simp [leaveOut]

theorem leaveOut_cons_of_ne {n m : Nat} (hm : m ≠ n) (l : List Nat) :
    leaveOut n (m :: l) = renumber n m :: leaveOut n l := by
  simp [leaveOut, hm]

theorem leaveOut_append (n : Nat) (l l' : List Nat) :
    leaveOut n (l ++ l') = leaveOut n l ++ leaveOut n l' := by
  simp [leaveOut]

theorem mem_leaveOut {n k : Nat} {l : List Nat} :
    k ∈ leaveOut n l ↔ ∃ m ∈ l, m ≠ n ∧ renumber n m = k := by
  simp [leaveOut, and_assoc]

/-- What else is in a list is still in it, under its new number. -/
theorem renumber_mem_leaveOut {n m : Nat} {l : List Nat} (hm : m ≠ n) :
    renumber n m ∈ leaveOut n l ↔ m ∈ l := by
  rw [mem_leaveOut]
  constructor
  · rintro ⟨k, hk, hNe, hEq⟩
    rw [← (renumber_inj hNe hm).1 hEq]
    exact hk
  · intro hMem
    exact ⟨m, hMem, hm, rfl⟩

namespace Pool

open Relation

variable {p q r : Pool} {v w : WaiterId}

/-! ## Lines -/

/-- The line without a waiter. -/
def Line.without (l : Line) (w : WaiterId) : Line :=
  { l with
    queue := leaveOut w l.queue
    waiterCount := l.waiterCount - 1
    completed := leaveOut w l.completed }

/-- The pool with other callers in line. -/
def relined (p : Pool) (l : Line) : Pool :=
  { p with queue := l.queue, waiterCount := l.waiterCount, completed := l.completed }

/-- The pool without a waiter. -/
def without (p : Pool) (w : WaiterId) : Pool := p.relined (p.line.without w)

theorem without_of_line (hLine : q.line = p.line) :
    q.without w = q.relined (p.line.without w) := by
  rw [without, hLine]

/-- Every other waiter is completed in both pools or in none. -/
theorem isCompleted_without (p : Pool) (hv : v ≠ w) :
    (p.without w).isCompleted (renumber w v) = p.isCompleted v := by
  rw [Bool.eq_iff_iff]
  show (leaveOut w p.completed).contains (renumber w v) = true ↔ p.completed.contains v = true
  rw [List.contains_iff_mem, List.contains_iff_mem]
  exact renumber_mem_leaveOut hv

/-! ## Connections -/

/-- Whoever waits makes no difference to a new connection. -/
theorem create_relined (p : Pool) (l : Line) :
    (p.relined l).create = (p.create.1.relined l, p.create.2) := by
  unfold create
  dsimp only [relined]
  cases p.factory.headD .connection <;> rfl

theorem destroy_relined (p : Pool) (l : Line) (h : Handle) :
    (p.relined l).destroy h = (p.destroy h).relined l := by
  have hTracks : (p.relined l).tracks h = p.tracks h := rfl
  unfold destroy
  rw [hTracks]
  split <;> rfl

theorem evict_relined (p : Pool) (l : Line) (h : Handle) :
    (p.relined l).evict h = (p.evict h).relined l := by
  have hTracks : (p.relined l).tracks h = p.tracks h := rfl
  unfold evict
  rw [hTracks, destroy_relined]
  split <;> rfl

theorem openIdle_relined (p : Pool) (l : Line) (count : Nat) :
    (p.relined l).openIdle count = (p.openIdle count).relined l := by
  induction count generalizing p with
  | zero => rfl
  | succ count ih =>
    unfold openIdle
    rw [create_relined]
    rcases p.create with ⟨q, e | h⟩
    · rfl
    · exact ih { q with idle := q.idle ++ [h] }

/-- Connections are opened in advance whoever waits. -/
theorem openMinimum_without (p : Pool) : (p.without w).openMinimum = p.openMinimum.without w := by
  rw [without_of_line (openMinimum_onlyConnections p).line]
  unfold openMinimum
  show (if p.disposed then p.without w else (p.without w).openIdle _) = _
  split
  · rfl
  · exact openIdle_relined p _ _

theorem retire_relined (p : Pool) (l : Line) (h : Handle) :
    (p.relined l).retire h = (p.retire h).relined l := by
  have hFound : (p.relined l).connection? h = p.connection? h := rfl
  unfold retire
  rw [hFound]
  split
  · rfl
  · split
    · rfl
    · split
      · rfl
      · exact destroy_relined p l h

/-- A disposal closes the same connections whoever waits. -/
theorem foldl_retire_without (p : Pool) (handles : List Handle) :
    handles.foldl retire (p.without w) = (handles.foldl retire p).without w := by
  induction handles generalizing p with
  | nil => rfl
  | cons h rest ih =>
    have hFirst : (p.without w).retire h = (p.retire h).without w := by
      rw [without_of_line (retire_onlyConnections p h).line]
      exact retire_relined p _ h
    rw [List.foldl_cons, List.foldl_cons, hFirst, ih]

/-! ## Attempts -/

/-- Which connections are evicted and which one is taken does not depend on who waits. -/
theorem takeIdle_relined (p : Pool) (l : Line) (idle : List Handle) :
    (p.relined l).takeIdle idle = ((p.takeIdle idle).1.relined l, (p.takeIdle idle).2) := by
  induction idle generalizing p with
  | nil => rfl
  | cons h rest ih =>
    have hDead : (p.relined l).isDead h = p.isDead h := rfl
    unfold takeIdle
    rw [hDead]
    split
    · rw [← ih, ← evict_relined]
      rfl
    · rfl

theorem takeIdle_line (p : Pool) : (p.takeIdle p.idle).1.line = p.line := by
  obtain ⟨q, hEvicts, ⟨-, hEq⟩ | ⟨h, rest, -, -, hEq⟩⟩ := takeIdle_cases p
  · rw [hEq]
    exact (onlyConnections_of_evictsFirst hEvicts).line
  · have hLine : (q.handOut h rest).line = q.line := rfl
    rw [hEq, hLine, (onlyConnections_of_evictsFirst hEvicts).line]

theorem takeIdle_without (p : Pool) :
    (p.without w).takeIdle p.idle =
      ((p.takeIdle p.idle).1.without w, (p.takeIdle p.idle).2) := by
  rw [without_of_line (takeIdle_line p)]
  exact takeIdle_relined p _ p.idle

/-- Whether a connection can be made for a caller does not depend on who waits. -/
theorem grow_without (p : Pool) : (p.without w).grow = (p.grow.1.without w, p.grow.2) := by
  rw [without_of_line (grow_line p), without]
  unfold grow
  rw [create_relined]
  rcases p.create with ⟨q, e | h⟩ <;> rfl

/-- How an attempt ends where a waiter is left out. -/
def Attempt.without (a : Attempt) (w : WaiterId) : Attempt :=
  match a with
  | .ready h => .ready h
  | .queued v => .queued (renumber w v)
  | .refused e => .refused e

/-- A caller who is queued has the number that it would have without the waiter. -/
theorem enqueue_without (hw : w < p.waiterCount) :
    (p.without w).enqueue = (p.enqueue.1.without w, p.enqueue.2.without w) := by
  have hLast : p.waiterCount ≠ w := Nat.ne_of_gt hw
  have hNumber : renumber w p.waiterCount = p.waiterCount - 1 := renumber_of_gt hw
  have hQueue : leaveOut w (p.queue ++ [p.waiterCount]) =
      leaveOut w p.queue ++ [p.waiterCount - 1] := by
    rw [leaveOut_append, leaveOut_cons_of_ne hLast, hNumber]
    rfl
  have hCount : p.waiterCount - 1 + 1 = p.waiterCount + 1 - 1 :=
    Nat.sub_add_cancel (Nat.one_le_of_lt hw)
  show (({ p with
        queue := leaveOut w p.queue ++ [p.waiterCount - 1]
        waiterCount := p.waiterCount - 1 + 1
        completed := leaveOut w p.completed } : Pool), Attempt.queued (p.waiterCount - 1)) = _
  rw [← hQueue, hCount, ← hNumber]
  rfl

/-- A caller that tries to get a connection fares as it would without a waiter that was queued
before. -/
theorem attempt_without (hw : w < p.waiterCount) :
    (p.without w).attempt = (p.attempt.1.without w, p.attempt.2.without w) := by
  have hCount : (p.takeIdle p.idle).1.waiterCount = p.waiterCount :=
    congrArg Line.waiterCount (takeIdle_line p)
  unfold attempt
  show (if p.disposed then _ else _) = _
  split
  · rfl
  · rw [show (p.without w).idle = p.idle from rfl, takeIdle_without]
    rcases hTake : p.takeIdle p.idle with ⟨q, _ | h⟩
    · rw [hTake] at hCount
      dsimp only
      show (if q.liveCount < q.config.maxSize then (q.without w).grow else
        if q.failures < q.config.maxAcquireRetryCount then (q.without w).enqueue
          else (q.without w).refuse) = _
      split
      · rw [grow_without]
        rcases hGrow : q.grow with ⟨r, a⟩
        have hNot : ∀ v, a ≠ .queued v := by
          rcases grow_cases q with ⟨s, e, -, hEq⟩ | ⟨s, h, -, hEq⟩ <;> rw [hEq] at hGrow <;>
            cases hGrow <;> simp
        cases a with
        | queued v => exact absurd rfl (hNot v)
        | ready h => rfl
        | refused e => rfl
      · split
        · exact enqueue_without (hCount ▸ hw)
        · rfl
    · rfl

/-! ## Waits -/

/-- Another waiter is completed with or without the one that is left out. -/
theorem complete_without (p : Pool) (hv : v ≠ w) :
    (p.without w).complete (renumber w v) = (p.complete v).without w := by
  unfold complete
  rw [isCompleted_without p hv]
  split
  · rfl
  · have hCompleted : leaveOut w (v :: p.completed) = renumber w v :: leaveOut w p.completed :=
      leaveOut_cons_of_ne hv _
    show _ = ({ p with completed := v :: p.completed } : Pool).relined
      { p.line.without w with completed := leaveOut w (v :: p.completed) }
    rw [hCompleted]
    rfl

/-- Completing a waiter leaves no trace where the waiter is left out. -/
theorem without_complete (p : Pool) (w : WaiterId) : (p.complete w).without w = p.without w := by
  unfold complete
  split
  · rfl
  · show ({ p with completed := w :: p.completed } : Pool).relined
      { p.line.without w with completed := leaveOut w (w :: p.completed) } = _
    rw [leaveOut_cons_self]
    rfl

theorem timeOut_without (p : Pool) (hv : v ≠ w) :
    (p.without w).timeOut (renumber w v) = (p.timeOut v).without w := by
  unfold timeOut
  rw [isCompleted_without p hv, complete_without p hv]
  split <;> rfl

/-- A wait that has timed out is completed. -/
theorem isCompleted_timeOut (p : Pool) (w : WaiterId) : (p.timeOut w).isCompleted w = true := by
  rw [isCompleted_congr (timeOut_line p w)]
  exact (isCompleted_complete p w w).2 (Or.inl rfl)

/-- A caller that is queued gets the next number. -/
theorem waiterCount_of_queued (h : p.attempt = (r, .queued v)) :
    v = p.waiterCount ∧ r.waiterCount = p.waiterCount + 1 := by
  obtain ⟨q, hEvicts, -, -, -, rfl, rfl⟩ := attempt_queued h
  have hCount : q.waiterCount = p.waiterCount :=
    congrArg Line.waiterCount (onlyConnections_of_evictsFirst hEvicts).line
  exact ⟨hCount, congrArg (· + 1) hCount⟩

/-- A blocking call waits as often, and comes to the same end, without the waiter. -/
theorem acquireWithin_without (hw : w < p.waiterCount) (waits : Nat) :
    (p.without w).acquireWithin waits =
      ((p.acquireWithin waits).1.without w, (p.acquireWithin waits).2) := by
  induction waits generalizing p with
  | zero =>
    unfold acquireWithin
    rw [attempt_without hw]
    rcases p.attempt with ⟨q, h | v | e⟩ <;> rfl
  | succ waits ih =>
    unfold acquireWithin
    rw [attempt_without hw]
    rcases hAttempt : p.attempt with ⟨q, h | v | e⟩
    · rfl
    · obtain ⟨hNumber, hCount⟩ := waiterCount_of_queued hAttempt
      have hv : v ≠ w := by
        rw [hNumber]
        exact Nat.ne_of_gt hw
      have hLater : w < (q.timeOut v).waiterCount := by
        rw [(timeOut_queue q v).2, hCount]
        exact Nat.lt_succ_of_lt hw
      show ((q.without w).timeOut (renumber w v)).acquireWithin waits = _
      rw [timeOut_without q hv]
      exact ih hLater
    · rfl

theorem acquire_without (hw : w < p.waiterCount) :
    (p.without w).acquire = (p.acquire.1.without w, p.acquire.2) :=
  acquireWithin_without hw _

/-- How far a call has come where a waiter is left out. -/
def Progress.without (a : Progress) (w : WaiterId) : Progress :=
  match a with
  | .done outcome => .done outcome
  | .waiting v => .waiting (renumber w v)

/-- A call that does not block goes as far without the waiter. -/
theorem acquireStep_without (hw : w < p.waiterCount) :
    (p.without w).acquireStep = (p.acquireStep.1.without w, p.acquireStep.2.without w) := by
  unfold acquireStep
  show (if p.config.waitTimeout = 0 then _ else _) = _
  split
  · rw [acquire_without hw]
    rfl
  · rw [attempt_without hw]
    rcases p.attempt with ⟨q, h | v | e⟩ <;> rfl

/-! ## Wakeups -/

/-- Nobody is uncompleted once completed. -/
theorem Completes.not_completed (h : p.Completes q) (hNot : q.isCompleted w = false) :
    p.isCompleted w = false := by
  refine Bool.eq_false_iff.2 fun hDone => ?_
  cases hNot.symm.trans (h.isCompleted hDone)

/-- Nobody completes a waiter between two pools. -/
def Leaves (w : WaiterId) (p q : Pool) : Prop := q.isCompleted w = true → p.isCompleted w = true

theorem Leaves.first (h : Leaves w p r) (hLast : q.Completes r) : Leaves w p q :=
  fun hDone => h (hLast.isCompleted hDone)

theorem Leaves.last (h : Leaves w p r) (hFirst : p.Completes q) : Leaves w q r :=
  fun hDone => hFirst.isCompleted (h hDone)

theorem Leaves.of_line (h : Leaves w p r) (hLine : q.line = p.line) : Leaves w q r :=
  h.last (Completes.of_line hLine)

/-- If all who wait are completed, a wakeup empties the queue and completes nobody. -/
theorem wakeNext_of_all_completed (hAll : ∀ v ∈ p.queue, p.isCompleted v = true) :
    p.wakeNext = { p with queue := [] } := by
  rcases wakeNext_cases p with ⟨-, hEq⟩ | ⟨done, v, rest, hQueue, -, hNot, -⟩
  · exact hEq
  · have hMem : v ∈ p.queue := by simp [hQueue]
    cases hNot.symm.trans (hAll v hMem)

/-- A wakeup completes the first one who is not completed, and drops those before. -/
theorem wakeNext_of_first {done rest : List WaiterId} (hQueue : p.queue = done ++ v :: rest)
    (hDone : ∀ u ∈ done, p.isCompleted u = true) (hNot : p.isCompleted v = false) :
    p.wakeNext = { p with queue := rest, completed := v :: p.completed } := by
  have hStop : ¬ p.isCompleted v = true := by
    rw [hNot]
    exact Bool.false_ne_true
  have hDrop : p.queue.dropWhile p.isCompleted = v :: rest := by
    rw [hQueue, List.dropWhile_append_of_pos hDone, List.dropWhile_cons_of_neg hStop]
  have hStill : ({ p with queue := rest } : Pool).isCompleted v = false := hNot
  unfold wakeNext
  rw [hDrop]
  exact complete_of_not_completed hStill

/-- Where a waiter is left out, the others in a part of the queue are completed as before. -/
theorem completed_leaveOut {l : List WaiterId} (hAll : ∀ v ∈ l, p.isCompleted v = true) :
    ∀ v ∈ leaveOut w l, (p.without w).isCompleted v = true := by
  intro v hv
  obtain ⟨u, hu, hNe, rfl⟩ := mem_leaveOut.1 hv
  rw [isCompleted_without p hNe]
  exact hAll u hu

/-- A wakeup that does not reach a waiter reaches whom it would reach without it. -/
theorem wakeNext_without (hLeaves : Leaves w p p.wakeNext) :
    (p.without w).wakeNext = p.wakeNext.without w := by
  rcases wakeNext_cases p with ⟨hAll, hEq⟩ | ⟨done, v, rest, hQueue, hDone, hNot, hEq⟩
  · rw [hEq, wakeNext_of_all_completed (completed_leaveOut hAll)]
    rfl
  · -- the waiter that is woken is another one, which comes first in both queues
    have hv : v ≠ w := by
      rintro rfl
      have hWoken : p.wakeNext.isCompleted v = true := by
        rw [hEq]
        exact List.contains_iff_mem.2 List.mem_cons_self
      cases hNot.symm.trans (hLeaves hWoken)
    have hQueue' : (p.without w).queue = leaveOut w done ++ renumber w v :: leaveOut w rest := by
      show leaveOut w p.queue = _
      rw [hQueue, leaveOut_append, leaveOut_cons_of_ne hv]
    have hNot' : (p.without w).isCompleted (renumber w v) = false := by
      rw [isCompleted_without p hv]
      exact hNot
    rw [hEq, wakeNext_of_first hQueue' (completed_leaveOut hDone) hNot']
    show _ = ({ p with queue := rest, completed := v :: p.completed } : Pool).relined
      { p.line.without w with
        queue := leaveOut w rest
        completed := leaveOut w (v :: p.completed) }
    rw [leaveOut_cons_of_ne hv]
    rfl

/-- Another wait is given up with or without the waiter that is left out, if that one is not woken
up for it. -/
theorem abandon_without (hv : v ≠ w) (hLeaves : Leaves w p (p.abandon v)) :
    (p.without w).abandon (renumber w v) = (p.abandon v).without w := by
  unfold abandon at hLeaves ⊢
  rw [isCompleted_without p hv]
  split
  · rw [if_pos ‹_›] at hLeaves
    exact wakeNext_without (hLeaves.of_line rfl)
  · exact complete_without p hv

/-- A connection that is given back is found dead, closed or made idle before the next caller is
woken, whoever that is. -/
theorem release_without (h : Handle) (hLeaves : Leaves w p (p.release h)) :
    (p.without w).release h = (p.release h).without w := by
  have hDead : ((p.without w).modify h (Connection.markUsed false)).isDead h =
      (p.modify h (Connection.markUsed false)).isDead h := rfl
  unfold release at hLeaves ⊢
  dsimp only at hLeaves ⊢
  rw [hDead]
  split
  · rw [if_pos ‹_›] at hLeaves
    have hLine : ((p.modify h (Connection.markUsed false)).evict h).line = p.line :=
      (evict_onlyConnections _ h).line
    rw [← wakeNext_without (hLeaves.of_line hLine), without_of_line hLine, ← evict_relined]
    rfl
  · rw [if_neg ‹_›] at hLeaves
    have hSame : ((p.without w).modify h (Connection.markUsed false)).disposed =
        (p.modify h (Connection.markUsed false)).disposed := rfl
    rw [hSame]
    split
    · rw [if_pos ‹_›] at hLeaves
      have hLine : ((p.modify h (Connection.markUsed false)).destroy h).line = p.line :=
        (destroy_onlyConnections _ h).line
      rw [← wakeNext_without (hLeaves.of_line hLine), without_of_line hLine, ← destroy_relined]
      rfl
    · rw [if_neg ‹_›] at hLeaves
      rw [← wakeNext_without (hLeaves.of_line rfl)]
      rfl

/-! ## Disposal -/

/-- Completing a list of waiters, one of them left out. -/
theorem foldl_complete_without (p : Pool) (waiters : List WaiterId) :
    (leaveOut w waiters).foldl complete (p.without w) =
      (waiters.foldl complete p).without w := by
  induction waiters generalizing p with
  | nil => rfl
  | cons v rest ih =>
    by_cases hv : v = w
    · subst hv
      rw [leaveOut_cons_self, List.foldl_cons, ← ih, without_complete]
    · rw [leaveOut_cons_of_ne hv, List.foldl_cons, List.foldl_cons, complete_without p hv, ih]

/-- The disposal completes all waiters, so that it makes no difference to leave one out. -/
theorem dispose_without (p : Pool) : (p.without w).dispose = p.dispose.without w := by
  have hRetired : (p.without w).retired = p.retired.without w :=
    foldl_retire_without (w := w) { p with disposed := true } (p.registry.map Prod.snd)
  have hWoken : (p.without w).retired.queue.foldl complete (p.without w).retired =
      (p.retired.queue.foldl complete p.retired).without w := by
    rw [hRetired]
    exact foldl_complete_without p.retired p.retired.queue
  unfold dispose
  show (if p.disposed then p.without w else
    { (p.without w).retired.queue.foldl complete (p.without w).retired with
      idle := []
      queue := [] }.note .info "connection pool disposed"
        [("remaining",
          toString ((p.without w).retired.queue.foldl complete (p.without w).retired).liveCount)]) =
    _
  rw [hWoken]
  split <;> rfl

/-! ## The last waiter -/

/-- A number beyond all of a list leaves nothing out of it. -/
theorem leaveOut_of_lt {n : Nat} {l : List Nat} (hl : ∀ m ∈ l, m < n) : leaveOut n l = l := by
  have hKept : l.filter (· != n) = l :=
    List.filter_eq_self.2 fun m hm => bne_iff_ne.2 (Nat.ne_of_lt (hl m hm))
  have hNumbers : l.map (renumber n) = l.map id :=
    List.map_congr_left fun m hm => renumber_of_lt (hl m hm)
  rw [leaveOut, hKept, hNumbers, List.map_id]

/-- To leave the last waiter out is to take it back. -/
theorem Numbered.without_last (hp : p.Numbered) :
    p.enqueue.1.without p.waiterCount = p := by
  have hQueue : leaveOut p.waiterCount (p.queue ++ [p.waiterCount]) = p.queue := by
    rw [leaveOut_append, leaveOut_of_lt hp.queue, leaveOut_cons_self]
    exact List.append_nil _
  have hCompleted : leaveOut p.waiterCount p.completed = p.completed :=
    leaveOut_of_lt hp.completed
  show p.relined { p.line with
    queue := leaveOut p.waiterCount (p.queue ++ [p.waiterCount])
    completed := leaveOut p.waiterCount p.completed } = p
  rw [hQueue, hCompleted]
  rfl

/-- A caller is queued only where all connections are held, so that none was idle and dead. -/
theorem Owned.idle_of_queued {held : List Handle} (hp : p.Owned [] held)
    (hAttempt : p.attempt = (r, .queued v)) : p.idle = [] := by
  obtain ⟨q, hEvicts, hIdle, hFull, -, -, -⟩ := attempt_queued hAttempt
  have hConfig : q.config = p.config := (onlyConnections_of_evictsFirst hEvicts).config
  have hLeft : q.liveCount = held.length := by
    have hCount := (hp.evictsFirst hEvicts).tracked.count
    rw [hIdle] at hCount
    exact hCount
  have hCount := hp.tracked.count
  have hRoom := hp.tracked.room
  rw [List.nil_append, List.length_append] at hCount
  rw [hConfig, hLeft] at hFull
  exact List.length_eq_zero_iff.1 (by omega)

/-- Where no connection is idle, a caller who is queued has evicted none. -/
theorem attempt_of_queued (hNone : p.idle = []) (hAttempt : p.attempt = (r, .queued v)) :
    r = p.enqueue.1 ∧ v = p.waiterCount := by
  obtain ⟨q, hEvicts, -, -, -, rfl, rfl⟩ := attempt_queued hAttempt
  rcases hEvicts.cases_head with rfl | ⟨r, ⟨h, rest, hFirst, -⟩, -⟩
  · exact ⟨rfl, rfl⟩
  · cases hNone.symm.trans hFirst

end Pool

end StoreClient
