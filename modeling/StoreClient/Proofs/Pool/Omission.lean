import StoreClient.Proofs.Pool.Forgotten
import StoreClient.Proofs.Pool.Runs
import StoreClient.Proofs.Pool.Tasks

/-!
# A call that is left out

The session in which one call is left out has the other tasks, in the same order, and its pool is
without the waiter of the call; the calls begun later have the number before. What callers do who
have nothing to do with the call comes to the same in both sessions and is answered alike, unless it
completes the waiter that is left out, or the pool lives by the call alone.
-/

namespace StoreClient

open Pool

/-- The task where another one is left out, and its waiter with it. -/
def Task.without (t : Task) (n : Nat) (w : WaiterId) : Task :=
  { t with number := renumber n t.number, waiter := renumber w t.waiter }

namespace Session

variable {s : Session} {t : Task} {st st' : Step} {u : Use} {n m : Nat} {w : WaiterId}
  {guarded : Bool}

/-- The session without a call. -/
def without (s : Session) (n : Nat) (w : WaiterId) : Session :=
  { s with
    pool := s.pool.without w
    tasks := (s.removeTask n).tasks.map (·.without n w)
    started := s.started - 1 }

/-- A step, unless it is one of a call that is left out. -/
def Step.without (n : Nat) : Step → Option Step
  | .poll m => if m = n then none else some (.poll (renumber n m))
  | .cancel m => if m = n then none else some (.cancel (renumber n m))
  | st => some st

/-- A use, unless it is a step of a call that is left out. -/
def Use.without (n : Nat) : Use → Option Use
  | .step st => (st.without n).map .step
  | .giveBack h => some (.giveBack h)

/-- An answer where a call is left out. -/
def Answer.without (n : Nat) : Answer → Answer
  | .started m answer => .started (renumber n m) (answer.without n)
  | answer => answer

/-! ## Tasks -/

/-- A task is found by its number in both sessions, unless it is the one that is left out. -/
theorem number_without (hm : m ≠ n) (t : Task) :
    (t.number != n && (t.without n w).number == renumber n m) = (t.number == m) := by
  by_cases ht : t.number = n
  · have hOther : n ≠ m := Ne.symm hm
    simp [ht, hOther]
  · have hSame : (renumber n t.number == renumber n m) = (t.number == m) := renumber_beq ht hm
    simp [ht, hSame, Task.without]

/-- The other tasks are found under their new numbers. -/
theorem task?_without (hm : m ≠ n) :
    (s.without n w).task? (renumber n m) = (s.task? m).map (·.without n w) := by
  show ((s.tasks.filter (·.number != n)).map (·.without n w)).find?
    (·.number == renumber n m) = _
  rw [List.find?_map, List.find?_filter]
  refine congrArg (fun p => (s.tasks.find? p).map (·.without n w)) (funext fun t => ?_)
  rw [← number_without (w := w) hm t, Bool.decide_and, Bool.decide_eq_true, Bool.decide_eq_true]
  rfl

theorem removeTask_without (hm : m ≠ n) :
    (s.without n w).removeTask (renumber n m) = (s.removeTask m).without n w := by
  have hOthers : ∀ t ∈ s.tasks.filter (·.number != n),
      ((t.without n w).number != renumber n m) = (t.number != m) := by
    intro t ht
    have hSame := number_without (w := w) hm t
    rw [(List.mem_filter.1 ht).2, Bool.true_and] at hSame
    rw [bne, hSame]
    rfl
  have hTasks : ((s.tasks.filter (·.number != n)).map (·.without n w)).filter
      (·.number != renumber n m) =
        ((s.tasks.filter (·.number != m)).filter (·.number != n)).map (·.without n w) := by
    rw [List.filter_map, List.filter_comm (·.number != n) (·.number != m) s.tasks]
    exact congrArg (List.map (·.without n w)) (List.filter_congr hOthers)
  exact congrArg (fun tasks => ({ s.without n w with tasks } : Session)) hTasks

theorem putTask_without (ht : t.number ≠ n) :
    (s.without n w).putTask (t.without n w) = (s.putTask t).without n w := by
  have hAny : ((s.tasks.filter (·.number != n)).map (·.without n w)).any
      (·.number == renumber n t.number) = s.tasks.any (·.number == t.number) := by
    rw [List.any_map, List.any_filter]
    exact congrArg s.tasks.any (funext (number_without ht))
  have hReplaced : ((s.tasks.filter (·.number != n)).map (·.without n w)).map
      (fun u => if u.number == renumber n t.number then t.without n w else u) =
        ((s.tasks.map fun u => if u.number == t.number then t else u).filter
          (·.number != n)).map (·.without n w) := by
    have hKept : s.tasks.filter ((·.number != n) ∘ fun u => if u.number == t.number then t else u) =
        s.tasks.filter (·.number != n) := by
      refine List.filter_congr fun u _ => ?_
      by_cases hFound : u.number = t.number <;> simp [hFound]
    rw [List.filter_map, hKept, List.map_map, List.map_map]
    refine List.map_congr_left fun u hu => ?_
    have hSame := number_without (w := w) ht u
    rw [(List.mem_filter.1 hu).2, Bool.true_and] at hSame
    show (if (u.without n w).number == renumber n t.number then _ else _) = _
    rw [hSame]
    by_cases hFound : u.number = t.number <;> simp [hFound]
  have hAdded : ((s.tasks.filter (·.number != n)).map (·.without n w)) ++ [t.without n w] =
      ((s.tasks ++ [t]).filter (·.number != n)).map (·.without n w) := by
    simp [ht]
  unfold putTask
  show (if ((s.tasks.filter (·.number != n)).map (·.without n w)).any
      (·.number == renumber n t.number) then _ else _) = _
  rw [hAny]
  split
  · exact congrArg (fun tasks => ({ s.without n w with tasks } : Session)) hReplaced
  · exact congrArg (fun tasks => ({ s.without n w with tasks } : Session)) hAdded

/-- What changes the pool alone does so in both sessions if it does so to the pools. -/
theorem of_pool_without {p q : Pool} (hPool : q = p.without w) :
    ({ s.without n w with pool := q } : Session) =
      ({ s with pool := p } : Session).without n w := by
  rw [hPool]
  rfl

theorem deliver_without (outcome : Outcome) :
    (s.without n w).deliver guarded outcome =
      ((s.deliver guarded outcome).1.without n w, (s.deliver guarded outcome).2.without n) := by
  cases outcome <;> rfl

/-- A blocking call is answered the same where another call is left out. -/
theorem acquire_without (hw : w < s.pool.waiterCount) (guarded : Bool) :
    (s.without n w).acquire guarded =
      ((s.acquire guarded).1.without n w, (s.acquire guarded).2.without n) := by
  have hPool : (s.without n w).pool.acquire = (s.pool.acquire.1.without w, s.pool.acquire.2) :=
    Pool.acquire_without hw
  unfold acquire
  rw [hPool]
  exact deliver_without (s := { s with pool := s.pool.acquire.1 }) s.pool.acquire.2

/-- A task goes on the same where another call is left out. -/
theorem advanceTask_without (hm : m ≠ n) (hw : w < s.pool.waiterCount) (guarded : Bool) :
    (s.without n w).advanceTask (renumber n m) guarded =
      ((s.advanceTask m guarded).1.without n w, (s.advanceTask m guarded).2.without n) := by
  have hPool : (s.without n w).pool.acquireStep =
      (s.pool.acquireStep.1.without w, s.pool.acquireStep.2.without w) := acquireStep_without hw
  unfold advanceTask
  rw [hPool]
  rcases s.pool.acquireStep with ⟨p, outcome | v⟩
  · show (({ s with pool := p } : Session).without n w |>.removeTask (renumber n m)).deliver guarded
      outcome = _
    rw [removeTask_without hm]
    exact deliver_without outcome
  · exact congrArg (·, Answer.pending) (putTask_without (s := { s with pool := p })
      (t := { number := m, waiter := v, deadline := s.now + p.config.waitTimeout, guarded }) hm)

/-- A task is polled the same where another call is left out. -/
theorem pollTask_without (hw : w < s.pool.waiterCount) (hNumber : t.number ≠ n)
    (hWaiter : t.waiter ≠ w) :
    (s.without n w).pollTask (t.without n w) =
      ((s.pollTask t).1.without n w, (s.pollTask t).2.without n) := by
  unfold pollTask
  show (if (s.pool.without w).isCompleted (renumber w t.waiter) then
      (s.without n w).advanceTask (renumber n t.number) t.guarded
    else if t.deadline ≤ s.now then
      ({ s.without n w with pool := (s.pool.without w).timeOut (renumber w t.waiter) } :
        Session).advanceTask (renumber n t.number) t.guarded
    else (s.without n w, .pending)) = _
  rw [isCompleted_without s.pool hWaiter, timeOut_without s.pool hWaiter]
  split
  · exact advanceTask_without hNumber hw t.guarded
  · split
    · have hLater : w < (s.pool.timeOut t.waiter).waiterCount := by
        rw [(timeOut_queue s.pool t.waiter).2]
        exact hw
      exact advanceTask_without (s := { s with pool := s.pool.timeOut t.waiter }) hNumber hLater
        t.guarded
    · rfl

/-! ## Steps -/

/-- Whoever else waits has a waiter of its own, and what is begun later gets other numbers. -/
structure Veiled (n : Nat) (w : WaiterId) (s : Session) : Prop where
  queued : w < s.pool.waiterCount
  begun : n < s.started
  others : ∀ m ≠ n, ∀ t, s.task? m = some t → t.waiter ≠ w

/-- A slot is dropped the same where a call is left out that is not woken up for it. -/
theorem dropSlot_without {i : Nat} {slot : Slot}
    (hLeaves : Leaves w s.pool (s.dropSlot i slot).1.pool) :
    (s.without n w).dropSlot i slot =
      ((s.dropSlot i slot).1.without n w, (s.dropSlot i slot).2.without n) := by
  unfold dropSlot at hLeaves ⊢
  by_cases hGuarded : slot.guarded = true
  · simp only [if_pos hGuarded] at hLeaves ⊢
    let noted := s.pool.note .trace "returning connection to pool" [s.pool.idValue slot.handle]
    have hRelease : (noted.without w).release slot.handle =
        (noted.release slot.handle).without w :=
      release_without slot.handle (hLeaves.of_line (q := noted) rfl)
    show (({ s.without n w with
      slots := s.slots.set i none
      pool := (noted.without w).release slot.handle } : Session), _) = _
    rw [hRelease]
    rfl
  · simp only [if_neg hGuarded]
    rfl

theorem completes_acquire (s : Session) (guarded : Bool) :
    s.pool.Completes (s.acquire guarded).1.pool := by
  rw [acquire_pool]
  exact completes_applyAll s.pool _

/-- A call that is begun later gets the number before. -/
theorem start_without (hs : s.Veiled n w) (guarded : Bool) :
    (s.without n w).perform (.start guarded) =
      ((s.perform (.start guarded)).1.without n w,
        (s.perform (.start guarded)).2.without n) := by
  have hNumber : renumber n s.started = s.started - 1 := renumber_of_gt hs.begun
  have hCount : s.started - 1 + 1 = s.started + 1 - 1 :=
    Nat.sub_add_cancel (Nat.one_le_of_lt hs.begun)
  have hBegun : ({ s.without n w with started := s.started - 1 + 1 } : Session) =
      ({ s with started := s.started + 1 } : Session).without n w :=
    congrArg (fun started => ({ s.without n w with started } : Session)) hCount
  have hCall := advanceTask_without (s := { s with started := s.started + 1 })
    (Nat.ne_of_gt hs.begun) hs.queued guarded
  rw [hNumber, ← hBegun] at hCall
  have hAnswer := congrArg (fun x : Session × Answer => (x.1, Answer.started (s.started - 1) x.2))
    hCall
  refine hAnswer.trans ?_
  rw [← hNumber]
  rfl

/-- A call that blocks is made while something else happens to the pool. -/
theorem acquire_after_without {p q : Pool} (hPool : q = p.without w) (hw : w < p.waiterCount) :
    ({ s.without n w with pool := q } : Session).acquire false =
      ((({ s with pool := p } : Session).acquire false).1.without n w,
        (({ s with pool := p } : Session).acquire false).2.without n) := by
  rw [of_pool_without hPool]
  exact acquire_without (s := { s with pool := p }) hw false

theorem ne_of_poll_without (hStep : (Step.poll m).without n = some st') :
    m ≠ n ∧ st' = .poll (renumber n m) := by
  rw [Step.without] at hStep
  split at hStep
  · cases hStep
  · exact ⟨‹_›, (Option.some.inj hStep).symm⟩

theorem ne_of_cancel_without (hStep : (Step.cancel m).without n = some st') :
    m ≠ n ∧ st' = .cancel (renumber n m) := by
  rw [Step.without] at hStep
  split at hStep
  · cases hStep
  · exact ⟨‹_›, (Option.some.inj hStep).symm⟩

/-- Another task is polled the same where a call is left out. -/
theorem poll_without (hs : s.Veiled n w) (hm : m ≠ n) :
    (s.without n w).perform (.poll (renumber n m)) =
      ((s.perform (.poll m)).1.without n w, (s.perform (.poll m)).2.without n) := by
  rw [perform, perform, task?_without hm]
  cases hTask : s.task? m with
  | none => rfl
  | some t =>
    have hNumber : t.number ≠ n := (task?_eq_some hTask).2.symm ▸ hm
    exact pollTask_without hs.queued hNumber (hs.others m hm t hTask)

/-- Another task is given up the same where a call is left out that is not woken up for it. -/
theorem cancel_without (hs : s.Veiled n w) (hm : m ≠ n)
    (hLeaves : Leaves w s.pool (s.perform (.cancel m)).1.pool) :
    (s.without n w).perform (.cancel (renumber n m)) =
      ((s.perform (.cancel m)).1.without n w, (s.perform (.cancel m)).2.without n) := by
  rw [perform] at hLeaves
  rw [perform, perform, task?_without hm]
  cases hTask : s.task? m with
  | none => rfl
  | some t =>
    rw [hTask] at hLeaves
    have hAbandoned := abandon_without (hs.others m hm t hTask) hLeaves
    show (({ s.without n w with
      pool := (s.pool.without w).abandon (renumber w t.waiter) } : Session).removeTask
        (renumber n m), Answer.existed true) = _
    rw [of_pool_without hAbandoned, removeTask_without hm]
    rfl

/-- What is given back while a caller waits is given back the same where another call is left out
that is not woken up for it. -/
theorem handOff_without (hs : s.Veiled n w) {slot : Option Nat}
    (hLeaves : Leaves w s.pool (s.perform (.handOff slot)).1.pool) :
    (s.without n w).perform (.handOff slot) =
      ((s.perform (.handOff slot)).1.without n w, (s.perform (.handOff slot)).2.without n) := by
  cases slot with
  | none =>
    have hDisposed : w < s.pool.dispose.waiterCount :=
      Nat.lt_of_lt_of_le hs.queued (waiterCount_le_apply s.pool .dispose)
    exact acquire_after_without (dispose_without s.pool) hDisposed
  | some i =>
    rw [perform] at hLeaves
    rw [perform, perform, show (s.without n w).slot? i = s.slot? i from rfl]
    cases hSlot : s.slot? i with
    | none => rfl
    | some slot =>
      rw [hSlot] at hLeaves
      have hLater : w < (s.pool.release slot.handle).waiterCount :=
        Nat.lt_of_lt_of_le hs.queued (waiterCount_le_apply s.pool (.release slot.handle))
      -- who is woken is woken by the release, before the other caller tries
      have hGiven : Leaves w s.pool (s.pool.release slot.handle) := hLeaves.first
        (completes_acquire { s with pool := s.pool.release slot.handle } false)
      exact acquire_after_without (release_without slot.handle hGiven) hLater

/-- What callers do comes to the same where another call is left out, unless it wakes this call. -/
theorem perform_without (hs : s.Veiled n w) (hStep : st.without n = some st')
    (hLeaves : Leaves w s.pool (s.perform st).1.pool) :
    (s.without n w).perform st' =
      ((s.perform st).1.without n w, (s.perform st).2.without n) := by
  cases st with
  | acquire guarded =>
    cases hStep
    exact acquire_without hs.queued guarded
  | start guarded =>
    cases hStep
    exact start_without hs guarded
  | poll m =>
    obtain ⟨hm, rfl⟩ := ne_of_poll_without hStep
    exact poll_without hs hm
  | cancel m =>
    obtain ⟨hm, rfl⟩ := ne_of_cancel_without hStep
    exact cancel_without hs hm hLeaves
  | release i =>
    cases hStep
    rw [perform] at hLeaves
    rw [perform, perform, show (s.without n w).slot? i = s.slot? i from rfl]
    cases hSlot : s.slot? i with
    | none => rfl
    | some slot =>
      rw [hSlot] at hLeaves
      have hReleased := release_without slot.handle hLeaves
      exact congrArg (·, Answer.nothing) (of_pool_without hReleased)
  | drop i =>
    cases hStep
    rw [perform] at hLeaves
    rw [perform, perform, show (s.without n w).slot? i = s.slot? i from rfl]
    cases hSlot : s.slot? i with
    | none => rfl
    | some slot =>
      rw [hSlot] at hLeaves
      exact dropSlot_without hLeaves
  | handOff slot =>
    cases hStep
    exact handOff_without hs hLeaves
  | openMinimum =>
    cases hStep
    exact congrArg (·, Answer.nothing) (of_pool_without (openMinimum_without s.pool))
  | dispose =>
    cases hStep
    exact congrArg (·, Answer.nothing) (of_pool_without (dispose_without s.pool))
  | advance | dropPool | kill | revive | shut | cycleBuffers =>
    cases hStep
    rfl

/-- Without a call the pool is kept alive by what else keeps it alive. -/
theorem isHeld_without : (s.without n w).isHeld = (s.removeTask n).isHeld := by
  have hEmpty : ((s.removeTask n).tasks.map (·.without n w)).isEmpty =
      (s.removeTask n).tasks.isEmpty := List.isEmpty_map
  show (s.owned || !((s.removeTask n).tasks.map (·.without n w)).isEmpty || _) = _
  rw [hEmpty]
  rfl

/-- The pool is disposed of in both sessions or in none if the call that is left out does not make
the difference. -/
theorem settle_without (hHeld : (s.removeTask n).isHeld = s.isHeld) :
    (s.without n w).settle = s.settle.without n w := by
  unfold settle
  rw [isHeld_without, hHeld]
  split
  · rfl
  · exact of_pool_without (dispose_without s.pool)

theorem isHeld_settle (s : Session) : s.settle.isHeld = s.isHeld := by
  unfold settle
  split <;> rfl

theorem removeTask_settle_isHeld (s : Session) (n : Nat) :
    (s.settle.removeTask n).isHeld = (s.removeTask n).isHeld := by
  unfold settle
  split <;> rfl

theorem completes_settle (s : Session) : s.pool.Completes s.settle.pool := by
  unfold settle
  split
  · exact Completes.of_line rfl
  · exact completes_dispose s.pool

/-- A use comes to the same where a call is left out that it does not wake, and by which the pool
does not live alone. -/
theorem use_without {u' : Use} (hs : s.Veiled n w) (hUse : u.without n = some u')
    (hLeaves : Leaves w s.pool (s.use u).pool)
    (hHeld : ((s.use u).removeTask n).isHeld = (s.use u).isHeld) :
    (s.without n w).use u' = (s.use u).without n w ∧
      (s.without n w).answer u' = (s.answer u).without n := by
  cases u with
  | step st =>
    obtain ⟨st', hStep, rfl⟩ := Option.map_eq_some_iff.1 hUse
    have hSettled : (s.use (.step st)) = (s.perform st).1.settle := rfl
    rw [hSettled] at hLeaves hHeld ⊢
    rw [removeTask_settle_isHeld, isHeld_settle] at hHeld
    have hPerform := perform_without hs hStep (hLeaves.first (completes_settle _))
    refine ⟨?_, congrArg Prod.snd hPerform⟩
    show ((s.without n w).perform st').1.settle = _
    rw [hPerform]
    exact settle_without hHeld
  | giveBack h =>
    cases hUse
    refine ⟨?_, rfl⟩
    rw [use] at hLeaves
    rw [use, use]
    show (if h < s.pool.connections.length then _ else _) = _
    by_cases hMade : h < s.pool.connections.length
    · rw [if_pos hMade] at hLeaves
      rw [if_pos hMade, if_pos hMade]
      exact of_pool_without (release_without h hLeaves)
    · rw [if_neg hMade, if_neg hMade]

end Session

end StoreClient
