import StoreClient.Proofs.Pool.Disposal
import Mathlib.Data.List.Range

/-!
# First come, first served

Waiters have numbers in the order in which they were queued, and the queue has them in this order.
As every waiter that nobody has completed is in the queue, a wakeup goes to the first of them
(`InOrder.wakeNext_completed`), and only completed waiters leave the queue.
-/

namespace StoreClient.Pool

variable {p q r : Pool} {w : WaiterId}

/-- Among the waiters that nobody has completed, the one that was queued first. -/
def earliest (p : Pool) : Option WaiterId :=
  (List.range p.waiterCount).find? fun w => !p.isCompleted w

theorem earliest_eq_some (hw : w < p.waiterCount) (hNot : p.isCompleted w = false)
    (hBefore : ∀ v < w, p.isCompleted v = true) : p.earliest = some w := by
  rw [earliest, List.find?_range_eq_some]
  refine ⟨by simp [hNot], List.mem_range.2 hw, fun v hv => ?_⟩
  simp [hBefore v hv]

theorem earliest_eq_none (hAll : ∀ w < p.waiterCount, p.isCompleted w = true) :
    p.earliest = none := by
  rw [earliest, List.find?_range_eq_none]
  intro w hw
  simp [hAll w hw]

theorem earliest_congr (hLine : q.line = p.line) : q.earliest = p.earliest := by
  have hCount : q.waiterCount = p.waiterCount := congrArg Line.waiterCount hLine
  have hDone : q.isCompleted = p.isCompleted := funext (isCompleted_congr hLine)
  rw [earliest, earliest, hCount, hDone]

/-! ## Completed waiters stay so and are completed once -/

/-- Some waiters more were completed, each of them once. -/
structure Completes (p q : Pool) : Prop where
  suffix : p.completed <:+ q.completed
  nodup : p.completed.Nodup → q.completed.Nodup

theorem Completes.of_line (hLine : q.line = p.line) : p.Completes q := by
  have hCompleted : q.completed = p.completed := congrArg Line.completed hLine
  exact ⟨hCompleted ▸ List.suffix_refl _, fun hp => hCompleted ▸ hp⟩

theorem Completes.trans (hFirst : p.Completes q) (hLast : q.Completes r) : p.Completes r where
  suffix := hFirst.suffix.trans hLast.suffix
  nodup := fun hp => hLast.nodup (hFirst.nodup hp)

theorem Completes.of_cons (hNot : p.isCompleted w = false)
    (hCompleted : q.completed = w :: p.completed) : p.Completes q := by
  have hFresh : w ∉ p.completed := by
    intro hMem
    have hDone : p.isCompleted w = true := List.contains_iff_mem.2 hMem
    rw [hNot] at hDone
    cases hDone
  refine ⟨?_, fun hp => ?_⟩
  · rw [hCompleted]
    exact List.suffix_cons w _
  · rw [hCompleted]
    exact List.nodup_cons.2 ⟨hFresh, hp⟩

/-- A completed waiter stays completed. -/
theorem Completes.isCompleted (h : p.Completes q) (hDone : p.isCompleted w = true) :
    q.isCompleted w = true := by
  have hMem : w ∈ p.completed := List.contains_iff_mem.1 hDone
  exact List.contains_iff_mem.2 (h.suffix.subset hMem)

/-- To complete a waiter twice changes nothing. -/
theorem completes_complete (p : Pool) (w : WaiterId) : p.Completes (p.complete w) := by
  cases hDone : p.isCompleted w with
  | true =>
    rw [complete, if_pos hDone]
    exact Completes.of_line rfl
  | false =>
    rw [complete_of_not_completed hDone]
    exact Completes.of_cons hDone rfl

theorem completes_completeAll (p : Pool) (waiters : List WaiterId) :
    p.Completes (waiters.foldl complete p) := by
  induction waiters generalizing p with
  | nil => exact Completes.of_line rfl
  | cons w rest ih => exact (completes_complete p w).trans (ih (p.complete w))

theorem completes_wakeNext (p : Pool) : p.Completes p.wakeNext := by
  rcases wakeNext_cases p with ⟨-, hEq⟩ | ⟨done, w, rest, -, -, hNot, hEq⟩
  · rw [hEq]
    exact ⟨List.suffix_refl _, id⟩
  · rw [hEq]
    exact Completes.of_cons hNot rfl

theorem completes_abandon (p : Pool) (w : WaiterId) : p.Completes (p.abandon w) := by
  unfold abandon
  split
  · have hNoted : p.Completes (p.note .debug "abandoned wait was signaled, waking next") :=
      Completes.of_line rfl
    exact hNoted.trans (completes_wakeNext _)
  · exact completes_complete p w

theorem completes_release (p : Pool) (h : Handle) : p.Completes (p.release h) := by
  obtain ⟨q, hSettled, hEq⟩ := release_cases p h
  rw [hEq]
  exact (Completes.of_line hSettled.line).trans (completes_wakeNext q)

/-- A disposal completes each waiter at most once. -/
theorem completes_dispose (p : Pool) : p.Completes p.dispose := by
  cases hDisposed : p.disposed with
  | true =>
    rw [dispose_of_disposed hDisposed]
    exact Completes.of_line rfl
  | false =>
    obtain ⟨log, hEq⟩ := dispose_of_open hDisposed
    have hRetired : p.retired.completed = p.completed := congrArg Line.completed (retired_line p)
    have hWoken := completes_completeAll p.retired p.retired.queue
    rw [hEq]
    exact ⟨hRetired ▸ hWoken.suffix, fun hp => hWoken.nodup (hRetired ▸ hp)⟩

/-- No operation takes a completion back, and none completes a waiter twice. -/
theorem completes_apply (p : Pool) (op : Op) : p.Completes (p.apply op) := by
  cases op with
  | openMinimum => exact Completes.of_line (openMinimum_onlyConnections p).line
  | attempt =>
    rcases attempt_line_or_enqueue p with ⟨q, hLine, hEnd⟩ | hLine
    · have hQueued : q.Completes q.enqueue.1 := ⟨List.suffix_refl _, id⟩
      rw [apply, hEnd]
      exact (Completes.of_line hLine).trans hQueued
    · exact Completes.of_line hLine
  | timeOut w => exact (completes_complete p w).trans (Completes.of_line (timeOut_line p w))
  | abandon w => exact completes_abandon p w
  | release h => exact completes_release p h
  | dispose => exact completes_dispose p
  | setDead | shut | returning | cycleBuffers => exact Completes.of_line rfl

theorem completes_applyAll (p : Pool) (ops : List Op) : p.Completes (p.applyAll ops) :=
  applyAll_induction (P := p.Completes) (fun q op hq => hq.trans (completes_apply q op))
    (Completes.of_line rfl) ops

/-! ## The order of the queue -/

/-- Whoever waits is in the queue, in the order in which waiters were queued, and no waiter was
completed twice. -/
structure InOrder (p : Pool) : Prop where
  listed : p.Listed
  sorted : p.queue.Pairwise (· < ·)
  lt : ∀ w ∈ p.queue, w < p.waiterCount
  once : p.completed.Nodup

/-- Every operation keeps the order of the queue. -/
theorem InOrder.apply (hp : p.InOrder) (op : Op) : (p.apply op).InOrder := by
  have hOnce := (completes_apply p op).nodup hp.once
  rcases apply_queue p op with ⟨hQueue, hCount⟩ | ⟨hQueue, hCount⟩
  · refine ⟨hp.listed.apply op, hp.sorted.sublist hQueue.sublist, fun w hw => ?_, hOnce⟩
    rw [hCount]
    exact hp.lt w (hQueue.subset hw)
  · refine ⟨hp.listed.apply op, ?_, fun w hw => ?_, hOnce⟩
    · rw [hQueue]
      refine List.pairwise_append.2 ⟨hp.sorted, List.pairwise_singleton _ _, fun v hv w hw => ?_⟩
      rw [List.mem_singleton.1 hw]
      exact hp.lt v hv
    · rw [hQueue] at hw
      rw [hCount]
      rcases List.mem_append.1 hw with hw | hw
      · exact Nat.lt_succ_of_lt (hp.lt w hw)
      · rw [List.mem_singleton.1 hw]
        exact Nat.lt_succ_self _

theorem inOrder_fresh (endpoint : Endpoint) (config : PoolConfig) (factory : List FactoryOutcome) :
    (fresh endpoint config factory).InOrder where
  listed := (orderly_fresh endpoint config factory).listed
  sorted := List.Pairwise.nil
  lt := nofun
  once := List.nodup_nil

theorem inOrder_applyAll (endpoint : Endpoint) (config : PoolConfig)
    (factory : List FactoryOutcome) (ops : List Op) :
    ((fresh endpoint config factory).applyAll ops).InOrder :=
  applyAll_induction (fun _ op hp => hp.apply op) (inOrder_fresh endpoint config factory) ops

/-! ## Whom a wakeup reaches -/

/-- A wakeup completes the waiter that was queued first, of those that nobody has completed, if
there is any. -/
theorem InOrder.wakeNext_completed (hp : p.InOrder) :
    p.wakeNext.completed = p.earliest.toList ++ p.completed := by
  rcases wakeNext_cases p with ⟨hAll, hEq⟩ | ⟨done, w, rest, hQueue, hDone, hNot, hEq⟩
  · have hNone : p.earliest = none :=
      earliest_eq_none fun v hv => (hp.listed v hv).elim id (hAll v)
    rw [hNone, hEq]
    rfl
  · have hMem : w ∈ p.queue := by simp [hQueue]
    have hw : w < p.waiterCount := hp.lt w hMem
    have hSorted := hp.sorted
    rw [hQueue] at hSorted
    obtain ⟨-, hLater, -⟩ := List.pairwise_append.1 hSorted
    have hBefore : ∀ v < w, p.isCompleted v = true := by
      intro v hv
      rcases hp.listed v (Nat.lt_trans hv hw) with hCompleted | hQueued
      · exact hCompleted
      · -- what stands before `w` in the queue was completed, and what stands behind came later
        rw [hQueue] at hQueued
        rcases List.mem_append.1 hQueued with hFirst | hLast
        · exact hDone v hFirst
        · rcases List.mem_cons.1 hLast with rfl | hRest
          · exact absurd hv (Nat.lt_irrefl v)
          · have hAfter : w < v := (List.pairwise_cons.1 hLater).1 v hRest
            exact absurd hv (Nat.lt_asymm hAfter)
    rw [earliest_eq_some hw hNot hBefore, hEq]
    rfl

theorem InOrder.of_line (hp : p.InOrder) (hLine : q.line = p.line) : q.InOrder := by
  have hQueue : q.queue = p.queue := congrArg Line.queue hLine
  have hCount : q.waiterCount = p.waiterCount := congrArg Line.waiterCount hLine
  have hCompleted : q.completed = p.completed := congrArg Line.completed hLine
  refine ⟨hp.listed.congr hLine, ?_, ?_, ?_⟩
  · rw [hQueue]
    exact hp.sorted
  · rw [hQueue, hCount]
    exact hp.lt
  · rw [hCompleted]
    exact hp.once

/-- A release completes the waiter that was queued first, of those that still wait, and no other. -/
theorem InOrder.release_completed (hp : p.InOrder) (h : Handle) :
    (p.release h).completed = p.earliest.toList ++ p.completed := by
  obtain ⟨q, hSettled, hEq⟩ := release_cases p h
  have hLine := hSettled.line
  have hCompleted : q.completed = p.completed := congrArg Line.completed hLine
  rw [hEq, (hp.of_line hLine).wakeNext_completed, earliest_congr hLine, hCompleted]

/-- Who gives up a wait for which it was woken wakes the next one. -/
theorem InOrder.abandon_completed (hp : p.InOrder) (hDone : p.isCompleted w = true) :
    (p.abandon w).completed = p.earliest.toList ++ p.completed := by
  have hNoted : (p.note .debug "abandoned wait was signaled, waking next").InOrder :=
    hp.of_line rfl
  rw [abandon, if_pos hDone]
  exact hNoted.wakeNext_completed

/-- A waiter that nobody has completed stays in the queue until somebody does. -/
theorem InOrder.queued_or_completed (hp : p.InOrder) (op : Op) (hw : w ∈ p.queue) :
    w ∈ (p.apply op).queue ∨ (p.apply op).isCompleted w = true := by
  have hLater := Nat.lt_of_lt_of_le (hp.lt w hw) (waiterCount_le_apply p op)
  exact ((hp.listed.apply op) w hLater).symm

end StoreClient.Pool
