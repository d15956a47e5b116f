import StoreClient.Proofs.Pool.Callers
import Mathlib.Data.List.Nodup
import Mathlib.Data.List.Perm.Basic

/-!
# No wakeup is lost

A place is free if a connection is idle or there is room for a new one. As long as someone waits, at
most as many places are free as there are callers who wait no more but have not tried again yet: a
release frees at most one place and completes one waiter, and a caller who tries again takes a place
or finds none.

While a place is on its way from one caller to another, there may be one more free place than that.
The number of such places is the spare of the pool.
-/

namespace StoreClient.Pool

open Relation

variable {p q : Pool} {w : WaiterId} {waiters : List WaiterId} {spare : Nat}

/-! ## Free places -/

/-- The number of callers who could be given a connection now. -/
def free (p : Pool) : Nat := p.idle.length + (p.config.maxSize - p.liveCount)

/-- The factory does not fail, and there are not too many connections. -/
structure Supplied (p : Pool) : Prop where
  factory : ∀ e, FactoryOutcome.failure e ∉ p.factory
  room : p.liveCount ≤ p.config.maxSize

theorem free_of_stock (hStock : q.stock = p.stock) : q.free = p.free :=
  congrArg (fun k => k.idle.length + (k.config.maxSize - k.liveCount)) hStock

theorem Supplied.of_stock (hp : p.Supplied) (hStock : q.stock = p.stock) : q.Supplied := by
  have hFactory : q.factory = p.factory := congrArg Stock.factory hStock
  have hCount : q.liveCount = p.liveCount := congrArg Stock.liveCount hStock
  have hConfig : q.config = p.config := congrArg Stock.config hStock
  refine ⟨?_, ?_⟩
  · rw [hFactory]
    exact hp.factory
  · rw [hCount, hConfig]
    exact hp.room

/-- A connection that is closed frees a place at most. -/
theorem Supplied.destroy (hp : p.Supplied) (h : Handle) :
    (p.destroy h).Supplied ∧ (p.destroy h).free ≤ p.free + 1 := by
  obtain ⟨metrics, hEq⟩ := destroy_eq p h
  have hLe : (if p.tracks h then 1 else 0) ≤ 1 := by split <;> omega
  rw [hEq]
  refine ⟨⟨hp.factory, (Nat.sub_le _ _).trans hp.room⟩, ?_⟩
  simp only [free]
  omega

/-- Evictions leave no more places free than there were. -/
theorem Supplied.evictsFirst (hp : p.Supplied) (hEvicts : ReflTransGen EvictsFirst p q) :
    q.Supplied ∧ q.free ≤ p.free := by
  induction hEvicts with
  | refl => exact ⟨hp, le_rfl⟩
  | @tail r q _ hLast ih =>
    obtain ⟨h, rest, hIdle, -, rfl⟩ := hLast
    have hTaken : ({ r with idle := rest } : Pool).Supplied := ⟨ih.1.factory, ih.1.room⟩
    obtain ⟨hSupplied, hFree⟩ := hTaken.destroy h
    have hLess : ({ r with idle := rest } : Pool).free + 1 = r.free := by
      simp only [free, hIdle, List.length_cons]
      omega
    refine ⟨hSupplied.of_stock (evict_stock _ h), ?_⟩
    rw [free_of_stock (evict_stock _ h)]
    exact (hFree.trans hLess.le).trans ih.2

/-- A factory that does not fail makes a connection. -/
theorem Supplied.create_cases (hp : p.Supplied) :
    ∃ r h, p.create = (r, .ok h) ∧ r.idle = p.idle ∧ r.config = p.config ∧
      r.liveCount = p.liveCount + 1 ∧ ∀ e, FactoryOutcome.failure e ∉ r.factory := by
  rcases Pool.create_cases p with ⟨e, log, hHead, -⟩ | ⟨c, metrics, log, -, -, hEq⟩
  · exact absurd (List.mem_of_mem_head? hHead) (hp.factory e)
  · exact ⟨_, _, hEq, rfl, rfl, rfl, fun e hMem => hp.factory e (List.mem_of_mem_tail hMem)⟩

/-- A new connection takes the place of a free one, if it is idle. -/
theorem Supplied.opensOne (hp : p.Supplied) (hOpens : ReflTransGen OpensOne p q) :
    q.Supplied ∧ q.free = p.free := by
  induction hOpens with
  | refl => exact ⟨hp, rfl⟩
  | @tail q _ _ hLast ih =>
    obtain ⟨hRoom, r', h', hCreate', rfl⟩ := hLast
    obtain ⟨r, h, hCreate, hIdle, hConfig, hCount, hFactory⟩ := ih.1.create_cases
    cases hCreate.symm.trans hCreate'
    refine ⟨⟨hFactory, ?_⟩, ?_⟩
    · change r'.liveCount ≤ r'.config.maxSize
      rw [hCount, hConfig]
      exact hRoom
    · rw [← ih.2]
      simp only [free, hIdle, hConfig, hCount, List.length_append, List.length_singleton]
      omega

/-- An attempt takes a free place; where there is none, it is queued or refused. -/
theorem Supplied.attempt (hp : p.Supplied) (hOpen : p.disposed = false) :
    (∃ r h, p.attempt = (r, .ready h) ∧ r.Supplied ∧ r.line = p.line ∧ r.free + 1 ≤ p.free) ∨
      (∃ r : Pool, p.attempt = (r.enqueue.1, .queued r.waiterCount) ∧ r.Supplied ∧ r.line = p.line ∧
        r.free = 0) ∨
      ∃ r e, p.attempt = (r, .refused e) ∧ r.Supplied ∧ r.line = p.line ∧ r.free = 0 := by
  obtain ⟨q, hEvicts, hEnd⟩ := attempt_cases hOpen
  obtain ⟨hq, hFree⟩ := hp.evictsFirst hEvicts
  have hLine : q.line = p.line := (onlyConnections_of_evictsFirst hEvicts).line
  rcases hEnd with ⟨h, rest, hIdle, -, hEnd⟩ | ⟨-, hRoom, hEnd⟩ | ⟨hIdle, hFull, -, hEnd⟩ |
    ⟨hIdle, hFull, -, hEnd⟩
  · -- an idle connection is handed out
    refine Or.inl ⟨_, h, hEnd, ⟨hq.factory, hq.room⟩, hLine, ?_⟩
    have hLess : (q.handOut h rest).free + 1 = q.free := by
      simp only [free, hIdle, List.length_cons, handOut, checkOut, modify, note]
      omega
    exact hLess.le.trans hFree
  · -- a new one is
    obtain ⟨r, h, hCreate, hIdle, hConfig, hCount, hFactory⟩ := hq.create_cases
    have hGrow : q.grow = (r.checkOut h, .ready h) := by
      rw [Pool.grow, hCreate]
    refine Or.inl ⟨r.checkOut h, h, hEnd.trans hGrow, ⟨hFactory, ?_⟩, ?_, ?_⟩
    · change r.liveCount ≤ r.config.maxSize
      rw [hCount, hConfig]
      exact hRoom
    · rw [← hLine, ← (create_onlyConnections hCreate).line]
      rfl
    · have hLess : (r.checkOut h).free + 1 = q.free := by
        simp only [free, checkOut, modify, hIdle, hConfig, hCount]
        omega
      exact hLess.le.trans hFree
  · -- the caller is queued
    have hNone : q.free = 0 := by
      simp only [free, hIdle, List.length_nil]
      omega
    exact Or.inr (Or.inl ⟨q, hEnd, hq, hLine, hNone⟩)
  · -- the caller is refused
    have hNone : q.free = 0 := by
      simp only [free, hIdle, List.length_nil]
      omega
    exact Or.inr (Or.inr ⟨_, _, hEnd, ⟨hq.factory, hq.room⟩, hLine, hNone⟩)

/-! ## Waiters -/

/-- The waiters of the callers who have not been given an outcome yet. Those who still wait are in
the queue, and if there are any, no more places are free than others have been woken up for, but for
the spare ones. -/
structure Wakeful (p : Pool) (waiters : List WaiterId) (spare : Nat) : Prop where
  isOpen : p.disposed = false
  supplied : p.Supplied
  numbered : p.Numbered
  lt : ∀ w ∈ waiters, w < p.waiterCount
  nodup : waiters.Nodup
  queued : ∀ w ∈ waiters, p.isCompleted w = false → w ∈ p.queue
  waits : ∀ w ∈ p.queue, p.isCompleted w = false → w ∈ waiters
  enough : (∃ w ∈ waiters, p.isCompleted w = false) →
    p.free ≤ waiters.countP p.isCompleted + spare

/-- It does not matter in which order the callers are listed. -/
theorem Wakeful.perm {waiters' : List WaiterId} (hp : p.Wakeful waiters spare)
    (hPerm : waiters.Perm waiters') : p.Wakeful waiters' spare where
  isOpen := hp.isOpen
  supplied := hp.supplied
  numbered := hp.numbered
  lt := fun w hw => hp.lt w (hPerm.mem_iff.2 hw)
  nodup := hPerm.nodup hp.nodup
  queued := fun w hw => hp.queued w (hPerm.mem_iff.2 hw)
  waits := fun w hw hNot => hPerm.mem_iff.1 (hp.waits w hw hNot)
  enough := fun ⟨w, hw, hNot⟩ => by
    rw [← hPerm.countP_eq]
    exact hp.enough ⟨w, hPerm.mem_iff.2 hw, hNot⟩

/-- What leaves the line alone only changes the number of free places. -/
theorem Wakeful.of_line {spare' : Nat} (hp : p.Wakeful waiters spare) (hLine : q.line = p.line)
    (hSupplied : q.Supplied) (hEnough : p.free ≤ waiters.countP p.isCompleted + spare →
      q.free ≤ waiters.countP p.isCompleted + spare') : q.Wakeful waiters spare' := by
  have hDone : q.isCompleted = p.isCompleted := funext (isCompleted_congr hLine)
  have hQueue : q.queue = p.queue := congrArg Line.queue hLine
  have hCount : q.waiterCount = p.waiterCount := congrArg Line.waiterCount hLine
  refine ⟨(congrArg Line.disposed hLine).trans hp.isOpen, hSupplied, hp.numbered.congr hLine, ?_,
    hp.nodup, ?_, ?_, ?_⟩
  · rw [hCount]
    exact hp.lt
  · rw [hDone, hQueue]
    exact hp.queued
  · rw [hDone, hQueue]
    exact hp.waits
  · rw [hDone]
    exact fun hWaits => hEnough (hp.enough hWaits)

theorem Wakeful.congr (hp : p.Wakeful waiters spare) (hLine : q.line = p.line)
    (hStock : q.stock = p.stock) : q.Wakeful waiters spare := by
  refine hp.of_line hLine (hp.supplied.of_stock hStock) fun hEnough => ?_
  rw [free_of_stock hStock]
  exact hEnough

theorem Wakeful.modify (hp : p.Wakeful waiters spare) (h : Handle) (f : Connection → Connection) :
    (p.modify h f).Wakeful waiters spare :=
  hp.of_line rfl ⟨hp.supplied.factory, hp.supplied.room⟩ id

/-- More places may be spare. -/
theorem Wakeful.mono {spare' : Nat} (hp : p.Wakeful waiters spare) (hLe : spare ≤ spare') :
    p.Wakeful waiters spare' :=
  hp.of_line rfl hp.supplied (by omega)

theorem countP_completed_cons (hDone : p.isCompleted w = true) :
    (w :: waiters).countP p.isCompleted = waiters.countP p.isCompleted + 1 :=
  List.countP_cons_of_pos hDone

/-- A caller who was woken and goes on leaves a place to spare. -/
theorem Wakeful.tail (hp : p.Wakeful (w :: waiters) spare) (hDone : p.isCompleted w = true) :
    p.Wakeful waiters (spare + 1) where
  isOpen := hp.isOpen
  supplied := hp.supplied
  numbered := hp.numbered
  lt := fun v hv => hp.lt v (List.mem_cons_of_mem _ hv)
  nodup := (List.nodup_cons.1 hp.nodup).2
  queued := fun v hv => hp.queued v (List.mem_cons_of_mem _ hv)
  waits := fun v hv hNot => by
    rcases List.mem_cons.1 (hp.waits v hv hNot) with rfl | hMem
    · cases hDone.symm.trans hNot
    · exact hMem
  enough := fun ⟨v, hv, hNot⟩ => by
    have hEnough := hp.enough ⟨v, List.mem_cons_of_mem _ hv, hNot⟩
    rw [countP_completed_cons hDone] at hEnough
    omega

theorem countP_completed_of_cons {v : WaiterId} (hCompleted : q.completed = v :: p.completed) :
    waiters.countP p.isCompleted ≤ waiters.countP q.isCompleted :=
  List.countP_mono_left fun u _ hu => (isCompleted_cons hCompleted u).2 (Or.inr hu)

/-- A waiter that is completed now counts as one more. -/
theorem countP_completed_lt {v : WaiterId} (hCompleted : q.completed = v :: p.completed)
    (hMem : v ∈ waiters) (hNot : p.isCompleted v = false) :
    waiters.countP p.isCompleted + 1 ≤ waiters.countP q.isCompleted := by
  have hSplit := List.perm_cons_erase hMem
  have hNow : q.isCompleted v = true := (isCompleted_cons hCompleted v).2 (Or.inl rfl)
  rw [hSplit.countP_eq, hSplit.countP_eq, countP_completed_cons hNow,
    List.countP_cons_of_neg (by rw [hNot]; exact Bool.false_ne_true)]
  exact Nat.add_le_add_right (countP_completed_of_cons hCompleted) 1

/-- What completes one more waiter and at most takes callers and waiters away. -/
theorem Wakeful.of_completed {waiters' : List WaiterId} {spare' : Nat}
    (hp : p.Wakeful waiters spare) (hStock : q.stock = p.stock) (hNumbered : q.Numbered)
    (hCount : q.waiterCount = p.waiterCount) (hCompleted : q.completed = w :: p.completed)
    (hSublist : waiters'.Sublist waiters)
    (hQueued : ∀ v ∈ p.queue, v ≠ w → p.isCompleted v = false → v ∈ q.queue)
    (hWaits : ∀ v ∈ q.queue, v ∈ p.queue ∧ (v ≠ w → v ∈ waiters → v ∈ waiters'))
    (hEnough : p.free ≤ waiters.countP p.isCompleted + spare →
      p.free ≤ waiters'.countP q.isCompleted + spare') : q.Wakeful waiters' spare' := by
  have hEarlier : ∀ v, q.isCompleted v = false → v ≠ w ∧ p.isCompleted v = false :=
    fun v => not_completed_of_cons hCompleted
  have hDisposed : q.disposed = p.disposed := congrArg Stock.disposed hStock
  refine ⟨hDisposed.trans hp.isOpen, hp.supplied.of_stock hStock, hNumbered, ?_,
    hp.nodup.sublist hSublist, ?_, ?_, ?_⟩
  · rw [hCount]
    exact fun v hv => hp.lt v (hSublist.subset hv)
  · intro v hv hNow
    obtain ⟨hNe, hBefore⟩ := hEarlier v hNow
    exact hQueued v (hp.queued v (hSublist.subset hv) hBefore) hNe hBefore
  · intro v hv hNow
    obtain ⟨hNe, hBefore⟩ := hEarlier v hNow
    obtain ⟨hMem, hStays⟩ := hWaits v hv
    exact hStays hNe (hp.waits v hMem hBefore)
  · rintro ⟨v, hv, hNow⟩
    rw [free_of_stock hStock]
    exact hEnough (hp.enough ⟨v, hSublist.subset hv, (hEarlier v hNow).2⟩)

/-- A caller who stops waiting completes its waiter by itself. -/
theorem Wakeful.giveUp (hp : p.Wakeful (w :: waiters) spare) (hNot : p.isCompleted w = false) :
    (p.complete w).Wakeful waiters spare := by
  have hCompleted : (p.complete w).completed = w :: p.completed := by
    rw [complete_of_not_completed hNot]
  have hQueue : (p.complete w).queue = p.queue := by
    rw [complete_of_not_completed hNot]
  have hCount : (p.complete w).waiterCount = p.waiterCount := by
    rw [complete_of_not_completed hNot]
  refine hp.of_completed (complete_onlyWaiters p w).stock
    (hp.numbered.complete (hp.lt w List.mem_cons_self)) hCount hCompleted
    (List.sublist_cons_self w waiters) ?_ ?_ fun hEnough => ?_
  · rw [hQueue]
    exact fun v hv _ _ => hv
  · rw [hQueue]
    exact fun v hv => ⟨hv, fun hNe hMem => (List.mem_cons.1 hMem).resolve_left hNe⟩
  · rw [List.countP_cons_of_neg (by rw [hNot]; exact Bool.false_ne_true)] at hEnough
    exact hEnough.trans (Nat.add_le_add_right (countP_completed_of_cons hCompleted) _)

/-- A wakeup takes care of a spare place. -/
theorem Wakeful.wakeNext (hp : p.Wakeful waiters (spare + 1)) :
    p.wakeNext.Wakeful waiters spare := by
  have hNumbered := hp.numbered.wakeNext
  have hStock := (wakeNext_onlyWaiters p).stock
  rcases wakeNext_cases p with ⟨hAll, hEq⟩ | ⟨done, w, rest, hQueue, hAll, hNot, hEq⟩
  · -- Nobody waits.
    have hNobody : ∀ v ∈ waiters, ¬ p.isCompleted v = false := by
      intro v hv hNot
      cases (hAll v (hp.queued v hv hNot)).symm.trans hNot
    rw [hEq] at hNumbered hStock ⊢
    exact ⟨hp.isOpen, hp.supplied.of_stock hStock, hNumbered, hp.lt, hp.nodup,
      fun v hv hNot => absurd hNot (hNobody v hv), fun v hv => absurd hv List.not_mem_nil,
      fun ⟨v, hv, hNot⟩ => absurd hNot (hNobody v hv)⟩
  · -- The first waiter that was not completed is completed now.
    rw [hEq] at hNumbered hStock ⊢
    refine hp.of_completed hStock hNumbered rfl rfl (List.Sublist.refl _) ?_ ?_ fun hEnough => ?_
    · intro v hv hNe hBefore
      rw [hQueue] at hv
      rcases List.mem_append.1 hv with hv | hv
      · cases (hAll v hv).symm.trans hBefore
      · exact (List.mem_cons.1 hv).resolve_left hNe
    · intro v hv
      refine ⟨?_, fun _ hMem => hMem⟩
      rw [hQueue]
      exact List.mem_append_right _ (List.mem_cons_of_mem _ hv)
    · have hWoken : w ∈ waiters := by
        refine hp.waits w ?_ hNot
        rw [hQueue]
        exact List.mem_append_right _ List.mem_cons_self
      have hOne := countP_completed_lt
        (q := { p with queue := rest, completed := w :: p.completed }) rfl hWoken hNot
      omega

/-! ## Operations of the pool -/

/-- A caller who is queued has a waiter of its own, which nobody has completed. -/
theorem Wakeful.enqueue (hp : p.Wakeful waiters spare) (hNone : p.free = 0) :
    p.enqueue.1.Wakeful (p.waiterCount :: waiters) 0 := by
  have hOld : ∀ v ∈ waiters, v ≠ p.waiterCount := fun v hv => Nat.ne_of_lt (hp.lt v hv)
  have hSupplied : p.enqueue.1.Supplied := hp.supplied.of_stock (enqueue_sameStock p).stock
  refine ⟨hp.isOpen, hSupplied, hp.numbered.enqueue, ?_, ?_, ?_, ?_, ?_⟩
  · -- lt
    intro v hv
    rcases List.mem_cons.1 hv with rfl | hv
    · exact Nat.lt_succ_self _
    · exact Nat.lt_succ_of_lt (hp.lt v hv)
  · -- nodup
    exact List.nodup_cons.2 ⟨fun hMem => hOld _ hMem rfl, hp.nodup⟩
  · -- queued
    intro v hv hNot
    rcases List.mem_cons.1 hv with rfl | hv
    · exact List.mem_append_right _ List.mem_cons_self
    · exact List.mem_append_left _ (hp.queued v hv hNot)
  · -- waits
    intro v hv hNot
    rcases List.mem_append.1 hv with hv | hv
    · exact List.mem_cons_of_mem _ (hp.waits v hv hNot)
    · rw [List.mem_singleton.1 hv]
      exact List.mem_cons_self
  · -- enough
    intro _
    rw [free_of_stock (enqueue_sameStock p).stock, hNone]
    exact Nat.zero_le _

/-- An attempt uses a spare place if it is given a connection, and otherwise there is none. -/
theorem Wakeful.attempt (hp : p.Wakeful waiters 1) :
    p.attempt.1.Wakeful (p.attempt.2.waiters ++ waiters) 0 := by
  rcases hp.supplied.attempt hp.isOpen with ⟨r, h, hEq, hr, hLine, hFree⟩ |
    ⟨r, hEq, hr, hLine, hNone⟩ | ⟨r, e, hEq, hr, hLine, hNone⟩
  · have hTaken : r.Wakeful waiters 0 := hp.of_line hLine hr (by omega)
    rw [hEq]
    exact hTaken
  · have hStays : r.Wakeful waiters 1 := hp.of_line hLine hr (by omega)
    rw [hEq]
    exact hStays.enqueue hNone
  · have hFull : r.Wakeful waiters 0 := hp.of_line hLine hr (by omega)
    rw [hEq]
    exact hFull

/-- Whoever goes on after its wait leaves a place to spare, if it was woken, or its waiter. -/
theorem Wakeful.timeOut (hp : p.Wakeful (w :: waiters) 0) : (p.timeOut w).Wakeful waiters 1 := by
  cases hDone : p.isCompleted w with
  | true =>
    rw [timeOut_of_completed hDone]
    exact hp.tail hDone
  | false =>
    have hFree : (p.timeOut w).free = (p.complete w).free :=
      free_of_stock ((timeOut_sameStock p w).stock.trans (complete_onlyWaiters p w).stock.symm)
    exact (hp.giveUp hDone).of_line (timeOut_line p w)
      (hp.supplied.of_stock (timeOut_sameStock p w).stock)
      (by omega)

/-- Waits that end without a connection leave the spare place spare. -/
theorem Wakeful.waitsOut (hp : p.Wakeful waiters 1) (hWaits : ReflTransGen WaitsOut p q) :
    q.Wakeful waiters 1 := by
  induction hWaits with
  | refl => exact hp
  | tail _ hLast ih =>
    obtain ⟨r, w, hAttempt, rfl⟩ := hLast
    have hQueued := ih.attempt
    rw [hAttempt] at hQueued
    exact hQueued.timeOut

/-- After the call of a woken caller no place is spare any more. -/
theorem Wakeful.callEnds {handles : List Handle} (hp : p.Wakeful waiters 1)
    (hEnds : p.CallEnds q handles) : q.Wakeful waiters 0 := by
  obtain ⟨r, hWaits, rfl, -, hNotQueued⟩ := hEnds
  have hEnd := (hp.waitsOut hWaits).attempt
  cases hOutcome : r.attempt.2 with
  | queued w => exact absurd hOutcome (hNotQueued hp.numbered w)
  | ready h =>
    rw [hOutcome] at hEnd
    exact hEnd
  | refused e =>
    rw [hOutcome] at hEnd
    exact hEnd

/-- A release frees a place and wakes a caller. -/
theorem Wakeful.release (hp : p.Wakeful waiters 0) (h : Handle) :
    (p.release h).Wakeful waiters 0 := by
  obtain ⟨q, hSettled, hEq⟩ := release_cases p h
  have hStock : q.stock = (p.release h).stock := by
    rw [hEq]
    exact (wakeNext_onlyWaiters q).stock.symm
  have hReturned : (p.modify h (Connection.markUsed false)).Supplied :=
    ⟨hp.supplied.factory, hp.supplied.room⟩
  have hFreed : (p.release h).Supplied ∧ (p.release h).free ≤ p.free + 1 := by
    have hEnd := release_stock p h
    split at hEnd
    · -- the connection was dead or the pool disposed of
      obtain ⟨hSupplied, hFree⟩ := hReturned.destroy h
      refine ⟨hSupplied.of_stock hEnd, ?_⟩
      rw [free_of_stock hEnd]
      exact hFree
    · have hIdle : (p.release h).stock =
          ({ p.modify h (Connection.markUsed false) with idle := p.idle ++ [h] } : Pool).stock :=
        hEnd
      have hSupplied :
          ({ p.modify h (Connection.markUsed false) with idle := p.idle ++ [h] } : Pool).Supplied :=
        ⟨hp.supplied.factory, hp.supplied.room⟩
      refine ⟨hSupplied.of_stock hIdle, ?_⟩
      rw [free_of_stock hIdle]
      simp only [free, Pool.modify, List.length_append, List.length_singleton]
      omega
  have hFree : q.free = (p.release h).free := free_of_stock hStock
  have hSpare : q.Wakeful waiters 1 :=
    hp.of_line hSettled.line (hFreed.1.of_stock hStock) (by omega)
  rw [hEq]
  exact hSpare.wakeNext

/-- Opening connections in advance frees no place. -/
theorem Wakeful.openMinimum (hp : p.Wakeful waiters 0) : p.openMinimum.Wakeful waiters 0 := by
  have hOpened : p.openMinimum.Supplied ∧ p.openMinimum.free = p.free := by
    obtain ⟨q, hOpens, hEnd | ⟨r, e, hCreate, -⟩⟩ := openMinimum_cases p
    · rw [hEnd]
      exact hp.supplied.opensOne hOpens
    · obtain ⟨r', h, hCreate', -⟩ := (hp.supplied.opensOne hOpens).1.create_cases
      cases hCreate'.symm.trans hCreate
  exact hp.of_line (openMinimum_onlyConnections p).line hOpened.1 (by omega)

/-- A caller who gives a wait up hands on a wakeup that it was given. -/
theorem Wakeful.abandon (hp : p.Wakeful (w :: waiters) 0) : (p.abandon w).Wakeful waiters 0 := by
  unfold Pool.abandon
  split
  · have hNoted : (p.note .debug "abandoned wait was signaled, waking next").Wakeful waiters 1 :=
      (hp.tail ‹_›).congr rfl rfl
    exact hNoted.wakeNext
  · exact hp.giveUp (Bool.eq_false_iff.2 ‹_›)

end StoreClient.Pool
