import StoreClient.Proofs.Pool.Queue
import StoreClient.Proofs.Pool.Runs
import StoreClient.Proofs.Pool.Spares

/-!
# The turn of a caller that was woken

A connection that is given back to a pool with no idle ones is the first of them. It stays the first
one until somebody calls for a connection, unless the pool is disposed of in between, which closes
it. So the caller that was woken is given this connection if it is the next one to be polled and the
connection is still fit for use.
-/

namespace StoreClient

namespace Pool

variable {p q : Pool} {c h : Handle} {op : Op}

/-- Whether an operation wakes the next caller: a connection is given back, or somebody gives up a
wait for which he was woken. -/
def wakes (p : Pool) : Op → Bool
  | .release _ => true
  | .abandon w => p.isCompleted w
  | _ => false

/-- An operation that wakes somebody completes the waiter that was queued first, of those that still
wait. -/
theorem InOrder.apply_completed (hp : p.InOrder) (hWakes : p.wakes op = true) :
    (p.apply op).completed = p.earliest.toList ++ p.completed := by
  cases op with
  | release h => exact hp.release_completed h
  | abandon w => exact hp.abandon_completed hWakes
  | _ => cases hWakes

/-! ## The first of the idle connections -/

/-- New connections are idle behind the old ones. -/
theorem openMinimum_idle (p : Pool) : p.idle <+: p.openMinimum.idle := by
  refine openMinimum_induction (P := fun q => p.idle <+: q.idle) (List.prefix_refl _)
    (fun q r hq hOpens => ?_) fun q r e hq hCreate => ?_
  · obtain ⟨-, r, h, hCreate, rfl⟩ := hOpens
    obtain ⟨k, -, -, -, -, hIdle, -⟩ := create_new hCreate
    show p.idle <+: r.idle ++ [h]
    rw [hIdle]
    exact hq.trans (List.prefix_append _ _)
  · obtain ⟨-, -, hIdle, -⟩ := create_failed hCreate
    show p.idle <+: r.idle
    rw [hIdle]
    exact hq

/-- A connection that is given back is idle afterwards, unless it is dead or the pool was disposed
of. -/
theorem release_idle_eq (p : Pool) (h : Handle) :
    (p.release h).idle = if p.isDead h || p.disposed then p.idle else p.idle ++ [h] := by
  have hStill : (p.modify h (Connection.markUsed false)).isDead h = p.isDead h :=
    isDead_modify p h (f := Connection.markUsed false) (fun _ => rfl) h
  have hSame : (p.modify h (Connection.markUsed false)).disposed = p.disposed := rfl
  unfold release
  dsimp only
  refine (congrArg Stock.idle (wakeNext_onlyWaiters _).stock).trans ?_
  rw [hStill, hSame]
  cases p.isDead h with
  | true => exact evict_idle _ h
  | false =>
    cases p.disposed with
    | true => exact destroy_idle _ h
    | false => rfl

theorem release_idle (p : Pool) (h : Handle) : p.idle <+: (p.release h).idle := by
  rw [release_idle_eq]
  split
  · exact List.prefix_refl _
  · exact List.prefix_append _ _

/-- A connection that is given back alive is idle behind the others. -/
theorem release_idle_of_alive (hOpen : p.disposed = false) (hAlive : p.isDead h = false) :
    (p.release h).idle = p.idle ++ [h] := by
  rw [release_idle_eq, hAlive, hOpen]
  rfl

/-- The connection is the first of the idle ones, or the pool was disposed of. -/
def Offers (p : Pool) (c : Handle) : Prop := p.disposed = true ∨ [c] <+: p.idle

/-- Unless somebody tries to get a connection, the first idle one stays the first. -/
theorem Offers.apply (hp : p.Offers c) (hNot : op ≠ .attempt) : (p.apply op).Offers c := by
  rcases hp with hDisposed | hFirst
  · exact Or.inl (WindsDown.apply hDisposed op).disposed
  · have hKept (hIdle : (p.apply op).idle = p.idle) : (p.apply op).Offers c := by
      refine Or.inr ?_
      rw [hIdle]
      exact hFirst
    cases op with
    | openMinimum => exact Or.inr (hFirst.trans (openMinimum_idle p))
    | attempt => exact absurd rfl hNot
    | timeOut w => exact hKept (congrArg Stock.idle (timeOut_sameStock p w).stock)
    | abandon w => exact hKept (congrArg Stock.idle (abandon_onlyWaiters p w).stock)
    | release h => exact Or.inr (hFirst.trans (release_idle p h))
    | dispose => exact Or.inl (dispose_disposed p)
    | setDead | shut | returning | cycleBuffers => exact hKept rfl

/-- A connection that is given back alive while none is idle is the next one to be handed out. -/
theorem offers_release (hIdle : p.idle = []) (hAlive : p.isDead c = false) :
    (p.release c).Offers c := by
  cases hDisposed : p.disposed with
  | true => exact Or.inl (WindsDown.release hDisposed c).disposed
  | false =>
    refine Or.inr ?_
    rw [release_idle_of_alive hDisposed hAlive, hIdle]
    exact List.prefix_refl _

/-- Who attempts to get a connection gets the one that is offered. -/
theorem attempt_of_offers (hp : p.Offers c) (hOpen : p.disposed = false)
    (hAlive : p.isDead c = false) : ∃ rest, p.attempt = (p.handOut c rest, .ready c) := by
  have hFirst : [c] <+: p.idle := hp.resolve_left (by simp [hOpen])
  obtain ⟨rest, hIdle⟩ := hFirst
  have hTake : p.takeIdle p.idle = (p.handOut c rest, some c) := by
    rw [← hIdle, List.singleton_append, takeIdle, hAlive]
    rfl
  refine ⟨rest, ?_⟩
  unfold attempt
  rw [hOpen, if_neg Bool.false_ne_true, hTake]

/-- A call that goes on gets the connection that is offered. -/
theorem acquireStep_of_offers (hp : p.Offers c) (hOpen : p.disposed = false)
    (hAlive : p.isDead c = false) :
    ∃ rest, p.acquireStep = (p.handOut c rest, .done (.ok c)) := by
  obtain ⟨rest, hAttempt⟩ := attempt_of_offers hp hOpen hAlive
  have hCall (waits : Nat) : p.acquireWithin waits = (p.handOut c rest, .ok c) := by
    cases waits with
    | zero => rw [acquireWithin, hAttempt]
    | succ waits => rw [acquireWithin, hAttempt]
  refine ⟨rest, ?_⟩
  unfold acquireStep
  split
  · rw [acquire, hCall]
  · rw [hAttempt]

theorem idOf_handOut (p : Pool) (h : Handle) (rest : List Handle) (g : Handle) :
    (p.handOut h rest).idOf g = p.idOf g :=
  idOf_congr (ids_modify p h (f := Connection.markUsed true) fun _ => rfl) g

end Pool

namespace Session

open Pool

variable {s : Session} {st : Step} {ops : List Op} {result : Session × Answer} {u : Use}
  {c : Handle} {n : Nat} {t : Task}

/-- Where a step gives a connection back and nobody calls, it does nothing else but note it. -/
theorem Performs.of_release (h : s.Performs st ops result)
    (hNoCall : (Use.step st).isCall = false) (hGiven : Op.release c ∈ ops) :
    ops = [.release c] ∨ ops = [.returning c, .release c] := by
  cases h with
  | idle | drop => cases hGiven
  | operation hOperates => cases hOperates <;> simp at hGiven
  | release i slot =>
    have hSame : c = slot.handle := by simpa using hGiven
    rw [hSame]
    exact Or.inl rfl
  | dropGuard i slot =>
    have hSame : c = slot.handle := by simpa using hGiven
    rw [hSame]
    exact Or.inr rfl
  | cancel => simp at hGiven
  | call guarded before hCalls => cases hCalls <;> cases hNoCall
  | start | poll => cases hNoCall

/-- Where a connection is given back and nobody calls, this is all that happens, but for a disposal
of the pool at the end. -/
theorem useOps_release (hNoCall : u.isCall = false) (hGiven : Op.release c ∈ s.useOps u) :
    ∃ before after, s.useOps u = before ++ .release c :: after ∧
      (before = [] ∨ before = [.returning c]) := by
  cases u with
  | giveBack h =>
    rw [useOps] at hGiven ⊢
    split at hGiven
    · have hSame : c = h := by simpa using hGiven
      rw [if_pos ‹_›, hSame]
      exact ⟨[], [], rfl, Or.inl rfl⟩
    · cases hGiven
  | step st =>
    have hEnd : Op.release c ∉ (if (s.perform st).1.isHeld then [] else [.dispose] : List Op) := by
      split <;> simp
    rw [useOps] at hGiven ⊢
    have hStep := (List.mem_append.1 hGiven).resolve_right hEnd
    rcases (s.performs st).of_release hNoCall hStep with hOps | hOps
    · exact ⟨[], _, congrArg (· ++ _) hOps, Or.inl rfl⟩
    · exact ⟨[.returning c], _, congrArg (· ++ _) hOps, Or.inr rfl⟩

/-- In a use that gives a connection back nobody gets one afterwards. -/
theorem use_of_release (hNoCall : u.isCall = false) (hGiven : Op.release c ∈ s.useOps u) :
    ∃ (p : Pool) (after : List Op), p.stock = s.pool.stock ∧ .attempt ∉ after ∧
      (s.use u).pool = (p.release c).applyAll after := by
  obtain ⟨before, after, hOps, hBefore⟩ := useOps_release hNoCall hGiven
  have hNot := attempt_notMem_useOps (s := s) hNoCall
  rw [hOps] at hNot
  refine ⟨s.pool.applyAll before, after, ?_, fun hMem => hNot ?_, ?_⟩
  · rcases hBefore with rfl | rfl <;> rfl
  · exact List.mem_append_right _ (List.mem_cons_of_mem _ hMem)
  · rw [use_pool, hOps, applyAll_append]
    rfl

/-- A use that gives a connection back alive, while none is idle, offers it. -/
theorem offers_use (hNoCall : u.isCall = false) (hGiven : Op.release c ∈ s.useOps u)
    (hIdle : s.pool.idle = []) (hAlive : s.pool.isDead c = false) : (s.use u).pool.Offers c := by
  obtain ⟨p, after, hStock, hNot, hPool⟩ := use_of_release hNoCall hGiven
  have hNone : p.idle = [] := (congrArg Stock.idle hStock).trans hIdle
  have hStill : p.isDead c = false :=
    (isDead_congr (congrArg Stock.connections hStock) c).trans hAlive
  rw [hPool]
  exact applyAll_induction_of_forall (P := fun q => q.Offers c) (fun _ _ hOp hq => hq.apply hOp)
    (fun _ hOp => ne_of_mem_of_not_mem hOp hNot) (offers_release hNone hStill)

/-- A connection that was given back is not in use. -/
theorem spare_use (hNoCall : u.isCall = false) (hGiven : Op.release c ∈ s.useOps u)
    (hs : s.pool.disposed = false → s.pool.Traced) : (s.use u).pool.Spare c := by
  obtain ⟨p, after, hStock, hNot, hPool⟩ := use_of_release hNoCall hGiven
  have hDisposed : p.disposed = s.pool.disposed := congrArg Stock.disposed hStock
  have hTraced : p.disposed = false → p.Traced := by
    intro hOpen
    exact (hs (hDisposed.symm.trans hOpen)).of_stock hStock
  rw [hPool]
  exact applyAll_induction_of_forall (P := fun q => q.Spare c) (fun _ _ hOp hq => hq.apply hOp)
    (fun _ hOp => ne_of_mem_of_not_mem hOp hNot) (spare_release hTraced c)

/-- A caller that was woken and is polled is given the first idle connection, if this is not
dead. -/
theorem poll_of_offers (hTask : s.task? n = some t) (hDone : s.pool.isCompleted t.waiter = true)
    (hOffers : s.pool.Offers c) (hOpen : s.pool.disposed = false)
    (hAlive : s.pool.isDead c = false) :
    (s.step (.poll n)).2 = .checkedOut (s.pool.idOf c) s.slots.length ∧
      (s.step (.poll n)).1.slots = s.slots ++ [some { handle := c, guarded := t.guarded }] := by
  obtain ⟨rest, hStep⟩ := acquireStep_of_offers hOffers hOpen hAlive
  have hPerform : s.perform (.poll n) =
      ({ s with pool := s.pool.handOut c rest }.removeTask t.number).deliver t.guarded (.ok c) := by
    rw [perform, hTask]
    simp only [pollTask, hDone, if_true, advanceTask, hStep]
  rw [step_eq, settle_slots, hPerform]
  refine ⟨?_, rfl⟩
  rw [← idOf_handOut s.pool c rest c]
  rfl

/-- Wakeups go to callers in the order in which these were queued, whatever is done to a pool. A
connection that is given back, and a caller that gives up after it was woken, complete the waiter
that was queued first of those that nobody has completed, and no other one. No waiter leaves the
queue until it is completed, and none is completed twice.

If no connection is idle when one is given back that is not dead, a caller that was woken by then is
given it in the next poll, whatever else but a call happens in between: the connection must not be
dead then, and the pool not disposed of. The latter is so if the connection is not closed and the
factory gives no id twice. -/
theorem first_come_first_served (endpoint : Endpoint) (config : PoolConfig)
    (factory : List FactoryOutcome) :
    (∀ (ops : List Op) (op : Op),
      let p := (fresh endpoint config factory).applyAll ops
      let q := p.apply op
      (p.wakes op = true → q.completed = p.earliest.toList ++ p.completed) ∧
        (∀ w ∈ p.queue, p.isCompleted w = false → w ∈ q.queue ∨ q.isCompleted w = true) ∧
        p.completed <:+ q.completed ∧ q.completed.Nodup) ∧
    ∀ (uses : List Use) (u : Use) (between : List Use) (c : Handle) (n : Nat) (t : Task),
      let s := useAll { pool := fresh endpoint config factory } uses
      let r := (s.use u).useAll between
      Op.release c ∈ s.useOps u → s.pool.idle = [] → s.pool.isDead c = false →
      (∀ v ∈ u :: between, v.isCall = false) →
      (s.use u).pool.isCompleted t.waiter = true → r.task? n = some t →
      r.pool.isDead c = false →
      (r.pool.disposed = false ∨ KeepsIds 1 factory ∧ r.pool.isOpen c = true) →
        (r.step (.poll n)).2 = .checkedOut (r.pool.idOf c) r.slots.length ∧
          (r.step (.poll n)).1.slots = r.slots ++ [some { handle := c, guarded := t.guarded }] := by
  refine ⟨fun ops op => ?_, fun uses u between c n t => ?_⟩
  · intro p q
    have hp : p.InOrder := inOrder_applyAll endpoint config factory ops
    have hCompletes : p.Completes q := completes_apply p op
    refine ⟨hp.apply_completed, fun w hw _ => hp.queued_or_completed op hw, hCompletes.suffix, ?_⟩
    exact hCompletes.nodup hp.once
  · intro s r hGiven hIdle hAlive hNoCalls hDone hTask hStill hFit
    have hFirst : u.isCall = false := hNoCalls u List.mem_cons_self
    have hBetween : ∀ v ∈ between, v.isCall = false := fun v hv =>
      hNoCalls v (List.mem_cons_of_mem _ hv)
    have hOffers : r.pool.Offers c :=
      useAll_induction_of_noCalls (P := fun q => q.Offers c) (fun _ _ hOp hq => hq.apply hOp)
        (offers_use hFirst hGiven hIdle hAlive) hBetween
    have hCompletes : (s.use u).pool.Completes r.pool :=
      useAll_induction (fun q op hq => hq.trans (completes_apply q op)) (Completes.of_line rfl)
        between
    have hOpen : r.pool.disposed = false := by
      rcases hFit with hOpen | ⟨hIds, hOpen⟩
      · exact hOpen
      · have hTraced : s.pool.disposed = false → s.pool.Traced :=
          useAll_induction (P := fun q => q.disposed = false → q.Traced)
            (fun q op hq => traced_apply hq op) (fun _ => traced_fresh endpoint config hIds) uses
        have hSpare : r.pool.Spare c :=
          useAll_induction_of_noCalls (P := fun q => q.Spare c) (fun _ _ hOp hq => hq.apply hOp)
            (spare_use hFirst hGiven hTraced) hBetween
        refine Bool.eq_false_iff.2 fun hDisposed => ?_
        cases hOpen.symm.trans (hSpare.closed hDisposed)
    exact poll_of_offers hTask (hCompletes.isCompleted hDone) hOffers hOpen hStill

/-- The first of three callers times out, so that the second one is woken. Of two calls that wait
for the only connection the first one is woken, and takes it when the second one has given up. -/
theorem second_woken_and_first_served :
    ((fresh ⟨.v4 [127, 0, 0, 1], 11210⟩ { maxSize := 1 } []).applyAll
      [.attempt, .attempt, .attempt, .attempt, .timeOut 0, .release 0]).completed = [1, 0] ∧
    (((useAll { pool := fresh ⟨.v4 [127, 0, 0, 1], 11210⟩ { maxSize := 1 } [] }
      [.step (.acquire true), .step (.start false), .step (.start false), .step (.drop 0),
        .step (.cancel 1), .step .openMinimum]).step (.poll 0)).1.slots =
          [none, some { handle := 0, guarded := false }]) := by
  obtain ⟨hWakeups, hTurns⟩ :=
    first_come_first_served ⟨.v4 [127, 0, 0, 1], 11210⟩ { maxSize := 1 } []
  obtain ⟨hWoken, -⟩ :=
    hWakeups [.attempt, .attempt, .attempt, .attempt, .timeOut 0] (.release 0)
  obtain ⟨-, hServed⟩ :=
    hTurns [.step (.acquire true), .step (.start false), .step (.start false)] (.step (.drop 0))
      [.step (.cancel 1), .step .openMinimum] 0 0
      { number := 0, waiter := 0, deadline := 2500, guarded := false }
      (List.mem_cons_of_mem _ List.mem_cons_self) (by decide +kernel) (by decide +kernel)
      (by decide +kernel) (by decide +kernel) (by decide +kernel) (by decide +kernel)
      (Or.inl (by decide +kernel))
  exact ⟨(hWoken rfl).trans (by decide +kernel), hServed.trans (by decide +kernel)⟩

end Session

end StoreClient
