import StoreClient.Proofs.Pool.Disposal

/-!
# What is left of a pool that was disposed of

The disposal parts with every live connection except those that are in use, which are closed as soon
as they are given back, and those that closed by themselves. The latter keep their entries in the
registry. One that a caller holds loses its entry when it is given back. One that is idle is dropped
from the idle ones, nobody can give it back, and its entry and its place in the count are there for
good.
-/

namespace StoreClient

namespace Pool

variable {p q : Pool} {g h : Handle} {live handles others : List Handle}

/-- Whether the connection of a handle was closed. -/
def isShut (p : Pool) (h : Handle) : Bool := (p.connection? h).any (·.shutdown)

/-- Whether the connection of a handle is live after the disposal if it is so before. -/
def outlives (p : Pool) (h : Handle) : Bool := p.isShut h || p.isUsed h

/-! ## Disposal -/

theorem connection?_retire_of_ne (p : Pool) (hNe : g ≠ h) :
    (p.retire h).connection? g = p.connection? g := by
  unfold retire
  cases p.connection? h with
  | none => rfl
  | some c =>
    dsimp only
    split
    · rfl
    · split
      · exact connection?_modify_of_ne _ _ hNe
      · obtain ⟨metrics, hEq⟩ := destroy_eq p h
        rw [hEq]
        exact connection?_modify_of_ne p _ hNe

theorem outlives_retire_of_ne (p : Pool) (hNe : g ≠ h) :
    (p.retire h).outlives g = p.outlives g := by
  rw [outlives, isShut, isUsed, connection?_retire_of_ne p hNe]
  rfl

/-- A live connection that is closed or in use is left alone, any other is destroyed. -/
theorem retire_cases (hMade : h < p.connections.length) :
    (p.outlives h = true ∧ (p.retire h).books = p.books) ∨
      (p.outlives h = false ∧ p.retire h = p.destroy h) := by
  have hConnection : p.connection? h = some p.connections[h] := List.getElem?_eq_getElem hMade
  have hOutlives : p.outlives h = (p.connections[h].shutdown || p.connections[h].used) := by
    rw [outlives, isShut, isUsed, hConnection]
    rfl
  unfold retire
  rw [hOutlives, hConnection]
  dsimp only
  cases p.connections[h].shutdown with
  | true => exact Or.inl ⟨rfl, rfl⟩
  | false =>
    cases p.connections[h].used with
    | true => exact Or.inl ⟨rfl, modify_books _ h fun _ => rfl⟩
    | false => exact Or.inr ⟨rfl, rfl⟩

/-- The pool parts with some of its live connections, one after the other. -/
theorem Tracked.retireAll (hp : p.Tracked (handles ++ others)) :
    (handles.foldl retire p).Tracked (handles.filter p.outlives ++ others) := by
  induction handles generalizing p others with
  | nil => exact hp
  | cons h rest ih =>
    have hMade := hp.made h List.mem_cons_self
    rw [ids, List.length_map] at hMade
    have hFresh : h ∉ rest := fun hMem =>
      (List.nodup_cons.1 hp.nodup).1 (List.mem_append_left _ hMem)
    -- What happens to one connection does not change what will happen to the others.
    have hSame : rest.filter (p.retire h).outlives = rest.filter p.outlives := by
      refine List.filter_congr fun g hg => outlives_retire_of_ne p ?_
      rintro rfl
      exact hFresh hg
    rcases retire_cases hMade with ⟨hOutlives, hBooks⟩ | ⟨hOutlives, hEq⟩
    · have hKept : (p.retire h).Tracked (rest ++ h :: others) :=
        (hp.of_books hBooks).perm List.perm_middle.symm
      rw [List.foldl_cons, List.filter_cons_of_pos hOutlives, ← hSame]
      exact (ih hKept).perm List.perm_middle
    · have hGone : (p.retire h).Tracked (rest ++ others) := by
        rw [hEq]
        exact hp.destroy
      have hNot : ¬ p.outlives h = true := Bool.eq_false_iff.1 hOutlives
      rw [List.foldl_cons, List.filter_cons_of_neg hNot, ← hSame]
      exact ih hGone

theorem Tracked.registry_perm (hp : p.Tracked live) : (p.registry.map (·.2)).Perm live := by
  have hHandles : (live.map fun h => (p.idOf h, h)).map (·.2) = live := by
    rw [List.map_map]
    exact List.map_id live
  exact (hp.registry.map _).trans (List.Perm.of_eq hHandles)

/-- After a disposal those connections are live that outlive it. -/
theorem Tracked.dispose (hp : p.Tracked live) (hOpen : p.disposed = false) :
    p.dispose.Tracked (live.filter p.outlives) := by
  have hMarked : ({ p with disposed := true } : Pool).Tracked (p.registry.map (·.2) ++ []) := by
    rw [List.append_nil]
    exact (hp.perm hp.registry_perm.symm).congr rfl rfl rfl rfl rfl rfl
  have hRetired : p.retired.Tracked (live.filter p.outlives) := by
    refine hMarked.retireAll.perm ?_
    rw [List.append_nil]
    exact hp.registry_perm.filter _
  obtain ⟨log, hEq⟩ := dispose_of_open hOpen
  rw [hEq]
  exact hRetired.of_books (foldl_complete_onlyWaiters p.retired p.retired.queue).books

theorem Tracked.release_of_disposed (hp : p.Tracked (h :: live)) (hDisposed : p.disposed = true) :
    (p.release h).Tracked live := by
  have hReturned : (p.modify h (Connection.markUsed false)).Tracked (h :: live) :=
    hp.of_books (modify_books p h fun _ => rfl)
  exact hReturned.destroy.of_stock (release_stock_of_disposed hDisposed h)

/-- Of the idle connections, those that were closed outlive the disposal; of those that callers
hold, all do. -/
theorem Owned.dispose (hp : p.Owned [] live) (hOpen : p.disposed = false) :
    p.dispose.Tracked (live ++ p.idle.filter p.isShut) := by
  have hIdle : p.idle.filter p.outlives = p.idle.filter p.isShut := by
    refine List.filter_congr fun h hh => ?_
    rw [outlives, hp.unused h hh, Bool.or_false]
  have hHeld : live.filter p.outlives = live := by
    refine List.filter_eq_self.2 fun h hh => ?_
    rw [outlives, hp.used h hh, Bool.or_true]
  have hDisposed := hp.tracked.dispose hOpen
  rw [List.nil_append, List.filter_append, hIdle, hHeld] at hDisposed
  exact hDisposed.perm List.perm_append_comm

end Pool

namespace Custody

open Pool Session

variable {c : Custody} {st : Step} {left : List Handle}

/-- A pool that was disposed of, and the live connections that nobody holds. -/
structure Draining (c : Custody) (left : List Handle) : Prop where
  placed : c.Placed
  disposed : c.session.pool.disposed = true
  tracked : c.session.pool.Tracked (c.held.map (·.2) ++ left)

/-! ## Steps -/

/-- A step that fills no slot hands nothing out. -/
theorem Placed.of_emptied (hc : c.Placed)
    (hEmptied : Emptied c.session.slots (c.session.step st).1.slots) :
    (c.step st).Placed ∧ (c.step st).held = c.kept st := by
  have hSlots : (c.session.step st).1.slots =
      (c.session.step st).1.slots ++ slotsOf false [] := (List.append_nil _).symm
  refine ⟨hc.step hEmptied hSlots, ?_⟩
  rw [step_held hEmptied hSlots]
  exact List.append_nil _

/-- A pool is disposed of at once, or while another caller calls for a connection. -/
theorem perform_disposal (s : Session) (hDisposal : st = .dispose ∨ st = .handOff none) :
    (s.perform st).1 = { s with pool := s.pool.dispose } := by
  have hDisposed : ({ s with pool := s.pool.dispose } : Session).pool.disposed = true :=
    dispose_disposed s.pool
  rcases hDisposal with rfl | rfl
  · rfl
  · rw [perform, acquire_of_disposed hDisposed]

/-- After a disposal the live connections that nobody holds are the idle ones that had shut down by
themselves. -/
theorem Sound.dispose (hc : c.Sound) (hOpen : c.session.pool.disposed = false)
    (hDisposal : st = .dispose ∨ st = .handOff none) :
    (c.step st).Draining (c.session.pool.idle.filter c.session.pool.isShut) := by
  have hPerform := perform_disposal c.session hDisposal
  have hDisposed : (c.session.perform st).1.pool.disposed = true := by
    rw [hPerform]
    exact dispose_disposed c.session.pool
  have hStep : (c.session.step st).1 = { c.session with pool := c.session.pool.dispose } := by
    rw [step_eq, settle_of_disposed hDisposed, hPerform]
  have hGives : c.session.givesBack? st = none := by
    rcases hDisposal with rfl | rfl <;> rfl
  have hEmptied : Emptied c.session.slots (c.session.step st).1.slots := by
    rw [hStep]
    exact Emptied.refl _
  obtain ⟨hPlaced, hHeld⟩ := hc.placed.of_emptied hEmptied
  have hSession : (c.step st).session = { c.session with pool := c.session.pool.dispose } := hStep
  refine ⟨hPlaced, ?_, ?_⟩
  · rw [hSession]
    exact dispose_disposed c.session.pool
  · rw [hHeld, kept_of_none hGives, hSession]
    exact hc.owned.dispose hOpen

/-- A caller may give back what he holds; all else leaves the live connections as they are. -/
theorem Draining.step (hc : c.Draining left)
    (hHonest : ∀ i ∈ c.session.givesBack? st, i ∈ c.held.map (·.1)) :
    (c.step st).Draining left := by
  obtain ⟨hEmptied, hBooks⟩ := (c.session.performs st).of_disposed hc.disposed
  obtain ⟨hStep, hDisposed⟩ := step_of_disposed hc.disposed st
  rw [← hStep] at hEmptied hBooks
  obtain ⟨hPlaced, hHeld⟩ := hc.placed.of_emptied hEmptied
  refine ⟨hPlaced, hDisposed, ?_⟩
  rw [hHeld]
  rcases hBooks with ⟨hGives, hBooks⟩ | ⟨i, slot, q, hGives, hSlot, hStock, hBooks⟩
  · rw [kept_of_none hGives]
    exact hc.tracked.of_books hBooks
  · have hGiven := hc.tracked.perm ((hc.placed.held_perm hHonest hGives hSlot).append_right left)
    have hStill : q.disposed = true := (congrArg Stock.disposed hStock).trans hc.disposed
    exact ((hGiven.of_stock hStock).release_of_disposed hStill).of_books hBooks

/-! ## Runs -/

/-- What drains goes on draining, whatever honest callers do. -/
theorem Draining.run {steps : List Step} (hc : c.Draining left) (hHonest : c.Honest steps) :
    (c.run steps).Draining left := by
  induction steps generalizing c with
  | nil => exact hc
  | cons st rest ih => exact ih (hc.step hHonest.1) hHonest.2

theorem run_append (c : Custody) (steps more : List Step) :
    c.run (steps ++ more) = (c.run steps).run more :=
  List.foldl_append

theorem honest_append {steps more : List Step} (hHonest : c.Honest (steps ++ more)) :
    c.Honest steps ∧ (c.run steps).Honest more := by
  induction steps generalizing c with
  | nil => exact ⟨trivial, hHonest⟩
  | cons st rest ih =>
    obtain ⟨hRest, hMore⟩ := ih hHonest.2
    exact ⟨⟨hHonest.1, hRest⟩, hMore⟩

theorem balanced_run (endpoint : Endpoint) (config : PoolConfig) {factory : List FactoryOutcome}
    (hIds : KeepsIds 1 factory) (steps : List Step) :
    ((start endpoint config factory).run steps).session.pool.Balanced := by
  have hRun : ((start endpoint config factory).run steps).session =
      useAll { pool := fresh endpoint config factory } (steps.map .step) := by
    rw [run_session, useAll, List.foldl_map]
    rfl
  rw [hRun]
  exact useAll_induction (fun p op hp => (hp.apply op).balanced)
    (balanced_fresh endpoint config hIds) _

/-- After the disposal of a pool, whatever honest callers do: the live connections are those that
they still hold, and those that were idle and closed by themselves before the disposal. So the count
is that of the connections that are held, and the pool is empty once all of them were given back,
exactly if no idle connection had closed by itself. -/
theorem drains_iff_none_shut (endpoint : Endpoint) (config : PoolConfig)
    (factory : List FactoryOutcome) (steps more : List Step) (disposal : Step)
    (hDisposal : disposal = .dispose ∨ disposal = .handOff none) (hIds : KeepsIds 1 factory)
    (hHonest : (start endpoint config factory).Honest (steps ++ disposal :: more))
    (hOpen : ((start endpoint config factory).run steps).session.pool.disposed = false) :
    let c := (start endpoint config factory).run steps
    let left := c.session.pool.idle.filter c.session.pool.isShut
    let l := (start endpoint config factory).run (steps ++ disposal :: more)
    let p := l.session.pool
    let held := l.held.map (·.2)
    p.registry.Perm ((held ++ left).map fun h => (p.idOf h, h)) ∧
      p.liveCount = held.length + left.length ∧
      p.metrics.created = p.metrics.closed + p.liveCount ∧
      (p.liveCount = held.length ↔ left = []) ∧
      (held = [] →
        ((p.liveCount = 0 ∧ p.registry = [] ∧ p.metrics.closed = p.metrics.created) ↔
          left = [])) := by
  intro c left l p held
  obtain ⟨hSteps, hAfter⟩ := honest_append hHonest
  have hc : c.Sound := Sound.run (fun _ => sound_start endpoint config hIds) hSteps hOpen
  have hl : l.Draining left := by
    have hRun : l = (c.step disposal).run more := run_append _ _ _
    rw [hRun]
    exact (hc.dispose hOpen hDisposal).run hAfter.2
  have hCount : p.liveCount = held.length + left.length := by
    rw [hl.tracked.count, List.length_append]
  have hCreated : p.metrics.created = p.metrics.closed + p.liveCount :=
    (balanced_run endpoint config hIds _).created
  have hDrained : p.liveCount = held.length ↔ left = [] := by
    rw [hCount, ← List.length_eq_zero_iff]
    omega
  refine ⟨hl.tracked.registry, hCount, hCreated, hDrained, fun hHeld => ?_⟩
  rw [← hDrained, hHeld, List.length_nil]
  refine ⟨fun hEmpty => hEmpty.1, fun hZero => ⟨hZero, ?_, ?_⟩⟩
  · have hLength := (balanced_run endpoint config hIds (steps ++ disposal :: more)).registry_length
    exact List.eq_nil_of_length_eq_zero (hLength.trans hZero)
  · rw [hCreated, hZero, Nat.add_zero]

/-- Of three connections one is idle; of the two that are held one closes by itself and one dies. -/
theorem drains_of_held_shut :
    ((start ⟨.v4 [127, 0, 0, 1], 11210⟩ { minSize := 3, maxSize := 3 } []).run
      ([.openMinimum, .acquire true, .acquire false, .shut 0, .kill 1] ++
        .handOff none :: [.release 1, .drop 0])).session.pool.liveCount = 0 := by
  have hIds : KeepsIds 1 [] := by
    intro i dead id hAt
    cases hAt
  obtain ⟨-, -, -, -, hEmpty⟩ :=
    drains_iff_none_shut ⟨.v4 [127, 0, 0, 1], 11210⟩ { minSize := 3, maxSize := 3 } []
      [.openMinimum, .acquire true, .acquire false, .shut 0, .kill 1] [.release 1, .drop 0]
      (.handOff none) (Or.inr rfl) hIds (by decide +kernel) (by decide +kernel)
  exact ((hEmpty (by decide +kernel)).2 (by decide +kernel)).1

/-- The only connection is idle and closes by itself. Nobody ever holds it, and after the disposal
it is still counted and has its entry. -/
theorem counts_idle_shut :
    let l := (start ⟨.v4 [127, 0, 0, 1], 11210⟩ {} []).run [.openMinimum, .shut 0, .dispose]
    (start ⟨.v4 [127, 0, 0, 1], 11210⟩ {} []).Honest [.openMinimum, .shut 0, .dispose] ∧
      l.held = [] ∧ l.session.pool.liveCount = 1 ∧ l.session.pool.registry = [(⟨1⟩, 0)] ∧
      l.session.pool.metrics.created = 1 ∧ l.session.pool.metrics.closed = 0 := by
  decide +kernel

end Custody

end StoreClient
