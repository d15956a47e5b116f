import StoreClient.Proofs.Pool.Journal
import Mathlib.Data.List.DropRight
import Mathlib.Data.Finset.Card

/-!
# What the count of failures means

A pool has one count of failures for all of its callers. It counts the waits that ended without a
connection and the failures of the factory since a caller was last given a connection, or refused
one because of too many waits.

Only a pool that is exhausted queues or refuses its callers: no connection is idle and there is room
for none. Such a pool has not called its factory since the count started anew, so that nothing but
waits was counted. In any other pool the count is not bounded. A pool that is not exhausted is
vacant (`Vacant`), and it stays so until a caller is given a connection.
-/

namespace StoreClient

namespace Pool

open Relation

variable {p q : Pool} {h : Handle}

/-! ## Vacancy -/

/-- The ids of idle connections that the pool counts as live. -/
def idleIds (p : Pool) : Finset ConnectionId :=
  (p.idle.map p.idOf).toFinset.filter fun id => ∃ r ∈ p.registry, r.1 = id

/-- There is room for a connection, or will be when the idle ones are gone. -/
def Vacant (p : Pool) : Prop := p.liveCount < p.config.maxSize + p.idleIds.card

theorem mem_idleIds (p : Pool) (id : ConnectionId) :
    id ∈ p.idleIds ↔ (∃ h ∈ p.idle, p.idOf h = id) ∧ ∃ r ∈ p.registry, r.1 = id := by
  simp [idleIds]

theorem tracks_iff (p : Pool) (h : Handle) :
    p.tracks h = true ↔ ∃ r ∈ p.registry, r.1 = p.idOf h := by
  simp [tracks]

theorem idleIds_subset (hIds : q.ids = p.ids) (hIdle : p.idle ⊆ q.idle)
    (hRegistry : q.registry = p.registry) : p.idleIds ⊆ q.idleIds := by
  intro id hId
  rw [mem_idleIds] at hId ⊢
  obtain ⟨⟨h, hIdles, hOf⟩, hEntry⟩ := hId
  rw [hRegistry]
  exact ⟨⟨h, hIdle hIdles, (idOf_congr hIds h).trans hOf⟩, hEntry⟩

/-- A pool stays vacant as long as no idle connection is lost. -/
theorem Vacant.mono (hp : p.Vacant) (hConfig : q.config = p.config) (hIds : q.ids = p.ids)
    (hIdle : p.idle ⊆ q.idle) (hRegistry : q.registry = p.registry)
    (hCount : q.liveCount = p.liveCount) : q.Vacant := by
  have hCard := Finset.card_le_card (idleIds_subset hIds hIdle hRegistry)
  unfold Vacant at hp ⊢
  rw [hCount, hConfig]
  omega

theorem Vacant.of_stock (hp : p.Vacant) (hStock : q.stock = p.stock) : q.Vacant := by
  have hIdle : q.idle = p.idle := congrArg Stock.idle hStock
  exact hp.mono (congrArg Stock.config hStock)
    (congrArg (fun k => k.connections.map (·.id)) hStock) (hIdle ▸ List.Subset.refl _)
    (congrArg Stock.registry hStock) (congrArg Stock.liveCount hStock)

/-- A connection that is destroyed is neither idle nor counted as live afterwards. -/
theorem idleIds_destroy (p : Pool) (h : Handle) :
    (p.destroy h).idleIds = p.idleIds.erase (p.idOf h) := by
  have hIdOf := idOf_congr (ids_destroy p h)
  ext id
  rw [mem_idleIds, Finset.mem_erase, mem_idleIds, destroy_idle, destroy_registry]
  simp only [hIdOf, List.mem_filter, bne_iff_ne]
  constructor
  · rintro ⟨hIdles, r, ⟨hEntry, hNe⟩, rfl⟩
    exact ⟨hNe, hIdles, r, hEntry, rfl⟩
  · rintro ⟨hNe, hIdles, r, hEntry, rfl⟩
    exact ⟨hIdles, r, ⟨hEntry, hNe⟩, rfl⟩

/-- A connection that is closed makes room for another one, if it was live. -/
theorem Vacant.of_erase (hp : p.Vacant) (hMax : 0 < p.config.maxSize)
    (hConfig : q.config = p.config)
    (hCount : q.liveCount = p.liveCount - if p.tracks h then 1 else 0)
    (hIds : q.idleIds = p.idleIds.erase (p.idOf h)) : q.Vacant := by
  unfold Vacant at hp ⊢
  rw [hConfig, hCount, hIds]
  by_cases hTracks : p.tracks h = true
  · have hCard := Finset.pred_card_le_card_erase (s := p.idleIds) (a := p.idOf h)
    rw [if_pos hTracks]
    omega
  · have hOut : p.idOf h ∉ p.idleIds := by
      intro hIn
      exact hTracks ((tracks_iff p h).2 ((mem_idleIds p _).1 hIn).2)
    rw [if_neg hTracks, Finset.erase_eq_of_notMem hOut]
    exact hp

/-- A connection that is destroyed leaves its room. -/
theorem Vacant.destroy (hp : p.Vacant) (hMax : 0 < p.config.maxSize) : (p.destroy h).Vacant := by
  obtain ⟨metrics, hEq⟩ := destroy_eq p h
  refine hp.of_erase hMax ?_ ?_ (idleIds_destroy p h)
  · rw [hEq]
  · rw [hEq]

theorem Vacant.modify (hp : p.Vacant) {f : Connection → Connection} (hf : ∀ c, (f c).id = c.id) :
    (p.modify h f).Vacant :=
  hp.mono rfl (ids_modify p h hf) (List.Subset.refl _) rfl rfl

/-- A dead connection that is evicted takes its place and its entry with it. -/
theorem EvictsFirst.idleIds_eq (hEvicts : EvictsFirst p q) :
    ∃ h ∈ p.idle, q.config = p.config ∧
      q.liveCount = p.liveCount - (if p.tracks h then 1 else 0) ∧
      q.idleIds = p.idleIds.erase (p.idOf h) := by
  obtain ⟨h, rest, hIdle, -, rfl⟩ := hEvicts
  obtain ⟨metrics, hEq⟩ := destroy_eq { p with idle := rest } h
  have hStock := evict_stock { p with idle := rest } h
  have hSame : (evict { p with idle := rest } h).idleIds =
      (Pool.destroy { p with idle := rest } h).idleIds := by
    have hConnections := congrArg (fun k => k.connections.map (·.id)) hStock
    have hIdles : (evict { p with idle := rest } h).idle = _ := congrArg Stock.idle hStock
    have hRegistry : (evict { p with idle := rest } h).registry = _ :=
      congrArg Stock.registry hStock
    exact Finset.Subset.antisymm
      (idleIds_subset hConnections.symm (hIdles ▸ List.Subset.refl _) hRegistry.symm)
      (idleIds_subset hConnections (hIdles ▸ List.Subset.refl _) hRegistry)
  have hConfig : (evict { p with idle := rest } h).config = _ := congrArg Stock.config hStock
  have hCount : (evict { p with idle := rest } h).liveCount = _ := congrArg Stock.liveCount hStock
  refine ⟨h, by simp [hIdle], ?_, ?_, ?_⟩
  · rw [hConfig, hEq]
    rfl
  · rw [hCount, hEq]
    rfl
  · rw [hSame, idleIds_destroy]
    ext id
    have hIdOf : ({ p with idle := rest } : Pool).idOf = p.idOf := rfl
    simp only [Finset.mem_erase, mem_idleIds, hIdle, hIdOf, List.mem_cons, exists_eq_or_imp]
    constructor
    · rintro ⟨hNe, hIdles, hEntry⟩
      exact ⟨hNe, Or.inr hIdles, hEntry⟩
    · rintro ⟨hNe, hFirst | hIdles, hEntry⟩
      · exact absurd hFirst.symm hNe
      · exact ⟨hNe, hIdles, hEntry⟩

theorem Vacant.evictsFirst (hp : p.Vacant) (hMax : 0 < p.config.maxSize)
    (hEvicts : EvictsFirst p q) : q.Vacant := by
  obtain ⟨h, -, hConfig, hCount, hIds⟩ := hEvicts.idleIds_eq
  exact hp.of_erase hMax hConfig hCount hIds

/-- A vacant pool stays so when dead connections are evicted. -/
theorem Vacant.evictsAll (hp : p.Vacant) (hMax : 0 < p.config.maxSize)
    (hEvicts : ReflTransGen EvictsFirst p q) : q.Vacant := by
  induction hEvicts with
  | refl => exact hp
  | @tail r q hFirst hLast ih =>
    have hConfig : r.config = p.config := (onlyConnections_of_evictsFirst hFirst).config
    have hRoom : 0 < r.config.maxSize := by rw [hConfig]; exact hMax
    exact ih.evictsFirst hRoom hLast

/-- In a pool in which no connection is idle, vacancy is room. -/
theorem Vacant.room (hp : p.Vacant) (hIdle : p.idle = []) : p.liveCount < p.config.maxSize := by
  have hNone : p.idleIds = ∅ := by
    simp [idleIds, hIdle]
  unfold Vacant at hp
  rw [hNone, Finset.card_empty] at hp
  exact hp

/-- A pool with room is vacant. -/
theorem vacant_of_room (hRoom : p.liveCount < p.config.maxSize) : p.Vacant :=
  Nat.lt_of_lt_of_le hRoom (Nat.le_add_right _ _)

/-- A connection that was opened in advance is idle and live. -/
theorem OpensOne.vacant (hOpens : OpensOne p q) : q.Vacant := by
  obtain ⟨hRoom, r, h, hCreate, rfl⟩ := hOpens
  rcases create_cases p with ⟨e, log, -, hError⟩ | ⟨c, metrics, log, -, -, hOk⟩
  · cases hError.symm.trans hCreate
  · cases hOk.symm.trans hCreate
    set q : Pool := { p with
      nextId := p.nextId + 1
      factory := p.factory.tail
      connections := p.connections ++ [c]
      registry := (p.registry.filter fun r => r.1 != c.id) ++ [(c.id, p.connections.length)]
      liveCount := p.liveCount + 1
      idle := p.idle ++ [p.connections.length]
      metrics
      log } with hq
    have hId : q.idOf p.connections.length = c.id := by
      simp [hq, idOf, connection?]
    have hIn : c.id ∈ q.idleIds := by
      rw [mem_idleIds]
      exact ⟨⟨p.connections.length, by simp [hq], hId⟩, (c.id, p.connections.length),
        by simp [hq], rfl⟩
    have hCard : 0 < q.idleIds.card := Finset.card_pos.2 ⟨c.id, hIn⟩
    change p.liveCount + 1 < p.config.maxSize + q.idleIds.card
    omega

theorem vacant_create_error {e : PoolError} (hp : p.Vacant) (hCreate : p.create = (q, .error e)) :
    q.Vacant := by
  rcases create_cases p with ⟨e', log, -, hError⟩ | ⟨c, metrics, log, -, -, hOk⟩
  · cases hError.symm.trans hCreate
    exact hp.mono rfl rfl (List.Subset.refl _) rfl rfl
  · cases hOk.symm.trans hCreate

theorem Vacant.openMinimum (hp : p.Vacant) : p.openMinimum.Vacant :=
  openMinimum_induction hp (fun _ _ _ hOpens => hOpens.vacant) fun _ _ _ hq hCreate =>
    (vacant_create_error hq hCreate).of_stock rfl

/-- A connection that is given back is idle, or makes room. -/
theorem Vacant.release (hp : p.Vacant) (hMax : 0 < p.config.maxSize) : (p.release h).Vacant := by
  have hUnused : (p.modify h (Connection.markUsed false)).Vacant := hp.modify fun _ => rfl
  have hStock := release_stock p h
  split at hStock
  · exact Vacant.of_stock (hUnused.destroy hMax) hStock
  · refine hUnused.mono (congrArg Stock.config hStock)
      (congrArg (fun k => k.connections.map (·.id)) hStock) ?_ (congrArg Stock.registry hStock)
      (congrArg Stock.liveCount hStock)
    rw [show (p.release h).idle = p.idle ++ [h] from congrArg Stock.idle hStock]
    exact List.subset_append_left _ _

/-- An operation by which nobody tries to get a connection leaves a vacant pool vacant, unless it
disposes of the pool. -/
theorem Vacant.quiet {op : Op} (hp : p.Vacant) (hMax : 0 < p.config.maxSize) (hQuiet : p.Quiet op)
    (hOpen : (p.apply op).disposed = false) : (p.apply op).Vacant := by
  cases op with
  | openMinimum => exact hp.openMinimum
  | attempt => exact hQuiet.elim
  | timeOut w => exact hQuiet.elim
  | abandon w => exact hp.of_stock (abandon_onlyWaiters p w).stock
  | release h => exact hp.release hMax
  | dispose => cases (dispose_disposed p).symm.trans hOpen
  | setDead h dead => exact hp.modify fun _ => rfl
  | shut h => exact hp.modify fun _ => rfl
  | returning h => exact hp.of_stock rfl
  | cycleBuffers count => exact hp.of_stock rfl

/-! ## The count since it started anew -/

/-- The events since the count of failures started anew last. -/
def sinceReset (events : List Event) : List Event := events.rtakeWhile fun e => !e.resets

/-- The count starts anew with a checkout or a refusal. -/
theorem sinceReset_concat_of_resets {x : Event} (events : List Event) (hx : x.resets = true) :
    sinceReset (events ++ [x]) = [] := by
  have hNot : ¬ (!x.resets) = true := by simp [hx]
  exact List.rtakeWhile_concat_neg _ _ _ hNot

/-- Any other event is counted. -/
theorem sinceReset_concat {x : Event} (events : List Event) (hx : x.resets = false) :
    sinceReset (events ++ [x]) = sinceReset events ++ [x] := by
  have hKept : (!x.resets) = true := by simp [hx]
  exact List.rtakeWhile_concat_pos _ _ _ hKept

/-- One more failure. -/
def Standing.fail (s : Standing) : Standing := { s with failures := s.failures + 1 }

/-- A caller is refused with this error where as many waits as there may be were counted, and
nothing else. -/
def Exhausts (endpoint : Endpoint) (config : PoolConfig) (before : List Event) (e : PoolError) :
    Prop :=
  e = .unavailable endpoint config.maxAcquireRetryCount ∧
    sinceReset before = List.replicate config.maxAcquireRetryCount .timedOut

/-- The count of failures is that of the events since it started anew last. Unless the pool is
vacant these are waits, fewer than there may be; just after the end of a wait there may be one
more. -/
structure Tallied (endpoint : Endpoint) (config : PoolConfig) (slack : Nat) (p : Pool)
    (events : List Event) : Prop where
  standing : p.standing = ⟨endpoint, config, (sinceReset events).length⟩
  exhausted : p.disposed = false → p.Vacant ∨
    ∃ waits < config.maxAcquireRetryCount + slack,
      sinceReset events = List.replicate waits .timedOut
  refusals : ∀ before e after, events = before ++ .refused e :: after →
    Exhausts endpoint config before e

variable {endpoint : Endpoint} {config : PoolConfig} {slack : Nat} {events : List Event}

theorem Tallied.config_eq (hp : Tallied endpoint config slack p events) : p.config = config :=
  congrArg Standing.config hp.standing

theorem Tallied.failures_eq (hp : Tallied endpoint config slack p events) :
    p.failures = (sinceReset events).length :=
  congrArg Standing.failures hp.standing

/-- The refusals in a list of events are justified if those before are and the last one is. -/
theorem Tallied.refusals_concat {x : Event} (hp : Tallied endpoint config slack p events)
    (hx : ∀ e, x = .refused e → Exhausts endpoint config events e) :
    ∀ before e after, events ++ [x] = before ++ .refused e :: after →
      Exhausts endpoint config before e := by
  intro before e after hEq
  rcases List.eq_nil_or_concat after with rfl | ⟨after, y, rfl⟩
  · obtain ⟨rfl, hLast⟩ := List.append_inj' hEq rfl
    exact hx e (List.singleton_inj.1 hLast)
  · rw [List.concat_eq_append, ← List.cons_append, ← List.append_assoc] at hEq
    exact hp.refusals before e after (List.append_inj' hEq rfl).1

/-- Where nobody attempts and no wait ends, the tally is kept. -/
theorem Tallied.quiet {op : Op} (hp : Tallied endpoint config slack p events)
    (hMax : 0 < config.maxSize) (hQuiet : p.Quiet op) :
    Tallied endpoint config slack (p.apply op) events := by
  refine ⟨hQuiet.sameTally.1.standing.trans hp.standing, fun hOpen => ?_, hp.refusals⟩
  have hBefore : p.disposed = false := by
    refine Bool.eq_false_iff.2 fun hDisposed => ?_
    cases (WindsDown.apply hDisposed op).disposed.symm.trans hOpen
  rw [← hp.config_eq] at hMax
  exact (hp.exhausted hBefore).imp_left fun hVacant => hVacant.quiet hMax hQuiet hOpen

/-- The end of a wait may exhaust the bound. -/
theorem Tallied.timeOut {w : WaiterId} (hp : Tallied endpoint config 0 p events) :
    Tallied endpoint config 1 (p.timeOut w) (events ++ p.eventsOf (.timeOut w)) := by
  have hStock := (timeOut_sameStock p w).stock
  have hOpen (hAfter : (p.timeOut w).disposed = false) : p.disposed = false :=
    (congrArg Stock.disposed hStock).symm.trans hAfter
  rw [eventsOf]
  cases hDone : p.isCompleted w with
  | true =>
    rw [timeOut_of_completed hDone, if_pos rfl, List.append_nil]
    refine ⟨hp.standing, fun hOpen => ?_, hp.refusals⟩
    rcases hp.exhausted hOpen with hVacant | ⟨waits, hFew, hWaits⟩
    · exact Or.inl hVacant
    · exact Or.inr ⟨waits, Nat.lt_succ_of_lt hFew, hWaits⟩
  | false =>
    obtain ⟨metrics, log, hEq⟩ := timeOut_of_not_completed hDone
    have hCounted := sinceReset_concat (x := .timedOut) events rfl
    rw [if_neg Bool.false_ne_true]
    refine ⟨?_, fun hAfter => ?_, hp.refusals_concat fun e hx => by cases hx⟩
    · rw [hEq, hCounted, List.length_append]
      exact congrArg Standing.fail hp.standing
    · rcases hp.exhausted (hOpen hAfter) with hVacant | ⟨waits, hFew, hWaits⟩
      · exact Or.inl (hVacant.of_stock hStock)
      · refine Or.inr ⟨waits + 1, Nat.succ_lt_succ hFew, ?_⟩
        rw [hCounted, hWaits, List.replicate_succ']

/-- A checkout or a refusal sets the count to zero, which is below the bound. -/
theorem Tallied.anew {x : Event} (hp : Tallied endpoint config slack p events)
    (hRetries : 0 < config.maxAcquireRetryCount) (hResets : x.resets = true)
    (hStanding : q.standing = { p.standing with failures := 0 })
    (hx : ∀ e, x = .refused e → Exhausts endpoint config events e) :
    Tallied endpoint config 0 q (events ++ [x]) := by
  have hNone := sinceReset_concat_of_resets events hResets
  refine ⟨?_, fun _ => Or.inr ⟨0, hRetries, hNone⟩, hp.refusals_concat hx⟩
  rw [hStanding, hp.standing, hNone]
  rfl

/-- An attempt in an exhausted pool is queued or refused, so that there are fewer waits than there
may be after it. -/
theorem Tallied.attempt (hp : Tallied endpoint config 1 p events) (hValid : config.Valid) :
    Tallied endpoint config 0 p.attempt.1 (events ++ p.attemptEvents) := by
  obtain ⟨hMax, -, hRetries⟩ := hValid
  cases hDisposed : p.disposed with
  | true =>
    rw [attemptEvents_of_disposed hDisposed, List.append_nil, attempt_of_disposed hDisposed]
    refine ⟨hp.standing, fun hOpen => ?_, hp.refusals⟩
    cases hDisposed.symm.trans hOpen
  | false =>
    rcases attempt_events hDisposed with ⟨r, h, hEnd, hAnew, hEvents⟩ | ⟨q, hEvicts, hIdle, hEnd⟩
    · -- a connection is handed out
      rw [hEvents, hEnd]
      exact hp.anew hRetries rfl hAnew fun e hx => by cases hx
    · have hSame : q.standing = ⟨endpoint, config, (sinceReset events).length⟩ :=
        (onlyConnections_of_evictsFirst hEvicts).standing.trans hp.standing
      have hConfig : q.config = config := congrArg Standing.config hSame
      have hFailures : q.failures = (sinceReset events).length := congrArg Standing.failures hSame
      -- Nothing but waits was counted where the pool is full after the dead connections are gone.
      have hWaits (hFull : q.config.maxSize ≤ q.liveCount) :
          ∃ waits < config.maxAcquireRetryCount + 1,
            sinceReset events = List.replicate waits .timedOut := by
        refine (hp.exhausted hDisposed).resolve_left fun hVacant => ?_
        rw [← hp.config_eq] at hMax
        have hRoom := (hVacant.evictsAll hMax hEvicts).room hIdle
        omega
      rcases hEnd with ⟨hRoom, e, metrics, log, -, hEnd, hEvents⟩ | ⟨hFull, hFew, hEnd, hEvents⟩ |
        ⟨hFull, hMany, hEnd, hEvents⟩
      · -- the factory fails
        rw [hEvents, hEnd]
        have hNever := hp.refusals_concat (x := .failed e) fun e hx => by cases hx
        refine ⟨?_, fun _ => Or.inl (vacant_of_room hRoom), hNever⟩
        rw [sinceReset_concat events rfl, List.length_append]
        exact congrArg Standing.fail hSame
      · -- the caller is queued
        rw [hEvents, hEnd, List.append_nil]
        refine ⟨hSame, fun _ => Or.inr ?_, hp.refusals⟩
        obtain ⟨waits, -, hCounted⟩ := hWaits hFull
        refine ⟨waits, ?_, hCounted⟩
        rw [hCounted, List.length_replicate] at hFailures
        rw [← hFailures, ← hConfig]
        exact hFew
      · -- the caller is refused
        obtain ⟨waits, hBound, hCounted⟩ := hWaits hFull
        rw [hCounted, List.length_replicate] at hFailures
        have hAll : waits = config.maxAcquireRetryCount := by
          rw [hConfig, hFailures] at hMany
          omega
        rw [hEvents, hEnd]
        refine hp.anew hRetries rfl ?_ fun e hx => ?_
        · rw [← (onlyConnections_of_evictsFirst hEvicts).standing]
          rfl
        · cases hx
          have hEndpoint : q.endpoint = endpoint := congrArg Standing.endpoint hSame
          rw [hEndpoint, hFailures, hAll]
          exact ⟨rfl, hAll ▸ hCounted⟩

theorem Tallied.slacken (hp : Tallied endpoint config 0 p events) :
    Tallied endpoint config 1 p events := by
  refine ⟨hp.standing, fun hOpen => (hp.exhausted hOpen).imp_right ?_, hp.refusals⟩
  rintro ⟨waits, hFew, hWaits⟩
  exact ⟨waits, Nat.lt_succ_of_lt hFew, hWaits⟩

/-- What callers do in order keeps the count. -/
theorem Regular.tallied {ops : List Op} (hOps : p.Regular ops) (hValid : config.Valid)
    (hp : Tallied endpoint config 0 p events) :
    Tallied endpoint config 0 (p.applyAll ops) (events ++ p.events ops) := by
  induction hOps generalizing events with
  | nil p =>
    rw [Pool.events, List.append_nil]
    exact hp
  | quiet hQuiet _ ih =>
    rw [Pool.events, hQuiet.sameTally.2, List.nil_append]
    exact ih (hp.quiet hValid.1 hQuiet)
  | attempt _ ih =>
    rw [Pool.events, ← List.append_assoc]
    exact ih (hp.slacken.attempt hValid)
  | timeOut _ _ ih =>
    -- the bound may be reached between the end of the wait and the attempt that follows it
    rw [Pool.events, Pool.events, ← List.append_assoc, ← List.append_assoc]
    exact ih (hp.timeOut.attempt hValid)

theorem tallied_fresh (endpoint : Endpoint) (config : PoolConfig) (factory : List FactoryOutcome)
    (hValid : config.Valid) : Tallied endpoint config 0 (fresh endpoint config factory) [] where
  standing := rfl
  exhausted := fun _ => Or.inr ⟨0, hValid.2.2, rfl⟩
  refusals := fun before e after hEq => by cases before <;> cases hEq

end Pool

namespace Session

open Pool

variable {s : Session} {endpoint : Endpoint} {config : PoolConfig}

theorem entries_event (s : Session) (place : Nat) (u : Use) :
    (s.entries place u).map (·.event) = s.pool.events (s.useOps u) := by
  rw [entries, List.map_map]
  exact List.map_id _

/-- One use keeps the tally, which has no slack between uses. -/
theorem tallied_use {events : List Event} (hs : s.Attended) (hValid : config.Valid)
    (hTallied : Tallied endpoint config 0 s.pool events) (u : Use) :
    Tallied endpoint config 0 (s.use u).pool (events ++ s.pool.events (s.useOps u)) := by
  rw [use_pool]
  exact (regular_useOps hs u).tallied hValid hTallied

/-- The tally is kept over a whole run. -/
theorem tallied_useAll {events : List Event} (hs : s.Attended) (hValid : config.Valid)
    (hTallied : Tallied endpoint config 0 s.pool events) (place : Nat) (uses : List Use) :
    Tallied endpoint config 0 (s.useAll uses).pool
      (events ++ (s.journal place uses).map (·.event)) := by
  induction uses generalizing s place events with
  | nil =>
    rw [journal, List.map_nil, List.append_nil]
    exact hTallied
  | cons u uses ih =>
    rw [journal, List.map_append, entries_event, ← List.append_assoc]
    exact ih (hs.use u) (tallied_use hs hValid hTallied u) (place + 1)

/-! ## What the count means -/

/-- Of the events that are counted each one is a wait or a failure of the factory. -/
theorem length_sinceReset (events : List Event) :
    (sinceReset events).length =
      (sinceReset events).countP Event.isTimedOut + (sinceReset events).countP Event.isFailed := by
  rw [List.length_eq_countP_add_countP Event.isTimedOut]
  refine congrArg _ (List.countP_congr fun x hx => ?_)
  have hKept := List.mem_rtakeWhile_imp (p := fun x : Event => !x.resets) hx
  cases x with
  | checkedOut h => cases hKept
  | timedOut => simp [Event.isTimedOut, Event.isFailed]
  | failed e => simp [Event.isTimedOut, Event.isFailed]
  | refused e => cases hKept

/-- Who is told that no connection is available is told so by the factory, or by the pool after as
many waits as there may be. -/
theorem unavailable_of_step {events : List Event} {st : Step} {address : Endpoint} {n : Nat}
    (hs : s.Enrolled) (hValid : config.Valid) (hTallied : Tallied endpoint config 0 s.pool events)
    (hError : (s.step st).2.error? = some (.unavailable address n)) :
    ∃ before,
      (s.pool.events (s.useOps (.step st)) = before ++ [.failed (.unavailable address n)] ∧
        s.pool.factory.head? = some (.failure (.unavailable address n))) ∨
      (s.pool.events (s.useOps (.step st)) = before ++ [.refused (.unavailable address n)] ∧
        address = endpoint ∧ n = config.maxAcquireRetryCount ∧
        sinceReset (events ++ before) = List.replicate n .timedOut) := by
  have hUse := tallied_use hs.attended hValid hTallied (.step st)
  rw [step_eq] at hError
  rw [events_step] at hUse ⊢
  obtain ⟨before, hFactory | hEvents⟩ := (s.performs st).endsInError hs hError (by simp)
  · exact ⟨before, Or.inl hFactory⟩
  · rw [hEvents, ← List.append_assoc] at hUse
    obtain ⟨hUnavailable, hCounted⟩ := hUse.refusals _ _ [] rfl
    injection hUnavailable with hAddress hAttempts
    refine ⟨before, Or.inr ⟨hEvents, hAddress, hAttempts, ?_⟩⟩
    rw [hAttempts]
    exact hCounted

/-- In every state that the uses of a pool lead to, its count of failures is the number of waits
that ended without a connection and of failures of the factory, since a caller was last given a
connection or refused one because of too many waits. It is below the bound where no connection is
idle and there is room for none, before the disposal. Whoever is then told that no connection is
available, other than by the factory, is told the server of the pool and the bound, and as many
waits were counted and nothing else. -/
theorem failures_are_waits_and_errors (endpoint : Endpoint) (config : PoolConfig)
    (factory : List FactoryOutcome) (uses : List Use) (hValid : config.Valid) :
    let start : Session := { pool := fresh endpoint config factory }
    let s := start.useAll uses
    let told := (start.journal 0 uses).map (·.event)
    s.pool.failures =
        (sinceReset told).countP Event.isTimedOut + (sinceReset told).countP Event.isFailed ∧
      (s.pool.disposed = false → s.pool.idle = [] → s.pool.liveCount = config.maxSize →
        s.pool.failures < config.maxAcquireRetryCount) ∧
      ∀ st address n, (s.step st).2.error? = some (.unavailable address n) →
        ∃ before,
          (s.pool.events (s.useOps (.step st)) = before ++ [.failed (.unavailable address n)] ∧
            s.pool.factory.head? = some (.failure (.unavailable address n))) ∨
          (s.pool.events (s.useOps (.step st)) = before ++ [.refused (.unavailable address n)] ∧
            address = endpoint ∧ n = config.maxAcquireRetryCount ∧
            sinceReset (told ++ before) = List.replicate n .timedOut) := by
  intro start s told
  have hs : s.Enrolled := (enrolled_fresh endpoint config factory).useAll uses
  have hTallied : Tallied endpoint config 0 s.pool told :=
    tallied_useAll (attended_fresh endpoint config factory) hValid
      (tallied_fresh endpoint config factory hValid) 0 uses
  refine ⟨?_, fun hOpen hIdle hFull => ?_, fun st address n hError => ?_⟩
  · rw [hTallied.failures_eq]
    exact length_sinceReset told
  · rcases hTallied.exhausted hOpen with hVacant | ⟨waits, hFew, hWaits⟩
    · have hRoom := hVacant.room hIdle
      rw [hTallied.config_eq] at hRoom
      omega
    · rw [hTallied.failures_eq, hWaits, List.length_replicate]
      exact hFew
  · exact unavailable_of_step hs hValid hTallied hError

/-- A connection dies and its successor cannot be made at first. Once it was made, a call waits for
it twice and is refused: only these waits were counted. -/
theorem refused_after_two_waits :
    ∃ before, sinceReset
      ((journal
        { pool := fresh ⟨.v4 [127, 0, 0, 1], 11210⟩ { maxSize := 1, maxAcquireRetryCount := 2 }
            [.connection, .failure (.connect "refused"), .connection] } 0
        [.step (.acquire false), .step (.kill 0), .step (.release 0), .step (.acquire false),
          .step (.acquire true), .step (.start false), .step (.advance 2500), .step (.poll 0),
          .step (.advance 2500)]).map (·.event) ++ before) =
      List.replicate 2 .timedOut := by
  obtain ⟨-, -, hRefused⟩ :=
    failures_are_waits_and_errors ⟨.v4 [127, 0, 0, 1], 11210⟩
      { maxSize := 1, maxAcquireRetryCount := 2 }
      [.connection, .failure (.connect "refused"), .connection]
      [.step (.acquire false), .step (.kill 0), .step (.release 0), .step (.acquire false),
        .step (.acquire true), .step (.start false), .step (.advance 2500), .step (.poll 0),
        .step (.advance 2500)] (by decide)
  obtain ⟨before, ⟨-, hHead⟩ | ⟨-, -, -, hWaits⟩⟩ :=
    hRefused (.poll 0) ⟨.v4 [127, 0, 0, 1], 11210⟩ 2 (by decide +kernel)
  · exact absurd hHead (by decide +kernel)
  · exact ⟨before, hWaits⟩

/-- A factory may itself tell a caller that no connection is available: its caller then learns of
another server and of another number of attempts, nobody has waited, and the count does not start
anew. A wait that is given up without a connection is not counted. -/
theorem told_by_the_factory_and_given_up :
    let other : PoolError := .unavailable ⟨.v4 [10, 0, 0, 1], 9⟩ 7
    let s : Session := { pool := fresh ⟨.v4 [127, 0, 0, 1], 11210⟩ {} [.failure other] }
    let one : Session := { pool := fresh ⟨.v4 [127, 0, 0, 1], 11210⟩ { maxSize := 1 } [] }
    let waiting := one.useAll [.step (.acquire false), .step (.start false)]
    (s.step (.acquire false)).2.error? = some other ∧
      s.pool.events (s.useOps (.step (.acquire false))) = [.failed other] ∧
      s.pool.endpoint ≠ ⟨.v4 [10, 0, 0, 1], 9⟩ ∧ s.pool.config.maxAcquireRetryCount ≠ 7 ∧
      (s.use (.step (.acquire false))).pool.failures = 1 ∧
      waiting.pool.isCompleted 0 = false ∧ (waiting.task? 0).isSome = true ∧
      ((waiting.use (.step (.cancel 0))).task? 0).isNone = true ∧
      (waiting.use (.step (.cancel 0))).pool.failures = 0 := by
  decide +kernel

end Session

end StoreClient
