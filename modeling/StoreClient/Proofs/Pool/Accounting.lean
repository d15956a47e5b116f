import StoreClient.Proofs.Pool.Ownership
import StoreClient.Proofs.Pool.Uses

/-!
# The books of a pool

The registry, the count of live connections and what is counted about connections in all are the
books of a pool. They balance whatever its callers do, also if they give connections back that they
do not hold: a connection is written off only if the registry still has it, and it has each
connection once, however often this one is among the idle ones.

The count of live connections is decremented where a connection is written off. The values that it
has then are listed for every operation, in order, so that it can be said that none of them is zero.
-/

namespace StoreClient

namespace Pool

open Relation

variable {p q r : Pool} {h : Handle} {counts counts' : List Nat}

/-! ## Where the count is decremented -/

/-- The count of live connections as it is decremented when a connection is destroyed. -/
def destroyCounts (p : Pool) (h : Handle) : List Nat := if p.tracks h then [p.liveCount] else []

/-- The count each time it is decremented while a connection is looked for among the idle ones. -/
def takeIdleCounts (p : Pool) : (idle : List Handle) → List Nat
  | [] => []
  | h :: rest =>
    if p.isDead h then p.destroyCounts h ++ takeIdleCounts ({ p with idle := rest }.evict h) rest
    else []

/-- The count as it is decremented when a connection is given back. -/
def releaseCounts (p : Pool) (h : Handle) : List Nat :=
  let returned := p.modify h (Connection.markUsed false)
  if returned.isDead h || returned.disposed then returned.destroyCounts h else []

/-- The count as it is decremented when the pool parts with a connection. -/
def retireCounts (p : Pool) (h : Handle) : List Nat :=
  match p.connection? h with
  | none => []
  | some c => if c.shutdown || c.used then [] else p.destroyCounts h

/-- The count each time it is decremented while the pool parts with some connections. -/
def retireAllCounts (p : Pool) : List Handle → List Nat
  | [] => []
  | h :: rest => p.retireCounts h ++ retireAllCounts (p.retire h) rest

/-- The count each time it is decremented in an operation. -/
def decrements (p : Pool) : Op → List Nat
  | .attempt => if p.disposed then [] else p.takeIdleCounts p.idle
  | .release h => p.releaseCounts h
  | .dispose =>
    if p.disposed then []
    else retireAllCounts { p with disposed := true } (p.registry.map (·.2))
  | _ => []

/-- The count each time it is decremented in some operations. -/
def allDecrements (p : Pool) : List Op → List Nat
  | [] => []
  | op :: ops => p.decrements op ++ allDecrements (p.apply op) ops

/-! ## The books -/

/-- What is written down about the connections of a pool. -/
structure Books where
  config : PoolConfig
  factory : List FactoryOutcome
  nextId : Nat
  ids : List ConnectionId
  registry : List (ConnectionId × Handle)
  liveCount : Nat
  created : Nat
  closed : Nat
  dead : Nat

/-- The books of a pool. -/
def books (p : Pool) : Books where
  config := p.config
  factory := p.factory
  nextId := p.nextId
  ids := p.ids
  registry := p.registry
  liveCount := p.liveCount
  created := p.metrics.created
  closed := p.metrics.closed
  dead := p.metrics.dead

/-- The books balance: the registry has each live connection once, all connections that were made
are live or closed, and all dead ones that were counted are closed. -/
structure Balanced (p : Pool) : Prop where
  tracked : ∃ live, p.Tracked live
  created : p.metrics.created = p.metrics.closed + p.liveCount
  dead : p.metrics.dead ≤ p.metrics.closed

theorem Tracked.of_books {live : List Handle} (hp : p.Tracked live) (hBooks : q.books = p.books) :
    q.Tracked live :=
  hp.congr (congrArg Books.config hBooks) (congrArg Books.factory hBooks)
    (congrArg Books.nextId hBooks) (congrArg Books.ids hBooks) (congrArg Books.registry hBooks)
    (congrArg Books.liveCount hBooks)

/-- The balance is a matter of the books alone. -/
theorem Balanced.congr (hp : p.Balanced) (hBooks : q.books = p.books) : q.Balanced := by
  obtain ⟨live, hLive⟩ := hp.tracked
  have hCount : q.liveCount = p.liveCount := congrArg Books.liveCount hBooks
  have hCreated : q.metrics.created = p.metrics.created := congrArg Books.created hBooks
  have hClosed : q.metrics.closed = p.metrics.closed := congrArg Books.closed hBooks
  have hDead : q.metrics.dead = p.metrics.dead := congrArg Books.dead hBooks
  refine ⟨⟨live, hLive.of_books hBooks⟩, ?_, ?_⟩
  · rw [hCreated, hClosed, hCount]
    exact hp.created
  · rw [hDead, hClosed]
    exact hp.dead

/-- A pool has become one whose books balance. In between the count was decremented at the given
values and never at zero, each time for a connection that was closed. -/
structure Accounted (p q : Pool) (counts : List Nat) : Prop where
  balanced : q.Balanced
  config : q.config = p.config
  positive : 0 ∉ counts
  closed : q.metrics.closed = p.metrics.closed + counts.length

theorem Accounted.of_books (hp : p.Balanced) (hBooks : q.books = p.books) : p.Accounted q [] where
  balanced := hp.congr hBooks
  config := congrArg Books.config hBooks
  positive := List.not_mem_nil
  closed := congrArg Books.closed hBooks

/-- Decrements add up from one operation to the next. -/
theorem Accounted.trans (hFirst : p.Accounted q counts) (hLast : q.Accounted r counts') :
    p.Accounted r (counts ++ counts') where
  balanced := hLast.balanced
  config := hLast.config.trans hFirst.config
  positive := by
    rw [List.mem_append]
    exact not_or.2 ⟨hFirst.positive, hLast.positive⟩
  closed := by
    rw [hLast.closed, hFirst.closed, List.length_append, Nat.add_assoc]

theorem Accounted.congr (hq : p.Accounted q counts) (hBooks : r.books = q.books) :
    p.Accounted r counts := by
  have hBoth := hq.trans (Accounted.of_books hq.balanced hBooks)
  rwa [List.append_nil] at hBoth

/-! ## What is not written down -/

theorem modify_books (p : Pool) (h : Handle) {f : Connection → Connection}
    (hId : ∀ c, (f c).id = c.id) : (p.modify h f).books = p.books :=
  congrArg (fun ids => { p.books with ids }) (ids_modify p h hId)

/-- What leaves the connections alone leaves the books as they are. -/
theorem SameStock.books (h : SameStock p q) : q.books = p.books := by
  have hIds : q.ids = p.ids :=
    congrArg (fun k => k.connections.map (·.id)) h.stock
  rw [Pool.books, Pool.books, hIds, h.created, h.closed, h.dead]
  exact congrArg (fun k : Stock =>
    { p.books with
      config := k.config
      factory := k.factory
      nextId := k.nextId
      registry := k.registry
      liveCount := k.liveCount }) h.stock

theorem checkOut_books (p : Pool) (h : Handle) : (p.checkOut h).books = p.books :=
  modify_books p h fun _ => rfl

/-! ## Opening connections -/

theorem create_metrics (p : Pool) :
    p.create.1.metrics =
      match p.create.2 with
      | .ok _ => { p.metrics with created := p.metrics.created + 1 }
      | .error _ => p.metrics := by
  unfold create
  dsimp only
  cases p.factory.headD .connection <;> rfl

/-- A failure of the factory leaves the books as they are. -/
theorem Balanced.create_error {e : PoolError} (hp : p.Balanced)
    (hCreate : p.create = (q, .error e)) : p.Accounted q [] := by
  obtain ⟨live, hLive⟩ := hp.tracked
  have hq := (hLive.create_error hCreate).1
  have hCount : q.liveCount = p.liveCount := hq.count.trans hLive.count.symm
  have hConfig : q.config = p.config := (create_onlyConnections hCreate).config
  have hMetrics := create_metrics p
  rw [hCreate] at hMetrics
  dsimp only at hMetrics
  refine ⟨⟨⟨live, hq⟩, ?_, ?_⟩, hConfig, List.not_mem_nil, ?_⟩
  · rw [hMetrics, hCount]
    exact hp.created
  · rw [hMetrics]
    exact hp.dead
  · rw [hMetrics]
    rfl

/-- A new connection is entered where there is room. -/
theorem Balanced.create_ok (hp : p.Balanced) (hRoom : p.liveCount < p.config.maxSize)
    (hCreate : p.create = (q, .ok h)) : p.Accounted q [] := by
  obtain ⟨live, hLive⟩ := hp.tracked
  have hq := (hLive.create_ok hRoom hCreate).1
  have hCount : q.liveCount = p.liveCount + 1 := by
    rw [hq.count, hLive.count, List.length_cons]
  have hConfig : q.config = p.config := (create_onlyConnections hCreate).config
  have hMetrics := create_metrics p
  rw [hCreate] at hMetrics
  dsimp only at hMetrics
  refine ⟨⟨⟨_, hq⟩, ?_, ?_⟩, hConfig, List.not_mem_nil, ?_⟩
  · rw [hMetrics, hCount, ← Nat.add_assoc]
    exact congrArg (· + 1) hp.created
  · rw [hMetrics]
    exact hp.dead
  · rw [hMetrics]
    rfl

theorem Balanced.grow (hp : p.Balanced) (hRoom : p.liveCount < p.config.maxSize) :
    p.Accounted p.grow.1 [] := by
  rcases grow_cases p with ⟨q, e, hCreate, hGrow⟩ | ⟨q, h, hCreate, hGrow⟩
  · rw [hGrow]
    exact (hp.create_error hCreate).congr rfl
  · rw [hGrow]
    exact (hp.create_ok hRoom hCreate).congr (checkOut_books q h)

theorem Balanced.opensOne (hp : p.Balanced) (hOpens : ReflTransGen OpensOne p q) :
    p.Accounted q [] := by
  induction hOpens with
  | refl => exact Accounted.of_books hp rfl
  | tail _ hLast ih =>
    obtain ⟨hRoom, r, h, hCreate, rfl⟩ := hLast
    exact ih.trans ((ih.balanced.create_ok hRoom hCreate).congr rfl)

theorem Balanced.openMinimum (hp : p.Balanced) : p.Accounted p.openMinimum [] := by
  obtain ⟨q, hOpens, hEnd | ⟨r, e, hCreate, hEnd⟩⟩ := openMinimum_cases p
  · rw [hEnd]
    exact hp.opensOne hOpens
  · have hq := hp.opensOne hOpens
    rw [hEnd]
    exact (hq.trans (hq.balanced.create_error hCreate)).congr rfl

/-! ## Closing connections -/

/-- A connection that the registry has is struck off when it is destroyed. -/
theorem destroy_books_of_tracks (hTracks : p.tracks h = true) :
    (p.destroy h).books =
      { p.books with
        registry := p.registry.filter fun r => r.1 != p.idOf h
        liveCount := p.liveCount - 1
        closed := p.metrics.closed + 1 } := by
  have hClosed : (p.modify h Connection.dispose).books = p.books := modify_books p h fun _ => rfl
  unfold destroy
  rw [if_pos hTracks, ← hClosed]
  rfl

/-- A connection that the registry lacks is not struck off again. -/
theorem destroy_books_of_not_tracks (hNot : ¬ p.tracks h = true) :
    (p.destroy h).books = p.books := by
  unfold destroy
  rw [if_neg hNot]
  exact modify_books p h fun _ => rfl

/-- The registry has the entry of a connection that is live. -/
theorem Tracked.exists_of_tracks {live : List Handle} (hp : p.Tracked live)
    (hTracks : p.tracks h = true) : ∃ g ∈ live, p.idOf g = p.idOf h := by
  obtain ⟨entry, hEntry, hId⟩ := List.any_eq_true.1 hTracks
  obtain ⟨g, hg, rfl⟩ := List.mem_map.1 (hp.registry.mem_iff.1 hEntry)
  exact ⟨g, hg, beq_iff_eq.1 hId⟩

/-- The books after an entry was written off, with `d` more dead connections counted. The count was
not zero before. -/
theorem Balanced.writtenOff {d : Nat} (hp : p.Balanced) (hTracks : p.tracks h = true) (hd : d ≤ 1)
    (hBooks : q.books =
      { p.books with
        registry := p.registry.filter fun r => r.1 != p.idOf h
        liveCount := p.liveCount - 1
        closed := p.metrics.closed + 1
        dead := p.metrics.dead + d }) : p.Accounted q [p.liveCount] := by
  obtain ⟨live, hLive⟩ := hp.tracked
  obtain ⟨g, hg, hId⟩ := hLive.exists_of_tracks hTracks
  -- The entry is that of `g`, whether or not this is the handle that was given.
  have hGone := (hLive.perm (List.perm_cons_erase hg)).destroy
  have hSame := destroy_books_of_tracks (hLive.tracks hg)
  rw [hId] at hSame
  have hTracked : q.Tracked (live.erase g) :=
    hGone.congr ((congrArg Books.config hBooks).trans (congrArg Books.config hSame).symm)
      ((congrArg Books.factory hBooks).trans (congrArg Books.factory hSame).symm)
      ((congrArg Books.nextId hBooks).trans (congrArg Books.nextId hSame).symm)
      ((congrArg Books.ids hBooks).trans (congrArg Books.ids hSame).symm)
      ((congrArg Books.registry hBooks).trans (congrArg Books.registry hSame).symm)
      ((congrArg Books.liveCount hBooks).trans (congrArg Books.liveCount hSame).symm)
  have hPositive : 0 < p.liveCount := by
    rw [hLive.count]
    exact List.length_pos_of_mem hg
  have hCount : q.liveCount = p.liveCount - 1 := congrArg Books.liveCount hBooks
  have hCreated : q.metrics.created = p.metrics.created := congrArg Books.created hBooks
  have hClosed : q.metrics.closed = p.metrics.closed + 1 := congrArg Books.closed hBooks
  have hDead : q.metrics.dead = p.metrics.dead + d := congrArg Books.dead hBooks
  have hBefore := hp.created
  have hDeadBefore := hp.dead
  refine ⟨⟨⟨_, hTracked⟩, by omega, by omega⟩, congrArg Books.config hBooks, ?_, hClosed⟩
  rw [List.mem_singleton]
  exact Nat.ne_of_lt hPositive

/-- A connection is written off at most once. -/
theorem Balanced.destroy (hp : p.Balanced) (h : Handle) :
    p.Accounted (p.destroy h) (p.destroyCounts h) := by
  unfold destroyCounts
  by_cases hTracks : p.tracks h = true
  · rw [if_pos hTracks]
    exact hp.writtenOff (d := 0) hTracks (Nat.zero_le 1) (destroy_books_of_tracks hTracks)
  · rw [if_neg hTracks]
    exact Accounted.of_books hp (destroy_books_of_not_tracks hTracks)

/-- A dead connection is counted once, when it is struck off. -/
theorem evict_books (p : Pool) (h : Handle) :
    (p.evict h).books =
      { (p.destroy h).books with
        dead := (p.destroy h).metrics.dead + if p.tracks h then 1 else 0 } := by
  unfold evict
  by_cases hTracks : p.tracks h = true
  · simp only [if_pos hTracks]
    rfl
  · simp only [if_neg hTracks]
    rfl

/-- A dead connection is counted as dead only if it is written off. -/
theorem Balanced.evict (hp : p.Balanced) (h : Handle) :
    p.Accounted (p.evict h) (p.destroyCounts h) := by
  have hEvicted := evict_books p h
  unfold destroyCounts
  by_cases hTracks : p.tracks h = true
  · have hDestroyed := destroy_books_of_tracks hTracks
    have hDead : (p.destroy h).metrics.dead = p.metrics.dead := congrArg Books.dead hDestroyed
    rw [if_pos hTracks, hDestroyed, hDead] at hEvicted
    rw [if_pos hTracks]
    exact hp.writtenOff hTracks (Nat.le_refl 1) hEvicted
  · rw [if_neg hTracks] at hEvicted ⊢
    exact Accounted.of_books hp (hEvicted.trans (destroy_books_of_not_tracks hTracks))

/-! ## Operations -/

/-- Each eviction on the way to the first connection that is not dead keeps the balance. -/
theorem Balanced.takeIdle (hp : p.Balanced) (idle : List Handle) :
    p.Accounted (p.takeIdle idle).1 (p.takeIdleCounts idle) := by
  induction idle generalizing p with
  | nil => exact Accounted.of_books hp rfl
  | cons h rest ih =>
    rw [Pool.takeIdle, takeIdleCounts]
    split
    · have hTaken : p.Accounted { p with idle := rest } [] := Accounted.of_books hp rfl
      have hEvicted := hTaken.trans (hTaken.balanced.evict h)
      exact hEvicted.trans (ih hEvicted.balanced)
    · exact Accounted.of_books hp (checkOut_books { p with idle := rest } h)

/-- An attempt decrements for its evictions, and for nothing else. -/
theorem Balanced.attempt (hp : p.Balanced) : p.Accounted p.attempt.1 (p.decrements .attempt) := by
  rw [decrements]
  unfold Pool.attempt
  split
  · exact Accounted.of_books hp rfl
  · have hTaken := hp.takeIdle p.idle
    rcases hTake : p.takeIdle p.idle with ⟨q, found | h⟩
    · rw [hTake] at hTaken
      dsimp only
      split
      · have hGrown := hTaken.trans (hTaken.balanced.grow ‹_›)
        rwa [List.append_nil] at hGrown
      · split
        · exact hTaken.congr rfl
        · exact hTaken.congr rfl
    · rw [hTake] at hTaken
      exact hTaken

/-- Giving a connection back decrements the count at most once, when it is destroyed. -/
theorem Balanced.release (hp : p.Balanced) (h : Handle) :
    p.Accounted (p.release h) (p.releaseCounts h) := by
  have hReturned : (p.modify h (Connection.markUsed false)).books = p.books :=
    modify_books p h fun _ => rfl
  have hBalanced := hp.congr hReturned
  have hFirst := Accounted.of_books hp hReturned
  unfold Pool.release releaseCounts
  dsimp only
  by_cases hDead : (p.modify h (Connection.markUsed false)).isDead h = true
  · rw [if_pos hDead, hDead, Bool.true_or, if_pos rfl]
    exact (hFirst.trans (hBalanced.evict h)).congr (wakeNext_onlyWaiters _).books
  · rw [if_neg hDead, Bool.eq_false_iff.2 hDead, Bool.false_or]
    split
    · exact (hFirst.trans (hBalanced.destroy h)).congr (wakeNext_onlyWaiters _).books
    · exact (hFirst.congr rfl).congr (wakeNext_onlyWaiters _).books

/-- Retiring a connection decrements the count unless it was shut down or is not registered. -/
theorem Balanced.retire (hp : p.Balanced) (h : Handle) :
    p.Accounted (p.retire h) (p.retireCounts h) := by
  unfold Pool.retire retireCounts
  cases hConnection : p.connection? h with
  | none => exact Accounted.of_books hp rfl
  | some c =>
    dsimp only
    cases hShut : c.shutdown with
    | true => exact Accounted.of_books hp rfl
    | false =>
      cases hUsed : c.used with
      | true => exact Accounted.of_books hp (modify_books _ h fun _ => rfl)
      | false => exact hp.destroy h

theorem Balanced.retireAll (hp : p.Balanced) (handles : List Handle) :
    p.Accounted (handles.foldl Pool.retire p) (p.retireAllCounts handles) := by
  induction handles generalizing p with
  | nil => exact Accounted.of_books hp rfl
  | cons h rest ih => exact (hp.retire h).trans (ih (hp.retire h).balanced)

/-- A disposal decrements the count as the connections are retired, one after the other. -/
theorem Balanced.dispose (hp : p.Balanced) : p.Accounted p.dispose (p.decrements .dispose) := by
  rw [decrements]
  unfold Pool.dispose
  split
  · exact Accounted.of_books hp rfl
  · have hMarked : ({ p with disposed := true } : Pool).books = p.books := rfl
    have hRetired := (hp.congr hMarked).retireAll (p.registry.map (·.2))
    exact ((Accounted.of_books hp hMarked).trans hRetired).congr
      (foldl_complete_onlyWaiters _ _).books

/-- Every operation keeps the books balanced. -/
theorem Balanced.apply (hp : p.Balanced) (op : Op) :
    p.Accounted (p.apply op) (p.decrements op) := by
  cases op with
  | openMinimum => exact hp.openMinimum
  | attempt => exact hp.attempt
  | timeOut w => exact Accounted.of_books hp (timeOut_sameStock p w).books
  | abandon w => exact Accounted.of_books hp (abandon_onlyWaiters p w).books
  | release h => exact hp.release h
  | dispose => exact hp.dispose
  | setDead h dead => exact Accounted.of_books hp (modify_books p h fun _ => rfl)
  | shut h => exact Accounted.of_books hp (modify_books p h fun _ => rfl)
  | returning h => exact Accounted.of_books hp rfl
  | cycleBuffers count => exact Accounted.of_books hp rfl

/-- Whatever is done to a pool keeps its books balanced, and no decrement is made at zero. -/
theorem Balanced.applyAll (hp : p.Balanced) (ops : List Op) :
    p.Accounted (p.applyAll ops) (p.allDecrements ops) := by
  induction ops generalizing p with
  | nil => exact Accounted.of_books hp rfl
  | cons op ops ih => exact (hp.apply op).trans (ih (hp.apply op).balanced)

theorem balanced_fresh (endpoint : Endpoint) (config : PoolConfig) {factory : List FactoryOutcome}
    (hIds : KeepsIds 1 factory) : (fresh endpoint config factory).Balanced :=
  ⟨⟨[], tracked_fresh endpoint config hIds⟩, rfl, Nat.zero_le _⟩

theorem Balanced.registry_length (hp : p.Balanced) : p.registry.length = p.liveCount := by
  obtain ⟨live, hLive⟩ := hp.tracked
  rw [hLive.registry.length_eq, List.length_map, hLive.count]

/-- No id is registered twice. -/
theorem Balanced.registry_nodup (hp : p.Balanced) : (p.registry.map (·.1)).Nodup := by
  obtain ⟨live, hLive⟩ := hp.tracked
  rw [(hLive.registry.map (·.1)).nodup_iff, List.map_map]
  exact hLive.nodup.map_on fun g hg h hh hEq => hLive.eq_of_idOf_eq hg hh hEq

theorem Balanced.room (hp : p.Balanced) : p.liveCount ≤ p.config.maxSize := by
  obtain ⟨live, hLive⟩ := hp.tracked
  exact hLive.room

end Pool

namespace Session

open Pool

/-- The count of live connections each time it is decremented in a use. -/
def decrements (s : Session) (u : Use) : List Nat := s.pool.allDecrements (s.useOps u)

/-- One use of a pool, whatever else it does to callers, keeps the books balanced. -/
theorem use_accounted {s : Session} (hs : s.pool.Balanced) (u : Use) :
    s.pool.Accounted (s.use u).pool (s.decrements u) := by
  rw [use_pool]
  exact hs.applyAll _

/-- Whatever callers do, also those who give back connections that they do not hold, any number of
times and in any state, and whichever connections die: the count of live connections is the number
of entries of the registry, and that of the connections that were made and not closed. It is within
the bound, and it is never decremented at zero. -/
theorem books_balance (endpoint : Endpoint) (config : PoolConfig) (factory : List FactoryOutcome)
    (uses : List Use) (hIds : KeepsIds 1 factory) :
    let s := useAll { pool := fresh endpoint config factory } uses
    s.pool.liveCount = s.pool.registry.length ∧ (s.pool.registry.map (·.1)).Nodup ∧
      s.pool.metrics.created = s.pool.metrics.closed + s.pool.liveCount ∧
      s.pool.liveCount ≤ config.maxSize ∧ s.pool.metrics.dead ≤ s.pool.metrics.closed ∧
      ∀ u, 0 ∉ s.decrements u ∧
        (s.use u).pool.metrics.closed = s.pool.metrics.closed + (s.decrements u).length := by
  intro s
  have hs : s.pool.Balanced ∧ s.pool.config = config := by
    refine useAll_induction (P := fun p => p.Balanced ∧ p.config = config) ?_
      ⟨balanced_fresh endpoint config hIds, rfl⟩ uses
    rintro p op ⟨hp, hConfig⟩
    have hNext := hp.apply op
    exact ⟨hNext.balanced, hNext.config.trans hConfig⟩
  obtain ⟨hBalanced, hConfig⟩ := hs
  refine ⟨hBalanced.registry_length.symm, hBalanced.registry_nodup, hBalanced.created, ?_,
    hBalanced.dead, fun u => ?_⟩
  · rw [← hConfig]
    exact hBalanced.room
  · have hUse := use_accounted hBalanced u
    exact ⟨hUse.positive, hUse.closed⟩

/-- A connection is given back twice more than it was taken, dies and is met three times among the
idle ones; the next one is given back twice after the disposal, and then its guard is dropped. -/
theorem books_balance_after_returns :
    (useAll
      { pool := fresh ⟨.v4 [127, 0, 0, 1], 11210⟩ { maxSize := 3 }
          [.connection, .failure .closed, .connection false (some ⟨3⟩)] }
      [.step (.acquire false), .step (.release 0), .giveBack 0, .giveBack 0, .step (.kill 0),
        .step (.acquire true), .step (.acquire true), .step .dispose, .giveBack 1, .giveBack 1,
        .step (.drop 1)]).pool.liveCount = 0 := by
  have hIds : KeepsIds 1 [.connection, .failure .closed, .connection false (some ⟨3⟩)] := by
    intro i dead id hAt
    rcases i with _ | _ | _ | i <;> cases hAt
    rfl
  obtain ⟨hCount, -⟩ := books_balance ⟨.v4 [127, 0, 0, 1], 11210⟩ { maxSize := 3 }
    _ [.step (.acquire false), .step (.release 0), .giveBack 0, .giveBack 0, .step (.kill 0),
      .step (.acquire true), .step (.acquire true), .step .dispose, .giveBack 1, .giveBack 1,
      .step (.drop 1)] hIds
  exact hCount.trans (by decide +kernel)

end Session

end StoreClient
