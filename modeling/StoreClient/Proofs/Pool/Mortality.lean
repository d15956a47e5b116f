import StoreClient.Proofs.Pool.Runs
import StoreClient.Proofs.Pool.Spares

/-!
# Connections that stay dead

A connection that is given back twice may be idle although the pool has closed it. As long as no
connection comes back to life, such a connection is not the last idle one of a pool without room for
another one: what is put behind it, by a release or when connections are opened in advance, is live
(`Mortal`). So whoever finds only dead connections idle makes room by evicting them, and whoever is
queued has found none.
-/

namespace StoreClient

namespace Pool

open Relation

variable {p q r : Pool} {g h : Handle} {w : WaiterId}

/-- The registry lacks only dead connections. The last idle connection is in the registry if there
is no room for another one. -/
structure Mortal (p : Pool) : Prop where
  traced : p.Traced
  alive : ∀ h < p.connections.length, p.isDead h = false → p.tracks h = true
  last : p.config.maxSize ≤ p.liveCount → ∀ h ∈ p.idle.getLast?, h < p.connections.length →
    p.tracks h = true

theorem made_of_isDead (hDead : p.isDead h = true) : h < p.connections.length := by
  by_contra hNot
  have hNone : p.connection? h = none := List.getElem?_eq_none (Nat.le_of_not_lt hNot)
  rw [isDead, hNone] at hDead
  cases hDead

theorem Mortal.of_stock (hp : p.Mortal) (hStock : q.stock = p.stock) : q.Mortal := by
  have hConnections : q.connections = p.connections := congrArg Stock.connections hStock
  have hIdle : q.idle = p.idle := congrArg Stock.idle hStock
  have hConfig : q.config = p.config := congrArg Stock.config hStock
  have hCount : q.liveCount = p.liveCount := congrArg Stock.liveCount hStock
  have hTracks : q.tracks = p.tracks := funext fun h =>
    tracks_congr (congrArg (fun k => k.connections.map (·.id)) hStock)
      (congrArg Stock.registry hStock) h
  refine ⟨hp.traced.of_stock hStock, fun h hMade hAlive => ?_, fun hFull h hLast hMade => ?_⟩
  · rw [hConnections] at hMade
    rw [isDead_congr hConnections] at hAlive
    rw [hTracks]
    exact hp.alive h hMade hAlive
  · rw [hConfig, hCount] at hFull
    rw [hIdle] at hLast
    rw [hConnections] at hMade
    rw [hTracks]
    exact hp.last hFull h hLast hMade

/-- What happens to connections does not matter if it brings none back to life. -/
theorem Mortal.modify (hp : p.Mortal) (h : Handle) {f : Connection → Connection}
    (hId : ∀ c, (f c).id = c.id) (hShut : ∀ c, (f c).shutdown = false → c.shutdown = false)
    (hDead : ∀ c, (f c).dead = false → c.dead = false) : (p.modify h f).Mortal := by
  have hLength : (p.modify h f).connections.length = p.connections.length :=
    List.length_modify _ _ _
  have hTracks : (p.modify h f).tracks = p.tracks :=
    funext (tracks_congr (ids_modify p h hId) rfl)
  refine ⟨hp.traced.modify h hId hShut, fun g hMade hAlive => ?_, fun hFull g hLast hMade => ?_⟩
  · rw [hLength] at hMade
    rw [hTracks]
    refine hp.alive g hMade ?_
    by_cases hSame : g = h
    · subst hSame
      have hFound : p.connection? g = some p.connections[g] := List.getElem?_eq_getElem hMade
      rw [isDead, connection?_modify_self, hFound] at hAlive
      rw [isDead, hFound]
      exact hDead _ hAlive
    · rw [isDead, connection?_modify_of_ne p f hSame] at hAlive
      exact hAlive
  · rw [hLength] at hMade
    rw [hTracks]
    exact hp.last hFull g hLast hMade

theorem Mortal.withIdle (hp : p.Mortal) {idle : List Handle}
    (hLast : p.config.maxSize ≤ p.liveCount → ∀ h ∈ idle.getLast?, h < p.connections.length →
      p.tracks h = true) : Mortal { p with idle } :=
  ⟨hp.traced.withIdle idle, hp.alive, hLast⟩

/-! ## Closing and opening connections -/

/-- A connection that is in the registry makes room when it is destroyed. -/
theorem Traced.room_of_destroy (hp : p.Traced) (hTracks : p.tracks h = true) :
    (p.destroy h).liveCount < p.config.maxSize := by
  obtain ⟨live, hLive, -⟩ := hp.tracked
  obtain ⟨metrics, hEq⟩ := destroy_eq p h
  have hPositive : 0 < p.liveCount := by
    rw [hLive.count]
    exact List.length_pos_of_mem (hp.mem_of_tracks hLive hTracks)
  have hRoom := hLive.room
  rw [hEq, if_pos hTracks]
  show p.liveCount - 1 < p.config.maxSize
  omega

/-- A dead connection may be destroyed: the last idle one stays in the registry, or there is room.
-/
theorem Mortal.destroy (hp : p.Mortal) (hDead : p.isDead h = true) : (p.destroy h).Mortal := by
  obtain ⟨live, hLive, -⟩ := hp.traced.tracked
  have hLength : (p.destroy h).connections.length = p.connections.length := by
    rw [destroy_connections]
    exact List.length_modify _ _ _
  have hMade : h < p.connections.length := made_of_isDead hDead
  refine ⟨hp.traced.destroy h, fun g hg hAlive => ?_, fun hFull g hLast hg => ?_⟩
  · rw [hLength] at hg
    rw [isDead_destroy] at hAlive
    have hNe : g ≠ h := by
      rintro rfl
      cases hDead.symm.trans hAlive
    exact tracks_destroy hLive.ids_nodup hg hMade hNe (hp.alive g hg hAlive)
  · have hConfig : (p.destroy h).config = p.config := (destroy_onlyConnections p h).config
    have hNot : ¬ p.tracks h = true := by
      intro hTracks
      have hRoom := hp.traced.room_of_destroy hTracks
      rw [hConfig] at hFull
      omega
    have hBooks := destroy_books_of_not_tracks hNot
    have hCount : (p.destroy h).liveCount = p.liveCount := congrArg Books.liveCount hBooks
    rw [hConfig, hCount] at hFull
    rw [destroy_idle] at hLast
    rw [hLength] at hg
    rw [tracks_congr (congrArg Books.ids hBooks) (congrArg Books.registry hBooks)]
    exact hp.last hFull g hLast hg

theorem Mortal.create_error {e : PoolError} (hp : p.Mortal) (hCreate : p.create = (q, .error e)) :
    q.Mortal := by
  have hTraced := hp.traced.create_error hCreate
  rcases create_cases p with ⟨e', log, -, hEq⟩ | ⟨k, metrics, log, -, -, hEq⟩
  · cases hEq.symm.trans hCreate
    exact ⟨hTraced, hp.alive, hp.last⟩
  · cases hEq.symm.trans hCreate

/-- A new connection is in the registry, and so it may be the last idle one. -/
theorem Mortal.create_ok (hp : p.Mortal) (hRoom : p.liveCount < p.config.maxSize)
    (hCreate : p.create = (q, .ok h)) {idle : List Handle} (hIdle : ∀ g ∈ idle.getLast?, g = h) :
    Mortal { q with idle } := by
  have hTraced := hp.traced.create_ok hRoom hCreate
  obtain ⟨live, hLive, -⟩ := hp.traced.tracked
  obtain ⟨hNext, -⟩ := hLive.create_ok hRoom hCreate
  have hNew : q.tracks h = true := hNext.tracks List.mem_cons_self
  obtain ⟨c, -, rfl, hConnections, hRegistry, -, -⟩ := create_new hCreate
  refine ⟨hTraced.withIdle idle, fun g hMade hAlive => ?_, fun _ g hLast _ => ?_⟩
  · change q.tracks g = true
    by_cases hSame : g = p.connections.length
    · exact hSame ▸ hNew
    · have hLength : q.connections.length = p.connections.length + 1 := by
        rw [hConnections, List.length_append]
        rfl
      have hBound : g < q.connections.length := hMade
      have hOld : g < p.connections.length := by omega
      have hStill : p.isDead g = false := by
        rw [isDead, ← connection?_append hConnections hOld]
        exact hAlive
      exact tracks_append hNext.ids_nodup hConnections hRegistry hOld (hp.alive g hOld hStill)
  · rw [hIdle g hLast]
    exact hNew

/-! ## Operations -/

theorem Mortal.tail (hp : p.Mortal) {rest : List Handle} (hIdle : p.idle = h :: rest) :
    Mortal { p with idle := rest } := by
  refine hp.withIdle fun hFull g hLast hMade => hp.last hFull g ?_ hMade
  have hSome : rest.getLast? = some g := hLast
  rw [hIdle, List.getLast?_cons, hSome]
  rfl

/-- A dead connection may be evicted from the front. -/
theorem Mortal.evictFirst (hp : p.Mortal) (hEvicts : EvictsFirst p q) : q.Mortal := by
  obtain ⟨h, rest, hIdle, hDead, rfl⟩ := hEvicts
  exact ((hp.tail hIdle).destroy hDead).of_stock (evict_stock _ h)

theorem Mortal.evictsFirst (hp : p.Mortal) (hEvicts : ReflTransGen EvictsFirst p q) :
    q.Mortal := by
  induction hEvicts with
  | refl => exact hp
  | tail _ hLast ih => exact ih.evictFirst hLast

/-- Nothing is idle when a connection is made for a caller. -/
theorem Mortal.grow (hp : p.Mortal) (hIdle : p.idle = [])
    (hRoom : p.liveCount < p.config.maxSize) : p.grow.1.Mortal := by
  rcases grow_cases p with ⟨q, e, hCreate, hGrow⟩ | ⟨q, h, hCreate, hGrow⟩
  · rw [hGrow]
    exact (hp.create_error hCreate).of_stock rfl
  · obtain ⟨c, -, -, -, -, hKept, -⟩ := create_new hCreate
    have hMade : Mortal { q with idle := [] } := hp.create_ok hRoom hCreate nofun
    have hNone : q.idle = [] := hKept.trans hIdle
    have hGiven := (hMade.of_stock (q := q) (by rw [← hNone])).modify h
      (f := Connection.markUsed true) (fun _ => rfl) (fun _ => id) fun _ => id
    rw [hGrow]
    exact hGiven.of_stock rfl

/-- An attempt only takes connections from the front. -/
theorem Mortal.attempt (hp : p.Mortal) : p.attempt.1.Mortal := by
  cases hDisposed : p.disposed with
  | true =>
    rw [attempt_of_disposed hDisposed]
    exact hp
  | false =>
    obtain ⟨q, hEvicts, hEnd⟩ := attempt_cases hDisposed
    have hq : q.Mortal := hp.evictsFirst hEvicts
    rcases hEnd with ⟨h, rest, hIdle, -, hEnd⟩ | ⟨hIdle, hRoom, hEnd⟩ | ⟨-, -, -, hEnd⟩ |
      ⟨-, -, -, hEnd⟩
    · have hRest : Mortal { q with idle := rest } := hq.tail hIdle
      have hGiven := hRest.modify h (f := Connection.markUsed true) (fun _ => rfl) (fun _ => id)
        fun _ => id
      rw [hEnd]
      exact hGiven.of_stock rfl
    · rw [hEnd]
      exact hq.grow hIdle hRoom
    · rw [hEnd]
      exact hq.of_stock (enqueue_sameStock q).stock
    · rw [hEnd]
      exact hq.of_stock (refuse_sameStock q).stock

/-- A connection that is opened in advance is idle behind the others, and in the registry. -/
theorem Mortal.openMinimum (hp : p.Mortal) : p.openMinimum.Mortal := by
  refine openMinimum_induction (P := Mortal) hp (fun q r hq hOpens => ?_) fun q r e hq hCreate => ?_
  · obtain ⟨hRoom, r, h, hCreate, rfl⟩ := hOpens
    refine hq.create_ok hRoom hCreate fun g hLast => ?_
    rw [List.getLast?_concat] at hLast
    exact (Option.some.inj hLast).symm
  · exact (hq.create_error hCreate).of_stock rfl

/-- Only a connection that is not dead becomes idle when it is given back. -/
theorem Mortal.release (hp : p.Mortal) (hOpen : p.disposed = false) (h : Handle) :
    (p.release h).Mortal := by
  have hReturned : (p.modify h (Connection.markUsed false)).Mortal :=
    hp.modify h (fun _ => rfl) (fun _ => id) fun _ => id
  have hStock := release_stock p h
  rw [hOpen, Bool.or_false] at hStock
  cases hDead : (p.modify h (Connection.markUsed false)).isDead h with
  | true =>
    rw [hDead, if_pos rfl] at hStock
    exact (hReturned.destroy hDead).of_stock hStock
  | false =>
    rw [hDead, if_neg Bool.false_ne_true] at hStock
    refine (hReturned.withIdle fun _ g hLast hMade => ?_).of_stock hStock
    rw [List.getLast?_concat] at hLast
    cases hLast
    exact hReturned.alive h hMade hDead

/-- Whatever is done to a pool before its disposal, if no connection comes back to life. -/
theorem Mortal.apply (hp : p.Mortal) {op : Op} (hOpen : (p.apply op).disposed = false)
    (hDies : ∀ h, op ≠ .setDead h false) : (p.apply op).Mortal := by
  obtain ⟨hBefore, hNot⟩ := open_of_apply hOpen
  cases op with
  | openMinimum => exact hp.openMinimum
  | attempt => exact hp.attempt
  | timeOut w => exact hp.of_stock (timeOut_sameStock p w).stock
  | abandon w => exact hp.of_stock (abandon_onlyWaiters p w).stock
  | release h => exact hp.release hBefore h
  | dispose => exact absurd rfl hNot
  | setDead h dead =>
    cases dead with
    | true => exact hp.modify h (fun _ => rfl) (fun _ => id) fun _ hAlive => by cases hAlive
    | false => exact absurd rfl (hDies h)
  | shut h => exact hp.modify h (fun _ => rfl) (fun _ hShut => by cases hShut) fun _ => id
  | returning h => exact hp.of_stock rfl
  | cycleBuffers count => exact hp.of_stock rfl

theorem mortal_fresh (endpoint : Endpoint) (config : PoolConfig) {factory : List FactoryOutcome}
    (hIds : KeepsIds 1 factory) : (fresh endpoint config factory).Mortal where
  traced := traced_fresh endpoint config hIds
  alive := nofun
  last := nofun

/-! ## Who is queued has found no idle connection -/

/-- When the last idle connection is evicted, there is room afterwards. -/
theorem Mortal.room_of_evict (hp : p.Mortal) (hIdle : p.idle = [h]) (hDead : p.isDead h = true) :
    (evict { p with idle := [] } h).liveCount < p.config.maxSize := by
  have hCount : (evict { p with idle := [] } h).liveCount =
      (Pool.destroy { p with idle := [] } h).liveCount :=
    congrArg Stock.liveCount (evict_stock { p with idle := [] } h)
  rw [hCount]
  by_cases hFull : p.config.maxSize ≤ p.liveCount
  · have hTracks : p.tracks h = true := by
      refine hp.last hFull h ?_ (made_of_isDead hDead)
      rw [hIdle]
      rfl
    exact (hp.traced.withIdle []).room_of_destroy hTracks
  · obtain ⟨metrics, hEq⟩ := destroy_eq { p with idle := [] } h
    rw [hEq]
    exact Nat.lt_of_le_of_lt (Nat.sub_le _ _) (Nat.lt_of_not_le hFull)

/-- Evictions that leave no idle connection leave room, unless there was none to evict. -/
theorem Mortal.idle_or_room (hp : p.Mortal) (hEvicts : ReflTransGen EvictsFirst p q)
    (hNone : q.idle = []) : p.idle = [] ∨ q.liveCount < q.config.maxSize := by
  induction hEvicts using ReflTransGen.head_induction_on with
  | refl => exact Or.inl hNone
  | head hFirst hRest ih =>
    rcases ih (hp.evictFirst hFirst) with hEmpty | hRoom
    · -- the first one was the only one
      rcases hRest.cases_head with rfl | ⟨_, ⟨g, rest, hMore, -⟩, -⟩
      · obtain ⟨h, rest, hIdle, hDead, rfl⟩ := hFirst
        have hLast : rest = [] := (evict_idle _ h).symm.trans hEmpty
        subst hLast
        rw [(evict_onlyConnections _ h).config]
        exact Or.inr (hp.room_of_evict hIdle hDead)
      · cases hEmpty.symm.trans hMore
    · exact Or.inr hRoom

/-- Only a caller who finds no idle connection is queued, dead or alive. -/
theorem Mortal.idle_of_queued (hp : p.Mortal) (hAttempt : p.attempt = (r, .queued w)) :
    p.idle = [] := by
  obtain ⟨q, hEvicts, hIdle, hFull, -, -, -⟩ := attempt_queued hAttempt
  rcases hp.idle_or_room hEvicts hIdle with hNone | hRoom
  · exact hNone
  · omega

end Pool

namespace Session

open Pool

/-- In a run in which no connection comes back to life, as long as the pool is not disposed of. -/
theorem mortal_useAll {s : Session} {uses : List Use} (hs : s.pool.Mortal)
    (hDie : ∀ h, Use.step (.revive h) ∉ uses) (hOpen : (s.useAll uses).pool.disposed = false) :
    (s.useAll uses).pool.Mortal := by
  refine useAll_induction_of_forall (P := fun p => p.disposed = false → p.Mortal)
    (K := fun op => ∀ h, op ≠ .setDead h false) (fun p op hDies hp hAfter => ?_) (fun _ => hs)
    (fun u hu s op hOp h => ?_) hOpen
  · exact (hp (open_of_apply hAfter).1).apply hAfter hDies
  · rintro rfl
    exact revive_notMem_useOps (fun hRevives => hDie h (hRevives ▸ hu)) hOp

end Session

end StoreClient
