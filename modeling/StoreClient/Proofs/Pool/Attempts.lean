import StoreClient.Proofs.Pool.Counts
import StoreClient.Proofs.Pool.Holding
import StoreClient.Proofs.Pool.Intact

/-!
# What one attempt does

Dead connections at the head of the idle ones are evicted, one after the other (`cleared`); each of
them makes room for another connection. What the attempt comes to then depends on what is idle, on
the room, and on the count of failures. This needs that each live connection is in one place, which
every faithful list of operations keeps (`Owned.apply`).
-/

namespace StoreClient

namespace Pool

variable {p q : Pool} {dead held live rest : List Handle} {factory : List FactoryOutcome}
  {h : Handle}

/-! ## Faithful operations -/

theorem open_of_applyAll {ops : List Op} (hAfter : (p.applyAll ops).disposed = false) :
    p.disposed = false := by
  induction ops generalizing p with
  | nil => exact hAfter
  | cons op ops ih => exact (open_of_apply (ih hAfter)).1

/-- What each operation keeps that gives back only what is held, all of them keep, as long as nobody
disposes of the pool. -/
theorem Faithful.induction {P : Pool → List Handle → Prop} {ops : List Op}
    (hOps : p.Faithful held ops) (hAfter : (p.applyAll ops).disposed = false)
    (hApply : ∀ p held op, op.given ⊆ held → op ≠ .dispose → P p held →
      P (p.apply op) (p.heldAfter held op))
    (hp : P p held) : P (p.applyAll ops) (p.heldAfterAll held ops) := by
  induction ops generalizing p held with
  | nil => exact hp
  | cons op ops ih =>
    have hNext : (p.apply op).disposed = false := open_of_applyAll hAfter
    exact ih hOps.2 hAfter (hApply p held op hOps.1 (open_of_apply hNext).2 hp)

/-- What each operation before the disposal keeps: every live connection is idle, or held by one
caller. -/
theorem Owned.apply {op : Op} (hp : p.Owned [] held) (hGiven : op.given ⊆ held)
    (hNot : op ≠ .dispose) : (p.apply op).Owned [] (p.heldAfter held op) := by
  cases op with
  | openMinimum => exact hp.openMinimum
  | attempt => exact hp.attempt
  | timeOut w => exact hp.congr (timeOut_sameStock p w).stock
  | abandon w => exact hp.congr (abandon_onlyWaiters p w).stock
  | release h =>
    have hMem : h ∈ held := hGiven List.mem_cons_self
    exact (hp.perm (List.perm_cons_erase hMem)).release
  | dispose => exact absurd rfl hNot
  | setDead h dead => exact hp.modify h (fun _ => rfl) fun _ => rfl
  | shut h => exact hp.modify h (fun _ => rfl) fun _ => rfl
  | returning h => exact hp.congr rfl
  | cycleBuffers count => exact hp.congr rfl

theorem owned_fresh (endpoint : Endpoint) (config : PoolConfig) (hIds : KeepsIds 1 factory) :
    (fresh endpoint config factory).Owned [] [] where
  tracked := tracked_fresh endpoint config hIds
  used := nofun
  unused := nofun

/-! ## Calls of the factory -/

/-- Each call of the factory used up one outcome and one id, and nothing else did. -/
structure Spent (factory : List FactoryOutcome) (p : Pool) : Prop where
  pos : 0 < p.nextId
  left : p.factory = factory.drop (p.nextId - 1)

theorem Spent.congr (hp : p.Spent factory) (hFactory : q.factory = p.factory)
    (hNext : q.nextId = p.nextId) : q.Spent factory := by
  refine ⟨?_, ?_⟩
  · rw [hNext]
    exact hp.pos
  · rw [hFactory, hNext]
    exact hp.left

theorem Spent.of_stock (hp : p.Spent factory) (hStock : q.stock = p.stock) : q.Spent factory :=
  hp.congr (congrArg Stock.factory hStock) (congrArg Stock.nextId hStock)

/-- A call of the factory uses up an outcome and an id also if it fails. -/
theorem Spent.create (hp : p.Spent factory) : p.create.1.Spent factory := by
  have hPos := hp.pos
  have hNext : p.create.1.nextId = p.nextId + 1 ∧ p.create.1.factory = p.factory.tail := by
    rcases create_cases p with ⟨e, log, -, hEq⟩ | ⟨c, metrics, log, -, -, hEq⟩ <;> rw [hEq] <;>
      exact ⟨rfl, rfl⟩
  refine ⟨by omega, ?_⟩
  have hOne : p.nextId + 1 - 1 = p.nextId - 1 + 1 := by omega
  rw [hNext.2, hNext.1, hp.left, List.tail_drop, hOne]

/-- An attempt calls the factory at most once, and only for its caller. -/
theorem Spent.attempt (hp : p.Spent factory) : p.attempt.1.Spent factory := by
  cases hDisposed : p.disposed with
  | true =>
    rw [attempt_of_disposed hDisposed]
    exact hp
  | false =>
    obtain ⟨q, hEvicts, hEnd⟩ := attempt_cases hDisposed
    obtain ⟨hFactory, hNext⟩ := factory_of_evictsFirst hEvicts
    have hq : q.Spent factory := hp.congr hFactory hNext
    rcases hEnd with ⟨h, rest, -, -, hEnd⟩ | ⟨-, -, hEnd⟩ | ⟨-, -, -, hEnd⟩ | ⟨-, -, -, hEnd⟩
    · rw [hEnd]
      exact hq.congr rfl rfl
    · have hCreated := hq.create
      rw [hEnd]
      rcases grow_cases q with ⟨r, e, hCreate, hGrow⟩ | ⟨r, h, hCreate, hGrow⟩ <;>
        rw [hCreate] at hCreated <;> rw [hGrow] <;> exact hCreated.congr rfl rfl
    · rw [hEnd]
      exact hq.of_stock (enqueue_sameStock q).stock
    · rw [hEnd]
      exact hq.of_stock (refuse_sameStock q).stock

theorem Spent.openMinimum (hp : p.Spent factory) : p.openMinimum.Spent factory := by
  refine openMinimum_induction (P := fun q => q.Spent factory) hp (fun q r hq hOpens => ?_)
    fun q r e hq hCreate => ?_
  · obtain ⟨-, r, h, hCreate, rfl⟩ := hOpens
    have hCreated := hq.create
    rw [hCreate] at hCreated
    exact hCreated.congr rfl rfl
  · have hCreated := hq.create
    rw [hCreate] at hCreated
    exact hCreated.congr rfl rfl

theorem Spent.release (hp : p.Spent factory) (h : Handle) : (p.release h).Spent factory := by
  have hStock := release_stock p h
  obtain ⟨metrics, hClosed⟩ := destroy_eq (p.modify h (Connection.markUsed false)) h
  rw [hClosed] at hStock
  split at hStock <;> exact hp.congr (congrArg Stock.factory hStock) (congrArg Stock.nextId hStock)

theorem Spent.apply {op : Op} (hp : p.Spent factory) (hNot : op ≠ .dispose) :
    (p.apply op).Spent factory := by
  cases op with
  | openMinimum => exact hp.openMinimum
  | attempt => exact hp.attempt
  | timeOut w => exact hp.of_stock (timeOut_sameStock p w).stock
  | abandon w => exact hp.of_stock (abandon_onlyWaiters p w).stock
  | release h => exact hp.release h
  | dispose => exact absurd rfl hNot
  | _ => exact hp.congr rfl rfl

/-! ## Evictions -/

/-- What is logged about dead connections that are evicted one after the other. -/
def deathNotes (p : Pool) (dead : List Handle) : List Log.Entry :=
  dead.mapIdx fun i h =>
    { level := .info
      message := "connection is dead"
      values := [p.idValue h, ("count", toString (p.liveCount - (i + 1)))] }

/-- The pool after the eviction of some dead connections: they were closed, forgotten and reported.
The connections in `rest` are idle. -/
def cleared (p : Pool) (dead rest : List Handle) : Pool :=
  { p with
    connections := p.connections.mapIdx fun h c => if h ∈ dead then c.dispose else c
    idle := rest
    registry := p.registry.filter fun r => r.2 ∉ dead
    liveCount := p.liveCount - dead.length
    metrics :=
      { p.metrics with
        closed := p.metrics.closed + dead.length
        dead := p.metrics.dead + dead.length }
    reports := p.reports ++ List.replicate dead.length true
    log := p.log ++ p.deathNotes dead }

theorem cleared_nil (p : Pool) (rest : List Handle) :
    p.cleared [] rest = { p with idle := rest } := by
  have hConnections : (p.connections.mapIdx fun h c => if h ∈ [] then c.dispose else c) =
      p.connections := by
    refine List.ext_getElem? fun i => ?_
    simp
  have hRegistry : (p.registry.filter fun r => r.2 ∉ []) = p.registry := by
    simp
  unfold cleared
  rw [hConnections, hRegistry]
  simp [deathNotes]

/-- What a disposal leaves as it is in a connection stays as it is in all. -/
theorem cleared_map {α : Type} {f : Connection → α} (p : Pool) (dead rest : List Handle)
    (hf : ∀ c : Connection, f c.dispose = f c) :
    (p.cleared dead rest).connections.map f = p.connections.map f := by
  refine List.ext_getElem? fun i => ?_
  unfold cleared
  dsimp only
  rw [List.getElem?_map, List.getElem?_mapIdx, List.getElem?_map, Option.map_map]
  refine congrArg (Option.map · p.connections[i]?) (funext fun c => ?_)
  by_cases hDead : i ∈ dead
  · simp [hDead, hf]
  · simp [hDead]

theorem cleared_ids (p : Pool) (dead rest : List Handle) : (p.cleared dead rest).ids = p.ids :=
  cleared_map p dead rest fun _ => rfl

/-- An evicted connection is as dead as it was. -/
theorem cleared_isDead (p : Pool) (dead rest : List Handle) (g : Handle) :
    (p.cleared dead rest).isDead g = p.isDead g := by
  have hMap := cleared_map (f := Connection.dead) p dead rest fun _ => rfl
  have hAny (q : Pool) : q.isDead g = ((q.connections.map Connection.dead)[g]?).any id := by
    rw [List.getElem?_map, Option.any_map]
    rfl
  rw [hAny, hAny, hMap]

/-- What is live after some evictions is what was live, but for the evicted ones. -/
theorem Tracked.cleared (hp : p.Tracked (dead ++ live)) (rest : List Handle) :
    (p.cleared dead rest).Tracked live := by
  have hIds := cleared_ids p dead rest
  obtain ⟨-, hNodup, hApart⟩ := List.nodup_append'.1 hp.nodup
  have hCount : p.liveCount = dead.length + live.length := by
    rw [hp.count, List.length_append]
  have hRegistry : (p.registry.filter fun r => r.2 ∉ dead).Perm
      (live.map fun h => (p.idOf h, h)) := by
    refine (hp.registry.filter _).trans ?_
    rw [List.map_append, List.filter_append]
    have hGone : ((dead.map fun h => (p.idOf h, h)).filter fun r => r.2 ∉ dead) = [] := by
      simp
    have hKept : ((live.map fun h => (p.idOf h, h)).filter fun r => r.2 ∉ dead) =
        live.map fun h => (p.idOf h, h) := by
      refine List.filter_eq_self.2 fun r hr => ?_
      obtain ⟨h, hh, rfl⟩ := List.mem_map.1 hr
      exact decide_eq_true fun hMem => hApart hMem hh
    rw [hGone, hKept, List.nil_append]
  refine ⟨hp.keepsIds, ?_, ?_, hNodup, fun h hh => ?_, ?_, ?_, ?_⟩
  · -- ids_lt
    rw [hIds]
    exact hp.ids_lt
  · -- ids_nodup
    rw [hIds]
    exact hp.ids_nodup
  · -- made
    rw [hIds]
    exact hp.made h (List.mem_append_right dead hh)
  · -- registry
    rw [funext (idOf_congr hIds)]
    exact hRegistry
  · -- count
    show p.liveCount - dead.length = live.length
    omega
  · -- room
    exact (Nat.sub_le _ _).trans hp.room

/-- An eviction of a live connection. -/
theorem evict_of_tracked (hp : p.Tracked live) (hLive : h ∈ live) (hDead : p.isDead h = true) :
    p.evict h = p.cleared [h] p.idle := by
  have hTracks : p.tracks h = true := hp.tracks hLive
  have hConnections : p.connections.modify h Connection.dispose =
      p.connections.mapIdx fun g c => if g ∈ [h] then c.dispose else c := by
    refine List.ext_getElem? fun i => ?_
    rw [List.getElem?_modify, List.getElem?_mapIdx]
    by_cases hSame : h = i
    · simp [hSame]
    · simp [hSame, Ne.symm hSame]
  -- ids of live connections differ, so that the id stands for the connection
  have hRegistry : (p.registry.filter fun r => r.1 != p.idOf h) =
      p.registry.filter fun r => r.2 ∉ [h] := by
    refine List.filter_congr fun r hr => ?_
    obtain ⟨g, hg, rfl⟩ := List.mem_map.1 (hp.registry.mem_iff.1 hr)
    by_cases hSame : g = h
    · simp [hSame]
    · have hNe : p.idOf g ≠ p.idOf h := fun hId => hSame (hp.eq_of_idOf_eq hg hLive hId)
      simp [hSame, hNe]
  have hGone : p.destroy h = { p with
      connections := p.connections.modify h Connection.dispose
      registry := p.registry.filter fun r => r.1 != p.idOf h
      liveCount := p.liveCount - 1
      metrics := { p.metrics with closed := p.metrics.closed + 1 } } := if_pos hTracks
  have hReport : (p.evict h).reports = p.reports ++ [true] :=
    congrArg Prod.fst (evict_deaths hDead)
  unfold evict at hReport ⊢
  dsimp only at hReport ⊢
  rw [if_pos hTracks, hGone] at hReport ⊢
  rw [hReport]
  unfold cleared note
  dsimp only
  rw [hConnections, hRegistry]
  rfl

/-- Each eviction logs how many live connections are left. -/
theorem deathNotes_cons (p : Pool) (h : Handle) (dead idle : List Handle) :
    p.deathNotes (h :: dead) = p.deathNotes [h] ++ (p.cleared [h] idle).deathNotes dead := by
  have hIdValue (g : Handle) : (p.cleared [h] idle).idValue g = p.idValue g := by
    unfold idValue
    rw [idOf_congr (cleared_ids p [h] idle)]
  have hCount (i : Nat) :
      p.liveCount - (i + 1 + 1) = (p.cleared [h] idle).liveCount - (i + 1) := by
    show p.liveCount - (i + 1 + 1) = p.liveCount - 1 - (i + 1)
    omega
  unfold deathNotes
  simp only [List.mapIdx_cons, List.mapIdx_nil, List.singleton_append, hIdValue, hCount]

/-- One eviction before others. -/
theorem cleared_cleared (p : Pool) (idle : List Handle) (hNew : h ∉ dead) :
    (p.cleared [h] idle).cleared dead rest = p.cleared (h :: dead) rest := by
  have hConnections : ((p.cleared [h] idle).connections.mapIdx fun g c =>
        if g ∈ dead then c.dispose else c) =
      p.connections.mapIdx fun g c => if g ∈ h :: dead then c.dispose else c := by
    refine List.ext_getElem? fun i => ?_
    unfold cleared
    dsimp only
    rw [List.getElem?_mapIdx, List.getElem?_mapIdx, List.getElem?_mapIdx]
    by_cases hSame : i = h
    · subst hSame
      cases p.connections[i]? <;> simp [hNew]
    · cases p.connections[i]? <;> simp [hSame]
  have hRegistry : ((p.cleared [h] idle).registry.filter fun r => r.2 ∉ dead) =
      p.registry.filter fun r => r.2 ∉ h :: dead := by
    unfold cleared
    dsimp only
    rw [List.filter_filter]
    refine List.filter_congr fun r hr => ?_
    simp [Bool.and_comm]
  have hReports : p.reports ++ [true] ++ List.replicate dead.length true =
      p.reports ++ List.replicate (h :: dead).length true := by
    rw [List.length_cons, List.replicate_succ, List.append_assoc, List.singleton_append]
  have hTotal (n : Nat) : n + 1 + dead.length = n + (h :: dead).length := by
    rw [List.length_cons]
    omega
  have hCount : p.liveCount - 1 - dead.length = p.liveCount - (h :: dead).length := by
    rw [List.length_cons]
    omega
  -- both sides field by field
  show ({ p with
      connections := (p.cleared [h] idle).connections.mapIdx fun g c =>
        if g ∈ dead then c.dispose else c
      idle := rest
      registry := (p.cleared [h] idle).registry.filter fun r => r.2 ∉ dead
      liveCount := p.liveCount - 1 - dead.length
      metrics := { p.metrics with
        closed := p.metrics.closed + 1 + dead.length
        dead := p.metrics.dead + 1 + dead.length }
      reports := p.reports ++ [true] ++ List.replicate dead.length true
      log := p.log ++ p.deathNotes [h] ++ (p.cleared [h] idle).deathNotes dead } : Pool) = _
  rw [hConnections, hRegistry, hCount, hTotal, hTotal, hReports, List.append_assoc,
    ← deathNotes_cons]
  rfl

/-- Dead connections at the head of some idle ones are evicted before the others are looked at. -/
theorem takeIdle_append (hp : p.Tracked (dead ++ live)) (hDead : ∀ h ∈ dead, p.isDead h = true)
    (rest : List Handle) :
    p.takeIdle (dead ++ rest) = (p.cleared dead rest).takeIdle rest := by
  induction dead generalizing p with
  | nil =>
    rw [cleared_nil]
    cases rest <;> rfl
  | cons h dead ih =>
    have hTracked : ({ p with idle := dead ++ rest } : Pool).Tracked (h :: (dead ++ live)) :=
      hp.congr rfl rfl rfl rfl rfl rfl
    have hFirst : p.isDead h = true := hDead h List.mem_cons_self
    have hNew : h ∉ dead := fun hMem =>
      (List.nodup_cons.1 hp.nodup).1 (List.mem_append_left live hMem)
    have hEvicted : evict { p with idle := dead ++ rest } h = p.cleared [h] (dead ++ rest) :=
      evict_of_tracked hTracked List.mem_cons_self hFirst
    have hOne : p.Tracked ([h] ++ (dead ++ live)) := hp
    have hLeft : (p.cleared [h] (dead ++ rest)).Tracked (dead ++ live) :=
      hOne.cleared (dead ++ rest)
    have hDeadLeft : ∀ g ∈ dead, (p.cleared [h] (dead ++ rest)).isDead g = true := by
      intro g hg
      rw [cleared_isDead]
      exact hDead g (List.mem_cons_of_mem h hg)
    rw [List.cons_append, takeIdle, if_pos hFirst, hEvicted, ih hLeft hDeadLeft,
      cleared_cleared p (dead ++ rest) hNew]

/-! ## Ends of an attempt -/

/-- An attempt that finds a connection which is not dead evicts those before it and hands it out. -/
theorem Tracked.attempt_of_alive {c : Handle} {r : List Handle}
    (hp : p.Tracked (dead ++ live)) (hOpen : p.disposed = false) (hIdle : p.idle = dead ++ c :: r)
    (hDead : ∀ h ∈ dead, p.isDead h = true) (hAlive : p.isDead c = false) :
    p.attempt = ((p.cleared dead (c :: r)).handOut c r, .ready c) := by
  have hNot : ¬ p.disposed = true := Bool.eq_false_iff.1 hOpen
  have hFirst : ¬ (p.cleared dead (c :: r)).isDead c = true := by
    rw [cleared_isDead, hAlive]
    exact Bool.false_ne_true
  unfold attempt
  rw [if_neg hNot, hIdle, takeIdle_append hp hDead, takeIdle, if_neg hFirst]
  rfl

/-- An attempt that finds only dead connections evicts them all and decides then. -/
theorem Tracked.attempt_of_none (hp : p.Tracked (dead ++ live)) (hOpen : p.disposed = false)
    (hIdle : p.idle = dead) (hDead : ∀ h ∈ dead, p.isDead h = true) :
    let q := p.cleared dead []
    p.attempt =
      if q.liveCount < q.config.maxSize then q.grow
      else if q.failures < q.config.maxAcquireRetryCount then q.enqueue
      else q.refuse := by
  have hNot : ¬ p.disposed = true := Bool.eq_false_iff.1 hOpen
  have hTake : p.takeIdle p.idle = (p.cleared dead [], none) := by
    rw [hIdle]
    exact (congrArg p.takeIdle (List.append_nil dead).symm).trans (takeIdle_append hp hDead [])
  unfold attempt
  rw [if_neg hNot, hTake]

/-- The pool after the factory failed a caller: an id is used up, and the failure is counted. -/
def notGrown (p : Pool) (e : PoolError) : Pool :=
  { p with
    nextId := p.nextId + 1
    factory := p.factory.tail
    failures := p.failures + 1
    metrics := { p.metrics with failed := p.metrics.failed + 1 }
    log := p.log ++
      [{ level := .warn
         message := "failed to create connection"
         values := [("error", e.message)] }] }

/-- The pool after the factory made a connection for a caller: it goes by the next id, is registered
and marked as used, and is not idle. -/
def grown (p : Pool) (born : Bool) : Pool :=
  let id : ConnectionId := ⟨p.nextId⟩
  { p with
    nextId := p.nextId + 1
    factory := p.factory.tail
    connections := p.connections ++
      [{ id, context := p.context id, used := true, dead := born }]
    registry := p.registry ++ [(id, p.connections.length)]
    liveCount := p.liveCount + 1
    failures := 0
    metrics :=
      { p.metrics with
        created := p.metrics.created + 1
        successful := p.metrics.successful + 1 }
    log := p.log ++
      [{ level := .info
         message := "connection created"
         values := [("connection_id", id.text), ("count", toString (p.liveCount + 1))] }] }

/-- What the factory fails with is told to the caller as it came. -/
theorem grow_of_failure {e : PoolError} (hOutcome : p.factory.headD .connection = .failure e) :
    p.grow = (p.notGrown e, .refused e) := by
  unfold grow create
  rw [hOutcome]
  rfl

/-- A connection with an id that is not registered is registered beside the others. -/
theorem register_of_new {c : Connection} (hNew : ∀ r ∈ p.registry, r.1 ≠ c.id) :
    p.register c =
      ({ p with
          connections := p.connections ++ [c]
          registry := p.registry ++ [(c.id, p.connections.length)]
          liveCount := p.liveCount + 1
          metrics := { p.metrics with created := p.metrics.created + 1 }
          log := p.log ++
            [{ level := .info
               message := "connection created"
               values := [("connection_id", c.id.text), ("count", toString (p.liveCount + 1))] }] },
        p.connections.length) := by
  have hKept : (p.registry.filter fun r => r.1 != c.id) = p.registry :=
    List.filter_eq_self.2 fun r hr => bne_iff_ne.2 (hNew r hr)
  have hId : ((p.connections ++ [c])[p.connections.length]?.map (·.id)).getD default = c.id := by
    rw [List.getElem?_concat_length]
    rfl
  unfold register
  dsimp only [note, idValue, idOf, connection?]
  rw [hKept, hId]

/-- A new connection for a caller has the next id, which no live connection has. -/
theorem Tracked.grow_of_connection {born : Bool} {given : Option ConnectionId}
    (hp : p.Tracked live) (hOutcome : p.factory.headD .connection = .connection born given) :
    p.grow = (p.grown born, .ready p.connections.length) := by
  let id : ConnectionId := ⟨p.nextId⟩
  have hGiven : given.getD id = id := by
    cases given with
    | none => rfl
    | some k =>
      have hHead : p.factory[0]? = some (.connection born (some k)) := by
        cases hFactory : p.factory with
        | nil =>
          rw [hFactory] at hOutcome
          cases hOutcome
        | cons o rest =>
          rw [hFactory] at hOutcome
          exact congrArg some hOutcome
      have hNumber : k.number = p.nextId := hp.keepsIds 0 born k hHead
      exact congrArg ConnectionId.mk hNumber
  have hNew : ∀ r ∈ p.registry, r.1 ≠ id := by
    intro r hr hSame
    obtain ⟨g, hg, rfl⟩ := List.mem_map.1 (hp.registry.mem_iff.1 hr)
    have hBefore : id.number < p.nextId := hSame ▸ hp.ids_lt _ (hp.idOf_mem hg)
    exact Nat.lt_irrefl _ hBefore
  have hUsed (c : Connection) : (p.connections ++ [c]).modify p.connections.length
      (Connection.markUsed true) = p.connections ++ [c.markUsed true] :=
    List.modifyTailIdx_add (List.modifyHead (Connection.markUsed true)) 0 p.connections [c]
  unfold grow create
  rw [hOutcome]
  dsimp only
  rw [hGiven, register_of_new hNew]
  dsimp only [checkOut, modify]
  rw [hUsed]
  rfl

/-! ## Reachable pools -/

/-- A pool from its start on, where callers give back only what they hold. -/
def Reached (endpoint : Endpoint) (config : PoolConfig) (factory : List FactoryOutcome)
    (p : Pool) : Prop :=
  ∃ ops, (fresh endpoint config factory).Faithful [] ops ∧
    p = (fresh endpoint config factory).applyAll ops

variable {endpoint : Endpoint} {config : PoolConfig}

/-- A pool keeps the server and the configuration that it was built with. -/
theorem Reached.settings (hp : p.Reached endpoint config factory) :
    p.endpoint = endpoint ∧ p.config = config := by
  obtain ⟨ops, -, rfl⟩ := hp
  exact applyAll_built _ ops

/-- A pool that is not disposed of has each live connection in one place, and has called its factory
once for each id. -/
theorem Reached.owned (hp : p.Reached endpoint config factory) (hIds : KeepsIds 1 factory)
    (hOpen : p.disposed = false) : (∃ held, p.Owned [] held) ∧ p.Spent factory := by
  obtain ⟨ops, hOps, rfl⟩ := hp
  have hKept := hOps.induction (P := fun q held => q.Owned [] held ∧ q.Spent factory) hOpen
    (fun q held op hGiven hNot hq => ⟨hq.1.apply hGiven hNot, hq.2.apply hNot⟩)
    ⟨owned_fresh endpoint config hIds, Nat.one_pos, rfl⟩
  exact ⟨⟨_, hKept.1⟩, hKept.2⟩

variable {held' : List Handle}

theorem heldAfter_perm (hPerm : held.Perm held') (op : Op) :
    (p.heldAfter held op).Perm (p.heldAfter held' op) := by
  cases op with
  | attempt => exact hPerm.append_left _
  | release h => exact hPerm.erase h
  | _ => exact hPerm

/-- It does not matter in which order callers hold their connections. -/
theorem heldAfterAll_perm (hPerm : held.Perm held') (ops : List Op) :
    (p.heldAfterAll held ops).Perm (p.heldAfterAll held' ops) := by
  induction ops generalizing p held held' with
  | nil => exact hPerm
  | cons op ops ih => exact ih (heldAfter_perm hPerm op)

theorem Faithful.perm {ops : List Op} (hOps : p.Faithful held ops) (hPerm : held.Perm held') :
    p.Faithful held' ops := by
  induction ops generalizing p held held' with
  | nil => exact trivial
  | cons op ops ih =>
    refine ⟨fun h hh => hPerm.mem_iff.1 (hOps.1 hh), ih hOps.2 (heldAfter_perm hPerm op)⟩

end Pool

namespace Custody

open Pool Session

/-- What honest callers do is faithful, step after step. -/
theorem Placed.run_faithful {c : Custody} {steps : List Step} (hc : c.Placed)
    (hHonest : c.Honest steps) :
    ∃ ops, c.session.pool.Faithful c.handles ops ∧
      (c.run steps).session.pool = c.session.pool.applyAll ops ∧
      (c.session.pool.heldAfterAll c.handles ops).Perm (c.run steps).handles := by
  induction steps generalizing c with
  | nil => exact ⟨[], trivial, rfl, List.Perm.refl _⟩
  | cons st steps ih =>
    obtain ⟨hNext, hFirst, hHeld⟩ := hc.step_holds hHonest.1
    obtain ⟨ops, hOps, hPool, hLast⟩ := ih hNext hHonest.2
    have hStep : (c.step st).session.pool =
        c.session.pool.applyAll (c.session.useOps (.step st)) := use_pool c.session (.step st)
    rw [hStep] at hOps hPool hLast
    refine ⟨c.session.useOps (.step st) ++ ops, hFirst.append (hOps.perm hHeld.symm), ?_, ?_⟩
    · rw [applyAll_append]
      exact hPool
    · rw [heldAfterAll_append]
      exact (heldAfterAll_perm hHeld ops).trans hLast

/-- What honest callers do leads to reachable pools. -/
theorem reached_run (endpoint : Endpoint) (config : PoolConfig) (factory : List FactoryOutcome)
    (steps : List Step) (hHonest : (start endpoint config factory).Honest steps) :
    ((start endpoint config factory).run steps).session.pool.Reached endpoint config factory := by
  have hPlaced : (start endpoint config factory).Placed := ⟨nofun, nofun, List.nodup_nil⟩
  obtain ⟨ops, hOps, hPool, -⟩ := hPlaced.run_faithful hHonest
  exact ⟨ops, hOps, hPool⟩

end Custody

namespace Pool

/-- Where callers give back only what they hold, an attempt evicts the dead connections at the head
of the idle ones in their order, and no others. It hands out the next idle connection. If there is
none it calls the factory once, with an id that was not given out before, as long as there is room
now. Otherwise its caller is queued last, or refused if too many waits were counted. -/
theorem attempt_evicts_then_decides (endpoint : Endpoint) (config : PoolConfig)
    (factory : List FactoryOutcome) (p : Pool) (dead rest : List Handle)
    (hIds : KeepsIds 1 factory) (hp : p.Reached endpoint config factory)
    (hOpen : p.disposed = false) (hIdle : p.idle = dead ++ rest)
    (hDead : ∀ h ∈ dead, p.isDead h = true) (hAlive : ∀ h ∈ rest.head?, p.isDead h = false) :
    let q := p.cleared dead rest
    (∀ h ∈ dead, (p.idOf h, h) ∈ p.registry) ∧ p.liveCount = q.liveCount + dead.length ∧
      (∀ c r, rest = c :: r →
        p.attempt = (q.handOut c r, .ready c) ∧ p.attempt.1.idle = r ∧
          p.attempt.1.factory = p.factory ∧ p.attempt.1.nextId = p.nextId) ∧
      (rest = [] → q.liveCount < config.maxSize →
        (∀ k ∈ p.connections, k.id.number < p.nextId) ∧
          0 < p.nextId ∧ p.factory = factory.drop (p.nextId - 1) ∧
          (∀ born given, p.factory.headD .connection = .connection born given →
            p.attempt = (q.grown born, .ready p.connections.length)) ∧
          ∀ e, p.factory.headD .connection = .failure e →
            p.attempt = (q.notGrown e, .refused e)) ∧
      (rest = [] → config.maxSize ≤ q.liveCount →
        (p.failures < config.maxAcquireRetryCount →
          p.attempt =
            ({ q with
                queue := p.queue ++ [p.waiterCount]
                waiterCount := p.waiterCount + 1 }, .queued p.waiterCount)) ∧
          (config.maxAcquireRetryCount ≤ p.failures →
            p.attempt =
              ({ q with
                  failures := 0
                  metrics := { q.metrics with failed := p.metrics.failed + 1 }
                  log := q.log ++
                    [{ level := .warn
                       message := "no connection available"
                       values := [("attempts", toString p.failures)] }] },
                .refused (.unavailable endpoint p.failures)))) := by
  intro q
  obtain ⟨⟨held, hOwned⟩, hSpent⟩ := hp.owned hIds hOpen
  obtain ⟨hEndpoint, hConfig⟩ := hp.settings
  have hTracked : p.Tracked (dead ++ (rest ++ held)) := by
    have hLive := hOwned.tracked
    rw [hIdle, List.nil_append, List.append_assoc] at hLive
    exact hLive
  have hLeft : q.Tracked (rest ++ held) := hTracked.cleared rest
  have hLength : q.connections.length = p.connections.length := List.length_mapIdx
  have hSize : q.config.maxSize = config.maxSize := congrArg PoolConfig.maxSize hConfig
  refine ⟨fun h hh => ?_, ?_, fun c r hRest => ?_, fun hRest hRoom => ?_, fun hRest hFull => ?_⟩
  · exact hTracked.registry.mem_iff.2 (List.mem_map.2 ⟨h, List.mem_append_left _ hh, rfl⟩)
  · have hCount := hTracked.count
    rw [List.length_append] at hCount
    show p.liveCount = p.liveCount - dead.length + dead.length
    omega
  · -- an idle connection is left
    subst hRest
    have hGiven : p.attempt = (q.handOut c r, .ready c) :=
      hTracked.attempt_of_alive hOpen hIdle hDead (hAlive c rfl)
    refine ⟨hGiven, ?_, ?_, ?_⟩ <;> rw [hGiven] <;> rfl
  · -- there is room for a new one
    subst hRest
    have hGrow : p.attempt = q.grow := by
      rw [hTracked.attempt_of_none hOpen (hIdle.trans (List.append_nil dead)) hDead]
      exact if_pos (hSize ▸ hRoom)
    refine ⟨fun k hk => hTracked.ids_lt k.id (List.mem_map_of_mem hk), hSpent.pos, hSpent.left,
      fun born given hOutcome => ?_, fun e hOutcome => ?_⟩
    · rw [hGrow, hLeft.grow_of_connection hOutcome, hLength]
    · rw [hGrow, grow_of_failure (p := q) hOutcome]
  · -- the caller is queued or refused
    subst hRest
    have hAttempt := hTracked.attempt_of_none hOpen (hIdle.trans (List.append_nil dead)) hDead
    have hNoRoom : ¬ q.liveCount < q.config.maxSize := by
      rw [hSize]
      exact Nat.not_lt.2 hFull
    have hRetries : q.config.maxAcquireRetryCount = config.maxAcquireRetryCount :=
      congrArg PoolConfig.maxAcquireRetryCount hConfig
    refine ⟨fun hFew => ?_, fun hMany => ?_⟩
    · rw [hAttempt]
      exact (if_neg hNoRoom).trans (if_pos (hRetries ▸ hFew))
    · have hNotFew : ¬ q.failures < q.config.maxAcquireRetryCount := by
        rw [hRetries]
        exact Nat.not_lt.2 hMany
      rw [hAttempt, ← hEndpoint]
      exact (if_neg hNoRoom).trans (if_neg hNotFew)

/-- Both connections that the pool may have died while they were idle, and the factory fails. -/
theorem two_evicted_and_none_made :
    let p := ((Custody.start ⟨.v4 [127, 0, 0, 1], 11210⟩ { minSize := 2, maxSize := 2 }
      [.connection, .connection, .failure .closed]).run
        [.openMinimum, .kill 0, .kill 1]).session.pool
    p.idle = [0, 1] ∧ p.liveCount = 2 ∧ p.attempt.2 = .refused .closed ∧
      p.attempt.1.liveCount = 0 ∧ p.attempt.1.idle = [] ∧ p.attempt.1.reports = [true, true] ∧
      p.attempt.1.failures = 1 := by
  have hIds : KeepsIds 1 [.connection, .connection, .failure .closed] := by
    intro i dead id hAt
    rcases i with _ | _ | _ | i <;> cases hAt
  have hReached := Custody.reached_run ⟨.v4 [127, 0, 0, 1], 11210⟩ { minSize := 2, maxSize := 2 }
    [.connection, .connection, .failure .closed] [.openMinimum, .kill 0, .kill 1]
    (by decide +kernel)
  obtain ⟨-, -, -, hNone, -⟩ := attempt_evicts_then_decides _ _ _ _ [0, 1] [] hIds hReached
    (by decide +kernel) (by decide +kernel) (by decide +kernel) nofun
  have hAttempt := (hNone rfl (by decide +kernel)).2.2.2.2 .closed (by decide +kernel)
  intro p
  rw [show p.attempt = _ from hAttempt]
  decide +kernel

end Pool

end StoreClient
