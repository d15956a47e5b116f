import StoreClient.Proofs.Pool.Waiting
import Mathlib.Data.List.Nodup
import Mathlib.Data.List.Perm.Basic

/-!
# Who has the connections of a pool

As long as a pool is not disposed of, each live connection is in one place: it is idle, or a caller
holds it. While the pool works on a connection, it has this one in hand. The registry lists the live
connections under their ids, which are different as long as the factory gives each connection the id
that it is told.
-/

namespace StoreClient.Pool

open Relation

variable {p q : Pool} {live hand held : List Handle} {g h : Handle}

/-! ## Ids and flags -/

/-- The outcomes of a factory that gives each connection the id it is told, if `next` is the number
of the next one. -/
def KeepsIds (next : Nat) (factory : List FactoryOutcome) : Prop :=
  ∀ i dead id, factory[i]? = some (.connection dead (some id)) → id.number = next + i

/-- What is left of a factory gives its connections the ids that come next. -/
theorem KeepsIds.tail {next : Nat} {factory : List FactoryOutcome}
    (hKeeps : KeepsIds next factory) : KeepsIds (next + 1) factory.tail := by
  intro i dead id hAt
  rw [List.getElem?_tail] at hAt
  have hId := hKeeps (i + 1) dead id hAt
  omega

/-- The ids of all connections that were made, in order. -/
def ids (p : Pool) : List ConnectionId := p.connections.map (·.id)

theorem idOf_eq (p : Pool) (h : Handle) : p.idOf h = (p.ids[h]?).getD default := by
  rw [idOf, connection?, ids, List.getElem?_map]

theorem idOf_congr (hIds : q.ids = p.ids) (h : Handle) : q.idOf h = p.idOf h := by
  rw [idOf_eq, idOf_eq, hIds]

theorem connection?_modify_self (p : Pool) (h : Handle) (f : Connection → Connection) :
    (p.modify h f).connection? h = (p.connection? h).map f := by
  rw [connection?, modify, List.getElem?_modify_eq]
  rfl

/-- A change of one connection leaves the others as they are. -/
theorem connection?_modify_of_ne (p : Pool) (f : Connection → Connection) (hNe : g ≠ h) :
    (p.modify h f).connection? g = p.connection? g :=
  List.getElem?_modify_ne f _ (Ne.symm hNe)

/-- What a change leaves as it is in one connection stays as it is in all. -/
theorem map_modify {α : Type} {g : Connection → α} (p : Pool) (h : Handle)
    {f : Connection → Connection} (hf : ∀ c, g (f c) = g c) :
    (p.modify h f).connections.map g = p.connections.map g := by
  refine List.ext_getElem? fun i => ?_
  rw [modify, List.getElem?_map, List.getElem?_map, List.getElem?_modify]
  cases p.connections[i]? with
  | none => split <;> rfl
  | some c =>
    split
    · exact congrArg some (hf c)
    · rfl

theorem ids_modify (p : Pool) (h : Handle) {f : Connection → Connection}
    (hf : ∀ c, (f c).id = c.id) : (p.modify h f).ids = p.ids :=
  map_modify p h hf

theorem ids_destroy (p : Pool) (h : Handle) : (p.destroy h).ids = p.ids := by
  rw [ids, destroy_connections]
  exact ids_modify p h fun _ => rfl

/-- Whether the connection of a handle is marked as used. -/
def isUsed (p : Pool) (h : Handle) : Bool := (p.connection? h).any (·.used)

theorem isUsed_congr (hConnections : q.connections = p.connections) : q.isUsed = p.isUsed := by
  funext h
  rw [isUsed, connection?, hConnections]
  rfl

theorem isUsed_modify (p : Pool) (h : Handle) {f : Connection → Connection}
    (hf : ∀ c, (f c).used = c.used) (g : Handle) : (p.modify h f).isUsed g = p.isUsed g := by
  unfold isUsed
  by_cases hEq : g = h
  · rw [hEq, connection?_modify_self, Option.any_map]
    exact congrArg (fun k => (p.connection? h).any k) (funext hf)
  · rw [connection?_modify_of_ne p f hEq]

theorem isUsed_markUsed_of_ne (p : Pool) (used : Bool) (hNe : g ≠ h) :
    (p.modify h (Connection.markUsed used)).isUsed g = p.isUsed g := by
  rw [isUsed, connection?_modify_of_ne p _ hNe, isUsed]

theorem isUsed_markUsed (used : Bool) (hMade : h < p.connections.length) :
    (p.modify h (Connection.markUsed used)).isUsed h = used := by
  rw [isUsed, connection?_modify_self, connection?, List.getElem?_eq_getElem hMade]
  rfl

/-! ## The registry -/

/-- The registry lists exactly these connections, each under its id, and there is room for them. -/
structure Tracked (p : Pool) (live : List Handle) : Prop where
  keepsIds : KeepsIds p.nextId p.factory
  ids_lt : ∀ id ∈ p.ids, id.number < p.nextId
  ids_nodup : p.ids.Nodup
  nodup : live.Nodup
  made : ∀ h ∈ live, h < p.ids.length
  registry : p.registry.Perm (live.map fun h => (p.idOf h, h))
  count : p.liveCount = live.length
  room : p.liveCount ≤ p.config.maxSize

/-- Which connections are live is a matter of the registry, the count and the ids. -/
theorem Tracked.congr (hp : p.Tracked live) (hConfig : q.config = p.config)
    (hFactory : q.factory = p.factory) (hNext : q.nextId = p.nextId) (hIds : q.ids = p.ids)
    (hRegistry : q.registry = p.registry) (hCount : q.liveCount = p.liveCount) :
    q.Tracked live := by
  have hIdOf : q.idOf = p.idOf := funext (idOf_congr hIds)
  refine ⟨?_, ?_, ?_, hp.nodup, ?_, ?_, ?_, ?_⟩
  · rw [hNext, hFactory]
    exact hp.keepsIds
  · rw [hIds, hNext]
    exact hp.ids_lt
  · rw [hIds]
    exact hp.ids_nodup
  · rw [hIds]
    exact hp.made
  · rw [hRegistry, hIdOf]
    exact hp.registry
  · rw [hCount]
    exact hp.count
  · rw [hCount, hConfig]
    exact hp.room

theorem Tracked.of_stock (hp : p.Tracked live) (hStock : q.stock = p.stock) : q.Tracked live :=
  hp.congr (congrArg Stock.config hStock) (congrArg Stock.factory hStock)
    (congrArg Stock.nextId hStock) (congrArg (fun k => k.connections.map (·.id)) hStock)
    (congrArg Stock.registry hStock) (congrArg Stock.liveCount hStock)

theorem Tracked.perm {live' : List Handle} (hp : p.Tracked live) (hPerm : live.Perm live') :
    p.Tracked live' where
  keepsIds := hp.keepsIds
  ids_lt := hp.ids_lt
  ids_nodup := hp.ids_nodup
  nodup := hPerm.nodup hp.nodup
  made := fun h hh => hp.made h (hPerm.mem_iff.2 hh)
  registry := hp.registry.trans (hPerm.map _)
  count := hp.count.trans hPerm.length_eq
  room := hp.room

theorem Tracked.idOf_mem (hp : p.Tracked live) (hLive : h ∈ live) : p.idOf h ∈ p.ids := by
  rw [idOf_eq, List.getElem?_eq_getElem (hp.made h hLive)]
  exact List.getElem_mem _

/-- Different live connections have different ids. -/
theorem Tracked.eq_of_idOf_eq (hp : p.Tracked live) (hg : g ∈ live) (hh : h ∈ live)
    (hEq : p.idOf g = p.idOf h) : g = h := by
  rw [idOf_eq, idOf_eq, List.getElem?_eq_getElem (hp.made g hg),
    List.getElem?_eq_getElem (hp.made h hh)] at hEq
  exact (hp.ids_nodup.getElem_inj_iff).1 hEq

/-- A failure of the factory uses up an id. -/
theorem Tracked.create_error {e : PoolError} (hp : p.Tracked live)
    (hCreate : p.create = (q, .error e)) :
    q.Tracked live ∧ q.idle = p.idle ∧ q.connections = p.connections := by
  rcases create_cases p with ⟨e', log, -, hEq⟩ | ⟨c, metrics, log, -, -, hEq⟩
  · cases hEq.symm.trans hCreate
    refine ⟨⟨hp.keepsIds.tail, fun id hId => ?_, hp.ids_nodup, hp.nodup, hp.made, hp.registry,
      hp.count, hp.room⟩, rfl, rfl⟩
    exact Nat.lt_succ_of_lt (hp.ids_lt id hId)
  · cases hEq.symm.trans hCreate

/-- A new connection whose id was not given out before gets an entry, and no entry is lost to it. -/
theorem Tracked.register {id : ConnectionId} (hp : p.Tracked live)
    (hRoom : p.liveCount < p.config.maxSize) (hId : id.number = p.nextId)
    (hConfig : q.config = p.config) (hFactory : q.factory = p.factory.tail)
    (hNext : q.nextId = p.nextId + 1) (hIds : q.ids = p.ids ++ [id])
    (hRegistry : q.registry = (p.registry.filter fun r => r.1 != id) ++ [(id, p.ids.length)])
    (hCount : q.liveCount = p.liveCount + 1) : q.Tracked (p.ids.length :: live) := by
  have hFresh : ∀ id' ∈ p.ids, id' ≠ id := by
    rintro id' hMem rfl
    exact Nat.ne_of_lt (hp.ids_lt _ hMem) hId
  have hKept : (p.registry.filter fun r => r.1 != id) = p.registry := by
    refine List.filter_eq_self.2 fun r hr => ?_
    obtain ⟨g, hg, rfl⟩ := List.mem_map.1 (hp.registry.mem_iff.1 hr)
    exact bne_iff_ne.2 (hFresh _ (hp.idOf_mem hg))
  have hNew : q.idOf p.ids.length = id := by
    rw [idOf_eq, hIds, List.getElem?_concat_length]
    rfl
  have hOld : ∀ g ∈ live, q.idOf g = p.idOf g := by
    intro g hg
    rw [idOf_eq, idOf_eq, hIds, List.getElem?_append_left (hp.made g hg)]
  refine ⟨?_, ?_, ?_, ?_, ?_, ?_, ?_, ?_⟩
  · -- keepsIds
    rw [hNext, hFactory]
    exact hp.keepsIds.tail
  · -- ids_lt
    rw [hIds, hNext]
    intro id' hMem
    rcases List.mem_append.1 hMem with hMem | hMem
    · exact Nat.lt_succ_of_lt (hp.ids_lt id' hMem)
    · rw [List.mem_singleton.1 hMem, hId]
      exact Nat.lt_succ_self _
  · -- ids_nodup
    rw [hIds]
    refine List.nodup_append.2 ⟨hp.ids_nodup, List.nodup_singleton _, fun id' hMem id'' hMem' => ?_⟩
    rw [List.mem_singleton.1 hMem']
    exact hFresh id' hMem
  · -- nodup
    exact List.nodup_cons.2 ⟨fun hMem => Nat.lt_irrefl _ (hp.made _ hMem), hp.nodup⟩
  · -- made
    rw [hIds, List.length_append]
    intro g hg
    rcases List.mem_cons.1 hg with rfl | hg
    · exact Nat.lt_succ_self _
    · exact Nat.lt_succ_of_lt (hp.made g hg)
  · -- registry
    rw [List.map_cons, hNew, List.map_congr_left fun g hg => congrArg (·, g) (hOld g hg), hRegistry,
      hKept]
    exact (List.perm_append_singleton _ _).trans (hp.registry.cons _)
  · -- count
    rw [hCount, List.length_cons, hp.count]
  · -- room
    rw [hCount, hConfig]
    exact hRoom

/-- A new connection is live, not used and the last one that was made. -/
theorem Tracked.create_ok (hp : p.Tracked live) (hRoom : p.liveCount < p.config.maxSize)
    (hCreate : p.create = (q, .ok h)) :
    q.Tracked (h :: live) ∧ q.idle = p.idle ∧
      ∃ c, c.used = false ∧ h = p.connections.length ∧ q.connections = p.connections ++ [c] := by
  rcases create_cases p with ⟨e, log, -, hEq⟩ | ⟨c, metrics, log, hUnused, hGiven, hEq⟩
  · cases hEq.symm.trans hCreate
  · have hId : c.id.number = p.nextId := by
      rcases hGiven with hGiven | ⟨dead, hGiven⟩
      · rw [hGiven]
      · exact hp.keepsIds 0 dead c.id (by rw [← hGiven, List.head?_eq_getElem?])
    have hLength : p.connections.length = p.ids.length := (List.length_map _).symm
    cases hEq.symm.trans hCreate
    refine ⟨?_, rfl, c, hUnused, rfl, rfl⟩
    rw [hLength]
    exact hp.register hRoom hId rfl rfl rfl List.map_append rfl rfl

/-- A live connection is in the registry. -/
theorem Tracked.tracks (hp : p.Tracked live) (hLive : h ∈ live) : p.tracks h = true := by
  refine List.any_eq_true.2 ⟨(p.idOf h, h), ?_, beq_self_eq_true _⟩
  exact hp.registry.mem_iff.2 (List.mem_map.2 ⟨h, hLive, rfl⟩)

/-- A connection that is destroyed loses its entry, and no other does. -/
theorem Tracked.destroy (hp : p.Tracked (h :: live)) : (p.destroy h).Tracked live := by
  obtain ⟨metrics, hEq⟩ := destroy_eq p h
  have hTracks : p.tracks h = true := hp.tracks List.mem_cons_self
  have hOther : ∀ g ∈ live, p.idOf g ≠ p.idOf h := by
    intro g hg hId
    have hSame := hp.eq_of_idOf_eq (List.mem_cons_of_mem _ hg) List.mem_cons_self hId
    exact (List.nodup_cons.1 hp.nodup).1 (hSame ▸ hg)
  have hRegistry : (p.registry.filter fun r => r.1 != p.idOf h).Perm
      (live.map fun g => (p.idOf g, g)) := by
    refine (hp.registry.filter _).trans ?_
    rw [List.map_cons, List.filter_cons_of_neg (by simp), List.filter_eq_self.2 ?_]
    intro r hr
    obtain ⟨g, hg, rfl⟩ := List.mem_map.1 hr
    exact bne_iff_ne.2 (hOther g hg)
  have hCount : p.liveCount = live.length + 1 := hp.count
  have hForgotten : ({ p with
      registry := p.registry.filter fun r => r.1 != p.idOf h
      liveCount := p.liveCount - 1 } : Pool).Tracked live := by
    refine ⟨hp.keepsIds, hp.ids_lt, hp.ids_nodup, (List.nodup_cons.1 hp.nodup).2,
      fun g hg => hp.made g (List.mem_cons_of_mem _ hg), hRegistry, ?_, ?_⟩
    · change p.liveCount - 1 = live.length
      omega
    · exact (Nat.sub_le _ _).trans hp.room
  rw [hEq, if_pos hTracks]
  exact hForgotten.congr rfl rfl rfl (ids_modify p h fun c => rfl) rfl rfl

theorem tracked_fresh (endpoint : Endpoint) (config : PoolConfig) {factory : List FactoryOutcome}
    (hIds : KeepsIds 1 factory) : (fresh endpoint config factory).Tracked [] where
  keepsIds := hIds
  ids_lt := fun _ hId => absurd hId List.not_mem_nil
  ids_nodup := List.nodup_nil
  nodup := List.nodup_nil
  made := fun _ hh => absurd hh List.not_mem_nil
  registry := List.Perm.nil
  count := rfl
  room := Nat.zero_le _

/-! ## Places -/

/-- The live connections are those that the pool has in hand, the idle ones and the held ones, and
only the held ones are marked as used. -/
structure Owned (p : Pool) (hand held : List Handle) : Prop where
  tracked : p.Tracked (hand ++ (p.idle ++ held))
  used : ∀ h ∈ held, p.isUsed h = true
  unused : ∀ h ∈ p.idle, p.isUsed h = false

/-- Ownership is kept where the idle connections and the marks of use stay as they are. -/
theorem Owned.of_tracked (hp : p.Owned hand held) (hIdle : q.idle = p.idle)
    (hConnections : q.connections = p.connections)
    (hTracked : q.Tracked (hand ++ (p.idle ++ held))) : q.Owned hand held := by
  have hUsed : q.isUsed = p.isUsed := isUsed_congr hConnections
  refine ⟨?_, ?_, ?_⟩
  · rw [hIdle]
    exact hTracked
  · rw [hUsed]
    exact hp.used
  · rw [hIdle, hUsed]
    exact hp.unused

theorem Owned.congr (hp : p.Owned hand held) (hStock : q.stock = p.stock) : q.Owned hand held :=
  hp.of_tracked (congrArg Stock.idle hStock) (congrArg Stock.connections hStock)
    (hp.tracked.of_stock hStock)

theorem Owned.perm {held' : List Handle} (hp : p.Owned hand held) (hPerm : held.Perm held') :
    p.Owned hand held' where
  tracked := hp.tracked.perm ((hPerm.append_left _).append_left _)
  used := fun h hh => hp.used h (hPerm.mem_iff.2 hh)
  unused := hp.unused

/-- What happens to the connections themselves does not move them. -/
theorem Owned.modify (hp : p.Owned hand held) (h : Handle) {f : Connection → Connection}
    (hId : ∀ c, (f c).id = c.id) (hUsed : ∀ c, (f c).used = c.used) :
    (p.modify h f).Owned hand held where
  tracked := hp.tracked.congr rfl rfl rfl (ids_modify p h hId) rfl rfl
  used := fun g hg => (isUsed_modify p h hUsed g).trans (hp.used g hg)
  unused := fun g hg => (isUsed_modify p h hUsed g).trans (hp.unused g hg)

/-- Whether a connection is used does not depend on whether it is destroyed. -/
theorem isUsed_destroy (p : Pool) (h g : Handle) : (p.destroy h).isUsed g = p.isUsed g := by
  obtain ⟨metrics, hEq⟩ := destroy_eq p h
  have hDispose : ∀ c : Connection, c.dispose.used = c.used := fun c => rfl
  have hClosed : (p.modify h Connection.dispose).isUsed g = p.isUsed g :=
    isUsed_modify p h hDispose g
  rw [hEq, ← hClosed]
  rfl

/-- A connection in hand that is destroyed is owned by nobody. -/
theorem Owned.destroy (hp : p.Owned [h] held) : (p.destroy h).Owned [] held := by
  have hIdle : (p.destroy h).idle = p.idle := by
    obtain ⟨metrics, hEq⟩ := destroy_eq p h
    rw [hEq]
  refine ⟨?_, fun g hg => ?_, fun g hg => ?_⟩
  · rw [hIdle]
    exact hp.tracked.destroy
  · rw [isUsed_destroy]
    exact hp.used g hg
  · rw [hIdle] at hg
    rw [isUsed_destroy]
    exact hp.unused g hg

theorem Owned.create_error {e : PoolError} (hp : p.Owned [] held)
    (hCreate : p.create = (q, .error e)) : q.Owned [] held := by
  obtain ⟨hTracked, hIdle, hConnections⟩ := hp.tracked.create_error hCreate
  exact hp.of_tracked hIdle hConnections hTracked

/-- A new connection is in hand, and not used yet. -/
theorem Owned.create_ok (hp : p.Owned [] held) (hRoom : p.liveCount < p.config.maxSize)
    (hCreate : p.create = (q, .ok h)) : q.Owned [h] held ∧ q.isUsed h = false := by
  obtain ⟨hTracked, hIdle, c, hUnused, hNew, hConnections⟩ := hp.tracked.create_ok hRoom hCreate
  have hOld : ∀ g ∈ p.idle ++ held, q.isUsed g = p.isUsed g := by
    intro g hg
    have hMade := hp.tracked.made g hg
    rw [ids, List.length_map] at hMade
    rw [isUsed, connection?, hConnections, List.getElem?_append_left hMade]
    rfl
  refine ⟨⟨?_, fun g hg => ?_, fun g hg => ?_⟩, ?_⟩
  · rw [hIdle]
    exact hTracked
  · rw [hOld g (List.mem_append_right _ hg)]
    exact hp.used g hg
  · rw [hIdle] at hg
    rw [hOld g (List.mem_append_left _ hg)]
    exact hp.unused g hg
  · rw [isUsed, connection?, hConnections, hNew, List.getElem?_concat_length]
    exact hUnused

/-- An idle connection that is taken is in hand. -/
theorem Owned.takeIdle {rest : List Handle} (hp : p.Owned [] held) (hIdle : p.idle = h :: rest) :
    ({ p with idle := rest } : Pool).Owned [h] held := by
  have hTracked := hp.tracked
  rw [hIdle] at hTracked
  refine ⟨hTracked.congr rfl rfl rfl rfl rfl rfl, hp.used, fun g hg => hp.unused g ?_⟩
  rw [hIdle]
  exact List.mem_cons_of_mem _ hg

/-- A connection in hand becomes idle if it is not used. -/
theorem Owned.putIdle (hp : p.Owned [h] held) (hUnused : p.isUsed h = false) :
    ({ p with idle := p.idle ++ [h] } : Pool).Owned [] held := by
  have hPerm : ([h] ++ (p.idle ++ held)).Perm ((p.idle ++ [h]) ++ held) := by
    rw [← List.append_assoc]
    exact List.perm_append_comm.append_right held
  refine ⟨(hp.tracked.perm hPerm).congr rfl rfl rfl rfl rfl rfl, hp.used, fun g hg => ?_⟩
  rcases List.mem_append.1 hg with hg | hg
  · exact hp.unused g hg
  · rw [List.mem_singleton.1 hg]
    exact hUnused

/-- A connection in hand goes to a caller. -/
theorem Owned.checkOut (hp : p.Owned [h] held) : (p.checkOut h).Owned [] (h :: held) := by
  have hPerm : (h :: (p.idle ++ held)).Perm (p.idle ++ h :: held) := List.perm_middle.symm
  have hOther : ∀ g ∈ p.idle ++ held, (p.checkOut h).isUsed g = p.isUsed g := by
    intro g hg
    refine isUsed_markUsed_of_ne p true ?_
    rintro rfl
    exact (List.nodup_cons.1 hp.tracked.nodup).1 hg
  have hMade := hp.tracked.made h List.mem_cons_self
  rw [ids, List.length_map] at hMade
  refine ⟨(hp.tracked.perm hPerm).congr rfl rfl rfl (ids_modify p h fun c => rfl) rfl rfl,
    fun g hg => ?_, fun g hg => ?_⟩
  · rcases List.mem_cons.1 hg with rfl | hg
    · exact isUsed_markUsed true hMade
    · rw [hOther g (List.mem_append_right _ hg)]
      exact hp.used g hg
  · rw [hOther g (List.mem_append_left _ hg)]
    exact hp.unused g hg

/-- The pool takes a connection from the caller that held it. -/
theorem Owned.giveBack (hp : p.Owned [] (h :: held)) :
    (p.modify h (Connection.markUsed false)).Owned [h] held ∧
      (p.modify h (Connection.markUsed false)).isUsed h = false := by
  have hTracked : p.Tracked (h :: (p.idle ++ held)) := hp.tracked.perm List.perm_middle
  have hOther : ∀ g ∈ p.idle ++ held,
      (p.modify h (Connection.markUsed false)).isUsed g = p.isUsed g := by
    intro g hg
    refine isUsed_markUsed_of_ne p false ?_
    rintro rfl
    exact (List.nodup_cons.1 hTracked.nodup).1 hg
  have hMade := hTracked.made h List.mem_cons_self
  rw [ids, List.length_map] at hMade
  refine ⟨⟨hTracked.congr rfl rfl rfl (ids_modify p h fun c => rfl) rfl rfl,
    fun g hg => ?_, fun g hg => ?_⟩, isUsed_markUsed false hMade⟩
  · rw [hOther g (List.mem_append_right _ hg)]
    exact hp.used g (List.mem_cons_of_mem _ hg)
  · rw [hOther g (List.mem_append_left _ hg)]
    exact hp.unused g hg

/-! ## Operations of the pool -/

/-- Evictions take nothing from those who hold connections. -/
theorem Owned.evictsFirst (hp : p.Owned [] held) (hEvicts : ReflTransGen EvictsFirst p q) :
    q.Owned [] held := by
  induction hEvicts with
  | refl => exact hp
  | tail _ hLast ih =>
    obtain ⟨h, rest, hIdle, -, rfl⟩ := hLast
    exact (ih.takeIdle hIdle).destroy.congr (evict_stock _ h)

/-- Who asks for a new connection holds it if it could be made. -/
theorem Owned.grow (hp : p.Owned [] held) (hRoom : p.liveCount < p.config.maxSize) :
    p.grow.1.Owned [] (p.grow.2.handles ++ held) := by
  rcases grow_cases p with ⟨q, e, hCreate, hGrow⟩ | ⟨q, h, hCreate, hGrow⟩
  · rw [hGrow]
    exact (hp.create_error hCreate).congr rfl
  · rw [hGrow]
    exact (hp.create_ok hRoom hCreate).1.checkOut

/-- After an attempt its caller holds what was handed out, and everybody else what he held. -/
theorem Owned.attempt (hp : p.Owned [] held) :
    p.attempt.1.Owned [] (p.attempt.2.handles ++ held) := by
  cases hDisposed : p.disposed with
  | true =>
    rw [attempt_of_disposed hDisposed]
    exact hp
  | false =>
    obtain ⟨q, hEvicts, hEnd⟩ := attempt_cases hDisposed
    have hq : q.Owned [] held := hp.evictsFirst hEvicts
    rcases hEnd with ⟨h, rest, hIdle, -, hEnd⟩ | ⟨-, hRoom, hEnd⟩ | ⟨-, -, -, hEnd⟩ |
      ⟨-, -, -, hEnd⟩
    · rw [hEnd]
      exact (hq.takeIdle hIdle).checkOut.congr rfl
    · rw [hEnd]
      exact hq.grow hRoom
    · rw [hEnd]
      exact hq.congr (enqueue_sameStock q).stock
    · rw [hEnd]
      exact hq.congr (refuse_sameStock q).stock

/-- Waits that end without a connection change nothing about who owns what. -/
theorem Owned.waitsOut (hp : p.Owned [] held) (hWaits : ReflTransGen WaitsOut p q) :
    q.Owned [] held := by
  induction hWaits with
  | refl => exact hp
  | tail _ hLast ih =>
    obtain ⟨r, w, hAttempt, rfl⟩ := hLast
    have hr := ih.attempt
    rw [hAttempt] at hr
    exact hr.congr (timeOut_sameStock r w).stock

/-- After a call its caller holds what the call came to. -/
theorem Owned.callEnds {handles : List Handle} (hp : p.Owned [] held)
    (hEnds : p.CallEnds q handles) : q.Owned [] (handles ++ held) := by
  obtain ⟨r, hWaits, rfl, rfl, -⟩ := hEnds
  exact (hp.waitsOut hWaits).attempt

theorem Owned.opensOne (hp : p.Owned [] held) (hOpens : ReflTransGen OpensOne p q) :
    q.Owned [] held := by
  induction hOpens with
  | refl => exact hp
  | tail _ hLast ih =>
    obtain ⟨hRoom, r, h, hCreate, rfl⟩ := hLast
    obtain ⟨hr, hUnused⟩ := ih.create_ok hRoom hCreate
    exact hr.putIdle hUnused

/-- What is opened in advance is idle, and held by nobody. -/
theorem Owned.openMinimum (hp : p.Owned [] held) : p.openMinimum.Owned [] held := by
  obtain ⟨q, hOpens, hEnd | ⟨r, e, hCreate, hEnd⟩⟩ := openMinimum_cases p
  · rw [hEnd]
    exact hp.opensOne hOpens
  · rw [hEnd]
    exact ((hp.opensOne hOpens).create_error hCreate).congr rfl

/-- A connection that is given back is idle again or gone. -/
theorem Owned.release (hp : p.Owned [] (h :: held)) : (p.release h).Owned [] held := by
  obtain ⟨hReturned, hUnused⟩ := hp.giveBack
  have hStock := release_stock p h
  split at hStock
  · exact hReturned.destroy.congr hStock
  · exact (hReturned.putIdle hUnused).congr hStock

end StoreClient.Pool
