import StoreClient.Proofs.Pool.Draining
import StoreClient.Proofs.Pool.Intact

/-!
# Connections that are not closed

As long as the factory gives no id twice, the registry has every connection that is not closed, also
if callers give back connections that they do not hold (`Traced`). So a disposal closes every
connection that is not in use then, and a connection that was given back is not in use until it is
handed out again (`Spare`).
-/

namespace StoreClient

namespace Pool

open Relation

variable {p q : Pool} {c g h : Handle}

/-! ## Connections that are not closed -/

/-- Whether the connection of a handle was made and is not closed. -/
def isOpen (p : Pool) (h : Handle) : Bool := (p.connection? h).any fun c => !c.shutdown

theorem isOpen_congr (hConnections : q.connections = p.connections) (h : Handle) :
    q.isOpen h = p.isOpen h := by
  rw [isOpen, connection?, hConnections]
  rfl

/-- What does not open closed connections opens none. -/
theorem isOpen_of_modify {f : Connection → Connection}
    (hOpen : (p.modify h f).isOpen g = true)
    (hf : ∀ c, (f c).shutdown = false → c.shutdown = false) : p.isOpen g = true := by
  by_cases hSame : g = h
  · subst hSame
    unfold isOpen at hOpen ⊢
    rw [connection?_modify_self] at hOpen
    cases hConnection : p.connection? g with
    | none => simp [hConnection] at hOpen
    | some c =>
      have hShut : (f c).shutdown = false := by simpa [hConnection] using hOpen
      simp [hf c hShut]
  · rw [isOpen, connection?_modify_of_ne p f hSame] at hOpen
    exact hOpen

theorem isOpen_destroy_self (p : Pool) (h : Handle) : (p.destroy h).isOpen h = false := by
  have hModify := isOpen_congr (p := p.modify h Connection.dispose) (destroy_connections p h) h
  rw [hModify, isOpen, connection?_modify_self]
  cases p.connection? h <;> rfl

/-- Closing one connection opens no other. -/
theorem isOpen_of_destroy (hOpen : (p.destroy h).isOpen g = true) :
    g ≠ h ∧ p.isOpen g = true := by
  have hModify := isOpen_congr (p := p.modify h Connection.dispose) (destroy_connections p h) g
  refine ⟨?_, ?_⟩
  · rintro rfl
    rw [isOpen_destroy_self] at hOpen
    cases hOpen
  · rw [hModify] at hOpen
    refine isOpen_of_modify hOpen (f := Connection.dispose) fun c hShut => ?_
    cases hShut

/-- An open connection is the new one, or was open before. -/
theorem isOpen_append {k : Connection} (hConnections : q.connections = p.connections ++ [k])
    (hOpen : q.isOpen h = true) : h = p.connections.length ∨ p.isOpen h = true := by
  by_cases hNew : h = p.connections.length
  · exact Or.inl hNew
  · refine Or.inr ?_
    unfold isOpen at hOpen ⊢
    by_cases hOld : h < p.connections.length
    · rw [connection?_append hConnections hOld] at hOpen
      exact hOpen
    · have hBound : q.connections.length ≤ h := by
        rw [hConnections, List.length_append, List.length_singleton]
        exact Nat.lt_of_le_of_ne (Nat.le_of_not_lt hOld) (Ne.symm hNew)
      have hNone : q.connection? h = none := List.getElem?_eq_none hBound
      rw [hNone] at hOpen
      cases hOpen

/-! ## The registry has what is not closed -/

/-- The registry has every connection that is not closed. The ids of connections are not zero. -/
structure Traced (p : Pool) : Prop where
  tracked : ∃ live, p.Tracked live ∧ ∀ h, p.isOpen h = true → h ∈ live
  next_pos : 0 < p.nextId
  pos : ∀ id ∈ p.ids, 0 < id.number

theorem Traced.congr (hp : p.Traced) (hConnections : q.connections = p.connections)
    (hConfig : q.config = p.config) (hFactory : q.factory = p.factory)
    (hNext : q.nextId = p.nextId) (hRegistry : q.registry = p.registry)
    (hCount : q.liveCount = p.liveCount) : q.Traced := by
  have hIds : q.ids = p.ids := congrArg (fun connections => connections.map (·.id)) hConnections
  obtain ⟨live, hLive, hListed⟩ := hp.tracked
  refine ⟨⟨live, hLive.congr hConfig hFactory hNext hIds hRegistry hCount, ?_⟩, ?_, ?_⟩
  · intro h hOpen
    rw [isOpen_congr hConnections] at hOpen
    exact hListed h hOpen
  · rw [hNext]
    exact hp.next_pos
  · rw [hIds]
    exact hp.pos

theorem Traced.of_stock (hp : p.Traced) (hStock : q.stock = p.stock) : q.Traced :=
  hp.congr (congrArg Stock.connections hStock) (congrArg Stock.config hStock)
    (congrArg Stock.factory hStock) (congrArg Stock.nextId hStock)
    (congrArg Stock.registry hStock) (congrArg Stock.liveCount hStock)

/-- What happens to a connection does not matter if its id stays and it is not opened again. -/
theorem Traced.modify (hp : p.Traced) (h : Handle) {f : Connection → Connection}
    (hId : ∀ c, (f c).id = c.id) (hf : ∀ c, (f c).shutdown = false → c.shutdown = false) :
    (p.modify h f).Traced := by
  have hIds : (p.modify h f).ids = p.ids := ids_modify p h hId
  obtain ⟨live, hLive, hListed⟩ := hp.tracked
  refine ⟨⟨live, hLive.congr rfl rfl rfl hIds rfl rfl, fun g hOpen => ?_⟩, hp.next_pos, ?_⟩
  · exact hListed g (isOpen_of_modify hOpen hf)
  · rw [hIds]
    exact hp.pos

theorem Traced.withIdle (hp : p.Traced) (idle : List Handle) : Traced { p with idle } :=
  hp.congr rfl rfl rfl rfl rfl rfl

/-- The registry has an entry for the id of a connection only if it has that connection. -/
theorem Traced.mem_of_tracks {live : List Handle} (hp : p.Traced) (hLive : p.Tracked live)
    (hTracks : p.tracks h = true) : h ∈ live := by
  obtain ⟨g, hg, hId⟩ := hLive.exists_of_tracks hTracks
  have hPos : 0 < (p.idOf g).number := hp.pos _ (hLive.idOf_mem hg)
  have hMade : h < p.ids.length := by
    by_contra hNot
    rw [hId, idOf_eq, List.getElem?_eq_none (Nat.le_of_not_lt hNot)] at hPos
    exact Nat.lt_irrefl 0 hPos
  rw [idOf_eq, idOf_eq, List.getElem?_eq_getElem (hLive.made g hg),
    List.getElem?_eq_getElem hMade] at hId
  have hSame : g = h := (hLive.ids_nodup.getElem_inj_iff).1 hId
  exact hSame ▸ hg

/-- A connection that is destroyed is closed, so that the registry need not have it. -/
theorem Traced.destroy (hp : p.Traced) (h : Handle) : (p.destroy h).Traced := by
  obtain ⟨live, hLive, hListed⟩ := hp.tracked
  obtain ⟨metrics, hEq⟩ := destroy_eq p h
  have hIds : (p.destroy h).ids = p.ids := ids_destroy p h
  have hLeft : (p.destroy h).Tracked (live.erase h) := by
    by_cases hMem : h ∈ live
    · exact (hLive.perm (List.perm_cons_erase hMem)).destroy
    · have hNot : ¬ p.tracks h = true := fun hTracks => hMem (hp.mem_of_tracks hLive hTracks)
      rw [List.erase_of_not_mem hMem]
      exact hLive.of_books (destroy_books_of_not_tracks hNot)
  refine ⟨⟨_, hLeft, fun g hOpen => ?_⟩, ?_, ?_⟩
  · obtain ⟨hNe, hBefore⟩ := isOpen_of_destroy hOpen
    exact (List.mem_erase_of_ne hNe).2 (hListed g hBefore)
  · rw [hEq]
    exact hp.next_pos
  · rw [hIds]
    exact hp.pos

/-- A failure of the factory uses up an id, and no connection has it. -/
theorem Traced.create_error {e : PoolError} (hp : p.Traced) (hCreate : p.create = (q, .error e)) :
    q.Traced := by
  obtain ⟨live, hLive, hListed⟩ := hp.tracked
  obtain ⟨hNext, -, hConnections⟩ := hLive.create_error hCreate
  have hPos : 0 < q.nextId := by
    rcases create_cases p with ⟨e', log, -, hEq⟩ | ⟨k, metrics, log, -, -, hEq⟩
    · cases hEq.symm.trans hCreate
      exact Nat.succ_pos _
    · cases hEq.symm.trans hCreate
  refine ⟨⟨live, hNext, fun h hOpen => ?_⟩, hPos, ?_⟩
  · rw [isOpen_congr hConnections] at hOpen
    exact hListed h hOpen
  · rw [ids, hConnections]
    exact hp.pos

/-- A new connection is registered under an id that is not zero. -/
theorem Traced.create_ok (hp : p.Traced) (hRoom : p.liveCount < p.config.maxSize)
    (hCreate : p.create = (q, .ok h)) : q.Traced := by
  obtain ⟨live, hLive, hListed⟩ := hp.tracked
  obtain ⟨hNext, -⟩ := hLive.create_ok hRoom hCreate
  rcases create_cases p with ⟨e, log, -, hEq⟩ | ⟨k, metrics, log, -, hGiven, hEq⟩
  · cases hEq.symm.trans hCreate
  · cases hEq.symm.trans hCreate
    have hId : k.id.number = p.nextId := by
      rcases hGiven with hGiven | ⟨dead, hGiven⟩
      · rw [hGiven]
      · exact hLive.keepsIds 0 dead k.id (by rw [← hGiven, List.head?_eq_getElem?])
    refine ⟨⟨_, hNext, fun g hOpen => ?_⟩, Nat.succ_pos _, fun id hMem => ?_⟩
    · rcases isOpen_append rfl hOpen with rfl | hBefore
      · exact List.mem_cons_self
      · exact List.mem_cons_of_mem _ (hListed g hBefore)
    · rw [ids, List.map_append, List.mem_append] at hMem
      rcases hMem with hMem | hMem
      · exact hp.pos id hMem
      · rw [List.mem_singleton.1 hMem, hId]
        exact hp.next_pos

theorem Traced.evictsFirst (hp : p.Traced) (hEvicts : ReflTransGen EvictsFirst p q) :
    q.Traced := by
  induction hEvicts with
  | refl => exact hp
  | tail _ hLast ih =>
    obtain ⟨h, rest, -, -, rfl⟩ := hLast
    exact ((ih.withIdle rest).destroy h).of_stock (evict_stock _ h)

theorem Traced.grow (hp : p.Traced) (hRoom : p.liveCount < p.config.maxSize) :
    p.grow.1.Traced := by
  rcases grow_cases p with ⟨q, e, hCreate, hGrow⟩ | ⟨q, h, hCreate, hGrow⟩
  · rw [hGrow]
    exact (hp.create_error hCreate).of_stock rfl
  · have hNew := (hp.create_ok hRoom hCreate).modify h (f := Connection.markUsed true)
      (fun _ => rfl) fun _ => id
    rw [hGrow]
    exact hNew.of_stock rfl

/-- An attempt closes what it evicts and registers what it makes. -/
theorem Traced.attempt (hp : p.Traced) : p.attempt.1.Traced := by
  cases hDisposed : p.disposed with
  | true =>
    rw [attempt_of_disposed hDisposed]
    exact hp
  | false =>
    obtain ⟨q, hEvicts, hEnd⟩ := attempt_cases hDisposed
    have hq : q.Traced := hp.evictsFirst hEvicts
    rcases hEnd with ⟨h, rest, -, -, hEnd⟩ | ⟨-, hRoom, hEnd⟩ | ⟨-, -, -, hEnd⟩ | ⟨-, -, -, hEnd⟩
    · have hGiven := hq.modify h (f := Connection.markUsed true) (fun _ => rfl) fun _ => id
      rw [hEnd]
      exact (hGiven.withIdle rest).of_stock rfl
    · rw [hEnd]
      exact hq.grow hRoom
    · rw [hEnd]
      exact hq.of_stock (enqueue_sameStock q).stock
    · rw [hEnd]
      exact hq.of_stock (refuse_sameStock q).stock

theorem Traced.openMinimum (hp : p.Traced) : p.openMinimum.Traced := by
  refine openMinimum_induction (P := Traced) hp (fun q r hq hOpens => ?_) fun q r e hq hCreate => ?_
  · obtain ⟨hRoom, r, h, hCreate, rfl⟩ := hOpens
    exact (hq.create_ok hRoom hCreate).withIdle _
  · exact (hq.create_error hCreate).of_stock rfl

theorem Traced.release (hp : p.Traced) (h : Handle) : (p.release h).Traced := by
  have hReturned := hp.modify h (f := Connection.markUsed false) (fun _ => rfl) fun _ => id
  have hStock := release_stock p h
  split at hStock
  · exact (hReturned.destroy h).of_stock hStock
  · exact (hReturned.withIdle _).of_stock hStock

/-- Whatever is done to a pool before its disposal, the registry has what is not closed. -/
theorem Traced.apply (hp : p.Traced) {op : Op} (hNot : op ≠ .dispose) : (p.apply op).Traced := by
  cases op with
  | openMinimum => exact hp.openMinimum
  | attempt => exact hp.attempt
  | timeOut w => exact hp.of_stock (timeOut_sameStock p w).stock
  | abandon w => exact hp.of_stock (abandon_onlyWaiters p w).stock
  | release h => exact hp.release h
  | dispose => exact absurd rfl hNot
  | setDead h dead => exact hp.modify h (fun _ => rfl) fun _ => id
  | shut h => exact hp.modify h (fun _ => rfl) fun _ hShut => by cases hShut
  | returning h => exact hp.of_stock rfl
  | cycleBuffers count => exact hp.of_stock rfl

theorem traced_fresh (endpoint : Endpoint) (config : PoolConfig) {factory : List FactoryOutcome}
    (hIds : KeepsIds 1 factory) : (fresh endpoint config factory).Traced where
  tracked := ⟨[], tracked_fresh endpoint config hIds, nofun⟩
  next_pos := Nat.one_pos
  pos := nofun

/-! ## Disposal closes what is not in use -/

/-- A retired connection stays open only if it is in use. -/
theorem isOpen_of_retire (hOpen : (p.retire h).isOpen g = true) :
    p.isOpen g = true ∧ (g = h → p.isUsed h = true) := by
  unfold retire at hOpen
  cases hConnection : p.connection? h with
  | none =>
    rw [hConnection] at hOpen
    refine ⟨hOpen, ?_⟩
    rintro rfl
    simp [isOpen, hConnection] at hOpen
  | some k =>
    simp only [hConnection] at hOpen
    cases hShut : k.shutdown with
    | true =>
      rw [if_pos hShut] at hOpen
      refine ⟨hOpen, ?_⟩
      rintro rfl
      simp [isOpen, hConnection, hShut] at hOpen
    | false =>
      rw [hShut, if_neg Bool.false_ne_true] at hOpen
      cases hUsed : k.used with
      | true =>
        rw [if_pos hUsed] at hOpen
        refine ⟨isOpen_of_modify hOpen fun _ => id, fun _ => ?_⟩
        simp [isUsed, hConnection, hUsed]
      | false =>
        rw [hUsed, if_neg Bool.false_ne_true] at hOpen
        obtain ⟨hNe, hBefore⟩ := isOpen_of_destroy hOpen
        exact ⟨hBefore, fun hSame => absurd hSame hNe⟩

theorem isUsed_retire (p : Pool) (h g : Handle) : (p.retire h).isUsed g = p.isUsed g := by
  unfold retire
  cases p.connection? h with
  | none => rfl
  | some k =>
    dsimp only
    split
    · rfl
    · split
      · exact isUsed_modify p h (f := Connection.countdownToClose _ _) (fun _ => rfl) g
      · exact isUsed_destroy p h g

/-- A connection that is not used, and open after some were retired, is none of them. -/
theorem isOpen_of_retireAll {handles : List Handle} (hUnused : p.isUsed g = false)
    (hOpen : (handles.foldl retire p).isOpen g = true) : p.isOpen g = true ∧ g ∉ handles := by
  induction handles generalizing p with
  | nil => exact ⟨hOpen, List.not_mem_nil⟩
  | cons h rest ih =>
    have hStill : (p.retire h).isUsed g = false := by
      rw [isUsed_retire]
      exact hUnused
    obtain ⟨hNext, hRest⟩ := ih hStill hOpen
    obtain ⟨hBefore, hSame⟩ := isOpen_of_retire hNext
    have hNe : g ≠ h := by
      rintro rfl
      rw [hSame rfl] at hUnused
      cases hUnused
    refine ⟨hBefore, ?_⟩
    intro hMem
    rcases List.mem_cons.1 hMem with hFirst | hMem
    · exact hNe hFirst
    · exact hRest hMem

theorem dispose_connections (hOpen : p.disposed = false) :
    p.dispose.connections = p.retired.connections := by
  obtain ⟨log, hEq⟩ := dispose_of_open hOpen
  rw [hEq]
  exact congrArg Stock.connections (foldl_complete_onlyWaiters p.retired p.retired.queue).stock

/-- A disposal closes every connection that is not in use. -/
theorem Traced.dispose_closes (hp : p.Traced) (hOpen : p.disposed = false)
    (hUnused : p.isUsed c = false) : p.dispose.isOpen c = false := by
  refine Bool.eq_false_iff.2 fun hAfter => ?_
  rw [isOpen_congr (dispose_connections hOpen)] at hAfter
  obtain ⟨hBefore, hNot⟩ := isOpen_of_retireAll (p := { p with disposed := true }) hUnused hAfter
  obtain ⟨live, hLive, hListed⟩ := hp.tracked
  have hMem : c ∈ live := hListed c hBefore
  exact hNot (hLive.registry_perm.mem_iff.2 hMem)

/-- No connection is opened after the disposal. -/
theorem isOpen_of_apply {op : Op} (hDisposed : p.disposed = true)
    (hOpen : (p.apply op).isOpen g = true) : p.isOpen g = true := by
  have hKept (hStock : (p.apply op).stock = p.stock) : p.isOpen g = true := by
    rw [isOpen_congr (congrArg Stock.connections hStock)] at hOpen
    exact hOpen
  cases op with
  | openMinimum => exact hKept (congrArg stock (openMinimum_of_disposed hDisposed))
  | attempt =>
    rw [apply, attempt_of_disposed hDisposed] at hOpen
    exact hOpen
  | timeOut w => exact hKept (timeOut_sameStock p w).stock
  | abandon w => exact hKept (abandon_onlyWaiters p w).stock
  | release h =>
    have hStock := release_stock_of_disposed hDisposed h
    rw [apply, isOpen_congr (congrArg Stock.connections hStock)] at hOpen
    exact isOpen_of_modify (isOpen_of_destroy hOpen).2 fun _ => id
  | dispose => exact hKept (congrArg stock (dispose_of_disposed hDisposed))
  | setDead h dead => exact isOpen_of_modify hOpen fun _ => id
  | shut h => exact isOpen_of_modify hOpen fun _ hShut => by cases hShut
  | returning h => exact hOpen
  | cycleBuffers count => exact hOpen

/-! ## Connections that nobody is given -/

theorem isUsed_of_markUnused (hUnused : p.isUsed g = false) :
    (p.modify h (Connection.markUsed false)).isUsed g = false := by
  by_cases hSame : g = h
  · subst hSame
    rw [isUsed, connection?_modify_self]
    cases p.connection? g <;> rfl
  · rw [isUsed_markUsed_of_ne p false hSame]
    exact hUnused

theorem isUsed_markUnused_self (p : Pool) (h : Handle) :
    (p.modify h (Connection.markUsed false)).isUsed h = false := by
  rw [isUsed, connection?_modify_self]
  cases p.connection? h <;> rfl

/-- A connection that is given back is not in use any more, whatever else becomes of it. -/
theorem isUsed_of_release (hReturned : (p.modify h (Connection.markUsed false)).isUsed g = false) :
    (p.release h).isUsed g = false := by
  have hStock := release_stock p h
  split at hStock
  · rw [isUsed_congr (congrArg Stock.connections hStock), isUsed_destroy]
    exact hReturned
  · rw [isUsed_congr (p := p.modify h (Connection.markUsed false))
      (congrArg Stock.connections hStock)]
    exact hReturned

theorem isUsed_of_append {k : Connection} (hConnections : q.connections = p.connections ++ [k])
    (hNew : k.used = false) (hUnused : p.isUsed g = false) : q.isUsed g = false := by
  by_cases hOld : g < p.connections.length
  · rw [isUsed, connection?_append hConnections hOld]
    exact hUnused
  · by_cases hLast : g = p.connections.length
    · subst hLast
      rw [isUsed, connection?_append_new hConnections]
      exact hNew
    · have hBound : q.connections.length ≤ g := by
        rw [hConnections, List.length_append, List.length_singleton]
        exact Nat.lt_of_le_of_ne (Nat.le_of_not_lt hOld) (Ne.symm hLast)
      have hNone : q.connection? g = none := List.getElem?_eq_none hBound
      rw [isUsed, hNone]
      rfl

/-- Nobody is given a connection in an operation that is no attempt to get one. -/
theorem isUsed_of_apply {op : Op} (hNot : op ≠ .attempt) (hUnused : p.isUsed g = false) :
    (p.apply op).isUsed g = false := by
  have hKept (hConnections : (p.apply op).connections = p.connections) :
      (p.apply op).isUsed g = false := by
    rw [isUsed_congr hConnections]
    exact hUnused
  cases op with
  | openMinimum =>
    refine openMinimum_induction (P := fun q => q.isUsed g = false) hUnused
      (fun q r hq hOpens => ?_) fun q r e hq hCreate => ?_
    · obtain ⟨-, r, h, hCreate, rfl⟩ := hOpens
      rcases create_cases q with ⟨e, log, -, hEq⟩ | ⟨k, metrics, log, hNew, -, hEq⟩
      · cases hEq.symm.trans hCreate
      · cases hEq.symm.trans hCreate
        exact isUsed_of_append rfl hNew hq
    · have hConnections := (create_failed hCreate).1
      rw [← hq, ← isUsed_congr hConnections]
      rfl
  | attempt => exact absurd rfl hNot
  | timeOut w => exact hKept (congrArg Stock.connections (timeOut_sameStock p w).stock)
  | abandon w => exact hKept (congrArg Stock.connections (abandon_onlyWaiters p w).stock)
  | release h => exact isUsed_of_release (isUsed_of_markUnused hUnused)
  | dispose =>
    cases hDisposed : p.disposed with
    | true => exact hKept (congrArg connections (dispose_of_disposed hDisposed))
    | false =>
      have hRetired : p.retired.isUsed g = p.isUsed g :=
        foldl_unchanged (k := fun q => q.isUsed g) (fun q h => isUsed_retire q h g)
          { p with disposed := true } _
      rw [apply, isUsed_congr (dispose_connections hDisposed), hRetired]
      exact hUnused
  | setDead h dead =>
    rw [apply, isUsed_modify]
    · exact hUnused
    · exact fun _ => rfl
  | shut h =>
    rw [apply, isUsed_modify]
    · exact hUnused
    · exact fun _ => rfl
  | returning h => exact hKept rfl
  | cycleBuffers count => exact hKept rfl

/-- The connection is not in use, and it is closed if the pool was disposed of. -/
structure Spare (p : Pool) (c : Handle) : Prop where
  unused : p.isUsed c = false
  traced : p.disposed = false → p.Traced
  closed : p.disposed = true → p.isOpen c = false

/-- Every operation before the disposal keeps the registry complete. -/
theorem traced_apply (hp : p.disposed = false → p.Traced) (op : Op)
    (hAfter : (p.apply op).disposed = false) : (p.apply op).Traced := by
  obtain ⟨hOpen, hNot⟩ := open_of_apply hAfter
  exact (hp hOpen).apply hNot

/-- A spare connection stays spare until somebody attempts to get one. -/
theorem Spare.apply (hp : p.Spare c) {op : Op} (hNot : op ≠ .attempt) : (p.apply op).Spare c where
  unused := isUsed_of_apply hNot hp.unused
  traced := traced_apply hp.traced op
  closed := by
    intro hAfter
    cases hDisposed : p.disposed with
    | true =>
      refine Bool.eq_false_iff.2 fun hOpen => ?_
      cases (hp.closed hDisposed).symm.trans (isOpen_of_apply hDisposed hOpen)
    | false =>
      cases eq_dispose_of_apply hDisposed hAfter
      exact (hp.traced hDisposed).dispose_closes hDisposed hp.unused

/-- A connection that is given back is spare, if the registry had all connections before. -/
theorem spare_release (hp : p.disposed = false → p.Traced) (c : Handle) :
    (p.release c).Spare c where
  unused := isUsed_of_release (isUsed_markUnused_self p c)
  traced := traced_apply hp (.release c)
  closed := by
    intro hAfter
    have hDisposed : p.disposed = true :=
      (congrArg Prod.snd (release_settings p c)).symm.trans hAfter
    have hStock := release_stock_of_disposed hDisposed c
    rw [isOpen_congr (congrArg Stock.connections hStock), isOpen_destroy_self]

end Pool

end StoreClient
