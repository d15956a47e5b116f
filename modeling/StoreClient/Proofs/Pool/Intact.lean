import StoreClient.Proofs.Pool.Disposal

/-!
# Closed connections

A connection that was closed is neither idle nor held, and the registry does not list it. The
registry need not be complete for that: it loses an entry if the factory gives an id twice, and then
the pool counts fewer dead connections than it reports.

What holds of the connections that were not closed (`Intact`) is kept apart from what the pool tells
about those that it found dead (`Reported`). Every part of an operation keeps the one and leads from
the other to the same with more connections found (`PartsWith`).
-/

namespace StoreClient

namespace Pool

open Relation

variable {p q : Pool} {g h : Handle} {free held found : List Handle}

/-! ## Closings and reports -/

/-- How often the pool closed the connection of a handle. -/
def closings (p : Pool) (h : Handle) : Nat := ((p.connection? h).map (·.disposals)).getD 0

/-- What the pool has told about dead connections: its reports, and their count. -/
def deaths (p : Pool) : List Bool × Nat := (p.reports, p.metrics.dead)

theorem closings_congr (hConnections : q.connections = p.connections) (h : Handle) :
    q.closings h = p.closings h := by
  rw [closings, connection?, hConnections]
  rfl

theorem closings_modify_of_ne (f : Connection → Connection) (hNe : g ≠ h) :
    (p.modify h f).closings g = p.closings g := by
  rw [closings, connection?_modify_of_ne p f hNe, closings]

theorem closings_modify (h : Handle) {f : Connection → Connection}
    (hf : ∀ c, (f c).disposals = c.disposals) (g : Handle) :
    (p.modify h f).closings g = p.closings g := by
  have hMap := map_modify p h hf
  rw [closings, closings, connection?, connection?, ← List.getElem?_map, hMap, List.getElem?_map]

/-- No other connection is closed with it. -/
theorem closings_destroy_of_ne (hNe : g ≠ h) : (p.destroy h).closings g = p.closings g := by
  have hModify := closings_congr (p := p.modify h Connection.dispose) (destroy_connections p h) g
  exact hModify.trans (closings_modify_of_ne Connection.dispose hNe)

/-- A connection that is destroyed has been closed once more. -/
theorem closings_destroy_self (hMade : h < p.connections.length) :
    (p.destroy h).closings h = p.closings h + 1 := by
  rw [closings_congr (p := p.modify h Connection.dispose) (destroy_connections p h), closings,
    connection?_modify_self, closings, connection?, List.getElem?_eq_getElem hMade]
  rfl

theorem isDead_congr (hConnections : q.connections = p.connections) (h : Handle) :
    q.isDead h = p.isDead h := by
  rw [isDead, connection?, hConnections]
  rfl

theorem isDead_modify (p : Pool) (h : Handle) {f : Connection → Connection}
    (hf : ∀ c, (f c).dead = c.dead) (g : Handle) : (p.modify h f).isDead g = p.isDead g := by
  unfold isDead
  by_cases hSame : g = h
  · rw [hSame, connection?_modify_self, Option.any_map]
    exact congrArg (fun k => (p.connection? h).any k) (funext hf)
  · rw [connection?_modify_of_ne p f hSame]

theorem isDead_destroy (p : Pool) (h g : Handle) : (p.destroy h).isDead g = p.isDead g := by
  have hModify := isDead_congr (p := p.modify h Connection.dispose) (destroy_connections p h) g
  exact hModify.trans (isDead_modify p h (f := Connection.dispose) (fun _ => rfl) g)

theorem destroy_deaths (p : Pool) (h : Handle) : (p.destroy h).deaths = p.deaths := by
  unfold destroy
  dsimp only
  split <;> rfl

/-- A connection that is evicted is reported as dead, and counted if the pool counts it as live. -/
theorem evict_deaths (hDead : p.isDead h = true) :
    (p.evict h).deaths = (p.reports ++ [true], p.metrics.dead + if p.tracks h then 1 else 0) := by
  have hStill := isDead_destroy p h h
  have hDeaths := destroy_deaths p h
  rw [hDead] at hStill
  obtain ⟨hReports, hCount⟩ := Prod.mk.inj hDeaths
  unfold evict
  by_cases hTracks : p.tracks h = true
  · simp only [if_pos hTracks]
    rw [← hReports, ← hCount, ← hStill]
    rfl
  · simp only [if_neg hTracks]
    rw [← hReports, ← hCount, ← hStill]
    rfl

/-- Only connections that were made are ever closed. -/
theorem made_of_closings (hClosed : p.closings h ≠ 0) : h < p.connections.length := by
  by_contra hNot
  have hNone : p.connection? h = none := List.getElem?_eq_none (Nat.le_of_not_lt hNot)
  rw [closings, hNone] at hClosed
  exact hClosed rfl

/-- A new connection was never closed. -/
theorem create_new (hCreate : p.create = (q, .ok h)) :
    ∃ c, c.disposals = 0 ∧ h = p.connections.length ∧ q.connections = p.connections ++ [c] ∧
      q.registry = (p.registry.filter fun r => r.1 != c.id) ++ [(c.id, h)] ∧ q.idle = p.idle ∧
      q.deaths = p.deaths := by
  unfold create at hCreate
  dsimp only at hCreate
  cases hOutcome : p.factory.headD .connection with
  | failure e =>
    rw [hOutcome] at hCreate
    cases hCreate
  | connection dead given =>
    rw [hOutcome] at hCreate
    cases hCreate
    exact ⟨_, rfl, rfl, rfl, rfl, rfl, rfl⟩

/-- A failure of the factory changes no connection and closes none. -/
theorem create_failed {e : PoolError} (hCreate : p.create = (q, .error e)) :
    q.connections = p.connections ∧ q.registry = p.registry ∧ q.idle = p.idle ∧
      q.deaths = p.deaths := by
  unfold create at hCreate
  dsimp only at hCreate
  cases hOutcome : p.factory.headD .connection with
  | failure e =>
    rw [hOutcome] at hCreate
    cases hCreate
    exact ⟨rfl, rfl, rfl, rfl⟩
  | connection dead given =>
    rw [hOutcome] at hCreate
    cases hCreate

/-! ## A new connection -/

section Append

variable {c : Connection}

theorem connection?_append (hConnections : q.connections = p.connections ++ [c])
    (hg : g < p.connections.length) : q.connection? g = p.connection? g := by
  rw [connection?, connection?, hConnections, List.getElem?_append_left hg]

theorem connection?_append_new (hConnections : q.connections = p.connections ++ [c]) :
    q.connection? p.connections.length = some c := by
  rw [connection?, hConnections, List.getElem?_concat_length]

theorem closings_append (hNew : c.disposals = 0)
    (hConnections : q.connections = p.connections ++ [c]) (g : Handle) :
    q.closings g = p.closings g := by
  rcases Nat.lt_trichotomy g p.connections.length with hLt | rfl | hGt
  · rw [closings, connection?_append hConnections hLt, closings]
  · have hNone : p.connection? p.connections.length = none := List.getElem?_eq_none (Nat.le_refl _)
    rw [closings, connection?_append_new hConnections, closings, hNone]
    exact hNew
  · have hLength : q.connections.length ≤ g := by
      rw [hConnections, List.length_append]
      exact hGt
    rw [closings, closings, connection?, connection?, List.getElem?_eq_none hLength,
      List.getElem?_eq_none (Nat.le_of_lt hGt)]

theorem ids_append (hConnections : q.connections = p.connections ++ [c]) :
    q.ids = p.ids ++ [c.id] := by
  rw [ids, hConnections, List.map_append]
  rfl

theorem idOf_append (hConnections : q.connections = p.connections ++ [c])
    (hg : g < p.connections.length) : q.idOf g = p.idOf g := by
  rw [idOf, connection?_append hConnections hg, idOf]

/-- A new connection goes by its own id. -/
theorem idOf_append_new (hConnections : q.connections = p.connections ++ [c]) :
    q.idOf p.connections.length = c.id := by
  rw [idOf, connection?_append_new hConnections]
  rfl

end Append

/-! ## Ids and entries -/

theorem tracks_congr (hIds : q.ids = p.ids) (hRegistry : q.registry = p.registry) (h : Handle) :
    q.tracks h = p.tracks h := by
  rw [tracks, hRegistry, idOf_congr hIds]
  rfl

/-- Different connections have different ids if no id was given twice. -/
theorem idOf_ne (hNodup : p.ids.Nodup) (hg : g < p.connections.length)
    (hh : h < p.connections.length) (hNe : g ≠ h) : p.idOf g ≠ p.idOf h := by
  have hLength : p.ids.length = p.connections.length := List.length_map _
  rw [← hLength] at hg hh
  rw [idOf_eq, idOf_eq, List.getElem?_eq_getElem hg, List.getElem?_eq_getElem hh]
  intro hEq
  exact hNe ((hNodup.getElem_inj_iff).1 hEq)

theorem any_filter_id {entries : List (ConnectionId × Handle)} {id id' : ConnectionId}
    (hNe : id ≠ id') (hAny : entries.any (·.1 == id) = true) :
    (entries.filter fun r => r.1 != id').any (·.1 == id) = true := by
  obtain ⟨r, hr, hId⟩ := List.any_eq_true.1 hAny
  have hSame : r.1 = id := beq_iff_eq.1 hId
  refine List.any_eq_true.2 ⟨r, List.mem_filter.2 ⟨hr, ?_⟩, hId⟩
  rw [hSame]
  exact bne_iff_ne.2 hNe

/-- Another live connection stays registered, as ids of connections differ. -/
theorem tracks_destroy (hNodup : p.ids.Nodup) (hg : g < p.connections.length)
    (hh : h < p.connections.length) (hNe : g ≠ h) (hTracks : p.tracks g = true) :
    (p.destroy h).tracks g = true := by
  rw [tracks, destroy_registry, idOf_congr (ids_destroy p h)]
  exact any_filter_id (idOf_ne hNodup hg hh hNe) hTracks

/-- A connection stays registered when another one is made. -/
theorem tracks_append {c : Connection} (hNodup : q.ids.Nodup)
    (hConnections : q.connections = p.connections ++ [c])
    (hRegistry : q.registry =
      (p.registry.filter fun r => r.1 != c.id) ++ [(c.id, p.connections.length)])
    (hg : g < p.connections.length) (hTracks : p.tracks g = true) : q.tracks g = true := by
  have hLength : q.connections.length = p.connections.length + 1 := by
    rw [hConnections, List.length_append]
    rfl
  have hNe : p.idOf g ≠ c.id := by
    rw [← idOf_append hConnections hg, ← idOf_append_new hConnections]
    refine idOf_ne hNodup ?_ ?_ (Nat.ne_of_lt hg) <;> rw [hLength]
    · exact Nat.lt_succ_of_lt hg
    · exact Nat.lt_succ_self _
  rw [tracks, hRegistry, idOf_append hConnections hg, List.any_append, any_filter_id hNe hTracks,
    Bool.true_or]

/-! ## What was found dead -/

/-- The pool has reported these connections, and no others, and has closed each of them once. As
long as the ids are different it has also counted them. -/
structure Reported (p : Pool) (found : List Handle) : Prop where
  nodup : found.Nodup
  closed : ∀ h ∈ found, p.closings h = 1
  reports : p.reports = found.map fun _ => true
  counted : p.ids.Nodup → p.metrics.dead = found.length

/-- From one state of a pool to a later one, in which it has found more connections dead. -/
structure PartsWith (p q : Pool) (gone : List Handle) : Prop where
  closings : ∀ h, p.closings h ≤ q.closings h
  reported : ∀ found, p.Reported found → q.Reported (found ++ gone)

/-- Where nothing is closed and no death is counted, the pool parts with nothing. -/
theorem PartsWith.of_same (hClosings : ∀ h, q.closings h = p.closings h)
    (hDeaths : q.deaths = p.deaths) (hIds : q.ids.Nodup → p.ids.Nodup) : p.PartsWith q [] := by
  obtain ⟨hReports, hCount⟩ := Prod.mk.inj hDeaths
  refine ⟨fun h => (hClosings h).ge, fun found hp => ?_⟩
  rw [List.append_nil]
  refine ⟨hp.nodup, fun h hh => (hClosings h).trans (hp.closed h hh), ?_, fun hNodup => ?_⟩
  · rw [hReports]
    exact hp.reports
  · rw [hCount]
    exact hp.counted (hIds hNodup)

theorem PartsWith.of_connections (hConnections : q.connections = p.connections)
    (hDeaths : q.deaths = p.deaths) : p.PartsWith q [] := by
  refine of_same (closings_congr hConnections) hDeaths fun hNodup => ?_
  rw [ids, ← hConnections]
  exact hNodup

/-- A pool parts with what it parts with first and with what it parts with then. -/
theorem PartsWith.trans {r : Pool} {gone gone' : List Handle} (hFirst : p.PartsWith q gone)
    (hLast : q.PartsWith r gone') : p.PartsWith r (gone ++ gone') := by
  refine ⟨fun h => (hFirst.closings h).trans (hLast.closings h), fun found hp => ?_⟩
  rw [← List.append_assoc]
  exact hLast.reported _ (hFirst.reported found hp)

theorem PartsWith.trans_nil {r : Pool} {gone : List Handle} (hFirst : p.PartsWith q gone)
    (hLast : q.PartsWith r []) : p.PartsWith r gone := by
  have hAll := hFirst.trans hLast
  rw [List.append_nil] at hAll
  exact hAll

/-- What was closed stays closed. -/
theorem closings_le_destroy (p : Pool) (h g : Handle) :
    p.closings g ≤ (p.destroy h).closings g := by
  by_cases hSame : g = h
  · subst hSame
    by_cases hMade : g < p.connections.length
    · rw [closings_destroy_self hMade]
      exact Nat.le_succ _
    · by_contra hLess
      exact hMade (made_of_closings (by omega))
  · exact (closings_destroy_of_ne hSame).ge

/-- A connection that was not closed before is closed, but not found dead. -/
theorem PartsWith.destroy (hOpen : p.closings h = 0) : p.PartsWith (p.destroy h) [] := by
  obtain ⟨hReports, hCount⟩ := Prod.mk.inj (destroy_deaths p h)
  refine ⟨closings_le_destroy p h, fun found hp => ?_⟩
  rw [List.append_nil]
  refine ⟨hp.nodup, fun g hg => ?_, hReports.trans hp.reports, fun hNodup => ?_⟩
  · have hClosed := hp.closed g hg
    rw [closings_destroy_of_ne fun hSame => ?_]
    · exact hClosed
    · rw [hSame, hOpen] at hClosed
      cases hClosed
  · rw [ids_destroy] at hNodup
    exact hCount.trans (hp.counted hNodup)

theorem evict_connections (p : Pool) (h : Handle) :
    (p.evict h).connections = (p.destroy h).connections :=
  congrArg Stock.connections (evict_stock p h)

theorem evict_idle (p : Pool) (h : Handle) : (p.evict h).idle = p.idle := by
  have hStock := evict_stock p h
  exact (congrArg Stock.idle hStock).trans (destroy_idle p h)

/-- A connection that was not closed before is closed, and is found dead. -/
theorem PartsWith.evict (hMade : h < p.connections.length) (hOpen : p.closings h = 0)
    (hDead : p.isDead h = true) (hTracks : p.ids.Nodup → p.tracks h = true) :
    p.PartsWith (p.evict h) [h] := by
  have hClosings (g : Handle) : (p.evict h).closings g = (p.destroy h).closings g :=
    closings_congr (evict_connections p h) g
  have hIds : (p.evict h).ids = p.ids := by
    rw [ids, evict_connections]
    exact ids_destroy p h
  obtain ⟨hReports, hCount⟩ := Prod.mk.inj (evict_deaths hDead)
  refine ⟨fun g => (closings_le_destroy p h g).trans (hClosings g).ge, fun found hp => ?_⟩
  have hFresh : h ∉ found := fun hMem => by
    cases hOpen.symm.trans (hp.closed h hMem)
  have hMore := hp.nodup.concat hFresh
  rw [List.concat_eq_append] at hMore
  refine ⟨hMore, fun g hg => ?_, ?_, fun hNodup => ?_⟩
  · -- closed
    rw [hClosings]
    rcases List.mem_append.1 hg with hg | hg
    · have hNe : g ≠ h := fun hSame => hFresh (hSame ▸ hg)
      rw [closings_destroy_of_ne hNe]
      exact hp.closed g hg
    · rw [List.mem_singleton.1 hg, closings_destroy_self hMade, hOpen]
  · -- reports
    rw [hReports, hp.reports, List.map_append]
    rfl
  · -- counted
    rw [hIds] at hNodup
    rw [hCount, hp.counted hNodup, if_pos (hTracks hNodup), List.length_append]
    rfl

/-! ## What was not closed -/

/-- The free connections and the held ones are different and were never closed, the held ones are in
use, and the registry lists only connections that were never closed, none twice. No connection was
closed twice. As long as the ids are different, the pool counts the free ones and the held ones as
live. -/
structure Intact (p : Pool) (free held : List Handle) : Prop where
  nodup : (free ++ held).Nodup
  made : ∀ h ∈ free ++ held, h < p.connections.length
  unclosed : ∀ h ∈ free ++ held, p.closings h = 0
  used : ∀ h ∈ held, p.isUsed h = true
  entries : ∀ r ∈ p.registry, p.closings r.2 = 0 ∧ r.2 < p.connections.length ∧ r.1 = p.idOf r.2
  entries_nodup : (p.registry.map (·.2)).Nodup
  once : ∀ h, p.closings h ≤ 1
  tracked : p.ids.Nodup → ∀ h ∈ free ++ held, p.tracks h = true

variable {free' held' : List Handle}

/-- Whether connections are intact is a matter of the connections and the registry. -/
theorem Intact.congr (hp : p.Intact free held) (hConnections : q.connections = p.connections)
    (hRegistry : q.registry = p.registry) : q.Intact free held := by
  have hClosings := closings_congr hConnections
  have hIds : q.ids = p.ids := congrArg (List.map Connection.id) hConnections
  refine ⟨hp.nodup, ?_, ?_, ?_, ?_, ?_, ?_, ?_⟩
  · rw [hConnections]
    exact hp.made
  · simpa only [hClosings] using hp.unclosed
  · rw [isUsed_congr hConnections]
    exact hp.used
  · simpa only [hClosings, hConnections, hRegistry, idOf_congr hIds] using hp.entries
  · rw [hRegistry]
    exact hp.entries_nodup
  · simpa only [hClosings] using hp.once
  · simpa only [hIds, tracks_congr hIds hRegistry] using hp.tracked

theorem Intact.of_stock (hp : p.Intact free held) (hStock : q.stock = p.stock) :
    q.Intact free held :=
  hp.congr (congrArg Stock.connections hStock) (congrArg Stock.registry hStock)

/-- A connection changes hands, or something happens to it that the pool does not see. -/
theorem Intact.modify (hp : p.Intact free held) {f : Connection → Connection}
    (hId : ∀ c, (f c).id = c.id) (hDisposals : ∀ c, (f c).disposals = c.disposals)
    (hPerm : (free ++ held).Perm (free' ++ held'))
    (hUsed : ∀ g ∈ held', (p.modify h f).isUsed g = true) : (p.modify h f).Intact free' held' := by
  have hClosings := closings_modify (p := p) h hDisposals
  have hIds := ids_modify p h hId
  have hLength : (p.modify h f).connections.length = p.connections.length :=
    List.length_modify _ _ _
  have hMem (g : Handle) : g ∈ free' ++ held' → g ∈ free ++ held := hPerm.mem_iff.2
  refine ⟨hPerm.nodup hp.nodup, fun g hg => ?_, fun g hg => ?_, hUsed, fun r hr => ?_,
    hp.entries_nodup, fun g => ?_, fun hNodup g hg => ?_⟩
  · -- made
    rw [hLength]
    exact hp.made g (hMem g hg)
  · -- unclosed
    rw [hClosings]
    exact hp.unclosed g (hMem g hg)
  · -- entries
    rw [hClosings, hLength, idOf_congr hIds]
    exact hp.entries r hr
  · -- once
    rw [hClosings]
    exact hp.once g
  · -- tracked
    rw [hIds] at hNodup
    rw [tracks_congr hIds rfl]
    exact hp.tracked hNodup g (hMem g hg)

/-- It does not matter in which order the connections are free and held. -/
theorem Intact.perm (hp : p.Intact free held) (hFree : free.Perm free') (hHeld : held.Perm held') :
    p.Intact free' held' := by
  have hPerm := hFree.append hHeld
  have hMem (g : Handle) : g ∈ free' ++ held' → g ∈ free ++ held := hPerm.mem_iff.2
  exact ⟨hPerm.nodup hp.nodup, fun g hg => hp.made g (hMem g hg),
    fun g hg => hp.unclosed g (hMem g hg), fun g hg => hp.used g (hHeld.mem_iff.2 hg), hp.entries,
    hp.entries_nodup, hp.once, fun hNodup g hg => hp.tracked hNodup g (hMem g hg)⟩

/-- The pool may lose sight of a free connection. -/
theorem Intact.sublist (hp : p.Intact free held) (hFree : free'.Sublist free) :
    p.Intact free' held := by
  have hSub := hFree.append_right held
  exact ⟨hp.nodup.sublist hSub, fun g hg => hp.made g (hSub.subset hg),
    fun g hg => hp.unclosed g (hSub.subset hg), hp.used, hp.entries, hp.entries_nodup, hp.once,
    fun hNodup g hg => hp.tracked hNodup g (hSub.subset hg)⟩

/-- A connection that is neither free nor held is closed for the first time. -/
theorem Intact.destroy (hp : p.Intact free held) (hOut : h ∉ free ++ held)
    (hMade : h < p.connections.length) (hOpen : p.closings h = 0) :
    (p.destroy h).Intact free held := by
  have hIds := ids_destroy p h
  have hOther (g : Handle) (hg : g ∈ free ++ held) : g ≠ h := fun hSame => hOut (hSame ▸ hg)
  have hLength : (p.destroy h).connections.length = p.connections.length := by
    rw [destroy_connections]
    exact List.length_modify _ _ _
  refine ⟨hp.nodup, fun g hg => ?_, fun g hg => ?_, fun g hg => ?_, fun r hr => ?_, ?_, fun g => ?_,
    fun hNodup g hg => ?_⟩
  · -- made
    rw [hLength]
    exact hp.made g hg
  · -- unclosed
    rw [closings_destroy_of_ne (hOther g hg)]
    exact hp.unclosed g hg
  · -- used
    rw [isUsed_destroy]
    exact hp.used g hg
  · -- the entries that stay have other ids than the closed connection
    rw [destroy_registry] at hr
    obtain ⟨hr, hNe⟩ := List.mem_filter.1 hr
    obtain ⟨hUnclosed, hRest, hId⟩ := hp.entries r hr
    have hSame : r.2 ≠ h := by
      intro hSame
      rw [hId, hSame] at hNe
      simp at hNe
    rw [closings_destroy_of_ne hSame, hLength, idOf_congr hIds]
    exact ⟨hUnclosed, hRest, hId⟩
  · -- entries_nodup
    rw [destroy_registry]
    exact hp.entries_nodup.sublist (List.filter_sublist.map _)
  · -- once
    by_cases hSame : g = h
    · rw [hSame, closings_destroy_self hMade, hOpen]
    · rw [closings_destroy_of_ne hSame]
      exact hp.once g
  · -- tracked
    rw [hIds] at hNodup
    exact tracks_destroy hNodup (hp.made g hg) hMade (hOther g hg) (hp.tracked hNodup g hg)

/-- A free connection is free once, not held, and was not closed. -/
theorem Intact.head (hp : p.Intact (h :: free) held) :
    h ∉ free ++ held ∧ h < p.connections.length ∧ p.closings h = 0 ∧
      (p.ids.Nodup → p.tracks h = true) := by
  have hMem : h ∈ h :: free ++ held := List.mem_cons_self
  exact ⟨(List.nodup_cons.1 hp.nodup).1, hp.made h hMem, hp.unclosed h hMem,
    fun hNodup => hp.tracked hNodup h hMem⟩

/-- A free connection is closed. -/
theorem Intact.destroyFree (hp : p.Intact (h :: free) held) :
    (p.destroy h).Intact free held ∧ p.PartsWith (p.destroy h) [] := by
  obtain ⟨hOut, hMade, hOpen, -⟩ := hp.head
  exact ⟨(hp.sublist (List.sublist_cons_self h free)).destroy hOut hMade hOpen,
    PartsWith.destroy hOpen⟩

/-- A free connection is found dead. -/
theorem Intact.evictFree (hp : p.Intact (h :: free) held) (hDead : p.isDead h = true) :
    (p.evict h).Intact free held ∧ p.PartsWith (p.evict h) [h] := by
  obtain ⟨-, hMade, hOpen, hTracks⟩ := hp.head
  exact ⟨hp.destroyFree.1.of_stock (evict_stock p h), PartsWith.evict hMade hOpen hDead hTracks⟩

/-- A new connection is free. -/
theorem Intact.create (hp : p.Intact free held) (hCreate : p.create = (q, .ok h)) :
    q.Intact (h :: free) held ∧ p.PartsWith q [] := by
  obtain ⟨c, hNew, rfl, hConnections, hRegistry, -, hDeaths⟩ := create_new hCreate
  set new := p.connections.length with hLast
  have hClosings := closings_append hNew hConnections
  have hIds := ids_append hConnections
  have hNewId := idOf_append_new hConnections
  have hLength : q.connections.length = new + 1 := by
    rw [hConnections, List.length_append]
    rfl
  have hUnclosed : p.closings new = 0 := by
    by_contra hClosed
    exact Nat.lt_irrefl _ (made_of_closings hClosed)
  have hFewer (hNodup : q.ids.Nodup) : p.ids.Nodup := by
    rw [hIds] at hNodup
    exact (List.nodup_append.1 hNodup).1
  refine ⟨⟨?_, fun g hg => ?_, fun g hg => ?_, fun g hg => ?_, fun r hr => ?_, ?_, fun g => ?_,
    fun hNodup g hg => ?_⟩, PartsWith.of_same hClosings hDeaths hFewer⟩
  · -- nodup
    exact List.nodup_cons.2 ⟨fun hMem => Nat.lt_irrefl _ (hp.made _ hMem), hp.nodup⟩
  · -- made
    rw [hLength]
    rcases List.mem_cons.1 hg with rfl | hg
    · exact Nat.lt_succ_self _
    · exact Nat.lt_succ_of_lt (hp.made g hg)
  · -- unclosed
    rw [hClosings]
    rcases List.mem_cons.1 hg with rfl | hg
    · exact hUnclosed
    · exact hp.unclosed g hg
  · -- used
    have hOld := hp.made g (List.mem_append_right _ hg)
    rw [isUsed, connection?_append hConnections hOld]
    exact hp.used g hg
  · -- entries
    rw [hClosings, hLength]
    rw [hRegistry] at hr
    rcases List.mem_append.1 hr with hr | hr
    · obtain ⟨hOpen, hMade, hId⟩ := hp.entries r (List.mem_filter.1 hr).1
      rw [idOf_append hConnections hMade]
      exact ⟨hOpen, Nat.lt_succ_of_lt hMade, hId⟩
    · rw [List.mem_singleton.1 hr, hNewId]
      exact ⟨hUnclosed, Nat.lt_succ_self _, rfl⟩
  · -- entries_nodup
    rw [hRegistry, List.map_append]
    refine List.nodup_append.2
      ⟨hp.entries_nodup.sublist (List.filter_sublist.map _), List.nodup_singleton _, ?_⟩
    rintro g hg _ hLatest rfl
    obtain ⟨r, hr, rfl⟩ := List.mem_map.1 hg
    have hMade := (hp.entries r (List.mem_filter.1 hr).1).2.1
    exact Nat.ne_of_lt hMade (List.mem_singleton.1 hLatest)
  · rw [hClosings]
    exact hp.once g
  · rcases List.mem_cons.1 hg with rfl | hg
    · rw [tracks, hRegistry, hNewId, List.any_append]
      simp
    · have hTracks := hp.tracked (hFewer hNodup) g hg
      exact tracks_append hNodup hConnections hRegistry (hp.made g hg) hTracks

/-- A free connection goes to a caller. -/
theorem Intact.checkOut (hp : p.Intact (h :: free) held) :
    (p.checkOut h).Intact free (h :: held) ∧ p.PartsWith (p.checkOut h) [] := by
  obtain ⟨hOut, hMade, -, -⟩ := hp.head
  have hGiven : (p.modify h (Connection.markUsed true)).Intact free (h :: held) := by
    refine hp.modify (fun _ => rfl) (fun _ => rfl) List.perm_middle.symm fun g hg => ?_
    rcases List.mem_cons.1 hg with rfl | hg
    · exact isUsed_markUsed true hMade
    · have hNe : g ≠ h := fun hSame => hOut (hSame ▸ List.mem_append_right _ hg)
      rw [isUsed_markUsed_of_ne p true hNe]
      exact hp.used g hg
  have hIds : (p.checkOut h).ids = p.ids :=
    ids_modify p h (f := Connection.markUsed true) fun _ => rfl
  refine ⟨hGiven.congr rfl rfl, PartsWith.of_same ?_ rfl fun hNodup => hIds ▸ hNodup⟩
  exact closings_modify h (f := Connection.markUsed true) fun _ => rfl

/-- A connection is given back and is free. -/
theorem Intact.giveBack (hp : p.Intact free (h :: held)) :
    (p.modify h (Connection.markUsed false)).Intact (h :: free) held ∧
      p.PartsWith (p.modify h (Connection.markUsed false)) [] := by
  have hOut : h ∉ free ++ held := (List.nodup_cons.1 (List.perm_middle.nodup hp.nodup)).1
  have hIds := ids_modify p h (f := Connection.markUsed false) fun _ => rfl
  refine ⟨hp.modify (fun _ => rfl) (fun _ => rfl) List.perm_middle fun g hg => ?_,
    PartsWith.of_same ?_ rfl fun hNodup => hIds ▸ hNodup⟩
  · have hNe : g ≠ h := fun hSame => hOut (hSame ▸ List.mem_append_right _ hg)
    rw [isUsed_markUsed_of_ne p false hNe]
    exact hp.used g (List.mem_cons_of_mem _ hg)
  · exact closings_modify h fun _ => rfl

end Pool

end StoreClient
