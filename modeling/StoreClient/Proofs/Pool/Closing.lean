import StoreClient.Proofs.Pool.Draining
import StoreClient.Proofs.Pool.Holding
import StoreClient.Proofs.Pool.Intact

/-!
# Connections are closed once

A pool closes a connection when it finds it dead, when the connection is given back after the
disposal, and when it is not in use at the disposal. As what was closed is neither idle nor held,
and is not listed in the registry, none of these ways leads to one connection again, and none leads
to a connection that a caller holds.
-/

namespace StoreClient

namespace Pool

open Relation

variable {p q : Pool} {g h : Handle} {free held : List Handle}

/-! ## Reports -/

/-- What leaves the connections alone finds none of them dead. -/
theorem SameStock.deaths (h : SameStock p q) : q.deaths = p.deaths := by
  rw [Pool.deaths, Pool.deaths, h.reports, h.dead]

/-- What leaves the connections and the reports alone. -/
theorem Intact.unmoved (hp : p.Intact p.idle held) (hSame : SameStock p q) :
    q.Intact q.idle held ∧ p.PartsWith q [] := by
  have hIdle : q.idle = p.idle := congrArg Stock.idle hSame.stock
  have hConnections : q.connections = p.connections := congrArg Stock.connections hSame.stock
  rw [hIdle]
  exact ⟨hp.of_stock hSame.stock, PartsWith.of_connections hConnections hSame.deaths⟩

/-- Something happens to a connection that the pool does not see. -/
theorem Intact.unseen (hp : p.Intact free held) (h : Handle) {f : Connection → Connection}
    (hId : ∀ c, (f c).id = c.id) (hUsed : ∀ c, (f c).used = c.used)
    (hDisposals : ∀ c, (f c).disposals = c.disposals) :
    (p.modify h f).Intact free held ∧ p.PartsWith (p.modify h f) [] := by
  have hIds := ids_modify p h hId
  refine ⟨hp.modify hId hDisposals (List.Perm.refl _) fun g hg => ?_,
    PartsWith.of_same (closings_modify h hDisposals) rfl fun hNodup => hIds ▸ hNodup⟩
  rw [isUsed_modify p h hUsed]
  exact hp.used g hg

/-! ## Attempts -/

/-- The connections that an operation finds dead: the one that is given back, or those that are met
among the idle ones before one that is not. -/
def foundDead (p : Pool) : Op → List Handle
  | .attempt => if p.disposed then [] else p.idle.takeWhile p.isDead
  | .release h => if p.isDead h then [h] else []
  | _ => []

theorem isDead_evict (p : Pool) (h g : Handle) : (p.evict h).isDead g = p.isDead g :=
  (isDead_congr (evict_connections p h) g).trans (isDead_destroy p h g)

/-- An eviction finds one connection dead and closes it. -/
theorem Intact.evictsFirst (hp : p.Intact p.idle held) (hEvicts : EvictsFirst p q) :
    ∃ h, p.idle = h :: q.idle ∧ p.isDead h = true ∧ q.isDead = p.isDead ∧ q.Intact q.idle held ∧
      p.PartsWith q [h] := by
  obtain ⟨h, rest, hIdle, hDead, rfl⟩ := hEvicts
  rw [hIdle] at hp
  have hTaken : ({ p with idle := rest } : Pool).Intact (h :: rest) held := hp.congr rfl rfl
  obtain ⟨hEvicted, hParts⟩ := hTaken.evictFree hDead
  have hFirst : p.PartsWith { p with idle := rest } [] := PartsWith.of_connections rfl rfl
  rw [evict_idle]
  exact ⟨h, hIdle, hDead, funext (isDead_evict _ h), hEvicted, hFirst.trans hParts⟩

/-- Evictions close the dead connections that were idle in front of the others, each of them once.
-/
theorem Intact.evictsAll (hp : p.Intact p.idle held) (hEvicts : ReflTransGen EvictsFirst p q) :
    ∃ gone, p.idle = gone ++ q.idle ∧ (∀ h ∈ gone, p.isDead h = true) ∧ q.isDead = p.isDead ∧
      q.Intact q.idle held ∧ p.PartsWith q gone := by
  induction hEvicts with
  | refl => exact ⟨[], rfl, nofun, rfl, hp, PartsWith.of_connections rfl rfl⟩
  | tail _ hLast ih =>
    obtain ⟨gone, hIdle, hGone, hDead, hr, hParts⟩ := ih
    obtain ⟨h, hFirst, hFound, hDead', hq, hParts'⟩ := hr.evictsFirst hLast
    refine ⟨gone ++ [h], ?_, fun g hg => ?_, hDead'.trans hDead, hq, hParts.trans hParts'⟩
    · rw [hIdle, hFirst, List.append_assoc]
      rfl
    · rcases List.mem_append.1 hg with hg | hg
      · exact hGone g hg
      · rw [List.mem_singleton.1 hg, ← hDead]
        exact hFound

/-- A new connection is intact, and is held by its caller. -/
theorem Intact.grow (hp : p.Intact free held) :
    p.grow.1.Intact free (p.grow.2.handles ++ held) ∧ p.PartsWith p.grow.1 [] := by
  rcases grow_cases p with ⟨r, e, hCreate, hGrow⟩ | ⟨r, h, hCreate, hGrow⟩
  · obtain ⟨hConnections, hRegistry, -, hDeaths⟩ := create_failed hCreate
    rw [hGrow]
    exact ⟨hp.congr hConnections hRegistry, PartsWith.of_connections hConnections hDeaths⟩
  · obtain ⟨hr, hFirst⟩ := hp.create hCreate
    obtain ⟨hLast, hGiven⟩ := hr.checkOut
    rw [hGrow]
    exact ⟨hLast, hFirst.trans hGiven⟩

theorem grow_idle (p : Pool) : p.grow.1.idle = p.idle := by
  rcases grow_cases p with ⟨r, e, hCreate, hGrow⟩ | ⟨r, h, hCreate, hGrow⟩
  · rw [hGrow]
    exact (create_failed hCreate).2.2.1
  · obtain ⟨c, -, -, -, -, hIdle, -⟩ := create_new hCreate
    rw [hGrow]
    exact hIdle

/-- An idle connection that is handed out is held, and nothing is closed. -/
theorem Intact.handOut {rest : List Handle} (hp : p.Intact p.idle held)
    (hIdle : p.idle = h :: rest) :
    (p.handOut h rest).Intact (p.handOut h rest).idle (h :: held) ∧
      p.PartsWith (p.handOut h rest) [] := by
  rw [hIdle] at hp
  have hTaken : ({ p with idle := rest } : Pool).Intact (h :: rest) held := hp.congr rfl rfl
  obtain ⟨hGiven, hLast⟩ := hTaken.checkOut
  have hFirst : p.PartsWith { p with idle := rest } [] := PartsWith.of_connections rfl rfl
  have hNoted : (Pool.checkOut { p with idle := rest } h).PartsWith (p.handOut h rest) [] :=
    PartsWith.of_connections rfl rfl
  exact ⟨hGiven.congr rfl rfl, (hFirst.trans hLast).trans hNoted⟩

/-- An attempt finds the dead connections before the first idle one that is not dead. -/
theorem Intact.attempt (hp : p.Intact p.idle held) :
    p.attempt.1.Intact p.attempt.1.idle (p.attempt.2.handles ++ held) ∧
      p.PartsWith p.attempt.1 (p.foundDead .attempt) := by
  rw [foundDead]
  cases hDisposed : p.disposed with
  | true =>
    rw [attempt_of_disposed hDisposed, if_pos rfl]
    exact ⟨hp, PartsWith.of_connections rfl rfl⟩
  | false =>
    obtain ⟨q, hEvicts, hEnd⟩ := attempt_cases hDisposed
    obtain ⟨gone, hIdle, hGone, hDead, hq, hParts⟩ := hp.evictsAll hEvicts
    -- what was evicted is what was met before an attempt stops
    have hFound (hStop : q.idle.takeWhile p.isDead = []) : p.idle.takeWhile p.isDead = gone := by
      rw [hIdle, List.takeWhile_append_of_pos hGone, hStop, List.append_nil]
    have hEmpty (hNone : q.idle = []) : p.idle.takeWhile p.isDead = gone := by
      refine hFound ?_
      rw [hNone]
      rfl
    rw [if_neg Bool.false_ne_true]
    rcases hEnd with ⟨h, rest, hFirst, hAlive, hEnd⟩ | ⟨hNone, -, hEnd⟩ | ⟨hNone, -, -, hEnd⟩ |
      ⟨hNone, -, -, hEnd⟩
    · -- an idle connection is handed out
      have hStop : q.idle.takeWhile p.isDead = [] := by
        rw [← hDead, hFirst]
        exact List.takeWhile_cons_of_neg (Bool.eq_false_iff.1 hAlive)
      obtain ⟨hGiven, hLast⟩ := hq.handOut hFirst
      rw [hFound hStop, hEnd]
      exact ⟨hGiven, hParts.trans_nil hLast⟩
    · -- a new one is, or the factory fails
      obtain ⟨hGrown, hLast⟩ := hq.grow
      rw [hEmpty hNone, hEnd, grow_idle]
      exact ⟨hGrown, hParts.trans_nil hLast⟩
    · -- the caller is queued
      obtain ⟨hQueued, hLast⟩ := hq.unmoved (enqueue_sameStock q)
      rw [hEmpty hNone, hEnd]
      exact ⟨hQueued, hParts.trans_nil hLast⟩
    · -- the caller is refused
      obtain ⟨hRefused, hLast⟩ := hq.unmoved (refuse_sameStock q)
      rw [hEmpty hNone, hEnd]
      exact ⟨hRefused, hParts.trans_nil hLast⟩

/-! ## Opening connections in advance -/

theorem Intact.opensOne (hp : p.Intact p.idle held) (hOpens : OpensOne p q) :
    q.Intact q.idle held ∧ p.PartsWith q [] := by
  obtain ⟨-, r, h, hCreate, rfl⟩ := hOpens
  obtain ⟨hr, hParts⟩ := hp.create hCreate
  obtain ⟨c, -, -, -, -, hIdle, -⟩ := create_new hCreate
  have hLast : r.PartsWith { r with idle := r.idle ++ [h] } [] := PartsWith.of_connections rfl rfl
  refine ⟨?_, hParts.trans hLast⟩
  dsimp only
  rw [hIdle]
  exact (hr.perm (List.perm_append_singleton h p.idle).symm (List.Perm.refl held)).congr rfl rfl

/-- Opening connections in advance closes none. -/
theorem Intact.openMinimum (hp : p.Intact p.idle held) :
    p.openMinimum.Intact p.openMinimum.idle held ∧ p.PartsWith p.openMinimum [] := by
  refine openMinimum_induction (P := fun q => q.Intact q.idle held ∧ p.PartsWith q [])
    ⟨hp, PartsWith.of_connections rfl rfl⟩ (fun q r hq hOpens => ?_) fun q r e hq hCreate => ?_
  · obtain ⟨hNext, hParts⟩ := hq.1.opensOne hOpens
    exact ⟨hNext, hq.2.trans hParts⟩
  · obtain ⟨hConnections, hRegistry, hIdle, hDeaths⟩ := create_failed hCreate
    refine ⟨?_, hq.2.trans (PartsWith.of_connections hConnections hDeaths)⟩
    dsimp only [note]
    rw [hIdle]
    exact hq.1.congr hConnections hRegistry

/-! ## Release -/

/-- A connection that was given back is found dead, closed in a disposed pool, or idle again. -/
theorem Intact.settled {r : Pool} (hp : p.Intact (h :: p.idle) held)
    (hConnections : r.connections = p.connections) (hRegistry : r.registry = p.registry)
    (hIdle : r.idle = p.idle ++ [h]) (hDeaths : r.deaths = p.deaths) :
    let settled := if p.isDead h then p.evict h else if p.disposed then p.destroy h else r
    settled.Intact settled.idle held ∧ p.PartsWith settled (if p.isDead h then [h] else []) := by
  intro settled
  by_cases hDead : p.isDead h = true
  · have hSettled : settled = p.evict h := if_pos hDead
    rw [hSettled, if_pos hDead, evict_idle]
    exact hp.evictFree hDead
  · rw [if_neg hDead]
    by_cases hDisposed : p.disposed = true
    · have hSettled : settled = p.destroy h := (if_neg hDead).trans (if_pos hDisposed)
      rw [hSettled, destroy_idle]
      exact hp.destroyFree
    · have hSettled : settled = r := (if_neg hDead).trans (if_neg hDisposed)
      have hLast : (h :: p.idle).Perm (p.idle ++ [h]) := (List.perm_append_singleton h p.idle).symm
      have hKept := (hp.perm hLast (List.Perm.refl _)).congr hConnections hRegistry
      rw [hSettled, hIdle]
      exact ⟨hKept, PartsWith.of_connections hConnections hDeaths⟩

/-- A release finds the connection dead that is given back, if it is. -/
theorem Intact.release (hp : p.Intact p.idle held) (hHeld : h ∈ held) :
    (p.release h).Intact (p.release h).idle (held.erase h) ∧
      p.PartsWith (p.release h) (p.foundDead (.release h)) := by
  have hGiven : p.Intact p.idle (h :: held.erase h) :=
    hp.perm (List.Perm.refl _) (List.perm_cons_erase hHeld)
  obtain ⟨hBack, hFirst⟩ := hGiven.giveBack
  have hStill : (p.modify h (Connection.markUsed false)).isDead h = p.isDead h :=
    isDead_modify p h (f := Connection.markUsed false) (fun _ => rfl) h
  obtain ⟨hSettled, hParts⟩ := Intact.settled
    (r := { (p.modify h (Connection.markUsed false)).note .debug "released connection"
      [p.idValue h] with idle := p.idle ++ [h] }) hBack rfl rfl rfl rfl
  obtain ⟨hWoken, hLast⟩ := hSettled.unmoved (wakeNext_onlyWaiters _).toSameStock
  have hAll := (hFirst.trans hParts).trans_nil hLast
  rw [foundDead, ← hStill]
  exact ⟨hWoken, hAll⟩

/-! ## Disposal -/

/-- A live connection that is closed at the disposal is not in use, so that nobody holds it. -/
theorem Intact.retire (hp : p.Intact [] held) (hMade : h < p.connections.length)
    (hOpen : p.closings h = 0) : (p.retire h).Intact [] held ∧ p.PartsWith (p.retire h) [] := by
  have hConnection : p.connection? h = some p.connections[h] := List.getElem?_eq_getElem hMade
  unfold Pool.retire
  rw [hConnection]
  dsimp only
  cases p.connections[h].shutdown with
  | true => exact ⟨hp, PartsWith.of_connections rfl rfl⟩
  | false =>
    cases hUsed : p.connections[h].used with
    | true =>
      let asked :=
        Connection.countdownToClose p.config.closeAttemptInterval p.config.maxCloseAttempts
      obtain ⟨hAsked, hParts⟩ :=
        hp.unseen h (f := asked) (fun _ => rfl) (fun _ => rfl) fun _ => rfl
      refine ⟨hAsked.congr rfl rfl, hParts.trans ?_⟩
      exact PartsWith.of_connections rfl rfl
    | false =>
      -- who holds a connection uses it
      have hFree : h ∉ [] ++ held := by
        intro hHeld
        have hMarked := hp.used h hHeld
        rw [isUsed, hConnection, Option.any_some, hUsed] at hMarked
        cases hMarked
      exact ⟨hp.destroy hFree hMade hOpen, PartsWith.destroy hOpen⟩

theorem closings_retire_of_ne (hNe : g ≠ h) : (p.retire h).closings g = p.closings g := by
  rw [closings, connection?_retire_of_ne p hNe, closings]

theorem length_retire (p : Pool) (h : Handle) :
    (p.retire h).connections.length = p.connections.length := by
  unfold Pool.retire
  split
  · rfl
  · split
    · rfl
    · split
      · exact List.length_modify _ _ _
      · obtain ⟨metrics, hEq⟩ := destroy_eq p h
        rw [hEq]
        exact List.length_modify _ _ _

/-- The pool parts with different connections that were not closed, one after the other. -/
theorem Intact.retireAll {handles : List Handle} (hp : p.Intact [] held) (hNodup : handles.Nodup)
    (hHandles : ∀ h ∈ handles, h < p.connections.length ∧ p.closings h = 0) :
    (handles.foldl Pool.retire p).Intact [] held ∧
      p.PartsWith (handles.foldl Pool.retire p) [] := by
  induction handles generalizing p with
  | nil => exact ⟨hp, PartsWith.of_connections rfl rfl⟩
  | cons h rest ih =>
    obtain ⟨hFresh, hRest⟩ := List.nodup_cons.1 hNodup
    obtain ⟨hMade, hOpen⟩ := hHandles h List.mem_cons_self
    obtain ⟨hNext, hFirst⟩ := hp.retire hMade hOpen
    have hLater : ∀ g ∈ rest,
        g < (p.retire h).connections.length ∧ (p.retire h).closings g = 0 := by
      intro g hg
      have hNe : g ≠ h := fun hSame => hFresh (hSame ▸ hg)
      rw [length_retire, closings_retire_of_ne hNe]
      exact hHandles g (List.mem_cons_of_mem _ hg)
    obtain ⟨hAll, hLast⟩ := ih hNext hRest hLater
    exact ⟨hAll, hFirst.trans hLast⟩

/-- A disposal leaves nothing idle, and is no death. -/
theorem Intact.dispose (hp : p.Intact p.idle held) :
    p.dispose.Intact p.dispose.idle held ∧ p.PartsWith p.dispose [] := by
  cases hDisposed : p.disposed with
  | true =>
    rw [dispose_of_disposed hDisposed]
    exact ⟨hp, PartsWith.of_connections rfl rfl⟩
  | false =>
    have hMarked : ({ p with disposed := true } : Pool).Intact [] held :=
      (hp.sublist (List.nil_sublist _)).congr rfl rfl
    have hHandles : ∀ h ∈ p.registry.map (·.2), h < p.connections.length ∧ p.closings h = 0 := by
      intro h hh
      obtain ⟨r, hr, rfl⟩ := List.mem_map.1 hh
      exact ⟨(hp.entries r hr).2.1, (hp.entries r hr).1⟩
    obtain ⟨hRetired, hParts⟩ := hMarked.retireAll hp.entries_nodup hHandles
    have hFirst : p.PartsWith { p with disposed := true } [] := PartsWith.of_connections rfl rfl
    have hStock := (foldl_complete_onlyWaiters p.retired p.retired.queue).stock
    have hDeaths := (foldl_complete_onlyWaiters p.retired p.retired.queue).deaths
    obtain ⟨log, hEq⟩ := dispose_of_open hDisposed
    rw [hEq]
    refine ⟨(hRetired.of_stock hStock).congr rfl rfl, (hFirst.trans hParts).trans ?_⟩
    exact PartsWith.of_connections (congrArg Stock.connections hStock) hDeaths

/-! ## Runs -/

/-- No operation of honest callers closes a connection twice, or one that is idle or held after
it. -/
theorem Intact.apply (hp : p.Intact p.idle held) {op : Op} (hGiven : op.given ⊆ held) :
    (p.apply op).Intact (p.apply op).idle (p.heldAfter held op) ∧
      p.PartsWith (p.apply op) (p.foundDead op) := by
  cases op with
  | openMinimum => exact hp.openMinimum
  | attempt => exact hp.attempt
  | timeOut w => exact hp.unmoved (timeOut_sameStock p w)
  | abandon w => exact hp.unmoved (abandon_onlyWaiters p w).toSameStock
  | release h => exact hp.release (hGiven List.mem_cons_self)
  | dispose => exact hp.dispose
  | setDead h dead => exact hp.unseen h (fun _ => rfl) (fun _ => rfl) fun _ => rfl
  | shut h => exact hp.unseen h (fun _ => rfl) (fun _ => rfl) fun _ => rfl
  | returning h => exact hp.unmoved ⟨rfl, rfl, rfl, rfl, rfl⟩
  | cycleBuffers count => exact hp.unmoved ⟨rfl, rfl, rfl, rfl, rfl⟩

/-- The connections that some operations find dead, in order. -/
def foundDeadAll (p : Pool) : List Op → List Handle
  | [] => []
  | op :: ops => p.foundDead op ++ (p.apply op).foundDeadAll ops

/-- Whatever is done while callers give back what they hold, a connection is found dead at most
once, and is closed then. -/
theorem Intact.applyAll (hp : p.Intact p.idle held) {ops : List Op} (hOps : p.Faithful held ops) :
    (p.applyAll ops).Intact (p.applyAll ops).idle (p.heldAfterAll held ops) ∧
      p.PartsWith (p.applyAll ops) (p.foundDeadAll ops) := by
  induction ops generalizing p held with
  | nil => exact ⟨hp, PartsWith.of_connections rfl rfl⟩
  | cons op ops ih =>
    obtain ⟨hNext, hFirst⟩ := hp.apply hOps.1
    obtain ⟨hAll, hLast⟩ := ih hNext hOps.2
    exact ⟨hAll, hFirst.trans hLast⟩

theorem intact_fresh (endpoint : Endpoint) (config : PoolConfig) (factory : List FactoryOutcome) :
    (fresh endpoint config factory).Intact [] [] where
  nodup := List.nodup_nil
  made := nofun
  unclosed := nofun
  used := nofun
  entries := nofun
  entries_nodup := List.nodup_nil
  once := fun _ => Nat.zero_le _
  tracked := fun _ => nofun

end Pool

namespace Custody

open Pool Session

variable {c : Custody} {st : Step}

/-- What is idle or held was never closed. -/
structure Unclosed (c : Custody) : Prop where
  placed : c.Placed
  intact : c.session.pool.Intact c.session.pool.idle c.handles

/-- A step of honest callers leaves what is idle or held unclosed. -/
theorem Unclosed.step (hc : c.Unclosed)
    (hHonest : ∀ i ∈ c.session.givesBack? st, i ∈ c.held.map (·.1)) :
    (c.step st).Unclosed ∧
      c.session.pool.PartsWith (c.step st).session.pool
        (c.session.pool.foundDeadAll (c.session.useOps (.step st))) := by
  obtain ⟨hPlaced, hFaithful, hHeld⟩ := hc.placed.step_holds hHonest
  obtain ⟨hIntact, hParts⟩ := hc.intact.applyAll hFaithful
  have hPool : (c.step st).session.pool =
      c.session.pool.applyAll (c.session.useOps (.step st)) := use_pool c.session (.step st)
  rw [hPool]
  refine ⟨⟨hPlaced, ?_⟩, hParts⟩
  rw [hPool]
  exact hIntact.perm (List.Perm.refl _) hHeld

/-- The connections that a run finds dead, in order. -/
def foundDead (c : Custody) : List Step → List Handle
  | [] => []
  | st :: rest =>
    c.session.pool.foundDeadAll (c.session.useOps (.step st)) ++ (c.step st).foundDead rest

/-- A run of honest callers closes and reports what it finds dead, and nothing else that is idle or
held. -/
theorem Unclosed.run {steps : List Step} (hc : c.Unclosed) (hHonest : c.Honest steps) :
    (c.run steps).Unclosed ∧
      c.session.pool.PartsWith (c.run steps).session.pool (c.foundDead steps) := by
  induction steps generalizing c with
  | nil => exact ⟨hc, PartsWith.of_connections rfl rfl⟩
  | cons st rest ih =>
    obtain ⟨hNext, hFirst⟩ := hc.step hHonest.1
    obtain ⟨hAll, hLast⟩ := ih hNext hHonest.2
    exact ⟨hAll, hFirst.trans hLast⟩

theorem unclosed_start (endpoint : Endpoint) (config : PoolConfig)
    (factory : List FactoryOutcome) : (start endpoint config factory).Unclosed where
  placed := ⟨nofun, nofun, List.nodup_nil⟩
  intact := intact_fresh endpoint config factory

/-- Whatever honest callers do to a pool, and whichever of its connections die: it closes each
connection at most once, none that is idle or held, and gives out none that it has closed. What it
finds dead it closes and reports once, and it counts its reports, as long as the factory gives no id
twice. -/
theorem closed_once_and_never_held (endpoint : Endpoint) (config : PoolConfig)
    (factory : List FactoryOutcome) (steps : List Step)
    (hHonest : (start endpoint config factory).Honest steps) :
    let c := (start endpoint config factory).run steps
    let p := c.session.pool
    let found := (start endpoint config factory).foundDead steps
    (∀ h, p.closings h ≤ 1) ∧ (∀ h ∈ p.idle ++ c.handles, p.closings h = 0) ∧
      (∀ more, c.Honest more → ∀ h ∈ (c.run more).handles, p.closings h = 0) ∧
      found.Nodup ∧ (∀ h ∈ found, p.closings h = 1) ∧ p.reports = found.map (fun _ => true) ∧
      (p.ids.Nodup → p.metrics.dead = p.reports.length) := by
  intro c p found
  obtain ⟨hc, hParts⟩ := (unclosed_start endpoint config factory).run hHonest
  have hNone : (start endpoint config factory).session.pool.Reported [] :=
    ⟨List.nodup_nil, nofun, rfl, fun _ => rfl⟩
  have hFound : p.Reported found := hParts.reported [] hNone
  refine ⟨hc.intact.once, hc.intact.unclosed, fun more hMore h hh => ?_, hFound.nodup,
    hFound.closed, hFound.reports, fun hNodup => ?_⟩
  · -- a closing is never undone, so what is held later was not closed before
    obtain ⟨hLater, hRest⟩ := hc.run hMore
    have hOpen := hLater.intact.unclosed h (List.mem_append_right _ hh)
    have hGrows := hRest.closings h
    rw [hOpen] at hGrows
    exact Nat.le_zero.1 hGrows
  · rw [hFound.reports, List.length_map]
    exact hFound.counted hNodup

/-- The first connection dies while it is held, the second while it is idle, and the third comes
back when the pool has been disposed of. Each is closed once, and two are reported. -/
theorem three_closed_two_reported :
    let c := (start ⟨.v4 [127, 0, 0, 1], 11210⟩ { maxSize := 2 } []).run
      [.acquire true, .acquire false, .kill 0, .release 0, .release 1, .kill 1, .acquire false,
        .dispose, .release 2]
    c.session.pool.connections.map (·.disposals) = [1, 1, 1] ∧
      c.session.pool.metrics.dead = 2 ∧ c.session.pool.reports = [true, true] := by
  obtain ⟨-, -, -, -, -, hReports, hDead⟩ :=
    closed_once_and_never_held ⟨.v4 [127, 0, 0, 1], 11210⟩ { maxSize := 2 } []
      [.acquire true, .acquire false, .kill 0, .release 0, .release 1, .kill 1, .acquire false,
        .dispose, .release 2] (by decide +kernel)
  have hTwo := hReports.trans (by decide +kernel : _ = [true, true])
  refine ⟨by decide +kernel, (hDead (by decide +kernel)).trans ?_, hTwo⟩
  exact congrArg List.length hTwo

end Custody

end StoreClient
