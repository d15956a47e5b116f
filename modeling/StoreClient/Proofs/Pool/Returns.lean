import StoreClient.Proofs.Pool.Abandoned
import StoreClient.Proofs.Pool.Turns

/-!
# Connections that are given back again

A connection that nobody holds any more may be given back once more by a caller who has kept it. If
it is dead, or if the pool was disposed of, it is closed again, which changes nothing in the books
once its entry is gone. Otherwise it is put among the idle ones, whether or not it is one of them
already. As long as the idle connections and the held ones are all different (`Apart`), no later run
hands one connection to two callers; a connection that is idle twice and alive is handed out twice.
-/

namespace StoreClient

namespace Pool

open Relation

variable {p q : Pool} {places held : List Handle} {g h : Handle}

/-! ## Connections in different places -/

/-- The connections in some places were made, and no two of them are the same. -/
structure Apart (p : Pool) (places : List Handle) : Prop where
  nodup : places.Nodup
  made : ∀ g ∈ places, g < p.connections.length

theorem Apart.congr (hp : p.Apart places)
    (hLength : q.connections.length = p.connections.length) : q.Apart places := by
  refine ⟨hp.nodup, fun g hg => ?_⟩
  rw [hLength]
  exact hp.made g hg

theorem Apart.perm {places' : List Handle} (hp : p.Apart places) (hPerm : places.Perm places') :
    p.Apart places' :=
  ⟨hPerm.nodup hp.nodup, fun g hg => hp.made g (hPerm.mem_iff.2 hg)⟩

theorem Apart.sublist {places' : List Handle} (hp : p.Apart places)
    (hSub : places'.Sublist places) : p.Apart places' :=
  ⟨hp.nodup.sublist hSub, fun g hg => hp.made g (hSub.subset hg)⟩

theorem Apart.cons (hp : p.Apart places) (hMade : h < p.connections.length) (hNew : h ∉ places) :
    p.Apart (h :: places) := by
  refine ⟨List.nodup_cons.2 ⟨hNew, hp.nodup⟩, fun g hg => ?_⟩
  rcases List.mem_cons.1 hg with rfl | hg
  · exact hMade
  · exact hp.made g hg

theorem length_evict (p : Pool) (h : Handle) :
    (p.evict h).connections.length = p.connections.length := by
  rw [evict_connections, destroy_connections]
  exact List.length_modify _ _ _

/-- A new connection is in none of the places. -/
theorem Apart.create (hp : p.Apart places) (hCreate : p.create = (q, .ok h)) :
    q.Apart (h :: places) ∧ q.idle = p.idle := by
  obtain ⟨c, -, rfl, hConnections, -, hIdle, -⟩ := create_new hCreate
  have hLength : q.connections.length = p.connections.length + 1 := by
    rw [hConnections, List.length_append, List.length_singleton]
  have hOld : q.Apart places := by
    refine ⟨hp.nodup, fun g hg => ?_⟩
    rw [hLength]
    exact Nat.lt_succ_of_lt (hp.made g hg)
  refine ⟨hOld.cons ?_ fun hMem => Nat.lt_irrefl _ (hp.made _ hMem), hIdle⟩
  rw [hLength]
  exact Nat.lt_succ_self _

theorem Apart.of_stock (hp : p.Apart (p.idle ++ held)) (hStock : q.stock = p.stock) :
    q.Apart (q.idle ++ held) := by
  have hIdle : q.idle = p.idle := congrArg Stock.idle hStock
  rw [hIdle]
  exact hp.congr (congrArg (fun k => k.connections.length) hStock)

/-! ## Operations -/

/-- Evictions only take connections out of their places. -/
theorem Apart.evictsFirst (hp : p.Apart (p.idle ++ held)) (hEvicts : ReflTransGen EvictsFirst p q) :
    q.Apart (q.idle ++ held) := by
  induction hEvicts with
  | refl => exact hp
  | tail _ hLast ih =>
    obtain ⟨h, rest, hIdle, -, rfl⟩ := hLast
    rw [hIdle] at ih
    rw [evict_idle]
    exact (ih.sublist (List.sublist_cons_self h _)).congr (length_evict _ h)

/-- What an attempt hands out was idle or is new. -/
theorem Apart.attempt (hp : p.Apart (p.idle ++ held)) :
    p.attempt.1.Apart (p.attempt.1.idle ++ (p.attempt.2.handles ++ held)) := by
  cases hDisposed : p.disposed with
  | true =>
    rw [attempt_of_disposed hDisposed]
    exact hp
  | false =>
    obtain ⟨q, hEvicts, hEnd⟩ := attempt_cases hDisposed
    have hq := hp.evictsFirst hEvicts
    rcases hEnd with ⟨h, rest, hIdle, -, hEnd⟩ | ⟨-, -, hEnd⟩ | ⟨-, -, -, hEnd⟩ | ⟨-, -, -, hEnd⟩
    · rw [hIdle] at hq
      rw [hEnd]
      exact (hq.perm List.perm_middle.symm).congr (List.length_modify _ _ _)
    · rw [hEnd, grow_idle]
      rcases grow_cases q with ⟨r, e, hCreate, hGrow⟩ | ⟨r, h, hCreate, hGrow⟩
      · rw [hGrow]
        exact hq.congr (congrArg List.length (create_failed hCreate).1)
      · rw [hGrow]
        exact ((hq.create hCreate).1.perm List.perm_middle.symm).congr (List.length_modify _ _ _)
    · rw [hEnd]
      exact hq.of_stock (enqueue_sameStock q).stock
    · rw [hEnd]
      exact hq.of_stock (refuse_sameStock q).stock

/-- What is opened in advance is new, and so in no other place. -/
theorem Apart.openMinimum (hp : p.Apart (p.idle ++ held)) :
    p.openMinimum.Apart (p.openMinimum.idle ++ held) := by
  refine openMinimum_induction (P := fun q => q.Apart (q.idle ++ held)) hp
    (fun q r hq hOpens => ?_) fun q r e hq hCreate => ?_
  · obtain ⟨-, r, h, hCreate, rfl⟩ := hOpens
    obtain ⟨hNew, hIdle⟩ := hq.create hCreate
    have hPerm : (h :: (q.idle ++ held)).Perm ((q.idle ++ [h]) ++ held) := by
      rw [List.append_assoc]
      exact List.perm_middle.symm
    dsimp only
    rw [hIdle]
    exact (hNew.perm hPerm).congr rfl
  · obtain ⟨hConnections, -, hIdle, -⟩ := create_failed hCreate
    dsimp only [note]
    rw [hIdle]
    exact hq.congr (congrArg List.length hConnections)

/-- Giving a connection back makes none, and no connection dies of it. -/
theorem release_connections (p : Pool) (h : Handle) :
    (p.release h).connections.length = p.connections.length ∧
      (p.release h).isDead = p.isDead := by
  have hReturned := isDead_modify p h (f := Connection.markUsed false) fun _ => rfl
  have hStock := release_stock p h
  split at hStock
  · have hConnections := congrArg Stock.connections hStock
    refine ⟨(congrArg List.length hConnections).trans ?_, funext fun g => ?_⟩
    · change (destroy _ h).connections.length = _
      rw [destroy_connections, List.length_modify]
      exact List.length_modify _ _ _
    · exact (isDead_congr hConnections g).trans ((isDead_destroy _ h g).trans (hReturned g))
  · have hConnections := congrArg Stock.connections hStock
    have hLength := congrArg List.length hConnections
    refine ⟨hLength.trans (List.length_modify _ _ _), funext fun g => ?_⟩
    exact (isDead_congr (p := p.modify h _) hConnections g).trans (hReturned g)

/-- A connection that is given back by its holder is in one place afterwards, if in any. -/
theorem Apart.release (hp : p.Apart (p.idle ++ held)) (hHeld : h ∈ held) :
    (p.release h).Apart ((p.release h).idle ++ held.erase h) := by
  have hSame := (release_connections p h).1
  have hLeft := List.perm_cons_erase hHeld
  rw [release_idle_eq]
  split
  · exact (hp.sublist ((List.erase_sublist ..).append_left _)).congr hSame
  · have hPerm : (p.idle ++ held).Perm ((p.idle ++ [h]) ++ held.erase h) := by
      rw [List.append_assoc]
      exact hLeft.append_left _
    exact (hp.perm hPerm).congr hSame

theorem length_dispose (p : Pool) : p.dispose.connections.length = p.connections.length := by
  cases hDisposed : p.disposed with
  | true => rw [dispose_of_disposed hDisposed]
  | false =>
    obtain ⟨log, hEq⟩ := dispose_of_open hDisposed
    have hWoken :=
      congrArg Stock.connections (foldl_complete_onlyWaiters p.retired p.retired.queue).stock
    rw [hEq]
    exact (congrArg List.length hWoken).trans
      (foldl_unchanged (k := fun q => q.connections.length) length_retire _ _)

/-- A disposal leaves nothing idle, and callers hold what they held. -/
theorem Apart.dispose (hp : p.Apart (p.idle ++ held)) :
    p.dispose.Apart (p.dispose.idle ++ held) := by
  cases hDisposed : p.disposed with
  | true =>
    rw [dispose_of_disposed hDisposed]
    exact hp
  | false =>
    obtain ⟨log, hEq⟩ := dispose_of_open hDisposed
    have hNone : p.dispose.idle = [] := congrArg Pool.idle hEq
    rw [hNone]
    exact (hp.sublist (List.sublist_append_right _ _)).congr (length_dispose p)

/-- What callers do who give back what they hold, once, leaves the idle connections and the held
ones different. -/
theorem Apart.apply (hp : p.Apart (p.idle ++ held)) {op : Op} (hGiven : op.given ⊆ held) :
    (p.apply op).Apart ((p.apply op).idle ++ p.heldAfter held op) := by
  cases op with
  | openMinimum => exact hp.openMinimum
  | attempt => exact hp.attempt
  | timeOut w => exact hp.of_stock (timeOut_sameStock p w).stock
  | abandon w => exact hp.of_stock (abandon_onlyWaiters p w).stock
  | release h => exact hp.release (hGiven List.mem_cons_self)
  | dispose => exact hp.dispose
  | setDead h dead => exact hp.congr (List.length_modify _ _ _)
  | shut h => exact hp.congr (List.length_modify _ _ _)
  | returning h => exact hp.congr rfl
  | cycleBuffers count => exact hp.congr rfl

/-- Whatever is done, no connection is in two places as long as callers give back what they hold. -/
theorem Apart.applyAll (hp : p.Apart (p.idle ++ held)) {ops : List Op}
    (hOps : p.Faithful held ops) :
    (p.applyAll ops).Apart ((p.applyAll ops).idle ++ p.heldAfterAll held ops) := by
  induction ops generalizing p held with
  | nil => exact hp
  | cons op ops ih => exact ih (hp.apply hOps.1) hOps.2

/-- A connection that nobody holds may be given back again if it is not idle, or is dead. -/
theorem Apart.releaseAgain (hp : p.Apart (p.idle ++ held)) (hMade : h < p.connections.length)
    (hFree : h ∉ held) (hSpared : h ∈ p.idle → p.isDead h = true) :
    (p.release h).Apart ((p.release h).idle ++ held) := by
  have hSame := (release_connections p h).1
  rw [release_idle_eq]
  split
  · exact hp.congr hSame
  · have hAlive : ¬ p.isDead h = true := by simp_all
    have hNew : h ∉ p.idle ++ held := by
      rw [List.mem_append]
      exact not_or.2 ⟨fun hIdle => hAlive (hSpared hIdle), hFree⟩
    have hPerm : (h :: (p.idle ++ held)).Perm ((p.idle ++ [h]) ++ held) := by
      rw [List.append_assoc]
      exact List.perm_middle.symm
    exact ((hp.cons hMade hNew).perm hPerm).congr hSame

/-- Nothing is written off for a connection whose entry is gone. -/
theorem release_books_of_not_tracks (hNot : ¬ p.tracks h = true) :
    (p.release h).books = p.books := by
  have hReturned : (p.modify h (Connection.markUsed false)).books = p.books :=
    modify_books p h fun _ => rfl
  have hStill : ¬ (p.modify h (Connection.markUsed false)).tracks h = true := by
    rw [tracks_congr (congrArg Books.ids hReturned) rfl]
    exact hNot
  have hDestroyed := (destroy_books_of_not_tracks hStill).trans hReturned
  unfold release
  dsimp only
  rw [(wakeNext_onlyWaiters _).books]
  split
  · rw [evict_books, if_neg hStill]
    exact hDestroyed
  · split
    · exact hDestroyed
    · exact hReturned

/-! ## Handing out what is idle -/

/-- The idle connections that are alive, in the order in which they are handed out. -/
def liveIdle (p : Pool) : List Handle := p.idle.filter fun g => !p.isDead g

theorem EvictsFirst.liveIdle_eq (hEvicts : EvictsFirst p q) : q.liveIdle = p.liveIdle := by
  have hDead : q.isDead = p.isDead := funext hEvicts.isDead_eq
  obtain ⟨h, rest, hIdle, hFirst, rfl⟩ := hEvicts
  rw [liveIdle, hDead, evict_idle, liveIdle, hIdle, List.filter_cons_of_neg]
  rw [hFirst]
  exact Bool.false_ne_true

/-- Evictions leave the idle connections that are alive as they are. -/
theorem liveIdle_of_evictsFirst (hEvicts : ReflTransGen EvictsFirst p q) :
    q.liveIdle = p.liveIdle := by
  induction hEvicts with
  | refl => rfl
  | tail _ hLast ih => exact hLast.liveIdle_eq.trans ih

/-- An attempt hands out the first idle connection that is alive. -/
theorem attempt_of_liveIdle {rest : List Handle} (hOpen : p.disposed = false)
    (hLive : p.liveIdle = h :: rest) :
    ∃ q, p.attempt = (q, .ready h) ∧ q.disposed = false ∧ q.liveIdle = rest := by
  obtain ⟨q, hEvicts, hEnd⟩ := attempt_cases hOpen
  have hSame : q.liveIdle = h :: rest := (liveIdle_of_evictsFirst hEvicts).trans hLive
  have hStill : q.disposed = false :=
    (congrArg Line.disposed (onlyConnections_of_evictsFirst hEvicts).line).trans hOpen
  have hSome : q.idle ≠ [] := by
    intro hNone
    rw [liveIdle, hNone] at hSame
    cases hSame
  rcases hEnd with ⟨g, tail, hIdle, hAlive, hEnd⟩ | ⟨hNone, -⟩ | ⟨hNone, -⟩ | ⟨hNone, -⟩
  · rw [liveIdle, hIdle, List.filter_cons_of_pos (by rw [hAlive]; rfl)] at hSame
    obtain ⟨rfl, hRest⟩ := List.cons.inj hSame
    have hDead : (q.handOut g tail).isDead = q.isDead :=
      funext (isDead_modify q g (f := Connection.markUsed true) fun _ => rfl)
    refine ⟨_, hEnd, hStill, ?_⟩
    rw [liveIdle, hDead]
    exact hRest
  · exact absurd hNone hSome
  · exact absurd hNone hSome
  · exact absurd hNone hSome

/-- A call gets the first idle connection that is alive, without a wait. -/
theorem acquire_of_liveIdle {rest : List Handle} (hOpen : p.disposed = false)
    (hLive : p.liveIdle = h :: rest) :
    ∃ q, p.acquire = (q, .ok h) ∧ q.disposed = false ∧ q.liveIdle = rest := by
  obtain ⟨q, hAttempt, hq⟩ := attempt_of_liveIdle hOpen hLive
  refine ⟨q, ?_, hq⟩
  unfold acquire
  cases p.config.maxAcquireRetryCount - p.failures <;> rw [acquireWithin, hAttempt]

end Pool

theorem Session.Settled.useAll {s : Session} (hs : s.Settled) (uses : List Session.Use) :
    (s.useAll uses).Settled := by
  induction uses generalizing s with
  | nil => exact hs
  | cons u uses ih => exact ih (hs.use u)

namespace Custody

open Pool Session

variable {c : Custody} {uses : List Use} {h : Handle}

/-! ## Callers who give back again -/

/-- What a use changes. A connection that is given back while nobody holds it leaves the callers
with what they hold. -/
def use (c : Custody) : Use → Custody
  | .step st => c.step st
  | .giveBack h => { c with session := c.session.use (.giveBack h) }

/-- The uses of a pool, one after the other. -/
def useAll (c : Custody) (uses : List Use) : Custody := uses.foldl use c

/-- Whether no step gives back what is not held, and all else that is given back is held by
nobody. -/
def Repeats (c : Custody) : List Use → Prop
  | [] => True
  | .step st :: rest =>
    (∀ i ∈ c.session.givesBack? st, i ∈ c.held.map (·.1)) ∧ (c.step st).Repeats rest
  | .giveBack h :: rest => h ∉ c.handles ∧ (c.use (.giveBack h)).Repeats rest

/-- Whether no connection is given back again while it is idle and alive. -/
def Spared (c : Custody) : List Use → Prop
  | [] => True
  | .step st :: rest => (c.step st).Spared rest
  | .giveBack h :: rest =>
    (h ∈ c.session.pool.idle → c.session.pool.isDead h = true) ∧
      (c.use (.giveBack h)).Spared rest

instance decidableRepeats : (c : Custody) → (uses : List Use) → Decidable (c.Repeats uses)
  | _, [] => isTrue trivial
  | c, .step st :: rest => @instDecidableAnd _ _ _ (decidableRepeats (c.step st) rest)
  | c, .giveBack h :: rest =>
    @instDecidableAnd _ _ _ (decidableRepeats (c.use (.giveBack h)) rest)

instance decidableSpared : (c : Custody) → (uses : List Use) → Decidable (c.Spared uses)
  | _, [] => isTrue trivial
  | c, .step st :: rest => decidableSpared (c.step st) rest
  | c, .giveBack h :: rest =>
    @instDecidableAnd _ _ _ (decidableSpared (c.use (.giveBack h)) rest)

theorem useAll_session (c : Custody) (uses : List Use) :
    (c.useAll uses).session = c.session.useAll uses := by
  induction uses generalizing c with
  | nil => rfl
  | cons u uses ih => cases u <;> exact ih _

/-- What is held is in its slot, and nothing that is idle or held is in two places. -/
structure Disjoint (c : Custody) : Prop where
  placed : c.Placed
  apart : c.session.pool.Apart (c.session.pool.idle ++ c.handles)

/-- A step of honest callers puts no connection into two places. -/
theorem Disjoint.step {st : Step} (hc : c.Disjoint)
    (hHonest : ∀ i ∈ c.session.givesBack? st, i ∈ c.held.map (·.1)) : (c.step st).Disjoint := by
  obtain ⟨hPlaced, hFaithful, hHeld⟩ := hc.placed.step_holds hHonest
  have hPool : (c.step st).session.pool =
      c.session.pool.applyAll (c.session.useOps (.step st)) := use_pool c.session (.step st)
  refine ⟨hPlaced, ?_⟩
  rw [hPool]
  exact (hc.apart.applyAll hFaithful).perm (hHeld.append_left _)

theorem placed_giveBack (hc : c.Placed) (h : Handle) : (c.use (.giveBack h)).Placed := by
  have hSlots : (c.use (.giveBack h)).session.slots = c.session.slots := by
    change (c.session.use (.giveBack h)).slots = _
    rw [Session.use]
    split <;> rfl
  refine ⟨?_, ?_, hc.nodup⟩
  · rw [hSlots]
    exact hc.lt
  · unfold Session.slot?
    rw [hSlots]
    exact hc.slot

/-- A connection that nobody holds may be given back unless it is idle and alive. -/
theorem Disjoint.giveBack (hc : c.Disjoint) (hFree : h ∉ c.handles)
    (hSpared : h ∈ c.session.pool.idle → c.session.pool.isDead h = true) :
    (c.use (.giveBack h)).Disjoint := by
  refine ⟨placed_giveBack hc.placed h, ?_⟩
  change (c.session.use (.giveBack h)).pool.Apart ((c.session.use (.giveBack h)).pool.idle ++ _)
  rw [Session.use]
  split
  · exact hc.apart.releaseAgain ‹_› hFree hSpared
  · exact hc.apart

/-- No connection is in two places after any uses, if none is given back again while it is idle and
alive. -/
theorem Disjoint.useAll (hc : c.Disjoint) (hRepeats : c.Repeats uses) (hSpared : c.Spared uses) :
    (c.useAll uses).Disjoint := by
  induction uses generalizing c with
  | nil => exact hc
  | cons u uses ih =>
    cases u with
    | step st => exact ih (hc.step hRepeats.1) hRepeats.2 hSpared
    | giveBack h => exact ih (hc.giveBack hRepeats.1 hSpared.1) hRepeats.2 hSpared.2

theorem disjoint_start (endpoint : Endpoint) (config : PoolConfig)
    (factory : List FactoryOutcome) : (start endpoint config factory).Disjoint where
  placed := ⟨nofun, nofun, List.nodup_nil⟩
  apart := ⟨List.nodup_nil, nofun⟩

/-! ## Callers who take all that is idle -/

/-- A blocking call takes the first idle connection that is alive. -/
theorem step_acquire {rest : List Handle} (hOpen : c.session.pool.disposed = false)
    (hHeld : c.session.isHeld = true) (hLive : c.session.pool.liveIdle = h :: rest) :
    let after := c.step (.acquire false)
    after.handles = c.handles ++ [h] ∧ after.session.pool.liveIdle = rest ∧
      after.session.pool.disposed = false ∧ after.session.isHeld = true := by
  obtain ⟨q, hAcquire, hStill, hRest⟩ := acquire_of_liveIdle hOpen hLive
  let served : Session :=
    { c.session with
      pool := q
      slots := c.session.slots ++ [some { handle := h, guarded := false }] }
  have hServed : (c.session.acquire false).1 = served := by
    rw [Session.acquire, hAcquire]
    rfl
  -- a slot more keeps the pool alive if anything did
  have hKeeps : served.isHeld = true := by
    have hMore : c.session.slots.any (fun slot => slot.any (·.guarded)) = true →
        served.slots.any (fun slot => slot.any (·.guarded)) = true := by
      intro hGuard
      rw [List.any_append, hGuard]
      rfl
    simp only [isHeld, Bool.or_eq_true] at hHeld ⊢
    exact hHeld.imp_right hMore
  have hStep : (c.session.step (.acquire false)).1 = served := by
    change (c.session.acquire false).1.settle = served
    rw [hServed]
    exact settle_of_isHeld hKeeps
  have hAfter : (c.step (.acquire false)).session = served := hStep
  have hGiven : (c.step (.acquire false)).held =
      c.held ++ numberedFrom c.session.slots.length [h] := by
    have hSlots : (c.session.step (.acquire false)).1.slots =
        c.session.slots ++ slotsOf false [h] := by
      rw [hStep]
      rfl
    exact step_held (Emptied.refl _) hSlots
  intro after
  refine ⟨?_, ?_, ?_, ?_⟩
  · rw [Custody.handles, hGiven, List.map_append, numberedFrom_map_snd]
    rfl
  · exact (congrArg (fun s => s.pool.liveIdle) hAfter).trans hRest
  · exact (congrArg (fun s => s.pool.disposed) hAfter).trans hStill
  · exact (congrArg Session.isHeld hAfter).trans hKeeps

/-- As many calls as there are idle connections that are alive. -/
def takeAll (p : Pool) : List Use := List.replicate p.liveIdle.length (.step (.acquire false))

theorem repeats_takeAll (c : Custody) (n : Nat) :
    c.Repeats (List.replicate n (.step (.acquire false))) := by
  induction n generalizing c with
  | zero => exact trivial
  | succ n ih => exact ⟨nofun, ih _⟩

theorem spared_takeAll (c : Custody) (n : Nat) :
    c.Spared (List.replicate n (.step (.acquire false))) := by
  induction n generalizing c with
  | zero => exact trivial
  | succ n ih => exact ih _

/-- So many calls are given every entry of the idle connections that is alive. -/
theorem handles_takeAll (hOpen : c.session.pool.disposed = false)
    (hHeld : c.session.isHeld = true) :
    (c.useAll (takeAll c.session.pool)).handles = c.handles ++ c.session.pool.liveIdle := by
  unfold takeAll
  generalize hLive : c.session.pool.liveIdle = live
  induction live generalizing c with
  | nil => exact (List.append_nil _).symm
  | cons h rest ih =>
    obtain ⟨hTaken, hRest, hStill, hKeeps⟩ := step_acquire hOpen hHeld hLive
    refine (ih hStill hKeeps hRest).trans ?_
    rw [hTaken, List.append_assoc]
    rfl

/-! ## Giving back again -/

/-- A connection is given back again as it was the first time. -/
theorem giveBack_pool (hMade : h < c.session.pool.connections.length) :
    (c.use (.giveBack h)).session.pool = c.session.pool.release h := by
  change (c.session.use (.giveBack h)).pool = _
  rw [Session.use, if_pos hMade]

/-- A connection that was idle and alive when it was given back again is there twice, and two calls
are given it. -/
theorem handed_out_twice (hMade : h < c.session.pool.connections.length)
    (hOpen : c.session.pool.disposed = false) (hHeld : c.session.isHeld = true)
    (hIdle : h ∈ c.session.pool.idle) (hAlive : c.session.pool.isDead h = false) :
    let d := c.use (.giveBack h)
    ¬ (d.useAll (takeAll d.session.pool)).handles.Nodup := by
  intro d hNodup
  have hPool : d.session.pool = c.session.pool.release h := giveBack_pool hMade
  have hSession : d.session = { c.session with pool := c.session.pool.release h } := by
    change c.session.use (.giveBack h) = _
    rw [Session.use, if_pos hMade]
  have hStill : d.session.pool.disposed = false := by
    rw [hPool]
    exact (congrArg Prod.snd (release_settings c.session.pool h)).trans hOpen
  have hKeeps : d.session.isHeld = true := by
    rw [hSession]
    exact hHeld
  have hTwice : d.session.pool.liveIdle = c.session.pool.liveIdle ++ [h] := by
    rw [hPool, liveIdle, (release_connections c.session.pool h).2, release_idle_eq, hAlive, hOpen]
    change (c.session.pool.idle ++ [h]).filter _ = _
    rw [List.filter_append, List.filter_cons_of_pos (by rw [hAlive]; rfl)]
    rfl
  have hListed : h ∈ c.session.pool.liveIdle := by
    refine List.mem_filter.2 ⟨hIdle, ?_⟩
    rw [hAlive]
    rfl
  rw [handles_takeAll hStill hKeeps, hTwice] at hNodup
  have hDistinct := (List.nodup_append.1 (List.nodup_append.1 hNodup).2.1).2.2
  exact hDistinct h hListed h List.mem_cons_self rfl

/-- An idle connection that is alive is in a pool that somebody holds and nobody disposed of. -/
theorem open_of_idle (endpoint : Endpoint) (config : PoolConfig) (factory : List FactoryOutcome)
    (uses : List Use)
    (hIdle : h ∈ ((start endpoint config factory).useAll uses).session.pool.idle) :
    let s := ((start endpoint config factory).useAll uses).session
    s.pool.disposed = false ∧ s.isHeld = true := by
  intro s
  have hRun : s = ({ pool := fresh endpoint config factory } : Session).useAll uses :=
    useAll_session (start endpoint config factory) uses
  have hOrderly : s.pool.Orderly :=
    hRun ▸ ((attended_fresh endpoint config factory).useAll uses).orderly
  have hSettled : s.Settled := hRun ▸ Settled.useAll (Or.inl rfl) uses
  have hOpen : s.pool.disposed = false := by
    refine Bool.eq_false_iff.2 fun hDisposed => ?_
    have hMem : h ∈ s.pool.idle := hIdle
    rw [hOrderly.idle hDisposed] at hMem
    cases hMem
  refine ⟨hOpen, hSettled.resolve_right ?_⟩
  rw [hOpen]
  exact Bool.false_ne_true

/-- Giving back again a connection adds no idle one exactly if it is dead or the pool was disposed
of. Where its entry is gone the books stay as they are. If nothing that is idle and alive was given
back again so far, then nobody is ever handed what another one holds, in whatever is done later in
the same way, exactly if the connection is not idle and alive either. -/
theorem given_back_again_iff (endpoint : Endpoint) (config : PoolConfig)
    (factory : List FactoryOutcome) (uses : List Use) (h : Handle)
    (hMade : h <
      ((start endpoint config factory).useAll uses).session.pool.connections.length) :
    let c := (start endpoint config factory).useAll uses
    let p := c.session.pool
    let d := c.use (.giveBack h)
    let q := d.session.pool
    (q.idle = p.idle ↔ p.isDead h = true ∨ p.disposed = true) ∧
      (q.idle ≠ p.idle → q.idle = p.idle ++ [h]) ∧
      (p.tracks h = false →
        q.registry = p.registry ∧ q.liveCount = p.liveCount ∧
          q.metrics.closed = p.metrics.closed ∧ q.metrics.dead = p.metrics.dead) ∧
      ((start endpoint config factory).Repeats uses →
        (start endpoint config factory).Spared uses → h ∉ c.handles →
        ((∀ more, d.Repeats more → d.Spared more → (d.useAll more).handles.Nodup) ↔
          (h ∈ p.idle → p.isDead h = true))) := by
  intro c p d q
  have hPool : q = p.release h := giveBack_pool hMade
  have hIdle : q.idle = if p.isDead h || p.disposed then p.idle else p.idle ++ [h] := by
    rw [hPool]
    exact release_idle_eq p h
  refine ⟨?_, fun hMoved => ?_, fun hUntracked => ?_, fun hRepeats hSpared hFree => ?_⟩
  · rw [hIdle, ← Bool.or_eq_true]
    by_cases hClosed : (p.isDead h || p.disposed) = true
    · rw [if_pos hClosed]
      exact iff_of_true rfl hClosed
    · rw [if_neg hClosed]
      exact iff_of_false (fun hSame => by simp at hSame) hClosed
  · by_cases hClosed : (p.isDead h || p.disposed) = true
    · rw [if_pos hClosed] at hIdle
      exact absurd hIdle hMoved
    · rw [if_neg hClosed] at hIdle
      exact hIdle
  · have hBooks : q.books = p.books := by
      rw [hPool]
      exact release_books_of_not_tracks (by rw [hUntracked]; exact Bool.false_ne_true)
    exact ⟨congrArg Books.registry hBooks, congrArg Books.liveCount hBooks,
      congrArg Books.closed hBooks, congrArg Books.dead hBooks⟩
  · refine ⟨fun hNever hMem => ?_, fun hSpare more hMore hMoreSpared => ?_⟩
    · -- two calls would be handed it
      by_contra hAlive
      obtain ⟨hOpen, hHeld⟩ := open_of_idle endpoint config factory uses hMem
      exact handed_out_twice hMade hOpen hHeld hMem (Bool.eq_false_iff.2 hAlive)
        (hNever _ (repeats_takeAll d _) (spared_takeAll d _))
    · -- nobody is, as no connection is in two places
      have hc : c.Disjoint := (disjoint_start endpoint config factory).useAll hRepeats hSpared
      have hEnd := ((hc.giveBack hFree hSpare).useAll hMore hMoreSpared).apart.nodup
      exact (List.nodup_append.1 hEnd).2.1

/-- A dead connection that was evicted may be given back again: it is not idle afterwards, and
nobody is handed what another one holds. -/
theorem given_back_after_eviction :
    let c := (start ⟨.v4 [127, 0, 0, 1], 11210⟩ { maxSize := 2 } []).useAll
      [.step (.acquire false), .step (.kill 0), .step (.release 0)]
    let d := c.use (.giveBack 0)
    d.session.pool.idle = [] ∧ d.session.pool.metrics.closed = 1 ∧
      ∀ more, d.Repeats more → d.Spared more → (d.useAll more).handles.Nodup := by
  obtain ⟨hIdle, -, hBooks, hNever⟩ :=
    given_back_again_iff ⟨.v4 [127, 0, 0, 1], 11210⟩ { maxSize := 2 } []
      [.step (.acquire false), .step (.kill 0), .step (.release 0)] 0 (by decide +kernel)
  intro c d
  refine ⟨(hIdle.2 (by decide +kernel)).trans (by decide +kernel), ?_, ?_⟩
  · exact (hBooks (by decide +kernel)).2.2.1.trans (by decide +kernel)
  · exact (hNever (by decide +kernel) (by decide +kernel) (by decide +kernel)).2 (by decide +kernel)

/-- A connection that is given back twice is idle twice, and the next two callers both hold it. -/
theorem two_hold_what_was_given_back_twice :
    let c := (start ⟨.v4 [127, 0, 0, 1], 11210⟩ { maxSize := 2 } []).useAll
      [.step (.acquire false), .step (.release 0)]
    let d := c.use (.giveBack 0)
    c.handles = [] ∧ c.session.pool.idle = [0] ∧ d.session.pool.idle = [0, 0] ∧
      (d.useAll [.step (.acquire false), .step (.acquire false)]).handles = [0, 0] := by
  decide +kernel

end Custody

end StoreClient
