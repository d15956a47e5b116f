import StoreClient.Proofs.Pool.Attempts

/-!
# Connections opened in advance

Connections are opened one after the other, while fewer are idle than there should be and there is
room, up to the first failure of the factory (`Opens`). In advance it is known how many calls of the
factory this takes at most. What the pool is afterwards is said in closed form (`opened`): the new
connections go by the next ids, are idle in their order behind the others, and are counted.
-/

namespace StoreClient.Pool

variable {p q r : Pool} {c : Connection} {cs : List Connection}

/-! ## New connections in closed form -/

/-- The connections that calls of the factory make, the first of them at once. -/
def made (p : Pool) (successes : List (Bool × Option ConnectionId)) : List Connection :=
  successes.mapIdx fun i o =>
    { id := o.2.getD ⟨p.nextId + i⟩, context := p.context ⟨p.nextId + i⟩, dead := o.1 }

/-- The entries of new connections. -/
def entries (p : Pool) (cs : List Connection) : List (ConnectionId × Handle) :=
  cs.mapIdx fun i c => (c.id, p.connections.length + i)

/-- Puts an entry in the place of the one with the same id, if there is one. -/
def enter (registry : List (ConnectionId × Handle)) (entry : ConnectionId × Handle) :
    List (ConnectionId × Handle) :=
  (registry.filter fun r => r.1 != entry.1) ++ [entry]

/-- What is logged about new connections. -/
def birthNotes (p : Pool) (cs : List Connection) : List Log.Entry :=
  cs.mapIdx fun i c =>
    { level := .info
      message := "connection created"
      values := [("connection_id", c.id.text), ("count", toString (p.liveCount + (i + 1)))] }

/-- The pool after as many calls of the factory have made these connections: they are idle. -/
def opened (p : Pool) (cs : List Connection) : Pool :=
  { p with
    nextId := p.nextId + cs.length
    factory := p.factory.drop cs.length
    connections := p.connections ++ cs
    idle := p.idle ++ List.range' p.connections.length cs.length
    registry := (p.entries cs).foldl enter p.registry
    liveCount := p.liveCount + cs.length
    metrics := { p.metrics with created := p.metrics.created + cs.length }
    log := p.log ++ p.birthNotes cs }

/-- The pool after another call of the factory has failed. -/
def notOpened (p : Pool) (e : PoolError) : Pool :=
  { p with
    nextId := p.nextId + 1
    factory := p.factory.tail
    openingFailed := true
    log := p.log ++
      [{ level := .warn
         message := "failed to create connection"
         values := [("error", e.message)] },
        { level := .info
          message := "pool initialization failed"
          values := [("error", e.message)] }] }

theorem opened_nil (p : Pool) : p.opened [] = p := by
  simp [opened, entries, birthNotes]

/-- Connections may be opened one after the other. -/
theorem opened_cons (p : Pool) (c : Connection) (cs : List Connection) :
    (p.opened [c]).opened cs = p.opened (c :: cs) := by
  have hEntries : p.entries (c :: cs) = p.entries [c] ++ (p.opened [c]).entries cs := by
    unfold entries opened
    simp [Nat.add_assoc, Nat.add_comm 1]
  have hNotes : p.birthNotes (c :: cs) = p.birthNotes [c] ++ (p.opened [c]).birthNotes cs := by
    unfold birthNotes opened
    simp [Nat.add_assoc, Nat.add_comm 1]
  unfold opened at hEntries hNotes ⊢
  simp [hEntries, hNotes, List.range'_succ, Nat.add_assoc, Nat.add_comm 1]

/-! ## One call of the factory -/

theorem register_eq (p : Pool) (c : Connection) :
    p.register c = ({ p.opened [c] with
      nextId := p.nextId, factory := p.factory, idle := p.idle }, p.connections.length) := by
  have hId : ((p.connections ++ [c])[p.connections.length]?.map (·.id)).getD default = c.id := by
    rw [List.getElem?_concat_length]
    rfl
  unfold register
  dsimp only [note, idValue, idOf, connection?]
  rw [hId]
  rfl

/-- A call of the factory that succeeds makes the next connection, which is idle then. -/
theorem create_of_success {dead : Bool} {given : Option ConnectionId}
    (hOutcome : p.factory.getD 0 .connection = .connection dead given) :
    ∃ q h, p.create = (q, .ok h) ∧
      { q with idle := q.idle ++ [h] } = p.opened (p.made [(dead, given)]) := by
  have hHead : p.factory.headD .connection = .connection dead given := by
    rw [← hOutcome]
    cases p.factory <;> rfl
  have hMade : p.made [(dead, given)] =
      [{ id := given.getD ⟨p.nextId⟩, context := p.context ⟨p.nextId⟩, dead }] := rfl
  unfold create
  rw [hHead, hMade]
  simp only [register_eq]
  refine ⟨_, _, rfl, ?_⟩
  rw [← List.drop_one]
  rfl

/-- A call of the factory that fails is the last one. -/
theorem create_of_failure {e : PoolError} (hOutcome : p.factory.getD 0 .connection = .failure e) :
    ∃ q, p.create = (q, .error e) ∧
      { q.note .info "pool initialization failed" [("error", e.message)] with
        openingFailed := true } = p.notOpened e := by
  have hHead : p.factory.headD .connection = .failure e := by
    rw [← hOutcome]
    cases p.factory <;> rfl
  unfold create
  rw [hHead]
  refine ⟨_, rfl, ?_⟩
  simp [note, notOpened]

/-! ## The loop -/

/-- Whether another connection is to be opened. -/
def WantsMore (p : Pool) : Prop :=
  p.disposed = false ∧ p.idle.length < p.config.minSize ∧ p.liveCount < p.config.maxSize

/-- The loop that opens connections as long as another one is to be opened, from one pool to
another. -/
inductive Opens : Pool → Pool → Prop
  | enough {p : Pool} (hEnough : ¬ p.WantsMore) : Opens p p
  | one {p q r : Pool} {h : Handle} (hWants : p.WantsMore) (hCreate : p.create = (q, .ok h))
      (hRest : Opens { q with idle := q.idle ++ [h] } r) : Opens p r
  | failed {p q : Pool} {e : PoolError} (hWants : p.WantsMore)
      (hCreate : p.create = (q, .error e)) :
      Opens p
        { q.note .info "pool initialization failed" [("error", e.message)] with
          openingFailed := true }

/-- The loop comes to one end only. -/
theorem Opens.unique (hq : p.Opens q) (hr : p.Opens r) : q = r := by
  induction hq with
  | enough hEnough =>
    cases hr with
    | enough => rfl
    | one hWants => exact absurd hWants hEnough
    | failed hWants => exact absurd hWants hEnough
  | one hWants hCreate _ ih =>
    cases hr with
    | enough hEnough => exact absurd hWants hEnough
    | one _ hCreate' hRest =>
      cases hCreate.symm.trans hCreate'
      exact ih hRest
    | failed _ hCreate' => cases hCreate.symm.trans hCreate'
  | failed hWants hCreate =>
    cases hr with
    | enough hEnough => exact absurd hWants hEnough
    | one _ hCreate' => cases hCreate.symm.trans hCreate'
    | failed _ hCreate' =>
      cases hCreate.symm.trans hCreate'
      rfl

/-- How many connections are missing, as far as there is room. -/
def missing (p : Pool) : Nat :=
  min (p.config.minSize - p.idle.length) (p.config.maxSize - p.liveCount)

/-- Another connection is to be opened as long as one is missing and there is room. -/
theorem wantsMore_iff (hOpen : p.disposed = false) : p.WantsMore ↔ 0 < p.missing := by
  unfold WantsMore missing
  constructor
  · rintro ⟨-, hIdle, hRoom⟩
    omega
  · intro hMissing
    exact ⟨hOpen, by omega, by omega⟩

/-- Each connection that the loop opens is one less that is missing. -/
theorem opens_openIdle {count : Nat} (hOpen : p.disposed = false) (hCount : p.missing = count) :
    p.Opens (p.openIdle count) := by
  induction count generalizing p with
  | zero =>
    refine .enough fun hWants => ?_
    have hMissing := (wantsMore_iff hOpen).1 hWants
    omega
  | succ count ih =>
    have hWants : p.WantsMore := (wantsMore_iff hOpen).2 (by omega)
    unfold openIdle
    rcases hCreate : p.create with ⟨q, e | h⟩
    · exact .failed hWants hCreate
    · rcases create_cases p with ⟨e, log, -, hEq⟩ | ⟨c, metrics, log, -, -, hEq⟩
      · cases hEq.symm.trans hCreate
      · cases hEq.symm.trans hCreate
        refine .one hWants hCreate (ih hOpen ?_)
        unfold missing at hCount ⊢
        simp only [List.length_append, List.length_singleton]
        omega

/-- The loop ends with the pool in which the connections were opened. -/
theorem opens_openMinimum (p : Pool) : p.Opens p.openMinimum := by
  unfold openMinimum
  by_cases hDisposed : p.disposed = true
  · rw [if_pos hDisposed]
    refine .enough fun hWants => ?_
    cases hDisposed.symm.trans hWants.1
  · rw [if_neg hDisposed]
    exact opens_openIdle (Bool.eq_false_iff.2 hDisposed) rfl

/-- The loop comes to an end, in one way. -/
theorem opens_iff : p.Opens r ↔ r = p.openMinimum := by
  constructor
  · exact fun hOpens => hOpens.unique (opens_openMinimum p)
  · rintro rfl
    exact opens_openMinimum p

/-! ## All calls of the factory -/

/-- Whether the next calls of the factory succeed, with these outcomes. -/
def Gives (p : Pool) (successes : List (Bool × Option ConnectionId)) : Prop :=
  ∀ i o, successes[i]? = some o → p.factory.getD i .connection = .connection o.1 o.2

/-- Whether a pool is what the calls of the factory make of another one: as many as are wanted, or
fewer of which the last one failed. -/
def EndsOpening (p : Pool) (wanted : Nat) (successes : List (Bool × Option ConnectionId))
    (r : Pool) : Prop :=
  (successes.length = wanted ∧ r = p.opened (p.made successes)) ∨
    (successes.length < wanted ∧ ∃ e, p.factory.getD successes.length .connection = .failure e ∧
      r = (p.opened (p.made successes)).notOpened e)

/-- One connection before others. -/
theorem opened_made_cons (p : Pool) (o : Bool × Option ConnectionId)
    (successes : List (Bool × Option ConnectionId)) :
    p.opened (p.made (o :: successes)) =
      (p.opened (p.made [o])).opened ((p.opened (p.made [o])).made successes) := by
  obtain ⟨c, hFirst⟩ : ∃ c, p.made [o] = [c] := ⟨_, rfl⟩
  have hMade : p.made (o :: successes) = p.made [o] ++ (p.opened (p.made [o])).made successes := by
    unfold made opened context
    simp [Nat.add_assoc, Nat.add_comm 1]
  rw [hMade, hFirst, opened_cons]
  rfl

theorem getD_opened_factory (p : Pool) (o : Bool × Option ConnectionId) (i : Nat) :
    (p.opened (p.made [o])).factory.getD i .connection = p.factory.getD (i + 1) .connection := by
  show (p.factory.drop 1).getD i .connection = _
  rw [List.getD_eq_getElem?_getD, List.getD_eq_getElem?_getD, List.getElem?_drop, Nat.add_comm]

/-- The connections that were opened are those of the calls of the factory, up to the first one that
failed. -/
theorem openIdle_eq (p : Pool) (count : Nat) :
    ∃ successes, p.Gives successes ∧ p.EndsOpening count successes (p.openIdle count) := by
  induction count generalizing p with
  | zero => exact ⟨[], nofun, Or.inl ⟨rfl, (opened_nil p).symm⟩⟩
  | succ count ih =>
    unfold openIdle
    cases hOutcome : p.factory.getD 0 .connection with
    | failure e =>
      obtain ⟨q, hCreate, hEnd⟩ := create_of_failure hOutcome
      rw [hCreate]
      refine ⟨[], nofun, Or.inr ⟨Nat.succ_pos count, e, hOutcome, ?_⟩⟩
      have hNone : p.opened (p.made []) = p := opened_nil p
      rw [hNone]
      exact hEnd
    | connection dead given =>
      obtain ⟨q, h, hCreate, hEnd⟩ := create_of_success hOutcome
      rw [hCreate]
      dsimp only
      rw [hEnd]
      obtain ⟨successes, hGives, hRest⟩ := ih (p.opened (p.made [(dead, given)]))
      refine ⟨(dead, given) :: successes, ?_, ?_⟩
      · intro i o hAt
        cases i with
        | zero =>
          cases hAt
          exact hOutcome
        | succ i =>
          rw [← getD_opened_factory p (dead, given)]
          exact hGives i o hAt
      · unfold EndsOpening at hRest ⊢
        rw [opened_made_cons p (dead, given) successes, List.length_cons,
          ← getD_opened_factory p (dead, given), Nat.add_right_cancel_iff, Nat.add_lt_add_iff_right]
        exact hRest

/-! ## Reachable pools -/

theorem Balanced.applyAll_fresh (endpoint : Endpoint) (config : PoolConfig)
    {factory : List FactoryOutcome} (hIds : KeepsIds 1 factory) (ops : List Op) :
    ((fresh endpoint config factory).applyAll ops).Balanced :=
  ((balanced_fresh endpoint config hIds).applyAll ops).balanced

/-- Entries of new ids come after the others. -/
theorem foldl_enter {registry new : List (ConnectionId × Handle)}
    (hNew : ∀ r ∈ registry, ∀ s ∈ new, r.1 ≠ s.1) (hNodup : (new.map (·.1)).Nodup) :
    new.foldl enter registry = registry ++ new := by
  induction new generalizing registry with
  | nil => simp
  | cons s new ih =>
    obtain ⟨hFirst, hRest⟩ := List.nodup_cons.1 hNodup
    have hKept : enter registry s = registry ++ [s] := by
      unfold enter
      rw [List.filter_eq_self.2 fun r hr => bne_iff_ne.2 (hNew r hr s List.mem_cons_self)]
    rw [List.foldl_cons, hKept, ih ?_ hRest, List.append_assoc, List.singleton_append]
    intro r hr t ht
    rcases List.mem_append.1 hr with hr | hr
    · exact hNew r hr t (List.mem_cons_of_mem s ht)
    · cases List.mem_singleton.1 hr
      intro hSame
      exact hFirst (List.mem_map.2 ⟨t, ht, hSame.symm⟩)

/-- New connections have the ids that come next, one after the other. -/
theorem made_ids {successes : List (Bool × Option ConnectionId)}
    (hIds : KeepsIds p.nextId p.factory) (hGives : p.Gives successes) :
    (p.made successes).map (·.id) =
      (List.range' p.nextId successes.length).map ConnectionId.mk := by
  refine List.ext_getElem? fun i => ?_
  unfold made
  rw [List.getElem?_map, List.getElem?_mapIdx, List.getElem?_map, Option.map_map]
  by_cases hIn : i < successes.length
  · have hAt : successes[i]? = some successes[i] := List.getElem?_eq_getElem hIn
    have hOutcome := hGives i _ hAt
    rw [hAt, List.getElem?_range' hIn, Nat.one_mul]
    generalize successes[i] = o at hOutcome
    obtain ⟨dead, given⟩ := o
    cases given with
    | none => rfl
    | some k =>
      have hNumber : k.number = p.nextId + i := by
        refine hIds i dead k ?_
        rw [List.getD_eq_getElem?_getD] at hOutcome
        cases hFactory : p.factory[i]? with
        | none =>
          rw [hFactory] at hOutcome
          cases hOutcome
        | some outcome =>
          rw [hFactory] at hOutcome
          exact congrArg some hOutcome
      exact congrArg some (congrArg ConnectionId.mk hNumber)
  · rw [List.getElem?_eq_none (Nat.le_of_not_lt hIn), List.getElem?_eq_none (by simp; omega)]
    rfl

theorem entries_ids (p : Pool) (cs : List Connection) :
    (p.entries cs).map (·.1) = cs.map (·.id) := by
  refine List.ext_getElem? fun i => ?_
  unfold entries
  rw [List.getElem?_map, List.getElem?_mapIdx, List.getElem?_map, Option.map_map]
  rfl

/-- No entry is lost where connections go by the ids that the pool gives out. -/
theorem Tracked.registry_opened {live : List Handle}
    {successes : List (Bool × Option ConnectionId)} (hp : p.Tracked live)
    (hGives : p.Gives successes) :
    (p.opened (p.made successes)).registry = p.registry ++ p.entries (p.made successes) := by
  have hNext := (entries_ids p (p.made successes)).trans (made_ids hp.keepsIds hGives)
  refine foldl_enter (fun r hr s hs hSame => ?_) ?_
  · obtain ⟨g, hg, rfl⟩ := List.mem_map.1 (hp.registry.mem_iff.1 hr)
    have hOld : s.1.number < p.nextId := hSame ▸ hp.ids_lt _ (hp.idOf_mem hg)
    have hNew : s.1 ∈ (List.range' p.nextId successes.length).map ConnectionId.mk := by
      rw [← hNext]
      exact List.mem_map_of_mem hs
    obtain ⟨k, hk, hId⟩ := List.mem_map.1 hNew
    have hBound := (List.mem_range'_1.1 hk).1
    rw [← hId] at hOld
    exact Nat.not_lt.2 hBound hOld
  · rw [hNext]
    exact List.Nodup.map (fun m n hSame => congrArg ConnectionId.number hSame) List.nodup_range'

/-- Nothing is opened if nothing is missing. -/
theorem openMinimum_of_none_missing (hNone : p.missing = 0) : p.openMinimum = p := by
  unfold openMinimum
  by_cases hDisposed : p.disposed = true
  · rw [if_pos hDisposed]
  · rw [if_neg hDisposed]
    show p.openIdle p.missing = p
    rw [hNone, openIdle]

/-- When the missing connections were opened, none is missing. -/
theorem missing_opened (hLength : cs.length = p.missing) : (p.opened cs).missing = 0 := by
  unfold missing opened at *
  simp only [List.length_append, List.length_range']
  omega

/-- In a pool that was not disposed of, opening connections in advance calls the factory up to its
first failure, and no more often than connections are missing and there is room. The loop ends in
one way: the new connections, whose ids are the next ones, are idle in their order behind the others
and are counted, a failure is noted, and nothing else changes. If no call failed, opening again
changes nothing. -/
theorem opens_up_to_first_failure (endpoint : Endpoint) (config : PoolConfig)
    (factory : List FactoryOutcome) (ops : List Op)
    (hOpen : ((fresh endpoint config factory).applyAll ops).disposed = false) :
    let p := (fresh endpoint config factory).applyAll ops
    let wanted := min (config.minSize - p.idle.length) (config.maxSize - p.liveCount)
    (∀ r, p.Opens r ↔ r = p.openMinimum) ∧
      ∃ successes, p.Gives successes ∧ p.EndsOpening wanted successes p.openMinimum ∧
        (successes.length = wanted → p.openMinimum.openMinimum = p.openMinimum) ∧
        (KeepsIds 1 factory →
          (∀ c ∈ p.connections, c.id.number < p.nextId) ∧
            (p.made successes).map (·.id) =
              (List.range' p.nextId successes.length).map ConnectionId.mk ∧
            (p.opened (p.made successes)).registry =
              p.registry ++ p.entries (p.made successes) ∧
            p.openMinimum.liveCount ≤ config.maxSize) := by
  intro p wanted
  have hConfig : p.config = config := (applyAll_built (fresh endpoint config factory) ops).2
  have hWanted : p.missing = wanted := by
    unfold missing
    rw [hConfig]
  have hMinimum : p.openMinimum = p.openIdle wanted := by
    have hNot : ¬ p.disposed = true := Bool.eq_false_iff.1 hOpen
    rw [← hWanted]
    exact if_neg hNot
  obtain ⟨successes, hGives, hEnd⟩ := openIdle_eq p wanted
  rw [← hMinimum] at hEnd
  refine ⟨fun r => opens_iff, successes, hGives, hEnd, fun hAll => ?_, fun hIds => ?_⟩
  · -- nothing is missing after that
    rcases hEnd with ⟨-, hEnd⟩ | ⟨hFewer, -⟩
    · have hLength : (p.made successes).length = p.missing := by
        unfold made
        rw [List.length_mapIdx, hAll, hWanted]
      rw [hEnd]
      exact openMinimum_of_none_missing (missing_opened hLength)
    · exact absurd hAll (Nat.ne_of_lt hFewer)
  · -- the books
    have hBalanced : p.Balanced := Balanced.applyAll_fresh endpoint config hIds ops
    obtain ⟨live, hLive⟩ := hBalanced.tracked
    have hAfter := hBalanced.openMinimum
    refine ⟨fun c hc => hLive.ids_lt c.id (List.mem_map_of_mem hc),
      made_ids hLive.keepsIds hGives, hLive.registry_opened hGives, ?_⟩
    rw [← hConfig, ← hAfter.config]
    exact hAfter.balanced.room

/-- One connection is in use, two are missing and there is room for both; the factory gives one and
then fails. -/
theorem one_opened_and_one_failed :
    let factory : List FactoryOutcome := [.connection, .connection, .failure .closed]
    let p := (fresh ⟨.v4 [127, 0, 0, 1], 11210⟩ { minSize := 2, maxSize := 3 } factory).applyAll
      [.attempt]
    p.disposed = false ∧ p.idle = [] ∧ p.liveCount = 1 ∧ p.openingFailed = false ∧
      p.openMinimum.idle = [1] ∧ p.openMinimum.liveCount = 2 ∧ p.openMinimum.nextId = 4 ∧
      p.openMinimum.openingFailed = true ∧
      ∃ successes, p.EndsOpening 2 successes p.openMinimum ∧
        (p.made successes).map (·.id) =
          (List.range' p.nextId successes.length).map ConnectionId.mk := by
  intro factory p
  have hIds : KeepsIds 1 factory := by
    intro i dead id hAt
    rcases i with _ | _ | _ | i <;> cases hAt
  obtain ⟨-, successes, -, hEnd, -, hKeeps⟩ := opens_up_to_first_failure
    ⟨.v4 [127, 0, 0, 1], 11210⟩ { minSize := 2, maxSize := 3 } factory [.attempt] rfl
  exact ⟨rfl, rfl, rfl, rfl, by decide +kernel, by decide +kernel, by decide +kernel,
    by decide +kernel, successes, hEnd, (hKeeps hIds).2.1⟩

end StoreClient.Pool
