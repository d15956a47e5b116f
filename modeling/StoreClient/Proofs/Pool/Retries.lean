import StoreClient.Proofs.Pool.Failures

/-!
# Whose waits are counted

A caller who is refused because of too many waits is told how many waits were counted. The count is
one for all callers, and it starts anew whenever any of them is given a connection or refused one.
So it may contain waits of others, and it may lack waits of the caller itself; what the caller is
told is the number of its own waits exactly if these make up for each other.
-/

namespace StoreClient.Session

open Pool

variable {s : Session} {caller : Call}

/-- The entries since the count of failures started anew last. -/
def counted (entries : List Entry) : List Entry := entries.rtakeWhile fun x => !x.event.resets

/-- The entries before. -/
def forgotten (entries : List Entry) : List Entry := entries.rdropWhile fun x => !x.event.resets

/-- How many waits of a caller ended without a connection. -/
def ownWaits (caller : Call) (entries : List Entry) : Nat :=
  entries.count { call := caller, event := .timedOut }

theorem counted_event (entries : List Entry) :
    (counted entries).map (·.event) = sinceReset (entries.map (·.event)) := by
  simp only [counted, sinceReset, List.rtakeWhile, ← List.map_reverse, List.takeWhile_map]
  rfl

theorem ownWaits_eq (caller : Call) (entries : List Entry) :
    ownWaits caller entries =
      ownWaits caller (forgotten entries) + ownWaits caller (counted entries) := by
  have hSplit : forgotten entries ++ counted entries = entries :=
    List.rdropWhile_append_rtakeWhile
  rw [ownWaits, ownWaits, ownWaits, ← List.count_append, hSplit]

/-- Of waits only, those that are not a caller's own are another caller's. -/
theorem ownWaits_add_others {entries : List Entry} (hWaits : ∀ x ∈ entries, x.event = .timedOut) :
    ownWaits caller entries + entries.countP (·.call != caller) = entries.length := by
  have hOwn : ownWaits caller entries = entries.countP (·.call == caller) := by
    refine List.countP_congr fun x hx => ?_
    obtain ⟨call, event⟩ := x
    have hEvent : event = .timedOut := hWaits _ hx
    simp [hEvent]
  have hOthers : entries.countP (·.call != caller) =
      entries.countP fun x => decide ¬ (x.call == caller) = true := by
    refine List.countP_congr fun x _ => ?_
    simp
  rw [hOwn, hOthers]
  exact (List.length_eq_countP_add_countP _).symm

theorem only_waits {entries : List Entry} {n : Nat}
    (hAll : entries.map (·.event) = List.replicate n .timedOut) :
    entries.length = n ∧ ∀ x ∈ entries, x.event = .timedOut := by
  refine ⟨?_, fun x hx => ?_⟩
  · have hLength := congrArg List.length hAll
    rw [List.length_map, List.length_replicate] at hLength
    exact hLength
  · have hEvent : x.event ∈ entries.map (·.event) := List.mem_map_of_mem hx
    rw [hAll] at hEvent
    exact List.eq_of_mem_replicate hEvent

/-- What a last step adds to the journal is about the call that makes progress in it. -/
theorem journal_step {uses : List Use} {st : Step} {before : List Event} {x : Event}
    (hEvents : (s.useAll uses).pool.events ((s.useAll uses).useOps (.step st)) = before ++ [x]) :
    s.journal 0 (uses ++ [.step st]) =
      s.journal 0 uses ++
          before.map (Entry.mk ((s.useAll uses).callOf uses.length (.step st))) ++
        [{ call := (s.useAll uses).callOf uses.length (.step st), event := x }] := by
  rw [journal_append, journal, journal, List.append_nil, entries, hEvents, Nat.zero_add,
    List.map_append, ← List.append_assoc]
  rfl

/-- A caller who is refused by the pool because of too many waits, and not by the factory, is told
how many waits were counted since the count started anew, and that is the bound. Whosever they are:
the caller itself has waited as often exactly if as many of the counted waits are others' as of its
own were forgotten when the count started anew. -/
theorem own_waits_eq_attempts_iff (endpoint : Endpoint) (config : PoolConfig)
    (factory : List FactoryOutcome) (uses : List Use) (st : Step) (address : Endpoint) (n : Nat)
    (hValid : config.Valid)
    (hError : ((useAll { pool := fresh endpoint config factory } uses).step st).2.error? =
      some (.unavailable address n))
    (hRefused : ((useAll { pool := fresh endpoint config factory } uses).pool.events
      ((useAll { pool := fresh endpoint config factory } uses).useOps (.step st))).getLast? =
        some (.refused (.unavailable address n))) :
    let start : Session := { pool := fresh endpoint config factory }
    let caller := (start.useAll uses).callOf uses.length (.step st)
    let told := start.journal 0 (uses ++ [.step st])
    let earlier := told.dropLast
    told.getLast? = some { call := caller, event := .refused (.unavailable address n) } ∧
      n = config.maxAcquireRetryCount ∧ (counted earlier).length = n ∧
      (∀ x ∈ counted earlier, x.event = .timedOut) ∧
      (ownWaits caller earlier = n ↔
        (counted earlier).countP (·.call != caller) = ownWaits caller (forgotten earlier)) := by
  intro start caller told earlier
  have hs : (start.useAll uses).Enrolled := (enrolled_fresh endpoint config factory).useAll uses
  have hTallied : Tallied endpoint config 0 (start.useAll uses).pool
      ((start.journal 0 uses).map (·.event)) :=
    tallied_useAll (attended_fresh endpoint config factory) hValid
      (tallied_fresh endpoint config factory hValid) 0 uses
  obtain ⟨before, ⟨hEvents, -⟩ | ⟨hEvents, -, hBound, hCounted⟩⟩ :=
    unavailable_of_step hs hValid hTallied hError
  · have hLast := hRefused
    rw [hEvents, List.getLast?_concat] at hLast
    cases hLast
  · have hTold : told = start.journal 0 uses ++ before.map (Entry.mk caller) ++
        [{ call := caller, event := .refused (.unavailable address n) }] :=
      journal_step hEvents
    have hEarlier : earlier = start.journal 0 uses ++ before.map (Entry.mk caller) := by
      change told.dropLast = _
      rw [hTold, List.dropLast_concat]
    have hAll : (counted earlier).map (·.event) = List.replicate n .timedOut := by
      rw [counted_event, ← hCounted, hEarlier, List.map_append, List.map_map]
      exact congrArg (fun l => sinceReset (_ ++ l)) (List.map_id _)
    obtain ⟨hLength, hWaits⟩ := only_waits hAll
    refine ⟨?_, hBound, hLength, hWaits, ?_⟩
    · rw [hTold, List.getLast?_concat]
    · -- the waits that were forgotten and those that were counted are all of the caller's own
      have hOthers : ownWaits caller (counted earlier) + _ = _ := ownWaits_add_others hWaits
      have hOwn := ownWaits_eq caller earlier
      omega

/-- The first wait of a call is forgotten when another caller is given the connection, and another
call's wait is counted in its place. -/
theorem attempts_of_forgotten_wait :
    ownWaits (.task 0)
      (journal
        { pool := fresh ⟨.v4 [127, 0, 0, 1], 11210⟩ { maxSize := 1, maxAcquireRetryCount := 2 } [] }
        0
        ([.step (.acquire false), .step (.start false), .step (.start true), .step (.advance 2500),
          .step (.poll 0), .step (.release 0), .step (.acquire false), .step (.poll 1),
          .step (.advance 2500), .step (.poll 1)] ++ [.step (.poll 0)])).dropLast = 2 := by
  obtain ⟨-, -, -, -, hOwn⟩ :=
    own_waits_eq_attempts_iff ⟨.v4 [127, 0, 0, 1], 11210⟩
      { maxSize := 1, maxAcquireRetryCount := 2 } []
      [.step (.acquire false), .step (.start false), .step (.start true), .step (.advance 2500),
        .step (.poll 0), .step (.release 0), .step (.acquire false), .step (.poll 1),
        .step (.advance 2500), .step (.poll 1)]
      (.poll 0) ⟨.v4 [127, 0, 0, 1], 11210⟩ 2 (by decide) (by decide +kernel) (by decide +kernel)
  exact hOwn.2 (by decide +kernel)

/-- Two calls wait once each, and the one that is polled last is refused after two attempts. -/
theorem refused_after_one_wait :
    let start : Session :=
      { pool := fresh ⟨.v4 [127, 0, 0, 1], 11210⟩ { maxSize := 1, maxAcquireRetryCount := 2 } [] }
    let uses : List Use := [.step (.acquire false), .step (.start false), .step (.start false),
      .step (.advance 2500), .step (.poll 0)]
    ((start.useAll uses).step (.poll 1)).2.error? =
        some (.unavailable ⟨.v4 [127, 0, 0, 1], 11210⟩ 2) ∧
      ownWaits (.task 1) (start.journal 0 (uses ++ [.step (.poll 1)])) = 1 := by
  decide +kernel

end StoreClient.Session
