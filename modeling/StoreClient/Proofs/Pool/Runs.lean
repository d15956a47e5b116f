import StoreClient.Proofs.Pool.Journal

/-!
# Runs of a session

A run visits one session after the other and makes a use of each. The operations of a run are those
of its uses, in order; they lead from the pool of the first session to that of the last one.
-/

namespace StoreClient

/-- What every operation of a kind keeps, operations of this kind keep. -/
theorem Pool.applyAll_induction_of_forall {P : Pool → Prop} {K : Pool.Op → Prop} {p : Pool}
    {ops : List Pool.Op} (hApply : ∀ p op, K op → P p → P (p.apply op)) (hOps : ∀ op ∈ ops, K op)
    (hp : P p) : P (p.applyAll ops) := by
  induction ops generalizing p with
  | nil => exact hp
  | cons op ops ih =>
    obtain ⟨hFirst, hRest⟩ := List.forall_mem_cons.1 hOps
    exact ih hRest (hApply p op hFirst hp)

namespace Session

open Pool

variable {s : Session} {st : Step} {ops : List Op} {result : Session × Answer} {u : Use}
  {uses : List Use}

/-- The sessions that a run visits, each with the use that is made of it. -/
def visits (s : Session) : List Use → List (Session × Use)
  | [] => []
  | u :: uses => (s, u) :: (s.use u).visits uses

/-- What a use answers. -/
def answer (s : Session) : Use → Answer
  | .step st => (s.step st).2
  | .giveBack _ => .nothing

/-- The operations of a run. -/
def runOps (s : Session) (uses : List Use) : List Op :=
  (s.visits uses).flatMap fun v => v.1.useOps v.2

theorem runOps_cons (s : Session) (u : Use) (uses : List Use) :
    s.runOps (u :: uses) = s.useOps u ++ (s.use u).runOps uses := by
  simp [runOps, visits]

theorem useAll_pool (s : Session) (uses : List Use) :
    (s.useAll uses).pool = s.pool.applyAll (s.runOps uses) := by
  induction uses generalizing s with
  | nil => rfl
  | cons u uses ih =>
    have hRest : (s.useAll (u :: uses)).pool = ((s.use u).useAll uses).pool := rfl
    rw [hRest, ih, use_pool, runOps_cons, applyAll_append]

/-! ## Uses in which nobody calls -/

/-- Whether a caller calls for a connection in a use, or goes on with a call. -/
def Use.isCall : Use → Bool
  | .step (.acquire _) | .step (.start _) | .step (.poll _) | .step (.handOff _) => true
  | _ => false

/-- Nobody tries to get a connection in a step in which nobody calls for one. -/
theorem Performs.attempt_notMem (h : s.Performs st ops result)
    (hNoCall : (Use.step st).isCall = false) : Op.attempt ∉ ops := by
  cases h with
  | idle | drop => exact List.not_mem_nil
  | operation hOperates => cases hOperates <;> simp
  | release | dropGuard | cancel => simp
  | call guarded before hCalls => cases hCalls <;> cases hNoCall
  | start | poll => cases hNoCall

/-- Nobody tries to get a connection where nobody calls for one. -/
theorem attempt_notMem_useOps (hNoCall : u.isCall = false) : Op.attempt ∉ s.useOps u := by
  cases u with
  | giveBack h =>
    rw [useOps]
    split <;> simp
  | step st =>
    have hEnd : Op.attempt ∉ (if (s.perform st).1.isHeld then [] else [.dispose] : List Op) := by
      split <;> simp
    rw [useOps, List.mem_append]
    exact not_or.2 ⟨(s.performs st).attempt_notMem hNoCall, hEnd⟩

/-- What every operation of a kind keeps is kept as long as uses have no other operations. -/
theorem useAll_induction_of_forall {P : Pool → Prop} {K : Op → Prop}
    (hApply : ∀ p op, K op → P p → P (p.apply op)) (hs : P s.pool)
    (hUses : ∀ u ∈ uses, ∀ s : Session, ∀ op ∈ s.useOps u, K op) : P (s.useAll uses).pool := by
  induction uses generalizing s with
  | nil => exact hs
  | cons u uses ih =>
    obtain ⟨hFirst, hRest⟩ := List.forall_mem_cons.1 hUses
    have hUse : P (s.use u).pool := by
      rw [use_pool]
      exact applyAll_induction_of_forall hApply (hFirst s) hs
    exact ih hUse hRest

/-- What every operation but an attempt keeps is kept as long as nobody calls. -/
theorem useAll_induction_of_noCalls {P : Pool → Prop}
    (hApply : ∀ p op, op ≠ Op.attempt → P p → P (p.apply op)) (hs : P s.pool)
    (hNoCalls : ∀ u ∈ uses, u.isCall = false) : P (s.useAll uses).pool :=
  useAll_induction_of_forall hApply hs fun u hu _ _ hOp =>
    ne_of_mem_of_not_mem hOp (attempt_notMem_useOps (hNoCalls u hu))

/-! ## Uses in which no connection comes back to life -/

theorem mem_acquireOps {p : Pool} {waits : Nat} {op : Op} (hOp : op ∈ p.acquireOps waits) :
    op = .attempt ∨ ∃ w, op = .timeOut w := by
  induction waits generalizing p with
  | zero => exact Or.inl (List.mem_singleton.1 hOp)
  | succ waits ih =>
    rw [acquireOps] at hOp
    rcases List.mem_cons.1 hOp with hFirst | hRest
    · exact Or.inl hFirst
    · rcases hAttempt : p.attempt with ⟨q, h | w | e⟩ <;> rw [hAttempt] at hRest
      · cases hRest
      · exact (List.mem_cons.1 hRest).elim (fun hEq => Or.inr ⟨w, hEq⟩) ih
      · cases hRest

theorem mem_callStepOps {p : Pool} {op : Op} (hOp : op ∈ p.callStepOps) :
    op = .attempt ∨ ∃ w, op = .timeOut w := by
  unfold callStepOps at hOp
  split at hOp
  · exact mem_acquireOps hOp
  · exact Or.inl (List.mem_singleton.1 hOp)

theorem revive_notMem_callOps {p : Pool} {h : Handle} : Op.setDead h false ∉ p.callOps := by
  intro hMem
  rcases mem_acquireOps hMem with hEq | ⟨w, hEq⟩ <;> cases hEq

theorem revive_notMem_callStepOps {p : Pool} {h : Handle} :
    Op.setDead h false ∉ p.callStepOps := by
  intro hMem
  rcases mem_callStepOps hMem with hEq | ⟨w, hEq⟩ <;> cases hEq

/-- No step but the one that says so brings a connection back to life. -/
theorem Performs.revive_notMem {k : Handle} (h : s.Performs st ops result)
    (hNot : st ≠ .revive k) : Op.setDead k false ∉ ops := by
  cases h with
  | idle | drop => exact List.not_mem_nil
  | operation hOperates =>
    cases hOperates with
    | revive g =>
      intro hMem
      cases List.mem_singleton.1 hMem
      exact hNot rfl
    | _ => simp
  | release | dropGuard | cancel => simp
  | call guarded before hCalls =>
    have hBefore : Op.setDead k false ∉ before := by
      cases hCalls <;> simp
    exact fun hMem => (List.mem_append.1 hMem).elim hBefore revive_notMem_callOps
  | start => exact revive_notMem_callStepOps
  | poll n t before hTask hResumes =>
    have hBefore : Op.setDead k false ∉ before := by
      cases hResumes <;> simp
    exact fun hMem => (List.mem_append.1 hMem).elim hBefore revive_notMem_callStepOps

/-- A connection comes back to life by itself only. -/
theorem revive_notMem_useOps {h : Handle} (hNot : u ≠ .step (.revive h)) :
    Op.setDead h false ∉ s.useOps u := by
  cases u with
  | giveBack g =>
    rw [useOps]
    split <;> simp
  | step st =>
    have hStep : st ≠ .revive h := fun hEq => hNot (congrArg Use.step hEq)
    have hEnd : Op.setDead h false ∉
        (if (s.perform st).1.isHeld then [] else [.dispose] : List Op) := by
      split <;> simp
    rw [useOps, List.mem_append]
    exact not_or.2 ⟨(s.performs st).revive_notMem hStep, hEnd⟩

end Session

end StoreClient
