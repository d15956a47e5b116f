import Mathlib.Order.Bounds.Defs
import Mathlib.Order.Lattice
import StoreClient.Time.Instant

/-!
# Instants in order

An instant is as late as the nanoseconds that it counts since the start of 1970. The milliseconds of
an instant are these nanoseconds divided by a million and rounded down, so that the instant that
they stand for is the last whole millisecond that is not after it, also before 1970.
-/

namespace StoreClient.Instant

variable {t u : Instant} {n : Int}

/-- The nanoseconds since the start of 1970. -/
def sinceEpoch (t : Instant) : Int := t.seconds * 1000000000 + t.nanos.val

/-- An instant is told by its nanoseconds since the epoch. -/
theorem sinceEpoch_injective : Function.Injective sinceEpoch := by
  intro t u h
  obtain ⟨seconds, nanos⟩ := t
  obtain ⟨seconds', nanos'⟩ := u
  unfold sinceEpoch at h
  have hLess := nanos.isLt
  have hLess' := nanos'.isLt
  dsimp only at h
  obtain rfl : seconds = seconds' := by omega
  obtain rfl : nanos = nanos' := Fin.ext (by omega)
  rfl

/-- The order in time. -/
instance : LinearOrder Instant := LinearOrder.lift' sinceEpoch sinceEpoch_injective

theorem le_iff : t ≤ u ↔ t.sinceEpoch ≤ u.sinceEpoch := Iff.rfl

/-- Whether an instant is a whole number of milliseconds away from the start of 1970. -/
def IsWhole (t : Instant) : Prop := t.nanos.val % 1000000 = 0

/-- The first instant that the wire can carry. -/
def first : Instant := ⟨-8334601228800, 0⟩

/-- The last instant of the last millisecond that the wire can carry. -/
def last : Instant := ⟨8210266876799, 999999999⟩

/-! ## Milliseconds -/

/-- The nanoseconds of an instant are its milliseconds, rounded down, and what is left. -/
theorem sinceEpoch_eq (t : Instant) :
    t.sinceEpoch = t.millis * 1000000 + (t.nanos.val % 1000000 : Nat) := by
  unfold sinceEpoch millis
  omega

theorem IsWhole.sinceEpoch (h : t.IsWhole) : t.sinceEpoch = t.millis * 1000000 := by
  unfold IsWhole at h
  rw [sinceEpoch_eq, h]
  omega

theorem millis_mono (h : t ≤ u) : t.millis ≤ u.millis := by
  rw [le_iff, sinceEpoch_eq t, sinceEpoch_eq u] at h
  omega

/-- The instants that can be represented are those from the first one to the last one. -/
theorem inRange_iff : t.InRange ↔ first ≤ t ∧ t ≤ last := by
  have hFirst : first.sinceEpoch = minMillis * 1000000 := rfl
  have hLast : last.sinceEpoch = maxMillis * 1000000 + 999999 := rfl
  rw [le_iff, le_iff, hFirst, hLast, sinceEpoch_eq t]
  unfold InRange
  omega

theorem ofMillis?_eq_none_iff : ofMillis? n = none ↔ ¬ (minMillis ≤ n ∧ n ≤ maxMillis) := by
  unfold ofMillis?
  split <;> simp_all

theorem isSome_ofMillis? : (∃ t, ofMillis? n = some t) ↔ minMillis ≤ n ∧ n ≤ maxMillis := by
  rw [← not_iff_not, ← ofMillis?_eq_none_iff, ← Option.ne_none_iff_exists', not_not]

/-- An instant that is made of milliseconds is a whole number of them. -/
theorem millis_of_ofMillis? (h : ofMillis? n = some t) : t.millis = n ∧ t.IsWhole := by
  unfold ofMillis? at h
  split at h
  · cases h
    unfold millis IsWhole
    dsimp only
    omega
  · cases h

/-- The instant that the milliseconds of an instant stand for is the greatest one of whole
milliseconds that is not after it. -/
theorem isGreatest_of_ofMillis? (h : ofMillis? t.millis = some u) :
    IsGreatest {v | v.IsWhole ∧ v ≤ t} u := by
  obtain ⟨hMillis, hWhole⟩ := millis_of_ofMillis? h
  refine ⟨⟨hWhole, ?_⟩, fun v hv => ?_⟩
  · rw [le_iff, hWhole.sinceEpoch, sinceEpoch_eq t, hMillis]
    omega
  · obtain ⟨hWhole', hBefore⟩ := hv
    have hLess := millis_mono hBefore
    rw [le_iff, hWhole.sinceEpoch, hWhole'.sinceEpoch, hMillis]
    omega

end StoreClient.Instant
