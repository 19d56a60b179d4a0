/-
  HttpShield.Lib.ShortReads
  ─────────────────────────
  Pieces of known lengths fetched by reads that may be short.

  Read number `i` brings up to `sizes i` bytes.  A piece of `len` bytes is read from
  read `k` on, one read after the other, until it is complete; the next piece goes on
  with the next read.  Which reads that takes depends on the sizes alone:

    • `needs_iff`        — the first read of a piece, and those of what it left,
    • `endsAt_next`      — where a piece ends, from where the rest of it does,
    • `needsAny_cons_iff` — the reads of a list of pieces, piece by piece.
-/
import Mathlib.Algebra.BigOperators.Intervals
import Mathlib.Order.Bounds.Basic

namespace ShortReads

variable (sizes : Nat → Nat)

/-! ## §1. One piece. -/

/-- What the reads from number `k` up to number `i` bring. -/
def arrived (k i : Nat) : Nat := ∑ j ∈ Finset.Ico k i, sizes j

/-- Read `i` is needed for `len` bytes: the ones before it bring less. -/
def Needs (len k i : Nat) : Prop := k ≤ i ∧ arrived sizes k i < len

/-- Read `e` is the first that is not needed. -/
def EndsAt (len k e : Nat) : Prop := IsLeast {i | k ≤ i ∧ len ≤ arrived sizes k i} e

theorem arrived_self (k : Nat) : arrived sizes k k = 0 := by
  unfold arrived
  rw [Finset.Ico_self, Finset.sum_empty]

theorem arrived_head {k i : Nat} (h : k < i) :
    arrived sizes k i = sizes k + arrived sizes (k + 1) i :=
  Finset.sum_eq_sum_Ico_succ_bot h sizes

theorem not_needs_zero (k i : Nat) : ¬ Needs sizes 0 k i := fun h => Nat.not_lt_zero _ h.2

theorem needs_first {len : Nat} (h : 0 < len) (k : Nat) : Needs sizes len k k := by
  refine ⟨Nat.le_refl k, ?_⟩
  rw [arrived_self]
  exact h

/-- **The reads of a piece**: the first one, and those of what it left. -/
theorem needs_iff {len : Nat} (hlen : 0 < len) (k i : Nat) :
    Needs sizes len k i ↔ i = k ∨ Needs sizes (len - sizes k) (k + 1) i := by
  constructor
  · rintro ⟨hle, hless⟩
    rcases Nat.eq_or_lt_of_le hle with heq | hlt
    · exact .inl heq.symm
    · rw [arrived_head sizes hlt] at hless
      exact .inr ⟨hlt, by omega⟩
  · rintro (rfl | ⟨hlt, hless⟩)
    · exact needs_first sizes hlen i
    · refine ⟨Nat.le_of_lt hlt, ?_⟩
      rw [arrived_head sizes hlt]
      omega

theorem endsAt_zero (k : Nat) : EndsAt sizes 0 k k := by
  refine ⟨⟨Nat.le_refl k, Nat.zero_le _⟩, ?_⟩
  intro i hi
  exact hi.1

/-- A piece ends where what its first read left ends. -/
theorem endsAt_next {len k e : Nat} (hlen : 0 < len)
    (h : EndsAt sizes (len - sizes k) (k + 1) e) : EndsAt sizes len k e := by
  obtain ⟨⟨hle, hall⟩, hleast⟩ := h
  constructor
  · refine ⟨Nat.le_of_lt hle, ?_⟩
    rw [arrived_head sizes hle]
    omega
  · rintro i ⟨hki, henough⟩
    rcases Nat.eq_or_lt_of_le hki with rfl | hlt
    · -- no read at all brings nothing
      rw [arrived_self] at henough
      omega
    · rw [arrived_head sizes hlt] at henough
      exact hleast ⟨hlt, by omega⟩

/-! ## §2. One piece after the other. -/

/-- Read `i` is needed for one of the pieces, which are read from read `k` on. -/
def NeedsAny : List Nat → Nat → Nat → Prop
  | [], _, _ => False
  | len :: lens, k, i =>
      Needs sizes len k i ∨ ∃ e, EndsAt sizes len k e ∧ NeedsAny lens e i

/-- **The reads of the pieces**, when it is known where the first one ends. -/
theorem needsAny_cons_iff {len k e : Nat} (h : EndsAt sizes len k e) (lens : List Nat) (i : Nat) :
    NeedsAny sizes (len :: lens) k i ↔ Needs sizes len k i ∨ NeedsAny sizes lens e i := by
  constructor
  · rintro (hneeds | ⟨e', hends, hrest⟩)
    · exact .inl hneeds
    · rw [h.unique hends]
      exact .inr hrest
  · rintro (hneeds | hrest)
    · exact .inl hneeds
    · exact .inr ⟨e, h, hrest⟩

/-- Pieces of no bytes need no read. -/
theorem not_needsAny_of_zeros {lens : List Nat} (h : ∀ len ∈ lens, len = 0) (k i : Nat) :
    ¬ NeedsAny sizes lens k i := by
  induction lens generalizing k with
  | nil => exact not_false
  | cons len lens ih =>
      obtain ⟨rfl, hrest⟩ := List.forall_mem_cons.mp h
      rw [needsAny_cons_iff sizes (endsAt_zero sizes k)]
      rintro (hneeds | hlater)
      · exact not_needs_zero sizes k i hneeds
      · exact ih hrest k hlater

end ShortReads
