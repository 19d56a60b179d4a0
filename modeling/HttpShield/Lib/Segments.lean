/-
  HttpShield.Lib.Segments
  ───────────────────────
  The segments of a list with separators.

  A segment is a maximal piece without the separator, so two separators in a row have an
  empty segment between them, and so have a separator and the end it stands at.  The
  rules take a list apart from its front:

    • `segment_iff`      — the first segment, and those behind a separator,
    • `later_cons_self`  — behind a separator at the front every segment is,
    • `later_append`     — a piece without separators in front changes none of them.
-/
import Mathlib.Data.List.Basic
import Mathlib.Data.List.TakeWhile

namespace Segments

variable {α : Type*} {sep : α}

/-! ## §1. Segments. -/

/-- The segment ends here: nothing is behind it, or a separator. -/
def Ends (sep : α) (behind : List α) : Prop := behind = [] ∨ ∃ b, behind = sep :: b

/-- **A segment** of the list. -/
def Segment (sep : α) (l seg : List α) : Prop :=
  ∃ before behind, l = before ++ (seg ++ behind) ∧ sep ∉ seg
    ∧ (before = [] ∨ ∃ b, before = b ++ [sep]) ∧ Ends sep behind

/-- A segment that begins behind a separator. -/
def Later (sep : α) (l seg : List α) : Prop :=
  ∃ b behind, l = b ++ sep :: (seg ++ behind) ∧ sep ∉ seg ∧ Ends sep behind

/-! ## §2. The rules. -/

/-- The piece in front of the first separator. -/
theorem takeWhile_eq_iff [DecidableEq α] {l w : List α} :
    l.takeWhile (· ≠ sep) = w ↔ ∃ behind, l = w ++ behind ∧ sep ∉ w ∧ Ends sep behind := by
  constructor
  · intro heq
    subst heq
    refine ⟨l.dropWhile (· ≠ sep), List.takeWhile_append_dropWhile.symm, ?_, ?_⟩
    · intro hmem
      simpa using List.mem_takeWhile_imp hmem
    · cases hdrop : l.dropWhile (· ≠ sep) with
      | nil => exact .inl rfl
      | cons c b =>
          have hstop := List.head?_dropWhile_not (fun x => decide (x ≠ sep)) l
          rw [hdrop] at hstop
          obtain rfl : c = sep := not_not.mp (of_decide_eq_false hstop)
          exact .inr ⟨b, rfl⟩
  · rintro ⟨behind, rfl, hw, hends⟩
    have hall : ∀ x ∈ w, decide (x ≠ sep) = true := by
      intro x hx
      rw [decide_eq_true_eq]
      intro heq
      subst heq
      exact hw hx
    rw [List.takeWhile_append_of_pos hall]
    rcases hends with rfl | ⟨b, rfl⟩
    · rw [List.takeWhile_nil, List.append_nil]
    · rw [List.takeWhile_cons_of_neg (by simp), List.append_nil]

/-- **The first segment**, and those behind a separator. -/
theorem segment_iff [DecidableEq α] {l seg : List α} :
    Segment sep l seg ↔ l.takeWhile (· ≠ sep) = seg ∨ Later sep l seg := by
  rw [takeWhile_eq_iff]
  constructor
  · rintro ⟨before, behind, rfl, hseg, rfl | ⟨b, rfl⟩, hends⟩
    · exact .inl ⟨behind, rfl, hseg, hends⟩
    · exact .inr ⟨b, behind, by simp, hseg, hends⟩
  · rintro (⟨behind, rfl, hseg, hends⟩ | ⟨b, behind, rfl, hseg, hends⟩)
    · exact ⟨[], behind, rfl, hseg, .inl rfl, hends⟩
    · exact ⟨b ++ [sep], behind, by simp, hseg, .inr ⟨b, rfl⟩, hends⟩

theorem not_later_nil (seg : List α) : ¬ Later sep [] seg := by
  rintro ⟨b, behind, hnil, -⟩
  cases b <;> cases hnil

theorem later_cons_self {l seg : List α} : Later sep (sep :: l) seg ↔ Segment sep l seg := by
  constructor
  · rintro ⟨b, behind, hl, hseg, hends⟩
    cases b with
    | nil =>
        obtain ⟨-, rfl⟩ := List.cons.inj hl
        exact ⟨[], behind, rfl, hseg, .inl rfl, hends⟩
    | cons c b =>
        obtain ⟨-, rfl⟩ := List.cons.inj hl
        exact ⟨b ++ [sep], behind, by simp, hseg, .inr ⟨b, rfl⟩, hends⟩
  · rintro ⟨before, behind, rfl, hseg, rfl | ⟨b, rfl⟩, hends⟩
    · exact ⟨[], behind, rfl, hseg, hends⟩
    · exact ⟨sep :: b, behind, by simp, hseg, hends⟩

theorem later_cons_of_ne {c : α} (hc : c ≠ sep) {l seg : List α} :
    Later sep (c :: l) seg ↔ Later sep l seg := by
  constructor
  · rintro ⟨b, behind, hl, hseg, hends⟩
    cases b with
    | nil => exact absurd (List.cons.inj hl).1 hc
    | cons d b =>
        obtain ⟨-, rfl⟩ := List.cons.inj hl
        exact ⟨b, behind, rfl, hseg, hends⟩
  · rintro ⟨b, behind, rfl, hseg, hends⟩
    exact ⟨c :: b, behind, rfl, hseg, hends⟩

theorem later_append {pre : List α} (hpre : sep ∉ pre) {l seg : List α} :
    Later sep (pre ++ l) seg ↔ Later sep l seg := by
  induction pre with
  | nil => exact Iff.rfl
  | cons c pre ih =>
      rw [List.mem_cons, not_or] at hpre
      rw [List.cons_append, later_cons_of_ne (Ne.symm hpre.1), ih hpre.2]

end Segments
