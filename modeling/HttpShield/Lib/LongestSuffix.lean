/-
  HttpShield.Lib.LongestSuffix
  ────────────────────────────
  The longest suffix of a word that lies in a set of words closed under
  prefixes: the state an Aho–Corasick automaton over that set is in after it
  has read the word.

    • `longest_append`  — the state after one more letter depends on the state
      alone, which is why an automaton can keep it,
    • `suffix_longest_iff` — the words of the set that end here are those that
      end the state, which is why its outputs can be read off it,
    • `longest_concat_of_notMem` — where a letter leads out of the set, it leads where
      it leads from the state's own longest proper suffix, its failure state.
-/
import Mathlib.Data.List.Basic
import Mathlib.Data.List.Infix
import Mathlib.Tactic.Common

namespace LongestSuffix

universe u

variable {α : Type u}

/-! ## §1. Sets of words closed under prefixes. -/

/-- The set contains the empty word, and with a word the word without its last letter. -/
structure PrefixClosed (P : List α → Prop) : Prop where
  nil : P []
  init : ∀ w a, P (w ++ [a]) → P w

/-- A prefix-closed set that holds a word holds every prefix of it. -/
theorem PrefixClosed.append {P : List α → Prop} (hP : PrefixClosed P) (w : List α) :
    ∀ v, P (w ++ v) → P w := by
  intro v
  -- take the letters of `v` off one at a time, from the last
  induction v using List.reverseRecOn with
  | nil =>
      intro h
      rwa [List.append_nil] at h
  | append_singleton v a ih =>
      intro h
      rw [← List.append_assoc] at h
      exact ih (hP.init (w ++ v) a h)

/-! ## §2. The longest suffix in the set. -/

variable (P : List α → Prop) [DecidablePred P]

/-- **The longest suffix of a word that is in `P`** (the empty word when none is). -/
def longest : List α → List α
  | [] => []
  | a :: w => if P (a :: w) then a :: w else longest w

theorem longest_suffix (w : List α) : longest P w <:+ w := by
  induction w with
  | nil => exact List.suffix_refl []
  | cons a w ih =>
      unfold longest
      split
      · exact List.suffix_refl _
      · exact ih.trans (List.suffix_cons a w)

theorem longest_length_le (w : List α) : (longest P w).length ≤ w.length :=
  (longest_suffix P w).length_le

variable {P}

theorem longest_mem (hP : PrefixClosed P) (w : List α) : P (longest P w) := by
  induction w with
  | nil => exact hP.nil
  | cons a w ih =>
      unfold longest
      split
      · assumption
      · exact ih

theorem longest_eq_self {w : List α} (h : P w) : longest P w = w := by
  cases w with
  | nil => rfl
  | cons a w =>
      unfold longest
      rw [if_pos h]

/-- **The longest suffix covers the others**: every suffix in the set is a suffix of it. -/
theorem suffix_longest {w v : List α} (hv : P v) (h : v <:+ w) : v <:+ longest P w := by
  induction w with
  | nil => exact h
  | cons a w ih =>
      unfold longest
      split
      · exact h
      · rename_i hout
        rcases List.suffix_cons_iff.mp h with rfl | h
        · exact absurd hv hout
        · exact ih h

/-- The words of the set that end a word are those that end its longest suffix. -/
theorem suffix_longest_iff {w v : List α} (hv : P v) : v <:+ w ↔ v <:+ longest P w :=
  ⟨suffix_longest hv, fun h => h.trans (longest_suffix P w)⟩

/-! ## §3. One more letter. -/

/-- **The next state depends on the state alone.** -/
theorem longest_append (hP : PrefixClosed P) (w : List α) (a : α) :
    longest P (w ++ [a]) = longest P (longest P w ++ [a]) := by
  induction w with
  | nil => rfl
  | cons b w ih =>
      by_cases h : P (b :: w)
      · rw [longest_eq_self h]
      · -- neither word starts in the set, so the first letter is dropped on both sides
        have hout : ¬ P (b :: w ++ [a]) := fun h' => h (hP.init (b :: w) a h')
        have hl : longest P (b :: w ++ [a]) = longest P (w ++ [a]) := by
          show (if P (b :: (w ++ [a])) then _ else _) = _
          exact if_neg hout
        have hr : longest P (b :: w) = longest P w := if_neg h
        rw [hl, hr, ih]

/-- The longest proper suffix of a word in the set, a letter later. -/
theorem longest_tail_concat (hP : PrefixClosed P) {w : List α} (hw : w ≠ []) (a : α) :
    longest P (w ++ [a]).tail = longest P (longest P w.tail ++ [a]) := by
  rw [List.tail_append_of_ne_nil hw, longest_append hP]

/-- **A letter that leads out of the set** leads where it leads from the longest
proper suffix. -/
theorem longest_concat_of_notMem (hP : PrefixClosed P) {w : List α} (hw : w ≠ []) {a : α}
    (hout : ¬ P (w ++ [a])) : longest P (w ++ [a]) = longest P (longest P w.tail ++ [a]) := by
  obtain ⟨b, w, rfl⟩ := List.exists_cons_of_ne_nil hw
  rw [List.tail_cons, ← longest_append hP]
  show (if P (b :: (w ++ [a])) then _ else _) = _
  exact if_neg hout

/-- A word in the set is ended by another one exactly when it is that word, or its
longest proper suffix is ended by it. -/
theorem suffix_iff_eq_or_tail {w v : List α} (hv : P v) (hw : w ≠ []) :
    v <:+ w ↔ v = w ∨ v <:+ longest P w.tail := by
  obtain ⟨b, w, rfl⟩ := List.exists_cons_of_ne_nil hw
  rw [List.suffix_cons_iff, List.tail_cons, suffix_longest_iff hv]

end LongestSuffix
