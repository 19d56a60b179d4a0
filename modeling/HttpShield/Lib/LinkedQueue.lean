/-
  HttpShield.Lib.LinkedQueue
  ──────────────────────────
  Circular doubly linked lists threaded through a sentinel.

  A `Links α` is the raw pointer picture: a successor and a predecessor for
  every element and for the sentinel (`none`).  Elements that are in no list
  still have links, and those may point anywhere — this is memory, not a list.
  `Spells L l` says that the links reachable from the sentinel read off exactly
  the list `l`, forwards and backwards:

      sentinel ⇄ l₀ ⇄ l₁ ⇄ … ⇄ sentinel

  Main results:
    • `Spells.unlink`     — unlinking a member reads off the list without it,
    • `Spells.linkHead`   — linking a new element at the head reads off `x :: l`,
    • `Spells.prev_mem`   — the predecessor of a member is the element before it,
    • `Spells.agree`      — only the links of the members and of the sentinel
                            matter, whatever the rest of the memory holds.
-/
import Mathlib.Data.List.Basic
import Mathlib.Data.List.Nodup
import Mathlib.Logic.Function.Basic
import Mathlib.Tactic.Common

namespace LinkedQueue

universe u

/-! ## §1. Links and the list they spell. -/

/-- Successor and predecessor pointers; `none` is the sentinel. -/
structure Links (α : Type u) where
  next : Option α → Option α
  prev : Option α → Option α

variable {α : Type u}

/-- **The links spell the list `l`**: wherever `l` is cut, the element before
the cut and the element after it point at each other. -/
def Links.Spells (L : Links α) (l : List α) : Prop :=
  ∀ xs ys : List α, l = xs ++ ys →
    L.next xs.getLast? = ys.head? ∧ L.prev ys.head? = xs.getLast?

/-- A fresh sentinel pointing at itself spells the empty list. -/
theorem Links.spells_nil {L : Links α} (hn : L.next none = none) (hp : L.prev none = none) :
    L.Spells [] := by
  intro xs ys h
  obtain ⟨rfl, rfl⟩ := List.append_eq_nil_iff.mp h.symm
  exact ⟨hn, hp⟩

theorem Links.Spells.next_none {L : Links α} {l : List α} (h : L.Spells l) :
    L.next none = l.head? := (h [] l rfl).1

theorem Links.Spells.prev_none {L : Links α} {l : List α} (h : L.Spells l) :
    L.prev none = l.getLast? := by
  have := (h l [] (List.append_nil l).symm).2
  simpa using this

theorem Links.Spells.prev_mem {L : Links α} {xs ys : List α} {x : α}
    (h : L.Spells (xs ++ x :: ys)) : L.prev (some x) = xs.getLast? := by
  have := (h xs (x :: ys) rfl).2
  simpa using this

theorem Links.Spells.next_mem {L : Links α} {xs ys : List α} {x : α}
    (h : L.Spells (xs ++ x :: ys)) : L.next (some x) = ys.head? := by
  have := (h (xs ++ [x]) ys (by simp)).1
  simpa using this

/-- Only the links of the members and of the sentinel matter. -/
theorem Links.Spells.agree {L L' : Links α} {l : List α} (h : L.Spells l)
    (hnone : L'.next none = L.next none ∧ L'.prev none = L.prev none)
    (hmem : ∀ x ∈ l, L'.next (some x) = L.next (some x) ∧ L'.prev (some x) = L.prev (some x)) :
    L'.Spells l := by
  intro xs ys hl
  obtain ⟨hn, hp⟩ := h xs ys hl
  refine ⟨?_, ?_⟩
  · rw [← hn]
    cases hx : xs.getLast? with
    | none => exact hnone.1
    | some x => exact (hmem x (hl ▸ List.mem_append_left _ (List.mem_of_getLast? hx))).1
  · rw [← hp]
    cases hy : ys.head? with
    | none => exact hnone.2
    | some y => exact (hmem y (hl ▸ List.mem_append_right _ (List.mem_of_head? hy))).2

/-- The list the links spell is unique: two lists read off the same pointers
have the same elements in the same order. -/
theorem Links.Spells.unique {L : Links α} {l l' : List α} (h : L.Spells l) (h' : L.Spells l') :
    l = l' := by
  -- peel both lists from the head; `pre` is the part already matched
  suffices hgen : ∀ (pre ys ys' : List α), l = pre ++ ys → l' = pre ++ ys' → ys = ys' by
    exact hgen [] l l' rfl rfl
  intro pre ys
  induction ys generalizing pre with
  | nil =>
      intro ys' hl hl'
      have h₁ := (h pre [] hl).1
      have h₂ := (h' pre ys' hl').1
      rw [h₁] at h₂
      cases ys' with
      | nil => rfl
      | cons y ys' => simp at h₂
  | cons y ys ih =>
      intro ys' hl hl'
      have h₁ := (h pre (y :: ys) hl).1
      have h₂ := (h' pre ys' hl').1
      rw [h₁] at h₂
      cases ys' with
      | nil => simp at h₂
      | cons y' ys' =>
          obtain rfl : y = y' := by simpa using h₂
          rw [ih (pre ++ [y]) ys' (by simpa using hl) (by simpa using hl')]

/-! ## §2. Pointer updates. -/

/-- In a list without repetition, a prefix and a non-empty rest end apart. -/
theorem getLast?_ne_of_nodup {xs ys : List α} (hnd : (xs ++ ys).Nodup) (hy : ys ≠ []) :
    xs.getLast? ≠ ys.getLast? := by
  intro he
  obtain ⟨y, hlast⟩ := Option.isSome_iff_exists.mp (List.getLast?_isSome.mpr hy)
  rw [hlast] at he
  exact (List.nodup_append.mp hnd).2.2 y (List.mem_of_getLast? he) y
    (List.mem_of_getLast? hlast) rfl

/-- In a list without repetition, a non-empty prefix and the rest start apart. -/
theorem head?_ne_of_nodup {xs ys : List α} (hnd : (xs ++ ys).Nodup) (hx : xs ≠ []) :
    ys.head? ≠ xs.head? := by
  intro he
  obtain ⟨x, hhead⟩ := Option.isSome_iff_exists.mp (List.isSome_head?.mpr hx)
  rw [hhead] at he
  exact (List.nodup_append.mp hnd).2.2 x (List.mem_of_head? hhead) x
    (List.mem_of_head? he) rfl

section Updates

variable [DecidableEq α]

/-- `q->next = v`. -/
def Links.setNext (L : Links α) (q v : Option α) : Links α :=
  { L with next := Function.update L.next q v }

/-- `q->prev = v`. -/
def Links.setPrev (L : Links α) (q v : Option α) : Links α :=
  { L with prev := Function.update L.prev q v }

@[simp] theorem Links.setNext_next_self (L : Links α) (q v : Option α) :
    (L.setNext q v).next q = v := by
  simp [Links.setNext]

theorem Links.setNext_next_of_ne (L : Links α) {q q' : Option α} (v : Option α) (h : q' ≠ q) :
    (L.setNext q v).next q' = L.next q' := by
  simp [Links.setNext, Function.update_of_ne h]

@[simp] theorem Links.setNext_prev (L : Links α) (q v : Option α) :
    (L.setNext q v).prev = L.prev := rfl

@[simp] theorem Links.setPrev_prev_self (L : Links α) (q v : Option α) :
    (L.setPrev q v).prev q = v := by
  simp [Links.setPrev]

theorem Links.setPrev_prev_of_ne (L : Links α) {q q' : Option α} (v : Option α) (h : q' ≠ q) :
    (L.setPrev q v).prev q' = L.prev q' := by
  simp [Links.setPrev, Function.update_of_ne h]

@[simp] theorem Links.setPrev_next (L : Links α) (q v : Option α) :
    (L.setPrev q v).next = L.next := rfl

/-- Unlink `x`: `x->next->prev = x->prev; x->prev->next = x->next`. -/
def Links.unlink (L : Links α) (x : α) : Links α :=
  (L.setPrev (L.next (some x)) (L.prev (some x))).setNext (L.prev (some x)) (L.next (some x))

/-- Link `x` after the sentinel: `x->next = h->next; x->next->prev = x;
x->prev = h; h->next = x`. -/
def Links.linkHead (L : Links α) (x : α) : Links α :=
  (((L.setNext (some x) (L.next none)).setPrev (L.next none) (some x)).setPrev
    (some x) none).setNext none (some x)

/-- **Unlinking a member** leaves the links spelling the list without it. -/
theorem Links.Spells.unlink {L : Links α} {xs ys : List α} {x : α}
    (h : L.Spells (xs ++ x :: ys)) (hnd : (xs ++ x :: ys).Nodup) :
    (L.unlink x).Spells (xs ++ ys) := by
  have hprev : L.prev (some x) = xs.getLast? := h.prev_mem
  have hnext : L.next (some x) = ys.head? := h.next_mem
  have hnd' : (xs ++ ys).Nodup := hnd.sublist ((List.sublist_cons_self x ys).append_left xs)
  intro us vs huv
  show Function.update L.next (L.prev (some x)) (L.next (some x)) us.getLast? = vs.head?
    ∧ Function.update L.prev (L.next (some x)) (L.prev (some x)) vs.head? = us.getLast?
  rw [hprev, hnext]
  rcases List.append_eq_append_iff.mp huv with ⟨ws, rfl, rfl⟩ | ⟨ws, rfl, rfl⟩
  · -- the cut is inside `ys = ws ++ vs`
    obtain ⟨hn, hp⟩ := h (xs ++ x :: ws) vs (by simp)
    by_cases hws : ws = []
    · subst hws
      simp
    · have hlast : (xs ++ ws).getLast? = ws.getLast? := List.getLast?_append_of_ne_nil xs hws
      have hlast' : (xs ++ x :: ws).getLast? = ws.getLast? := by
        rw [List.append_cons, List.getLast?_append_of_ne_nil _ hws]
      have hne : ws.getLast? ≠ xs.getLast? := by
        refine Ne.symm (getLast?_ne_of_nodup ?_ hws)
        exact hnd'.sublist ((List.sublist_append_left ws vs).append_left xs)
      have hne' : vs.head? ≠ (ws ++ vs).head? := by
        rw [List.head?_append_of_ne_nil ws hws]
        exact head?_ne_of_nodup (List.nodup_append.mp hnd').2.1 hws
      rw [hlast'] at hn hp
      rw [hlast, Function.update_of_ne hne, Function.update_of_ne hne']
      exact ⟨hn, hp⟩
  · -- the cut is inside `xs = us ++ ws`
    obtain ⟨hn, hp⟩ := h us (ws ++ x :: ys) (by simp)
    by_cases hws : ws = []
    · subst hws
      simp
    · have hhead : (ws ++ ys).head? = ws.head? := List.head?_append_of_ne_nil ws hws
      have hhead' : (ws ++ x :: ys).head? = ws.head? := List.head?_append_of_ne_nil ws hws
      have hne : us.getLast? ≠ (us ++ ws).getLast? := by
        rw [List.getLast?_append_of_ne_nil us hws]
        exact getLast?_ne_of_nodup (List.nodup_append.mp hnd').1 hws
      have hne' : ws.head? ≠ ys.head? := by
        refine Ne.symm (head?_ne_of_nodup ?_ hws)
        rw [List.append_assoc] at hnd'
        exact (List.nodup_append.mp hnd').2.1
      rw [hhead'] at hn hp
      rw [hhead, Function.update_of_ne hne, Function.update_of_ne hne']
      exact ⟨hn, hp⟩

/-- **Linking a new element at the head** leaves the links spelling `x :: l`. -/
theorem Links.Spells.linkHead {L : Links α} {l : List α} {x : α} (h : L.Spells l)
    (hnd : l.Nodup) (hx : x ∉ l) : (L.linkHead x).Spells (x :: l) := by
  have hnext : L.next none = l.head? := h.next_none
  intro us vs huv
  show Function.update (Function.update L.next (some x) (L.next none)) none (some x) us.getLast?
      = vs.head?
    ∧ Function.update (Function.update L.prev (L.next none) (some x)) (some x) none vs.head?
      = us.getLast?
  rw [hnext]
  cases us with
  | nil =>
      obtain rfl : vs = x :: l := by simpa using huv.symm
      simp
  | cons u us =>
      obtain ⟨rfl, rfl⟩ : x = u ∧ l = us ++ vs := by simpa using huv
      obtain ⟨hn, hp⟩ := h us vs rfl
      have hvs : vs.head? ≠ some x := by
        intro he
        exact hx (List.mem_append_right us (List.mem_of_head? he))
      rw [Function.update_of_ne hvs]
      by_cases hus : us = []
      · subst hus
        simp
      · obtain ⟨y, hlast⟩ := Option.isSome_iff_exists.mp (List.getLast?_isSome.mpr hus)
        have hyx : y ≠ x := by
          intro heq
          subst heq
          exact hx (List.mem_append_left vs (List.mem_of_getLast? hlast))
        have hl : (x :: us).getLast? = some y := by
          rw [← hlast]
          exact List.getLast?_append_of_ne_nil [x] hus
        have hne : vs.head? ≠ (us ++ vs).head? := by
          rw [List.head?_append_of_ne_nil us hus]
          exact head?_ne_of_nodup hnd hus
        rw [hl, Function.update_of_ne hne, Function.update_of_ne (Option.some_ne_none y),
          Function.update_of_ne (fun he => hyx (Option.some.inj he)), ← hlast]
        exact ⟨hn, hp⟩

end Updates

end LinkedQueue
