/-
  HttpShield.Lib.SearchTree
  ─────────────────────────
  Coloured binary search trees over items that carry a key elsewhere.

  The tree knows nothing of keys: a search descends by a PROBE (`lt`, `eq`,
  `gt` at each item) and an insertion by a side test, exactly as an intrusive
  tree whose nodes point into a heap.  `SortedBy key` says that the in-order
  sequence is strictly increasing under an external `key`, and the two main
  facts are stated against it:

    • `find?_eq_some_iff` — a probe that compares with `k` finds exactly the
      item of key `k`,
    • `insertLeaf_sortedBy` / `insertLeaf_perm` — inserting a fresh key at the
      leaf the side test leads to adds that item and keeps the order.

  Rebalancing never appears: every fact is about the in-order sequence, which
  rotations and recolourings preserve.
-/
import Mathlib.Data.List.Basic
import Mathlib.Data.List.Pairwise
import Mathlib.Data.List.Perm.Basic
import Mathlib.Order.Lattice
import Mathlib.Tactic.Common

namespace SearchTree

universe u v

/-! ## §1. Trees, in-order sequences, search and insertion. -/

/-- The two colours of a red-black node. -/
inductive Color where
  | red
  | black
  deriving Repr, DecidableEq

/-- A binary tree of items; `sentinel` is the empty tree. -/
inductive RbTree (α : Type u) where
  | sentinel
  | node (left : RbTree α) (color : Color) (item : α) (right : RbTree α)
  deriving Repr, DecidableEq

variable {α : Type u} {κ : Type v}

/-- The items from left to right. -/
def RbTree.inorder : RbTree α → List α
  | .sentinel => []
  | .node l _ a r => l.inorder ++ a :: r.inorder

/-- Descend by a three-way probe. -/
def RbTree.find? (probe : α → Ordering) : RbTree α → Option α
  | .sentinel => none
  | .node l _ a r =>
      match probe a with
      | .lt => l.find? probe
      | .gt => r.find? probe
      | .eq => some a

/-- Insert `x` as a red leaf, going left where the side test says so. -/
def RbTree.insertLeaf (goLeft : α → Bool) (x : α) : RbTree α → RbTree α
  | .sentinel => .node .sentinel .red x .sentinel
  | .node l c a r =>
      if goLeft a then .node (l.insertLeaf goLeft x) c a r
      else .node l c a (r.insertLeaf goLeft x)

@[simp] theorem RbTree.inorder_sentinel : (RbTree.sentinel : RbTree α).inorder = [] := rfl

@[simp] theorem RbTree.inorder_node (l r : RbTree α) (c : Color) (a : α) :
    (RbTree.node l c a r).inorder = l.inorder ++ a :: r.inorder := rfl

theorem RbTree.mem_inorder_node {l r : RbTree α} {c : Color} {a x : α} :
    x ∈ (RbTree.node l c a r).inorder ↔ x ∈ l.inorder ∨ x = a ∨ x ∈ r.inorder := by
  simp

/-! ## §2. Insertion adds exactly the new item. -/

/-- **Insertion is a permutation of consing**: nothing is lost or repeated. -/
theorem RbTree.insertLeaf_perm (goLeft : α → Bool) (x : α) (t : RbTree α) :
    (t.insertLeaf goLeft x).inorder.Perm (x :: t.inorder) := by
  induction t with
  | sentinel => simp [RbTree.insertLeaf]
  | node l c a r ihl ihr =>
      by_cases hl : goLeft a = true
      · simp only [RbTree.insertLeaf, hl, if_true, RbTree.inorder_node]
        exact ihl.append_right _
      · simp only [RbTree.insertLeaf, hl, RbTree.inorder_node]
        have hmove : (l.inorder ++ a :: x :: r.inorder).Perm
            (x :: (l.inorder ++ a :: r.inorder)) := by
          have h₁ : (l.inorder ++ a :: x :: r.inorder).Perm
              (l.inorder ++ x :: a :: r.inorder) :=
            (List.Perm.swap x a r.inorder).append_left _
          exact h₁.trans List.perm_middle
        exact ((ihr.cons a).append_left _).trans hmove

theorem RbTree.mem_insertLeaf (goLeft : α → Bool) (x y : α) (t : RbTree α) :
    y ∈ (t.insertLeaf goLeft x).inorder ↔ y = x ∨ y ∈ t.inorder := by
  rw [(t.insertLeaf_perm goLeft x).mem_iff, List.mem_cons]

/-! ## §3. Search trees under an external key. -/

section Keyed

variable [LinearOrder κ] (key : α → κ)

/-- The in-order sequence is strictly increasing under `key`. -/
def RbTree.SortedBy (t : RbTree α) : Prop := t.inorder.Pairwise (fun a b => key a < key b)

theorem RbTree.sortedBy_node {l r : RbTree α} {c : Color} {a : α} :
    (RbTree.node l c a r).SortedBy key ↔
      l.SortedBy key ∧ r.SortedBy key
        ∧ (∀ x ∈ l.inorder, key x < key a) ∧ (∀ y ∈ r.inorder, key a < key y)
        ∧ (∀ x ∈ l.inorder, ∀ y ∈ r.inorder, key x < key y) := by
  unfold RbTree.SortedBy
  rw [RbTree.inorder_node, List.pairwise_append, List.pairwise_cons]
  constructor
  · rintro ⟨hl, ⟨har, hr⟩, hlr⟩
    exact ⟨hl, hr, fun x hx => hlr x hx a List.mem_cons_self, har,
      fun x hx y hy => hlr x hx y (List.mem_cons_of_mem _ hy)⟩
  · rintro ⟨hl, hr, hla, har, hlr⟩
    refine ⟨hl, ⟨har, hr⟩, ?_⟩
    intro x hx y hy
    rcases List.mem_cons.mp hy with rfl | hy
    · exact hla x hx
    · exact hlr x hx y hy

/-- Only the keys of the items in the tree matter, and dropping items keeps the
rest sorted. -/
theorem RbTree.SortedBy.of_sublist {key' : α → κ} {t t' : RbTree α} (h : t.SortedBy key)
    (hsub : t'.inorder.Sublist t.inorder) (hkey : ∀ a ∈ t'.inorder, key' a = key a) :
    t'.SortedBy key' := by
  have hp : t'.inorder.Pairwise (fun a b => key a < key b) := List.Pairwise.sublist hsub h
  refine hp.imp_of_mem ?_
  intro a b ha hb hab
  rw [hkey a ha, hkey b hb]
  exact hab

/-- Two items of one key in a sorted tree are the same item. -/
theorem RbTree.SortedBy.key_inj {t : RbTree α} (h : t.SortedBy key) {x y : α}
    (hx : x ∈ t.inorder) (hy : y ∈ t.inorder) (hk : key x = key y) : x = y := by
  by_contra hne
  have hsym : t.inorder.Pairwise (fun a b => key a ≠ key b) := h.imp (fun hab => ne_of_lt hab)
  have : Std.Symm (fun a b => key a ≠ key b) := ⟨fun _ _ hab => Ne.symm hab⟩
  exact hsym.forall hx hy hne hk

/-- The probe compares `k` with the key of each item of the list. -/
def Compares (probe : α → Ordering) (k : κ) (l : List α) : Prop :=
  ∀ a ∈ l, (probe a = .lt ↔ k < key a) ∧ (probe a = .gt ↔ key a < k)

/-- **A comparing probe finds exactly the item of its key.** -/
theorem RbTree.find?_eq_some_iff (probe : α → Ordering) (k : κ) {t : RbTree α}
    (h : t.SortedBy key) (hp : Compares key probe k t.inorder) (x : α) :
    t.find? probe = some x ↔ x ∈ t.inorder ∧ key x = k := by
  induction t with
  | sentinel => simp [RbTree.find?]
  | node l c a r ihl ihr =>
      obtain ⟨hl, hr, hla, har, -⟩ := (RbTree.sortedBy_node key).mp h
      have hpl : Compares key probe k l.inorder :=
        fun b hb => hp b (RbTree.mem_inorder_node.mpr (.inl hb))
      have hpr : Compares key probe k r.inorder :=
        fun b hb => hp b (RbTree.mem_inorder_node.mpr (.inr (.inr hb)))
      obtain ⟨hplt, hpgt⟩ := hp a (RbTree.mem_inorder_node.mpr (.inr (.inl rfl)))
      rw [RbTree.mem_inorder_node]
      rcases lt_trichotomy k (key a) with hlt | heq | hgt
      · -- the key is on the left: neither `a` nor the right side can carry it
        simp only [RbTree.find?, hplt.mpr hlt, ihl hl hpl]
        constructor
        · rintro ⟨hx, hk⟩
          exact ⟨.inl hx, hk⟩
        · rintro ⟨hx | rfl | hx, hk⟩
          · exact ⟨hx, hk⟩
          · exact absurd hk (ne_of_gt hlt)
          · exact absurd hk (ne_of_gt (hlt.trans (har x hx)))
      · have hprobe : probe a = .eq := by
          cases hpa : probe a with
          | eq => rfl
          | lt => exact absurd heq (ne_of_lt (hplt.mp hpa))
          | gt => exact absurd heq (ne_of_gt (hpgt.mp hpa))
        simp only [RbTree.find?, hprobe, Option.some.injEq]
        constructor
        · intro heq
          subst heq
          exact ⟨.inr (.inl rfl), heq.symm⟩
        · rintro ⟨hx | rfl | hx, hk⟩
          · exact absurd (hk.trans heq) (ne_of_lt (hla x hx))
          · rfl
          · exact absurd (hk.trans heq) (ne_of_gt (har x hx))
      · simp only [RbTree.find?, hpgt.mpr hgt, ihr hr hpr]
        constructor
        · rintro ⟨hx, hk⟩
          exact ⟨.inr (.inr hx), hk⟩
        · rintro ⟨hx | rfl | hx, hk⟩
          · exact absurd hk (ne_of_lt ((hla x hx).trans hgt))
          · exact absurd hk (ne_of_lt hgt)
          · exact ⟨hx, hk⟩

/-- A comparing probe fails exactly when no item has its key. -/
theorem RbTree.find?_eq_none_iff (probe : α → Ordering) (k : κ) {t : RbTree α}
    (h : t.SortedBy key) (hp : Compares key probe k t.inorder) :
    t.find? probe = none ↔ ∀ x ∈ t.inorder, key x ≠ k := by
  rw [Option.eq_none_iff_forall_ne_some]
  constructor
  · intro hn x hx hk
    exact hn x ((RbTree.find?_eq_some_iff key probe k h hp x).mpr ⟨hx, hk⟩)
  · intro hn x hx
    obtain ⟨hmem, hk⟩ := (RbTree.find?_eq_some_iff key probe k h hp x).mp hx
    exact hn x hmem hk

/-- **Insertion keeps the order**, when the side test compares keys and the
new key is fresh. -/
theorem RbTree.insertLeaf_sortedBy (goLeft : α → Bool) (x : α) {t : RbTree α}
    (h : t.SortedBy key) (hg : ∀ a ∈ t.inorder, goLeft a = decide (key x < key a))
    (hfresh : ∀ a ∈ t.inorder, key a ≠ key x) :
    (t.insertLeaf goLeft x).SortedBy key := by
  induction t with
  | sentinel => simp [RbTree.insertLeaf, RbTree.SortedBy]
  | node l c a r ihl ihr =>
      obtain ⟨hl, hr, hla, har, hlr⟩ := (RbTree.sortedBy_node key).mp h
      have hga := hg a (RbTree.mem_inorder_node.mpr (.inr (.inl rfl)))
      have hne := hfresh a (RbTree.mem_inorder_node.mpr (.inr (.inl rfl)))
      by_cases hlt : key x < key a
      · have ihl' := ihl hl (fun b hb => hg b (RbTree.mem_inorder_node.mpr (.inl hb)))
          (fun b hb => hfresh b (RbTree.mem_inorder_node.mpr (.inl hb)))
        simp only [RbTree.insertLeaf, hga, hlt, decide_true, if_true]
        refine (RbTree.sortedBy_node key).mpr ⟨ihl', hr, ?_, har, ?_⟩
        · intro y hy
          rcases (RbTree.mem_insertLeaf goLeft x y l).mp hy with rfl | hy
          · exact hlt
          · exact hla y hy
        · intro y hy z hz
          rcases (RbTree.mem_insertLeaf goLeft x y l).mp hy with rfl | hy
          · exact hlt.trans (har z hz)
          · exact hlr y hy z hz
      · have hgt : key a < key x := lt_of_le_of_ne (not_lt.mp hlt) hne
        have ihr' := ihr hr (fun b hb => hg b (RbTree.mem_inorder_node.mpr (.inr (.inr hb))))
          (fun b hb => hfresh b (RbTree.mem_inorder_node.mpr (.inr (.inr hb))))
        simp only [RbTree.insertLeaf, hga, hlt, decide_false]
        refine (RbTree.sortedBy_node key).mpr ⟨hl, ihr', hla, ?_, ?_⟩
        · intro y hy
          rcases (RbTree.mem_insertLeaf goLeft x y r).mp hy with rfl | hy
          · exact hgt
          · exact har y hy
        · intro y hy z hz
          rcases (RbTree.mem_insertLeaf goLeft x z r).mp hz with rfl | hz
          · exact (hla y hy).trans hgt
          · exact hlr y hy z hz

end Keyed

/-! ## §4. Deletion without rebalancing. -/

/-- Hang `r` to the right of everything in a tree. -/
def RbTree.join : RbTree α → RbTree α → RbTree α
  | .sentinel, r => r
  | .node l c a r', r => .node l c a (r'.join r)

@[simp] theorem RbTree.inorder_join (t r : RbTree α) :
    (t.join r).inorder = t.inorder ++ r.inorder := by
  induction t with
  | sentinel => rfl
  | node l c a r' _ ih => simp [RbTree.join, ih]

/-- Take an item out of a tree, wherever it is. -/
def RbTree.remove [DecidableEq α] : RbTree α → α → RbTree α
  | .sentinel, _ => .sentinel
  | .node l c a r, x =>
      if x ∈ l.inorder then .node (l.remove x) c a r
      else if a = x then l.join r
      else .node l c a (r.remove x)

theorem RbTree.inorder_remove [DecidableEq α] (t : RbTree α) (x : α) :
    (t.remove x).inorder = t.inorder.erase x := by
  induction t with
  | sentinel => rfl
  | node l c a r ihl ihr =>
      rw [RbTree.remove, RbTree.inorder_node, List.erase_append]
      split
      · rw [RbTree.inorder_node, ihl]
      · split
        · rename_i hax
          rw [hax, List.erase_cons_head, RbTree.inorder_join]
        · rename_i hax
          rw [List.erase_cons_tail (by simpa using hax), RbTree.inorder_node, ihr]

end SearchTree
