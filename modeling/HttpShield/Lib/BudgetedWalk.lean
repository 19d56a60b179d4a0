/-
  HttpShield.Lib.BudgetedWalk
  ───────────────────────────
  Bounded walks over a list that drop what is stale on the way.

  A walk has two budgets: how many elements it looks at (`scan`) and how many
  of them it drops (`evict`).  `judged` is the part of its path it gets to look
  at, `taken` what it drops of it.  A cyclic walk starts somewhere in the list,
  runs off its end and, when budget is left, goes round once more from the
  front over what the first lap left:

      behind ++ ahead   ──lap from `ahead`──▶   ──lap from the front──▶

  Main results:
    • `taken_eq`     — dropped are the first `evict` stale elements among the
                       first `scan` of the path,
    • `cyclic_left`  — both laps together drop what one walk over the path of
                       both laps would drop, and keep the order of the rest,
    • `cyclic_next`  — they stop before the element that follows the last one
                       looked at.
-/
import Mathlib.Data.List.Basic
import Mathlib.Data.List.Nodup
import Mathlib.Tactic.Common

namespace BudgetedWalk

universe u

variable {α : Type u}

/-! ## §1. One walk. -/

/-- The elements a walk looks at, in the order it comes to them. -/
def judged (stale : α → Bool) : Nat → Nat → List α → List α
  | 0, _, _ => []
  | _ + 1, 0, _ => []
  | _ + 1, _ + 1, [] => []
  | scan + 1, evict + 1, x :: path =>
      if stale x then x :: judged stale scan evict path
      else x :: judged stale scan (evict + 1) path

/-- The elements that a walk drops. -/
def taken (stale : α → Bool) (scan evict : Nat) (path : List α) : List α :=
  (judged stale scan evict path).filter stale

/-- The elements that a walk looks at and keeps. -/
def kept (stale : α → Bool) (scan evict : Nat) (path : List α) : List α :=
  (judged stale scan evict path).filter (fun x => !stale x)

/-- The elements that a walk does not reach. -/
def unreached (stale : α → Bool) (scan evict : Nat) (path : List α) : List α :=
  path.drop (judged stale scan evict path).length

variable (stale : α → Bool)

theorem judged_append_unreached (scan evict : Nat) (path : List α) :
    judged stale scan evict path ++ unreached stale scan evict path = path := by
  unfold unreached
  fun_induction judged stale scan evict path with
  | case1 | case2 | case3 => rfl
  | case4 scan evict x path hx ih => simpa using ih
  | case5 scan evict x path hx ih => simpa using ih

/-- **A walk drops the first `evict` stale elements** among the first `scan`. -/
theorem taken_eq (scan evict : Nat) (path : List α) :
    taken stale scan evict path = ((path.take scan).filter stale).take evict := by
  unfold taken
  fun_induction judged stale scan evict path with
  | case1 | case2 | case3 => simp
  | case4 scan evict x path hx ih => simp [hx, ih]
  | case5 scan evict x path hx ih => simp [hx, ih]

/-- A walk stops at the end of its path, or for want of a budget. -/
theorem unreached_cases (scan evict : Nat) (path : List α) :
    unreached stale scan evict path = []
      ∨ scan - (judged stale scan evict path).length = 0
      ∨ evict - (taken stale scan evict path).length = 0 := by
  unfold unreached taken
  fun_induction judged stale scan evict path with
  | case1 => exact .inr (.inl rfl)
  | case2 => exact .inr (.inr rfl)
  | case3 => exact .inl rfl
  | case4 scan evict x path hx ih => simpa [hx] using ih
  | case5 scan evict x path hx ih => simpa [hx] using ih

@[simp] theorem judged_no_scan (evict : Nat) (path : List α) : judged stale 0 evict path = [] := by
  simp [judged]

@[simp] theorem judged_no_evict (scan : Nat) (path : List α) : judged stale scan 0 path = [] := by
  cases scan <;> simp [judged]

@[simp] theorem judged_nil (scan evict : Nat) : judged stale scan evict ([] : List α) = [] := by
  cases scan <;> cases evict <;> simp [judged]

/-- A walk with budget looks at the first element of its path. -/
theorem judged_ne_nil {scan evict : Nat} {path : List α} (hscan : 0 < scan) (hevict : 0 < evict)
    (hpath : path ≠ []) : judged stale scan evict path ≠ [] := by
  fun_induction judged stale scan evict path with
  | case1 => omega
  | case2 => omega
  | case3 => exact absurd rfl hpath
  | case4 | case5 => simp

/-- **Walking on**: the second part of a path is walked with the budgets the
first part left. -/
theorem judged_append (scan evict : Nat) (xs ys : List α) :
    judged stale scan evict (xs ++ ys)
      = judged stale scan evict xs
        ++ judged stale (scan - (judged stale scan evict xs).length)
            (evict - (taken stale scan evict xs).length) ys := by
  unfold taken
  fun_induction judged stale scan evict xs with
  | case1 => simp
  | case2 => simp
  | case3 => simp
  | case4 scan evict x xs hx ih => simp [judged, hx, ih]
  | case5 scan evict x xs hx ih => simp [judged, hx, ih]

theorem taken_append (scan evict : Nat) (xs ys : List α) :
    taken stale scan evict (xs ++ ys)
      = taken stale scan evict xs
        ++ taken stale (scan - (judged stale scan evict xs).length)
            (evict - (taken stale scan evict xs).length) ys := by
  conv_lhs => rw [taken, judged_append, List.filter_append]
  rfl

theorem taken_subset (scan evict : Nat) (path : List α) :
    taken stale scan evict path ⊆ judged stale scan evict path :=
  List.filter_subset_self _

theorem judged_map {β : Type u} (f : β → α) (scan evict : Nat) (path : List β) :
    judged stale scan evict (path.map f)
      = (judged (fun x => stale (f x)) scan evict path).map f := by
  fun_induction judged (fun x => stale (f x)) scan evict path with
  | case1 | case2 | case3 => simp [judged]
  | case4 scan evict x path hx ih => simp [judged, hx, ih]
  | case5 scan evict x path hx ih => simp [judged, hx, ih]

theorem kept_map {β : Type u} (f : β → α) (scan evict : Nat) (path : List β) :
    kept stale scan evict (path.map f)
      = (kept (fun x => stale (f x)) scan evict path).map f := by
  rw [kept, judged_map, List.filter_map]
  rfl

theorem unreached_map {β : Type u} (f : β → α) (scan evict : Nat) (path : List β) :
    unreached stale scan evict (path.map f)
      = (unreached (fun x => stale (f x)) scan evict path).map f := by
  rw [unreached, judged_map, List.length_map, ← List.map_drop]
  rfl

theorem taken_length_map {β : Type u} (f : β → α) (scan evict : Nat) (path : List β) :
    (taken stale scan evict (path.map f)).length
      = (taken (fun x => stale (f x)) scan evict path).length := by
  rw [taken, judged_map, List.filter_map, List.length_map]
  rfl

/-! ## §2. The cyclic walk. -/

/-- A cyclic walk: what it leaves before the place it stops at, and from there
on. -/
def cyclic (wrap : Bool) (scan evict : Nat) (behind ahead : List α) : List α × List α :=
  let scan' := scan - (judged stale scan evict ahead).length
  let evict' := evict - (taken stale scan evict ahead).length
  let before := behind ++ kept stale scan evict ahead
  if wrap ∧ unreached stale scan evict ahead = [] ∧ 0 < scan' ∧ 0 < evict' then
    (kept stale scan' evict' before, unreached stale scan' evict' before)
  else (before, unreached stale scan evict ahead)

theorem cyclic_map {β : Type u} (f : β → α) (wrap : Bool) (scan evict : Nat)
    (behind ahead : List β) :
    cyclic stale wrap scan evict (behind.map f) (ahead.map f)
      = Prod.map (List.map f) (List.map f)
          (cyclic (fun x => stale (f x)) wrap scan evict behind ahead) := by
  simp only [cyclic, kept_map, unreached_map, judged_map, taken_length_map, List.length_map,
    ← List.map_append, List.map_eq_nil_iff]
  split <;> rfl

/-! ## §3. What a walk leaves of a list without repetition. -/

section Tour

variable [DecidableEq α]

/-- Behind the first part of a list without repetition, nothing of that part is
met again. -/
theorem filter_notMem_of_nodup {xs ys gone : List α} (hnd : (xs ++ ys).Nodup) (hgone : gone ⊆ xs) :
    ys.filter (fun x => x ∉ gone) = ys := by
  refine List.filter_eq_self.mpr fun y hy => ?_
  have hxs : y ∉ xs := fun hx => (List.nodup_append.mp hnd).2.2 y hx y hy rfl
  exact decide_eq_true fun hmem => hxs (hgone hmem)

/-- The elements that a walk keeps or does not reach are its path without those it dropped. -/
theorem kept_append_unreached {scan evict : Nat} {path : List α} (hnd : path.Nodup) :
    kept stale scan evict path ++ unreached stale scan evict path
      = path.filter (fun x => x ∉ taken stale scan evict path) := by
  have hsplit := judged_append_unreached stale scan evict path
  have hkept : (judged stale scan evict path).filter (fun x => x ∉ taken stale scan evict path)
      = kept stale scan evict path := by
    refine List.filter_congr fun x hx => ?_
    simp [taken, hx]
  have hrest : (unreached stale scan evict path).filter
      (fun x => x ∉ taken stale scan evict path) = unreached stale scan evict path :=
    filter_notMem_of_nodup (hsplit.symm ▸ hnd) (taken_subset stale scan evict path)
  calc kept stale scan evict path ++ unreached stale scan evict path
      = (judged stale scan evict path ++ unreached stale scan evict path).filter
          (fun x => x ∉ taken stale scan evict path) := by rw [List.filter_append, hkept, hrest]
    _ = path.filter (fun x => x ∉ taken stale scan evict path) := by rw [hsplit]

/-- Dropping in two goes is dropping at once. -/
theorem filter_notMem_append (l gone gone' : List α) :
    (l.filter (fun x => x ∉ gone)).filter (fun x => x ∉ gone')
      = l.filter (fun x => x ∉ gone ++ gone') := by
  rw [List.filter_filter]
  refine List.filter_congr fun x _ => ?_
  simp [Bool.and_comm]

/-- The element that follows `x` once `gone` is out of the list. -/
def follower (gone : List α) (x : α) (l : List α) : Option α :=
  ((l.dropWhile (fun y => y ≠ x)).tail.filter (fun y => y ∉ gone)).head?

theorem dropWhile_ne_of_nodup {xs ys : List α} {x : α} (hnd : (xs ++ x :: ys).Nodup) :
    (xs ++ x :: ys).dropWhile (fun y => y ≠ x) = x :: ys := by
  have hne : ∀ y ∈ xs, decide (y ≠ x) = true := fun y hy =>
    decide_eq_true ((List.nodup_append.mp hnd).2.2 y hy x (by simp))
  rw [List.dropWhile_append_of_pos hne, List.dropWhile_cons_of_neg (by simp)]

theorem follower_of_nodup {xs ys gone : List α} {x : α} (hnd : (xs ++ x :: ys).Nodup) :
    follower gone x (xs ++ x :: ys) = (ys.filter (fun y => y ∉ gone)).head? := by
  rw [follower, dropWhile_ne_of_nodup hnd, List.tail_cons]

/-- Taking elements out beforehand does not change what follows. -/
theorem follower_filter {gone : List α} (gone' : List α) {x : α} (hx : x ∉ gone) (l : List α) :
    follower gone' x (l.filter (fun y => y ∉ gone)) = follower (gone ++ gone') x l := by
  induction l with
  | nil => rfl
  | cons y l ih =>
      by_cases hyx : y = x
      · subst hyx
        simp [follower, hx, Bool.and_comm]
      · by_cases hy : y ∈ gone
        · simpa [follower, hyx, hy] using ih
        · simpa [follower, hyx, hy] using ih

/-! ## §4. A cyclic walk is one walk over the path of both laps. -/

/-- The path of a cyclic walk: from where it starts to the end, and if it may
wrap once more over the whole list, without what it has dropped by then. -/
def tour (wrap : Bool) (scan evict : Nat) (behind ahead : List α) : List α :=
  ahead ++ if wrap then (behind ++ ahead).filter (fun x => x ∉ taken stale scan evict ahead) else []

/-- When the first lap does not wrap, the rest of the path is not looked at. -/
theorem judged_tour_of_stop {wrap : Bool} {scan evict : Nat} {behind ahead : List α}
    (hstop : ¬ (wrap = true ∧ unreached stale scan evict ahead = []
      ∧ 0 < scan - (judged stale scan evict ahead).length
      ∧ 0 < evict - (taken stale scan evict ahead).length)) :
    judged stale scan evict (tour stale wrap scan evict behind ahead)
      = judged stale scan evict ahead := by
  rw [tour, judged_append]
  cases wrap with
  | false => simp [judged_nil]
  | true =>
      rcases unreached_cases stale scan evict ahead with hrest | hspent | hspent
      · have hspent : scan - (judged stale scan evict ahead).length = 0
            ∨ evict - (taken stale scan evict ahead).length = 0 := by
          by_contra hleft
          push Not at hleft
          exact hstop ⟨rfl, hrest, Nat.pos_of_ne_zero hleft.1, Nat.pos_of_ne_zero hleft.2⟩
        rcases hspent with h | h <;> simp [h]
      · simp [hspent]
      · simp [hspent]

/-- The first lap leaves the list without what it dropped. -/
theorem lap_left (scan evict : Nat) {behind ahead : List α} (hnd : (behind ++ ahead).Nodup) :
    behind ++ kept stale scan evict ahead ++ unreached stale scan evict ahead
      = (behind ++ ahead).filter (fun x => x ∉ taken stale scan evict ahead) := by
  have hahead : ahead.Nodup := (List.nodup_append.mp hnd).2.1
  have hsub : taken stale scan evict ahead ⊆ ahead := by
    intro x hx
    rw [← judged_append_unreached stale scan evict ahead]
    exact List.mem_append_left _ (taken_subset stale scan evict ahead hx)
  have hbehind : behind.filter (fun x => x ∉ taken stale scan evict ahead) = behind :=
    filter_notMem_of_nodup (List.perm_append_comm.nodup_iff.mp hnd) hsub
  rw [List.filter_append, hbehind, ← kept_append_unreached stale hahead, List.append_assoc]

/-- **A cyclic walk leaves the list without what one walk over its tour drops**,
in the order the list had. -/
theorem cyclic_left (wrap : Bool) (scan evict : Nat) {behind ahead : List α}
    (hnd : (behind ++ ahead).Nodup) :
    (cyclic stale wrap scan evict behind ahead).1 ++ (cyclic stale wrap scan evict behind ahead).2
      = (behind ++ ahead).filter
          (fun x => x ∉ taken stale scan evict (tour stale wrap scan evict behind ahead)) := by
  have hlap := lap_left stale scan evict hnd
  by_cases hwrap : wrap = true ∧ unreached stale scan evict ahead = []
      ∧ 0 < scan - (judged stale scan evict ahead).length
      ∧ 0 < evict - (taken stale scan evict ahead).length
  · -- the second lap goes over what the first one left
    obtain ⟨rfl, hrest, -, -⟩ := id hwrap
    rw [hrest, List.append_nil] at hlap
    have hnd' := hlap ▸ hnd.filter (fun x => x ∉ taken stale scan evict ahead)
    rw [cyclic, if_pos hwrap, kept_append_unreached stale hnd', tour, if_pos rfl,
      taken_append stale scan evict ahead, ← filter_notMem_append, hlap]
  · rw [cyclic, if_neg hwrap, taken, judged_tour_of_stop stale hwrap]
    exact hlap

/-- Where one walk stops: before the element after the last one it looked at. -/
theorem unreached_head {scan evict : Nat} (behind path gone : List α)
    (hnd : (behind ++ path).Nodup) (hscan : 0 < scan) (hevict : 0 < evict)
    (hgone : gone ⊆ behind ++ judged stale scan evict path) :
    (unreached stale scan evict path).head?
      = (judged stale scan evict path).getLast?.bind
          (fun x => follower gone x (behind ++ path)) := by
  have hsplit := judged_append_unreached stale scan evict path
  cases hlast : (judged stale scan evict path).getLast? with
  | none =>
      -- nothing was looked at, so there was nothing
      rw [List.getLast?_eq_none_iff] at hlast
      have hpath : path = [] := by
        by_contra hne
        exact judged_ne_nil stale hscan hevict hne hlast
      rw [unreached, hpath, List.drop_nil, List.head?_nil, Option.bind_none]
  | some x =>
      obtain ⟨xs, hxs⟩ := List.getLast?_eq_some_iff.mp hlast
      rw [hxs] at hsplit hgone
      have hpath : behind ++ path
          = (behind ++ xs) ++ x :: unreached stale scan evict path := by
        conv_lhs => rw [← hsplit]
        simp
      rw [hpath] at hnd
      rw [Option.bind_some, hpath, follower_of_nodup hnd, filter_notMem_of_nodup _ hgone]
      simpa using hnd

/-- **A cyclic walk stops before the element that follows the last one it looked
at**, what it dropped being gone. -/
theorem cyclic_next (wrap : Bool) {scan evict : Nat} {behind ahead : List α}
    (hnd : (behind ++ ahead).Nodup) (hscan : 0 < scan) (hevict : 0 < evict) :
    (cyclic stale wrap scan evict behind ahead).2.head?
      = (judged stale scan evict (tour stale wrap scan evict behind ahead)).getLast?.bind
          (fun x => follower
            (taken stale scan evict (tour stale wrap scan evict behind ahead)) x
            (behind ++ ahead)) := by
  by_cases hwrap : wrap = true ∧ unreached stale scan evict ahead = []
      ∧ 0 < scan - (judged stale scan evict ahead).length
      ∧ 0 < evict - (taken stale scan evict ahead).length
  · obtain ⟨rfl, hrest, hscan', hevict'⟩ := id hwrap
    have hlap := lap_left stale scan evict hnd
    rw [hrest, List.append_nil] at hlap
    have hnd' := hlap ▸ hnd.filter (fun x => x ∉ taken stale scan evict ahead)
    have hahead : judged stale scan evict ahead = ahead := by
      conv_rhs => rw [← judged_append_unreached stale scan evict ahead, hrest, List.append_nil]
    rw [cyclic, if_pos hwrap, tour, if_pos rfl, judged_append, taken_append, ← hlap, hahead]
    rw [hahead] at hscan'
    generalize scan - ahead.length = scan' at hscan' ⊢
    generalize evict - (taken stale scan evict ahead).length = evict' at hevict' ⊢
    show (unreached stale scan' evict' (behind ++ kept stale scan evict ahead)).head? = _
    have hnext := unreached_head stale [] (behind ++ kept stale scan evict ahead)
      (taken stale scan' evict' (behind ++ kept stale scan evict ahead)) hnd' hscan' hevict'
      (taken_subset stale _ _ _)
    rw [hnext]
    cases hlast : (judged stale scan' evict' (behind ++ kept stale scan evict ahead)).getLast? with
    | none =>
        -- the first lap left nothing: its last element was the last of the list
        rw [List.getLast?_eq_none_iff] at hlast
        rw [hlast, List.append_nil, Option.bind_none]
        cases hend : ahead.getLast? with
        | none => rfl
        | some x =>
            obtain ⟨xs, rfl⟩ := List.getLast?_eq_some_iff.mp hend
            rw [← List.append_assoc] at hnd ⊢
            rw [Option.bind_some, follower_of_nodup hnd]
            rfl
    | some x =>
        have hx : x ∈ behind ++ kept stale scan evict ahead := by
          rw [← judged_append_unreached stale scan' evict' (behind ++ _)]
          exact List.mem_append_left _ (List.mem_of_getLast? hlast)
        rw [hlap, List.mem_filter] at hx
        rw [List.getLast?_append, hlast, Option.some_or, Option.bind_some, Option.bind_some,
          List.nil_append, hlap, follower_filter _ (of_decide_eq_true hx.2)]
  · rw [cyclic, if_neg hwrap, taken, judged_tour_of_stop stale hwrap]
    refine unreached_head stale behind ahead _ hnd hscan hevict ?_
    exact List.subset_append_of_subset_right _ (taken_subset stale scan evict ahead)

end Tour

end BudgetedWalk
