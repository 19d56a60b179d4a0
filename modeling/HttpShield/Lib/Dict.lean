/-
  HttpShield.Lib.Dict
  ───────────────────
  Dictionaries that keep the order of insertion, as lists of keys with their values.

  A key is in the list once (`Keyed`), which setting and filtering preserve, and what is
  got behind them is as it is in the function the list stands for.

    • `get_set`, `get_filter` — what is got behind an update,
    • `ofMembers_keyed`       — a dictionary is the dictionary of its members.
-/
import Mathlib.Data.List.Basic
import Mathlib.Data.List.Nodup
import Mathlib.Logic.Function.Basic
import Mathlib.Tactic.Common

namespace Dict

variable {K α : Type}

/-- No two members of the dictionary have one key. -/
def Keyed (d : List (K × α)) : Prop := (d.map Prod.fst).Nodup

theorem Keyed.filter {d : List (K × α)} (h : Keyed d) (p : K × α → Bool) :
    Keyed (d.filter p) := h.sublist ((List.filter_sublist).map Prod.fst)

variable [DecidableEq K]

/-- `d[key] = value`. -/
def set (d : List (K × α)) (key : K) (value : α) : List (K × α) :=
  if key ∈ d.map Prod.fst then d.map fun e => if e.1 = key then (key, value) else e
  else d ++ [(key, value)]

/-- `d.get(key)`. -/
def get (d : List (K × α)) (key : K) : Option α := (d.find? fun e => e.1 = key).map Prod.snd

/-- The dictionary of some members: a repeated key keeps its place and takes the new value. -/
def ofMembers (members : List (K × α)) : List (K × α) :=
  members.foldl (fun d m => set d m.1 m.2) []

theorem set_fst (d : List (K × α)) (key : K) (value : α) :
    (set d key value).map Prod.fst
      = if key ∈ d.map Prod.fst then d.map Prod.fst else d.map Prod.fst ++ [key] := by
  unfold set
  split_ifs with hmem
  · rw [List.map_map]
    apply List.map_congr_left
    intro e _
    show (if e.1 = key then (key, value) else e).1 = e.1
    split_ifs with he
    · exact he.symm
    · rfl
  · rw [List.map_append]
    rfl

theorem Keyed.set {d : List (K × α)} (h : Keyed d) (key : K) (value : α) :
    Keyed (set d key value) := by
  unfold Keyed
  rw [set_fst]
  split_ifs with hmem
  · exact h
  · exact List.nodup_append.mpr ⟨h, List.nodup_singleton key, by
      intro k hk k' hk' heq
      rw [List.mem_singleton.mp hk'] at heq
      exact hmem (heq ▸ hk)⟩

/-- A list of members without a repeated key is its own dictionary. -/
theorem ofMembers_keyed {d : List (K × α)} (h : Keyed d) : ofMembers d = d := by
  have hfold : ∀ rest done : List (K × α), Keyed (done ++ rest) →
      rest.foldl (fun d m => set d m.1 m.2) done = done ++ rest := by
    intro rest
    induction rest with
    | nil =>
        intro done _
        exact (List.append_nil done).symm
    | cons m rest ih =>
        intro done hkeyed
        have hnew : m.1 ∉ done.map Prod.fst := by
          intro hmem
          unfold Keyed at hkeyed
          rw [List.map_append, List.nodup_append] at hkeyed
          exact hkeyed.2.2 m.1 hmem m.1 List.mem_cons_self rfl
        have hset : set done m.1 m.2 = done ++ [m] := if_neg hnew
        show rest.foldl _ (set done m.1 m.2) = _
        rw [hset, ih (done ++ [m]) (by rw [List.append_assoc]; exact hkeyed), List.append_assoc]
        rfl
  exact hfold d [] h

theorem get_cons (e : K × α) (d : List (K × α)) (key : K) :
    get (e :: d) key = if e.1 = key then some e.2 else get d key := by
  unfold get
  rw [List.find?_cons]
  split_ifs with he
  · rw [decide_eq_true he]
    rfl
  · rw [decide_eq_false he]

theorem get_none {d : List (K × α)} {key : K} (h : key ∉ d.map Prod.fst) :
    get d key = none := by
  induction d with
  | nil => rfl
  | cons e d ih =>
      rw [List.map_cons, List.mem_cons, not_or] at h
      rw [get_cons, if_neg fun he => h.1 he.symm, ih h.2]

/-- Setting a key updates the dictionary, as a function, at that key. -/
theorem get_set (d : List (K × α)) (key : K) (value : α) (key' : K) :
    get (set d key value) key'
      = Function.update (get d) key (some value) key' := by
  -- A value is put in the place of an old one, or behind all members.
  by_cases hsame : key' = key
  · subst hsame
    rw [Function.update_self]
    unfold set
    split_ifs with hmem
    · induction d with
      | nil => cases hmem
      | cons e d ih =>
          rw [List.map_cons, get_cons]
          by_cases he : e.1 = key'
          · rw [if_pos he, if_pos rfl]
          · rw [if_neg he, if_neg he]
            rw [List.map_cons, List.mem_cons] at hmem
            exact ih (hmem.resolve_left fun h => he h.symm)
    · induction d with
      | nil => exact (get_cons _ _ _).trans (if_pos rfl)
      | cons e d ih =>
          rw [List.map_cons, List.mem_cons, not_or] at hmem
          rw [List.cons_append, get_cons, if_neg fun he => hmem.1 he.symm]
          exact ih hmem.2
  · rw [Function.update_of_ne hsame]
    unfold set
    split_ifs with hmem
    · clear hmem
      induction d with
      | nil => rfl
      | cons e d ih =>
          rw [List.map_cons, get_cons, get_cons]
          by_cases he : e.1 = key
          · rw [if_pos he, if_neg fun h => hsame h.symm, if_neg fun h => hsame (h.symm.trans he)]
            exact ih
          · rw [if_neg he]
            split_ifs with he'
            · rfl
            · exact ih
    · clear hmem
      induction d with
      | nil => exact (get_cons _ _ _).trans (if_neg fun h => hsame h.symm)
      | cons e d ih =>
          rw [List.cons_append, get_cons, get_cons]
          split_ifs with he'
          · rfl
          · exact ih

/-- Filtering the members by their values filters every value that is looked up. -/
theorem get_filter {d : List (K × α)} (h : Keyed d) (p : α → Bool) (key : K) :
    get (d.filter fun e => p e.2) key = (get d key).filter p := by
  induction d with
  | nil => rfl
  | cons e d ih =>
      have hcons := List.nodup_cons.mp (show (e.1 :: d.map Prod.fst).Nodup from h)
      have ih := ih hcons.2
      rw [List.filter_cons, get_cons]
      by_cases he : e.1 = key
      · have hnone : get d key = none := get_none (he ▸ hcons.1)
        rw [if_pos he]
        by_cases hp : p e.2 = true
        · rw [if_pos hp, get_cons, if_pos he, Option.filter_some, if_pos hp]
        · rw [if_neg hp, ih, hnone, Option.filter_some, if_neg hp]
          rfl
      · rw [if_neg he]
        split_ifs with hp
        · rw [get_cons, if_neg he]
          exact ih
        · exact ih


end Dict
