/-
  HttpShield.Lib.JsonTree
  ───────────────────────
  JSON values of any depth, written without white space.

  `Written` says how a value may be written: a string in any spelling, a natural number
  in decimal, and objects and arrays of what is written, with a comma between two.  A
  writer that goes over a list shows no more than what it writes for each element
  (`written_object`, `written_array`), and how long a number gets
  (`decimal_length_le`).

    • `Written.reads` — what is written is read back, whatever follows it,
    • `Written.loads` — so it is the whole value of its text.
-/
import HttpShield.Lib.Json

namespace JsonText

/-! ## §1. Written values. -/

/-- Texts with a comma between two of them. -/
def commas (ts : List Text) : Text := [44].intercalate ts

/-- A member of an object: its key and its value, and how they are written. -/
structure Member where
  key : Text
  keyText : Text
  value : Value
  valueText : Text

/-- How the member is written. -/
def Member.text (m : Member) : Text := 34 :: (m.keyText ++ 34 :: 58 :: m.valueText)

/-- **Written values**, of any depth. -/
inductive Written : Value → Text → Prop where
  | str {t s : Text} (h : Spells t s) : Written (.str s) (34 :: (t ++ [34]))
  | nat (n : Nat) : Written (.num n 0) (decimal n)
  | obj (ms : List Member) (hkeys : ∀ m ∈ ms, Spells m.keyText m.key)
      (hvalues : ∀ m ∈ ms, Written m.value m.valueText) :
      Written (.obj (ms.map fun m => (m.key, m.value)))
        (123 :: (commas (ms.map Member.text) ++ [125]))
  | arr (vs : List (Value × Text)) (hvalues : ∀ v ∈ vs, Written v.1 v.2) :
      Written (.arr (vs.map Prod.fst)) (91 :: (commas (vs.map Prod.snd) ++ [93]))

theorem commas_cons (t t' : Text) (ts : List Text) :
    commas (t :: t' :: ts) = t ++ 44 :: commas (t' :: ts) := by
  unfold commas
  rw [List.intercalate_cons_cons, List.append_assoc]
  rfl

theorem commas_singleton (t : Text) : commas [t] = t := List.intercalate_singleton

/-- The members of a list, written with commas between them, are a written object. -/
theorem written_object {α : Type} (xs : List α) (f : α → Member)
    (hkeys : ∀ x ∈ xs, Spells (f x).keyText (f x).key)
    (hvalues : ∀ x ∈ xs, Written (f x).value (f x).valueText) :
    Written (.obj (xs.map fun x => ((f x).key, (f x).value)))
      (123 :: (commas (xs.map fun x => (f x).text) ++ [125])) := by
  have h := Written.obj (xs.map f) (List.forall_mem_map.mpr hkeys) (List.forall_mem_map.mpr hvalues)
  rw [List.map_map, List.map_map] at h
  exact h

/-- The elements of a list, written with commas between them, are a written array. -/
theorem written_array {α : Type} (xs : List α) (f : α → Value) (text : α → Text)
    (h : ∀ x ∈ xs, Written (f x) (text x)) :
    Written (.arr (xs.map f)) (91 :: (commas (xs.map text) ++ [93])) := by
  have harr := Written.arr (xs.map fun x => (f x, text x)) (List.forall_mem_map.mpr h)
  rw [List.map_map, List.map_map] at harr
  exact harr

/-! ## §2. Reading them back. -/

/-- **The text reads as the value**, with enough fuel and a stop behind it; and it begins
with something that ends no array. -/
structure Reads (v : Value) (t : Text) : Prop where
  head : ∃ c t', t = c :: t' ∧ isSpace c = false ∧ c ≠ 93
  value : ∀ rest n, Stops rest → t.length < n → value n (t ++ rest) = some (v, rest)

theorem Reads.skipSpace {v : Value} {t : Text} (h : Reads v t) (rest : Text) :
    skipSpace (t ++ rest) = t ++ rest := by
  obtain ⟨c, t', rfl, hspace, -⟩ := h.head
  exact skipSpace_cons hspace (t' ++ rest)

theorem stops_bracket (rest : Text) : Stops (93 :: rest) :=
  stops_cons rfl (by decide) rest

theorem Member.text_append (m : Member) (rest : Text) :
    m.text ++ rest = 34 :: (m.keyText ++ 34 :: (58 :: (m.valueText ++ rest))) := by
  unfold Member.text
  simp

/-- The last member of an object is read up to the closing brace. -/
theorem members_reads_last {m : Member} (hkey : Spells m.keyText m.key)
    (hvalue : Reads m.value m.valueText) (rest : Text) {n : Nat} (hn : m.valueText.length < n) :
    members (n + 1) (m.text ++ 125 :: rest) = some ([(m.key, m.value)], rest) := by
  have hread : value n (skipSpace (m.valueText ++ 125 :: rest))
      = some (m.value, 125 :: rest) := by
    rw [hvalue.skipSpace]
    exact hvalue.value (125 :: rest) n (stops_brace rest) hn
  rw [m.text_append]
  unfold members
  rw [if_neg (by decide), string_spells hkey]
  show (value n (skipSpace (m.valueText ++ 125 :: rest))).bind _ = _
  rw [hread]
  rfl

/-- A member in front of others is read up to the comma, and the others behind it. -/
theorem members_reads_more {m : Member} (hkey : Spells m.keyText m.key)
    (hvalue : Reads m.value m.valueText) {t rest : Text} {ms : List (Text × Value)}
    (hskip : skipSpace t = t) {n : Nat} (hn : m.valueText.length < n)
    (hms : members n t = some (ms, rest)) :
    members (n + 1) (m.text ++ 44 :: t) = some ((m.key, m.value) :: ms, rest) := by
  have hread : value n (skipSpace (m.valueText ++ 44 :: t)) = some (m.value, 44 :: t) := by
    rw [hvalue.skipSpace]
    exact hvalue.value (44 :: t) n (stops_comma t) hn
  rw [m.text_append]
  unfold members
  rw [if_neg (by decide), string_spells hkey]
  show (value n (skipSpace (m.valueText ++ 44 :: t))).bind _ = _
  rw [hread]
  show (members n (skipSpace t)).bind _ = _
  rw [hskip, hms]
  rfl

/-- **Members are read back**, up to the closing brace. -/
theorem members_reads (ms : List Member) (hne : ms ≠ []) (hkeys : ∀ m ∈ ms, Spells m.keyText m.key)
    (hvalues : ∀ m ∈ ms, Reads m.value m.valueText) (rest : Text) :
    ∀ n, (commas (ms.map Member.text)).length < n →
      members n (commas (ms.map Member.text) ++ 125 :: rest)
        = some (ms.map fun m => (m.key, m.value), rest) := by
  induction ms with
  | nil => exact absurd rfl hne
  | cons m ms ih =>
      intro n hn
      have hkey := hkeys m List.mem_cons_self
      have hvalue := hvalues m List.mem_cons_self
      have hlen : m.text.length = m.keyText.length + m.valueText.length + 3 := by
        unfold Member.text
        simp
        omega
      cases ms with
      | nil =>
          rw [List.map_singleton, commas_singleton] at hn ⊢
          obtain ⟨n, rfl⟩ := Nat.exists_eq_add_one_of_ne_zero (show n ≠ 0 by omega)
          exact members_reads_last hkey hvalue rest (by omega)
      | cons m' ms =>
          have hmore : commas ((m :: m' :: ms).map Member.text)
              = m.text ++ 44 :: commas ((m' :: ms).map Member.text) := commas_cons _ _ _
          rw [hmore] at hn ⊢
          rw [List.length_append, List.length_cons] at hn
          obtain ⟨n, rfl⟩ := Nat.exists_eq_add_one_of_ne_zero (show n ≠ 0 by omega)
          have hrest := ih (by simp) (fun k hk => hkeys k (List.mem_cons_of_mem _ hk))
            (fun k hk => hvalues k (List.mem_cons_of_mem _ hk)) n (by omega)
          -- the next member begins with a quote
          have hskip : skipSpace (commas ((m' :: ms).map Member.text) ++ 125 :: rest)
              = commas ((m' :: ms).map Member.text) ++ 125 :: rest := by
            cases ms <;> exact skipSpace_cons rfl _
          rw [List.append_assoc, List.cons_append]
          exact members_reads_more hkey hvalue hskip (by omega) hrest

/-- **Elements are read back**, up to the closing bracket. -/
theorem elements_reads (vs : List (Value × Text)) (hne : vs ≠ [])
    (hvalues : ∀ v ∈ vs, Reads v.1 v.2) (rest : Text) :
    ∀ n, (commas (vs.map Prod.snd)).length + 1 < n →
      elements n (commas (vs.map Prod.snd) ++ 93 :: rest) = some (vs.map Prod.fst, rest) := by
  induction vs with
  | nil => exact absurd rfl hne
  | cons v vs ih =>
      intro n hn
      have hvalue := hvalues v List.mem_cons_self
      obtain ⟨n, rfl⟩ := Nat.exists_eq_add_one_of_ne_zero (show n ≠ 0 by omega)
      -- The last element ends at the bracket, the others at a comma.
      cases vs with
      | nil =>
          rw [List.map_singleton, commas_singleton] at hn ⊢
          unfold elements
          rw [hvalue.value (93 :: rest) n (stops_bracket rest) (by omega)]
          rfl
      | cons v' vs =>
          have hmore : commas ((v :: v' :: vs).map Prod.snd)
              = v.2 ++ 44 :: commas ((v' :: vs).map Prod.snd) := commas_cons _ _ _
          rw [hmore] at hn ⊢
          rw [List.length_append, List.length_cons] at hn
          have hrest := ih (by simp) (fun k hk => hvalues k (List.mem_cons_of_mem _ hk)) n
            (by omega)
          have hskip : skipSpace (commas ((v' :: vs).map Prod.snd) ++ 93 :: rest)
              = commas ((v' :: vs).map Prod.snd) ++ 93 :: rest := by
            have hnext := hvalues v' (by simp)
            cases vs with
            | nil =>
                rw [List.map_singleton, commas_singleton]
                exact hnext.skipSpace (93 :: rest)
            | cons v'' vs =>
                rw [List.map_cons, List.map_cons, commas_cons, List.append_assoc]
                exact hnext.skipSpace _
          rw [List.append_assoc, List.cons_append]
          unfold elements
          rw [hvalue.value _ n (stops_comma _) (by omega)]
          show (elements n (skipSpace (commas ((v' :: vs).map Prod.snd) ++ 93 :: rest))).bind _ = _
          rw [hskip, hrest]
          rfl

/-- **What is written is read back.** -/
theorem Written.reads {v : Value} {t : Text} (h : Written v t) : Reads v t := by
  induction h with
  | @str t s h =>
      refine ⟨⟨34, t ++ [34], rfl, rfl, by decide⟩, ?_⟩
      intro rest n hrest hn
      obtain ⟨n, rfl⟩ := Nat.exists_eq_add_one_of_ne_zero (show n ≠ 0 by omega)
      exact value_renders (.str h) hrest n
  | nat k =>
      obtain ⟨c, ds, hdecimal, hdigit⟩ := decimal_head k
      have hne : c ≠ 93 := by
        intro hc
        subst hc
        cases hdigit
      refine ⟨⟨c, ds, hdecimal, isSpace_of_isDigit hdigit, hne⟩, ?_⟩
      intro rest n hrest hn
      obtain ⟨n, rfl⟩ := Nat.exists_eq_add_one_of_ne_zero (show n ≠ 0 by omega)
      exact value_renders (.nat k) hrest n
  | obj ms hkeys hvalues ih =>
      refine ⟨⟨123, _, rfl, rfl, by decide⟩, ?_⟩
      intro rest n _ hn
      rw [List.length_cons, List.length_append, List.length_singleton] at hn
      obtain ⟨n, rfl⟩ := Nat.exists_eq_add_one_of_ne_zero (show n ≠ 0 by omega)
      rw [List.cons_append, List.append_assoc, List.singleton_append]
      unfold value
      rw [if_neg (by decide), if_pos rfl]
      cases ms with
      | nil => rfl
      | cons m ms =>
          have hread := members_reads (m :: ms) (by simp) hkeys ih rest n (by omega)
          -- the first member begins with a quote, so the object is not the empty one
          obtain ⟨u, hu⟩ : ∃ u, commas ((m :: ms).map Member.text) = 34 :: u := by
            cases ms <;> exact ⟨_, rfl⟩
          rw [hu, List.cons_append] at hread ⊢
          rw [skipSpace_cons rfl]
          exact congrArg (Option.map _) hread
  | arr vs hvalues ih =>
      refine ⟨⟨91, _, rfl, rfl, by decide⟩, ?_⟩
      intro rest n _ hn
      rw [List.length_cons, List.length_append, List.length_singleton] at hn
      obtain ⟨n, rfl⟩ := Nat.exists_eq_add_one_of_ne_zero (show n ≠ 0 by omega)
      rw [List.cons_append, List.append_assoc, List.singleton_append]
      unfold value
      rw [if_neg (by decide), if_neg (by decide), if_pos rfl]
      cases vs with
      | nil => rfl
      | cons v vs =>
          have hread := elements_reads (v :: vs) (by simp) ih rest n (by omega)
          -- nor is the array the empty one
          obtain ⟨c, u, hu, hspace, hne⟩ :
              ∃ c u, commas ((v :: vs).map Prod.snd) = c :: u ∧ isSpace c = false ∧ c ≠ 93 := by
            obtain ⟨c, t, ht, hspace, hne⟩ := (ih v List.mem_cons_self).head
            cases vs with
            | nil => exact ⟨c, t, (commas_singleton v.2).trans ht, hspace, hne⟩
            | cons v' vs =>
                refine ⟨c, t ++ 44 :: commas ((v' :: vs).map Prod.snd), ?_, hspace, hne⟩
                rw [List.map_cons, List.map_cons, commas_cons, ht]
                rfl
          rw [hu, List.cons_append] at hread ⊢
          rw [skipSpace_cons hspace]
          split
          · rename_i hend
            exact absurd (List.cons.inj hend).1 hne
          · rw [hread]
            rfl

/-- **A written value is the value of its text**, white space behind it aside. -/
theorem Written.loads {v : Value} {t ws : Text} (h : Written v t)
    (hws : ∀ c ∈ ws, isSpace c = true) : loads (t ++ ws) = some v := by
  have hstops : Stops ws := by
    intro c r hws'
    subst hws'
    have hspace := hws c List.mem_cons_self
    unfold isSpace at hspace
    simp only [Bool.or_eq_true, beq_iff_eq] at hspace
    unfold isDigit
    simp only [Bool.and_eq_false_iff, decide_eq_false_iff_not]
    omega
  have hread := h.reads.value ws ((t ++ ws).length + 1) hstops (by
    rw [List.length_append]
    omega)
  unfold JsonText.loads
  rw [h.reads.skipSpace, hread]
  exact if_pos (List.dropWhile_eq_nil_iff.mpr hws)

/-! ## §3. How long a number is. -/

theorem decimal_length_le {n k : Nat} (h : n < 10 ^ k) (hk : 0 < k) : (decimal n).length ≤ k := by
  unfold decimal
  split
  · exact hk
  · rw [List.length_map, List.length_reverse]
    exact (Nat.digits_length_le_iff (by omega) n).mpr h

/-- A number has no more digits than it counts, zero aside. -/
theorem decimal_length_le_succ (n : Nat) : (decimal n).length ≤ n + 1 := by
  have hlt : n < 10 ^ n := Nat.lt_pow_self (by omega)
  have hpow : 10 ^ n ≤ 10 ^ (n + 1) := Nat.pow_le_pow_right (by omega) (by omega)
  exact decimal_length_le (by omega) (by omega)

end JsonText
