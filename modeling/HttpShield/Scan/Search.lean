/-
  HttpShield.Scan.Search
  ──────────────────────
  The automaton scans as a naive search for each signature would.

  `naiveScan` says what a scan is for, without an automaton: the category that
  the first signature to end in the buffer reports, the lowest row winning at a
  tie; failing that the category of the first rule that has all of its terms
  somewhere in the buffer.

    • `acBuild_right`     — what a built automaton holds,
    • `acPass_naive`, `acRules_naive` — the two halves of a scan,
    • `acScan_eq_naive`   — the scan of an accepted automaton is `naiveScan`.
-/
import HttpShield.Scan.FailLinks

namespace HttpShield

open LongestSuffix

/-! ## §1. The naive search. -/

/-- A signature of the row ends where the buffer does. -/
def CatDef.endsAt (c : CatDef) (pre : Bytes) : Bool := c.sigs.any (fun sig => decide (sig <:+ pre))

/-- The first row of the flavour, not skipped, that has a signature ending here. -/
def Tables.rowAt (T : Tables) (flavour : Nat) (skip : Mask) (pre : Bytes) : Option CatDef :=
  T.categories.find? (fun c => c.isIn flavour && !skip.getLsbD c.cat && c.endsAt pre)

/-- The rule is of the flavour, not skipped, and all its terms occur in the buffer. -/
def RuleDef.fires (r : RuleDef) (flavour : Nat) (skip : Mask) (data : Bytes) : Bool :=
  r.isIn flavour && !skip.getLsbD r.cat && r.terms.all (fun t => decide (t <:+: data))

/-- **The naive search**: the earliest end of a signature decides, then the rules. -/
def naiveScan (T : Tables) (flavour : Nat) (data : Bytes) (skip : Mask) : Option CatDef :=
  -- a rule only speaks where no signature does, also an earlier one
  match data.inits.findSome? (T.rowAt flavour skip) with
  | some c => some c
  | none =>
      (T.rules.find? (fun r => r.fires flavour skip data)).bind
        (fun r => T.categories.find? (fun c => c.cat = r.cat))

/-- Tables as they are meant to be written: no empty signature or term, each rule
with a term, each category a bit of the mask and one row. -/
structure Tables.Valid (T : Tables) : Prop where
  sigs_ne_nil : ∀ c ∈ T.categories, ∀ sig ∈ c.sigs, sig ≠ []
  terms_ne_nil : ∀ r ∈ T.rules, ∀ t ∈ r.terms, t ≠ []
  has_terms : ∀ r ∈ T.rules, r.terms ≠ []
  cat_lt : ∀ c ∈ T.categories, c.cat < 64
  one_row : (T.categories.map (fun c => c.cat)).Nodup
  rule_cat : ∀ r ∈ T.rules, ∃ c ∈ T.categories, c.cat = r.cat

/-- Something live shows in the buffer: a signature of a row of the flavour that is not
skipped, or all terms of such a rule. -/
def Tables.Shows (T : Tables) (flavour : Nat) (skip : Mask) (data : Bytes) : Prop :=
  (∃ c ∈ T.categories, c.isIn flavour = true ∧ skip.getLsbD c.cat = false
      ∧ ∃ sig ∈ c.sigs, sig <:+: data)
    ∨ ∃ r ∈ T.rules, r.isIn flavour = true ∧ skip.getLsbD r.cat = false
      ∧ ∀ t ∈ r.terms, t <:+: data

instance (T : Tables) (flavour : Nat) (skip : Mask) (data : Bytes) :
    Decidable (T.Shows flavour skip data) := inferInstanceAs (Decidable (_ ∨ _))

/-- The naive search finds nothing exactly when nothing live shows. -/
theorem naiveScan_eq_none_iff {T : Tables} (hT : T.Valid) (flavour : Nat) (data : Bytes)
    (skip : Mask) : naiveScan T flavour data skip = none ↔ ¬ T.Shows flavour skip data := by
  have hrows : data.inits.findSome? (T.rowAt flavour skip) = none
      ↔ ¬ ∃ c ∈ T.categories, c.isIn flavour = true ∧ skip.getLsbD c.cat = false
        ∧ ∃ sig ∈ c.sigs, sig <:+: data := by
    rw [List.findSome?_eq_none_iff]
    constructor
    · rintro hnone ⟨c, hc, hin, hlive, sig, hsig, s, t, rfl⟩
      -- the row is found where the signature ends
      have hends := hnone (s ++ sig) ((List.mem_inits _ _).mpr (List.prefix_append _ t))
      have := List.find?_eq_none.mp hends c hc
      apply this
      simp only [hin, hlive, Bool.not_false, Bool.true_and]
      exact List.any_eq_true.mpr ⟨sig, hsig, decide_eq_true (List.suffix_append s sig)⟩
    · intro hno pre hpre
      unfold Tables.rowAt
      rw [List.find?_eq_none]
      intro c hc hpred
      simp only [Bool.and_eq_true, Bool.not_eq_true'] at hpred
      obtain ⟨sig, hsig, hends⟩ := List.any_eq_true.mp hpred.2
      have hsuffix := (of_decide_eq_true hends).isInfix
      have hprefix := ((List.mem_inits _ _).mp hpre).isInfix
      exact hno ⟨c, hc, hpred.1.1, hpred.1.2, sig, hsig, hsuffix.trans hprefix⟩
  have hrules : T.rules.find? (fun r => r.fires flavour skip data) = none
      ↔ ¬ ∃ r ∈ T.rules, r.isIn flavour = true ∧ skip.getLsbD r.cat = false
        ∧ ∀ t ∈ r.terms, t <:+: data := by
    rw [List.find?_eq_none]
    simp only [RuleDef.fires, Bool.and_eq_true, Bool.not_eq_true', List.all_eq_true,
      decide_eq_true_eq, not_exists, not_and, and_imp]
  unfold naiveScan Tables.Shows
  rw [not_or, ← hrows, ← hrules]
  cases data.inits.findSome? (T.rowAt flavour skip) with
  | some c => simp
  | none =>
      cases hfind : T.rules.find? (fun r => r.fires flavour skip data) with
      | none => simp
      | some r =>
          -- a rule that fires has a row to be reported as
          obtain ⟨c, hc, hcat⟩ := hT.rule_cat r (List.mem_of_find?_eq_some hfind)
          have hsome : (T.categories.find? (fun c => c.cat = r.cat)).isSome = true :=
            List.find?_isSome.mpr ⟨c, hc, decide_eq_true hcat⟩
          simp only [Option.bind_some]
          constructor
          · intro hnone
            rw [hnone] at hsome
            cases hsome
          · intro h
            cases h.2

/-- Nothing shows in the empty buffer. -/
theorem naiveScan_nil {T : Tables} (hT : T.Valid) (flavour : Nat) (skip : Mask) :
    naiveScan T flavour [] skip = none := by
  rw [naiveScan_eq_none_iff hT]
  rintro (⟨c, hc, -, -, sig, hsig, hin⟩ | ⟨r, hr, -, -, hall⟩)
  · exact hT.sigs_ne_nil c hc sig hsig (List.infix_nil.mp hin)
  · obtain ⟨t, ht⟩ := List.exists_mem_of_ne_nil _ (hT.has_terms r hr)
    exact hT.terms_ne_nil r hr t ht (List.infix_nil.mp (hall t ht))

/-! ## §2. The lowest bit. -/

/-- `n & (n - 1)` clears the lowest bit of `n`. -/
theorem testBit_and_pred {n i : Nat} (hi : n.testBit i = true) (hlow : ∀ j < i, n.testBit j = false)
    (j : Nat) : (n &&& (n - 1)).testBit j = (n.testBit j && decide (j ≠ i)) := by
  have hmod : n % 2 ^ (i + 1) = 2 ^ i := by
    refine Nat.eq_of_testBit_eq fun k => ?_
    rw [Nat.testBit_mod_two_pow, Nat.testBit_two_pow]
    rcases Nat.lt_trichotomy k i with hlt | rfl | hgt
    · simp [hlow k hlt, Nat.ne_of_gt hlt]
    · simp [hi]
    · have hge : ¬ k < i + 1 := by omega
      simp [hge, Nat.ne_of_lt hgt]
  have hpos : 0 < 2 ^ i := Nat.two_pow_pos i
  have hpow : 2 ^ (i + 1) = 2 ^ i + 2 ^ i := by rw [Nat.pow_succ]; omega
  have hn : n = 2 ^ (i + 1) * (n / 2 ^ (i + 1)) + 2 ^ i := by
    conv_lhs => rw [← Nat.div_add_mod n (2 ^ (i + 1)), hmod]
  have hpred : n - 1 = 2 ^ (i + 1) * (n / 2 ^ (i + 1)) + (2 ^ i - 1) := by omega
  have hbit : ∀ k, n.testBit k = if k < i + 1 then (2 ^ i).testBit k
      else (n / 2 ^ (i + 1)).testBit (k - (i + 1)) := by
    intro k
    conv_lhs => rw [hn]
    exact Nat.testBit_two_pow_mul_add _ (by omega) k
  have hbit' : (n - 1).testBit j = if j < i + 1 then (2 ^ i - 1).testBit j
      else (n / 2 ^ (i + 1)).testBit (j - (i + 1)) := by
    rw [hpred]
    exact Nat.testBit_two_pow_mul_add _ (by omega) j
  rw [Nat.testBit_and, hbit', hbit j]
  by_cases hj : j < i + 1
  · rw [if_pos hj, if_pos hj, Nat.testBit_two_pow, Nat.testBit_two_pow_sub_one]
    by_cases heq : i = j
    · simp [heq]
    · simp [heq]
  · rw [if_neg hj, if_neg hj]
    have hne : j ≠ i := by omega
    simp [hne]

/-- `m & (m - 1)` clears the lowest bit of a mask. -/
theorem getLsbD_and_sub_one {m : Mask} (hm : m ≠ 0) (j : Nat) :
    (m &&& (m - 1)).getLsbD j = true ↔ m.getLsbD j = true ∧ j ≠ acLowestBit m := by
  have hlow : ∀ k < m.ctz.toNat, m.toNat.testBit k = false :=
    fun k hk => BitVec.getLsbD_false_of_lt_ctz hk
  have hbit : m.toNat.testBit m.ctz.toNat = true := BitVec.getLsbD_true_ctz_of_ne_zero hm
  have hpos : 1 ≤ m.toNat := by
    rcases Nat.eq_zero_or_pos m.toNat with hz | hpos
    · exact absurd (BitVec.eq_of_toNat_eq hz) hm
    · exact hpos
  have hsub : (m - 1).toNat = m.toNat - 1 := BitVec.toNat_sub_of_le (BitVec.le_def.mpr hpos)
  have hand : (m &&& (m - 1)).getLsbD j = (m.toNat &&& (m.toNat - 1)).testBit j := by
    rw [← BitVec.testBit_toNat, BitVec.toNat_and, hsub]
  rw [hand, testBit_and_pred hbit hlow j, Bool.and_eq_true, decide_eq_true_eq,
    BitVec.testBit_toNat]
  rfl

theorem exists_getLsbD_of_ne_zero {m : Mask} (hm : m ≠ 0) : m.getLsbD (acLowestBit m) = true :=
  BitVec.getLsbD_true_ctz_of_ne_zero hm

theorem eq_zero_of_getLsbD {m : Mask} (h : ∀ k, ¬ m.getLsbD k = true) : m = 0 := by
  by_contra hm
  exact h _ (exists_getLsbD_of_ne_zero hm)

theorem lt_of_getLsbD {m : Mask} {k : Nat} (h : m.getLsbD k = true) : k < 64 :=
  BitVec.lt_of_getLsbD h

/-- **The lowest row** among the bits of a mask, and `best` itself. -/
theorem acBest_min {row : Array Nat} (hrow : row.size = 64) :
    ∀ (fuel best : Nat) (live : Mask), live ≠ 0 →
      (∀ k, live.getLsbD k = true → 64 ≤ fuel + k) →
      ∃ r, acBest row fuel best live = .ok r ∧ r ≤ best
        ∧ (∀ k, live.getLsbD k = true → r ≤ row.getD k 0)
        ∧ (r = best ∨ ∃ k, live.getLsbD k = true ∧ r = row.getD k 0) := by
  intro fuel
  induction fuel with
  | zero =>
      intro best live hne hfuel
      have hbit := exists_getLsbD_of_ne_zero hne
      have hlt := lt_of_getLsbD hbit
      have hge := hfuel _ hbit
      omega
  | succ fuel ih =>
      intro best live hne hfuel
      have hbit := exists_getLsbD_of_ne_zero hne
      have hlt := lt_of_getLsbD hbit
      have hclear := fun k => getLsbD_and_sub_one hne k
      unfold acBest
      rw [load_eq (by rw [hrow]; exact hlt) 0, ok_bind]
      have hmin : (if row.getD (acLowestBit live) 0 < best then row.getD (acLowestBit live) 0
          else best) = min (row.getD (acLowestBit live) 0) best := by
        split <;> omega
      simp only [hmin]
      by_cases hlast : live &&& (live - 1) = 0
      · -- the lowest bit is the only one
        have honly : ∀ k, live.getLsbD k = true → k = acLowestBit live := by
          intro k hk
          by_contra hne'
          have := (hclear k).mpr ⟨hk, hne'⟩
          rw [hlast] at this
          simp at this
        rw [if_pos hlast]
        refine ⟨_, rfl, Nat.min_le_right _ _, ?_, ?_⟩
        · intro k hk
          rw [honly k hk]
          exact Nat.min_le_left _ _
        · rcases Nat.le_total (row.getD (acLowestBit live) 0) best with hle | hle
          · exact .inr ⟨_, hbit, Nat.min_eq_left hle⟩
          · exact .inl (Nat.min_eq_right hle)
      · rw [if_neg hlast]
        have hfuel' : ∀ k, (live &&& (live - 1)).getLsbD k = true → 64 ≤ fuel + k := by
          intro k hk
          obtain ⟨hk, hne'⟩ := (hclear k).mp hk
          -- the other bits are above the lowest
          have hgt : acLowestBit live < k := by
            by_contra hle
            have hlow : live.getLsbD k = false := BitVec.getLsbD_false_of_lt_ctz (by
              show k < acLowestBit live
              omega)
            rw [hlow] at hk
            exact Bool.false_ne_true hk
          have := hfuel _ hbit
          omega
        obtain ⟨r, hr, hle, hall, hwho⟩ := ih _ _ hlast hfuel'
        refine ⟨r, hr, by omega, ?_, ?_⟩
        · intro k hk
          by_cases hk' : k = acLowestBit live
          · rw [hk']
            omega
          · exact hall k ((hclear k).mpr ⟨hk, hk'⟩)
        · rcases hwho with rfl | ⟨k, hk, rfl⟩
          · rcases Nat.le_total (row.getD (acLowestBit live) 0) best with hle' | hle'
            · exact .inr ⟨_, hbit, Nat.min_eq_left hle'⟩
            · exact .inl (Nat.min_eq_right hle')
          · exact .inr ⟨k, ((hclear k).mp hk).1, rfl⟩

/-! ## §3. The map from bits to rows. -/

/-- The bits of the rows in `K` are mapped to their rows. -/
def RowsMapped (T : Tables) (K : CatDef → Prop) (row : Array Nat) : Prop :=
  ∀ i c, T.categories[i]? = some c → K c → row.getD c.cat 0 = i

/-- No two rows have one category. -/
theorem Tables.Valid.row_inj {T : Tables} (hT : T.Valid) {i j : Nat} {c d : CatDef}
    (hi : T.categories[i]? = some c) (hj : T.categories[j]? = some d) (h : c.cat = d.cat) :
    i = j := by
  obtain ⟨hlt, rfl⟩ := List.getElem?_eq_some_iff.mp hi
  obtain ⟨hlt', rfl⟩ := List.getElem?_eq_some_iff.mp hj
  have hnd := List.nodup_iff_injective_get.mp hT.one_row
  have := @hnd ⟨i, by simpa using hlt⟩ ⟨j, by simpa using hlt'⟩ (by simpa using h)
  exact congrArg Fin.val this

/-- Storing the number of one row maps that row as well. -/
theorem RowsMapped.store {T : Tables} (hT : T.Valid) {K : CatDef → Prop} {row : Array Nat}
    (hrow : row.size = 64) (h : RowsMapped T K row) {i : Nat} {c : CatDef}
    (hi : T.categories[i]? = some c) :
    ∃ row', store row c.cat i = .ok row' ∧ row'.size = 64
      ∧ RowsMapped T (fun d => K d ∨ d = c) row' := by
  have hcat := hT.cat_lt c (List.mem_of_getElem? hi)
  obtain ⟨row', hstore, hsize, hget⟩ :=
    store_eq (show c.cat < row.size by rw [hrow]; exact hcat) i 0
  refine ⟨row', hstore, hsize.trans hrow, ?_⟩
  intro j d hj hd
  rw [hget]
  by_cases heq : d.cat = c.cat
  · rw [if_pos heq]
    exact hT.row_inj hi hj heq.symm
  · rw [if_neg heq]
    refine h j d hj (hd.resolve_right ?_)
    intro heq
    subst heq
    exact heq rfl

theorem RowsMapped.mono {T : Tables} {K K' : CatDef → Prop} {row : Array Nat}
    (h : RowsMapped T K row) (hsub : ∀ c, K' c → K c) : RowsMapped T K' row :=
  fun i c hi hc => h i c hi (hsub c hc)

theorem acRows_mapped {T : Tables} (hT : T.Valid) (flavour : Nat) :
    ∀ (cats before : List CatDef) (row : Array Nat), T.categories = before ++ cats →
      row.size = 64 → RowsMapped T (fun c => c ∈ before ∧ c.isIn flavour = true) row →
      ∃ row', acRows flavour before.length row cats = .ok row' ∧ row'.size = 64
        ∧ RowsMapped T (fun c => c ∈ T.categories ∧ c.isIn flavour = true) row' := by
  intro cats
  induction cats with
  | nil =>
      intro before row hsplit hrow h
      rw [hsplit, List.append_nil]
      exact ⟨row, rfl, hrow, h⟩
  | cons c cats ih =>
      intro before row hsplit hrow h
      have hc : T.categories[before.length]? = some c := by
        rw [hsplit]
        simp
      have hsplit' : T.categories = (before ++ [c]) ++ cats := by
        rw [hsplit, List.append_assoc]
        rfl
      have hlen : (before ++ [c]).length = before.length + 1 := by simp
      unfold acRows
      by_cases hin : c.isIn flavour = true
      · obtain ⟨row₁, hstore, hsize, h₁⟩ := h.store hT hrow hc
        obtain ⟨row', hrest, hsize', h'⟩ := ih (before ++ [c]) row₁ hsplit' hsize
          (h₁.mono fun d hd => by
            rcases List.mem_append.mp hd.1 with hb | hb
            · exact .inl ⟨hb, hd.2⟩
            · exact .inr (List.mem_singleton.mp hb))
        rw [hlen] at hrest
        exact ⟨row', by rw [if_pos hin, hstore, ok_bind, hrest], hsize', h'⟩
      · obtain ⟨row', hrest, hsize', h'⟩ := ih (before ++ [c]) row hsplit' hrow
          (h.mono fun d hd => by
            rcases List.mem_append.mp hd.1 with hb | hb
            · exact ⟨hb, hd.2⟩
            · obtain rfl := List.mem_singleton.mp hb
              exact absurd hd.2 hin)
        rw [hlen] at hrest
        exact ⟨row', by rw [if_neg hin, hrest], hsize', h'⟩

theorem acRuleRows_mapped {T : Tables} (hT : T.Valid) (flavour : Nat) :
    ∀ (rules : List RuleDef) (row : Array Nat) (K : CatDef → Prop),
      (∀ r ∈ rules, ∃ c ∈ T.categories, c.cat = r.cat) → row.size = 64 → RowsMapped T K row →
      ∃ row', acRuleRows T flavour row rules = .ok row' ∧ row'.size = 64
        ∧ RowsMapped T
          (fun c => K c ∨ ∃ r ∈ rules, r.isIn flavour = true ∧ r.cat = c.cat) row' := by
  intro rules
  induction rules with
  | nil =>
      intro row K _ hrow h
      exact ⟨row, rfl, hrow, h.mono fun c hc => by simpa using hc⟩
  | cons r rules ih =>
      intro row K hcats hrow h
      have hcats' : ∀ r ∈ rules, ∃ c ∈ T.categories, c.cat = r.cat :=
        fun r' hr' => hcats r' (List.mem_cons_of_mem _ hr')
      unfold acRuleRows
      by_cases hin : r.isIn flavour = true
      · rw [if_pos hin]
        cases hfind : T.categories.findIdx? (fun c => decide (c.cat = r.cat)) with
        | none =>
            -- the category of a rule has a row
            obtain ⟨c, hc, hcat⟩ := hcats r (by simp)
            have := List.findIdx?_eq_none_iff.mp hfind c hc
            simp [hcat] at this
        | some j =>
            obtain ⟨hlt, hcat, -⟩ := List.findIdx?_eq_some_iff_getElem.mp hfind
            have hj : T.categories[j]? = some T.categories[j] := List.getElem?_eq_getElem hlt
            have hcat' : T.categories[j].cat = r.cat := by simpa using hcat
            obtain ⟨row₁, hstore, hsize, h₁⟩ := h.store hT hrow hj
            obtain ⟨row', hrest, hsize', h'⟩ := ih row₁ _ hcats' hsize h₁
            rw [hcat'] at hstore
            refine ⟨row', by simp only [hstore, ok_bind, hrest], hsize', ?_⟩
            intro i c hi hc
            refine h' i c hi ?_
            rcases hc with hc | ⟨r', hr', hin', hcat''⟩
            · exact .inl (.inl hc)
            · rcases List.mem_cons.mp hr' with rfl | hr'
              · obtain rfl := hT.row_inj hi hj (hcat''.symm.trans hcat'.symm)
                rw [hj] at hi
                exact .inl (.inr (Option.some.inj hi).symm)
              · exact .inr ⟨r', hr', hin', hcat''⟩
      · obtain ⟨row', hrest, hsize', h'⟩ := ih row K hcats' hrow h
        refine ⟨row', by rw [if_neg hin, hrest], hsize', h'.mono fun c hc => ?_⟩
        rcases hc with hc | ⟨r', hr', hin', hcat⟩
        · exact .inl hc
        · rcases List.mem_cons.mp hr' with rfl | hr'
          · exact absurd hin' hin
          · exact .inr ⟨r', hr', hin', hcat⟩

/-! ## §4. What a built automaton holds. -/

/-- **A right automaton**: its states are the words of a trie, each transition leads
to the longest suffix, and the masks say what ends there. -/
structure Ac.Right (T : Tables) (flavour cap : Nat) (words : List Bytes) (ac : Ac) : Prop where
  trie : IsTrie cap words
  nstates : ac.nstates ≠ 0
  next_size : ac.next.size = cap * acAlphabet
  out_size : ac.out.size = cap
  rout_size : ac.rout.size = cap
  row_size : ac.row.size = 64
  goto : ∀ s w b, words[s]? = some w → ac.next.getD (acCell s b) 0 = stateOf words (w ++ [b])
  out : ∀ s w k, words[s]? = some w →
    ((ac.out.getD s 0).getLsbD k = true ↔ ∃ p, p <:+ w ∧ Marks flavour T.categories p k)
  rout : ∀ s w k, words[s]? = some w →
    ((ac.rout.getD s 0).getLsbD k = true ↔ ∃ p, p <:+ w ∧ TermAt flavour 0 T.rules p k)
  marks_mem : ∀ p k, Marks flavour T.categories p k → p ∈ words
  terms_mem : ∀ p k, TermAt flavour 0 T.rules p k → p ∈ words
  need : NeedsOf flavour 0 T.rules ac.need
  row : RowsMapped T (fun c => c.isIn flavour = true
    ∨ ∃ r ∈ T.rules, r.isIn flavour = true ∧ r.cat = c.cat) ac.row

/-- A rule term is one of the terms of a rule. -/
theorem TermAt.mem {flavour : Nat} {p : Bytes} {k : Nat} :
    ∀ {rules : List RuleDef} {term : Nat}, TermAt flavour term rules p k →
      ∃ r ∈ rules, p ∈ r.terms := by
  intro rules
  induction rules with
  | nil =>
      intro term h
      exact h.elim
  | cons r rules ih =>
      intro term h
      rcases h with ⟨-, j, hj, -⟩ | h
      · exact ⟨r, List.mem_cons_self, List.mem_of_getElem? hj⟩
      · obtain ⟨r', hr', hp⟩ := ih h
        exact ⟨r', List.mem_cons_of_mem _ hr', hp⟩

theorem getD_replicate {α : Type} (n i : Nat) (d : α) : (Array.replicate n d).getD i d = d := by
  rw [Array.getD_eq_getD_getElem?, Array.getElem?_replicate]
  split <;> rfl

/-- The trie of the root alone holds the empty word. -/
theorem Trie.holds_root {cap : Nat} (hcap : 1 ≤ cap) :
    Trie.Holds cap
      { next := Array.replicate (cap * acAlphabet) 0
        out := Array.replicate cap 0
        rout := Array.replicate cap 0
        nstates := 1 } [[]] (fun _ _ => False) (fun _ _ => False) where
  count := rfl
  root := rfl
  nodup := by simp
  closed := ⟨by simp, by simp⟩
  fits := hcap
  next_size := Array.size_replicate
  out_size := Array.size_replicate
  rout_size := Array.size_replicate
  goto := by
    intro s w b _
    have hout : w ++ [b] ∉ [([] : Bytes)] := by simp
    unfold child
    rw [if_neg hout]
    exact getD_replicate _ _ 0
  blank := fun s b _ => getD_replicate _ _ 0
  out := by
    intro s k
    show ((Array.replicate cap 0).getD s (0 : Mask)).getLsbD k = true ↔ _
    rw [getD_replicate]
    simp
  rout := by
    intro s k
    show ((Array.replicate cap 0).getD s (0 : Mask)).getLsbD k = true ↔ _
    rw [getD_replicate]
    simp
  marked := by simp

/-- The part of the builder that fills the tables. -/
theorem acConstruct_right {T : Tables} (hT : T.Valid) {flavour : Nat} (hterms : T.nterms ≤ 64)
    (hmax : T.cap flavour ≤ acMaxStates) :
    ∃ ac words, acConstruct T flavour = .ok ac ∧ ac.Right T flavour (T.cap flavour) words := by
  have hcap : T.cap flavour
      = 1 + catsLength flavour T.categories + rulesLength flavour T.rules := rfl
  -- the rows
  obtain ⟨row₁, hrow₁, hsize₁, hmap₁⟩ := acRows_mapped hT flavour T.categories []
    (Array.replicate 64 T.ncategories) rfl Array.size_replicate (by
      intro i c _ hc
      simp at hc)
  obtain ⟨row, hrow, hsize, hmap⟩ := acRuleRows_mapped hT flavour T.rules row₁ _ hT.rule_cat hsize₁
    hmap₁
  -- pass 1 and pass 1b
  have hroot := @Trie.holds_root (T.cap flavour) (by omega)
  obtain ⟨t₁, words₁, hadd₁, h₁, hle₁⟩ := @acAddCategories_holds _ flavour hmax _ T.categories
    _ _ _ hT.cat_lt hroot (by show 1 + _ ≤ _; omega)
  have hle₁' : t₁.nstates ≤ 1 + catsLength flavour T.categories := hle₁
  obtain ⟨t, words, needs, hadd, h, -, hneeds⟩ := @acAddRules_holds _ flavour hmax _ T.rules
    t₁ words₁ _ 0 h₁ (by omega) (by show 0 + T.nterms ≤ 64; omega)
  have ht : t.Holds (T.cap flavour) words (Marks flavour T.categories)
      (TermAt flavour 0 T.rules) := h.congr (by simp) (by simp)
  have hmarks : ∀ p k, Marks flavour T.categories p k → p ∈ words :=
    fun p k hk => ht.marked p k (.inl hk)
  have htermsMem : ∀ p k, TermAt flavour 0 T.rules p k → p ∈ words :=
    fun p k hk => ht.marked p k (.inr hk)
  have hw := ht.isTrie
  -- no signature and no term is empty
  have hempty : ∀ k, ¬ Marks flavour T.categories [] k ∧ ¬ TermAt flavour 0 T.rules [] k := by
    intro k
    constructor
    · rintro ⟨c, hc, -, -, hsig⟩
      exact hT.sigs_ne_nil c hc [] hsig rfl
    · intro hterm
      obtain ⟨r, hr, hin⟩ := hterm.mem
      exact hT.terms_ne_nil r hr [] hin rfl
  -- pass 2
  obtain ⟨queue, hseed, hlinks, hone⟩ :=
    acSeed_links ht hempty acBytes #[] (fun _ => False) ht.links acBytes_nodup (by simp) (by simp)
  have hround : Bfs.Round (T.cap flavour) words (Marks flavour T.categories)
      (TermAt flavour 0 T.rules)
      { next := t.next, out := t.out, rout := t.rout, fail := Array.replicate (T.cap flavour) 0,
        queue := queue } 0 :=
    Bfs.Round.begin hlinks (fun b => .inr (mem_acBytes b)) hone
  obtain ⟨g, hdrain, hg⟩ := acDrain_links hmarks htermsMem hw (T.cap flavour) 0 _ hround hw.fits
  have hfinal := hg.final hw
  have hdone : ∀ w s, words[s]? = some w → s = 0 ∨ s ∈ g.queue.toList.take g.queue.size := by
    intro w s hs
    rw [← Array.length_toList, List.take_length]
    exact hfinal w s hs
  refine ⟨{ next := g.next, out := g.out, nstates := t.nstates, rout := g.rout, need := needs,
            row := row }, words, ?_, ?_⟩
  · unfold acConstruct
    simp only [List.length_nil] at hrow₁
    simp only [hrow₁, hrow, hadd₁, hadd, hseed, hdrain, ok_bind, pure_eq_ok]
  · exact
      { trie := hw
        nstates := by
          have hpos : 0 < words.length := (List.getElem?_eq_some_iff.mp hw.root).1
          have hcount := ht.count
          show t.nstates ≠ 0
          omega
        next_size := hg.links.next_size
        out_size := hg.links.out_size
        rout_size := hg.links.rout_size
        row_size := hsize
        goto := fun s w b hs => hg.links.goto_done s w b hs (hdone w s hs)
        out := fun s w k hs => (hg.links.out s w k hs).1 (hfinal w s hs)
        rout := fun s w k hs => (hg.links.rout s w k hs).1 (hfinal w s hs)
        marks_mem := hmarks
        terms_mem := htermsMem
        need := hneeds
        row := by
          intro i c hi hc
          refine hmap i c hi (hc.imp_left fun hin => ?_)
          exact ⟨List.mem_of_getElem? hi, hin⟩ }

/-- **The builder** on valid tables returns: an error, when the tables are too large
or an allocation fails, and else a right automaton. -/
theorem acBuild_right {T : Tables} (hT : T.Valid) (m : AcAllocs) (flavour : Nat) :
    ∃ r, acBuild T m flavour = .ok r
      ∧ (r = none ↔ 64 < T.nterms ∨ acMaxStates < T.cap flavour ∨ m.all = false)
      ∧ ∀ ac, r = some ac → ∃ words, ac.Right T flavour (T.cap flavour) words := by
  have hall : m.all = true
      ↔ (m.next ∧ m.out ∧ m.rout) ∧ m.temp ∧ (m.queue ∧ m.fail) := by
    simp [AcAllocs.all, and_assoc]
  -- refused, and rightly so
  have hrefused : (64 < T.nterms ∨ acMaxStates < T.cap flavour ∨ ¬ m.all = true) →
      ((none : Option Ac) = none
        ↔ 64 < T.nterms ∨ acMaxStates < T.cap flavour ∨ m.all = false) := by
    intro h
    rw [Bool.not_eq_true] at h
    exact iff_of_true rfl h
  unfold acBuild
  by_cases hterms : T.nterms > 64
  · exact ⟨none, if_pos hterms, hrefused (.inl hterms), by simp⟩
  rw [if_neg hterms]
  by_cases hmax : T.cap flavour > acMaxStates
  · exact ⟨none, if_pos hmax, hrefused (.inr (.inl hmax)), by simp⟩
  rw [if_neg hmax]
  by_cases htables : ¬ (m.next ∧ m.out ∧ m.rout)
  · exact ⟨none, if_pos htables, hrefused (.inr (.inr fun h => htables (hall.mp h).1)), by simp⟩
  rw [if_neg htables]
  by_cases htemp : ¬ (m.temp = true)
  · exact ⟨none, if_pos htemp, hrefused (.inr (.inr fun h => htemp (hall.mp h).2.1)), by simp⟩
  rw [if_neg htemp]
  by_cases hscratch : ¬ (m.queue ∧ m.fail)
  · exact ⟨none, if_pos hscratch, hrefused (.inr (.inr fun h => hscratch (hall.mp h).2.2)), by simp⟩
  rw [if_neg hscratch]
  obtain ⟨ac, words, hac, hright⟩ := acConstruct_right hT (not_lt.mp hterms) (not_lt.mp hmax)
  have hm : m.all = true := hall.mpr ⟨not_not.mp htables, not_not.mp htemp, not_not.mp hscratch⟩
  refine ⟨some ac, by rw [hac, ok_bind, pure_eq_ok], ?_, ?_⟩
  · refine iff_of_false (by simp) ?_
    rw [hm]
    rintro (h | h | h)
    · exact hterms h
    · exact hmax h
    · cases h
  · intro ac' h
    obtain rfl := Option.some.inj h
    exact ⟨words, hright⟩

/-! ## §5. The pass over the buffer.

After every byte the state is the longest suffix of what was read that is a word of the
trie, and its mask names the signatures that end there. -/

/-- The rows that report at the state of `pre`, those skipped left out. -/
theorem Ac.Right.live_iff {T : Tables} {flavour cap : Nat} {words : List Bytes} {ac : Ac}
    (h : ac.Right T flavour cap words) (skip : Mask) {pre : Bytes} {s : Nat}
    (hs : words[s]? = some (longest (· ∈ words) pre)) (k : Nat) :
    (ac.out.getD s 0 &&& ~~~skip).getLsbD k = true ↔ ∃ c ∈ T.categories,
      (c.isIn flavour && !skip.getLsbD c.cat && c.endsAt pre) = true ∧ c.cat = k := by
  have hout : (ac.out.getD s 0).getLsbD k = true
      ↔ ∃ c ∈ T.categories, c.isIn flavour = true ∧ c.endsAt pre = true ∧ c.cat = k := by
    rw [h.out s _ k hs]
    constructor
    · rintro ⟨p, hp, c, hc, hin, hk, hsig⟩
      refine ⟨c, hc, hin, ?_, hk⟩
      exact List.any_eq_true.mpr ⟨p, hsig, decide_eq_true (hp.trans (longest_suffix _ pre))⟩
    · rintro ⟨c, hc, hin, hends, hk⟩
      obtain ⟨p, hsig, hp⟩ := List.any_eq_true.mp hends
      have hmark : Marks flavour T.categories p k := ⟨c, hc, hin, hk, hsig⟩
      exact ⟨p, suffix_longest (P := (· ∈ words)) (h.marks_mem p k hmark) (of_decide_eq_true hp),
        hmark⟩
  rw [BitVec.getLsbD_and, BitVec.getLsbD_not, Bool.and_eq_true, hout]
  constructor
  · rintro ⟨⟨c, hc, hin, hends, rfl⟩, hskip⟩
    rw [Bool.and_eq_true] at hskip
    exact ⟨c, hc, by simp [hin, hends, hskip.2], rfl⟩
  · rintro ⟨c, hc, hpred, rfl⟩
    simp only [Bool.and_eq_true] at hpred
    have hbit := hout.mpr ⟨c, hc, hpred.1.1, hpred.2, rfl⟩
    have hlt := lt_of_getLsbD hbit
    exact ⟨⟨c, hc, hpred.1.1, hpred.2, rfl⟩, by rw [hpred.1.2, decide_eq_true hlt]; rfl⟩

/-- **Where something reports, the lowest row wins.** -/
theorem Ac.Right.best {T : Tables} {flavour cap : Nat} {words : List Bytes} {ac : Ac}
    (h : ac.Right T flavour cap words) (skip : Mask) {pre : Bytes} {s : Nat}
    (hs : words[s]? = some (longest (· ∈ words) pre)) (hlive : ac.out.getD s 0 &&& ~~~skip ≠ 0) :
    ∃ r c, acBest ac.row 64 T.ncategories (ac.out.getD s 0 &&& ~~~skip) = .ok r
      ∧ T.categories[r]? = some c ∧ T.rowAt flavour skip pre = some c := by
  have hiff := h.live_iff skip hs
  obtain ⟨r, hbest, -, hall, hwho⟩ :=
    acBest_min h.row_size 64 T.ncategories _ hlive (fun k _ => Nat.le_add_right 64 k)
  -- the row of a category that reports
  have hrow : ∀ i c, T.categories[i]? = some c →
      (c.isIn flavour && !skip.getLsbD c.cat && c.endsAt pre) = true → ac.row.getD c.cat 0 = i := by
    intro i c hi hpred
    simp only [Bool.and_eq_true] at hpred
    exact h.row i c hi (.inl hpred.1.1)
  have hmin : ∀ i c, T.categories[i]? = some c →
      (c.isIn flavour && !skip.getLsbD c.cat && c.endsAt pre) = true → r ≤ i := by
    intro i c hi hpred
    have hle := hall c.cat ((hiff c.cat).mpr ⟨c, List.mem_of_getElem? hi, hpred, rfl⟩)
    rwa [hrow i c hi hpred] at hle
  -- it is one of them: the bits of the mask all belong to rows
  obtain ⟨c, hc, hpred⟩ : ∃ c, T.categories[r]? = some c
      ∧ (c.isIn flavour && !skip.getLsbD c.cat && c.endsAt pre) = true := by
    have hbit := exists_getLsbD_of_ne_zero hlive
    rcases hwho with rfl | ⟨k, hk, rfl⟩
    · obtain ⟨c, hc, hpred, -⟩ := (hiff _).mp hbit
      obtain ⟨i, hi⟩ := List.getElem?_of_mem hc
      have hle := hmin i c hi hpred
      have hlt := (List.getElem?_eq_some_iff.mp hi).1
      exact absurd hlt (not_lt.mpr hle)
    · obtain ⟨c, hc, hpred, rfl⟩ := (hiff k).mp hk
      obtain ⟨i, hi⟩ := List.getElem?_of_mem hc
      rw [hrow i c hi hpred]
      exact ⟨c, hi, hpred⟩
  refine ⟨r, c, hbest, hc, ?_⟩
  obtain ⟨hlt, hget⟩ := List.getElem?_eq_some_iff.mp hc
  refine List.find?_eq_some_iff_getElem.mpr ⟨hpred, r, hlt, hget, fun j hj => ?_⟩
  rw [Bool.not_eq_true']
  by_contra hne
  have hle := hmin j _ (List.getElem?_eq_getElem (by omega)) ((Bool.not_eq_false _).mp hne)
  omega

/-- What a pass over the buffer comes to first, `pre` being what it has behind it. -/
def firstRow {β : Type} (f : Bytes → Option β) : Bytes → Bytes → Option β
  | _, [] => none
  | pre, b :: data => (f (pre ++ [b])).or (firstRow f (pre ++ [b]) data)

/-- Searching all prefixes of the data in order finds what the search byte by byte does. -/
theorem findSome?_inits {β : Type} (f : Bytes → Option β) (data : Bytes) :
    ∀ pre, data.inits.findSome? (fun v => f (pre ++ v)) = (f pre).or (firstRow f pre data) := by
  induction data with
  | nil =>
      intro pre
      simp [firstRow]
  | cons b data ih =>
      intro pre
      have htail : (data.inits.map (fun t => b :: t)).findSome? (fun v => f (pre ++ v))
          = data.inits.findSome? (fun v => f (pre ++ [b] ++ v)) := by
        rw [List.findSome?_map]
        simp [Function.comp_def]
      have hfirst : firstRow f pre (b :: data)
          = (f (pre ++ [b])).or (firstRow f (pre ++ [b]) data) := rfl
      rw [List.inits_cons, List.findSome?_cons, htail, ih, List.append_nil, hfirst]
      cases f pre <;> rfl

/-- The terms seen so far, and the terms that end here, are the terms seen next. -/
theorem seen_concat {terms : Bytes → Nat → Prop} {pre : Bytes} (b : UInt8) (k : Nat) :
    (∃ p, p <:+: pre ++ [b] ∧ terms p k)
      ↔ (∃ p, p <:+: pre ∧ terms p k) ∨ ∃ p, p <:+ pre ++ [b] ∧ terms p k := by
  simp only [List.infix_concat_iff]
  constructor
  · rintro ⟨p, hp | hp, hk⟩
    · exact .inr ⟨p, hp, hk⟩
    · exact .inl ⟨p, hp, hk⟩
  · rintro (⟨p, hp, hk⟩ | ⟨p, hp, hk⟩)
    · exact ⟨p, .inr hp, hk⟩
    · exact ⟨p, .inl hp, hk⟩

/-- **The pass over the buffer** reports the first row of the naive search, or, when
there is none, has seen the terms that occur in the buffer. -/
theorem acPass_naive {T : Tables} {flavour cap : Nat} {words : List Bytes} {ac : Ac}
    (h : ac.Right T flavour cap words) (skip : Mask) :
    ∀ (data pre : Bytes) (s : Nat) (seen : Mask),
      words[s]? = some (longest (· ∈ words) pre) →
      (∀ k, seen.getLsbD k = true ↔ ∃ p, p <:+: pre ∧ TermAt flavour 0 T.rules p k) →
      (∃ r c, acPass T ac skip s seen data = .ok (.inl r) ∧ T.categories[r]? = some c
          ∧ firstRow (T.rowAt flavour skip) pre data = some c)
        ∨ ∃ seen', acPass T ac skip s seen data = .ok (.inr seen')
          ∧ firstRow (T.rowAt flavour skip) pre data = none
          ∧ ∀ k, seen'.getLsbD k = true
            ↔ ∃ p, p <:+: pre ++ data ∧ TermAt flavour 0 T.rules p k := by
  intro data
  induction data with
  | nil =>
      intro pre s seen hs hseen
      exact .inr ⟨seen, rfl, rfl, by rw [List.append_nil]; exact hseen⟩
  | cons b data ih =>
      intro pre s seen hs hseen
      have hscap := h.trie.lt_cap hs
      -- the next state stands for the longest suffix of what is behind it
      have hload : load ac.next (acCell s b) = .ok (stateOf words (pre ++ [b])) := by
        have hlong : longest (· ∈ words) (longest (· ∈ words) pre ++ [b])
            = longest (· ∈ words) (pre ++ [b]) := (longest_append h.trie.closed pre b).symm
        rw [load_eq (by rw [h.next_size]; exact acCell_lt hscap b) 0, h.goto s _ b hs]
        unfold stateOf
        rw [hlong]
      have hs' := h.trie.getElem?_stateOf (pre ++ [b])
      have hcap' := h.trie.lt_cap hs'
      have hloadr := load_eq (by rw [h.rout_size]; exact hcap' :
        stateOf words (pre ++ [b]) < ac.rout.size) 0
      have hloado := load_eq (by rw [h.out_size]; exact hcap' :
        stateOf words (pre ++ [b]) < ac.out.size) 0
      have hseen' : ∀ k, (seen ||| ac.rout.getD (stateOf words (pre ++ [b])) 0).getLsbD k = true
          ↔ ∃ p, p <:+: pre ++ [b] ∧ TermAt flavour 0 T.rules p k := by
        intro k
        rw [BitVec.getLsbD_or, Bool.or_eq_true, hseen, h.rout _ _ k hs', seen_concat]
        refine or_congr Iff.rfl (exists_congr fun p => and_congr_left fun hk => ?_)
        exact (suffix_longest_iff (P := (· ∈ words)) (h.terms_mem p k hk)).symm
      unfold acPass firstRow
      rw [hload, ok_bind, hloadr, ok_bind, hloado, ok_bind]
      dsimp only
      by_cases hlive : ac.out.getD (stateOf words (pre ++ [b])) 0 &&& ~~~skip = 0
      · -- nothing reports here
        have hnone : T.rowAt flavour skip (pre ++ [b]) = none := by
          refine List.find?_eq_none.mpr fun c hc hpred => ?_
          have hbit := (h.live_iff skip hs' c.cat).mpr ⟨c, hc, hpred, rfl⟩
          rw [hlive] at hbit
          simp at hbit
        rw [if_pos hlive, hnone, Option.none_or]
        rcases ih (pre ++ [b]) _ _ hs' hseen' with hhit | ⟨seen', hpass, hfirst, hall⟩
        · exact .inl hhit
        · refine .inr ⟨seen', hpass, hfirst, ?_⟩
          rwa [List.append_assoc] at hall
      · obtain ⟨r, c, hbest, hc, hrow⟩ := h.best skip hs' hlive
        have hr : r < T.ncategories := (List.getElem?_eq_some_iff.mp hc).1
        rw [if_neg hlive, hbest, ok_bind, if_pos hr, hrow]
        exact .inl ⟨r, c, rfl, hc, rfl⟩

/-! ## §6. The rules. -/

theorem TermAt.le {flavour : Nat} {p : Bytes} {k : Nat} :
    ∀ {rules : List RuleDef} {term : Nat}, TermAt flavour term rules p k → term ≤ k := by
  intro rules
  induction rules with
  | nil =>
      intro term h
      exact h.elim
  | cons r rules ih =>
      intro term h
      rcases h with ⟨-, j, -, rfl⟩ | h
      · exact Nat.le_add_right term j
      · exact Nat.le_trans (Nat.le_add_right _ _) (ih h)

/-- The terms of the first rule are numbered first. -/
theorem termAt_first {flavour term : Nat} {r : RuleDef} {rules : List RuleDef}
    (hin : r.isIn flavour = true) {j : Nat} (hj : j < r.terms.length) (p : Bytes) :
    TermAt flavour term (r :: rules) p (term + j) ↔ r.terms[j] = p := by
  constructor
  · rintro (⟨-, j', hj', heq⟩ | h)
    · obtain rfl : j = j' := by omega
      rw [List.getElem?_eq_getElem hj] at hj'
      exact Option.some.inj hj'
    · have := h.le
      omega
  · intro heq
    subst heq
    exact .inl ⟨hin, j, List.getElem?_eq_getElem hj, rfl⟩

/-- The numbers from there on belong to the other rules. -/
theorem termAt_rest {flavour term : Nat} {r : RuleDef} {rules : List RuleDef} {k : Nat}
    (hk : term + r.terms.length ≤ k) (p : Bytes) :
    TermAt flavour term (r :: rules) p k ↔ TermAt flavour (term + r.terms.length) rules p k := by
  constructor
  · rintro (⟨-, j, hj, rfl⟩ | h)
    · have := (List.getElem?_eq_some_iff.mp hj).1
      omega
    · exact h
  · exact .inr

theorem and_eq_self_iff (seen need : Mask) :
    seen &&& need = need ↔ ∀ k, need.getLsbD k = true → seen.getLsbD k = true := by
  constructor
  · intro h k hk
    rw [← h, BitVec.getLsbD_and, Bool.and_eq_true] at hk
    exact hk.1
  · intro h
    refine BitVec.eq_of_getLsbD_eq fun k hk => ?_
    rw [BitVec.getLsbD_and]
    cases hneed : need.getLsbD k with
    | false => exact Bool.and_false _
    | true => rw [h k hneed, Bool.and_true]

theorem and_twoPow_ne_zero_iff (m : Mask) {n : Nat} (hn : n < 64) :
    m &&& BitVec.twoPow 64 n ≠ 0 ↔ m.getLsbD n = true := by
  constructor
  · intro h
    have hbit := exists_getLsbD_of_ne_zero h
    rw [BitVec.getLsbD_and, BitVec.getLsbD_twoPow] at hbit
    simp only [Bool.and_eq_true, decide_eq_true_eq] at hbit
    obtain ⟨hm, -, heq⟩ := hbit
    rw [heq]
    exact hm
  · intro h hzero
    have hbit : (m &&& BitVec.twoPow 64 n).getLsbD n = true := by
      rw [BitVec.getLsbD_and, BitVec.getLsbD_twoPow, h]
      simp [hn]
    rw [hzero] at hbit
    simp at hbit

/-- A rule of the automaton has seen what it needs when its terms all occur. -/
theorem need_seen_iff {flavour term : Nat} {r : RuleDef} {rules : List RuleDef} {seen need : Mask}
    {data : Bytes} (hin : r.isIn flavour = true)
    (hneed : ∀ k, need.getLsbD k = true
      ↔ r.isIn flavour = true ∧ term ≤ k ∧ k < term + r.terms.length)
    (hseen : ∀ k, term ≤ k →
      (seen.getLsbD k = true ↔ ∃ p, p <:+: data ∧ TermAt flavour term (r :: rules) p k)) :
    seen &&& need = need ↔ ∀ t ∈ r.terms, t <:+: data := by
  have hterm : ∀ j (hj : j < r.terms.length),
      seen.getLsbD (term + j) = true ↔ r.terms[j] <:+: data := by
    intro j hj
    rw [hseen _ (Nat.le_add_right term j)]
    simp only [termAt_first hin hj]
    constructor
    · rintro ⟨p, hp, rfl⟩
      exact hp
    · intro hp
      exact ⟨_, hp, rfl⟩
  rw [and_eq_self_iff]
  constructor
  · intro h t ht
    obtain ⟨j, hj, rfl⟩ := List.getElem_of_mem ht
    exact (hterm j hj).mp (h _ ((hneed _).mpr ⟨hin, by omega, by omega⟩))
  · intro h k hk
    obtain ⟨-, hle, hlt⟩ := (hneed k).mp hk
    have hj : k - term < r.terms.length := by omega
    have := (hterm (k - term) hj).mpr (h _ (List.getElem_mem hj))
    rwa [Nat.add_sub_cancel' hle] at this

/-! ## §7. The rule that reports. -/

/-- The row a rule of the automaton reports. -/
theorem Ac.Right.ruleRow {T : Tables} (hT : T.Valid) {flavour cap : Nat} {words : List Bytes}
    {ac : Ac} (h : ac.Right T flavour cap words) {r : RuleDef} (hr : r ∈ T.rules)
    (hin : r.isIn flavour = true) :
    ∃ c, load ac.row r.cat = .ok (ac.row.getD r.cat 0)
      ∧ T.categories[ac.row.getD r.cat 0]? = some c
      ∧ T.categories.find? (fun c => c.cat = r.cat) = some c := by
  obtain ⟨c, hc, hcat⟩ := hT.rule_cat r hr
  obtain ⟨i, hi⟩ := List.getElem?_of_mem hc
  have hlt : r.cat < 64 := hcat ▸ hT.cat_lt c hc
  have hrow : ac.row.getD r.cat 0 = i := hcat ▸ h.row i c hi (.inr ⟨r, hr, hin, hcat.symm⟩)
  refine ⟨c, load_eq (by rw [h.row_size]; exact hlt) 0, by rw [hrow, hi], ?_⟩
  obtain ⟨hlen, hget⟩ := List.getElem?_eq_some_iff.mp hi
  refine List.find?_eq_some_iff_getElem.mpr ⟨decide_eq_true hcat, i, hlen, hget, fun j hj => ?_⟩
  rw [Bool.not_eq_true', decide_eq_false_iff_not]
  intro hj'
  have hjlt : j < T.categories.length := by omega
  have := hT.row_inj (List.getElem?_eq_getElem hjlt) hi (hj'.trans hcat.symm)
  omega

/-- Each term of a rule of the automaton has a number. -/
theorem exists_termAt {flavour : Nat} {r : RuleDef} (hin : r.isIn flavour = true) {t : Bytes}
    (ht : t ∈ r.terms) :
    ∀ {rules : List RuleDef} (term : Nat), r ∈ rules → ∃ k, TermAt flavour term rules t k := by
  intro rules
  induction rules with
  | nil =>
      intro term hr
      simp at hr
  | cons r' rules ih =>
      intro term hr
      rcases List.mem_cons.mp hr with rfl | hr
      · obtain ⟨j, hj⟩ := List.getElem?_of_mem ht
        exact ⟨term + j, .inl ⟨hin, j, hj, rfl⟩⟩
      · obtain ⟨k, hk⟩ := ih (term + r'.terms.length) hr
        exact ⟨k, .inr hk⟩

/-- **The rules** report as the naive search does, given the terms that occur. -/
theorem acRules_naive {T : Tables} (hT : T.Valid) {flavour cap : Nat} {words : List Bytes} {ac : Ac}
    (h : ac.Right T flavour cap words) (skip : Mask) {data : Bytes} {seen : Mask} :
    ∀ (rules : List RuleDef) (term : Nat) (needs : List Mask), (∀ r ∈ rules, r ∈ T.rules) →
      NeedsOf flavour term rules needs →
      (∀ k, term ≤ k →
        (seen.getLsbD k = true ↔ ∃ p, p <:+: data ∧ TermAt flavour term rules p k)) →
      acRules T ac skip seen (rules.zip needs)
        = .ok ((rules.find? (fun r => r.fires flavour skip data)).bind
            (fun r => T.categories.find? (fun c => c.cat = r.cat))) := by
  intro rules
  induction rules with
  | nil =>
      intro term needs _ _ _
      rfl
  | cons r rules ih =>
      intro term needs hsub hneeds hseen
      obtain ⟨need, rest, rfl, hneed, hrest⟩ := hneeds
      have hr : r ∈ T.rules := hsub r List.mem_cons_self
      have hrec := ih (term + r.terms.length) rest
        (fun r' hr' => hsub r' (List.mem_cons_of_mem _ hr')) hrest (by
          intro k hk
          rw [hseen k (by omega)]
          simp only [termAt_rest hk])
      rw [List.zip_cons_cons]
      unfold acRules
      have hskip : ∀ {b : Bool}, r.fires flavour skip data = b → b = false →
          (r :: rules).find? (fun r => r.fires flavour skip data)
            = rules.find? (fun r => r.fires flavour skip data) := by
        intro b hb hfalse
        rw [List.find?_cons, hb, hfalse]
      by_cases hin : r.isIn flavour = true
      · have hne : need ≠ 0 := by
          intro hzero
          have hpos := List.length_pos_of_ne_nil (hT.has_terms r hr)
          have hbit := (hneed term).mpr ⟨hin, Nat.le_refl _, by omega⟩
          rw [hzero] at hbit
          simp at hbit
        have hall := need_seen_iff hin hneed hseen
        have hcat : r.cat < 64 := by
          obtain ⟨c, hc, hcat⟩ := hT.rule_cat r hr
          exact hcat ▸ hT.cat_lt c hc
        rw [if_neg hne]
        by_cases hterms : ∀ t ∈ r.terms, t <:+: data
        · have hbit : maskBit r.cat = .ok (BitVec.twoPow 64 r.cat) := if_pos hcat
          have hterms' : r.terms.all (fun t => decide (t <:+: data)) = true := by
            simpa using hterms
          rw [if_neg (not_not.mpr (hall.mpr hterms)), hbit, ok_bind]
          by_cases hs : skip.getLsbD r.cat = true
          · -- the category of the rule is skipped
            rw [if_pos ((and_twoPow_ne_zero_iff skip hcat).mpr hs), hrec,
              hskip (b := false) (by simp only [RuleDef.fires, hs]; simp) rfl]
          · have hfires : r.fires flavour skip data = true := by
              simp only [RuleDef.fires, hin, hterms', hs]
              rfl
            obtain ⟨c, hload, hrow, hfind⟩ := h.ruleRow hT hr hin
            rw [if_neg (fun hne' => hs ((and_twoPow_ne_zero_iff skip hcat).mp hne')), hload, ok_bind,
              hrow, List.find?_cons, hfires]
            simp only [Option.bind_some, hfind, pure_eq_ok]
        · -- a term is missing
          have hterms' : r.terms.all (fun t => decide (t <:+: data)) = false := by
            rw [← Bool.not_eq_true]
            simpa using hterms
          rw [if_pos (fun heq => hterms (hall.mp heq)), hrec,
            hskip (b := false) (by simp only [RuleDef.fires, hterms', Bool.and_false]) rfl]
      · -- a rule of the other flavour needs nothing
        have hzero : need = 0 := eq_zero_of_getLsbD fun k hk => hin ((hneed k).mp hk).1
        have hout : r.isIn flavour = false := by simpa using hin
        rw [if_pos hzero, hrec,
          hskip (b := false) (by simp only [RuleDef.fires, hout, Bool.false_and]) rfl]

/-! ## §8. The scan. -/

/-- **The scan of a right automaton is the naive search.** -/
theorem Ac.Right.scan {T : Tables} (hT : T.Valid) {flavour cap : Nat} {words : List Bytes} {ac : Ac}
    (h : ac.Right T flavour cap words) (data : Bytes) (skip : Mask) :
    acScan T ac data skip = .ok (naiveScan T flavour data skip) := by
  have hroot : words[0]? = some (longest (· ∈ words) []) := h.trie.root
  -- nothing ends, and no term occurs, before the first byte
  have hnone : T.rowAt flavour skip [] = none := by
    refine List.find?_eq_none.mpr fun c hc hpred => ?_
    simp only [Bool.and_eq_true] at hpred
    obtain ⟨sig, hsig, hends⟩ := List.any_eq_true.mp hpred.2
    exact hT.sigs_ne_nil c hc sig hsig (List.suffix_nil.mp (of_decide_eq_true hends))
  have hseen : ∀ k, (0 : Mask).getLsbD k = true
      ↔ ∃ p, p <:+: ([] : Bytes) ∧ TermAt flavour 0 T.rules p k := by
    intro k
    simp only [List.infix_nil]
    constructor
    · intro hk
      simp at hk
    · rintro ⟨p, rfl, hk⟩
      obtain ⟨r, hr, hmem⟩ := hk.mem
      exact absurd rfl (hT.terms_ne_nil r hr [] hmem)
  have hinits := findSome?_inits (T.rowAt flavour skip) data []
  simp only [List.nil_append, hnone, Option.none_or] at hinits
  unfold acScan naiveScan
  rw [if_neg h.nstates, hinits]
  rcases acPass_naive h skip data [] 0 0 hroot hseen with
    ⟨r, c, hpass, hc, hfirst⟩ | ⟨seen, hpass, hfirst, hall⟩
  · rw [hpass, ok_bind, hfirst]
    simp only [hc, pure_eq_ok]
  · rw [List.nil_append] at hall
    have hrules := acRules_naive hT h skip T.rules 0 ac.need (fun _ hr => hr) h.need
      (fun k _ => hall k)
    rw [hpass, ok_bind, hfirst]
    dsimp only
    by_cases hzero : seen = 0
    · -- no term occurs, so no rule fires
      rw [if_pos hzero, pure_eq_ok]
      have hnofire : T.rules.find? (fun r => r.fires flavour skip data) = none := by
        refine List.find?_eq_none.mpr fun r hr hfires => ?_
        simp only [RuleDef.fires, Bool.and_eq_true] at hfires
        obtain ⟨t, ht⟩ := List.exists_mem_of_ne_nil _ (hT.has_terms r hr)
        have hoccurs := of_decide_eq_true (List.all_eq_true.mp hfires.2 t ht)
        obtain ⟨k, hk⟩ := exists_termAt hfires.1.1 ht 0 hr
        have hbit := (hall k).mpr ⟨t, hoccurs, hk⟩
        rw [hzero] at hbit
        simp at hbit
      rw [hnofire, Option.bind_none]
    · rw [if_neg hzero, hrules]

/-- **The automaton scans as a naive search would**: for all valid tables, each
flavour and whatever allocations fail, the builder returns; it refuses exactly
when the tables are too large or an allocation fails; and the scan of what it
built is the naive search, on every buffer and under every skip mask. -/
theorem acScan_eq_naive (T : Tables) (hT : T.Valid) (m : AcAllocs) (flavour : Nat) :
    ∃ r, acBuild T m flavour = .ok r
      ∧ (r = none ↔ 64 < T.nterms ∨ acMaxStates < T.cap flavour ∨ m.all = false)
      ∧ ∀ ac, r = some ac → ∀ data skip,
        acScan T ac data skip = .ok (naiveScan T flavour data skip) := by
  obtain ⟨r, hbuild, hnone, hright⟩ := acBuild_right hT m flavour
  refine ⟨r, hbuild, hnone, ?_⟩
  intro ac hac data skip
  obtain ⟨words, h⟩ := hright ac hac
  exact h.scan hT data skip

/-- Two rows that share a suffix, and a rule with a term inside a signature. -/
def overlap : Tables where
  categories :=
    [{ cat := 3, name := bytesOf "long", sigs := [bytesOf "abc"], flags := matchDecoded },
      { cat := 1, name := bytesOf "short", sigs := [bytesOf "bc", bytesOf "d"],
        flags := matchDecoded ||| matchRaw }]
  rules := [{ cat := 1, terms := [bytesOf "ab", bytesOf "e"], flags := matchDecoded }]

theorem overlap_valid : overlap.Valid where
  sigs_ne_nil := by decide
  terms_ne_nil := by decide
  has_terms := by decide
  cat_lt := by decide
  one_row := by decide
  rule_cat := by decide

/-- Where both signatures end the first row wins, unless it is skipped; with neither
of them the rule reports. -/
theorem acScan_eq_naive_overlap :
    ∃ ac, acBuild overlap AcAllocs.granted matchDecoded = .ok (some ac)
      ∧ acScan overlap ac (bytesOf "zabc") 0 = .ok overlap.categories[0]?
      ∧ acScan overlap ac (bytesOf "zabc") (BitVec.twoPow 64 3) = .ok overlap.categories[1]?
      ∧ acScan overlap ac (bytesOf "e ab") 0 = .ok overlap.categories[1]?
      ∧ acScan overlap ac (bytesOf "ab") 0 = .ok none := by
  obtain ⟨r, hbuild, hnone, hscan⟩ :=
    acScan_eq_naive overlap overlap_valid AcAllocs.granted matchDecoded
  cases r with
  | none => exact absurd (hnone.mp rfl) (by decide)
  | some ac =>
      refine ⟨ac, hbuild, ?_, ?_, ?_, ?_⟩ <;> rw [hscan ac rfl] <;> exact congrArg _ (by decide)

end HttpShield
