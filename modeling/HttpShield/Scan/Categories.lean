/-
  HttpShield.Scan.Categories
  ──────────────────────────
  What a buffer shows, one category at a time.

  A skip mask takes categories out of a scan, and that is all it does: what a buffer
  carries of one category does not depend on the others.  A hit names a category that
  the mask leaves in.

    • `shows_iff_carries`    — something live shows when a live category is carried,
    • `naiveInput_ok_iff`    — the scan is a hit exactly then,
    • `naiveInput_hit_live`  — and reports a live category that is carried.
-/
import HttpShield.Scan.Input

namespace HttpShield

/-! ## §1. Category by category. -/

/-- The copy of a buffer that is scanned for a flavour. -/
def NgxUnescape.copy (U : NgxUnescape) (flavour : Nat) (data : Bytes) : Bytes :=
  if flavour = matchRaw then ngxStrlow data else U.normalise data

/-- Something live shows in one of the two copies. -/
def NgxUnescape.Shows (U : NgxUnescape) (skip : Mask) (data : Bytes) : Prop :=
  ∃ flavour ∈ [matchRaw, matchDecoded], shieldTables.Shows flavour skip (U.copy flavour data)

instance (U : NgxUnescape) (skip : Mask) (data : Bytes) : Decidable (U.Shows skip data) :=
  inferInstanceAs (Decidable (∃ flavour ∈ [matchRaw, matchDecoded], _))

/-- A signature of the row occurs in a copy that the row is for. -/
def NgxUnescape.HasSig (U : NgxUnescape) (data : Bytes) (row : CatDef) : Prop :=
  ∃ flavour ∈ [matchRaw, matchDecoded], row.isIn flavour = true
    ∧ ∃ sig ∈ row.sigs, sig <:+: U.copy flavour data

/-- All terms of the rule occur in one copy that the rule is for. -/
def NgxUnescape.HasTerms (U : NgxUnescape) (data : Bytes) (r : RuleDef) : Prop :=
  ∃ flavour ∈ [matchRaw, matchDecoded], r.isIn flavour = true
    ∧ ∀ t ∈ r.terms, t <:+: U.copy flavour data

/-- **The buffer carries the category**: one of its signatures, or all terms of one of
its rules. -/
def NgxUnescape.Carries (U : NgxUnescape) (data : Bytes) (cat : Nat) : Prop :=
  (∃ row ∈ shieldCategories, row.cat = cat ∧ U.HasSig data row)
    ∨ ∃ r ∈ shieldRules, r.cat = cat ∧ U.HasTerms data r

/-- Something live shows exactly when a live category is carried. -/
theorem shows_iff_carries (U : NgxUnescape) (skip : Mask) (data : Bytes) :
    U.Shows skip data ↔ ∃ cat, skip.getLsbD cat = false ∧ U.Carries data cat := by
  constructor
  · rintro ⟨flavour, hflavour, ⟨row, hrow, hin, hlive, hsig⟩ | ⟨r, hr, hin, hlive, hterms⟩⟩
    · exact ⟨row.cat, hlive, .inl ⟨row, hrow, rfl, flavour, hflavour, hin, hsig⟩⟩
    · exact ⟨r.cat, hlive, .inr ⟨r, hr, rfl, flavour, hflavour, hin, hterms⟩⟩
  · rintro ⟨cat, hlive, ⟨row, hrow, rfl, flavour, hflavour, hin, hsig⟩
      | ⟨r, hr, rfl, flavour, hflavour, hin, hterms⟩⟩
    · exact ⟨flavour, hflavour, .inl ⟨row, hrow, hin, hlive, hsig⟩⟩
    · exact ⟨flavour, hflavour, .inr ⟨r, hr, hin, hlive, hterms⟩⟩

/-- All categories there are. -/
def ShieldCat.all : List ShieldCat :=
  [.sqli, .xss, .traversal, .overlong, .cmdi, .lfiRfi, .crlf, .nullbyte, .template, .deserial,
    .shellshock, .phpRce, .javaRce, .javaEval, .railsYaml, .drupal, .vbulletin, .xmlrpc, .ssi,
    .imagetragick, .httpoxy, .rangeDos, .sensitiveFile, .webshell, .ssrfMeta, .nosql, .ssti,
    .exploitPath, .ctrlChar, .dotfile]

theorem ShieldCat.mem_all (c : ShieldCat) : c ∈ ShieldCat.all := by
  cases c <;> decide

theorem ShieldCat.bit_lt (c : ShieldCat) : c.bit < 64 := by
  cases c <;> decide

theorem ShieldCat.bit_inj {c c' : ShieldCat} (h : c.bit = c'.bit) : c = c' := by
  have hall : ∀ c ∈ ShieldCat.all, ∀ c' ∈ ShieldCat.all, c.bit = c'.bit → c = c' := by decide
  exact hall c c.mem_all c' c'.mem_all h

/-- The rows and the rules are of categories. -/
theorem row_cat : ∀ row ∈ shieldCategories, ∃ c ∈ ShieldCat.all, row.cat = c.bit := by
  decide

theorem rule_cat : ∀ r ∈ shieldRules, ∃ c ∈ ShieldCat.all, r.cat = c.bit := by
  decide

/-- A category that a buffer carries is one of the module's. -/
theorem NgxUnescape.Carries.cat_eq {U : NgxUnescape} {data : Bytes} {cat : Nat}
    (h : U.Carries data cat) : ∃ c : ShieldCat, cat = c.bit := by
  rcases h with ⟨row, hrow, rfl, -⟩ | ⟨r, hr, rfl, -⟩
  · obtain ⟨c, -, hc⟩ := row_cat row hrow
    exact ⟨c, hc⟩
  · obtain ⟨c, -, hc⟩ := rule_cat r hr
    exact ⟨c, hc⟩

/-! ## §2. What a scan reports. -/

/-- **A scan is a hit exactly when something live shows.** -/
theorem naiveInput_ok_iff (U : NgxUnescape) (data source : Bytes) (skip : Mask) :
    (∃ hit, naiveInput U data source skip = .ok hit) ↔ U.Shows skip data := by
  rw [naiveInput_hit_iff]
  unfold NgxUnescape.Shows
  simp only [List.mem_cons, List.not_mem_nil, or_false, exists_eq_or_imp, exists_eq_left]
  rfl

/-- What the naive search finds is a row that the mask leaves in, and its category
shows. -/
theorem naiveScan_found {T : Tables} {flavour : Nat} {data : Bytes} {skip : Mask} {c : CatDef}
    (h : naiveScan T flavour data skip = some c) :
    skip.getLsbD c.cat = false
      ∧ ((∃ row ∈ T.categories, row.cat = c.cat ∧ row.isIn flavour = true
          ∧ ∃ sig ∈ row.sigs, sig <:+: data)
        ∨ ∃ r ∈ T.rules, r.cat = c.cat ∧ r.isIn flavour = true ∧ ∀ t ∈ r.terms, t <:+: data) := by
  unfold naiveScan at h
  cases hrows : data.inits.findSome? (T.rowAt flavour skip) with
  | some row =>
      -- a signature ends somewhere
      rw [hrows] at h
      obtain rfl : row = c := Option.some.inj h
      obtain ⟨pre, hpre, hat⟩ := List.exists_of_findSome?_eq_some hrows
      unfold Tables.rowAt at hat
      have hpred := List.find?_some hat
      simp only [Bool.and_eq_true, Bool.not_eq_true'] at hpred
      obtain ⟨sig, hsig, hends⟩ := List.any_eq_true.mp hpred.2
      have hsuffix := (of_decide_eq_true hends).isInfix
      have hprefix := ((List.mem_inits _ _).mp hpre).isInfix
      exact ⟨hpred.1.2, .inl ⟨row, List.mem_of_find?_eq_some hat, rfl, hpred.1.1, sig, hsig,
        hsuffix.trans hprefix⟩⟩
  | none =>
      rw [hrows] at h
      obtain ⟨r, hr, hrow⟩ := Option.bind_eq_some_iff.mp h
      have hcat : c.cat = r.cat := by simpa using List.find?_some hrow
      have hfires := List.find?_some hr
      simp only [RuleDef.fires, Bool.and_eq_true, Bool.not_eq_true', List.all_eq_true,
        decide_eq_true_eq] at hfires
      rw [hcat]
      exact ⟨hfires.1.2, .inr ⟨r, List.mem_of_find?_eq_some hr, rfl, hfires.1.1, hfires.2⟩⟩

/-- **A hit reports a live category that the buffer carries.** -/
theorem naiveInput_hit_live {U : NgxUnescape} {data source : Bytes} {skip : Mask} {hit : Hit}
    (h : naiveInput U data source skip = .ok hit) :
    skip.getLsbD hit.cat = false ∧ U.Carries data hit.cat := by
  have hfound : ∀ flavour ∈ [matchRaw, matchDecoded], ∀ c,
      naiveScan shieldTables flavour (U.copy flavour data) skip = some c → hit = c.hit source →
      skip.getLsbD hit.cat = false ∧ U.Carries data hit.cat := by
    intro flavour hflavour c hscan hhit
    obtain ⟨hlive, hshow⟩ := naiveScan_found hscan
    rw [hhit]
    refine ⟨hlive, ?_⟩
    rcases hshow with ⟨row, hrow, hcat, hin, hsig⟩ | ⟨r, hr, hcat, hin, hterms⟩
    · exact .inl ⟨row, hrow, hcat, flavour, hflavour, hin, hsig⟩
    · exact .inr ⟨r, hr, hcat, flavour, hflavour, hin, hterms⟩
  unfold naiveInput at h
  cases hraw : naiveScan shieldTables matchRaw (ngxStrlow data) skip with
  | some c =>
      rw [hraw] at h
      injection h with h
      exact hfound matchRaw (by simp) c hraw h.symm
  | none =>
      rw [hraw] at h
      cases hdec : naiveScan shieldTables matchDecoded (U.normalise data) skip with
      | some c =>
          rw [hdec] at h
          injection h with h
          exact hfound matchDecoded (by simp) c hdec h.symm
      | none =>
          rw [hdec] at h
          cases h

/-- Nothing shows in an empty buffer. -/
theorem not_shows_nil (U : NgxUnescape) (skip : Mask) : ¬ U.Shows skip [] := by
  rw [← naiveInput_ok_iff U [] [] skip]
  rintro ⟨hit, h⟩
  rw [naiveInput_of_short U (by simp) [] skip] at h
  cases h

end HttpShield
