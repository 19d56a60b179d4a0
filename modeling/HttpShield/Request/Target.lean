/-
  HttpShield.Request.Target
  ─────────────────────────
  The policy of the request target: path against query.

  Some categories have no meaning in a query.  The target is scanned as a whole without
  them, and its path once more for them alone.

    • `inspectTarget_policy`  — what the two scans report together,
    • `query_never_reports`   — no query makes them report such a category.
-/
import HttpShield.Request.Flagged
import HttpShield.Request.Verdict

namespace HttpShield

/-! ## §1. The categories without a meaning in a query. -/

/-- The row has the flag `NGX_HTTP_SHIELD_NO_QUERY`. -/
def CatDef.IsNoQuery (c : CatDef) : Prop := c.flags &&& noQuery ≠ 0

instance (c : CatDef) : Decidable c.IsNoQuery := inferInstanceAs (Decidable (_ ≠ _))

/-- The computed mask has the bits of these rows. -/
theorem queryMask_row : ∀ row ∈ shieldCategories,
    queryMask.getLsbD row.cat = true ↔ row.IsNoQuery := by
  decide

/-- No rule is of a category that the query is not scanned for. -/
theorem queryMask_rule : ∀ r ∈ shieldRules, queryMask.getLsbD r.cat = false := by
  decide

theorem queryMask_row_eq_false {row : CatDef} (hrow : row ∈ shieldCategories) :
    queryMask.getLsbD row.cat = false ↔ ¬ row.IsNoQuery := by
  rw [← queryMask_row row hrow, Bool.not_eq_true]

/-- What is carried of such a category is a signature. -/
theorem NgxUnescape.Carries.noQuery_sig {U : NgxUnescape} {data : Bytes} {cat : Nat}
    (h : U.Carries data cat) (hquery : queryMask.getLsbD cat = true) :
    ∃ row ∈ shieldCategories, row.cat = cat ∧ row.IsNoQuery ∧ U.HasSig data row := by
  rcases h with ⟨row, hrow, rfl, hsig⟩ | ⟨r, hr, rfl, -⟩
  · exact ⟨row, hrow, rfl, (queryMask_row row hrow).mp hquery, hsig⟩
  · rw [queryMask_rule r hr] at hquery
    cases hquery

/-! ## §2. The policy. -/

/-- **A live category that has a meaning in a query** has a signature in a copy of the
target. -/
def SigInTarget (env : Env) (conf : LocConf) (t : Bytes) : Prop :=
  ∃ row ∈ shieldCategories, conf.skip.getLsbD row.cat = false ∧ ¬ row.IsNoQuery
    ∧ env.unescape.HasSig t row

/-- A rule of such a category has all its terms in one copy of the target. -/
def RuleInTarget (env : Env) (conf : LocConf) (t : Bytes) : Prop :=
  ∃ r ∈ shieldRules, conf.skip.getLsbD r.cat = false
    ∧ (∀ row ∈ shieldCategories, row.cat = r.cat → ¬ row.IsNoQuery)
    ∧ env.unescape.HasTerms t r

/-- A live category without a meaning in a query has a signature in a copy of the path. -/
def SigInPath (env : Env) (conf : LocConf) (p : Bytes) : Prop :=
  ∃ row ∈ shieldCategories, conf.skip.getLsbD row.cat = false ∧ row.IsNoQuery
    ∧ env.unescape.HasSig p row

/-- The target carries a live category in one of these three ways. -/
theorem targetCarries_iff (env : Env) (conf : LocConf) (r : Request) :
    (∃ c, conf.skip.getLsbD (ShieldCat.bit c) = false ∧ TargetCarries env r c)
      ↔ SigInTarget env conf r.unparsedUri ∨ RuleInTarget env conf r.unparsedUri
        ∨ SigInPath env conf (pathOf r.unparsedUri) := by
  constructor
  · rintro ⟨c, hlive, ⟨hquery, hcarries⟩ | ⟨hquery, hcarries⟩⟩
    · rcases hcarries with ⟨row, hrow, hcat, hsig⟩ | ⟨rule, hrule, hcat, hterms⟩
      · rw [← hcat] at hlive hquery
        exact .inl ⟨row, hrow, hlive, (queryMask_row_eq_false hrow).mp hquery, hsig⟩
      · rw [← hcat] at hlive hquery
        refine .inr (.inl ⟨rule, hrule, hlive, ?_, hterms⟩)
        intro row hrow heq
        rw [← heq] at hquery
        exact (queryMask_row_eq_false hrow).mp hquery
    · obtain ⟨row, hrow, hcat, hnoquery, hsig⟩ := hcarries.noQuery_sig hquery
      exact .inr (.inr ⟨row, hrow, hcat ▸ hlive, hnoquery, hsig⟩)
  · rintro (⟨row, hrow, hlive, hmeans, hsig⟩ | ⟨rule, hrule, hlive, -, hterms⟩
      | ⟨row, hrow, hlive, hnoquery, hsig⟩)
    · obtain ⟨c, -, hc⟩ := row_cat row hrow
      rw [hc] at hlive
      refine ⟨c, hlive, .inl ⟨?_, .inl ⟨row, hrow, hc, hsig⟩⟩⟩
      rw [← hc]
      exact (queryMask_row_eq_false hrow).mpr hmeans
    · obtain ⟨c, -, hc⟩ := rule_cat rule hrule
      rw [hc] at hlive
      refine ⟨c, hlive, .inl ⟨?_, .inr ⟨rule, hrule, hc, hterms⟩⟩⟩
      rw [← hc]
      exact queryMask_rule rule hrule
    · obtain ⟨c, -, hc⟩ := row_cat row hrow
      rw [hc] at hlive
      refine ⟨c, hlive, .inr ⟨?_, .inl ⟨row, hrow, hc, hsig⟩⟩⟩
      rw [← hc]
      exact (queryMask_row row hrow).mpr hnoquery

/-- A reported category without a meaning in a query has a signature in the path. -/
theorem targetHit_noQuery {env : Env} {conf : LocConf} {r : Request} {hit : Hit}
    (h : firstHit env (targetJobs conf r) = .ok hit)
    (hquery : queryMask.getLsbD hit.cat = true) :
    ∃ row ∈ shieldCategories, row.cat = hit.cat ∧ conf.skip.getLsbD row.cat = false
      ∧ row.IsNoQuery ∧ env.unescape.HasSig (pathOf r.unparsedUri) row := by
  obtain ⟨job, hjob, hverdict⟩ := firstHit_ok h
  obtain ⟨hlive, hcarries⟩ := naiveInput_hit_live hverdict
  have hor : job = wholeJob conf r ∨ job = pathJob conf r := by
    unfold targetJobs at hjob
    split_ifs at hjob
    · cases hjob
    · simpa using hjob
    · exact .inl (List.mem_singleton.mp hjob)
  rcases hor with rfl | rfl
  · -- the first pass does not report it
    have hmask := (or_getLsbD_eq_false.mp hlive).2
    rw [hquery] at hmask
    cases hmask
  · obtain ⟨row, hrow, hcat, hnoquery, hsig⟩ := hcarries.noQuery_sig hquery
    have hskip := (or_getLsbD_eq_false.mp hlive).1
    exact ⟨row, hrow, hcat, hcat ▸ hskip, hnoquery, hsig⟩

/-- A hit of such a category on the target is of a live signature in the path. -/
theorem SigInPath.of_hit {env : Env} {conf : LocConf} {r : Request} {hit : Hit}
    (h : firstHit env (targetJobs conf r) = .ok hit)
    (hnoquery : ∃ row ∈ shieldCategories, row.cat = hit.cat ∧ row.IsNoQuery) :
    SigInPath env conf (pathOf r.unparsedUri) := by
  obtain ⟨row, hrow, hcat, hnoquery⟩ := hnoquery
  have hquery := (queryMask_row row hrow).mpr hnoquery
  rw [hcat] at hquery
  obtain ⟨row', hrow', -, hlive, hnoquery', hsig⟩ := targetHit_noQuery h hquery
  exact ⟨row', hrow', hlive, hnoquery', hsig⟩

/-- The scans of the target return the first hit. -/
theorem inspectTarget_firstHit {env : Env} (hgranted : env.Unfailing) (conf : LocConf)
    (r : Request) (w : World) :
    ∃ w', inspectTarget env conf r w = .ok (firstHit env (targetJobs conf r), w') := by
  have hne : ∀ job ∈ targetJobs conf r, job.data ≠ [] := fun job hjob =>
    prebodyJobs_ne_nil conf r job (List.mem_append_left _ hjob)
  obtain ⟨w', hscan⟩ := scanJobs_firstHit hgranted (targetJobs conf r) hne w
  rw [inspectTarget_eq]
  exact ⟨w', hscan⟩

/-- **Path against query.**  If no allocation fails, the scans of the target report a
hit exactly when a live category with a meaning in a query has a signature, or all terms
of a rule, in a copy of the whole target, or a live category without one has a signature
in a copy of the path; and a category without one is reported for the path only. -/
theorem inspectTarget_policy (env : Env) (hgranted : env.Unfailing) (conf : LocConf) (r : Request)
    (w : World) :
    ∃ rc w', inspectTarget env conf r w = .ok (rc, w')
      ∧ ((∃ hit, rc = .ok hit)
        ↔ SigInTarget env conf r.unparsedUri ∨ RuleInTarget env conf r.unparsedUri
          ∨ SigInPath env conf (pathOf r.unparsedUri))
      ∧ ∀ hit, rc = .ok hit →
        (∃ row ∈ shieldCategories, row.cat = hit.cat ∧ row.IsNoQuery) →
        SigInPath env conf (pathOf r.unparsedUri) := by
  obtain ⟨w', hscan⟩ := inspectTarget_firstHit hgranted conf r w
  refine ⟨firstHit env (targetJobs conf r), w', hscan, ?_, ?_⟩
  · rw [firstHit_ok_iff, targetJobs_show_iff, targetCarries_iff]
  · intro hit hhit hnoquery
    exact .of_hit hhit hnoquery

/-- A script in the path of the target. -/
def scriptPath : Request := { oneBytePost with unparsedUri := bytesOf "/%3Cscript?q=1" }

/-- A script in the path of the target is a hit. -/
theorem inspectTarget_policy_script :
    ∃ A hit w', shieldInit AcAllocs.granted AcAllocs.granted true = .ok (some A)
      ∧ inspectTarget (envGranting A fun _ => true) (loggingConf .block false) scriptPath freshWorld
        = .ok (.ok hit, w') := by
  obtain ⟨A, hA⟩ := shieldInit_granted
  obtain ⟨rc, w', hinspect, hiff, -⟩ := inspectTarget_policy (envGranting A fun _ => true)
    (fun _ => rfl) (loggingConf .block false) scriptPath freshWorld
  have hsig : ngxUnescapeUri.HasSig (pathOf scriptPath.unparsedUri)
      (shieldTable .xss "xss" Signatures.xss (matchDecoded ||| noBody ||| noQuery)) :=
    ⟨matchDecoded, by simp, by decide, bytesOf "<script", by decide, by decide⟩
  obtain ⟨hit, hhit⟩ := hiff.mpr (.inr (.inr ⟨_, List.mem_cons_of_mem _ List.mem_cons_self,
    by decide, by decide, hsig⟩))
  exact ⟨A, hit, w', hA, hhit ▸ hinspect⟩

/-- **No query makes the scans report such a category**, where the path has none of its
signatures. -/
theorem query_never_reports {env : Env} (hgranted : env.Unfailing) {conf : LocConf} {r : Request}
    {p q : Bytes} (hp : 63 ∉ p) (hclean : ¬ SigInPath env conf p)
    (htarget : r.unparsedUri = p ++ 63 :: q) {w w' : World} {hit : Hit}
    (h : inspectTarget env conf r w = .ok (.ok hit, w')) :
    ¬ ∃ row ∈ shieldCategories, row.cat = hit.cat ∧ row.IsNoQuery := by
  have hpath : pathOf r.unparsedUri = p := by
    rw [htarget]
    unfold pathOf
    have hall : ∀ b ∈ p, decide (b ≠ 63) = true := fun b hb =>
      decide_eq_true fun heq => hp (heq ▸ hb)
    rw [List.takeWhile_append_of_pos hall, List.takeWhile_cons_of_neg (by simp), List.append_nil]
  obtain ⟨w'', hscan⟩ := inspectTarget_firstHit hgranted conf r w
  rw [hscan] at h
  have hhit : firstHit env (targetJobs conf r) = .ok hit := (Prod.ext_iff.mp (Except.ok.inj h)).1
  intro hnoquery
  rw [← hpath] at hclean
  exact hclean (.of_hit hhit hnoquery)

end HttpShield
