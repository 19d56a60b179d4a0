/-
  HttpShield.Request.Skip
  ───────────────────────
  Categories are independent under `shield_skip`.

  A request is flagged when it carries a category that is not skipped, before its body
  or in it.  What it carries is no matter of the mask; so each category counts alone,
  and skipping one neither hides nor makes a hit of another.

    • `skipMask_getLsbD`        — the mask of a list of categories,
    • `inspectBody_total`       — body inspection, if nothing fails,
    • `flagged_independent`     — flagged under a mask exactly when flagged for one of
      the categories that it leaves in.
-/
import HttpShield.Request.Flagged
import HttpShield.Request.Verdict

namespace HttpShield

/-! ## §1. The masks. -/

/-- `ngx_http_shield_skip`: the categories that are named, in any order. -/
def skipMask (S : List ShieldCat) : Mask := S.foldl (fun mask c => mask ||| c.mask) 0

theorem foldl_mask_getLsbD (S : List ShieldCat) (mask : Mask) (c : ShieldCat) :
    (S.foldl (fun mask c => mask ||| c.mask) mask).getLsbD c.bit = true
      ↔ mask.getLsbD c.bit = true ∨ c ∈ S := by
  induction S generalizing mask with
  | nil => simp
  | cons d S ih =>
      have hbit : d.mask.getLsbD c.bit = true ↔ c = d := by
        unfold ShieldCat.mask
        rw [BitVec.getLsbD_twoPow, Bool.and_eq_true, decide_eq_true_eq, decide_eq_true_eq]
        constructor
        · exact fun h => ShieldCat.bit_inj h.2.symm
        · intro heq
          subst heq
          exact ⟨c.bit_lt, rfl⟩
      rw [List.foldl_cons, ih, BitVec.getLsbD_or, Bool.or_eq_true, hbit, List.mem_cons, or_assoc]

theorem skipMask_getLsbD (S : List ShieldCat) (c : ShieldCat) :
    (skipMask S).getLsbD c.bit = false ↔ c ∉ S := by
  have hzero : ¬ (0 : Mask).getLsbD c.bit = true := by simp
  unfold skipMask
  rw [← Bool.not_eq_true, foldl_mask_getLsbD, or_iff_right hzero]

/-- Every category but one. -/
def ShieldCat.allBut (c : ShieldCat) : List ShieldCat := ShieldCat.all.filter (· ≠ c)

theorem ShieldCat.notMem_allBut (c d : ShieldCat) : d ∉ c.allBut ↔ d = c := by
  unfold ShieldCat.allBut
  rw [List.mem_filter]
  simp [d.mem_all]

/-- The location with other categories skipped. -/
def LocConf.withSkip (conf : LocConf) (skip : Mask) : LocConf := { conf with skip := skip }

/-! ## §2. The body. -/

/-- Neither an allocation nor a file read fails. -/
structure Env.Reliable (env : Env) : Prop where
  granted : env.Unfailing
  reads : ∀ i, 0 < env.readFile i

/-- The scan of the body, if there is one. -/
def bodyJobs (conf : LocConf) (content : Bytes) : List ScanJob :=
  if content.take conf.maxBody = [] then [] else [bodyJob conf content]

/-- A body that was collected is scanned. -/
theorem inspectBody_collected {env : Env} {conf : LocConf} {a : Arrival env.hash} {w w' : World}
    {body : Bytes} (h : collectBody env conf.maxBody a w = .ok (some body, w')) :
    inspectBody env conf a w = scanJobs env (bodyJobs conf a.content) w' := by
  obtain ⟨got, w'', hcollect, -, hout, -⟩ := collectBody_spec env conf.maxBody a w
  have hbody := hout body (Prod.ext_iff.mp (Except.ok.inj (hcollect.symm.trans h))).1
  unfold inspectBody bodyJobs
  rw [h, ok_bind, ← hbody]
  by_cases hempty : body = []
  · rw [if_pos hempty]
    simp only [hempty, List.length_nil, if_true]
    rfl
  · have hlen : ¬ body.length = 0 := fun h0 => hempty (List.length_eq_zero_iff.mp h0)
    rw [if_neg hempty, scanJobs_single]
    simp only [if_neg hlen, noBodyMask_eq, ok_bind]
    unfold bodyJob
    rw [← hbody]

theorem bodyJobs_ne_nil (conf : LocConf) (content : Bytes) :
    ∀ job ∈ bodyJobs conf content, job.data ≠ [] := by
  intro job hjob
  unfold bodyJobs at hjob
  by_cases hempty : content.take conf.maxBody = []
  · rw [if_pos hempty] at hjob
    cases hjob
  · rw [if_neg hempty, List.mem_singleton] at hjob
    rw [hjob]
    exact hempty

theorem inspectBody_total {env : Env} (h : env.Reliable) (conf : LocConf) (a : Arrival env.hash)
    (w : World) :
    ∃ w', inspectBody env conf a w = .ok (firstHit env (bodyJobs conf a.content), w') := by
  obtain ⟨got, w', hcollect, -, hout, hsome⟩ := collectBody_spec env conf.maxBody a w
  obtain ⟨body, rfl⟩ := Option.ne_none_iff_exists'.mp (hsome h.granted h.reads)
  rw [inspectBody_collected hcollect]
  exact scanJobs_firstHit h.granted _ (bodyJobs_ne_nil conf a.content) w'

/-- The body carries the category, where that counts in a body. -/
def BodyCarries (env : Env) (conf : LocConf) (content : Bytes) (c : ShieldCat) : Prop :=
  bodyMask.getLsbD c.bit = false ∧ env.unescape.Carries (content.take conf.maxBody) c.bit

theorem bodyJobs_show_iff (env : Env) (conf : LocConf) (content : Bytes) :
    (∃ job ∈ bodyJobs conf content, job.Shows env)
      ↔ ∃ c, conf.skip.getLsbD (ShieldCat.bit c) = false ∧ BodyCarries env conf content c := by
  have hjob : (bodyJob conf content).Shows env
      ↔ ∃ c, conf.skip.getLsbD (ShieldCat.bit c) = false ∧ BodyCarries env conf content c := by
    rw [ScanJob.shows_iff]
    unfold bodyJob BodyCarries
    simp only [or_getLsbD_eq_false, and_assoc]
  rw [← hjob]
  unfold bodyJobs
  by_cases hempty : content.take conf.maxBody = []
  · rw [if_pos hempty, ScanJob.shows_iff]
    unfold bodyJob
    simp only [hempty, not_carries_nil, and_false, exists_false, List.not_mem_nil, false_and]
  · rw [if_neg hempty]
    simp only [List.mem_singleton, exists_eq_left]

/-! ## §3. Flagged requests. -/

/-- The request is flagged under a skip mask, with this hit: by the inspection before
the body, or when that is clean, by the inspection of a body that is to be scanned. -/
def FlaggedUnder (env : Env) (conf : LocConf) (r : Request) (a : Arrival env.hash) (w : World)
    (skip : Mask) (hit : Hit) : Prop :=
  (∃ w', inspectPrebody env (conf.withSkip skip) r w = .ok (.ok hit, w'))
    ∨ ∃ w', inspectPrebody env (conf.withSkip skip) r w = .ok (.declined, w')
      ∧ conf.body = true ∧ scannableBody r = true
      ∧ ∃ w'', inspectBody env (conf.withSkip skip) a (w'.resume a) = .ok (.ok hit, w'')

/-- The request carries the category, somewhere it counts. -/
def RequestCarries (env : Env) (conf : LocConf) (r : Request) (content : Bytes) (c : ShieldCat) :
    Prop :=
  PrebodyCarries env r c
    ∨ conf.body = true ∧ scannableBody r = true ∧ BodyCarries env conf content c

/-- The hits of a request, where nothing fails. -/
theorem flaggedUnder_iff {env : Env} (h : env.Reliable) (conf : LocConf) (r : Request)
    (a : Arrival env.hash) (w : World) (skip : Mask) (hit : Hit) :
    FlaggedUnder env conf r a w skip hit
      ↔ prebodyVerdict env (conf.withSkip skip) r = .ok hit
        ∨ prebodyVerdict env (conf.withSkip skip) r = .declined ∧ conf.body = true
          ∧ scannableBody r = true
          ∧ firstHit env (bodyJobs (conf.withSkip skip) a.content) = .ok hit := by
  obtain ⟨w', hinspect⟩ := inspectPrebody_total h.granted (conf.withSkip skip) r w
  have hret : ∀ rc : Inspection, (∃ w', inspectPrebody env (conf.withSkip skip) r w = .ok (rc, w'))
      ↔ prebodyVerdict env (conf.withSkip skip) r = rc := by
    intro rc
    rw [hinspect]
    constructor
    · rintro ⟨w'', heq⟩
      exact (Prod.ext_iff.mp (Except.ok.inj heq)).1
    · intro heq
      subst heq
      exact ⟨w', rfl⟩
  unfold FlaggedUnder
  rw [hret]
  refine or_congr Iff.rfl ?_
  constructor
  · rintro ⟨w₁, hclean, hbody, hscannable, w₂, hbodyhit⟩
    obtain ⟨w₃, htotal⟩ := inspectBody_total h (conf.withSkip skip) a (w₁.resume a)
    rw [htotal] at hbodyhit
    exact ⟨(hret _).mp ⟨w₁, hclean⟩, hbody, hscannable,
      (Prod.ext_iff.mp (Except.ok.inj hbodyhit)).1⟩
  · rintro ⟨hclean, hbody, hscannable, hbodyhit⟩
    obtain ⟨w₃, htotal⟩ := inspectBody_total h (conf.withSkip skip) a (w'.resume a)
    rw [hbodyhit] at htotal
    rw [hclean] at hinspect
    exact ⟨w', hinspect, hbody, hscannable, w₃, htotal⟩

/-- **Flagged under a mask**: a category that it leaves in is carried. -/
theorem flagged_iff_requestCarries {env : Env} (h : env.Reliable) (conf : LocConf) (r : Request)
    (a : Arrival env.hash) (w : World) (skip : Mask) :
    (∃ hit, FlaggedUnder env conf r a w skip hit)
      ↔ ∃ c, skip.getLsbD (ShieldCat.bit c) = false ∧ RequestCarries env conf r a.content c := by
  have hpre := prebody_flagged_iff env (conf.withSkip skip) r
  have hbodyhit := firstHit_ok_iff env (bodyJobs (conf.withSkip skip) a.content)
  rw [bodyJobs_show_iff] at hbodyhit
  simp only [flaggedUnder_iff h]
  unfold RequestCarries
  constructor
  · rintro ⟨hit, hprehit | ⟨-, hbody, hscannable, hhit⟩⟩
    · obtain ⟨c, hlive, hcarries⟩ := hpre.mp ⟨hit, hprehit⟩
      exact ⟨c, hlive, .inl hcarries⟩
    · obtain ⟨c, hlive, hcarries⟩ := hbodyhit.mp ⟨hit, hhit⟩
      exact ⟨c, hlive, .inr ⟨hbody, hscannable, hcarries⟩⟩
  · rintro ⟨c, hlive, hcarries | ⟨hbody, hscannable, hcarries⟩⟩
    · obtain ⟨hit, hhit⟩ := hpre.mpr ⟨c, hlive, hcarries⟩
      exact ⟨hit, .inl hhit⟩
    · -- where the inspection before the body is a hit, that is the one
      rcases prebodyVerdict_cases env (conf.withSkip skip) r with hclean | ⟨hit, hhit⟩
      · obtain ⟨hit, hhit⟩ := hbodyhit.mpr ⟨c, hlive, hcarries⟩
        exact ⟨hit, .inr ⟨hclean, hbody, hscannable, hhit⟩⟩
      · exact ⟨hit, .inl hhit⟩

/-- What a request is flagged for is left in by the mask. -/
theorem flagged_hit_live {env : Env} (h : env.Reliable) {conf : LocConf} {r : Request}
    {a : Arrival env.hash} {w : World} {skip : Mask} {hit : Hit}
    (hflagged : FlaggedUnder env conf r a w skip hit) :
    ∃ c, hit.cat = ShieldCat.bit c ∧ skip.getLsbD c.bit = false := by
  rw [flaggedUnder_iff h] at hflagged
  rcases hflagged with hpre | ⟨-, -, -, hbody⟩
  · exact prebody_hit_live hpre
  · obtain ⟨job, hjob, hverdict⟩ := firstHit_ok hbody
    obtain ⟨hlive, hcarries⟩ := naiveInput_hit_live hverdict
    obtain ⟨c, hc⟩ := hcarries.cat_eq
    unfold bodyJobs at hjob
    split_ifs at hjob with hempty
    · cases hjob
    · rw [List.mem_singleton.mp hjob] at hlive
      rw [hc] at hlive
      exact ⟨c, hc, (or_getLsbD_eq_false.mp hlive).1⟩

/-- **Categories are independent.**  Where nothing fails, a request is flagged under a
list of skipped categories if and only if it is flagged for a category outside that list
when all others are skipped; and what it is flagged for is outside the list. -/
theorem flagged_independent (env : Env) (h : env.Reliable) (conf : LocConf) (r : Request)
    (a : Arrival env.hash) (w : World) (S : List ShieldCat) :
    ((∃ hit, FlaggedUnder env conf r a w (skipMask S) hit)
      ↔ ∃ c, c ∉ S ∧ ∃ hit, FlaggedUnder env conf r a w (skipMask c.allBut) hit)
    ∧ ∀ hit, FlaggedUnder env conf r a w (skipMask S) hit →
      ∃ c, c ∉ S ∧ hit.cat = ShieldCat.bit c := by
  constructor
  · rw [flagged_iff_requestCarries h]
    refine exists_congr fun c => ?_
    rw [flagged_iff_requestCarries h, skipMask_getLsbD]
    refine and_congr_right fun _ => ?_
    simp only [skipMask_getLsbD, ShieldCat.notMem_allBut, exists_eq_left]
  · intro hit hflagged
    obtain ⟨c, hcat, hlive⟩ := flagged_hit_live h hflagged
    exact ⟨c, (skipMask_getLsbD S c).mp hlive, hcat⟩

/-- nginx grants everything, and reads what it is asked for. -/
def envReading (A : Automata) : Env := { envGranting A fun _ => true with readFile := fun _ => 1 }

/-- A traversal in the path, and a header that no client sends. -/
def twoFlags : Request :=
  { oneBytePost with
    unparsedUri := bytesOf "/../a"
    headers := { part := [⟨1, bytesOf "proxy", bytesOf "a"⟩], next := [], filled := noParts_filled } }

/-- With one of the two categories skipped, the other is still a hit. -/
theorem flagged_independent_twoFlags :
    ∃ A, shieldInit AcAllocs.granted AcAllocs.granted true = .ok (some A)
      ∧ ∃ hit, FlaggedUnder (envReading A) (loggingConf .block true) twoFlags oneByteBody freshWorld
        (skipMask [.httpoxy]) hit := by
  obtain ⟨A, hA⟩ := shieldInit_granted
  have hreliable : (envReading A).Reliable := ⟨fun _ => rfl, fun _ => Int.one_pos⟩
  have hcarries : ngxUnescapeUri.Carries (bytesOf "/../a") ShieldCat.traversal.bit :=
    .inl ⟨_, List.mem_cons_of_mem _ (List.mem_cons_of_mem _ List.mem_cons_self), by rfl,
      matchRaw, by simp, by decide, bytesOf "../", by decide, by decide⟩
  have halone := (flagged_iff_requestCarries hreliable (loggingConf .block true) twoFlags
    oneByteBody freshWorld (skipMask ShieldCat.traversal.allBut)).mpr
    ⟨.traversal, by decide, .inl (.inr (.inl (.inl ⟨by decide, hcarries⟩)))⟩
  exact ⟨A, hA, (flagged_independent (envReading A) hreliable (loggingConf .block true) twoFlags
    oneByteBody freshWorld [.httpoxy]).1.mpr ⟨.traversal, by decide, halone⟩⟩

end HttpShield
