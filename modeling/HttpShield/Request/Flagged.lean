/-
  HttpShield.Request.Flagged
  ──────────────────────────
  When the inspection before the body reports a hit, if no allocation fails.

  It does when a category that is not skipped is carried at one of the positions of
  the request: the checks of its structure, the target, the path alone, or a header's
  value.  The mask of a position says which categories it may not report.

    • `structural_spec`       — the checks, category by category,
    • `scanJobs_firstHit`     — a list of scans reports its first hit,
    • `inspectPrebody_total`  — the inspection is `prebodyVerdict`,
    • `prebody_flagged_iff`   — a hit exactly when something live is carried,
    • `prebody_hit_live`      — and it reports a category that is live and carried.
-/
import HttpShield.Scan.Categories
import HttpShield.Request.Inspect

namespace HttpShield

/-! ## §1. The structural checks. -/

theorem and_mask_ne_zero_iff (skip : Mask) (c : ShieldCat) :
    skip &&& c.mask ≠ 0 ↔ skip.getLsbD c.bit = true := by
  unfold ShieldCat.mask
  rw [BitVec.and_twoPow]
  cases hbit : skip.getLsbD c.bit with
  | false => simp
  | true =>
      simp only [if_true, iff_true]
      intro hzero
      have hset := congrArg (fun m : Mask => m.getLsbD c.bit) hzero
      simp [c.bit_lt] at hset

/-- What a structural category is about. -/
def StructuralHit (r : Request) : ShieldCat → Prop
  | .httpoxy => ∃ h ∈ r.headers.all, headerNameIs h (bytesOf "Proxy") = true
  | .rangeDos => ∃ h, r.range = some h ∧ maxRanges < 1 + h.value.count 44
  | .ctrlChar => r.uri.any isCtrlChar = true
  | .dotfile => dotfileLoop r.uri (r.uri.length + 1) 0 true = .ok true
  | _ => False

/-- A check reports its category when that is live and the request is a case of it. -/
def Checks (x : Except Fault Inspection) (skip : Mask) (r : Request) (c : ShieldCat) : Prop :=
  (skip.getLsbD c.bit = false ∧ StructuralHit r c ∧ ∃ hit, x = .ok (.ok hit) ∧ hit.cat = c.bit)
    ∨ ¬ (skip.getLsbD c.bit = false ∧ StructuralHit r c) ∧ x = .ok .declined

/-- A declined verdict is right for a category that is skipped. -/
theorem checks_skipped {x : Except Fault Inspection} {skip : Mask} {r : Request} {c : ShieldCat}
    (hskip : skip &&& c.mask ≠ 0) (hx : x = .ok .declined) : Checks x skip r c := by
  right
  refine ⟨fun h => ?_, hx⟩
  rw [(and_mask_ne_zero_iff skip c).mp hskip] at h
  cases h.1

/-- A check that is made answers by the request alone. -/
theorem checks_made {x : Except Fault Inspection} {skip : Mask} {r : Request} {c : ShieldCat}
    (hskip : ¬ skip &&& c.mask ≠ 0)
    (hx : StructuralHit r c ∧ (∃ hit, x = .ok (.ok hit) ∧ hit.cat = c.bit)
      ∨ ¬ StructuralHit r c ∧ x = .ok .declined) : Checks x skip r c := by
  have hlive : skip.getLsbD c.bit = false := by
    rw [and_mask_ne_zero_iff] at hskip
    simpa using hskip
  rcases hx with ⟨hcase, hhit⟩ | ⟨hcase, hclean⟩
  · exact .inl ⟨hlive, hcase, hhit⟩
  · exact .inr ⟨fun h => hcase h.2, hclean⟩

/-- The walk for the `Proxy` name finds it if it is there. -/
theorem visitAll_visitProxy_eq (hs : List Header) :
    visitAll visitProxy hs () = .ok
      (if ∃ h ∈ hs, headerNameIs h (bytesOf "Proxy") = true then some () else none, ()) := by
  induction hs with
  | nil => rfl
  | cons h hs ih =>
      unfold visitAll visitProxy
      by_cases hname : headerNameIs h (bytesOf "Proxy") = true
      · rw [if_pos hname, if_pos ⟨h, by simp, hname⟩]
        rfl
      · rw [if_neg hname]
        show visitAll visitProxy hs () = _
        rw [ih]
        simp only [List.mem_cons, exists_eq_or_imp, hname, Bool.false_eq_true, false_or]

theorem checkHttpoxy_spec (skip : Mask) (r : Request) :
    Checks (checkHttpoxy skip r) skip r .httpoxy := by
  unfold checkHttpoxy
  by_cases hskip : skip &&& ShieldCat.httpoxy.mask ≠ 0
  · rw [if_pos hskip]
    exact checks_skipped hskip rfl
  · rw [if_neg hskip, HeaderList.walk_eq, visitAll_visitProxy_eq]
    apply checks_made hskip
    by_cases hproxy : ∃ h ∈ r.headers.all, headerNameIs h (bytesOf "Proxy") = true
    · rw [if_pos hproxy]
      exact .inl ⟨hproxy, _, rfl, rfl⟩
    · rw [if_neg hproxy]
      exact .inr ⟨hproxy, rfl⟩

theorem checkRange_spec (skip : Mask) (r : Request) :
    Checks (checkRange skip r) skip r .rangeDos := by
  unfold checkRange
  by_cases hskip : skip &&& ShieldCat.rangeDos.mask ≠ 0
  · rw [if_pos hskip]
    exact checks_skipped hskip rfl
  · rw [if_neg hskip]
    apply checks_made hskip
    unfold StructuralHit
    cases r.range with
    | none => exact .inr ⟨by simp, rfl⟩
    | some h =>
        by_cases hmany : 1 + h.value.count 44 > maxRanges
        · exact .inl ⟨⟨h, rfl, hmany⟩, _, if_pos hmany, rfl⟩
        · refine .inr ⟨?_, if_neg hmany⟩
          rintro ⟨h', heq, hmany'⟩
          obtain rfl := Option.some.inj heq
          exact hmany hmany'

theorem checkCtrlChar_spec (skip : Mask) (r : Request) :
    Checks (checkCtrlChar skip r) skip r .ctrlChar := by
  unfold checkCtrlChar
  by_cases hskip : skip &&& ShieldCat.ctrlChar.mask ≠ 0
  · rw [if_pos hskip]
    exact checks_skipped hskip rfl
  · rw [if_neg hskip]
    apply checks_made hskip
    by_cases hctrl : r.uri.any isCtrlChar = true
    · exact .inl ⟨hctrl, _, if_pos hctrl, rfl⟩
    · exact .inr ⟨hctrl, if_neg hctrl⟩

theorem checkDotfile_spec (skip : Mask) (r : Request) :
    Checks (checkDotfile skip r) skip r .dotfile := by
  unfold checkDotfile
  by_cases hskip : skip &&& ShieldCat.dotfile.mask ≠ 0
  · rw [if_pos hskip]
    exact checks_skipped hskip rfl
  · obtain ⟨b, hb⟩ := @dotfileLoop_returns r.uri (r.uri.length + 1) 0 true (by omega) (by omega)
    rw [if_neg hskip]
    apply checks_made hskip
    unfold StructuralHit
    rw [hb]
    cases b with
    | false => exact .inr ⟨by simp, rfl⟩
    | true => exact .inl ⟨rfl, _, rfl, rfl⟩

/-- **The checks, category by category**: one that is live and applies is reported. -/
theorem structural_spec (skip : Mask) (r : Request) :
    (∃ hit c, structural skip r = .ok (.ok hit) ∧ hit.cat = ShieldCat.bit c
        ∧ skip.getLsbD c.bit = false ∧ StructuralHit r c)
      ∨ structural skip r = .ok .declined
        ∧ ∀ c, ¬ (skip.getLsbD (ShieldCat.bit c) = false ∧ StructuralHit r c) := by
  unfold structural
  rcases checkHttpoxy_spec skip r with ⟨hlive, hcase, hit, h, hcat⟩ | ⟨hproxy, h⟩
  · rw [h]
    exact .inl ⟨hit, _, rfl, hcat, hlive, hcase⟩
  rcases checkRange_spec skip r with ⟨hlive, hcase, hit, h', hcat⟩ | ⟨hrange, h'⟩
  · rw [h, ok_bind]
    show (∃ hit c, (checkRange skip r >>= _) = _ ∧ _) ∨ _
    rw [h']
    exact .inl ⟨hit, _, rfl, hcat, hlive, hcase⟩
  rcases checkCtrlChar_spec skip r with ⟨hlive, hcase, hit, h'', hcat⟩ | ⟨hctrl, h''⟩
  · rw [h, ok_bind, h', ok_bind]
    simp only [h'', ok_bind]
    exact .inl ⟨hit, _, rfl, hcat, hlive, hcase⟩
  rw [h, ok_bind, h', ok_bind]
  simp only [h'', ok_bind]
  rcases checkDotfile_spec skip r with ⟨hlive, hcase, hit, hlast, hcat⟩ | ⟨hdot, hlast⟩
  · exact .inl ⟨hit, _, hlast, hcat, hlive, hcase⟩
  · refine .inr ⟨hlast, fun c hc => ?_⟩
    cases c with
    | httpoxy => exact hproxy hc
    | rangeDos => exact hrange hc
    | ctrlChar => exact hctrl hc
    | dotfile => exact hdot hc
    | _ => exact hc.2

/-! ## §2. A list of scans. -/

/-- No pool allocation fails. -/
def Env.Unfailing (env : Env) : Prop := ∀ i, env.granted i = true

/-- What a list of scans reports: its first hit. -/
def firstHit (env : Env) : List ScanJob → Inspection
  | [] => .declined
  | job :: jobs => if job.verdict env = .declined then firstHit env jobs else job.verdict env

theorem scanJobs_firstHit {env : Env} (hgranted : env.Unfailing) (jobs : List ScanJob)
    (hne : ∀ job ∈ jobs, job.data ≠ []) (w : World) :
    ∃ w', scanJobs env jobs w = .ok (firstHit env jobs, w') := by
  induction jobs generalizing w with
  | nil => exact ⟨w, rfl⟩
  | cons job jobs ih =>
      have hscan := scanR_eq env w (hne job (by simp))
      rw [if_pos ⟨hgranted _, hgranted _⟩] at hscan
      unfold scanJobs firstHit
      rw [hscan]
      by_cases hclean : job.verdict env = .declined
      · rw [if_pos hclean, hclean, onDeclined_declined]
        exact ih (fun j hj => hne j (List.mem_cons_of_mem _ hj)) _
      · rw [if_neg hclean, onDeclined_found hclean]
        exact ⟨_, rfl⟩

/-- The buffer of the job shows something live under the job's mask. -/
def ScanJob.Shows (env : Env) (job : ScanJob) : Prop := env.unescape.Shows job.skip job.data

theorem ScanJob.verdict_ok_iff (env : Env) (job : ScanJob) :
    (∃ hit, job.verdict env = .ok hit) ↔ job.Shows env :=
  naiveInput_ok_iff env.unescape job.data job.source job.skip

theorem ScanJob.verdict_cases (env : Env) (job : ScanJob) :
    job.verdict env = .declined ∨ ∃ hit, job.verdict env = .ok hit :=
  naiveInput_cases env.unescape job.data job.source job.skip

/-- The first hit of a list is the hit of one of its jobs. -/
theorem firstHit_ok {env : Env} {jobs : List ScanJob} {hit : Hit}
    (h : firstHit env jobs = .ok hit) : ∃ job ∈ jobs, job.verdict env = .ok hit := by
  induction jobs with
  | nil => cases h
  | cons job jobs ih =>
      unfold firstHit at h
      by_cases hclean : job.verdict env = .declined
      · rw [if_pos hclean] at h
        obtain ⟨j, hj, hverdict⟩ := ih h
        exact ⟨j, List.mem_cons_of_mem _ hj, hverdict⟩
      · rw [if_neg hclean] at h
        exact ⟨job, by simp, h⟩

theorem firstHit_cases (env : Env) (jobs : List ScanJob) :
    firstHit env jobs = .declined ∨ ∃ hit, firstHit env jobs = .ok hit := by
  induction jobs with
  | nil => exact .inl rfl
  | cons job jobs ih =>
      unfold firstHit
      rcases job.verdict_cases env with hclean | ⟨hit, hhit⟩
      · rw [if_pos hclean]
        exact ih
      · rw [hhit, if_neg (by simp)]
        exact .inr ⟨hit, rfl⟩

/-- A list of scans has a hit when one of its jobs shows something. -/
theorem firstHit_ok_iff (env : Env) (jobs : List ScanJob) :
    (∃ hit, firstHit env jobs = .ok hit) ↔ ∃ job ∈ jobs, job.Shows env := by
  induction jobs with
  | nil => simp [firstHit]
  | cons job jobs ih =>
      simp only [List.mem_cons, exists_eq_or_imp]
      unfold firstHit
      rcases job.verdict_cases env with hclean | ⟨hit, hhit⟩
      · have hno : ¬ job.Shows env := by
          rw [← job.verdict_ok_iff env, hclean]
          simp
        rw [if_pos hclean, ih]
        simp only [hno, false_or]
      · have hyes := (job.verdict_ok_iff env).mp ⟨hit, hhit⟩
        rw [hhit, if_neg (by simp)]
        exact iff_of_true ⟨hit, rfl⟩ (.inl hyes)

/-! ## §3. The inspection before the body. -/

/-- What the inspection reports if no allocation fails. -/
def prebodyVerdict (env : Env) (conf : LocConf) (r : Request) : Inspection :=
  match structural conf.skip r with
  | .ok (.ok hit) => .ok hit
  | _ => firstHit env (prebodyJobs conf r)

theorem inspectPrebody_total {env : Env} (hgranted : env.Unfailing) (conf : LocConf) (r : Request)
    (w : World) : ∃ w', inspectPrebody env conf r w = .ok (prebodyVerdict env conf r, w') := by
  unfold prebodyVerdict
  rcases inspectPrebody_eq env conf r w with ⟨hit, hhit, hinspect⟩ | ⟨hclean, hinspect⟩
  · rw [hhit]
    exact ⟨w, hinspect⟩
  · rw [hclean, hinspect]
    exact scanJobs_firstHit hgranted (prebodyJobs conf r) (prebodyJobs_ne_nil conf r) w

theorem prebodyVerdict_cases (env : Env) (conf : LocConf) (r : Request) :
    prebodyVerdict env conf r = .declined ∨ ∃ hit, prebodyVerdict env conf r = .ok hit := by
  unfold prebodyVerdict
  split
  · exact .inr ⟨_, rfl⟩
  · exact firstHit_cases env _

/-- A request without a structural hit whose buffers are short is clean. -/
theorem prebodyVerdict_of_short {env : Env} {conf : LocConf} {r : Request}
    (hstructural : structural conf.skip r = .ok .declined)
    (hshort : ∀ job ∈ prebodyJobs conf r, job.data.length < 3) :
    prebodyVerdict env conf r = .declined := by
  unfold prebodyVerdict
  rw [hstructural]
  show firstHit env (prebodyJobs conf r) = .declined
  rcases firstHit_cases env (prebodyJobs conf r) with hclean | ⟨hit, hhit⟩
  · exact hclean
  · obtain ⟨job, hjob, hverdict⟩ := firstHit_ok hhit
    have hclean : job.verdict env = .declined :=
      naiveInput_of_short env.unescape (hshort job hjob) job.source job.skip
    rw [hclean] at hverdict
    cases hverdict

/-- The categories that a header of this name may not report. -/
def headerMask (h : Header) : Mask :=
  if headerNameIs h (bytesOf "User-Agent") then 0
  else if headerNameIs h (bytesOf "Referer") then 0
  else if headerNameIs h (bytesOf "Content-Type") then ~~~(genericAllowed ||| contentTypeAllowed)
  else if headerNameIs h (bytesOf "Destination") || headerNameIs h (bytesOf "X-Original-URL")
      || headerNameIs h (bytesOf "X-Rewrite-URL") then 0
  else if headerNameIs h (bytesOf "Cookie") then ~~~(genericAllowed ||| cookieAllowed)
  else ~~~genericAllowed

theorem headerJob_skip (skip : Mask) (h : Header) :
    (headerJob skip h).skip = skip ||| headerMask h := by
  unfold headerJob headerMask
  split_ifs <;> simp

/-- A category that is live at a position is live. -/
theorem or_getLsbD_eq_false {skip mask : Mask} {i : Nat} :
    (skip ||| mask).getLsbD i = false ↔ skip.getLsbD i = false ∧ mask.getLsbD i = false := by
  rw [BitVec.getLsbD_or, Bool.or_eq_false_iff]

/-! ## §4. What the inspection scans for. -/

/-- The header is live, and its value carries a category that it may report. -/
def HeaderCarries (env : Env) (h : Header) (c : ShieldCat) : Prop :=
  h.hash ≠ 0 ∧ (headerMask h).getLsbD c.bit = false ∧ env.unescape.Carries h.value c.bit

/-- The target carries the category, where that counts: in the whole target, or for the
categories that have no meaning in a query, in the path. -/
def TargetCarries (env : Env) (r : Request) (c : ShieldCat) : Prop :=
  (queryMask.getLsbD c.bit = false ∧ env.unescape.Carries r.unparsedUri c.bit)
    ∨ queryMask.getLsbD c.bit = true ∧ env.unescape.Carries (pathOf r.unparsedUri) c.bit

/-- The request carries the category before its body. -/
def PrebodyCarries (env : Env) (r : Request) (c : ShieldCat) : Prop :=
  StructuralHit r c ∨ TargetCarries env r c ∨ ∃ h ∈ r.headers.all, HeaderCarries env h c

/-- A job shows something live when its buffer carries a category that is live there. -/
theorem ScanJob.shows_iff (env : Env) (job : ScanJob) :
    job.Shows env ↔ ∃ c : ShieldCat, job.skip.getLsbD c.bit = false
      ∧ env.unescape.Carries job.data c.bit := by
  unfold ScanJob.Shows
  rw [shows_iff_carries]
  constructor
  · rintro ⟨cat, hlive, hcarries⟩
    obtain ⟨c, rfl⟩ := hcarries.cat_eq
    exact ⟨c, hlive, hcarries⟩
  · rintro ⟨c, hlive, hcarries⟩
    exact ⟨c.bit, hlive, hcarries⟩

/-- An empty buffer carries no category. -/
theorem not_carries_nil (U : NgxUnescape) (cat : Nat) : ¬ U.Carries [] cat := by
  intro h
  apply not_shows_nil U 0
  rw [shows_iff_carries]
  exact ⟨cat, by simp, h⟩

/-- **The scans of the target** show something when the target carries a live category. -/
theorem targetJobs_show_iff (env : Env) (conf : LocConf) (r : Request) :
    (∃ job ∈ targetJobs conf r, job.Shows env)
      ↔ ∃ c, conf.skip.getLsbD (ShieldCat.bit c) = false ∧ TargetCarries env r c := by
  have hwhole : (wholeJob conf r).Shows env ↔ ∃ c : ShieldCat, conf.skip.getLsbD c.bit = false
      ∧ queryMask.getLsbD c.bit = false ∧ env.unescape.Carries r.unparsedUri c.bit := by
    rw [ScanJob.shows_iff]
    unfold wholeJob
    simp only [or_getLsbD_eq_false, and_assoc]
  have hpath : (pathJob conf r).Shows env ↔ ∃ c : ShieldCat, conf.skip.getLsbD c.bit = false
      ∧ queryMask.getLsbD c.bit = true
      ∧ env.unescape.Carries (pathOf r.unparsedUri) c.bit := by
    rw [ScanJob.shows_iff]
    unfold pathJob
    refine exists_congr fun c => ?_
    rw [or_getLsbD_eq_false, BitVec.getLsbD_not, and_assoc]
    simp [c.bit_lt]
  have hsplit : (∃ c, conf.skip.getLsbD (ShieldCat.bit c) = false ∧ TargetCarries env r c)
      ↔ (wholeJob conf r).Shows env ∨ (pathJob conf r).Shows env := by
    rw [hwhole, hpath, ← exists_or]
    refine exists_congr fun c => ?_
    unfold TargetCarries
    rw [and_or_left]
  rw [hsplit]
  unfold targetJobs
  by_cases hempty : r.unparsedUri = []
  · -- an empty target carries nothing, nor does its path
    rw [if_pos hempty, hwhole, hpath, hempty]
    have hnil : pathOf [] = [] := rfl
    rw [hnil]
    simp only [not_carries_nil, and_false, exists_false, or_false]
    simp
  · rw [if_neg hempty]
    by_cases hsecond : pathOf r.unparsedUri ≠ [] ∧ ~~~conf.skip &&& queryMask ≠ 0
    · rw [if_pos hsecond]
      simp only [List.mem_cons, List.not_mem_nil, or_false, exists_eq_or_imp, exists_eq_left]
    · -- the second pass is left out only where it could show nothing
      have hnothing : ¬ (pathJob conf r).Shows env := by
        rw [hpath]
        rintro ⟨c, hlive, hquery, hcarries⟩
        apply hsecond
        refine ⟨?_, ?_⟩
        · intro hnil
          rw [hnil] at hcarries
          exact not_carries_nil _ _ hcarries
        · intro hzero
          have hbit : (~~~conf.skip &&& queryMask).getLsbD c.bit = false := by
            rw [hzero]
            exact BitVec.getLsbD_zero
          rw [BitVec.getLsbD_and, BitVec.getLsbD_not, hlive, hquery, decide_eq_true c.bit_lt]
            at hbit
          cases hbit
      rw [if_neg hsecond]
      simp only [List.mem_cons, List.not_mem_nil, or_false, exists_eq_left, hnothing]

/-- **The scans of the headers** show something when a header carries a live category. -/
theorem headerJobs_show_iff (env : Env) (conf : LocConf) (hs : List Header) :
    (∃ job ∈ headerJobs conf hs, job.Shows env)
      ↔ ∃ c, conf.skip.getLsbD (ShieldCat.bit c) = false ∧ ∃ h ∈ hs, HeaderCarries env h c := by
  constructor
  · rintro ⟨job, hjob, hshows⟩
    obtain ⟨h, hh, rfl⟩ := List.mem_map.mp hjob
    obtain ⟨hin, hfilter⟩ := List.mem_filter.mp hh
    rw [ScanJob.shows_iff, headerJob_data, headerJob_skip] at hshows
    obtain ⟨c, hlive, hcarries⟩ := hshows
    rw [or_getLsbD_eq_false] at hlive
    exact ⟨c, hlive.1, h, hin, (of_decide_eq_true hfilter).1, hlive.2, hcarries⟩
  · rintro ⟨c, hlive, h, hin, hhash, hmask, hcarries⟩
    have hvalue : h.value ≠ [] := by
      intro hnil
      rw [hnil] at hcarries
      exact not_carries_nil _ _ hcarries
    have hmem : h ∈ hs.filter fun h => h.hash ≠ 0 ∧ h.value ≠ [] :=
      List.mem_filter.mpr ⟨hin, decide_eq_true ⟨hhash, hvalue⟩⟩
    refine ⟨headerJob conf.skip h, List.mem_map_of_mem hmem, ?_⟩
    rw [ScanJob.shows_iff, headerJob_data, headerJob_skip]
    exact ⟨c, or_getLsbD_eq_false.mpr ⟨hlive, hmask⟩, hcarries⟩

/-- **A request is flagged before its body** exactly when it carries a live category. -/
theorem prebody_flagged_iff (env : Env) (conf : LocConf) (r : Request) :
    (∃ hit, prebodyVerdict env conf r = .ok hit)
      ↔ ∃ c, conf.skip.getLsbD (ShieldCat.bit c) = false ∧ PrebodyCarries env r c := by
  have hjobs : (∃ job ∈ prebodyJobs conf r, job.Shows env)
      ↔ ∃ c, conf.skip.getLsbD (ShieldCat.bit c) = false
        ∧ (TargetCarries env r c ∨ ∃ h ∈ r.headers.all, HeaderCarries env h c) := by
    unfold prebodyJobs
    simp only [List.mem_append, or_and_right, exists_or]
    rw [targetJobs_show_iff, headerJobs_show_iff, ← exists_or]
    exact exists_congr fun c => and_or_left.symm
  unfold prebodyVerdict
  rcases structural_spec conf.skip r with ⟨hit, c, hhit, hcat, hlive, hcase⟩ | ⟨hclean, hnone⟩
  · rw [hhit]
    exact iff_of_true ⟨hit, rfl⟩ ⟨c, hlive, .inl hcase⟩
  · rw [hclean]
    show (∃ hit, firstHit env (prebodyJobs conf r) = .ok hit) ↔ _
    rw [firstHit_ok_iff, hjobs]
    refine exists_congr fun c => ?_
    unfold PrebodyCarries
    constructor
    · rintro ⟨hlive, h⟩
      exact ⟨hlive, .inr h⟩
    · rintro ⟨hlive, hcase | h⟩
      · exact absurd ⟨hlive, hcase⟩ (hnone c)
      · exact ⟨hlive, h⟩

/-- **The category of a reported hit** is one of the module's, and live. -/
theorem prebody_hit_live {env : Env} {conf : LocConf} {r : Request} {hit : Hit}
    (h : prebodyVerdict env conf r = .ok hit) :
    ∃ c, hit.cat = ShieldCat.bit c ∧ conf.skip.getLsbD c.bit = false := by
  unfold prebodyVerdict at h
  rcases structural_spec conf.skip r with ⟨hit', c, hhit, hcat, hlive, -⟩ | ⟨hclean, -⟩
  · rw [hhit] at h
    injection h with h
    exact ⟨c, h ▸ hcat, hlive⟩
  · rw [hclean] at h
    obtain ⟨job, hjob, hverdict⟩ := firstHit_ok h
    obtain ⟨hlive, hcarries⟩ := naiveInput_hit_live hverdict
    obtain ⟨c, hc⟩ := hcarries.cat_eq
    refine ⟨c, hc, ?_⟩
    rw [hc] at hlive
    -- the mask of a job holds the skipped categories
    rcases List.mem_append.mp hjob with htarget | hheader
    · have hmask : ∃ mask, job.skip = conf.skip ||| mask := by
        unfold targetJobs at htarget
        split_ifs at htarget with hempty hsecond
        · cases htarget
        · rcases List.mem_cons.mp htarget with rfl | htarget
          · exact ⟨_, rfl⟩
          · rw [List.mem_singleton.mp htarget]
            exact ⟨_, rfl⟩
        · rw [List.mem_singleton.mp htarget]
          exact ⟨_, rfl⟩
      obtain ⟨mask, hskip⟩ := hmask
      rw [hskip, or_getLsbD_eq_false] at hlive
      exact hlive.1
    · obtain ⟨hd, -, rfl⟩ := List.mem_map.mp hheader
      rw [headerJob_skip, or_getLsbD_eq_false] at hlive
      exact hlive.1

end HttpShield
