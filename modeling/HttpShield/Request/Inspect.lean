/-
  HttpShield.Request.Inspect
  ──────────────────────────
  The inspection before the body: the structural checks, the request target in two
  passes, and the headers, each under the categories its position allows.

  Once the structural checks are clean, all that is left is a list of buffers to
  scan, `prebodyJobs`, known in advance; the inspection scans them in order and stops
  at the first that is not clean.

    • `scanR_eq`          — one scan: scratch buffers, then the naive verdict,
    • `scanJobs_spec`     — a list of scans is clean when all of them are granted
      their memory and clean; each has then been made,
    • `inspectPrebody_eq` — the inspection is the checks and the list of jobs.
-/
import HttpShield.Request.Structural

namespace HttpShield

/-! ## §1. One scan. -/

/-- A call of the scanner, noted. -/
def World.noteScan (w : World) (job : ScanJob) (rc : Inspection) : World :=
  { w with scans := w.scans ++ [⟨job, rc⟩] }

/-- `ngx_http_shield_scan_r`. -/
def scanR (env : Env) (w : World) (job : ScanJob) : Except Fault (Inspection × World) := do
  if job.data.length = 0 then
    return (.declined, w)
  -- both are asked for before either is looked at
  let (scratchLc, w) := w.palloc env
  let (scratchDec, w) := w.palloc env
  if ¬ scratchLc ∨ ¬ scratchDec then
    return (.error, w)
  let rc ← scanInput env.unescape env.automata job.data job.data.length job.data.length
    job.source job.skip
  return (rc, w.noteScan job rc)

/-- What a scan of the buffer says. -/
def ScanJob.verdict (env : Env) (job : ScanJob) : Inspection :=
  naiveInput env.unescape job.data job.source job.skip

/-- The world after two pool allocations. -/
def World.spendTwo (w : World) : World := { w with allocs := w.allocs + 2 }

theorem World.spendTwo_quiet (w : World) : w.Quiet w.spendTwo where
  zone := rfl
  now := rfl
  ctx := rfl
  acted := rfl
  scans := List.prefix_refl _

theorem World.noteScan_quiet (w : World) (job : ScanJob) (rc : Inspection) :
    w.Quiet (w.noteScan job rc) where
  zone := rfl
  now := rfl
  ctx := rfl
  acted := rfl
  scans := List.prefix_append _ _

/-- **One scan**: an error without its scratch buffers, the naive verdict with them. -/
theorem scanR_eq (env : Env) (w : World) {job : ScanJob} (hne : job.data ≠ []) :
    scanR env w job = .ok (if env.granted w.allocs = true ∧ env.granted (w.allocs + 1) = true
      then (job.verdict env, w.spendTwo.noteScan job (job.verdict env))
      else (.error, w.spendTwo)) := by
  have hlen : ¬ job.data.length = 0 := fun h => hne (List.length_eq_zero_iff.mp h)
  unfold scanR World.palloc
  rw [if_neg hlen]
  by_cases hgranted : env.granted w.allocs = true ∧ env.granted (w.allocs + 1) = true
  · have hboth : ¬ (¬ env.granted w.allocs = true ∨ ¬ env.granted (w.allocs + 1) = true) := by
      rintro (h | h)
      · exact h hgranted.1
      · exact h hgranted.2
    rw [if_pos hgranted]
    show (if ¬ env.granted w.allocs = true ∨ ¬ env.granted (w.allocs + 1) = true then _ else _) = _
    rw [if_neg hboth, scanInput_eq _ _ _ _ _ (Nat.le_refl _) (Nat.le_refl _)]
    rfl
  · have hone : ¬ env.granted w.allocs = true ∨ ¬ env.granted (w.allocs + 1) = true := by
      by_contra h
      rw [not_or, not_not, not_not] at h
      exact hgranted h
    rw [if_neg hgranted]
    show (if ¬ env.granted w.allocs = true ∨ ¬ env.granted (w.allocs + 1) = true then _ else _) = _
    rw [if_pos hone]
    rfl

/-! ## §2. A list of scans. -/

/-- `if (rc != NGX_DECLINED) return rc;` and go on. -/
def onDeclined (x : Except Fault (Inspection × World))
    (next : World → Except Fault (Inspection × World)) : Except Fault (Inspection × World) := do
  let (rc, w) ← x
  if rc ≠ .declined then return (rc, w)
  next w

theorem onDeclined_declined (w : World) (next : World → Except Fault (Inspection × World)) :
    onDeclined (.ok (.declined, w)) next = next w := rfl

theorem onDeclined_found {rc : Inspection} (h : rc ≠ .declined) (w : World)
    (next : World → Except Fault (Inspection × World)) :
    onDeclined (.ok (rc, w)) next = .ok (rc, w) := by
  show (if rc ≠ .declined then _ else _) = _
  rw [if_pos h]
  rfl

theorem onDeclined_assoc (x : Except Fault (Inspection × World))
    (f g : World → Except Fault (Inspection × World)) :
    onDeclined (onDeclined x f) g = onDeclined x (fun w => onDeclined (f w) g) := by
  cases x with
  | error e => rfl
  | ok a =>
      obtain ⟨rc, w⟩ := a
      by_cases h : rc = .declined
      · subst h
        rfl
      · rw [onDeclined_found h, onDeclined_found h, onDeclined_found h]

/-- Scan the buffers in order, up to the first that is not clean. -/
def scanJobs (env : Env) : List ScanJob → World → Except Fault (Inspection × World)
  | [], w => .ok (.declined, w)
  | job :: jobs, w => onDeclined (scanR env w job) (scanJobs env jobs)

theorem scanJobs_append (env : Env) (jobs jobs' : List ScanJob) (w : World) :
    scanJobs env (jobs ++ jobs') w = onDeclined (scanJobs env jobs w) (scanJobs env jobs') := by
  induction jobs generalizing w with
  | nil => rfl
  | cons job jobs ih =>
      show onDeclined (scanR env w job) (scanJobs env (jobs ++ jobs')) = _
      unfold scanJobs
      rw [onDeclined_assoc]
      exact congrArg _ (funext ih)

/-- All the jobs were done, and came out clean. -/
def World.Did (w : World) (jobs : List ScanJob) : Prop :=
  ∀ job ∈ jobs, (⟨job, .declined⟩ : ScanCall) ∈ w.scans

/-- **A list of scans**: it is clean exactly when every buffer got its memory and is
clean, and then every scan has been made. -/
theorem scanJobs_spec (env : Env) (jobs : List ScanJob) (hne : ∀ job ∈ jobs, job.data ≠ [])
    (w : World) :
    ∃ rc w', scanJobs env jobs w = .ok (rc, w') ∧ w.Quiet w'
      ∧ (rc = .declined ↔ w.Granted env (2 * jobs.length)
          ∧ ∀ job ∈ jobs, job.verdict env = .declined)
      ∧ (rc = .declined → w'.allocs = w.allocs + 2 * jobs.length ∧ w'.Did jobs) := by
  induction jobs generalizing w with
  | nil =>
      refine ⟨.declined, w, rfl, .refl w, ?_, fun _ => ⟨rfl, by intro job hjob; cases hjob⟩⟩
      simp [World.Granted]
  | cons job jobs ih =>
      have hscan := scanR_eq env w (hne job (by simp))
      by_cases hgranted : env.granted w.allocs = true ∧ env.granted (w.allocs + 1) = true
      · rw [if_pos hgranted] at hscan
        have hquiet := w.spendTwo_quiet.trans
          (w.spendTwo.noteScan_quiet job (job.verdict env))
        by_cases hclean : job.verdict env = .declined
        · -- this one is clean: go on
          obtain ⟨rc, w', hrest, hquiet', hiff, hdone⟩ := ih
            (fun j hj => hne j (List.mem_cons_of_mem _ hj))
            (w.spendTwo.noteScan job (job.verdict env))
          refine ⟨rc, w', ?_, hquiet.trans hquiet', ?_, ?_⟩
          · unfold scanJobs
            rw [hscan, hclean, onDeclined_declined, ← hclean]
            exact hrest
          · rw [hiff]
            constructor
            · rintro ⟨hall, hverdicts⟩
              refine ⟨?_, ?_⟩
              · intro i hi
                rcases i with _ | _ | i
                · exact hgranted.1
                · exact hgranted.2
                · have := hall i (by rw [List.length_cons] at hi; omega)
                  rw [show w.allocs + (i + 1 + 1) = w.allocs + 2 + i by omega]
                  exact this
              · intro j hj
                rcases List.mem_cons.mp hj with rfl | hj
                · exact hclean
                · exact hverdicts j hj
            · rintro ⟨hall, hverdicts⟩
              refine ⟨?_, fun j hj => hverdicts j (List.mem_cons_of_mem _ hj)⟩
              intro i hi
              have := hall (i + 2) (by rw [List.length_cons]; omega)
              show env.granted (w.allocs + 2 + i) = true
              rw [show w.allocs + 2 + i = w.allocs + (i + 2) by omega]
              exact this
          · intro hrc
            obtain ⟨hallocs, hdid⟩ := hdone hrc
            refine ⟨?_, ?_⟩
            · rw [hallocs, List.length_cons]
              show w.allocs + 2 + 2 * jobs.length = _
              omega
            · intro j hj
              rcases List.mem_cons.mp hj with rfl | hj
              · apply hquiet'.scans.subset
                show _ ∈ w.scans ++ [_]
                rw [hclean]
                simp
              · exact hdid j hj
        · -- this one is a hit
          refine ⟨job.verdict env, _, ?_, hquiet, ?_, fun h => absurd h hclean⟩
          · unfold scanJobs
            rw [hscan, onDeclined_found hclean]
          · constructor
            · exact fun h => absurd h hclean
            · exact fun h => absurd (h.2 job (by simp)) hclean
      · -- a scratch buffer is missing
        rw [if_neg hgranted] at hscan
        refine ⟨.error, w.spendTwo, ?_, w.spendTwo_quiet, ?_, fun h => by cases h⟩
        · unfold scanJobs
          rw [hscan, onDeclined_found (by simp)]
        · constructor
          · intro h
            cases h
          · rintro ⟨hall, -⟩
            exact absurd ⟨hall 0 (by simp), hall 1 (by rw [List.length_cons]; omega)⟩ hgranted

/-! ## §3. The request target. -/

/-- What `ngx_http_shield_no_query_mask` computes. -/
def queryMask : Mask := ShieldCat.xss.mask ||| ShieldCat.sensitiveFile.mask

theorem noQueryMask_eq : noQueryMask = .ok queryMask := by decide

/-- The path component of a target: what is before the first `?`. -/
def pathOf (target : Bytes) : Bytes := target.takeWhile (· ≠ 63)

/-- The first pass, over the whole target, and the second, over the path. -/
def inspectTarget (env : Env) (conf : LocConf) (r : Request) (w : World) :
    Except Fault (Inspection × World) := do
  let noQuery ← noQueryMask
  if r.unparsedUri.length = 0 then
    return (.declined, w)
  onDeclined (scanR env w ⟨r.unparsedUri, bytesOf "uri", conf.skip ||| noQuery⟩) fun w =>
    let path := pathOf r.unparsedUri
    if path.length ≠ 0 ∧ ~~~conf.skip &&& noQuery ≠ 0 then
      scanR env w ⟨path, bytesOf "uri", conf.skip ||| ~~~noQuery⟩
    else .ok (.declined, w)

/-- The whole target, under the categories that a query may report. -/
def wholeJob (conf : LocConf) (r : Request) : ScanJob :=
  ⟨r.unparsedUri, bytesOf "uri", conf.skip ||| queryMask⟩

/-- The path, under those that it alone may report. -/
def pathJob (conf : LocConf) (r : Request) : ScanJob :=
  ⟨pathOf r.unparsedUri, bytesOf "uri", conf.skip ||| ~~~queryMask⟩

/-- The scans of the target. -/
def targetJobs (conf : LocConf) (r : Request) : List ScanJob :=
  if r.unparsedUri = [] then []
  else if pathOf r.unparsedUri ≠ [] ∧ ~~~conf.skip &&& queryMask ≠ 0 then
    [wholeJob conf r, pathJob conf r]
  else [wholeJob conf r]

/-- A single scan is a list of one. -/
theorem scanJobs_single (env : Env) (job : ScanJob) (w : World) :
    scanJobs env [job] w = scanR env w job := by
  show onDeclined (scanR env w job) (fun w => .ok (.declined, w)) = _
  cases scanR env w job with
  | error e => rfl
  | ok a =>
      obtain ⟨rc, w'⟩ := a
      by_cases h : rc = .declined
      · subst h
        rfl
      · rw [onDeclined_found h]

theorem inspectTarget_eq (env : Env) (conf : LocConf) (r : Request) (w : World) :
    inspectTarget env conf r w = scanJobs env (targetJobs conf r) w := by
  unfold inspectTarget targetJobs
  rw [noQueryMask_eq, ok_bind]
  simp only [ne_eq, List.length_eq_zero_iff]
  by_cases hempty : r.unparsedUri = []
  · rw [if_pos hempty, if_pos hempty]
    rfl
  · rw [if_neg hempty, if_neg hempty]
    by_cases hpath : ¬ pathOf r.unparsedUri = [] ∧ ¬ ~~~conf.skip &&& queryMask = 0
    · simp only [if_pos hpath]
      show _ = onDeclined (scanR env w (wholeJob conf r)) (scanJobs env [pathJob conf r])
      exact congrArg _ (funext fun w => (scanJobs_single env (pathJob conf r) w).symm)
    · simp only [if_neg hpath]
      rfl

/-! ## §4. The headers. -/

/-- The categories that every header is scanned for. -/
def genericAllowed : Mask := ShieldCat.template.mask ||| ShieldCat.shellshock.mask

/-- The categories that `Content-Type` is scanned for besides. -/
def contentTypeAllowed : Mask :=
  ShieldCat.javaRce.mask ||| ShieldCat.crlf.mask ||| ShieldCat.nullbyte.mask
    ||| ShieldCat.overlong.mask

/-- The categories that `Cookie` is scanned for besides. -/
def cookieAllowed : Mask :=
  ShieldCat.sqli.mask ||| ShieldCat.xss.mask ||| ShieldCat.cmdi.mask ||| ShieldCat.lfiRfi.mask
    ||| ShieldCat.crlf.mask ||| ShieldCat.nullbyte.mask ||| ShieldCat.overlong.mask
    ||| ShieldCat.phpRce.mask ||| ShieldCat.javaRce.mask ||| ShieldCat.javaEval.mask
    ||| ShieldCat.nosql.mask ||| ShieldCat.ssti.mask

/-- The scan of a header's value: its source and its skip mask go by the name. -/
def headerJob (skip : Mask) (h : Header) : ScanJob :=
  if headerNameIs h (bytesOf "User-Agent") then
    ⟨h.value, bytesOf "user-agent", skip⟩
  else if headerNameIs h (bytesOf "Referer") then
    ⟨h.value, bytesOf "referer", skip⟩
  else if headerNameIs h (bytesOf "Content-Type") then
    ⟨h.value, bytesOf "content-type", skip ||| ~~~(genericAllowed ||| contentTypeAllowed)⟩
  -- proxies put the effective target in one of these
  else if headerNameIs h (bytesOf "Destination") || headerNameIs h (bytesOf "X-Original-URL")
      || headerNameIs h (bytesOf "X-Rewrite-URL") then
    ⟨h.value, bytesOf "header", skip⟩
  else if headerNameIs h (bytesOf "Cookie") then
    ⟨h.value, bytesOf "header", skip ||| ~~~(genericAllowed ||| cookieAllowed)⟩
  else
    ⟨h.value, bytesOf "header", skip ||| ~~~genericAllowed⟩

theorem headerJob_data (skip : Mask) (h : Header) : (headerJob skip h).data = h.value := by
  unfold headerJob
  split_ifs <;> rfl

/-- One round of the loop over the headers. -/
def visitHeader (env : Env) (conf : LocConf) (w : World) (h : Header) :
    Except Fault (Option Inspection × World) := do
  if h.hash = 0 ∨ h.value.length = 0 then
    return (none, w)
  let (rc, w) ← scanR env w (headerJob conf.skip h)
  if rc ≠ .declined then return (some rc, w)
  return (none, w)

/-- The loop over the headers. -/
def inspectHeaders (env : Env) (conf : LocConf) (r : Request) (w : World) :
    Except Fault (Inspection × World) := do
  let (rc, w) ← r.headers.walk (visitHeader env conf) w
  return (rc.getD .declined, w)

/-- The scans of the headers. -/
def headerJobs (conf : LocConf) (hs : List Header) : List ScanJob :=
  (hs.filter fun h => h.hash ≠ 0 ∧ h.value ≠ []).map (headerJob conf.skip)

theorem visitAll_visitHeader (env : Env) (conf : LocConf) (hs : List Header) (w : World) :
    (do let (rc, w) ← visitAll (visitHeader env conf) hs w
        return (rc.getD .declined, w)) = scanJobs env (headerJobs conf hs) w := by
  induction hs generalizing w with
  | nil => rfl
  | cons h hs ih =>
      unfold visitAll visitHeader headerJobs
      by_cases hskip : h.hash = 0 ∨ h.value.length = 0
      · -- nothing to scan in this one
        have hout : ¬ (h.hash ≠ 0 ∧ h.value ≠ []) := by
          rintro ⟨hhash, hvalue⟩
          rcases hskip with h0 | h0
          · exact hhash h0
          · exact hvalue (List.length_eq_zero_iff.mp h0)
        rw [if_pos hskip, List.filter_cons_of_neg (by simpa using hout)]
        exact ih w
      · have hin : h.hash ≠ 0 ∧ h.value ≠ [] := by
          rw [not_or] at hskip
          exact ⟨hskip.1, fun h0 => hskip.2 (List.length_eq_zero_iff.mpr h0)⟩
        rw [if_neg hskip, List.filter_cons_of_pos (by simpa using hin), List.map_cons]
        show _ = onDeclined (scanR env w (headerJob conf.skip h)) _
        cases scanR env w (headerJob conf.skip h) with
        | error e => rfl
        | ok a =>
            obtain ⟨rc, w'⟩ := a
            by_cases hrc : rc = .declined
            · subst hrc
              exact ih w'
            · rw [onDeclined_found hrc]
              simp only [ok_bind, ne_eq, hrc, not_false_eq_true, if_true, pure_eq_ok]
              rfl

theorem inspectHeaders_eq (env : Env) (conf : LocConf) (r : Request) (w : World) :
    inspectHeaders env conf r w = scanJobs env (headerJobs conf r.headers.all) w := by
  unfold inspectHeaders
  rw [HeaderList.walk_eq]
  exact visitAll_visitHeader env conf r.headers.all w

/-! ## §5. The inspection before the body. -/

/-- `ngx_http_shield_inspect_prebody`. -/
def inspectPrebody (env : Env) (conf : LocConf) (r : Request) (w : World) :
    Except Fault (Inspection × World) := do
  match ← structural conf.skip r with
  | .ok hit => return (.ok hit, w)
  | _ => onDeclined (inspectTarget env conf r w) (inspectHeaders env conf r)

/-- All buffers the inspection scans while it finds nothing. -/
def prebodyJobs (conf : LocConf) (r : Request) : List ScanJob :=
  targetJobs conf r ++ headerJobs conf r.headers.all

theorem prebodyJobs_ne_nil (conf : LocConf) (r : Request) :
    ∀ job ∈ prebodyJobs conf r, job.data ≠ [] := by
  intro job hjob
  rcases List.mem_append.mp hjob with htarget | hheader
  · unfold targetJobs at htarget
    split_ifs at htarget with hempty hpath
    · cases htarget
    · rcases List.mem_cons.mp htarget with rfl | htarget
      · exact hempty
      · rw [List.mem_singleton.mp htarget]
        exact hpath.1
    · rw [List.mem_singleton.mp htarget]
      exact hempty
  · obtain ⟨h, hh, rfl⟩ := List.mem_map.mp hheader
    rw [headerJob_data]
    exact (of_decide_eq_true (List.mem_filter.mp hh).2).2

/-- **The inspection is the structural checks and a list of scans.** -/
theorem inspectPrebody_eq (env : Env) (conf : LocConf) (r : Request) (w : World) :
    (∃ hit, structural conf.skip r = .ok (.ok hit)
      ∧ inspectPrebody env conf r w = .ok (.ok hit, w))
    ∨ (structural conf.skip r = .ok .declined
      ∧ inspectPrebody env conf r w = scanJobs env (prebodyJobs conf r) w) := by
  unfold inspectPrebody
  rcases structural_answers conf.skip r with hclean | ⟨hit, hhit⟩
  · right
    refine ⟨hclean, ?_⟩
    rw [hclean, ok_bind]
    show onDeclined (inspectTarget env conf r w) (inspectHeaders env conf r) = _
    unfold prebodyJobs
    rw [scanJobs_append, inspectTarget_eq]
    exact congrArg _ (funext (inspectHeaders_eq env conf r))
  · left
    exact ⟨hit, hhit, by rw [hhit]; rfl⟩

/-- The request shows nothing before its body. -/
def PrebodyClean (env : Env) (conf : LocConf) (r : Request) : Prop :=
  structural conf.skip r = .ok .declined
    ∧ ∀ job ∈ prebodyJobs conf r, job.verdict env = .declined

/-- **When the inspection is clean**: exactly when the request shows nothing and every
scan gets its two scratch buffers; every scan has then been made. -/
theorem inspectPrebody_spec (env : Env) (conf : LocConf) (r : Request) (w : World) :
    ∃ rc w', inspectPrebody env conf r w = .ok (rc, w') ∧ w.Quiet w'
      ∧ (rc = .declined ↔ PrebodyClean env conf r
          ∧ w.Granted env (2 * (prebodyJobs conf r).length))
      ∧ (rc = .declined → w'.allocs = w.allocs + 2 * (prebodyJobs conf r).length
          ∧ w'.Did (prebodyJobs conf r)) := by
  rcases inspectPrebody_eq env conf r w with ⟨hit, hhit, hinspect⟩ | ⟨hclean, hinspect⟩
  · refine ⟨.ok hit, w, hinspect, .refl w, ?_, fun h => by cases h⟩
    constructor
    · intro h
      cases h
    · rintro ⟨⟨hclean, -⟩, -⟩
      rw [hhit] at hclean
      cases hclean
  · obtain ⟨rc, w', hscan, hquiet, hiff, hdone⟩ :=
      scanJobs_spec env (prebodyJobs conf r) (prebodyJobs_ne_nil conf r) w
    refine ⟨rc, w', hinspect.trans hscan, hquiet, ?_, hdone⟩
    rw [hiff]
    exact ⟨fun h => ⟨⟨hclean, h.2⟩, h.1⟩, fun h => ⟨h.2, h.1.2⟩⟩

end HttpShield
