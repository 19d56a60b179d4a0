/-
  HttpShield.Request.Records
  ──────────────────────────
  What the log records say: only that a request was caught, what for, and at what place.

  A hit has one name, whether it is the log, the status page or `shield_skip` that uses it,
  and what is logged of it beside the request line is plain text.  A record is made where a
  hit is acted on and nowhere else, and the request, or its body, carries the category of
  the record, outside of what is skipped.  As a datagram it is sent whole.

    • `inspectPrebody_real`, `inspectBody_real` — hits are real, whatever calls fail,
    • `handler_comes`, `bodyHandler_comes`      — what a call of the module does,
    • `serve_logs`                              — a request and its records,
    • `log_agrees`                              — a run, and the counters of the page,
    • `syslogFrame_whole`                       — the syslog sink.
-/
import HttpShield.Config.Directives
import HttpShield.Request.Accounting
import HttpShield.Request.BanStatus
import HttpShield.Request.LogSink

namespace HttpShield

open JsonText (loads)

/-! ## §1. Names. -/

/-- The sources of hits. -/
def hitSources : List String :=
  ["uri", "user-agent", "referer", "content-type", "header", "range", "body"]

/-- **The hit has its names**: the category that of the status page and of `shield_skip`,
and the source one of those there are. -/
structure Hit.Named (hit : Hit) : Prop where
  category : hit.category = catName hit.cat
  skip : catByName hit.category = some hit.cat
  source : ∃ s ∈ hitSources, hit.source = bytesOf s

/-- A row is found by its category and by its name. -/
theorem row_named : ∀ c ∈ shieldCategories, c.name = catName c.cat
    ∧ catByName c.name = some c.cat := by
  decide +kernel

theorem CatDef.hit_named {c : CatDef} (hc : c ∈ shieldCategories) {source : String}
    (hsource : source ∈ hitSources) : (c.hit (bytesOf source)).Named where
  category := (row_named c hc).1
  skip := (row_named c hc).2
  source := ⟨source, hsource, rfl⟩

/-- The hits of the structural checks have the names of their categories,
and sources of the module. -/
theorem structuralHit_named : (structuralHit .httpoxy "httpoxy" "header").Named
    ∧ (structuralHit .rangeDos "range_dos" "range").Named
    ∧ (structuralHit .ctrlChar "ctrl_char" "uri").Named
    ∧ (structuralHit .dotfile "dotfile" "uri").Named := by
  refine ⟨⟨?_, ?_, "header", by decide, rfl⟩, ⟨?_, ?_, "range", by decide, rfl⟩,
    ⟨?_, ?_, "uri", by decide, rfl⟩, ⟨?_, ?_, "uri", by decide, rfl⟩⟩ <;> decide +kernel

/-- The names of categories and sources are plain, and short. -/
theorem names_plain : (∀ cat < 64, Plain (catName cat) ∧ (catName cat).length ≤ 14)
    ∧ ∀ s ∈ hitSources, Plain (bytesOf s) ∧ (bytesOf s).length ≤ 12 := by
  constructor
  · decide +kernel
  · decide +kernel

/-- What the naive search finds is a row. -/
theorem naiveScan_row {T : Tables} {flavour : Nat} {data : Bytes} {skip : Mask} {c : CatDef}
    (h : naiveScan T flavour data skip = some c) : c ∈ T.categories := by
  unfold naiveScan at h
  cases hsig : data.inits.findSome? (T.rowAt flavour skip) with
  | some c' =>
      rw [hsig] at h
      obtain rfl := Option.some.inj h
      obtain ⟨pre, -, hrow⟩ := List.exists_of_findSome?_eq_some hsig
      exact List.mem_of_find?_eq_some hrow
  | none =>
      rw [hsig] at h
      obtain ⟨r, -, hrow⟩ := Option.bind_eq_some_iff.mp h
      exact List.mem_of_find?_eq_some hrow

theorem naiveInput_named {U : NgxUnescape} {data : Bytes} {source : String} {skip : Mask}
    {hit : Hit} (hsource : source ∈ hitSources)
    (h : naiveInput U data (bytesOf source) skip = .ok hit) : hit.Named := by
  unfold naiveInput at h
  cases hraw : naiveScan shieldTables matchRaw (ngxStrlow data) skip with
  | some c =>
      rw [hraw] at h
      obtain rfl := Inspection.ok.inj h
      exact CatDef.hit_named (naiveScan_row hraw) hsource
  | none =>
      rw [hraw] at h
      dsimp only at h
      cases hdec : naiveScan shieldTables matchDecoded (U.normalise data) skip with
      | some c =>
          rw [hdec] at h
          obtain rfl := Inspection.ok.inj h
          exact CatDef.hit_named (naiveScan_row hdec) hsource
      | none =>
          rw [hdec] at h
          cases h

/-- The source of every scan before the body is one of the sources of the module. -/
theorem prebodyJobs_source (conf : LocConf) (r : Request) :
    ∀ job ∈ prebodyJobs conf r, ∃ s ∈ hitSources, job.source = bytesOf s := by
  have huri : "uri" ∈ hitSources := by decide
  have htarget : ∀ job ∈ targetJobs conf r, ∃ s ∈ hitSources, job.source = bytesOf s := by
    intro job hjob
    unfold targetJobs at hjob
    split_ifs at hjob with hempty hsecond
    · cases hjob
    · rcases List.mem_cons.mp hjob with rfl | hjob
      · exact ⟨"uri", huri, rfl⟩
      · rw [List.mem_singleton.mp hjob]
        exact ⟨"uri", huri, rfl⟩
    · rw [List.mem_singleton.mp hjob]
      exact ⟨"uri", huri, rfl⟩
  intro job hjob
  rcases List.mem_append.mp hjob with hjob | hjob
  · exact htarget job hjob
  · obtain ⟨h, -, rfl⟩ := List.mem_map.mp hjob
    unfold headerJob
    split_ifs
    · exact ⟨"user-agent", by decide, rfl⟩
    · exact ⟨"referer", by decide, rfl⟩
    · exact ⟨"content-type", by decide, rfl⟩
    · exact ⟨"header", by decide, rfl⟩
    · exact ⟨"header", by decide, rfl⟩
    · exact ⟨"header", by decide, rfl⟩

theorem ScanJob.verdict_named {env : Env} {job : ScanJob} {hit : Hit}
    (hsource : ∃ s ∈ hitSources, job.source = bytesOf s) (h : job.verdict env = .ok hit) :
    hit.Named := by
  obtain ⟨s, hs, hjob⟩ := hsource
  unfold ScanJob.verdict at h
  rw [hjob] at h
  exact naiveInput_named hs h

/-- A check hits under its own name. -/
theorem checkHttpoxy_named {skip : Mask} {r : Request} {hit : Hit}
    (h : checkHttpoxy skip r = .ok (.ok hit)) : hit.Named := by
  unfold checkHttpoxy at h
  split_ifs at h with hskip
  · cases h
  · obtain ⟨⟨found, u⟩, -, h⟩ := bind_eq_ok h
    cases found with
    | none => cases h
    | some v =>
        obtain rfl := Inspection.ok.inj (Except.ok.inj h)
        exact structuralHit_named.1

theorem checkRange_named {skip : Mask} {r : Request} {hit : Hit}
    (h : checkRange skip r = .ok (.ok hit)) : hit.Named := by
  unfold checkRange at h
  split_ifs at h with hskip
  · cases h
  · cases hrange : r.range with
    | none =>
        rw [hrange] at h
        cases h
    | some range =>
        rw [hrange] at h
        dsimp only at h
        split_ifs at h with hmany
        · obtain rfl := Inspection.ok.inj (Except.ok.inj h)
          exact structuralHit_named.2.1
        · cases h

theorem checkCtrlChar_named {skip : Mask} {r : Request} {hit : Hit}
    (h : checkCtrlChar skip r = .ok (.ok hit)) : hit.Named := by
  unfold checkCtrlChar at h
  split_ifs at h with hskip hany
  · cases h
  · obtain rfl := Inspection.ok.inj (Except.ok.inj h)
    exact structuralHit_named.2.2.1
  · cases h

theorem checkDotfile_named {skip : Mask} {r : Request} {hit : Hit}
    (h : checkDotfile skip r = .ok (.ok hit)) : hit.Named := by
  unfold checkDotfile at h
  split_ifs at h with hskip
  · cases h
  · obtain ⟨found, -, h⟩ := bind_eq_ok h
    cases found with
    | false => cases h
    | true =>
        obtain rfl := Inspection.ok.inj (Except.ok.inj h)
        exact structuralHit_named.2.2.2

theorem structural_named {skip : Mask} {r : Request} {hit : Hit}
    (h : structural skip r = .ok (.ok hit)) : hit.Named := by
  unfold structural at h
  rcases checkHttpoxy_answers skip r with hproxy | ⟨hit₁, hproxy⟩
  · rcases checkRange_answers skip r with hrange | ⟨hit₂, hrange⟩
    · rcases checkCtrlChar_answers skip r with hctrl | ⟨hit₃, hctrl⟩
      · simp only [hproxy, hrange, hctrl, ok_bind] at h
        exact checkDotfile_named h
      · simp only [hproxy, hrange, hctrl, ok_bind] at h
        obtain rfl := Inspection.ok.inj (Except.ok.inj h)
        exact checkCtrlChar_named hctrl
    · simp only [hproxy, hrange, ok_bind] at h
      obtain rfl := Inspection.ok.inj (Except.ok.inj h)
      exact checkRange_named hrange
  · simp only [hproxy, ok_bind] at h
    obtain rfl := Inspection.ok.inj (Except.ok.inj h)
    exact checkHttpoxy_named hproxy

/-! ## §2. Hits are real. -/

/-- **The hit is real**: it has its names, and its category is live and is carried by the
request, or by the part of its body that is scanned. -/
structure Hit.Real (env : Env) (conf : LocConf) (r : Request) (hit : Hit) : Prop where
  named : hit.Named
  carried : ∃ c : ShieldCat, hit.cat = c.bit ∧ conf.skip.getLsbD c.bit = false
    ∧ (PrebodyCarries env r c ∨ ∃ a, env.body.arrival = some a
      ∧ env.unescape.Carries (a.content.take conf.maxBody) c.bit)

/-- What the buffer of a job carries, live, is carried by the request. -/
theorem prebodyJobs_carry {env : Env} {conf : LocConf} {r : Request} {job : ScanJob}
    (hjob : job ∈ prebodyJobs conf r) {c : ShieldCat} (hlive : job.skip.getLsbD c.bit = false)
    (hcarries : env.unescape.Carries job.data c.bit) :
    conf.skip.getLsbD c.bit = false ∧ PrebodyCarries env r c := by
  have hwhole : job = wholeJob conf r →
      conf.skip.getLsbD c.bit = false ∧ PrebodyCarries env r c := by
    intro heq
    rw [heq] at hlive hcarries
    unfold wholeJob at hlive hcarries
    rw [or_getLsbD_eq_false] at hlive
    exact ⟨hlive.1, .inr (.inl (.inl ⟨hlive.2, hcarries⟩))⟩
  rcases List.mem_append.mp hjob with hjob | hjob
  · unfold targetJobs at hjob
    split_ifs at hjob with hempty hsecond
    · cases hjob
    · rcases List.mem_cons.mp hjob with heq | hjob
      · exact hwhole heq
      · -- the second pass is over the path, for what a query may not report
        rw [List.mem_singleton.mp hjob] at hlive hcarries
        unfold pathJob at hlive hcarries
        rw [or_getLsbD_eq_false, BitVec.getLsbD_not] at hlive
        have hquery : queryMask.getLsbD c.bit = true := by
          simpa [c.bit_lt] using hlive.2
        exact ⟨hlive.1, .inr (.inl (.inr ⟨hquery, hcarries⟩))⟩
    · exact hwhole (List.mem_singleton.mp hjob)
  · obtain ⟨h, hh, rfl⟩ := List.mem_map.mp hjob
    obtain ⟨hmem, hfilter⟩ := List.mem_filter.mp hh
    rw [headerJob_skip, or_getLsbD_eq_false] at hlive
    rw [headerJob_data] at hcarries
    exact ⟨hlive.1, .inr (.inr ⟨h, hmem, (of_decide_eq_true hfilter).1, hlive.2, hcarries⟩)⟩

/-- A hit of the checks or of a scan of the target or a header is real. -/
theorem inspectPrebody_real {env : Env} {conf : LocConf} {r : Request} {w w' : World} {hit : Hit}
    (h : inspectPrebody env conf r w = .ok (.ok hit, w')) : hit.Real env conf r := by
  rcases inspectPrebody_eq env conf r w with ⟨hit', hstructural, hinspect⟩ | ⟨-, hinspect⟩
  · obtain rfl : hit' = hit :=
      Inspection.ok.inj (Prod.ext_iff.mp (Except.ok.inj (hinspect.symm.trans h))).1
    refine ⟨structural_named hstructural, ?_⟩
    rcases structural_spec conf.skip r with ⟨hit'', c, hhit, hcat, hlive, hcase⟩ | ⟨hclean, -⟩
    · obtain rfl : hit' = hit'' :=
        Inspection.ok.inj (Except.ok.inj (hstructural.symm.trans hhit))
      exact ⟨c, hcat, hlive, .inl (.inl hcase)⟩
    · cases hstructural.symm.trans hclean
  · rw [hinspect] at h
    obtain ⟨job, hjob, hverdict⟩ := scanJobs_hit (prebodyJobs_ne_nil conf r) h
    refine ⟨ScanJob.verdict_named (prebodyJobs_source conf r job hjob) hverdict, ?_⟩
    obtain ⟨hlive, hcarries⟩ := naiveInput_hit_live hverdict
    obtain ⟨c, hc⟩ := hcarries.cat_eq
    rw [hc] at hlive hcarries
    obtain ⟨hskip, hprebody⟩ := prebodyJobs_carry hjob hlive hcarries
    exact ⟨c, hc, hskip, .inl hprebody⟩

/-- A hit of the body inspection is real: the body of the request carries its category. -/
theorem inspectBody_real {env : Env} {conf : LocConf} {a : Arrival env.hash} {w w' : World}
    {r : Request} {hit : Hit} (harrival : env.body.arrival = some a)
    (h : inspectBody env conf a w = .ok (.ok hit, w')) : hit.Real env conf r := by
  obtain ⟨job, hjob, hverdict⟩ := inspectBody_job h
  unfold bodyJobs at hjob
  split_ifs at hjob with hempty
  · cases hjob
  · obtain rfl := List.mem_singleton.mp hjob
    refine ⟨ScanJob.verdict_named ⟨"body", by decide, rfl⟩ hverdict, ?_⟩
    obtain ⟨hlive, hcarries⟩ := naiveInput_hit_live hverdict
    obtain ⟨c, hc⟩ := hcarries.cat_eq
    rw [hc] at hlive hcarries
    unfold bodyJob at hlive hcarries
    rw [or_getLsbD_eq_false] at hlive
    exact ⟨c, hc, hlive.1, .inr ⟨a, harrival, hcarries⟩⟩

/-! ## §3. Inspecting logs nothing. -/

theorem scanJobs_logged {env : Env} {jobs : List ScanJob} (hne : ∀ job ∈ jobs, job.data ≠ [])
    {w w' : World} {rc : Inspection} (h : scanJobs env jobs w = .ok (rc, w')) :
    w'.logged = w.logged := by
  induction jobs generalizing w with
  | nil =>
      obtain ⟨-, rfl⟩ := Prod.ext_iff.mp (Except.ok.inj h)
      rfl
  | cons job jobs ih =>
      unfold scanJobs at h
      rw [scanR_eq env w (hne job List.mem_cons_self)] at h
      by_cases hgranted : env.granted w.allocs = true ∧ env.granted (w.allocs + 1) = true
      · rw [if_pos hgranted] at h
        by_cases hclean : job.verdict env = .declined
        · rw [hclean, onDeclined_declined] at h
          have hsame := ih (fun j hj => hne j (List.mem_cons_of_mem _ hj)) h
          exact hsame
        · rw [onDeclined_found hclean] at h
          obtain ⟨-, rfl⟩ := Prod.ext_iff.mp (Except.ok.inj h)
          rfl
      · rw [if_neg hgranted, onDeclined_found (by simp)] at h
        obtain ⟨-, rfl⟩ := Prod.ext_iff.mp (Except.ok.inj h)
        rfl

theorem inspectPrebody_logged {env : Env} {conf : LocConf} {r : Request} {w w' : World}
    {rc : Inspection} (h : inspectPrebody env conf r w = .ok (rc, w')) : w'.logged = w.logged := by
  rcases inspectPrebody_eq env conf r w with ⟨hit, -, hinspect⟩ | ⟨-, hinspect⟩
  · obtain ⟨-, rfl⟩ := Prod.ext_iff.mp (Except.ok.inj (hinspect.symm.trans h))
    rfl
  · exact scanJobs_logged (prebodyJobs_ne_nil conf r) (hinspect.symm.trans h)

theorem readLoop_logged (env : Env) (max : Nat) (fuel : Nat) :
    ∀ {file : Bytes} {len : Nat} {out : Bytes} {w w' : World} {got : Option Bytes},
      readLoop env max fuel file len out w = .ok (got, w') → w'.logged = w.logged := by
  induction fuel with
  | zero =>
      intro file len out w w' got h
      cases len with
      | zero =>
          obtain ⟨-, rfl⟩ := Prod.ext_iff.mp (Except.ok.inj h)
          rfl
      | succ len => cases h
  | succ fuel ih =>
      intro file len out w w' got h
      cases len with
      | zero =>
          obtain ⟨-, rfl⟩ := Prod.ext_iff.mp (Except.ok.inj h)
          rfl
      | succ len =>
          unfold readLoop at h
          dsimp only at h
          split_ifs at h with hnone
          · obtain ⟨-, rfl⟩ := Prod.ext_iff.mp (Except.ok.inj h)
            rfl
          · obtain ⟨out', -, h⟩ := bind_eq_ok h
            have hsame := ih h
            exact hsame

theorem collectLoop_logged (env : Env) (max : Nat) (bufs : List Buf) :
    ∀ {out : Bytes} {w w' : World} {got : Option Bytes},
      collectLoop env max bufs out w = .ok (got, w') → w'.logged = w.logged := by
  induction bufs with
  | nil =>
      intro out w w' got h
      obtain ⟨-, rfl⟩ := Prod.ext_iff.mp (Except.ok.inj h)
      rfl
  | cons b bufs ih =>
      intro out w w' got h
      unfold collectLoop at h
      split_ifs at h with hroom
      · cases b with
        | memory bytes =>
            obtain ⟨out', -, h⟩ := bind_eq_ok h
            exact ih h
        | file bytes =>
            obtain ⟨⟨got', w₁⟩, hread, h⟩ := bind_eq_ok h
            have hsame := readLoop_logged env max _ hread
            cases got' with
            | none =>
                obtain ⟨-, rfl⟩ := Prod.ext_iff.mp (Except.ok.inj h)
                exact hsame
            | some out' => exact (ih h).trans hsame
        | special => exact ih h
      · obtain ⟨-, rfl⟩ := Prod.ext_iff.mp (Except.ok.inj h)
        rfl

theorem inspectBody_logged {env : Env} {conf : LocConf} {a : Arrival env.hash} {w w' : World}
    {rc : Inspection} (h : inspectBody env conf a w = .ok (rc, w')) : w'.logged = w.logged := by
  have hcollect : ∀ {got : Option Bytes} {w₁ : World},
      collectBody env conf.maxBody a w = .ok (got, w₁) → w₁.logged = w.logged := by
    intro got w₁ h
    unfold collectBody at h
    cases hbufs : a.bufs with
    | none =>
        rw [hbufs] at h
        obtain ⟨-, rfl⟩ := Prod.ext_iff.mp (Except.ok.inj h)
        rfl
    | some bufs =>
        rw [hbufs] at h
        dsimp only at h
        split_ifs at h with hzero hgranted
        · obtain ⟨-, rfl⟩ := Prod.ext_iff.mp (Except.ok.inj h)
          rfl
        · have hsame := collectLoop_logged env _ bufs h
          exact hsame
        · obtain ⟨-, rfl⟩ := Prod.ext_iff.mp (Except.ok.inj h)
          rfl
  obtain ⟨got, w₁, hgot, -⟩ := collectBody_spec env conf.maxBody a w
  have hsame := hcollect hgot
  cases got with
  | none =>
      unfold inspectBody at h
      rw [hgot, ok_bind] at h
      obtain ⟨-, rfl⟩ := Prod.ext_iff.mp (Except.ok.inj h)
      exact hsame
  | some body =>
      rw [inspectBody_collected hgot] at h
      exact (scanJobs_logged (bodyJobs_ne_nil conf a.content) h).trans hsame

/-! ## §4. What a call comes to. -/

/-- The world came here by the ban check and by scanning, as far as there was any. -/
structure World.Reaches (env : Env) (conf : LocConf) (r : Request) (w w' : World) : Prop where
  acted : w'.acted = w.acted
  logged : w'.logged = w.logged
  now : w'.now = w.now
  zone : w'.zone = w.zone ∨ ∃ banned, checkBan env conf r w = .ok (banned, w.setZone w'.zone)

/-- **What one call of the module comes to**: nothing, or one hit that is acted on. -/
inductive World.Comes (env : Env) (conf : LocConf) (r : Request) (w w' : World) : Prop where
  | nothing (hreach : w.Reaches env conf r w')
  | hit (hit : Hit) (w₁ w₂ : World) (hreal : hit.Real env conf r)
      (hreach : w.Reaches env conf r w₁) (hact : act env conf r hit w₁ = .ok (conf.denial, w₂))
      (hacted : w'.acted = w₂.acted) (hlogged : w'.logged = w₂.logged) (hzone : w'.zone = w₂.zone)

theorem World.Reaches.refl (env : Env) (conf : LocConf) (r : Request) (w : World) :
    w.Reaches env conf r w where
  acted := rfl
  logged := rfl
  now := rfl
  zone := .inl rfl

/-- A world is still reached after a scan that leaves counters, clock, zone and log alone. -/
theorem World.Reaches.quiet {env : Env} {conf : LocConf} {r : Request} {w w₁ w' : World}
    (h : w.Reaches env conf r w₁) (hquiet : w₁.Quiet w') (hlogged : w'.logged = w₁.logged) :
    w.Reaches env conf r w' where
  acted := hquiet.acted.trans h.acted
  logged := hlogged.trans h.logged
  now := hquiet.now.trans h.now
  zone := by
    rw [hquiet.zone]
    exact h.zone

/-- The zone of a world that is reached is well-formed if it was at the start. -/
theorem World.Reaches.wf {env : Env} {conf : LocConf} {r : Request} {w w' : World}
    (h : w.Reaches env conf r w') (hzone : ∃ ps, w.zone.Wf env.hash ps) :
    ∃ ps, w'.zone.Wf env.hash ps := by
  rcases h.zone with hsame | ⟨banned, hcheck⟩
  · rw [hsame]
    exact hzone
  · obtain ⟨banned', zone, hcheck', -, hwf⟩ := checkBan_eq env conf r hzone
    obtain ⟨-, hw⟩ := Prod.ext_iff.mp (Except.ok.inj (hcheck.symm.trans hcheck'))
    rw [show w'.zone = zone from congrArg World.zone hw]
    exact hwf

/-- Waiting for the body does nothing but take memory. -/
theorem awaitBody_reaches {env : Env} {conf : LocConf} {r : Request} {w w₁ : World}
    (h : w.Reaches env conf r w₁) : w.Reaches env conf r (awaitBody env conf r w₁).2 := by
  unfold awaitBody
  split
  · exact h
  · dsimp only
    split
    · exact ⟨h.acted, h.logged, h.now, h.zone⟩
    · split <;> exact ⟨h.acted, h.logged, h.now, h.zone⟩

/-- The first pass, behind the ban check, comes to nothing or to one real hit. -/
theorem firstPass_comes (env : Env) (conf : LocConf) (r : Request) {w w₀ : World}
    (hreach : w.Reaches env conf r w₀) (hzone : ∃ ps, w₀.zone.Wf env.hash ps) :
    ∃ rc w', firstPass env conf r w₀ = .ok (rc, w') ∧ w.Comes env conf r w'
      ∧ (rc = ngxDone → w.Reaches env conf r w') := by
  obtain ⟨rc, w', hinspect, hquiet, -⟩ := inspectPrebody_spec env conf r w₀
  have hcame := hreach.quiet hquiet (inspectPrebody_logged hinspect)
  unfold firstPass
  rw [hinspect, ok_bind]
  cases rc with
  | error =>
      exact ⟨conf.fail, w', rfl, .nothing hcame, fun h => absurd h conf.fail_ne_done⟩
  | ok hit =>
      have hwf : ∃ ps, w'.zone.Wf env.hash ps := by
        rw [hquiet.zone]
        exact hzone
      obtain ⟨w'', hact, -⟩ := act_returns env conf r hit hwf
      exact ⟨conf.denial, w'', hact,
        .hit hit w' w'' (inspectPrebody_real hinspect) hcame hact rfl rfl rfl,
        fun h => absurd h conf.denial_ne_done⟩
  | declined =>
      have hwaits := awaitBody_reaches hcame
      exact ⟨_, _, rfl, .nothing hwaits, fun _ => hwaits⟩

/-- A request that is not inspected is declined, and leaves the world as it is. -/
theorem handler_off (env : Env) {conf : LocConf} {r : Request}
    (hoff : ¬ (r.isMain = true ∧ conf.mode ≠ .off)) (w : World) :
    handler env conf r w = .ok (ngxDeclined, w) := by
  unfold handler
  by_cases hmain : r.isMain = true
  · rw [if_neg (by simp [hmain]), if_pos (not_not.mp fun hmode => hoff ⟨hmain, hmode⟩)]
  · rw [if_pos hmain]

/-- **The first entry of a request** comes to nothing or to one real hit. -/
theorem handler_comes (env : Env) (conf : LocConf) (r : Request) {w : World} (hctx : w.ctx = none)
    (hzone : ∃ ps, w.zone.Wf env.hash ps) :
    ∃ rc w', handler env conf r w = .ok (rc, w') ∧ w.Comes env conf r w'
      ∧ (rc = ngxDone → w.Reaches env conf r w') := by
  by_cases hon : r.isMain = true ∧ conf.mode ≠ .off
  · obtain ⟨hmain, hmode⟩ := hon
    obtain ⟨banned, zone, hcheck, -, hwf⟩ := checkBan_eq env conf r hzone
    have hreach : w.Reaches env conf r (w.setZone zone) :=
      ⟨rfl, rfl, rfl, .inr ⟨banned, hcheck⟩⟩
    unfold handler
    rw [if_neg (by simp [hmain]), if_neg hmode]
    simp only [hctx, hcheck, ok_bind]
    cases banned with
    | true =>
        exact ⟨conf.status, _, rfl, .nothing hreach, fun h => absurd h conf.status_ne_done⟩
    | false => exact firstPass_comes env conf r hreach hwf
  · have hreach := World.Reaches.refl env conf r w
    exact ⟨ngxDeclined, w, handler_off env hon w, .nothing hreach, fun _ => hreach⟩

/-- **The body handler** comes to nothing or to one real hit, and sets the status. -/
theorem bodyHandler_comes {env : Env} (conf : LocConf) (r : Request) {a : Arrival env.hash}
    (harrival : env.body.arrival = some a) {w : World} (hctx : w.ctx.isSome = true)
    (hzone : ∃ ps, w.zone.Wf env.hash ps) :
    ∃ status w', bodyHandler env conf r a w = .ok w' ∧ w'.ctx = some ⟨status⟩
      ∧ w.Comes env conf r w' := by
  obtain ⟨rc, w', hinspect, hquiet, -⟩ := inspectBody_spec env conf a w
  have hcame := (World.Reaches.refl env conf r w).quiet hquiet (inspectBody_logged hinspect)
  unfold bodyHandler
  rw [hinspect, ok_bind]
  cases rc with
  | error =>
      exact ⟨conf.fail, _, setStatus_of_ctx hctx hquiet.ctx _, rfl,
        .nothing ⟨hcame.acted, hcame.logged, hcame.now, hcame.zone⟩⟩
  | declined =>
      exact ⟨ngxDeclined, _, setStatus_of_ctx hctx hquiet.ctx _, rfl,
        .nothing ⟨hcame.acted, hcame.logged, hcame.now, hcame.zone⟩⟩
  | ok hit =>
      have hwf : ∃ ps, w'.zone.Wf env.hash ps := by
        rw [hquiet.zone]
        exact hzone
      obtain ⟨w'', hact, hctx'', -⟩ := act_returns env conf r hit hwf
      refine ⟨conf.denial, w''.setCtx conf.denial, ?_, rfl,
        .hit hit w' w'' (inspectBody_real harrival hinspect) hcame hact rfl rfl rfl⟩
      show (act env conf r hit w' >>= fun x => x.2.setStatus _) = _
      rw [hact, ok_bind, setStatus_of_ctx hctx (hctx''.trans hquiet.ctx)]
      split
      · next h => rw [show conf.denial = ngxDeclined from h]
      · rfl

/-! ## §5. What is logged. -/

/-- The records `ngx_http_shield_write_log` makes of a hit: for each sink one, where it gets
its buffer. -/
def hitRecords (env : Env) (conf : LocConf) (r : Request) (hit : Hit) (w : World) :
    List LogRecord :=
  if ¬ conf.log ∧ ¬ conf.syslogPeer then []
  else if env.granted w.allocs then
    (if conf.log then [.of .file conf r hit w] else [])
      ++ if conf.syslogPeer ∧ env.granted (w.allocs + 1) then [.of .syslog conf r hit w] else []
  else []

theorem writeLog_logged (env : Env) (conf : LocConf) (r : Request) (hit : Hit) (w : World) :
    (writeLog env conf r hit w).logged = w.logged ++ hitRecords env conf r hit w := by
  unfold writeLog hitRecords
  by_cases hnone : ¬ conf.log = true ∧ ¬ conf.syslogPeer = true
  · rw [if_pos hnone, if_pos hnone, List.append_nil]
  · rw [if_neg hnone, if_neg hnone]
    unfold World.ifGranted
    by_cases hgranted : env.granted w.allocs = true
    · rw [if_pos (show (w.palloc env).1 = true from hgranted), if_pos hgranted]
      unfold writeLogSyslog writeLogFile World.ifGranted
      by_cases hlog : conf.log = true <;> by_cases hpeer : conf.syslogPeer = true <;>
        by_cases hsecond : env.granted (w.allocs + 1) = true <;>
        simp [hlog, hpeer, hsecond, World.palloc, World.noteLog, LogRecord.of]
    · rw [if_neg (show ¬ (w.palloc env).1 = true from hgranted), if_neg hgranted,
        List.append_nil]
      rfl

/-- **What was logged from one world to another**: nothing, or one hit. -/
inductive World.Logs (env : Env) (conf : LocConf) (r : Request) (w w' : World) : Prop where
  | nothing (hacted : w'.acted = w.acted) (hlogged : w'.logged = w.logged)
  | hit (hit : Hit) (w₁ : World) (hreal : hit.Real env conf r) (hnow : w₁.now = w.now)
      (hacted : w'.acted = w.acted + 1)
      (hlogged : w'.logged = w.logged ++ hitRecords env conf r hit w₁)

/-- **Acting on a hit logs it.** -/
theorem World.Comes.logs {env : Env} {conf : LocConf} {r : Request} {w w' : World}
    (h : w.Comes env conf r w') (hzone : ∃ ps, w.zone.Wf env.hash ps) :
    World.Logs env conf r w w' := by
  cases h with
  | nothing hreach => exact .nothing hreach.acted hreach.logged
  | hit hit w₁ w₂ hreal hreach hact hacted hlogged _ =>
      obtain ⟨zone, hrecord, -⟩ := recordHit_returns env conf r hit (hreach.wf hzone)
      unfold act at hact
      rw [hrecord, ok_bind] at hact
      obtain ⟨-, rfl⟩ := Prod.ext_iff.mp (Except.ok.inj hact)
      have hquiet := writeLog_quiet env conf r hit (w₁.setZone zone).noteAct
      refine .hit hit (w₁.setZone zone).noteAct hreal hreach.now ?_ ?_
      · rw [hacted]
        show (writeLog env conf r hit (w₁.setZone zone).noteAct).acted = _
        rw [hquiet.acted, ← hreach.acted]
        rfl
      · rw [hlogged]
        show (writeLog env conf r hit (w₁.setZone zone).noteAct).logged = _
        rw [writeLog_logged, ← hreach.logged]
        rfl

/-- **A request logs at most one hit, and a real one**, whatever calls fail and whatever
becomes of its body: what it leaves in the log is one record for each sink, of a hit whose
category is live and is carried by the request or by its body, and it leaves none where no
hit was acted on. -/
theorem serve_logs (env : Env) (conf : LocConf) (r : Request) (w : World) (hctx : w.ctx = none)
    (hzone : ∃ ps, w.zone.Wf env.hash ps) :
    ∃ rc w', serve env conf r w = .ok (rc, w')
      ∧ ((w'.acted = w.acted ∧ w'.logged = w.logged)
        ∨ w'.acted = w.acted + 1 ∧ ∃ hit w₁, hit.Real env conf r
          ∧ (w₁.now = w.now ∨ ∃ a, env.body.arrival = some a ∧ w₁.now = a.now)
          ∧ w'.logged = w.logged ++ hitRecords env conf r hit w₁) := by
  obtain ⟨rc, w₁, hfirst, hcomes, hwaits⟩ := handler_comes env conf r hctx hzone
  unfold serve
  rw [hfirst, ok_bind]
  by_cases hdone : rc = ngxDone
  · subst hdone
    obtain ⟨hacted, hlogged, -⟩ := hwaits rfl
    simp only [ne_eq, not_true_eq_false, if_false]
    cases harrival : env.body.arrival with
    | none => exact ⟨ngxDone, w₁, rfl, .inl ⟨hacted, hlogged⟩⟩
    | some a =>
        -- only a request that is inspected waits, and it has a context
        have hon : r.isMain = true ∧ conf.mode ≠ .off := by
          by_contra hoff
          cases (handler_off env hoff w).symm.trans hfirst
        obtain ⟨rc', w₁', hfirst', hends⟩ := handler_first env conf r hon.1 hon.2 hctx hzone
        obtain ⟨rfl, rfl⟩ : ngxDone = rc' ∧ w₁ = w₁' :=
          Prod.ext_iff.mp (Except.ok.inj (hfirst.symm.trans hfirst'))
        have hsome : (w₁.resume a).ctx.isSome = true := by
          show w₁.ctx.isSome = true
          rw [hends.waits.2.2.2.2.2]
          rfl
        obtain ⟨status, w', hbody, hset, hcomes'⟩ :=
          @bodyHandler_comes env conf r a harrival (w₁.resume a) hsome a.zone_wf
        refine ⟨status, w', ?_, ?_⟩
        · simp only [hbody, ok_bind]
          exact handler_reentry env conf r hon.1 hon.2 hset
        · cases hcomes'.logs a.zone_wf with
          | nothing hacted' hlogged' =>
              exact .inl ⟨hacted'.trans hacted, hlogged'.trans hlogged⟩
          | hit hit w₂ hreal hnow hacted' hlogged' =>
              refine .inr ⟨hacted'.trans (congrArg (· + 1) hacted), hit, w₂, hreal,
                .inr ⟨a, rfl, hnow⟩, ?_⟩
              rw [hlogged']
              exact congrArg (· ++ _) hlogged
  · simp only [ne_eq, hdone, not_false_eq_true, if_true]
    refine ⟨rc, w₁, rfl, ?_⟩
    cases hcomes.logs hzone with
    | nothing hacted hlogged => exact .inl ⟨hacted, hlogged⟩
    | hit hit w₂ hreal hnow hacted hlogged =>
        exact .inr ⟨hacted, hit, w₂, hreal, .inl hnow, hlogged⟩

/-! ## §6. Runs. -/

section Turns

variable {env : Env}

/-- The records that a turn leaves, for whatever sink. -/
def ServerTurn.records (t : ServerTurn env) : List LogRecord :=
  t.after.logged.drop t.before.logged.length

/-- The records that a turn leaves for the log file. -/
def ServerTurn.fileRecords (t : ServerTurn env) : List LogRecord :=
  t.records.filter fun rec => rec.sink = .file

/-- The number of records that a run leaves for the log file. -/
def linesLogged (turns : List (ServerTurn env)) : Nat :=
  (turns.flatMap ServerTurn.fileRecords).length

/-- What the turn logs is what its one call of the module does. -/
abbrev ServerTurn.Logs (t : ServerTurn env) : Prop :=
  World.Logs t.caller.env t.caller.conf t.caller.request t.before t.after

/-- **A turn comes to nothing, or to one hit.** -/
theorem Server.Sound.comes {s s' : Server env} {t : ServerTurn env} (h : s.Sound)
    (hstep : Server.Step env s t s') :
    t.before.Comes t.caller.env t.caller.conf t.caller.request t.after := by
  cases hstep with
  | @enter i c now rc w hfree hrun =>
      obtain ⟨rc', w', hrun', hcomes, -⟩ :=
        @handler_comes c.env c.conf c.request (.arrive s.zone now) rfl h.wf
      obtain ⟨rfl, rfl⟩ : rc = rc' ∧ w = w' :=
        Prod.ext_iff.mp (Except.ok.inj (hrun.symm.trans hrun'))
      exact hcomes
  | @resume i c w w₁ w₂ rc a hwait harrival hzone hbody hrun =>
      obtain ⟨hmain, hmode, hctx⟩ := h.waits i c w hwait
      obtain ⟨status, w', hbody', hset, hcomes⟩ :=
        @bodyHandler_comes c.env c.conf c.request a harrival (w.resume a) hctx a.zone_wf
      obtain rfl : w₁ = w' := Except.ok.inj (hbody.symm.trans hbody')
      -- the re-entry answers what was recorded
      have hreentry := handler_reentry c.env c.conf c.request hmain hmode hset
      obtain ⟨rfl, rfl⟩ : rc = status ∧ w₂ = w₁ :=
        Prod.ext_iff.mp (Except.ok.inj (hrun.symm.trans hreentry))
      exact hcomes

/-- A turn of a sound server logs the hit that it acts on, once, or nothing. -/
theorem Server.Sound.logs {s s' : Server env} {t : ServerTurn env} (h : s.Sound)
    (hstep : Server.Step env s t s') : t.Logs := by
  obtain ⟨-, hadds⟩ := h.step hstep
  apply (h.comes hstep).logs
  rw [hadds.from_zone]
  exact h.wf

theorem Server.Run.logs {s s' : Server env} {turns : List (ServerTurn env)}
    (hrun : Server.Run env s turns s') (hs : s.Sound) : ∀ t ∈ turns, t.Logs := by
  induction hrun with
  | nil s =>
      intro t ht
      cases ht
  | @cons s s₁ s' t turns hstep hrest ih =>
      rw [List.forall_mem_cons]
      exact ⟨hs.logs hstep, ih (hs.step hstep).1⟩

/-! ## §7. Records and hits. -/

/-- A record says what the hit was, and when. -/
theorem mem_hitRecords {conf : LocConf} {r : Request} {hit : Hit} {w w₁ : World}
    (hnow : w₁.now = w.now) {rec : LogRecord} (h : rec ∈ hitRecords env conf r hit w₁) :
    rec = .of rec.sink conf r hit w := by
  have hof : ∀ sink, LogRecord.of sink conf r hit w₁ = .of sink conf r hit w := by
    intro sink
    unfold LogRecord.of
    rw [hnow]
  unfold hitRecords at h
  split_ifs at h with hnone hgranted hlog hsecond hsecond
  · cases h
  · rcases List.mem_append.mp h with h | h
    · rw [List.mem_singleton.mp h]
      exact hof .file
    · rw [List.mem_singleton.mp h]
      exact hof .syslog
  · rw [List.append_nil] at h
    rw [List.mem_singleton.mp h]
    exact hof .file
  · rw [List.nil_append] at h
    rw [List.mem_singleton.mp h]
    exact hof .syslog
  · cases h
  · cases h

/-- The file gets one record of a hit at most, and one if there is memory for it. -/
theorem hitRecords_file (conf : LocConf) (r : Request) (hit : Hit) (w : World) :
    ((hitRecords env conf r hit w).filter fun rec => rec.sink = .file).length
      = if conf.log = true ∧ env.granted w.allocs = true then 1 else 0 := by
  unfold hitRecords
  by_cases hlog : conf.log = true <;> by_cases hpeer : conf.syslogPeer = true <;>
    by_cases hgranted : env.granted w.allocs = true <;>
    by_cases hsecond : env.granted (w.allocs + 1) = true <;>
    simp [hlog, hpeer, hgranted, hsecond, LogRecord.of]

/-- The hit that the records of a turn are of. -/
theorem ServerTurn.Logs.records {t : ServerTurn env} (h : t.Logs) :
    (t.acted = 0 ∧ t.records = [])
      ∨ t.acted = 1 ∧ ∃ hit w₁, hit.Real t.caller.env t.caller.conf t.caller.request
        ∧ w₁.now = t.before.now
        ∧ t.records = hitRecords t.caller.env t.caller.conf t.caller.request hit w₁ := by
  unfold ServerTurn.acted ServerTurn.records
  cases h with
  | nothing hacted hlogged =>
      left
      rw [hacted, hlogged]
      exact ⟨Nat.sub_self _, List.drop_length⟩
  | hit hit w₁ hreal hnow hacted hlogged =>
      right
      rw [hacted, hlogged]
      exact ⟨Nat.add_sub_cancel_left _ 1, hit, w₁, hreal, hnow, List.drop_left⟩

/-- A turn has a line for its hit at most, and one if there is memory for it. -/
theorem ServerTurn.Logs.lines {t : ServerTurn env} (h : t.Logs) :
    t.fileRecords.length ≤ t.acted
      ∧ (t.caller.conf.log = true → (∀ i, t.caller.granted i = true) →
        t.fileRecords.length = t.acted) := by
  unfold ServerTurn.fileRecords
  rcases h.records with ⟨hacted, hrecords⟩ | ⟨hacted, hit, w₁, -, -, hrecords⟩
  · rw [hacted, hrecords]
    exact ⟨Nat.le_refl 0, fun _ _ => rfl⟩
  · rw [hacted, hrecords, hitRecords_file]
    constructor
    · split <;> omega
    · intro hlog hgranted
      exact if_pos ⟨hlog, hgranted w₁.allocs⟩

theorem linesLogged_cons (t : ServerTurn env) (turns : List (ServerTurn env)) :
    linesLogged (t :: turns) = t.fileRecords.length + linesLogged turns := by
  unfold linesLogged
  rw [List.flatMap_cons, List.length_append]

/-- A run leaves at most one record for each hit acted on, and exactly one where every
location logs and memory is granted. -/
theorem linesLogged_acted {turns : List (ServerTurn env)} (h : ∀ t ∈ turns, t.Logs) :
    linesLogged turns ≤ actedOn turns
      ∧ ((∀ t ∈ turns, t.caller.conf.log = true ∧ ∀ i, t.caller.granted i = true) →
        linesLogged turns = actedOn turns) := by
  induction turns with
  | nil => exact ⟨Nat.le_refl 0, fun _ => rfl⟩
  | cons t turns ih =>
      rw [List.forall_mem_cons] at h
      obtain ⟨hle, heq⟩ := ih h.2
      obtain ⟨htle, hteq⟩ := h.1.lines
      rw [linesLogged_cons]
      show t.fileRecords.length + linesLogged turns ≤ t.acted + actedOn turns ∧ _
      constructor
      · omega
      · intro hall
        rw [List.forall_mem_cons] at hall
        rw [hteq hall.1.1 hall.1.2, heq hall.2]
        rfl

/-- **The log and the counters agree.**  In every run of the server, whatever calls fail,
a record is made in a turn that acts on a hit, of that hit, which is real, and for the file
there is one of a hit at most; where all locations log and memory is granted, the counters
of the status page add up to the lines of the log. -/
theorem log_agrees (env : Env) (garbage : Shctx) (turns : List (ServerTurn env))
    (s : Server env) (hrun : Server.Run env (Server.start env garbage) turns s) :
    (∀ t ∈ turns, t.records = [] ∨ t.acted = 1
        ∧ ∃ hit, hit.Real t.caller.env t.caller.conf t.caller.request
          ∧ ∀ rec ∈ t.records, rec = .of rec.sink t.caller.conf t.caller.request hit t.before)
      ∧ linesLogged turns ≤ actedOn turns
      ∧ ((∀ t ∈ turns, t.caller.conf.log = true ∧ ∀ i, t.caller.granted i = true) →
        s.zone.catTotal = UInt64.ofNat (linesLogged turns)) := by
  have hsound := @Server.start_sound env garbage
  have hlogs := hrun.logs hsound
  obtain ⟨hle, heq⟩ := linesLogged_acted hlogs
  refine ⟨?_, hle, ?_⟩
  · intro t ht
    rcases (hlogs t ht).records with ⟨-, hrecords⟩ | ⟨hacted, hit, w₁, hreal, hnow, hrecords⟩
    · exact .inl hrecords
    · refine .inr ⟨hacted, hit, hreal, ?_⟩
      intro rec hrec
      rw [hrecords] at hrec
      exact mem_hitRecords hnow hrec
  · intro hall
    obtain ⟨hcats, -⟩ := hrun.adds hsound
    rw [heq hall, hcats, Server.start_catTotal, UInt64.zero_add]

end Turns

/-- The attacker is denied, and logged once. -/
theorem attacker_logged (A : Automata) :
    ∃ w, handler (attacker A).env (attacker A).conf (attacker A).request
        (.arrive (banInitZone staleShctx) 0) = .ok (403, w)
      ∧ w.logged.map LogRecord.category = [bytesOf "httpoxy"]
      ∧ (w.logged.filter fun rec => rec.sink = .file).length = 1 := by
  let w₀ := World.arrive (banInitZone staleShctx) 0
  have hcheck : checkBan (attacker A).env (attacker A).conf (attacker A).request w₀
      = .ok (false, w₀) := rfl
  have hact : handler (attacker A).env (attacker A).conf (attacker A).request w₀
      = act (attacker A).env (attacker A).conf (attacker A).request
          (structuralHit .httpoxy "httpoxy" "header") w₀ := by
    show (checkBan (attacker A).env (attacker A).conf (attacker A).request w₀ >>= _) = _
    rw [hcheck, ok_bind]
    show (inspectPrebody (attacker A).env (attacker A).conf (attacker A).request w₀ >>= _) = _
    rw [attacker_struck, ok_bind]
  rw [hact]
  exact ⟨_, rfl, rfl, rfl⟩

/-- One request of the attacker leaves one record, and one hit in the counters. -/
theorem log_agrees_attacker :
    ∃ A turns s, shieldInit AcAllocs.granted AcAllocs.granted true = .ok (some A)
      ∧ Server.Run (envReading A) (Server.start (envReading A) staleShctx) turns s
      ∧ linesLogged turns = 1 ∧ s.zone.catTotal = 1 := by
  obtain ⟨A, hA⟩ := shieldInit_granted
  obtain ⟨w, hfirst, -, hline⟩ := attacker_logged A
  have hrun := Server.Run.cons
    (.enter (s := Server.start (envReading A) staleShctx) 0 (attacker A) 0 rfl hfirst) (.nil _)
  obtain ⟨-, -, hagrees⟩ := log_agrees (envReading A) staleShctx _ _ hrun
  have hlines : linesLogged [(⟨attacker A, .arrive (banInitZone staleShctx) 0, 403, w⟩ :
      ServerTurn (envReading A))] = 1 := by
    rw [linesLogged_cons]
    exact hline
  have hcats := hagrees (List.forall_mem_singleton.mpr ⟨rfl, fun _ => rfl⟩)
  exact ⟨A, _, _, hA, hrun, hlines, hcats.trans (congrArg UInt64.ofNat hlines)⟩

/-! ## §8. Datagrams. -/

/-- `scap`: nginx's own bound on a datagram. -/
def syslogCapacity : Nat := 4096

/-- What the syslog sink hands to `ngx_syslog_send`, if anything; `header` is what
`ngx_syslog_add_header` puts in front. -/
def syslogFrame (header line : Bytes) : Except Fault (Option Bytes) :=
  if syslogCapacity < header.length then .error .outOfBounds
  -- a record cut short would not be JSON, so it is sent whole or not at all
  else if line.length ≤ syslogCapacity - header.length then .ok (some (header ++ line))
  else .ok none

/-- The escaped request line is the most of a record. -/
theorem renderHit_length_le {ts : Bytes} {conf : LocConf} {r : Request} {hit : Hit} {line : Bytes}
    (h : renderHit ts conf r hit = .ok line) :
    line.length
      ≤ ts.length + r.addrText.length + hit.category.length + hit.source.length + 3673 := by
  obtain rfl := Except.ok.inj ((renderHit_eq ts conf r hit).symm.trans h)
  have hfixed := hitFormat_length ts conf r hit
  have hreq := flatMap_escaped_length (r.requestLine.take 600)
  have hbound : (r.requestLine.take 600).length ≤ 600 := List.length_take_le 600 _
  simp only [List.length_append, List.length_cons, List.length_nil]
  omega

/-- The names of a hit are plain and short. -/
theorem Hit.Named.plain {hit : Hit} (h : hit.Named) :
    (Plain hit.category ∧ hit.category.length ≤ 14)
      ∧ (Plain hit.source ∧ hit.source.length ≤ 12) := by
  obtain ⟨s, hs, hsource⟩ := h.source
  rw [h.category, hsource]
  exact ⟨names_plain.1 hit.cat (catByName_lt h.skip), names_plain.2 s hs⟩

/-- **A datagram is a whole record, or it is not sent**, and it is sent unless the syslog
header, the time and the address leave too little room: whatever the request line, a
record is in the frame as `json.loads` reads it. -/
theorem syslogFrame_whole {hit : Hit} (hnamed : hit.Named) (ts header : Bytes) (conf : LocConf)
    (r : Request) (hts : Plain ts) (hip : Plain r.addrText)
    (hheader : header.length ≤ syslogCapacity) :
    ∃ line, renderHit ts conf r hit = .ok line
      ∧ loads (codes line) = some (.obj (hitMembers ts conf r hit))
      ∧ (syslogFrame header line = .ok (some (header ++ line))
          ∧ (header ++ line).length ≤ syslogCapacity
        ∨ syslogFrame header line = .ok none
          ∧ 397 < header.length + ts.length + r.addrText.length) := by
  obtain ⟨⟨hcat, hcatlen⟩, hsrc, hsrclen⟩ := hnamed.plain
  obtain ⟨line, hline, -⟩ := fileLine_returns ts conf r hit
  have hloads := @loads_renderHit _ _ _ _ _ hts hip hcat hsrc hline [] (by simp)
  rw [List.append_nil] at hloads
  refine ⟨line, hline, hloads, ?_⟩
  have hlen := renderHit_length_le hline
  unfold syslogFrame
  rw [if_neg (by omega)]
  by_cases hroom : line.length ≤ syslogCapacity - header.length
  · rw [if_pos hroom]
    refine .inl ⟨rfl, ?_⟩
    rw [List.length_append]
    omega
  · rw [if_neg hroom]
    refine .inr ⟨rfl, ?_⟩
    unfold syslogCapacity at hroom hheader
    omega

/-- A line of 600 bytes that all take six, behind a header as long as they get. -/
theorem syslogFrame_whole_worst :
    ∃ line, renderHit (bytesOf "2026-07-17T14:22:05+02:00") (loggingConf .block false)
        { forging with requestLine := List.replicate 600 0xFF }
        (structuralHit .httpoxy "httpoxy" "header") = .ok line
      ∧ syslogFrame (List.replicate 312 32) line = .ok (some (List.replicate 312 32 ++ line)) := by
  have hheader : (List.replicate 312 (32 : UInt8)).length ≤ syslogCapacity := by
    rw [List.length_replicate]
    decide
  obtain ⟨line, hline, -, hframe⟩ := syslogFrame_whole structuralHit_named.1
    (bytesOf "2026-07-17T14:22:05+02:00") (List.replicate 312 32) (loggingConf .block false)
    { forging with requestLine := List.replicate 600 0xFF } (by decide) (by decide) hheader
  rcases hframe with ⟨hframe, -⟩ | ⟨-, hlong⟩
  · exact ⟨line, hline, hframe⟩
  · have hts : (bytesOf "2026-07-17T14:22:05+02:00").length = 25 := by decide
    have hip : forging.addrText.length = 11 := by decide
    rw [List.length_replicate, hts] at hlong
    dsimp only at hlong
    omega

end HttpShield
