/-
  HttpShield.Request.Redirects
  ────────────────────────────
  How often one request is acted on.

  An internal redirect (`error_page`, `index`, `try_files`) sends the request through
  the phases again, in another location.  It keeps the target as the client sent it, the
  headers and the body, and loses the module context, which is all that tells a handler
  of an earlier visit.

    • `serve_acts`         — one visit acts at most once, and only if it finds something;
      where nothing fails, exactly then,
    • `visits_act_once`    — a request is acted on at most once if the visits after the
      first hit find nothing,
    • `visits_act_twice`   — an error page of the same server is enough for a second hit.
-/
import HttpShield.Request.Headers
import HttpShield.Request.Skip

namespace HttpShield

/-! ## §1. Visits. -/

/-- An entry of the request into the phases: the location it is in, its path there, the
zone and the clock it comes to, and what reading the body does. -/
structure Visit (hash : Addr → Nat) where
  conf : LocConf
  uri : Bytes
  zone : Zone
  now : Int
  body : ReadBody hash
  zone_wf : ∃ ps, zone.Wf hash ps

/-- The visits read one body. -/
def Visit.SameBody {hash : Addr → Nat} (v v' : Visit hash) : Prop :=
  ∀ a a', v.body.arrival = some a → v'.body.arrival = some a' → a.bufs = a'.bufs

/-- What the visit relies on. -/
def Visit.env (env : Env) (v : Visit env.hash) : Env := { env with body := v.body }

/-- The request as it is there. -/
def Visit.request {hash : Addr → Nat} (v : Visit hash) (r : Request) : Request :=
  { r with uri := v.uri }

/-- The world the visit begins in: `ngx_http_internal_redirect` has cleared the module
contexts, and other requests may have used the zone. -/
def World.redirect (w : World) {hash : Addr → Nat} (v : Visit hash) : World :=
  { w with ctx := none, zone := v.zone, now := v.now }

/-- One visit, up to the verdict. -/
def visit (env : Env) (r : Request) (v : Visit env.hash) (w : World) :
    Except Fault (Int × World) :=
  serve (v.env env) v.conf (v.request r) (w.redirect v)

/-- **A request on its way through the phases**, each visit allowed in the world that
the one before has left. -/
inductive Visits (env : Env) (r : Request) (allowed : World → Visit env.hash → Prop) :
    World → List (Visit env.hash) → World → Prop where
  | nil (w : World) : Visits env r allowed w [] w
  | cons {w w₁ w' : World} {v : Visit env.hash} {vs : List (Visit env.hash)} {rc : Int}
      (hallowed : allowed w v) (hsame : ∀ v' ∈ vs, v.SameBody v')
      (hvisit : visit env r v w = .ok (rc, w₁)) (hrest : Visits env r allowed w₁ vs w') :
      Visits env r allowed w (v :: vs) w'

/-! ## §2. What makes a visit act. -/

/-- A reported hit is the verdict of one of the scans. -/
theorem scanJobs_hit {env : Env} {jobs : List ScanJob} (hne : ∀ job ∈ jobs, job.data ≠ [])
    {w w' : World} {hit : Hit} (h : scanJobs env jobs w = .ok (.ok hit, w')) :
    ∃ job ∈ jobs, job.verdict env = .ok hit := by
  induction jobs generalizing w with
  | nil =>
      have hrc : Inspection.declined = .ok hit := (Prod.ext_iff.mp (Except.ok.inj h)).1
      cases hrc
  | cons job jobs ih =>
      unfold scanJobs at h
      rw [scanR_eq env w (hne job List.mem_cons_self)] at h
      by_cases hgranted : env.granted w.allocs = true ∧ env.granted (w.allocs + 1) = true
      · rw [if_pos hgranted] at h
        by_cases hclean : job.verdict env = .declined
        · rw [hclean, onDeclined_declined] at h
          obtain ⟨job', hjob', hhit⟩ := ih (fun j hj => hne j (List.mem_cons_of_mem _ hj)) h
          exact ⟨job', List.mem_cons_of_mem _ hjob', hhit⟩
        · rw [onDeclined_found hclean] at h
          exact ⟨job, List.mem_cons_self, (Prod.ext_iff.mp (Except.ok.inj h)).1⟩
      · rw [if_neg hgranted, onDeclined_found (by simp)] at h
        have hrc : Inspection.error = .ok hit := (Prod.ext_iff.mp (Except.ok.inj h)).1
        cases hrc

theorem inspectPrebody_hit {env : Env} {conf : LocConf} {r : Request} {w w' : World} {hit : Hit}
    (h : inspectPrebody env conf r w = .ok (.ok hit, w')) : ¬ PrebodyClean env conf r := by
  rintro ⟨hclean, hverdicts⟩
  rcases inspectPrebody_eq env conf r w with ⟨hit', hhit, -⟩ | ⟨-, hinspect⟩
  · rw [hclean] at hhit
    cases hhit
  · rw [hinspect] at h
    obtain ⟨job, hjob, hverdict⟩ := scanJobs_hit (prebodyJobs_ne_nil conf r) h
    rw [hverdicts job hjob] at hverdict
    cases hverdict

theorem inspectPrebody_ne_error {env : Env} (hgranted : env.Unfailing) (conf : LocConf)
    (r : Request) (w w' : World) : inspectPrebody env conf r w ≠ .ok (.error, w') := by
  obtain ⟨w'', hinspect⟩ := inspectPrebody_total hgranted conf r w
  rw [hinspect]
  intro h
  have hrc : prebodyVerdict env conf r = .error := (Prod.ext_iff.mp (Except.ok.inj h)).1
  rcases prebodyVerdict_cases env conf r with hclean | ⟨hit, hhit⟩
  · rw [hclean] at hrc
    cases hrc
  · rw [hhit] at hrc
    cases hrc

/-- The body shows nothing. -/
def ContentClean (env : Env) (conf : LocConf) (content : Bytes) : Prop :=
  ∀ job ∈ bodyJobs conf content, job.verdict env = .declined

/-- A hit in the body is the verdict on one of its pieces. -/
theorem inspectBody_job {env : Env} {conf : LocConf} {a : Arrival env.hash} {w w' : World}
    {hit : Hit} (h : inspectBody env conf a w = .ok (.ok hit, w')) :
    ∃ job ∈ bodyJobs conf a.content, job.verdict env = .ok hit := by
  obtain ⟨got, w'', hcollect, -⟩ := collectBody_spec env conf.maxBody a w
  cases got with
  | none =>
      unfold inspectBody at h
      rw [hcollect, ok_bind] at h
      have hrc : Inspection.error = .ok hit := (Prod.ext_iff.mp (Except.ok.inj h)).1
      cases hrc
  | some body =>
      rw [inspectBody_collected hcollect] at h
      exact scanJobs_hit (bodyJobs_ne_nil conf a.content) h

theorem inspectBody_hit {env : Env} {conf : LocConf} {a : Arrival env.hash} {w w' : World}
    {hit : Hit} (h : inspectBody env conf a w = .ok (.ok hit, w')) :
    ¬ ContentClean env conf a.content := by
  intro hclean
  obtain ⟨job, hjob, hverdict⟩ := inspectBody_job h
  rw [hclean job hjob] at hverdict
  cases hverdict

/-- If no call fails, the inspection of a body that shows something is a hit. -/
theorem inspectBody_finds {env : Env} (h : env.Reliable) {conf : LocConf} {a : Arrival env.hash}
    (hdirty : ¬ ContentClean env conf a.content) (w : World) :
    ∃ hit w', inspectBody env conf a w = .ok (.ok hit, w') := by
  obtain ⟨w', hinspect⟩ := inspectBody_total h conf a w
  have hshows : ∃ job ∈ bodyJobs conf a.content, job.Shows env := by
    unfold ContentClean at hdirty
    push Not at hdirty
    obtain ⟨job, hjob, hverdict⟩ := hdirty
    exact ⟨job, hjob, (job.verdict_ok_iff env).mp ((job.verdict_cases env).resolve_left hverdict)⟩
  obtain ⟨hit, hhit⟩ := (firstHit_ok_iff env _).mpr hshows
  exact ⟨hit, w', by rw [hinspect, hhit]⟩

/-- If no call fails, the inspection of a body that shows something returns a hit. -/
theorem inspectBody_rc {env : Env} (h : env.Reliable) {conf : LocConf} {a : Arrival env.hash}
    (hdirty : ¬ ContentClean env conf a.content) {w w' : World} {rc : Inspection}
    (hinspect : inspectBody env conf a w = .ok (rc, w')) : ∃ hit, rc = .ok hit := by
  obtain ⟨hit, w'', hhit⟩ := inspectBody_finds h hdirty w
  rw [hinspect] at hhit
  exact ⟨hit, (Prod.ext_iff.mp (Except.ok.inj hhit)).1⟩

/-- The body that is read, if it can be, shows nothing. -/
def BodyClean (env : Env) (conf : LocConf) : Prop :=
  ∀ a, env.body.arrival = some a → ContentClean env conf a.content

/-- **A visit that finds nothing**: the shield is off in the location, or cuts the client
off as banned, or nothing live shows in the target and the headers nor, where bodies are
scanned, in the body. -/
def Quiescent (env : Env) (conf : LocConf) (r : Request) (w : World) : Prop :=
  conf.mode = .off ∨ ClientBanned env conf r w
    ∨ PrebodyClean env conf r
      ∧ (conf.body = true → scannableBody r = true → BodyClean env conf)

/-! ## §3. One visit. -/

/-- Acting on a hit counts it once. -/
theorem act_acted (env : Env) (conf : LocConf) (r : Request) (hit : Hit) {w : World}
    (hzone : ∃ ps, w.zone.Wf env.hash ps) :
    ∃ w', act env conf r hit w = .ok (conf.denial, w') ∧ w'.acted = w.acted + 1
      ∧ w'.ctx = w.ctx := by
  obtain ⟨zone, hrecord, -⟩ := recordHit_returns env conf r hit hzone
  have hlog := writeLog_quiet env conf r hit (w.setZone zone).noteAct
  unfold act
  rw [hrecord, ok_bind]
  exact ⟨_, rfl, hlog.acted, hlog.ctx⟩

/-- Waiting for the body, or not, acts on nothing. -/
theorem awaitBody_acted (env : Env) (conf : LocConf) (r : Request) (w : World) :
    (awaitBody env conf r w).2.acted = w.acted := by
  unfold awaitBody
  split
  · rfl
  · show (if ¬ (w.palloc env).1 = true then _ else _ : Int × World).2.acted = w.acted
    split
    · rfl
    · dsimp only
      split <;> rfl

/-- **The first pass** acts once on what the inspection before the body
finds, and else not at all. -/
theorem firstPass_acted (env : Env) (conf : LocConf) (r : Request) {w : World}
    (hzone : ∃ ps, w.zone.Wf env.hash ps) :
    ∃ rc w', firstPass env conf r w = .ok (rc, w')
      ∧ (w'.acted = w.acted ∨ w'.acted = w.acted + 1 ∧ rc ≠ ngxDone ∧ ¬ PrebodyClean env conf r)
      ∧ (env.Unfailing → ¬ PrebodyClean env conf r → w'.acted = w.acted + 1) := by
  obtain ⟨rc, w', hinspect, hquiet, hiff, -⟩ := inspectPrebody_spec env conf r w
  have hwf : ∃ ps, w'.zone.Wf env.hash ps := by
    rw [hquiet.zone]
    exact hzone
  unfold firstPass
  rw [hinspect, ok_bind]
  cases rc with
  | error =>
      refine ⟨conf.fail, w', rfl, .inl hquiet.acted, ?_⟩
      intro hgranted
      exact absurd hinspect (inspectPrebody_ne_error hgranted conf r w w')
  | ok hit =>
      obtain ⟨w'', hact, hacted, -⟩ := act_acted env conf r hit hwf
      have hone : w''.acted = w.acted + 1 := by rw [hacted, hquiet.acted]
      exact ⟨conf.denial, w'', hact,
        .inr ⟨hone, conf.denial_ne_done, inspectPrebody_hit hinspect⟩, fun _ _ => hone⟩
  | declined =>
      refine ⟨(awaitBody env conf r w').1, (awaitBody env conf r w').2, rfl, .inl ?_, ?_⟩
      · rw [awaitBody_acted, hquiet.acted]
      · intro _ hfound
        exact absurd (hiff.mp rfl).1 hfound

/-- **The body handler** acts on what the inspection of the body finds. -/
theorem bodyHandler_acted (env : Env) (conf : LocConf) (r : Request) (a : Arrival env.hash)
    {w : World} (hctx : w.ctx.isSome = true) (hzone : ∃ ps, w.zone.Wf env.hash ps) :
    ∃ w', bodyHandler env conf r a w = .ok w' ∧ w'.ctx.isSome = true
      ∧ (w'.acted = w.acted ∨ w'.acted = w.acted + 1 ∧ ¬ ContentClean env conf a.content)
      ∧ (env.Reliable → ¬ ContentClean env conf a.content → w'.acted = w.acted + 1) := by
  obtain ⟨rc, w', hinspect, hquiet, -⟩ := inspectBody_spec env conf a w
  unfold bodyHandler
  rw [hinspect, ok_bind]
  cases rc with
  | error =>
      refine ⟨_, setStatus_of_ctx hctx hquiet.ctx _, rfl, .inl hquiet.acted, ?_⟩
      intro hreliable hdirty
      obtain ⟨hit, hrc⟩ := inspectBody_rc hreliable hdirty hinspect
      cases hrc
  | declined =>
      refine ⟨_, setStatus_of_ctx hctx hquiet.ctx _, rfl, .inl hquiet.acted, ?_⟩
      intro hreliable hdirty
      obtain ⟨hit, hrc⟩ := inspectBody_rc hreliable hdirty hinspect
      cases hrc
  | ok hit =>
      have hwf : ∃ ps, w'.zone.Wf env.hash ps := by
        rw [hquiet.zone]
        exact hzone
      obtain ⟨w'', hact, hacted, hctx''⟩ := act_acted env conf r hit hwf
      have hone : w''.acted = w.acted + 1 := by rw [hacted, hquiet.acted]
      simp only [hact, ok_bind]
      exact ⟨_, setStatus_of_ctx hctx (hctx''.trans hquiet.ctx) _, rfl,
        .inr ⟨hone, inspectBody_hit hinspect⟩, fun _ _ => hone⟩

/-- A banned client is not waited for. -/
theorem FirstPass.unbanned {env : Env} {conf : LocConf} {r : Request} {w w' : World}
    (h : FirstPass env conf r w ngxDone w') : ¬ ClientBanned env conf r w := by
  generalize hrc : ngxDone = rc at h
  cases h with
  | banned hban => exact absurd hrc.symm conf.status_ne_done
  | stopped hban => exact hban
  | passed hban => exact hban
  | starved hban => exact hban
  | refused hban => exact hban
  | waiting hban => exact hban

/-- **The first entry of a visit** acts at most once, and only on what shows before the body. -/
theorem handler_acted (env : Env) (conf : LocConf) (r : Request) {w : World}
    (hmain : r.isMain = true) (hmode : conf.mode ≠ .off) (hctx : w.ctx = none)
    (hzone : ∃ ps, w.zone.Wf env.hash ps) :
    ∃ rc w', handler env conf r w = .ok (rc, w')
      ∧ (w'.acted = w.acted ∨ w'.acted = w.acted + 1 ∧ rc ≠ ngxDone
        ∧ ¬ ClientBanned env conf r w ∧ ¬ PrebodyClean env conf r)
      ∧ (env.Unfailing → ¬ ClientBanned env conf r w → ¬ PrebodyClean env conf r →
        w'.acted = w.acted + 1) := by
  obtain ⟨banned, zone, hcheck, hbanned, hwf⟩ := checkBan_eq env conf r hzone
  unfold handler
  rw [if_neg (by simp [hmain]), if_neg hmode]
  simp only [hctx, hcheck, ok_bind]
  cases banned with
  | true =>
      exact ⟨conf.status, _, rfl, .inl rfl, fun _ hban => absurd (hbanned.mp rfl) hban⟩
  | false =>
      have hban : ¬ ClientBanned env conf r w := fun h => Bool.false_ne_true (hbanned.mpr h)
      rw [if_neg Bool.false_ne_true]
      obtain ⟨rc, w', hpass, hacted, hfinds⟩ :=
        @firstPass_acted env conf r (w.setZone zone) hwf
      refine ⟨rc, w', hpass, ?_, fun hgranted _ hfound => hfinds hgranted hfound⟩
      rcases hacted with hsame | ⟨hone, hrc, hfound⟩
      · exact .inl hsame
      · exact .inr ⟨hone, hrc, hban, hfound⟩

/-- Where nothing fails, a clean request with a body to scan is waited for. -/
theorem FirstPass.waits_of_clean {env : Env} {conf : LocConf} {r : Request} {w w' : World}
    {rc : Int} (h : FirstPass env conf r w rc w') (hgranted : env.Unfailing)
    (hread : env.body.rc < ngxHttpSpecialResponse) (hban : ¬ ClientBanned env conf r w)
    (hclean : PrebodyClean env conf r) (hbody : conf.body = true ∧ scannableBody r = true) :
    rc = ngxDone := by
  cases h with
  | banned hbanned => exact absurd hbanned hban
  | stopped _ hpassed => exact absurd ⟨hclean, fun i _ => hgranted _⟩ hpassed
  | passed _ _ hbody' => exact absurd hbody hbody'
  | starved _ _ _ hctx =>
      rw [hgranted] at hctx
      cases hctx
  | refused _ _ _ _ hread' => omega
  | waiting => rfl

/-- **One visit acts at most once**, and not on a request that it finds nothing in; on
any other it does, where nothing fails. -/
theorem serve_acts (env : Env) (conf : LocConf) (r : Request) {w : World}
    (hmain : r.isMain = true) (hctx : w.ctx = none) (hzone : ∃ ps, w.zone.Wf env.hash ps) :
    ∃ rc w', serve env conf r w = .ok (rc, w')
      ∧ (w'.acted = w.acted ∨ w'.acted = w.acted + 1 ∧ ¬ Quiescent env conf r w)
      ∧ (env.Reliable → env.body.rc < ngxHttpSpecialResponse → ¬ Quiescent env conf r w →
        w'.acted = w.acted + 1) := by
  by_cases hmode : conf.mode = .off
  · refine ⟨ngxDeclined, w, ?_, .inl rfl, fun _ _ hfinds => absurd (.inl hmode) hfinds⟩
    unfold serve handler
    rw [if_neg (by simp [hmain]), if_pos hmode]
    rfl
  · obtain ⟨rc, w₁, hhandler, hends⟩ := handler_first env conf r hmain hmode hctx hzone
    obtain ⟨rc', w₁', hhandler', hacted, hfinds⟩ := handler_acted env conf r hmain hmode hctx hzone
    obtain ⟨rfl, rfl⟩ : rc = rc' ∧ w₁ = w₁' :=
      Prod.ext_iff.mp (Except.ok.inj (hhandler.symm.trans hhandler'))
    unfold serve
    rw [hhandler, ok_bind]
    by_cases hdone : rc = ngxDone
    · -- the handler waits, and the body arrives
      subst hdone
      obtain ⟨hpassed, hbody, -, hread, -, hset⟩ := hends.waits
      obtain ⟨a, ha⟩ := Option.isSome_iff_exists.mp (env.body.called.resolve_left hread)
      have hsome : (w₁.resume a).ctx.isSome = true := by
        show w₁.ctx.isSome = true
        rw [hset]
        rfl
      obtain ⟨w₂, hbodyHandler, hctx₂, hacted₂, hfinds₂⟩ :=
        @bodyHandler_acted env conf r a (w₁.resume a) hsome a.zone_wf
      obtain ⟨ctx, hctx₂⟩ := Option.isSome_iff_exists.mp hctx₂
      have hfirst : (w₁.resume a).acted = w.acted := by
        rcases hacted with hsame | ⟨-, hne, -⟩
        · exact hsame
        · exact absurd rfl hne
      have hquiet : Quiescent env conf r w ↔ ContentClean env conf a.content := by
        constructor
        · rintro (hoff | hbanned | ⟨-, hclean⟩)
          · exact absurd hoff hmode
          · exact absurd hbanned hends.unbanned
          · exact hclean hbody.1 hbody.2 a ha
        · intro hclean
          refine .inr (.inr ⟨hpassed.1, fun _ _ a' ha' => ?_⟩)
          obtain rfl : a = a' := Option.some.inj (ha.symm.trans ha')
          exact hclean
      rw [hquiet, ← hfirst]
      refine ⟨ctx.status, w₂, ?_, hacted₂, fun hreliable _ => hfinds₂ hreliable⟩
      simp only [ha, ne_eq, not_true_eq_false, if_false, hbodyHandler, ok_bind]
      exact handler_reentry env conf r hmain hmode hctx₂
    · refine ⟨rc, w₁, by simp only [ne_eq, hdone, not_false_eq_true, if_true]; rfl, ?_, ?_⟩
      · rcases hacted with hsame | ⟨hone, -, hban, hfound⟩
        · exact .inl hsame
        · refine .inr ⟨hone, ?_⟩
          rintro (hoff | hbanned | ⟨hclean, -⟩)
          · exact hmode hoff
          · exact hban hbanned
          · exact hfound hclean
      · intro hreliable hread hnoisy
        have hban : ¬ ClientBanned env conf r w := fun h => hnoisy (.inr (.inl h))
        apply hfinds hreliable.granted hban
        intro hclean
        refine hnoisy (.inr (.inr ⟨hclean, fun hbody hscannable => ?_⟩))
        exact absurd (hends.waits_of_clean hreliable.granted hread hban hclean
          ⟨hbody, hscannable⟩) hdone

/-! ## §4. The whole way. -/

/-- The visit finds nothing, in the world it comes to. -/
def Visit.Quiescent (env : Env) (r : Request) (v : Visit env.hash) (w : World) : Prop :=
  HttpShield.Quiescent (v.env env) v.conf (v.request r) (w.redirect v)

/-- A visit returns, and acts at most once. -/
theorem visit_acts (env : Env) {r : Request} (hmain : r.isMain = true) (v : Visit env.hash)
    (w : World) :
    ∃ rc w', visit env r v w = .ok (rc, w')
      ∧ (w'.acted = w.acted ∨ w'.acted = w.acted + 1 ∧ ¬ v.Quiescent env r w) := by
  obtain ⟨rc, w', hserve, hacts, -⟩ :=
    @serve_acts (v.env env) v.conf (v.request r) (w.redirect v) hmain rfl v.zone_wf
  exact ⟨rc, w', hserve, hacts⟩

/-- The condition on a visit: the request was not acted on before, or there is nothing
left to find. -/
def AllowedOnce (env : Env) (r : Request) (acted : Nat) (w : World) (v : Visit env.hash) : Prop :=
  w.acted = acted ∨ v.Quiescent env r w

theorem visits_acted {env : Env} {r : Request} (hmain : r.isMain = true) {n : Nat}
    {w w' : World} {vs : List (Visit env.hash)} (hrun : Visits env r (AllowedOnce env r n) w vs w')
    (hw : w.acted ≤ n + 1) : w'.acted ≤ n + 1 := by
  induction hrun with
  | nil w => exact hw
  | @cons w w₁ w' v vs rc hallowed hsame hvisit hrest ih =>
      apply ih
      obtain ⟨rc', w₁', hvisit', hacts⟩ := visit_acts env hmain v w
      obtain ⟨-, rfl⟩ : rc = rc' ∧ w₁ = w₁' :=
        Prod.ext_iff.mp (Except.ok.inj (hvisit.symm.trans hvisit'))
      rcases hacts with hsame' | ⟨hone, hfinds⟩
      · omega
      · -- a visit that acts is the first to
        have hfirst : w.acted = n := hallowed.resolve_right hfinds
        omega

/-- **A request is acted on at most once**, whatever its way through the phases, if
after the first hit it only comes to locations that find nothing in it. -/
theorem visits_act_once (env : Env) (r : Request) (hmain : r.isMain = true)
    (vs : List (Visit env.hash)) (w w' : World)
    (hrun : Visits env r (AllowedOnce env r w.acted) w vs w') : w'.acted ≤ w.acted + 1 :=
  visits_acted hmain hrun (Nat.le_succ _)

/-- A request with the header that no request needs. -/
def proxied : Request :=
  { oneBytePost with headers := .single ⟨1, bytesOf "Proxy", bytesOf "http://a/"⟩ }

/-- A visit of a location in the given mode, for this target and at this time. -/
def comes (A : Automata) (mode : ShieldMode) (uri : String) (now : Int) :
    Visit (envReading A).hash where
  conf := loggingConf mode false
  uri := bytesOf uri
  zone := banInitZone staleShctx
  now := now
  body := (envReading A).body
  zone_wf := ⟨[], banInitZone_wf _⟩

/-- A visit of a request with a `Proxy` header is acted on, whatever happened before. -/
theorem comes_acts (A : Automata) (mode : ShieldMode) (hmode : mode ≠ .off) (uri : String)
    (now : Int) (w : World) :
    ∃ rc w', visit (envReading A) proxied (comes A mode uri now) w = .ok (rc, w')
      ∧ w'.acted = w.acted + 1 := by
  let v := comes A mode uri now
  have hread : (0 : Int) < ngxHttpSpecialResponse := by decide
  obtain ⟨rc, w', hserve, -, hfinds⟩ := @serve_acts (v.env (envReading A)) v.conf
    (v.request proxied) (w.redirect v) rfl rfl v.zone_wf
  refine ⟨rc, w', hserve, hfinds ⟨fun _ => rfl, fun _ => Int.one_pos⟩ hread ?_⟩
  rintro (hoff | ⟨ban, a, e, hban, -⟩ | ⟨⟨hstructural, -⟩, -⟩)
  · exact hmode hoff
  · cases hban
  · have hhit : structural 0 (v.request proxied)
        = .ok (.ok (structuralHit .httpoxy "httpoxy" "header")) := rfl
    have hclean : structural 0 (v.request proxied) = .ok .declined := hstructural
    rw [hhit] at hclean
    cases hclean

theorem comes_sameBody (A : Automata) (mode mode' : ShieldMode) (uri uri' : String)
    (now now' : Int) : (comes A mode uri now).SameBody (comes A mode' uri' now') := by
  intro a a' ha ha'
  obtain rfl : a = a' := Option.some.inj (ha.symm.trans ha')
  rfl

/-- Denied once, and sent to a page without the shield. -/
theorem visits_act_once_page :
    ∃ A w', shieldInit AcAllocs.granted AcAllocs.granted true = .ok (some A)
      ∧ Visits (envReading A) proxied (AllowedOnce (envReading A) proxied freshWorld.acted)
        freshWorld [comes A .block "/" 0, comes A .off "/403.html" 0] w'
      ∧ w'.acted ≤ freshWorld.acted + 1 := by
  obtain ⟨A, hA⟩ := shieldInit_granted
  obtain ⟨rc₁, w₁, hfirst, -⟩ := comes_acts A .block (by decide) "/" 0 freshWorld
  obtain ⟨rc₂, w₂, hsecond, -⟩ :=
    visit_acts (envReading A) (r := proxied) rfl (comes A .off "/403.html" 0) w₁
  have hrun : Visits (envReading A) proxied
      (AllowedOnce (envReading A) proxied freshWorld.acted) freshWorld
      [comes A .block "/" 0, comes A .off "/403.html" 0] w₂ := by
    refine .cons (.inl rfl) ?_ hfirst (.cons (.inr (.inl rfl)) (by simp) hsecond (.nil w₂))
    intro v hv
    rw [List.mem_singleton.mp hv]
    exact comes_sameBody A _ _ _ _ _ _
  exact ⟨A, w₂, hA, hrun, visits_act_once (envReading A) proxied rfl _ freshWorld w₂ hrun⟩

/-- **An error page of the same server is enough**: the request is denied in its
location, sent to the page's, and denied once more. -/
theorem visits_act_twice :
    ∃ A w', shieldInit AcAllocs.granted AcAllocs.granted true = .ok (some A)
      ∧ Visits (envReading A) proxied (fun _ _ => True) freshWorld
        [comes A .block "/" 0, comes A .block "/403.html" 0] w'
      ∧ w'.acted = freshWorld.acted + 2 := by
  obtain ⟨A, hA⟩ := shieldInit_granted
  obtain ⟨rc₁, w₁, hfirst, hone⟩ := comes_acts A .block (by decide) "/" 0 freshWorld
  obtain ⟨rc₂, w₂, hsecond, htwo⟩ := comes_acts A .block (by decide) "/403.html" 0 w₁
  refine ⟨A, w₂, hA, .cons trivial ?_ hfirst (.cons trivial (by simp) hsecond (.nil w₂)), ?_⟩
  · intro v hv
    rw [List.mem_singleton.mp hv]
    exact comes_sameBody A _ _ _ _ _ _
  · rw [htwo, hone]

end HttpShield
