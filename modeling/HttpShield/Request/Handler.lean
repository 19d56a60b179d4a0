/-
  HttpShield.Request.Handler
  ──────────────────────────
  The phase handler: the decision on a hit and on a failed inspection, the first pass,
  the body handler, and a request from its first entry to its verdict.

    • `act_returns`     — acting on a hit decides by the mode alone,
    • `handler_first`   — the six ways the first pass can end,
    • `bodyHandler_ends` — what the body handler leaves for the re-entry,
    • `serve_ends`      — the verdict of a request, by the way its first pass ended.
-/
import HttpShield.Request.Body

namespace HttpShield

/-! ## §1. Decision and logging. -/

/-- A log record for a sink; the request line is bounded before it is escaped. -/
def LogRecord.of (sink : LogSink) (conf : LocConf) (r : Request) (hit : Hit) (w : World) :
    LogRecord where
  sink := sink
  ts := w.now
  ip := r.addrText
  category := hit.category
  source := hit.source
  blocked := if conf.mode = .block then some conf.status else none
  req := r.requestLine.take 600

/-- A record handed to a sink.  What becomes of it there changes nothing here. -/
def World.noteLog (w : World) (rec : LogRecord) : World := { w with logged := w.logged ++ [rec] }

/-- `p = ngx_pnalloc(..); if (p == NULL) return;` and go on. -/
def World.ifGranted (env : Env) (w : World) (next : World → World) : World :=
  if (w.palloc env).1 then next (w.palloc env).2 else (w.palloc env).2

/-- The file sink of `ngx_http_shield_write_log`, up to the record it is handed: that it leaves
out the rest of a second in which the disk was full is part of `SinkTimes.write`. -/
def writeLogFile (conf : LocConf) (r : Request) (hit : Hit) (w : World) : World :=
  if conf.log then w.noteLog (.of .file conf r hit w) else w

/-- The syslog sink, with a buffer of its own. -/
def writeLogSyslog (env : Env) (conf : LocConf) (r : Request) (hit : Hit) (w : World) : World :=
  if conf.syslogPeer then
    w.ifGranted env fun w => w.noteLog (.of .syslog conf r hit w)
  else w

/-- `ngx_http_shield_write_log`. -/
def writeLog (env : Env) (conf : LocConf) (r : Request) (hit : Hit) (w : World) : World :=
  if ¬ conf.log ∧ ¬ conf.syslogPeer then w
  else w.ifGranted env fun w => writeLogSyslog env conf r hit (writeLogFile conf r hit w)

/-- The return code of `ngx_http_shield_act`. -/
def LocConf.denial (conf : LocConf) : Int :=
  if conf.mode = .block then conf.status else ngxDeclined

/-- `ngx_http_shield_ban_count`. -/
def World.countHit (w : World) (hit : Hit) (blocked : Bool) : World :=
  w.setZone (banCountHit w.zone hit.cat blocked)

/-- Counting the hit toward a ban, and for the status page. -/
def recordHit (env : Env) (conf : LocConf) (r : Request) (hit : Hit) (w : World) :
    Except Fault World :=
  match conf.ban with
  | none => .ok w
  | some ban => do
      -- two critical sections: the record may fail, the count goes on
      let w ← banRecord env ban r w
      return w.countHit hit (conf.mode == .block)

/-- One more hit acted on. -/
def World.noteAct (w : World) : World := { w with acted := w.acted + 1 }

/-- `ngx_http_shield_act`. -/
def act (env : Env) (conf : LocConf) (r : Request) (hit : Hit) (w : World) :
    Except Fault (Int × World) := do
  let w ← recordHit env conf r hit w
  return (conf.denial, writeLog env conf r hit w.noteAct)

/-- `ngx_http_shield_fail`. -/
def LocConf.fail (conf : LocConf) : Int :=
  if conf.mode = .block then ngxHttpInternalServerError else ngxDeclined

/-! ## §2. The handlers. -/

/-- `ngx_http_set_ctx`. -/
def World.setCtx (w : World) (status : Int) : World := { w with ctx := some ⟨status⟩ }

/-- `ctx->status = status`. -/
def World.setStatus (w : World) (status : Int) : Except Fault World :=
  match w.ctx with
  | none => .error .useAfterFree
  | some _ => .ok (w.setCtx status)

/-- The repeat-offender check. -/
def checkBan (env : Env) (conf : LocConf) (r : Request) (w : World) :
    Except Fault (Bool × World) :=
  match conf.ban with
  | none => .ok (false, w)
  | some ban => banIsBanned env ban r w

/-- No hit before the body: read the body if it is to be scanned. -/
def awaitBody (env : Env) (conf : LocConf) (r : Request) (w : World) : Int × World :=
  if ¬ conf.body ∨ ¬ scannableBody r then (ngxDeclined, w)
  else
    let (granted, w) := w.palloc env
    if ¬ granted then (ngxError, w)
    else
      -- a context from here on, so the next entry is the re-entry
      let w := w.setCtx ngxDeclined
      if env.body.rc ≥ ngxHttpSpecialResponse then (env.body.rc, w) else (ngxDone, w)

/-- The first pass over the request line and the headers. -/
def firstPass (env : Env) (conf : LocConf) (r : Request) (w : World) :
    Except Fault (Int × World) := do
  match ← inspectPrebody env conf r w with
  | (.error, w) => return (conf.fail, w)
  -- also in detect mode the body is left alone after a hit
  | (.ok hit, w) => act env conf r hit w
  | (.declined, w) => return awaitBody env conf r w

/-- `ngx_http_shield_handler`. -/
def handler (env : Env) (conf : LocConf) (r : Request) (w : World) :
    Except Fault (Int × World) :=
  if ¬ r.isMain then .ok (ngxDeclined, w)
  else if conf.mode = .off then .ok (ngxDeclined, w)
  else
    match w.ctx with
    -- re-entry: the body handler has recorded the verdict
    | some ctx => .ok (ctx.status, w)
    | none => do
        -- a banned client is turned away here, past the counters of `act`
        let (banned, w) ← checkBan env conf r w
        if banned then return (conf.status, w)
        firstPass env conf r w

/-- `ngx_http_shield_body_handler`, up to the resumption of the phases. -/
def bodyHandler (env : Env) (conf : LocConf) (r : Request) (a : Arrival env.hash) (w : World) :
    Except Fault World := do
  match ← inspectBody env conf a w with
  | (.ok hit, w) =>
      let (rc, w) ← act env conf r hit w
      w.setStatus (if rc = ngxDeclined then ngxDeclined else rc)
  | (.error, w) => w.setStatus conf.fail
  | (.declined, w) => w.setStatus ngxDeclined

/-- The world the body arrives in. -/
def World.resume (w : World) {hash : Addr → Nat} (a : Arrival hash) : World :=
  { w with zone := a.zone, now := a.now }

/-- A request from the handler's first entry to its verdict.  A handler that waits for
the body is entered again after the body handler. -/
def serve (env : Env) (conf : LocConf) (r : Request) (w : World) :
    Except Fault (Int × World) := do
  let (rc, w) ← handler env conf r w
  if rc ≠ ngxDone then return (rc, w)
  match env.body.arrival with
  -- the client went away, and nothing comes any more
  | none => return (rc, w)
  | some a =>
      let w ← bodyHandler env conf r a (w.resume a)
      handler env conf r w

/-! ## §3. What acting on a hit does. -/

theorem World.noteLog_quiet (w : World) (rec : LogRecord) : w.Quiet (w.noteLog rec) where
  zone := rfl
  now := rfl
  ctx := rfl
  acted := rfl
  scans := List.prefix_refl _

theorem World.ifGranted_quiet (env : Env) (w : World) {next : World → World}
    (hnext : ∀ w : World, w.Quiet (next w)) : w.Quiet (w.ifGranted env next) := by
  unfold World.ifGranted
  split
  · exact (w.palloc_quiet env).trans (hnext _)
  · exact w.palloc_quiet env

theorem writeLogFile_quiet (conf : LocConf) (r : Request) (hit : Hit) (w : World) :
    w.Quiet (writeLogFile conf r hit w) := by
  unfold writeLogFile
  split
  · exact w.noteLog_quiet _
  · exact .refl w

theorem writeLogSyslog_quiet (env : Env) (conf : LocConf) (r : Request) (hit : Hit) (w : World) :
    w.Quiet (writeLogSyslog env conf r hit w) := by
  unfold writeLogSyslog
  split
  · exact w.ifGranted_quiet env fun w => w.noteLog_quiet _
  · exact .refl w

/-- Logging changes neither the zone nor the request. -/
theorem writeLog_quiet (env : Env) (conf : LocConf) (r : Request) (hit : Hit) (w : World) :
    w.Quiet (writeLog env conf r hit w) := by
  unfold writeLog
  split
  · exact .refl w
  · exact w.ifGranted_quiet env fun w =>
      (writeLogFile_quiet conf r hit w).trans (writeLogSyslog_quiet env conf r hit _)

/-- The counters of the status page are no part of the zone's structure. -/
theorem Zone.Wf.countHit {hash : Addr → Nat} {z : Zone} {ps : List Ptr} (h : z.Wf hash ps)
    (cat : Nat) (blocked : Bool) : (banCountHit z cat blocked).Wf hash ps := by
  have hrbtree : (banCountHit z cat blocked).sh.rbtree = z.sh.rbtree := by
    unfold banCountHit
    split <;> split <;> rfl
  have hqueue : (banCountHit z cat blocked).sh.queue = z.sh.queue := by
    unfold banCountHit
    split <;> split <;> rfl
  have hcursor : (banCountHit z cat blocked).sh.cursor = z.sh.cursor := by
    unfold banCountHit
    split <;> split <;> rfl
  have hlinks : (banCountHit z cat blocked).links = z.links := by
    unfold Zone.links
    rw [hqueue]
    rfl
  have haddr : (banCountHit z cat blocked).addrAt = z.addrAt := rfl
  exact {
    spells := by rw [hlinks]; exact h.spells
    nodup := h.nodup
    tree := by rw [hrbtree]; exact h.tree
    live := h.live
    holds := h.holds
    sorted := by rw [hrbtree, haddr]; exact h.sorted
    cursor := by rw [hcursor]; exact h.cursor }

/-- Counting a hit changes no entry of the map. -/
theorem Zone.Wf.countHit_entryOf {hash : Addr → Nat} {z : Zone} {ps : List Ptr}
    (h : z.Wf hash ps) (cat : Nat) (blocked : Bool) (a : Addr) :
    (banCountHit z cat blocked).entryOf a = z.entryOf a := by
  have hlru : (banCountHit z cat blocked).lru ps = z.lru ps := by
    unfold banCountHit Zone.lru Zone.nodeAt Zone.addrAt Zone.entryAt
    split <;> split <;> rfl
  rw [(h.countHit cat blocked).toShape.entryOf_eq, h.toShape.entryOf_eq, hlru]

theorem banCountHit_bans (z : Zone) (cat : Nat) (blocked : Bool) :
    (banCountHit z cat blocked).sh.bans = z.sh.bans := by
  unfold banCountHit
  split <;> split <;> rfl

/-- Counting a hit returns and keeps the zone well-formed. -/
theorem recordHit_returns (env : Env) (conf : LocConf) (r : Request) (hit : Hit) {w : World}
    (hzone : ∃ ps, w.zone.Wf env.hash ps) :
    ∃ zone, recordHit env conf r hit w = .ok (w.setZone zone) ∧ ∃ ps, zone.Wf env.hash ps := by
  unfold recordHit
  cases conf.ban with
  | none => exact ⟨w.zone, rfl, hzone⟩
  | some ban =>
      obtain ⟨zone, hrecord, ps, hwf⟩ := banRecord_returns env ban r hzone
      refine ⟨banCountHit zone hit.cat (conf.mode == .block), ?_, ps, hwf.countHit _ _⟩
      simp only [hrecord, ok_bind]
      rfl

/-- **Acting on a hit** decides by the mode alone; it touches neither the request's
context nor the scans. -/
theorem act_returns (env : Env) (conf : LocConf) (r : Request) (hit : Hit) {w : World}
    (hzone : ∃ ps, w.zone.Wf env.hash ps) :
    ∃ w', act env conf r hit w = .ok (conf.denial, w') ∧ w'.ctx = w.ctx
      ∧ w.scans <+: w'.scans := by
  obtain ⟨zone, hrecord, -⟩ := recordHit_returns env conf r hit hzone
  have hlog := writeLog_quiet env conf r hit (w.setZone zone).noteAct
  unfold act
  rw [hrecord, ok_bind]
  exact ⟨_, rfl, hlog.ctx, hlog.scans⟩

theorem LocConf.denial_ne_done (conf : LocConf) : conf.denial ≠ ngxDone := by
  unfold LocConf.denial
  split
  · exact conf.status_ne_done
  · decide

theorem LocConf.fail_ne_done (conf : LocConf) : conf.fail ≠ ngxDone := by
  unfold LocConf.fail
  split <;> decide

/-- In block mode the return code of a hit is a denial. -/
theorem LocConf.denial_block {conf : LocConf} (h : conf.mode = .block) :
    conf.denial ≠ ngxDeclined := by
  unfold LocConf.denial
  rw [if_pos h]
  exact conf.status_ne_declined

/-- In block mode the return code of a failed inspection is a denial. -/
theorem LocConf.fail_block {conf : LocConf} (h : conf.mode = .block) :
    conf.fail ≠ ngxDeclined := by
  unfold LocConf.fail
  rw [if_pos h]
  decide

theorem LocConf.denial_detect {conf : LocConf} (h : conf.mode = .detect) :
    conf.denial = ngxDeclined := by
  unfold LocConf.denial
  rw [if_neg (by rw [h]; decide)]

theorem LocConf.fail_detect {conf : LocConf} (h : conf.mode = .detect) :
    conf.fail = ngxDeclined := by
  unfold LocConf.fail
  rw [if_neg (by rw [h]; decide)]

/-! ## §4. How the first pass ends. -/

/-- The first pass found nothing, and all it had to scan was scanned. -/
def PrebodyPassed (env : Env) (conf : LocConf) (r : Request) (w : World) : Prop :=
  PrebodyClean env conf r ∧ w.Granted env (2 * (prebodyJobs conf r).length)

/-- **The ways the first pass of a request ends**, with its return code and the world
it leaves. -/
inductive FirstPass (env : Env) (conf : LocConf) (r : Request) (w : World) :
    Int → World → Prop where
  /-- The client is banned. -/
  | banned {w' : World} (hban : ClientBanned env conf r w) :
      FirstPass env conf r w conf.status w'
  /-- A hit, or a buffer that could not be scanned. -/
  | stopped {rc : Int} {w' : World} (hban : ¬ ClientBanned env conf r w)
      (hpassed : ¬ PrebodyPassed env conf r w) (hrc : rc = conf.denial ∨ rc = conf.fail) :
      FirstPass env conf r w rc w'
  /-- Nothing was found, and there is no body to scan. -/
  | passed {w' : World} (hban : ¬ ClientBanned env conf r w) (hpassed : PrebodyPassed env conf r w)
      (hbody : ¬ (conf.body = true ∧ scannableBody r = true)) (hdid : w'.Did (prebodyJobs conf r)) :
      FirstPass env conf r w ngxDeclined w'
  /-- No memory for the module context. -/
  | starved {w' : World} (hban : ¬ ClientBanned env conf r w)
      (hpassed : PrebodyPassed env conf r w) (hbody : conf.body = true ∧ scannableBody r = true)
      (hctx : env.granted (w.allocs + 2 * (prebodyJobs conf r).length) = false) :
      FirstPass env conf r w ngxError w'
  /-- The body cannot be read. -/
  | refused {w' : World} (hban : ¬ ClientBanned env conf r w) (hpassed : PrebodyPassed env conf r w)
      (hbody : conf.body = true ∧ scannableBody r = true)
      (hctx : env.granted (w.allocs + 2 * (prebodyJobs conf r).length) = true)
      (hread : env.body.rc ≥ ngxHttpSpecialResponse) :
      FirstPass env conf r w env.body.rc w'
  /-- The handler waits for the body. -/
  | waiting {w' : World} (hban : ¬ ClientBanned env conf r w) (hpassed : PrebodyPassed env conf r w)
      (hbody : conf.body = true ∧ scannableBody r = true)
      (hctx : env.granted (w.allocs + 2 * (prebodyJobs conf r).length) = true)
      (hread : ¬ env.body.rc ≥ ngxHttpSpecialResponse) (hdid : w'.Did (prebodyJobs conf r))
      (hset : w'.ctx = some ⟨ngxDeclined⟩) :
      FirstPass env conf r w ngxDone w'

/-- The repeat-offender check, with or without a ban zone. -/
theorem checkBan_eq (env : Env) (conf : LocConf) (r : Request) {w : World}
    (hzone : ∃ ps, w.zone.Wf env.hash ps) :
    ∃ banned zone, checkBan env conf r w = .ok (banned, w.setZone zone)
      ∧ (banned = true ↔ ClientBanned env conf r w) ∧ ∃ ps, zone.Wf env.hash ps := by
  unfold checkBan
  cases hban : conf.ban with
  | none =>
      refine ⟨false, w.zone, rfl, ?_, hzone⟩
      constructor
      · intro h
        cases h
      · rintro ⟨ban, a, e, hban', -⟩
        rw [hban] at hban'
        cases hban'
  | some ban => exact banIsBanned_eq env hban r hzone

/-- **The first pass ends in one of these ways.** -/
theorem handler_first (env : Env) (conf : LocConf) (r : Request) {w : World}
    (hmain : r.isMain = true) (hmode : conf.mode ≠ .off) (hctx : w.ctx = none)
    (hzone : ∃ ps, w.zone.Wf env.hash ps) :
    ∃ rc w', handler env conf r w = .ok (rc, w') ∧ FirstPass env conf r w rc w' := by
  obtain ⟨banned, zone, hcheck, hbanned, hwf⟩ := checkBan_eq env conf r hzone
  unfold handler
  rw [if_neg (by simp [hmain]), if_neg hmode]
  simp only [hctx, hcheck, ok_bind]
  -- The cases are the branches of the handler, in the order of the source.
  cases banned with
  | true => exact ⟨conf.status, _, rfl, .banned (hbanned.mp rfl)⟩
  | false =>
      have hban : ¬ ClientBanned env conf r w := fun h => Bool.false_ne_true (hbanned.mpr h)
      obtain ⟨rc, w', hinspect, hquiet, hiff, hdone⟩ :=
        inspectPrebody_spec env conf r (w.setZone zone)
      have hiff' : rc = .declined ↔ PrebodyPassed env conf r w := hiff
      have hwf' : ∃ ps, w'.zone.Wf env.hash ps := by
        rw [hquiet.zone]
        exact hwf
      rw [if_neg Bool.false_ne_true]
      unfold firstPass
      rw [hinspect, ok_bind]
      cases rc with
      | error =>
          have hpassed := mt hiff'.mpr (by simp)
          exact ⟨conf.fail, w', rfl, .stopped hban hpassed (.inr rfl)⟩
      | ok hit =>
          have hpassed := mt hiff'.mpr (by simp)
          obtain ⟨w'', hact, -, -⟩ := act_returns env conf r hit hwf'
          exact ⟨conf.denial, w'', hact, .stopped hban hpassed (.inl rfl)⟩
      | declined =>
          have hpassed := hiff'.mp rfl
          obtain ⟨hallocs, hdid⟩ := hdone rfl
          show ∃ rc w'', Except.ok (awaitBody env conf r w') = .ok (rc, w'') ∧ _
          unfold awaitBody
          by_cases hbody : conf.body = true ∧ scannableBody r = true
          · have hgo : ¬ (¬ conf.body = true ∨ ¬ scannableBody r = true) := by
              rw [not_or, not_not, not_not]
              exact hbody
            have hgranted : (w'.palloc env).1
                = env.granted (w.allocs + 2 * (prebodyJobs conf r).length) := by
              show env.granted w'.allocs = _
              rw [hallocs]
              rfl
            rw [if_neg hgo]
            show ∃ rc w'', Except.ok (if ¬ (w'.palloc env).1 = true then _ else _) = _ ∧ _
            -- Without a context there is no waiting for the body.
            by_cases hctx' : env.granted (w.allocs + 2 * (prebodyJobs conf r).length) = true
            · rw [if_neg (by rw [hgranted, not_not]; exact hctx')]
              by_cases hread : env.body.rc ≥ ngxHttpSpecialResponse
              · simp only [if_pos hread]
                exact ⟨_, _, rfl, .refused hban hpassed hbody hctx' hread⟩
              · simp only [if_neg hread]
                exact ⟨_, _, rfl, .waiting hban hpassed hbody hctx' hread hdid rfl⟩
            · rw [if_pos (by rw [hgranted]; exact hctx')]
              exact ⟨_, _, rfl, .starved hban hpassed hbody (Bool.eq_false_of_not_eq_true hctx')⟩
          · have hstay : ¬ conf.body = true ∨ ¬ scannableBody r = true := by
              by_contra h
              rw [not_or, not_not, not_not] at h
              exact hbody h
            rw [if_pos hstay]
            exact ⟨ngxDeclined, w', rfl, .passed hban hpassed hbody hdid⟩

/-- A first pass that returns `NGX_DONE` waits for the body. -/
theorem FirstPass.waits {env : Env} {conf : LocConf} {r : Request} {w w' : World}
    (h : FirstPass env conf r w ngxDone w') :
    PrebodyPassed env conf r w ∧ (conf.body = true ∧ scannableBody r = true)
      ∧ env.granted (w.allocs + 2 * (prebodyJobs conf r).length) = true
      ∧ ¬ env.body.rc ≥ ngxHttpSpecialResponse
      ∧ w'.Did (prebodyJobs conf r) ∧ w'.ctx = some ⟨ngxDeclined⟩ := by
  generalize hrc : ngxDone = rc at h
  cases h with
  | banned hban => exact absurd hrc.symm conf.status_ne_done
  | stopped hban hpassed hstop =>
      rcases hstop with rfl | rfl
      · exact absurd hrc.symm conf.denial_ne_done
      · exact absurd hrc.symm conf.fail_ne_done
  | passed => exact absurd hrc (by decide)
  | starved => exact absurd hrc (by decide)
  | refused hban hpassed hbody hctx hread =>
      rw [← hrc] at hread
      exact absurd hread (by decide)
  | waiting hban hpassed hbody hctx hread hdid hset =>
      exact ⟨hpassed, hbody, hctx, hread, hdid, hset⟩

/-! ## §5. The body handler and the verdict. -/

/-- As long as the context is the one of a world that has one, the status is set. -/
theorem setStatus_of_ctx {w w' : World} (hctx : w.ctx.isSome = true) (hsame : w'.ctx = w.ctx)
    (status : Int) : w'.setStatus status = .ok (w'.setCtx status) := by
  obtain ⟨ctx, hsome⟩ := Option.isSome_iff_exists.mp hctx
  unfold World.setStatus
  rw [hsame, hsome]

/-- **The body handler records a verdict**: in detect mode always "go on"; in block
mode that only if the body was scanned and is clean. -/
theorem bodyHandler_ends (env : Env) (conf : LocConf) (r : Request) (a : Arrival env.hash)
    {w : World} (hctx : w.ctx.isSome = true) (hzone : ∃ ps, w.zone.Wf env.hash ps) :
    ∃ status w', bodyHandler env conf r a w = .ok w' ∧ w'.ctx = some ⟨status⟩
      ∧ w.scans <+: w'.scans
      ∧ (conf.mode = .detect → status = ngxDeclined)
      ∧ (conf.mode = .block → status = ngxDeclined → a.content.take conf.maxBody ≠ []
          → w'.Did [bodyJob conf a.content]) := by
  obtain ⟨rc, w', hinspect, hquiet, hclean⟩ := inspectBody_spec env conf a w
  -- inspecting and logging leave the context alone, so it is there to be set
  unfold bodyHandler
  rw [hinspect, ok_bind]
  cases rc with
  | error =>
      refine ⟨conf.fail, w'.setCtx conf.fail, setStatus_of_ctx hctx hquiet.ctx _, rfl, hquiet.scans,
        LocConf.fail_detect, ?_⟩
      intro hmode hstatus
      exact absurd hstatus (conf.fail_block hmode)
  | ok hit =>
      have hwf : ∃ ps, w'.zone.Wf env.hash ps := by
        rw [hquiet.zone]
        exact hzone
      obtain ⟨w'', hact, hctx'', hscans⟩ := act_returns env conf r hit hwf
      refine ⟨conf.denial, w''.setCtx conf.denial, ?_, rfl, hquiet.scans.trans hscans,
        LocConf.denial_detect, ?_⟩
      · simp only [hact, ok_bind]
        rw [setStatus_of_ctx hctx (hctx''.trans hquiet.ctx)]
        split
        · next h => rw [h]
        · rfl
      · intro hmode hstatus
        exact absurd hstatus (conf.denial_block hmode)
  | declined =>
      refine ⟨ngxDeclined, w'.setCtx ngxDeclined, setStatus_of_ctx hctx hquiet.ctx _, rfl, hquiet.scans,
        fun _ => rfl, ?_⟩
      intro _ _ hne
      exact hclean rfl hne

/-- The re-entry returns what the body handler recorded. -/
theorem handler_reentry (env : Env) (conf : LocConf) (r : Request) {w : World} {status : Int}
    (hmain : r.isMain = true) (hmode : conf.mode ≠ .off) (hctx : w.ctx = some ⟨status⟩) :
    handler env conf r w = .ok (status, w) := by
  unfold handler
  rw [if_neg (by simp [hmain]), if_neg hmode, hctx]

/-- **The verdict of a request**: that of its first pass, or, when that waits for the
body, what the body handler records. -/
theorem serve_ends (env : Env) (conf : LocConf) (r : Request) {w : World}
    (hmain : r.isMain = true) (hmode : conf.mode ≠ .off) (hctx : w.ctx = none)
    (hzone : ∃ ps, w.zone.Wf env.hash ps) :
    ∃ rc w', serve env conf r w = .ok (rc, w')
      ∧ (rc ≠ ngxDone ∧ FirstPass env conf r w rc w'
        ∨ ∃ a w₁, env.body.arrival = some a ∧ FirstPass env conf r w ngxDone w₁
          ∧ w₁.scans <+: w'.scans
          ∧ (conf.mode = .detect → rc = ngxDeclined)
          ∧ (conf.mode = .block → rc = ngxDeclined → a.content.take conf.maxBody ≠ []
              → w'.Did [bodyJob conf a.content])) := by
  obtain ⟨rc, w₁, hfirst, hends⟩ := handler_first env conf r hmain hmode hctx hzone
  unfold serve
  rw [hfirst, ok_bind]
  by_cases hdone : rc = ngxDone
  · subst hdone
    -- the handler waits, and the body arrives
    obtain ⟨-, -, -, hread, -, hctx₁⟩ := hends.waits
    obtain ⟨a, ha⟩ := Option.isSome_iff_exists.mp (env.body.called.resolve_left hread)
    have hsome : (w₁.resume a).ctx.isSome = true := by
      show w₁.ctx.isSome = true
      rw [hctx₁]
      rfl
    obtain ⟨status, w₂, hbody, hset, hscans, hdetect, hblock⟩ :=
      @bodyHandler_ends env conf r a (w₁.resume a) hsome a.zone_wf
    refine ⟨status, w₂, ?_, .inr ⟨a, w₁, ha, hends, hscans, hdetect, hblock⟩⟩
    simp only [ha, ne_eq, not_true_eq_false, if_false, hbody, ok_bind]
    exact handler_reentry env conf r hmain hmode hset
  · refine ⟨rc, w₁, ?_, .inl ⟨hdone, hends⟩⟩
    simp only [ne_eq, hdone, not_false_eq_true, if_true]
    rfl

end HttpShield
