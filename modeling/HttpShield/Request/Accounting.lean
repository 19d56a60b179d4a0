/-
  HttpShield.Request.Accounting
  ─────────────────────────────
  What the counters of the status page account for.

  Requests come to locations that share a zone, in any order and with their bodies
  arriving whenever they do.  A hit that is acted on is counted under its category,
  and as a denial where the mode is `block`, whether or not the ban engine could
  record it.  The other way to be denied, the ban short-circuit, counts nothing.

    • `handler_books`, `bodyHandler_books` — what one call adds to the counters,
    • `counters_account`  — in every run the hits add up, and the denials do exactly
      as far as no client is cut off for a ban,
    • `counters_miss_cut` — a request that is denied and not counted.
-/
import HttpShield.Ban.Tally
import HttpShield.Request.Redirects

namespace HttpShield

/-! ## §1. The category of a hit has a counter. -/

theorem structural_cat {skip : Mask} {r : Request} {hit : Hit}
    (h : structural skip r = .ok (.ok hit)) : hit.cat < banNcounters := by
  rcases structural_spec skip r with ⟨hit', c, hhit, hcat, -⟩ | ⟨hclean, -⟩
  · rw [h] at hhit
    injection hhit with hhit
    injection hhit with hhit
    rw [hhit, hcat]
    exact c.bit_lt
  · rw [h] at hclean
    injection hclean with hclean
    cases hclean

theorem ScanJob.verdict_cat {env : Env} {job : ScanJob} {hit : Hit}
    (h : job.verdict env = .ok hit) : hit.cat < banNcounters := by
  obtain ⟨-, hcarries⟩ := naiveInput_hit_live h
  obtain ⟨c, hc⟩ := hcarries.cat_eq
  rw [hc]
  exact c.bit_lt

theorem inspectPrebody_cat {env : Env} {conf : LocConf} {r : Request} {w w' : World} {hit : Hit}
    (h : inspectPrebody env conf r w = .ok (.ok hit, w')) : hit.cat < banNcounters := by
  rcases inspectPrebody_eq env conf r w with ⟨hit', hstructural, hinspect⟩ | ⟨-, hinspect⟩
  -- the structural check hits first, and nothing is scanned
  · have hhit : Inspection.ok hit' = .ok hit :=
      (Prod.ext_iff.mp (Except.ok.inj (hinspect.symm.trans h))).1
    injection hhit with hhit
    rw [← hhit]
    exact structural_cat hstructural
  · rw [hinspect] at h
    obtain ⟨job, -, hverdict⟩ := scanJobs_hit (prebodyJobs_ne_nil conf r) h
    exact job.verdict_cat hverdict

theorem inspectBody_cat {env : Env} {conf : LocConf} {a : Arrival env.hash} {w w' : World}
    {hit : Hit} (h : inspectBody env conf a w = .ok (.ok hit, w')) : hit.cat < banNcounters := by
  obtain ⟨job, -, hverdict⟩ := inspectBody_job h
  exact job.verdict_cat hverdict

/-! ## §2. The counters. -/

/-- The sum of the category counters. -/
def Zone.catTotal (z : Zone) : UInt64 := z.sh.catHits.toList.foldr (fun n total => n + total) 0

theorem foldr_add_set (l : List UInt64) : ∀ (i : Nat) (hi : i < l.length),
    (l.set i (l[i] + 1)).foldr (fun n total => n + total) 0
      = l.foldr (fun n total => n + total) 0 + 1 := by
  induction l with
  | nil =>
      intro i hi
      exact absurd hi (Nat.not_lt_zero i)
  | cons n l ih =>
      intro i hi
      cases i with
      | zero =>
          show n + 1 + _ = n + _ + 1
          rw [UInt64.add_assoc, UInt64.add_comm 1, ← UInt64.add_assoc]
      | succ i =>
          have hi' : i < l.length := Nat.lt_of_succ_lt_succ hi
          show n + (l.set i (l[i] + 1)).foldr _ 0 = n + _ + 1
          rw [ih i hi', UInt64.add_assoc]

/-- Counting a hit adds one to the categories, and one to the denials if it is one. -/
theorem banCountHit_totals (z : Zone) {cat : Nat} (hcat : cat < banNcounters) (denied : Bool) :
    (banCountHit z cat denied).catTotal = z.catTotal + 1
      ∧ (banCountHit z cat denied).sh.blocked = z.sh.blocked + if denied then 1 else 0 := by
  have hlen : cat < z.sh.catHits.toList.length := by simpa using hcat
  have hcats : (z.sh.catHits.set cat (z.sh.catHits[cat] + 1)).toList
      = z.sh.catHits.toList.set cat (z.sh.catHits.toList[cat] + 1) := by
    simp [Vector.toList_set]
  constructor
  · have hsum := foldr_add_set z.sh.catHits.toList cat hlen
    rw [← hcats] at hsum
    unfold banCountHit Zone.catTotal
    rw [dif_pos hcat]
    cases denied with
    | true => exact hsum
    | false => exact hsum
  · unfold banCountHit
    rw [dif_pos hcat]
    cases denied with
    | true => rfl
    | false =>
        show z.sh.blocked = z.sh.blocked + 0
        rw [UInt64.add_zero]

/-! ## §3. What one call adds. -/

theorem banIsBanned_sameHits {env : Env} {ban : BanConf} {r : Request} {w w' : World} {b : Bool}
    (h : banIsBanned env ban r w = .ok (b, w')) : w.zone.SameHits w'.zone := by
  obtain ⟨key, -, h⟩ := bind_eq_ok h
  cases key with
  | none =>
      obtain ⟨-, rfl⟩ : false = b ∧ w = w' := by simpa using h
      exact .refl w.zone
  | some a =>
      obtain ⟨⟨zone, banned⟩, hcall, h⟩ := bind_eq_ok h
      obtain ⟨-, rfl⟩ : banned = b ∧ w.setZone zone = w' := by simpa using h
      exact (banIsBannedLocked_trims hcall).toSameHits

theorem checkBan_sameHits {env : Env} {conf : LocConf} {r : Request} {w w' : World} {b : Bool}
    (h : checkBan env conf r w = .ok (b, w')) : w.zone.SameHits w'.zone := by
  unfold checkBan at h
  cases hban : conf.ban with
  | none =>
      rw [hban] at h
      obtain ⟨-, rfl⟩ : false = b ∧ w = w' := by simpa using h
      exact .refl w.zone
  | some ban =>
      rw [hban] at h
      exact banIsBanned_sameHits h

/-- Recording a hit leaves the counters of the hits, whether or not there was room. -/
theorem banRecord_sameHits {env : Env} {ban : BanConf} {r : Request} {w w' : World}
    (h : banRecord env ban r w = .ok w') : w.zone.SameHits w'.zone := by
  obtain ⟨key, -, h⟩ := bind_eq_ok h
  cases key with
  | none =>
      obtain rfl := Except.ok.inj h
      exact .refl w.zone
  | some a =>
      obtain ⟨⟨zone, rc⟩, hcall, h⟩ := bind_eq_ok h
      obtain rfl := Except.ok.inj h
      exact (banRecordLocked_totals hcall).1

/-- **What a call adds to the books**: so many hits acted on, and a denial or none. -/
structure World.Books (w w' : World) (hits : Nat) (denial : Bool) : Prop where
  acted : w'.acted = w.acted + hits
  catHits : w'.zone.catTotal = w.zone.catTotal + UInt64.ofNat hits
  blocked : w'.zone.sh.blocked = w.zone.sh.blocked + if denial then 1 else 0

/-- A call that acts on nothing and leaves the counters. -/
theorem World.Books.of_sameHits {w w' : World} (hacted : w'.acted = w.acted)
    (hzone : w.zone.SameHits w'.zone) : w.Books w' 0 false where
  acted := hacted
  catHits := by
    show w'.zone.catTotal = w.zone.catTotal + 0
    rw [UInt64.add_zero, Zone.catTotal, hzone.catHits]
    rfl
  blocked := by
    show w'.zone.sh.blocked = w.zone.sh.blocked + 0
    rw [UInt64.add_zero, hzone.blocked]

theorem World.Books.of_quiet {w w' : World} (h : w.Quiet w') : w.Books w' 0 false :=
  .of_sameHits h.acted (h.zone ▸ .refl w.zone)

/-- A call adds the same to the books behind steps that leave no trace in them. -/
theorem World.Books.after {w w₁ w' : World} {hits : Nat} {denial : Bool}
    (hbefore : w.Books w₁ 0 false) (h : w₁.Books w' hits denial) : w.Books w' hits denial where
  acted := h.acted.trans (congrArg (· + hits) hbefore.acted)
  catHits := by
    have hsame := hbefore.catHits
    rw [show UInt64.ofNat 0 = 0 from rfl, UInt64.add_zero] at hsame
    rw [h.catHits, hsame]
  blocked := by
    have hsame := hbefore.blocked
    rw [if_neg Bool.false_ne_true, UInt64.add_zero] at hsame
    rw [h.blocked, hsame]

/-- **Acting on a hit** is one hit in the books, and a denial in block mode. -/
theorem act_books (env : Env) {conf : LocConf} (hban : conf.ban ≠ none) (r : Request) {hit : Hit}
    (hcat : hit.cat < banNcounters) {w : World} (hzone : ∃ ps, w.zone.Wf env.hash ps) :
    ∃ w', act env conf r hit w = .ok (conf.denial, w') ∧ w'.ctx = w.ctx
      ∧ (∃ ps, w'.zone.Wf env.hash ps) ∧ w.Books w' 1 (conf.mode == .block) := by
  obtain ⟨zone, hrecord, hwf⟩ := recordHit_returns env conf r hit hzone
  -- the zone is what the ban engine left, with the hit counted
  obtain ⟨ban, hsome⟩ := Option.ne_none_iff_exists'.mp hban
  have hcounted : zone.catTotal = w.zone.catTotal + 1
      ∧ zone.sh.blocked = w.zone.sh.blocked + if conf.mode == .block then 1 else 0 := by
    have hrecord' := hrecord
    unfold recordHit at hrecord'
    simp only [hsome] at hrecord'
    obtain ⟨w₁, hrec, hcount⟩ := bind_eq_ok hrecord'
    have hsame := banRecord_sameHits hrec
    have hzone' : banCountHit w₁.zone hit.cat (conf.mode == .block) = zone :=
      congrArg World.zone (Except.ok.inj hcount)
    obtain ⟨hcats, hblocked⟩ := banCountHit_totals w₁.zone hcat (conf.mode == .block)
    rw [← hzone', hcats, hblocked, hsame.blocked, Zone.catTotal, hsame.catHits]
    exact ⟨rfl, rfl⟩
  have hlog := writeLog_quiet env conf r hit (w.setZone zone).noteAct
  have hact : act env conf r hit w
      = .ok (conf.denial, writeLog env conf r hit (w.setZone zone).noteAct) := by
    unfold act
    rw [hrecord, ok_bind]
    rfl
  generalize writeLog env conf r hit (w.setZone zone).noteAct = w' at hlog hact
  have hzone' : w'.zone = zone := hlog.zone
  refine ⟨w', hact, hlog.ctx, hzone' ▸ hwf, hlog.acted, ?_, ?_⟩
  · rw [hzone']
    exact hcounted.1
  · rw [hzone']
    exact hcounted.2

/-- The return code of a hit is the location's status in block mode only. -/
theorem LocConf.denial_eq_status (conf : LocConf) :
    decide (conf.denial = conf.status) = (conf.mode == .block) := by
  unfold LocConf.denial
  by_cases hmode : conf.mode = .block
  · rw [if_pos hmode, decide_eq_true rfl, hmode]
    rfl
  · rw [if_neg hmode, decide_eq_false conf.status_ne_declined.symm]
    exact (beq_eq_false_iff_ne.mpr hmode).symm

/-- The return code of a failed inspection is never the location's status. -/
theorem LocConf.fail_ne_status (conf : LocConf) : conf.fail ≠ conf.status := by
  have hallowed := conf.status_allowed
  unfold LocConf.fail
  intro heq
  rw [← heq] at hallowed
  revert hallowed
  split <;> decide

theorem LocConf.error_ne_status (conf : LocConf) : ngxError ≠ conf.status := by
  have hallowed := conf.status_allowed
  intro heq
  rw [← heq] at hallowed
  revert hallowed
  decide

/-! ## §4. What the handlers add. -/

/-- Waiting for the body, or not, is nothing for the books. -/
theorem awaitBody_books (env : Env) (conf : LocConf) (hread : env.body.rc ≠ conf.status)
    (r : Request) (w : World) :
    w.Books (awaitBody env conf r w).2 0 false ∧ (awaitBody env conf r w).2.zone = w.zone
      ∧ (awaitBody env conf r w).1 ≠ conf.status
      ∧ ((awaitBody env conf r w).1 = ngxDone → (awaitBody env conf r w).2.ctx.isSome = true) := by
  have hquiet := World.Books.of_quiet (w.palloc_quiet env)
  unfold awaitBody
  by_cases hskip : ¬ conf.body = true ∨ ¬ scannableBody r = true
  · rw [if_pos hskip]
    exact ⟨.of_quiet (.refl w), rfl, conf.status_ne_declined.symm,
      fun h => absurd h (show ngxDeclined ≠ ngxDone by decide)⟩
  · rw [if_neg hskip]
    by_cases hgranted : (w.palloc env).1 = true
    · simp only [hgranted, not_true_eq_false, if_false]
      have hset : w.Books ((w.palloc env).2.setCtx ngxDeclined) 0 false :=
        ⟨hquiet.acted, hquiet.catHits, hquiet.blocked⟩
      split
      · exact ⟨hset, rfl, hread, fun _ => rfl⟩
      · exact ⟨hset, rfl, conf.status_ne_done.symm, fun _ => rfl⟩
    · simp only [hgranted, Bool.false_eq_true, not_false_eq_true, if_true]
      exact ⟨hquiet, rfl, conf.error_ne_status,
        fun h => absurd h (show ngxError ≠ ngxDone by decide)⟩

/-- **The first pass** is a denial in the books exactly when it answers with the
location's status. -/
theorem firstPass_books (env : Env) {conf : LocConf} (hban : conf.ban ≠ none)
    (hread : env.body.rc ≠ conf.status) (r : Request) {w : World}
    (hzone : ∃ ps, w.zone.Wf env.hash ps) :
    ∃ rc w', firstPass env conf r w = .ok (rc, w') ∧ (∃ ps, w'.zone.Wf env.hash ps)
      ∧ (rc = ngxDone → w'.ctx.isSome = true)
      ∧ ∃ hits, w.Books w' hits (rc = conf.status) := by
  obtain ⟨rc, w', hinspect, hquiet, -⟩ := inspectPrebody_spec env conf r w
  have hbooks := World.Books.of_quiet hquiet
  have hwf : ∃ ps, w'.zone.Wf env.hash ps := by
    rw [hquiet.zone]
    exact hzone
  unfold firstPass
  rw [hinspect, ok_bind]
  cases rc with
  | error =>
      refine ⟨conf.fail, w', rfl, hwf, fun h => absurd h conf.fail_ne_done, 0, ?_⟩
      rw [decide_eq_false conf.fail_ne_status]
      exact hbooks
  | ok hit =>
      obtain ⟨w'', hact, -, hwf'', hone⟩ :=
        act_books env hban r (inspectPrebody_cat hinspect) hwf
      refine ⟨conf.denial, w'', hact, hwf'', fun h => absurd h conf.denial_ne_done, 1, ?_⟩
      rw [conf.denial_eq_status]
      exact hbooks.after hone
  | declined =>
      obtain ⟨hnone, hsame, hrc, hctx⟩ := awaitBody_books env conf hread r w'
      refine ⟨(awaitBody env conf r w').1, (awaitBody env conf r w').2, rfl,
        by rw [hsame]; exact hwf, hctx, 0, ?_⟩
      rw [decide_eq_false hrc]
      exact hbooks.after hnone

/-- **A client is cut off**: a request comes to a location that is on, from a banned
client. -/
def CutOff (env : Env) (conf : LocConf) (r : Request) (w : World) : Prop :=
  r.isMain = true ∧ conf.mode ≠ .off ∧ w.ctx = none ∧ ClientBanned env conf r w

/-- **The first entry of a request** is a denial in the books exactly when it answers
with the location's status, unless the client is cut off. -/
theorem handler_books (env : Env) {conf : LocConf} (hban : conf.ban ≠ none)
    (hread : env.body.rc ≠ conf.status) (r : Request) {w : World} (hctx : w.ctx = none)
    (hzone : ∃ ps, w.zone.Wf env.hash ps) :
    ∃ rc w', handler env conf r w = .ok (rc, w') ∧ (∃ ps, w'.zone.Wf env.hash ps)
      ∧ (rc = ngxDone → r.isMain = true ∧ conf.mode ≠ .off ∧ w'.ctx.isSome = true)
      ∧ ∃ hits denial, w.Books w' hits denial
        ∧ (CutOff env conf r w ∧ rc = conf.status ∧ denial = false
          ∨ ¬ CutOff env conf r w ∧ denial = decide (rc = conf.status)) := by
  unfold handler
  by_cases hon : r.isMain = true ∧ conf.mode ≠ .off
  · obtain ⟨hmain, hmode⟩ := hon
    obtain ⟨banned, zone, hcheck, hbanned, hwf⟩ := checkBan_eq env conf r hzone
    have hchecked : w.Books (w.setZone zone) 0 false :=
      .of_sameHits rfl (checkBan_sameHits hcheck)
    rw [if_neg (by simp [hmain]), if_neg hmode]
    simp only [hctx, hcheck, ok_bind]
    cases banned with
    | true =>
        -- cut off: the status is answered, and `blocked` stays
        exact ⟨conf.status, _, rfl, hwf, fun h => absurd h conf.status_ne_done, 0, false, hchecked,
          .inl ⟨⟨hmain, hmode, hctx, hbanned.mp rfl⟩, rfl, rfl⟩⟩
    | false =>
        have hgo : ¬ CutOff env conf r w := fun h => Bool.false_ne_true (hbanned.mpr h.2.2.2)
        obtain ⟨rc, w', hpass, hwf', hctx', hits, hbooks⟩ :=
          @firstPass_books env conf hban hread r (w.setZone zone) hwf
        exact ⟨rc, w', hpass, hwf', fun h => ⟨hmain, hmode, hctx' h⟩, hits, _,
          hchecked.after hbooks, .inr ⟨hgo, rfl⟩⟩
  · -- a subrequest, or the shield is off
    have hgo : ¬ CutOff env conf r w := fun h => hon ⟨h.1, h.2.1⟩
    refine ⟨ngxDeclined, w, ?_, hzone, fun h => absurd h (by decide), 0, false,
      .of_quiet (.refl w), .inr ⟨hgo, (decide_eq_false conf.status_ne_declined.symm).symm⟩⟩
    by_cases hmain : r.isMain = true
    · rw [if_neg (by simp [hmain]), if_pos (not_not.mp fun hmode => hon ⟨hmain, hmode⟩)]
    · rw [if_pos hmain]

/-- **The body handler** is a denial in the books exactly when it records the
location's status. -/
theorem bodyHandler_books (env : Env) {conf : LocConf} (hban : conf.ban ≠ none) (r : Request)
    (a : Arrival env.hash) {w : World} (hctx : w.ctx.isSome = true)
    (hzone : ∃ ps, w.zone.Wf env.hash ps) :
    ∃ status w', bodyHandler env conf r a w = .ok w' ∧ w'.ctx = some ⟨status⟩
      ∧ (∃ ps, w'.zone.Wf env.hash ps)
      ∧ ∃ hits, w.Books w' hits (status = conf.status) := by
  obtain ⟨rc, w', hinspect, hquiet, -⟩ := inspectBody_spec env conf a w
  have hbooks := World.Books.of_quiet hquiet
  have hwf : ∃ ps, w'.zone.Wf env.hash ps := by
    rw [hquiet.zone]
    exact hzone
  unfold bodyHandler
  rw [hinspect, ok_bind]
  cases rc with
  | error =>
      refine ⟨conf.fail, _, setStatus_of_ctx hctx hquiet.ctx _, rfl, hwf, 0, ?_⟩
      rw [decide_eq_false conf.fail_ne_status]
      exact ⟨hbooks.acted, hbooks.catHits, hbooks.blocked⟩
  | declined =>
      refine ⟨ngxDeclined, _, setStatus_of_ctx hctx hquiet.ctx _, rfl, hwf, 0, ?_⟩
      rw [decide_eq_false conf.status_ne_declined.symm]
      exact ⟨hbooks.acted, hbooks.catHits, hbooks.blocked⟩
  | ok hit =>
      obtain ⟨w'', hact, hctx'', hwf'', hone⟩ :=
        act_books env hban r (inspectBody_cat hinspect) hwf
      have hboth := hbooks.after hone
      simp only [hact, ok_bind]
      refine ⟨conf.denial, w''.setCtx conf.denial, ?_, rfl, hwf'', 1, ?_⟩
      · rw [setStatus_of_ctx hctx (hctx''.trans hquiet.ctx)]
        split
        · next h => rw [h]
        · rfl
      · rw [conf.denial_eq_status]
        exact ⟨hboth.acted, hboth.catHits, hboth.blocked⟩

/-! ## §5. Runs of requests.

A request whose body is still to come waits with its world while others are served, so a
run interleaves the two entries of requests. -/

/-- A request and the location it comes to, which has the shared zone, with what
becomes of the calls made for it.  Where nginx cannot read a body it answers with a
status of its own (400, 413, 500), which `shield_status` does not accept. -/
structure Caller (env : Env) where
  conf : LocConf
  request : Request
  granted : Nat → Bool
  readFile : Nat → Int
  slab : Nat → SlabAlloc
  body : ReadBody env.hash
  shares : conf.ban ≠ none
  own_status : body.rc ≠ conf.status

/-- What the module relies on in this request. -/
def Caller.env {env : Env} (c : Caller env) : Env :=
  { env with granted := c.granted, readFile := c.readFile, slab := c.slab, body := c.body }

/-- A request as it comes in. -/
def World.arrive (zone : Zone) (now : Int) : World where
  zone := zone
  now := now
  ctx := none
  allocs := 0
  reads := 0
  acted := 0
  scans := []
  logged := []

/-- The shared zone, and the requests that wait for their bodies. -/
structure Server (env : Env) where
  zone : Zone
  waiting : Nat → Option (Caller env × World)

/-- A fresh zone, and no request. -/
def Server.start (env : Env) (garbage : Shctx) : Server env where
  zone := banInitZone garbage
  waiting := fun _ => none

/-- One entry of a request into the module: what it came to, the verdict, and what it
left. -/
structure ServerTurn (env : Env) where
  caller : Caller env
  before : World
  verdict : Int
  after : World

/-- **One turn**: a request comes in, and is answered or left waiting for its body; or
its body is there, and it is answered. -/
inductive Server.Step (env : Env) : Server env → ServerTurn env → Server env → Prop where
  | enter {s : Server env} (i : Nat) (c : Caller env) (now : Int) {rc : Int} {w : World}
      (hfree : s.waiting i = none)
      (hrun : handler c.env c.conf c.request (.arrive s.zone now) = .ok (rc, w)) :
      Server.Step env s ⟨c, .arrive s.zone now, rc, w⟩
        { zone := w.zone
          waiting := Function.update s.waiting i (if rc = ngxDone then some (c, w) else none) }
  | resume {s : Server env} (i : Nat) {c : Caller env} {w w₁ w₂ : World} {rc : Int}
      (a : Arrival env.hash) (hwait : s.waiting i = some (c, w))
      (harrival : c.body.arrival = some a) (hzone : a.zone = s.zone)
      (hbody : bodyHandler c.env c.conf c.request a (w.resume a) = .ok w₁)
      (hrun : handler c.env c.conf c.request w₁ = .ok (rc, w₂)) :
      Server.Step env s ⟨c, w.resume a, rc, w₂⟩
        { zone := w₂.zone, waiting := Function.update s.waiting i none }

/-- Turns in any order. -/
inductive Server.Run (env : Env) : Server env → List (ServerTurn env) → Server env → Prop where
  | nil (s : Server env) : Server.Run env s [] s
  | cons {s s₁ s' : Server env} {t : ServerTurn env} {turns : List (ServerTurn env)}
      (hstep : Server.Step env s t s₁) (hrest : Server.Run env s₁ turns s') :
      Server.Run env s (t :: turns) s'

variable {env : Env}

/-- The verdict is the location's `shield_status`. -/
def ServerTurn.denied (t : ServerTurn env) : Bool := t.verdict = t.caller.conf.status

/-- The hits acted on in the turn. -/
def ServerTurn.acted (t : ServerTurn env) : Nat := t.after.acted - t.before.acted

/-- The hits acted on in a run. -/
def actedOn : List (ServerTurn env) → Nat
  | [] => 0
  | t :: turns => t.acted + actedOn turns

/-- The denials are counted: one more if the turn is one. -/
def ServerTurn.CountsDenial (t : ServerTurn env) : Prop :=
  t.after.zone.sh.blocked = t.before.zone.sh.blocked + if t.denied then 1 else 0

/-- The turn cuts a banned client off. -/
def ServerTurn.CutsOff (t : ServerTurn env) : Prop :=
  CutOff t.caller.env t.caller.conf t.caller.request t.before

/-- A main request waits in a location that is on, and has a context. -/
def Caller.Waits (c : Caller env) (w : World) : Prop :=
  c.request.isMain = true ∧ c.conf.mode ≠ .off ∧ w.ctx.isSome = true

/-! ## §6. Sound servers. -/

/-- What holds of every reachable state. -/
structure Server.Sound (s : Server env) : Prop where
  wf : ∃ ps, s.zone.Wf env.hash ps
  waits : ∀ i c w, s.waiting i = some (c, w) → c.Waits w

theorem waits_update {waiting : Nat → Option (Caller env × World)}
    (h : ∀ i c w, waiting i = some (c, w) → c.Waits w) (i : Nat)
    {slot : Option (Caller env × World)}
    (hslot : ∀ c w, slot = some (c, w) → c.Waits w) :
    ∀ j c w, Function.update waiting i slot j = some (c, w) → c.Waits w := by
  intro j c w hj
  by_cases hij : j = i
  · subst hij
    rw [Function.update_self] at hj
    exact hslot c w hj
  · rw [Function.update_of_ne hij] at hj
    exact h j c w hj

theorem Server.start_sound (garbage : Shctx) : (Server.start env garbage).Sound where
  wf := ⟨[], banInitZone_wf garbage⟩
  waits := by
    intro i c w h
    cases h

/-- What a turn adds to the books, and that this is all that happens to the counters. -/
structure ServerTurn.Adds (t : ServerTurn env) (s s' : Server env) : Prop where
  from_zone : t.before.zone = s.zone
  to_zone : t.after.zone = s'.zone
  hits : s'.zone.catTotal = s.zone.catTotal + UInt64.ofNat t.acted
  counts : t.CountsDenial ↔ ¬ t.CutsOff

/-- The books of a turn, whichever way it went. -/
theorem ServerTurn.adds_of_books {t : ServerTurn env} {s s' : Server env}
    (hfrom : t.before.zone = s.zone) (hto : t.after.zone = s'.zone) {hits : Nat} {denial : Bool}
    (hbooks : t.before.Books t.after hits denial)
    (hway : t.CutsOff ∧ t.verdict = t.caller.conf.status ∧ denial = false
      ∨ ¬ t.CutsOff ∧ denial = decide (t.verdict = t.caller.conf.status)) : t.Adds s s' where
  from_zone := hfrom
  to_zone := hto
  hits := by
    rw [← hfrom, ← hto, hbooks.catHits, ServerTurn.acted, hbooks.acted, Nat.add_sub_cancel_left]
  counts := by
    unfold ServerTurn.CountsDenial
    rw [hbooks.blocked]
    rcases hway with ⟨hcut, hverdict, rfl⟩ | ⟨hgo, rfl⟩
    · -- denied, and not counted
      have hdenied : t.denied = true := decide_eq_true hverdict
      rw [hdenied]
      refine iff_of_false ?_ (not_not.mpr hcut)
      simp
    · exact iff_of_true rfl hgo

/-- **Every turn keeps a server sound**, and adds up in its counters. -/
theorem Server.Sound.step {s s' : Server env} {t : ServerTurn env} (h : s.Sound)
    (hstep : Server.Step env s t s') : s'.Sound ∧ t.Adds s s' := by
  cases hstep with
  | @enter i c now rc w hfree hrun =>
      obtain ⟨rc', w', hrun', hwf, hwaits, hits, denial, hbooks, hway⟩ :=
        @handler_books c.env c.conf c.shares c.own_status c.request (.arrive s.zone now) rfl h.wf
      obtain ⟨rfl, rfl⟩ : rc = rc' ∧ w = w' :=
        Prod.ext_iff.mp (Except.ok.inj (hrun.symm.trans hrun'))
      refine ⟨⟨hwf, waits_update h.waits i ?_⟩, ServerTurn.adds_of_books rfl rfl hbooks hway⟩
      intro c' w' hslot
      split at hslot
      · rename_i hdone
        obtain ⟨rfl, rfl⟩ : c = c' ∧ w = w' := by simpa using hslot
        exact hwaits hdone
      · cases hslot
  | @resume i c w w₁ w₂ rc a hwait harrival hzone hbody hrun =>
      obtain ⟨hmain, hmode, hctx⟩ := h.waits i c w hwait
      have hwf : ∃ ps, (w.resume a).zone.Wf c.env.hash ps := a.zone_wf
      obtain ⟨status, w', hbody', hset, hwf', hits, hbooks⟩ :=
        @bodyHandler_books c.env c.conf c.shares c.request a (w.resume a) hctx hwf
      obtain rfl : w₁ = w' := Except.ok.inj (hbody.symm.trans hbody')
      -- the re-entry answers what was recorded
      have hreentry := handler_reentry c.env c.conf c.request hmain hmode hset
      obtain ⟨rfl, rfl⟩ : rc = status ∧ w₂ = w₁ :=
        Prod.ext_iff.mp (Except.ok.inj (hrun.symm.trans hreentry))
      have hgo : ¬ CutOff c.env c.conf c.request (w.resume a) := by
        rintro ⟨-, -, hnone, -⟩
        rw [show (w.resume a).ctx = w.ctx from rfl] at hnone
        rw [hnone] at hctx
        cases hctx
      refine ⟨⟨hwf', waits_update h.waits i ?_⟩,
        ServerTurn.adds_of_books hzone rfl hbooks (.inr ⟨hgo, rfl⟩)⟩
      intro c' w' hslot
      cases hslot

/-- **The counters of every run add up**, by induction over its turns. -/
theorem Server.Run.adds {s s' : Server env} {turns : List (ServerTurn env)}
    (hrun : Server.Run env s turns s') (hs : s.Sound) :
    s'.zone.catTotal = s.zone.catTotal + UInt64.ofNat (actedOn turns)
      ∧ ((∀ t ∈ turns, t.CountsDenial) ↔ ∀ t ∈ turns, ¬ t.CutsOff)
      ∧ ((∀ t ∈ turns, t.CountsDenial) →
          s'.zone.sh.blocked
            = s.zone.sh.blocked + UInt64.ofNat (turns.countP ServerTurn.denied)) := by
  induction hrun with
  | nil s =>
      refine ⟨?_, by simp, fun _ => ?_⟩
      · show s.zone.catTotal = s.zone.catTotal + 0
        rw [UInt64.add_zero]
      · show s.zone.sh.blocked = s.zone.sh.blocked + 0
        rw [UInt64.add_zero]
  | @cons s s₁ s' t turns hstep hrest ih =>
      obtain ⟨hs₁, hadds⟩ := hs.step hstep
      obtain ⟨hcats, hiff, hblocked⟩ := ih hs₁
      refine ⟨?_, ?_, ?_⟩
      · rw [hcats, hadds.hits, UInt64.add_assoc, ← UInt64.ofNat_add]
        rfl
      · rw [List.forall_mem_cons, List.forall_mem_cons, hadds.counts, hiff]
      · intro hall
        rw [List.forall_mem_cons] at hall
        have hfirst : s₁.zone.sh.blocked = s.zone.sh.blocked + if t.denied then 1 else 0 := by
          rw [← hadds.from_zone, ← hadds.to_zone]
          exact hall.1
        rw [hblocked hall.2, hfirst]
        exact add_countP_cons ServerTurn.denied t turns s.zone.sh.blocked

theorem foldr_add_zeros : ∀ n : Nat,
    (List.replicate n (0 : UInt64)).foldr (fun n total => n + total) 0 = 0
  | 0 => rfl
  | n + 1 => by
      show 0 + (List.replicate n (0 : UInt64)).foldr (fun n total => n + total) 0 = 0
      rw [foldr_add_zeros n]
      rfl

theorem Server.start_catTotal (garbage : Shctx) :
    (Server.start env garbage).zone.catTotal = 0 := by
  show (Vector.replicate banNcounters (0 : UInt64)).toList.foldr (fun n total => n + total) 0 = 0
  rw [Vector.toList_replicate]
  exact foldr_add_zeros banNcounters

/-- **The counters account for the requests** of every run: the categories for every
hit acted on, and the denials for every one answered with its location's status,
exactly as far as no turn cuts a banned client off. -/
theorem counters_account (env : Env) (garbage : Shctx) (turns : List (ServerTurn env))
    (s : Server env) (hrun : Server.Run env (Server.start env garbage) turns s) :
    s.zone.catTotal = UInt64.ofNat (actedOn turns)
      ∧ ((∀ t ∈ turns, t.CountsDenial) ↔ ∀ t ∈ turns, ¬ t.CutsOff)
      ∧ ((∀ t ∈ turns, ¬ t.CutsOff) →
          s.zone.sh.blocked = UInt64.ofNat (turns.countP ServerTurn.denied)) := by
  obtain ⟨hcats, hiff, hblocked⟩ := hrun.adds (Server.start_sound garbage)
  refine ⟨?_, hiff, fun hnone => ?_⟩
  · rw [hcats, Server.start_catTotal, UInt64.zero_add]
  · rw [hblocked (hiff.mpr hnone)]
    show 0 + UInt64.ofNat (turns.countP ServerTurn.denied) = _
    rw [UInt64.zero_add]

/-! ## §7. An attacker who is banned. -/

/-- A policy under which one hit bans a client. -/
def banning : BanConf where
  pol := firstHitBans
  key := .peer
  trusted := none

/-- A request with the header that no request needs, in a location that bans. -/
def attacker (A : Automata) : Caller (envReading A) where
  conf := { loggingConf .block false with ban := some banning }
  request := { proxied with sockaddr := .inet #v[192, 0, 2, 1] }
  granted := fun _ => true
  readFile := fun _ => 1
  slab := fun _ => .block 0 staleNode
  body := (envReading A).body
  shares := by simp
  own_status := by
    show (0 : Int) ≠ 403
    decide

theorem attacker_struck (A : Automata) (w : World) :
    inspectPrebody (attacker A).env (attacker A).conf (attacker A).request w
      = .ok (.ok (structuralHit .httpoxy "httpoxy" "header"), w) := by
  have hstruck : structural 0 (attacker A).request
      = .ok (.ok (structuralHit .httpoxy "httpoxy" "header")) := rfl
  rcases inspectPrebody_eq (attacker A).env (attacker A).conf (attacker A).request w with
    ⟨hit, hhit, hinspect⟩ | ⟨hclean, -⟩
  · have hsame : Inspection.ok (structuralHit .httpoxy "httpoxy" "header") = .ok hit :=
      Except.ok.inj (hstruck.symm.trans hhit)
    rw [hinspect, hsame]
  · cases hstruck.symm.trans hclean

/-- The first request is denied for its hit and counted, the second for the ban. -/
theorem attacker_denied (A : Automata) :
    ∃ w w', handler (attacker A).env (attacker A).conf (attacker A).request
        (.arrive (banInitZone staleShctx) 0) = .ok (403, w)
      ∧ w.zone.sh.blocked = 1
      ∧ handler (attacker A).env (attacker A).conf (attacker A).request (.arrive w.zone 1)
        = .ok (403, w')
      ∧ w'.zone.sh.blocked = 1 := by
  let w₀ := World.arrive (banInitZone staleShctx) 0
  have hcheck : checkBan (attacker A).env (attacker A).conf (attacker A).request w₀
      = .ok (false, w₀) := rfl
  have hact : handler (attacker A).env (attacker A).conf (attacker A).request w₀
      = act (attacker A).env (attacker A).conf (attacker A).request
          (structuralHit .httpoxy "httpoxy" "header") w₀ := by
    show (checkBan (attacker A).env (attacker A).conf (attacker A).request w₀ >>= _) = _
    rw [hcheck, ok_bind]
    show (inspectPrebody (attacker A).env (attacker A).conf (attacker A).request w₀ >>= _) = _
    rw [attacker_struck, ok_bind]
  rw [hact]
  refine ⟨_, _, rfl, ?_, rfl, ?_⟩
  · rfl
  · rfl

/-- The run of one request, which is denied for its hit and counted. -/
theorem counters_account_attacker :
    ∃ A turns s, shieldInit AcAllocs.granted AcAllocs.granted true = .ok (some A)
      ∧ Server.Run (envReading A) (Server.start (envReading A) staleShctx) turns s
      ∧ s.zone.catTotal = UInt64.ofNat (actedOn turns)
      ∧ (∀ t ∈ turns, ¬ t.CutsOff)
      ∧ turns.countP ServerTurn.denied = 1 ∧ s.zone.sh.blocked = 1 := by
  obtain ⟨A, hA⟩ := shieldInit_granted
  obtain ⟨w, w', hfirst, hblocked, -⟩ := attacker_denied A
  have hrun := Server.Run.cons
    (.enter (s := Server.start (envReading A) staleShctx) 0 (attacker A) 0 rfl hfirst) (.nil _)
  obtain ⟨hcats, hiff, htotal⟩ := counters_account (envReading A) staleShctx _ _ hrun
  have hgo := hiff.mp fun t ht => by
    rw [List.mem_singleton.mp ht]
    exact hblocked
  exact ⟨A, _, _, hA, hrun, hcats, hgo, rfl, htotal hgo⟩

/-- **A denial that is not counted**: of two requests of one client the first is denied
for a hit that bans it, the second for the ban. -/
theorem counters_miss_cut :
    ∃ A turns s, shieldInit AcAllocs.granted AcAllocs.granted true = .ok (some A)
      ∧ Server.Run (envReading A) (Server.start (envReading A) staleShctx) turns s
      ∧ turns.countP ServerTurn.denied = 2 ∧ s.zone.sh.blocked = 1 := by
  obtain ⟨A, hA⟩ := shieldInit_granted
  obtain ⟨w, w', hfirst, -, hsecond, hblocked⟩ := attacker_denied A
  exact ⟨A, _, _, hA, .cons (.enter 0 (attacker A) 0 rfl hfirst)
    (.cons (.enter 1 (attacker A) 1 rfl hsecond) (.nil _)), rfl, hblocked⟩

end HttpShield
