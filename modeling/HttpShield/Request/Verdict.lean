/-
  HttpShield.Request.Verdict
  ──────────────────────────
  What the verdict of a request says, in the two modes.

    • `serve_failsClosed`      — block mode: a request is let through only if all that
      was to be inspected was, complete, and came out clean,
    • `serve_transparent_iff`  — detect mode: a request is let through, except when the
      module context cannot be allocated.
-/
import HttpShield.Request.Handler

namespace HttpShield

/-- A world a request can start in: it has no module context yet, nothing was scanned
for it, and the zone is well-formed. -/
structure World.Fresh (hash : Addr → Nat) (w : World) : Prop where
  ctx : w.ctx = none
  scans : w.scans = []
  zone : ∃ ps, w.zone.Wf hash ps

/-! ## §1. Block mode. -/

/-- Everything the location has inspected was passed to the scanner, complete and
under the skip mask of its position, and came out clean. -/
structure FullyInspected (env : Env) (conf : LocConf) (r : Request) (scans : List ScanCall) :
    Prop where
  target : r.unparsedUri ≠ [] → ⟨wholeJob conf r, .declined⟩ ∈ scans
  path : pathOf r.unparsedUri ≠ [] → ~~~conf.skip &&& queryMask ≠ 0 →
    ⟨pathJob conf r, .declined⟩ ∈ scans
  headers : ∀ h ∈ r.headers.all, h.hash ≠ 0 → h.value ≠ [] →
    ⟨headerJob conf.skip h, .declined⟩ ∈ scans
  body : conf.body = true → scannableBody r = true →
    ∃ a, env.body.arrival = some a ∧ (a.content.take conf.maxBody ≠ [] →
      ⟨bodyJob conf a.content, .declined⟩ ∈ scans)

/-- The scans of the target and of the headers are among those made before the body. -/
theorem World.Did.fullyInspected {env : Env} {conf : LocConf} {r : Request} {w : World}
    (h : w.Did (prebodyJobs conf r))
    (hbody : conf.body = true → scannableBody r = true →
      ∃ a, env.body.arrival = some a ∧ (a.content.take conf.maxBody ≠ [] →
        ⟨bodyJob conf a.content, .declined⟩ ∈ w.scans)) :
    FullyInspected env conf r w.scans where
  target hne := by
    apply h
    apply List.mem_append_left
    unfold targetJobs
    rw [if_neg hne]
    split <;> simp
  path hpath hlive := by
    have hne : r.unparsedUri ≠ [] := by
      intro hnil
      rw [hnil] at hpath
      exact hpath rfl
    apply h
    apply List.mem_append_left
    unfold targetJobs
    rw [if_neg hne, if_pos ⟨hpath, hlive⟩]
    simp
  headers hd hin hhash hvalue := by
    apply h
    apply List.mem_append_right
    apply List.mem_map_of_mem
    exact List.mem_filter.mpr ⟨hin, decide_eq_true ⟨hhash, hvalue⟩⟩
  body := hbody

theorem World.Did.mono {w w' : World} {jobs : List ScanJob} (h : w.Did jobs)
    (hscans : w.scans <+: w'.scans) : w'.Did jobs :=
  fun job hjob => hscans.subset (h job hjob)

/-- **Block mode fails closed.**  Whatever the request, its body's buffers, the
configuration, the allocations that fail and the reads that fail or are short: the
handler returns a verdict, and if that is `NGX_DECLINED`, the request target, every
live header and the first `shield_max_body` bytes of a body that is to be scanned were
each scanned, complete, and each scan was clean. -/
theorem serve_failsClosed (env : Env) (conf : LocConf) (r : Request) (w : World)
    (hmain : r.isMain = true) (hmode : conf.mode = .block) (hfresh : w.Fresh env.hash) :
    ∃ rc w', serve env conf r w = .ok (rc, w')
      ∧ (rc = ngxDeclined → FullyInspected env conf r w'.scans) := by
  obtain ⟨rc, w', hserve, hends⟩ := serve_ends env conf r hmain (by rw [hmode]; decide)
    hfresh.ctx hfresh.zone
  refine ⟨rc, w', hserve, ?_⟩
  intro hrc
  rcases hends with ⟨-, hfirst⟩ | ⟨a, w₁, ha, hfirst, hscans, -, hblock⟩
  · cases hfirst with
    | banned => exact absurd hrc conf.status_ne_declined
    | stopped hban hpassed hstop =>
        rcases hstop with rfl | rfl
        · exact absurd hrc (conf.denial_block hmode)
        · exact absurd hrc (conf.fail_block hmode)
    | passed hban hpassed hbody hdid =>
        exact hdid.fullyInspected fun h h' => absurd ⟨h, h'⟩ hbody
    | starved => exact absurd hrc (by decide)
    | refused hban hpassed hbody hctx hread =>
        rw [hrc] at hread
        exact absurd hread (by decide)
    | waiting => exact absurd hrc (by decide)
  · obtain ⟨-, -, -, -, hdid, -⟩ := hfirst.waits
    refine (hdid.mono hscans).fullyInspected fun _ _ => ⟨a, ha, ?_⟩
    intro hne
    exact hblock hmode hrc hne _ (List.mem_singleton.mpr rfl)

/-- What a body to be scanned needs to be let through: a context, and a body that is read and
whose inspection finds nothing. -/
def BodyPasses (env : Env) (conf : LocConf) (r : Request) (w : World) : Prop :=
  env.granted (w.allocs + 2 * (prebodyJobs conf r).length) = true
    ∧ env.body.rc < ngxHttpSpecialResponse
    ∧ ∃ a, env.body.arrival = some a
      ∧ ∀ w, ∃ w', inspectBody env conf a w = .ok (.declined, w')

/-- A clean request is let through, with a clean body or without one to scan. -/
theorem serve_passes (env : Env) (conf : LocConf) (r : Request) (w : World)
    (hmain : r.isMain = true) (hmode : conf.mode ≠ .off) (hfresh : w.Fresh env.hash)
    (hban : ¬ ClientBanned env conf r w) (hpassed : PrebodyPassed env conf r w)
    (hbody : conf.body = true ∧ scannableBody r = true → BodyPasses env conf r w) :
    ∃ w', serve env conf r w = .ok (ngxDeclined, w') := by
  obtain ⟨rc, w₁, hfirst, hends⟩ := handler_first env conf r hmain hmode hfresh.ctx hfresh.zone
  unfold serve
  rw [hfirst, ok_bind]
  cases hends with
  | banned hbanned => exact absurd hbanned hban
  | stopped _ hstopped => exact absurd hpassed hstopped
  | passed => exact ⟨w₁, rfl⟩
  | starved _ _ hscanned hctx =>
      rw [(hbody hscanned).1] at hctx
      cases hctx
  | refused _ _ hscanned _ hread => exact absurd hread (not_le.mpr (hbody hscanned).2.1)
  | waiting _ _ hscanned _ _ _ hset =>
      obtain ⟨-, -, a, harrival, hclean⟩ := hbody hscanned
      obtain ⟨w₂, hdeclined⟩ := hclean (w₁.resume a)
      obtain ⟨rc', w₂', hinspect, hquiet, -⟩ := inspectBody_spec env conf a (w₁.resume a)
      obtain ⟨rfl, rfl⟩ : rc' = .declined ∧ w₂' = w₂ :=
        Prod.ext_iff.mp (Except.ok.inj (hinspect.symm.trans hdeclined))
      -- the body handler leaves its verdict in the context, and the next entry returns it
      have hctx : w₂'.ctx = some ⟨ngxDeclined⟩ := hquiet.ctx.trans hset
      have hhandled : bodyHandler env conf r a (w₁.resume a) = .ok (w₂'.setCtx ngxDeclined) := by
        unfold bodyHandler
        rw [hdeclined, ok_bind]
        show w₂'.setStatus ngxDeclined = _
        unfold World.setStatus
        rw [hctx]
      refine ⟨w₂'.setCtx ngxDeclined, ?_⟩
      simp only [ne_eq, not_true_eq_false, if_false, harrival, hhandled, ok_bind]
      exact handler_reentry env conf r hmain hmode rfl

/-! ## §2. A post of one byte. -/

/-- A location that logs to a file and has no ban zone, with the default limits. -/
def loggingConf (mode : ShieldMode) (body : Bool) : LocConf where
  mode := mode
  body := body
  maxBody := 8192
  status := 403
  skip := 0
  log := true
  syslogPeer := false
  ban := none
  status_allowed := by simp

/-- `POST /` with one header and a body of one byte, of a type not given. -/
def oneBytePost : Request where
  isMain := true
  requestLine := bytesOf "POST / HTTP/1.1"
  unparsedUri := bytesOf "/"
  uri := bytesOf "/"
  headers := { part := [⟨1, bytesOf "Host", bytesOf "a"⟩], next := [], filled := by simp }
  range := none
  contentType := []
  xForwardedFor := []
  contentLengthN := 1
  chunked := false
  sockaddr := .other
  addrText := bytesOf "unix:"

/-- The body of that request, in one buffer in memory. -/
def oneByteBody : Arrival oneBucket where
  zone := banInitZone staleShctx
  now := 1
  contentLengthN := 1
  bufs := some [.memory [65]]
  zone_wf := ⟨[], banInitZone_wf _⟩
  complete := .inr rfl

/-- What the module calls: nginx decodes as usual, and grants what `granted` says. -/
def envGranting (A : Automata) (granted : Nat → Bool) : Env where
  unescape := ngxUnescapeUri
  automata := A
  rbtree := .plain
  hash := oneBucket
  parseAddrPort := fun _ => none
  granted := granted
  readFile := fun _ => -1
  slab := fun _ => .block 0 staleNode
  body := { rc := 0, arrival := some oneByteBody, called := .inr rfl }

/-- A fresh zone, and no request yet. -/
def freshWorld : World where
  zone := banInitZone staleShctx
  now := 0
  ctx := none
  allocs := 0
  reads := 0
  acted := 0
  scans := []
  logged := []

theorem freshWorld_isFresh (A : Automata) (granted : Nat → Bool) :
    freshWorld.Fresh (envGranting A granted).hash where
  ctx := rfl
  scans := rfl
  zone := ⟨[], banInitZone_wf _⟩

theorem oneBytePost_not_banned (A : Automata) (granted : Nat → Bool) (mode : ShieldMode)
    (body : Bool) :
    ¬ ClientBanned (envGranting A granted) (loggingConf mode body) oneBytePost freshWorld := by
  rintro ⟨ban, a, e, hban, -⟩
  cases hban

/-- Nothing in the target or the header of this request is a hit. -/
theorem oneBytePost_clean (A : Automata) (granted : Nat → Bool) (mode : ShieldMode) (body : Bool) :
    PrebodyClean (envGranting A granted) (loggingConf mode body) oneBytePost := by
  have hstructural : structural 0 oneBytePost = .ok .declined := by decide
  have hshort : ∀ job ∈ prebodyJobs (loggingConf mode body) oneBytePost, job.data.length < 3 := by
    cases mode <;> cases body <;> decide
  refine ⟨hstructural, ?_⟩
  intro job hjob
  exact naiveInput_of_short _ (hshort job hjob) _ _

/-- Before the body this request has three buffers to scan. -/
theorem oneBytePost_passed (A : Automata) (mode : ShieldMode) (body : Bool) {granted : Nat → Bool}
    (hgranted : ∀ i < 6, granted i = true) :
    PrebodyPassed (envGranting A granted) (loggingConf mode body) oneBytePost freshWorld := by
  have hlen : (prebodyJobs (loggingConf mode body) oneBytePost).length = 3 := by
    cases mode <;> cases body <;> decide
  refine ⟨oneBytePost_clean A granted mode body, ?_⟩
  rw [hlen]
  intro i hi
  show granted (0 + i) = true
  rw [Nat.zero_add]
  exact hgranted i hi

/-- Three bytes are the least that can show anything, so a body of one byte is clean. -/
theorem oneByteBody_declined (A : Automata) (mode : ShieldMode) (w : World) :
    ∃ w', inspectBody (envGranting A fun _ => true) (loggingConf mode true) oneByteBody w
      = .ok (.declined, w') := by
  have hcollect : collectBody (envGranting A fun _ => true) (loggingConf mode true).maxBody
      oneByteBody w = .ok (some [65], (w.palloc (envGranting A fun _ => true)).2) := rfl
  have hshort : ([65] : Bytes).length < 3 := by decide
  unfold inspectBody
  rw [hcollect, ok_bind]
  simp only [List.length_singleton, Nat.one_ne_zero, if_false, noBodyMask_eq, ok_bind]
  rw [scanR_eq _ _ (List.cons_ne_nil 65 []), if_pos ⟨rfl, rfl⟩, ScanJob.verdict,
    naiveInput_of_short _ hshort]
  exact ⟨_, rfl⟩

/-- A clean request is let through in block mode, its target, its header and its body scanned. -/
theorem serve_failsClosed_post :
    ∃ A w', shieldInit AcAllocs.granted AcAllocs.granted true = .ok (some A)
      ∧ serve (envGranting A fun _ => true) (loggingConf .block true) oneBytePost freshWorld
        = .ok (ngxDeclined, w')
      ∧ FullyInspected (envGranting A fun _ => true) (loggingConf .block true) oneBytePost
        w'.scans
      ∧ ⟨bodyJob (loggingConf .block true) [65], .declined⟩ ∈ w'.scans := by
  obtain ⟨A, hA⟩ := shieldInit_granted
  obtain ⟨rc, w', hserve, hinspected⟩ := serve_failsClosed (envGranting A fun _ => true)
    (loggingConf .block true) oneBytePost freshWorld rfl rfl (freshWorld_isFresh A _)
  obtain ⟨w'', hpass⟩ := serve_passes (envGranting A fun _ => true) (loggingConf .block true)
    oneBytePost freshWorld rfl (by decide) (freshWorld_isFresh A _)
    (oneBytePost_not_banned A _ _ _) (oneBytePost_passed A _ _ fun _ _ => rfl)
    fun _ => ⟨rfl, by show (0 : Int) < 300; decide, oneByteBody, rfl, oneByteBody_declined A .block⟩
  rw [hpass] at hserve
  injection hserve with hpair
  injection hpair with hrc hw
  subst hw
  have hfully := hinspected hrc.symm
  obtain ⟨a, harrival, hscanned⟩ := hfully.body rfl (by decide)
  obtain rfl : oneByteBody = a := Option.some.inj harrival
  exact ⟨A, w'', hA, hpass, hfully, hscanned (List.cons_ne_nil 65 [])⟩

/-! ## §3. Detect mode. -/

/-- The one allocation that detect mode cannot do without: nothing shows before the
body, all scratch buffers were granted, the body is to be scanned, and the module
context, the next allocation, is not granted. -/
def CtxStarved (env : Env) (conf : LocConf) (r : Request) (w : World) : Prop :=
  PrebodyClean env conf r ∧ w.Granted env (2 * (prebodyJobs conf r).length)
    ∧ conf.body = true ∧ scannableBody r = true
    ∧ env.granted (w.allocs + 2 * (prebodyJobs conf r).length) = false

/-- The verdict in detect mode, for a client that is not banned and a body that can be
read. -/
theorem serve_detect (env : Env) (conf : LocConf) (r : Request) (w : World)
    (hmain : r.isMain = true) (hmode : conf.mode = .detect) (hfresh : w.Fresh env.hash)
    (hban : ¬ ClientBanned env conf r w) (hread : env.body.rc < ngxHttpSpecialResponse) :
    ∃ rc w', serve env conf r w = .ok (rc, w')
      ∧ (CtxStarved env conf r w ∧ rc = ngxError
        ∨ ¬ CtxStarved env conf r w ∧ rc = ngxDeclined) := by
  obtain ⟨rc, w', hserve, hends⟩ := serve_ends env conf r hmain (by rw [hmode]; decide)
    hfresh.ctx hfresh.zone
  refine ⟨rc, w', hserve, ?_⟩
  rcases hends with ⟨hne, hfirst⟩ | ⟨a, w₁, -, hfirst, -, hdetect, -⟩
  · cases hfirst with
    | banned hbanned => exact absurd hbanned hban
    | stopped hban' hpassed hstop =>
        right
        refine ⟨fun h => hpassed ⟨h.1, h.2.1⟩, ?_⟩
        rcases hstop with h | h
        · rw [h, conf.denial_detect hmode]
        · rw [h, conf.fail_detect hmode]
    | passed hban' hpassed hbody hdid =>
        exact .inr ⟨fun h => hbody ⟨h.2.2.1, h.2.2.2.1⟩, rfl⟩
    | starved hban' hpassed hbody hctx =>
        exact .inl ⟨⟨hpassed.1, hpassed.2, hbody.1, hbody.2, hctx⟩, rfl⟩
    | refused hban' hpassed hbody hctx hread' => omega
    | waiting => exact absurd rfl hne
  · obtain ⟨-, -, hctx, -⟩ := hfirst.waits
    right
    refine ⟨fun h => ?_, hdetect hmode⟩
    have hstarved := h.2.2.2.2
    rw [hctx] at hstarved
    cases hstarved

/-- **Detect mode lets requests through, but for one allocation.**  Whatever the
request, its body, and the allocations and reads that fail, the verdict on a client
that is not banned is `NGX_DECLINED` if and only if the module context is not starved
of memory. -/
theorem serve_transparent_iff (env : Env) (conf : LocConf) (r : Request) (w : World)
    (hmain : r.isMain = true) (hmode : conf.mode = .detect) (hfresh : w.Fresh env.hash)
    (hban : ¬ ClientBanned env conf r w) (hread : env.body.rc < ngxHttpSpecialResponse) :
    ∃ rc w', serve env conf r w = .ok (rc, w')
      ∧ (rc = ngxDeclined ↔ ¬ CtxStarved env conf r w) := by
  obtain ⟨rc, w', hserve, hverdict⟩ := serve_detect env conf r w hmain hmode hfresh hban hread
  refine ⟨rc, w', hserve, ?_⟩
  rcases hverdict with ⟨hstarved, rfl⟩ | ⟨hfed, rfl⟩
  · exact ⟨fun h => absurd h (by decide), fun h => absurd hstarved h⟩
  · exact ⟨fun _ => hfed, fun _ => rfl⟩

/-- With all memory granted the request is let through, its body read and scanned. -/
theorem serve_transparent_iff_post :
    ∃ A w', shieldInit AcAllocs.granted AcAllocs.granted true = .ok (some A)
      ∧ serve (envGranting A fun _ => true) (loggingConf .detect true) oneBytePost freshWorld
        = .ok (ngxDeclined, w') := by
  obtain ⟨A, hA⟩ := shieldInit_granted
  obtain ⟨rc, w', hserve, hiff⟩ := serve_transparent_iff (envGranting A fun _ => true)
    (loggingConf .detect true) oneBytePost freshWorld rfl rfl (freshWorld_isFresh A _)
    (oneBytePost_not_banned A _ _ _) (by show (0 : Int) < 300; decide)
  have hrc : rc = ngxDeclined := hiff.mpr fun hstarved => by cases hstarved.2.2.2.2
  rw [hrc] at hserve
  exact ⟨A, w', hA, hserve⟩

/-- When the seventh allocation fails, the module context, the same request is ended
with an error although the location only detects. -/
theorem serve_detect_denies :
    ∃ A w', shieldInit AcAllocs.granted AcAllocs.granted true = .ok (some A)
      ∧ (loggingConf .detect true).mode = .detect
      ∧ ¬ ClientBanned (envGranting A fun i => i ≠ 6) (loggingConf .detect true) oneBytePost freshWorld
      ∧ serve (envGranting A fun i => i ≠ 6) (loggingConf .detect true) oneBytePost freshWorld
        = .ok (ngxError, w') ∧ ngxError ≠ ngxDeclined := by
  obtain ⟨A, hA⟩ := shieldInit_granted
  have hban := oneBytePost_not_banned A (fun i => i ≠ 6) .detect true
  obtain ⟨rc, w', hserve, hverdict⟩ := serve_detect (envGranting A fun i => i ≠ 6)
    (loggingConf .detect true) oneBytePost freshWorld rfl rfl (freshWorld_isFresh A _) hban
    (by show (0 : Int) < 300; decide)
  obtain ⟨hclean, hgranted⟩ := @oneBytePost_passed A .detect true (fun i => i ≠ 6)
    (fun i hi => decide_eq_true (by omega))
  have hstarved : CtxStarved (envGranting A fun i => i ≠ 6) (loggingConf .detect true) oneBytePost freshWorld :=
    ⟨hclean, hgranted, rfl, by decide, by
      have hlen : (prebodyJobs (loggingConf .detect true) oneBytePost).length = 3 := by decide
      rw [hlen]
      rfl⟩
  rcases hverdict with ⟨-, hrc⟩ | ⟨hfed, -⟩
  · rw [hrc] at hserve
    exact ⟨A, w', hA, rfl, hban, hserve, by decide⟩
  · exact absurd hstarved hfed

end HttpShield
