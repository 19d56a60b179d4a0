/-
  HttpShield.Request.DryRun
  ─────────────────────────
  `shield detect` is a dry run of `shield block`.

  Take any run of a server and switch every location that detects to blocking.  The
  same requests, with the same bodies and the same luck with memory, make a run of
  the switched server: the same buffers are scanned with the same results, the same
  hits are counted toward the same bans and logged, and the ban zone is the same but
  for the counter of denials.  The verdicts differ exactly where a hit was acted on,
  or an inspection failed, in a location that was switched.

    • `handler_mirrors`, `bodyHandler_mirrors` — one call,
    • `detect_dryRun` — whole runs, whatever order the requests and bodies come in.
-/
import HttpShield.Ban.Blind
import HttpShield.Request.Accounting

namespace HttpShield

open Lockstep

/-! ## §1. The switched location. -/

/-- Detecting becomes blocking. -/
def ShieldMode.blocking : ShieldMode → ShieldMode
  | .off => .off
  | .detect => .block
  | .block => .block

/-- The location, switched from detecting to blocking. -/
def LocConf.blocking (conf : LocConf) : LocConf := { conf with mode := conf.mode.blocking }

/-- A record without what was decided on the hit. -/
def LogRecord.undecided (rec : LogRecord) : LogRecord := { rec with blocked := none }

/-- **The world of a request and its mirror** in the switched server. -/
structure World.Mirrors (w w' : World) : Prop where
  zone : w.zone.Alike w'.zone
  now : w'.now = w.now
  allocs : w'.allocs = w.allocs
  reads : w'.reads = w.reads
  acted : w'.acted = w.acted
  scans : w'.scans = w.scans
  ctx : w'.ctx.isSome = w.ctx.isSome
  logged : w'.logged.map LogRecord.undecided = w.logged.map LogRecord.undecided

/-- The inspection in front of the body fails, for a client that is not banned. -/
def PrebodyFails (env : Env) (conf : LocConf) (r : Request) (w : World) : Prop :=
  ∃ w₁ w₂, checkBan env conf r w = .ok (false, w₁)
    ∧ inspectPrebody env conf r w₁ = .ok (.error, w₂)

/-- The inspection of a body that is there fails. -/
def BodyFails (env : Env) (conf : LocConf) (a : Arrival env.hash) (w : World) : Prop :=
  ∃ w₁, inspectBody env conf a w = .ok (.error, w₁)

/-- **The two verdicts**, by what was acted on: nothing, or a hit; and where the
inspection fails. -/
inductive Judged (conf : LocConf) (fails : Prop) : Nat → Int → Int → Prop where
  | same (rc : Int) : Judged conf fails 0 rc rc
  | hit : Judged conf fails 1 conf.denial conf.blocking.denial
  | failed (h : fails) : Judged conf fails 0 conf.fail conf.blocking.fail

/-- A verdict that is judged under a premise is judged under every weaker one. -/
theorem Judged.mono {conf : LocConf} {fails fails' : Prop} {hits : Nat} {d b : Int}
    (h : Judged conf fails hits d b) (hle : fails → fails') : Judged conf fails' hits d b := by
  cases h with
  | same => exact .same _
  | hit => exact .hit
  | failed h => exact .failed (hle h)

/-- Equal answers, and worlds that mirror each other. -/
def MirrorsWith {α : Type} (x y : α × World) : Prop := x.1 = y.1 ∧ x.2.Mirrors y.2

variable {w w' : World}

theorem World.Mirrors.noteScan (h : w.Mirrors w') (job : ScanJob) (rc : Inspection) :
    (w.noteScan job rc).Mirrors (w'.noteScan job rc) :=
  { h with scans := congrArg (· ++ [_]) h.scans }

theorem World.Mirrors.noteAct (h : w.Mirrors w') : w.noteAct.Mirrors w'.noteAct :=
  { h with acted := congrArg (· + 1) h.acted }

theorem World.Mirrors.noteRead (h : w.Mirrors w') : w.noteRead.Mirrors w'.noteRead :=
  { h with reads := congrArg (· + 1) h.reads }

theorem World.Mirrors.setZone (h : w.Mirrors w') {z z' : Zone} (hz : z.Alike z') :
    (w.setZone z).Mirrors (w'.setZone z') :=
  { h with zone := hz }

theorem World.Mirrors.setCtx (h : w.Mirrors w') (status status' : Int) :
    (w.setCtx status).Mirrors (w'.setCtx status') :=
  { h with ctx := rfl }

theorem World.Mirrors.noteLog (h : w.Mirrors w') {rec rec' : LogRecord}
    (hrec : rec'.undecided = rec.undecided) : (w.noteLog rec).Mirrors (w'.noteLog rec') :=
  { h with
    logged := by
      show (w'.logged ++ [rec']).map _ = (w.logged ++ [rec]).map _
      rw [List.map_append, List.map_append, h.logged, List.map_singleton, List.map_singleton,
        hrec] }

variable (env : Env)

theorem World.Mirrors.palloc (h : w.Mirrors w') :
    (w'.palloc env).1 = (w.palloc env).1 ∧ (w.palloc env).2.Mirrors (w'.palloc env).2 := by
  constructor
  · show env.granted w'.allocs = env.granted w.allocs
    rw [h.allocs]
  · exact { h with allocs := congrArg (· + 1) h.allocs }

/-! ## §2. Inspecting. -/

theorem scanR_mirrors (h : w.Mirrors w') (job : ScanJob) :
    Together MirrorsWith (scanR env w job) (scanR env w' job) := by
  obtain ⟨hone, h₁⟩ := h.palloc env
  obtain ⟨htwo, h₂⟩ := h₁.palloc env
  unfold scanR
  apply Together.ite
  · exact fun _ => .ok ⟨rfl, h⟩
  · intro _
    show Together _ (if ¬ (w.palloc env).1 = true ∨ ¬ ((w.palloc env).2.palloc env).1 = true then _
      else _) (if ¬ (w'.palloc env).1 = true ∨ ¬ ((w'.palloc env).2.palloc env).1 = true then _
      else _)
    rw [hone, htwo]
    apply Together.ite
    · exact fun _ => .ok ⟨rfl, h₂⟩
    · intro _
      apply (together_self _).bind
      intro rc _ hrc
      subst hrc
      exact .ok ⟨rfl, h₂.noteScan job rc⟩

theorem onDeclined_mirrors {x y : Except Fault (Inspection × World)}
    {f g : World → Except Fault (Inspection × World)} (hxy : Together MirrorsWith x y)
    (hnext : ∀ {w w' : World}, w.Mirrors w' → Together MirrorsWith (f w) (g w')) :
    Together MirrorsWith (onDeclined x f) (onDeclined y g) := by
  unfold onDeclined
  apply hxy.bind
  intro a b hab
  obtain ⟨rc, w⟩ := a
  obtain ⟨rc', w'⟩ := b
  obtain ⟨hrc, h⟩ := hab
  obtain rfl : rc = rc' := hrc
  apply Together.ite
  · exact fun _ => .ok ⟨rfl, h⟩
  · exact fun _ => hnext h

theorem scanJobs_mirrors (jobs : List ScanJob) {w w' : World} (h : w.Mirrors w') :
    Together MirrorsWith (scanJobs env jobs w) (scanJobs env jobs w') := by
  induction jobs generalizing w w' with
  | nil => exact .ok ⟨rfl, h⟩
  | cons job jobs ih => exact onDeclined_mirrors (scanR_mirrors env h job) ih

/-- **The inspection before the body** does not depend on the mode. -/
theorem inspectPrebody_mirrors (conf : LocConf) (r : Request) (h : w.Mirrors w') :
    Together MirrorsWith (inspectPrebody env conf r w) (inspectPrebody env conf.blocking r w') := by
  have hsame : inspectPrebody env conf.blocking r w' = inspectPrebody env conf r w' := rfl
  rw [hsame]
  rcases inspectPrebody_eq env conf r w with ⟨hit, hstructural, hinspect⟩ | ⟨hstructural, hinspect⟩
  · rw [hinspect]
    rcases inspectPrebody_eq env conf r w' with ⟨hit', hstructural', hinspect'⟩ | ⟨hclean, -⟩
    · obtain rfl : hit = hit' := by simpa [hstructural] using hstructural'
      rw [hinspect']
      exact .ok ⟨rfl, h⟩
    · rw [hstructural] at hclean
      cases hclean
  · rw [hinspect]
    rcases inspectPrebody_eq env conf r w' with ⟨hit', hhit, -⟩ | ⟨-, hinspect'⟩
    · rw [hstructural] at hhit
      cases hhit
    · rw [hinspect']
      exact scanJobs_mirrors env _ h

/-! ## §3. The body as it arrives in either server. -/

theorem Zone.Wf.withBlocked {hash : Addr → Nat} {z : Zone} {ps : List Ptr} (h : z.Wf hash ps)
    (n : UInt64) : (z.withBlocked n).Wf hash ps where
  spells := h.spells
  nodup := h.nodup
  tree := h.tree
  live := h.live
  holds := h.holds
  sorted := h.sorted
  cursor := h.cursor

/-- The same body, at a zone with another number of denials. -/
def Arrival.withBlocked {hash : Addr → Nat} (a : Arrival hash) (n : UInt64) : Arrival hash :=
  { a with
    zone := a.zone.withBlocked n
    zone_wf := a.zone_wf.imp fun _ h => h.withBlocked n }

/-- Reading the body, for a request that finds it so. -/
def ReadBody.withBlocked {hash : Addr → Nat} (b : ReadBody hash) (n : UInt64) : ReadBody hash where
  rc := b.rc
  arrival := b.arrival.map (Arrival.withBlocked · n)
  called := by
    rw [Option.isSome_map]
    exact b.called

/-- What the module relies on, with that body. -/
def Env.withBlocked (env : Env) (n : UInt64) : Env := { env with body := env.body.withBlocked n }

theorem readLoop_mirrors (n : UInt64) (max : Nat) :
    ∀ (fuel : Nat) (file : Bytes) (len : Nat) (out : Bytes) {w w' : World}, w.Mirrors w' →
      Together MirrorsWith (readLoop env max fuel file len out w)
        (readLoop (env.withBlocked n) max fuel file len out w')
  | 0, _, 0, _, _, _, h => .ok ⟨rfl, h⟩
  | _ + 1, _, 0, _, _, _, h => .ok ⟨rfl, h⟩
  | 0, _, _ + 1, _, _, _, _ => .error _
  | fuel + 1, file, len + 1, out, w, w', h => by
      unfold readLoop
      rw [h.reads]
      apply Together.ite
      · exact fun _ => .ok ⟨rfl, h.noteRead⟩
      · intro _
        apply (together_self _).bind
        intro out _ hout
        subst hout
        exact readLoop_mirrors n max fuel _ _ _ h.noteRead

theorem collectLoop_mirrors (n : UInt64) (max : Nat) (bufs : List Buf) :
    ∀ (out : Bytes) {w w' : World}, w.Mirrors w' →
      Together MirrorsWith (collectLoop env max bufs out w)
        (collectLoop (env.withBlocked n) max bufs out w') := by
  induction bufs with
  | nil => exact fun _ _ _ h => .ok ⟨rfl, h⟩
  | cons b bufs ih =>
      intro out w w' h
      unfold collectLoop
      apply Together.ite
      · intro _
        cases b with
        | memory bytes =>
            apply (together_self _).bind
            intro out _ hout
            subst hout
            exact ih out h
        | file bytes =>
            apply (readLoop_mirrors env n max _ bytes _ out h).bind
            intro x y hxy
            obtain ⟨got, w₁⟩ := x
            obtain ⟨got', w₁'⟩ := y
            obtain ⟨hgot, h₁⟩ := hxy
            obtain rfl : got = got' := hgot
            cases got with
            | none => exact .ok ⟨rfl, h₁⟩
            | some out => exact ih out h₁
        | special => exact ih out h
      · exact fun _ => .ok ⟨rfl, h⟩

theorem inspectBody_mirrors (conf : LocConf) (a : Arrival env.hash) (n : UInt64)
    (h : w.Mirrors w') :
    Together MirrorsWith (inspectBody env conf a w)
      (inspectBody (env.withBlocked n) conf.blocking (a.withBlocked n) w') := by
  have hcollect : Together MirrorsWith (collectBody env conf.maxBody a w)
      (collectBody (env.withBlocked n) conf.maxBody (a.withBlocked n) w') := by
    unfold collectBody
    rw [show (a.withBlocked n).bufs = a.bufs from rfl]
    cases a.bufs with
    | none => exact .ok ⟨rfl, h⟩
    | some bufs =>
        apply Together.ite
        · exact fun _ => .ok ⟨rfl, h⟩
        · intro _
          obtain ⟨hgranted, hp⟩ := h.palloc env
          show Together _ (if (w.palloc env).1 = true then _ else _)
            (if (w'.palloc env).1 = true then _ else _)
          rw [hgranted]
          apply Together.ite
          · exact fun _ => collectLoop_mirrors env n _ bufs [] hp
          · exact fun _ => .ok ⟨rfl, hp⟩
  unfold inspectBody
  apply hcollect.bind
  intro x y hxy
  obtain ⟨got, w₁⟩ := x
  obtain ⟨got', w₁'⟩ := y
  obtain ⟨hgot, h₁⟩ := hxy
  obtain rfl : got = got' := hgot
  cases got with
  | none => exact .ok ⟨rfl, h₁⟩
  | some body =>
      apply Together.ite
      · exact fun _ => .ok ⟨rfl, h₁⟩
      · intro _
        apply (together_self _).bind
        intro mask _ hmask
        subst hmask
        exact scanR_mirrors env h₁ _

/-! ## §4. Acting on a hit. -/

theorem banIsBanned_mirrors (ban : BanConf) (r : Request) (h : w.Mirrors w') :
    Together MirrorsWith (banIsBanned env ban r w) (banIsBanned env ban r w') := by
  unfold banIsBanned
  apply (together_self _).bind
  intro key _ hkey
  subst hkey
  cases key with
  | none => exact .ok ⟨rfl, h⟩
  | some a =>
      show Together _ (banIsBannedLocked w.zone _ _ w.now >>= _)
        (banIsBannedLocked w'.zone _ _ w'.now >>= _)
      rw [h.now]
      apply (banIsBannedLocked_alike h.zone _ _ _).bind
      intro x y hxy
      exact .ok ⟨hxy.2, h.setZone hxy.1⟩

theorem banRecord_mirrors (ban : BanConf) (r : Request) (h : w.Mirrors w') :
    Together World.Mirrors (banRecord env ban r w) (banRecord env ban r w') := by
  unfold banRecord
  apply (together_self _).bind
  intro key _ hkey
  subst hkey
  cases key with
  | none => exact .ok h
  | some a =>
      show Together _ (banRecordLocked _ (env.slab w.acted) w.zone _ _ w.now _ _ _ >>= _)
        (banRecordLocked _ (env.slab w'.acted) w'.zone _ _ w'.now _ _ _ >>= _)
      rw [h.now, h.acted]
      apply (banRecordLocked_alike _ _ h.zone _ _ _ _ _ _).bind
      intro x y hxy
      exact .ok (h.setZone hxy.1)

theorem ifGranted_mirrors (h : w.Mirrors w') {f g : World → World}
    (hnext : ∀ {w w' : World}, w.Mirrors w' → (f w).Mirrors (g w')) :
    (w.ifGranted env f).Mirrors (w'.ifGranted env g) := by
  obtain ⟨hgranted, hp⟩ := h.palloc env
  unfold World.ifGranted
  rw [hgranted]
  split
  · exact hnext hp
  · exact hp

/-- **Logging**: the records are the same but for what was decided. -/
theorem writeLog_mirrors (conf : LocConf) (r : Request) (hit : Hit) (h : w.Mirrors w') :
    (writeLog env conf r hit w).Mirrors (writeLog env conf.blocking r hit w') := by
  have hrecord : ∀ (sink : LogSink) {w w' : World}, w.Mirrors w' →
      (LogRecord.of sink conf.blocking r hit w').undecided
        = (LogRecord.of sink conf r hit w).undecided := by
    intro sink w w' h
    simp only [LogRecord.of, LogRecord.undecided, h.now]
  have hfile : ∀ {w w' : World}, w.Mirrors w' →
      (writeLogFile conf r hit w).Mirrors (writeLogFile conf.blocking r hit w') := by
    intro w w' h
    unfold writeLogFile
    show World.Mirrors _ (if conf.log = true then _ else _)
    split
    · exact h.noteLog (hrecord .file h)
    · exact h
  have hsyslog : ∀ {w w' : World}, w.Mirrors w' →
      (writeLogSyslog env conf r hit w).Mirrors (writeLogSyslog env conf.blocking r hit w') := by
    intro w w' h
    unfold writeLogSyslog
    show World.Mirrors _ (if conf.syslogPeer = true then _ else _)
    split
    · exact ifGranted_mirrors env h fun h => h.noteLog (hrecord .syslog h)
    · exact h
  unfold writeLog
  show World.Mirrors _ (if ¬ conf.log = true ∧ ¬ conf.syslogPeer = true then _ else _)
  split
  · exact h
  · exact ifGranted_mirrors env h fun h => hsyslog (hfile h)

/-- **Acting on a hit**: the same record and the same log, and each location's verdict. -/
theorem act_mirrors (conf : LocConf) (r : Request) (hit : Hit) (h : w.Mirrors w') :
    Together (fun x y => x.1 = conf.denial ∧ y.1 = conf.blocking.denial ∧ x.2.Mirrors y.2
        ∧ x.2.acted = w.acted + 1)
      (act env conf r hit w) (act env conf.blocking r hit w') := by
  have hrecord : Together (fun x y : World => x.Mirrors y ∧ x.acted = w.acted)
      (recordHit env conf r hit w) (recordHit env conf.blocking r hit w') := by
    unfold recordHit
    rw [show conf.blocking.ban = conf.ban from rfl]
    cases conf.ban with
    | none => exact .ok ⟨h, rfl⟩
    | some ban =>
        have hacted : ∀ w₁, banRecord env ban r w = .ok w₁ → w₁.acted = w.acted := by
          intro w₁ hrec
          unfold banRecord at hrec
          obtain ⟨key, -, hrec⟩ := bind_eq_ok hrec
          cases key with
          | none =>
              obtain rfl := Except.ok.inj hrec
              rfl
          | some a =>
              obtain ⟨out, -, hrec⟩ := bind_eq_ok hrec
              obtain rfl := Except.ok.inj hrec
              rfl
        apply ((banRecord_mirrors env ban r h).with_left hacted).bind
        intro w₁ w₁' h₁
        exact .ok ⟨h₁.1.setZone (banCountHit_alike h₁.1.zone _ _ _), h₁.2⟩
  unfold act
  apply hrecord.bind
  intro w₁ w₁' h₁
  refine .ok ⟨rfl, rfl, writeLog_mirrors env conf r hit h₁.1.noteAct, ?_⟩
  rw [(writeLog_quiet env conf r hit w₁.noteAct).acted]
  exact congrArg (· + 1) h₁.2

/-! ## §5. The handlers.

Both servers inspect alike.  Their verdicts differ only where a hit is acted on, or
where an inspection fails. -/

/-- What a call comes to in the two servers. -/
def Matches (conf : LocConf) (fails : Prop) (w : World) (x y : Int × World) : Prop :=
  ∃ hits, Judged conf fails hits x.1 y.1 ∧ x.2.acted = w.acted + hits ∧ x.2.Mirrors y.2

theorem awaitBody_mirrors (conf : LocConf) (r : Request) (n : UInt64) (h : w.Mirrors w') :
    (awaitBody (env.withBlocked n) conf.blocking r w').1 = (awaitBody env conf r w).1
      ∧ (awaitBody env conf r w).2.acted = w.acted
      ∧ (awaitBody env conf r w).2.Mirrors
          (awaitBody (env.withBlocked n) conf.blocking r w').2 := by
  have hsame : awaitBody (env.withBlocked n) conf.blocking r w' = awaitBody env conf r w' := rfl
  obtain ⟨hgranted, hp⟩ := h.palloc env
  rw [hsame]
  unfold awaitBody
  split
  · exact ⟨rfl, rfl, h⟩
  · show (if ¬ (w'.palloc env).1 = true then _ else _ : Int × World).1 = _ ∧ _
    simp only [hgranted]
    split
    · exact ⟨rfl, rfl, hp⟩
    · split
      · exact ⟨rfl, rfl, hp.setCtx _ _⟩
      · exact ⟨rfl, rfl, hp.setCtx _ _⟩

theorem LocConf.blocking_mode_off (conf : LocConf) :
    conf.blocking.mode = .off ↔ conf.mode = .off := by
  show conf.mode.blocking = .off ↔ _
  cases conf.mode <;> decide

theorem checkBan_mirrors (conf : LocConf) (r : Request) (h : w.Mirrors w') :
    Together (fun x y => MirrorsWith x y ∧ x.2.acted = w.acted) (checkBan env conf r w)
      (checkBan env conf.blocking r w') := by
  have hsame : checkBan env conf.blocking r w' = checkBan env conf r w' := rfl
  rw [hsame]
  unfold checkBan
  cases conf.ban with
  | none => exact .ok ⟨⟨rfl, h⟩, rfl⟩
  | some ban =>
      apply (banIsBanned_mirrors env ban r h).with_left
      intro x hcheck
      unfold banIsBanned at hcheck
      obtain ⟨key, -, hcheck⟩ := bind_eq_ok hcheck
      cases key with
      | none =>
          obtain rfl := Except.ok.inj hcheck
          rfl
      | some a =>
          obtain ⟨out, -, hcheck⟩ := bind_eq_ok hcheck
          obtain rfl := Except.ok.inj hcheck
          rfl

theorem firstPass_mirrors (conf : LocConf) (r : Request) (n : UInt64) (h : w.Mirrors w') :
    Together (Matches conf (∃ w₁, inspectPrebody env conf r w = .ok (.error, w₁)) w)
      (firstPass env conf r w) (firstPass (env.withBlocked n) conf.blocking r w') := by
  have hquiet : ∀ x, inspectPrebody env conf r w = .ok x →
      x.2.acted = w.acted ∧ inspectPrebody env conf r w = .ok x := by
    intro x hx
    obtain ⟨rc, w₁, hinspect, hquiet, -⟩ := inspectPrebody_spec env conf r w
    obtain rfl := Except.ok.inj (hinspect.symm.trans hx)
    exact ⟨hquiet.acted, hx⟩
  unfold firstPass
  apply ((inspectPrebody_mirrors env conf r h).with_left hquiet).bind
  intro x y hxy
  obtain ⟨rc, w₁⟩ := x
  obtain ⟨rc', w₁'⟩ := y
  obtain ⟨⟨hrc, h₁⟩, hacted, hinspect⟩ := hxy
  obtain rfl : rc = rc' := hrc
  cases rc with
  | error => exact .ok ⟨0, .failed ⟨w₁, hinspect⟩, hacted, h₁⟩
  | ok hit =>
      apply (act_mirrors env conf r hit h₁).mono
      intro x y hxy
      obtain ⟨hx, hy, hmirrors, hone⟩ := hxy
      refine ⟨1, ?_, ?_, hmirrors⟩
      · rw [hx, hy]
        exact .hit
      · rw [hone]
        exact congrArg (· + 1) hacted
  | declined =>
      obtain ⟨hrc, hsame, hmirrors⟩ := awaitBody_mirrors env conf r n h₁
      refine .ok ⟨0, ?_, hsame.trans hacted, hmirrors⟩
      rw [hrc]
      exact .same _

/-- **The first entry of a request** comes to a judged pair of verdicts in the two servers. -/
theorem handler_mirrors (conf : LocConf) (r : Request) (n : UInt64) (h : w.Mirrors w')
    (hctx : w.ctx = none) :
    Together (Matches conf (PrebodyFails env conf r w) w) (handler env conf r w)
      (handler (env.withBlocked n) conf.blocking r w') := by
  have hctx' : w'.ctx = none := by
    have hsome := h.ctx
    rw [hctx] at hsome
    exact Option.not_isSome_iff_eq_none.mp (by rw [hsome]; exact Bool.false_ne_true)
  unfold handler
  simp only [conf.blocking_mode_off, hctx, hctx']
  apply Together.ite
  · exact fun _ => .ok ⟨0, .same _, rfl, h⟩
  · intro _
    apply Together.ite
    · exact fun _ => .ok ⟨0, .same _, rfl, h⟩
    · intro _
      apply ((checkBan_mirrors env conf r h).with_left fun x hcheck => hcheck).bind
      intro x y hxy
      obtain ⟨banned, w₁⟩ := x
      obtain ⟨banned', w₁'⟩ := y
      obtain ⟨⟨⟨hbanned, h₁⟩, hacted⟩, hcheck⟩ := hxy
      obtain rfl : banned = banned' := hbanned
      apply Together.ite
      · exact fun _ => .ok ⟨0, .same _, hacted, h₁⟩
      · intro hnot
        obtain rfl : banned = false := Bool.eq_false_iff.mpr hnot
        apply (firstPass_mirrors env conf r n h₁).mono
        intro x y hxy
        obtain ⟨hits, hjudged, hmore, hmirrors⟩ := hxy
        refine ⟨hits, hjudged.mono fun ⟨w₂, hfails⟩ => ⟨w₁, w₂, hcheck, hfails⟩, ?_, hmirrors⟩
        rw [hmore]
        exact congrArg (· + hits) hacted

/-- The context that the body handler leaves, in the two servers. -/
def MatchesBody (conf : LocConf) (fails : Prop) (w x y : World) : Prop :=
  ∃ hits d b, Judged conf fails hits d b ∧ x.ctx = some ⟨d⟩ ∧ y.ctx = some ⟨b⟩
    ∧ x.acted = w.acted + hits ∧ x.Mirrors y

theorem setStatus_mirrors (h : w.Mirrors w') (status status' : Int) :
    Together (fun x y => x = w.setCtx status ∧ y = w'.setCtx status') (w.setStatus status)
      (w'.setStatus status') := by
  have hsome := h.ctx
  unfold World.setStatus
  cases hw : w.ctx with
  | none =>
      have hw' : w'.ctx = none := by
        rw [hw] at hsome
        exact Option.not_isSome_iff_eq_none.mp (by rw [hsome]; exact Bool.false_ne_true)
      rw [hw']
      exact .error _
  | some c =>
      have hw' : w'.ctx.isSome = true := by
        rw [hsome, hw]
        rfl
      obtain ⟨c', hc'⟩ := Option.isSome_iff_exists.mp hw'
      rw [hc']
      exact .ok ⟨rfl, rfl⟩

/-- **The body handler** comes to a judged pair of verdicts in the two servers. -/
theorem bodyHandler_mirrors (conf : LocConf) (r : Request) (a : Arrival env.hash) (n : UInt64)
    (h : w.Mirrors w') :
    Together (MatchesBody conf (BodyFails env conf a w) w) (bodyHandler env conf r a w)
      (bodyHandler (env.withBlocked n) conf.blocking r (a.withBlocked n) w') := by
  have hquiet : ∀ x, inspectBody env conf a w = .ok x →
      x.2.acted = w.acted ∧ inspectBody env conf a w = .ok x := by
    intro x hx
    obtain ⟨rc, w₁, hinspect, hquiet, -⟩ := inspectBody_spec env conf a w
    obtain rfl := Except.ok.inj (hinspect.symm.trans hx)
    exact ⟨hquiet.acted, hx⟩
  unfold bodyHandler
  apply ((inspectBody_mirrors env conf a n h).with_left hquiet).bind
  intro x y hxy
  obtain ⟨rc, w₁⟩ := x
  obtain ⟨rc', w₁'⟩ := y
  obtain ⟨⟨hrc, h₁⟩, hacted, hinspect⟩ := hxy
  obtain rfl : rc = rc' := hrc
  -- Judged verdicts become the statuses of the two contexts.
  have hset : ∀ {hits : Nat} {d b : Int} {w₂ w₂' : World},
      Judged conf (BodyFails env conf a w) hits d b → w₂.acted = w.acted + hits →
      w₂.Mirrors w₂' →
      Together (MatchesBody conf (BodyFails env conf a w) w) (w₂.setStatus d)
        (w₂'.setStatus b) := by
    intro hits d b w₂ w₂' hjudged hmore hmirrors
    apply (setStatus_mirrors hmirrors d b).mono
    intro x y hxy
    obtain ⟨rfl, rfl⟩ := hxy
    exact ⟨hits, d, b, hjudged, rfl, rfl, hmore, hmirrors.setCtx d b⟩
  have hid : ∀ rc : Int, (if rc = ngxDeclined then ngxDeclined else rc) = rc := by
    intro rc
    split
    · next heq => exact heq.symm
    · rfl
  cases rc with
  | error => exact hset (.failed ⟨w₁, hinspect⟩) hacted h₁
  | declined => exact hset (.same _) hacted h₁
  | ok hit =>
      apply (act_mirrors env conf r hit h₁).bind
      intro x y hxy
      obtain ⟨rc, w₂⟩ := x
      obtain ⟨rc', w₂'⟩ := y
      obtain ⟨hx, hy, hmirrors, hone⟩ := hxy
      obtain rfl : rc = conf.denial := hx
      obtain rfl : rc' = conf.blocking.denial := hy
      show Together _ (w₂.setStatus (if conf.denial = ngxDeclined then ngxDeclined else _))
        (w₂'.setStatus (if conf.blocking.denial = ngxDeclined then ngxDeclined else _))
      rw [hid, hid]
      refine hset .hit ?_ hmirrors
      rw [hone]
      exact congrArg (· + 1) hacted

/-! ## §6. Runs of the switched server. -/

section Runs

variable {env : Env}

/-- The same request at the switched location; its body arrives when so many requests
have been denied. -/
def Caller.blockingAt (c : Caller env) (n : UInt64) : Caller env where
  conf := c.conf.blocking
  request := c.request
  granted := c.granted
  readFile := c.readFile
  slab := c.slab
  body := c.body.withBlocked n
  shares := c.shares
  own_status := c.own_status

/-- The inspection of a turn fails: the one in front of the body at the first entry, that of
the body when it is there. -/
def ServerTurn.Fails (t : ServerTurn env) : Prop :=
  t.before.ctx = none ∧ PrebodyFails t.caller.env t.caller.conf t.caller.request t.before
    ∨ ∃ a, t.before.ctx.isSome = true ∧ t.caller.body.arrival = some a
      ∧ BodyFails t.caller.env t.caller.conf a t.before

/-- **A turn and its mirror**: the same request, at the same time, with the same scans,
hits and records, and the verdicts that go with the hits acted on. -/
structure ServerTurn.Mirrored (t t' : ServerTurn env) : Prop where
  caller : ∃ n, t'.caller = t.caller.blockingAt n
  before : t.before.Mirrors t'.before
  after : t.after.Mirrors t'.after
  judged : Judged t.caller.conf t.Fails t.acted t.verdict t'.verdict

/-- The waiting requests in the switched server. -/
def Server.mirrorWaiting (s : Server env) (worlds : Nat → World) (n : Nat → UInt64) :
    Nat → Option (Caller env × World) :=
  fun i => (s.waiting i).map fun slot => (slot.1.blockingAt (n i), worlds i)

theorem World.Mirrors.arrive {z z' : Zone} (h : z.Alike z') (now : Int) :
    (World.arrive z now).Mirrors (World.arrive z' now) where
  zone := h
  now := rfl
  allocs := rfl
  reads := rfl
  acted := rfl
  scans := rfl
  ctx := rfl
  logged := rfl

/-- Either both wait for the body, or neither does. -/
theorem Judged.done_iff {conf : LocConf} {fails : Prop} {hits : Nat} {d b : Int}
    (h : Judged conf fails hits d b) : b = ngxDone ↔ d = ngxDone := by
  cases h with
  | same => exact Iff.rfl
  | hit => exact iff_of_false conf.blocking.denial_ne_done conf.denial_ne_done
  | failed => exact iff_of_false conf.blocking.fail_ne_done conf.fail_ne_done

/-- After a hit, the switched location denies. -/
theorem Judged.of_hit {conf : LocConf} {fails : Prop} {hits : Nat} {d b : Int}
    (h : Judged conf fails hits d b) (hone : hits = 1) : b = conf.blocking.denial := by
  cases h with
  | same => cases hone
  | hit => rfl
  | failed => cases hone

/-- **The simulation**: the rest of a run, from any state of the switched server that
mirrors the one it starts in.  How many requests have been denied when a body arrives is
known once the turns in front of it are, so it is found from the end of the run. -/
theorem Server.Run.mirrored {s s' : Server env} {turns : List (ServerTurn env)}
    (hrun : Server.Run env s turns s') :
    s.Sound → ∀ (z : Zone) (worlds : Nat → World), s.zone.Alike z →
      (∀ i c w, s.waiting i = some (c, w) → w.Mirrors (worlds i)) →
      ∃ (n : Nat → UInt64) (turns' : List (ServerTurn env)) (t' : Server env),
        Server.Run env ⟨z, s.mirrorWaiting worlds n⟩ turns' t' ∧ s'.zone.Alike t'.zone
          ∧ List.Forall₂ ServerTurn.Mirrored turns turns' := by
  induction hrun with
  | nil s =>
      intro _ z worlds hz _
      exact ⟨fun _ => 0, [], _, .nil _, hz, .nil⟩
  | @cons s s₁ s' t turns hstep hrest ih =>
      intro hsound z worlds hz hworlds
      obtain ⟨hsound₁, -⟩ := hsound.step hstep
      cases hstep with
      | @enter i c now rc w hfree hhandler =>
          have hfirst := handler_mirrors c.env c.conf c.request 0 (.arrive hz now) rfl
          obtain ⟨⟨rc', w'⟩, hhandler', hits, hjudged, hacted, hmirrors⟩ := hfirst.of_ok hhandler
          have hacted : w.acted = 0 + hits := hacted
          have hdone : rc' = ngxDone ↔ rc = ngxDone := hjudged.done_iff
          obtain ⟨n, turns', t', hrun', hend, hall⟩ := ih hsound₁ w'.zone
            (Function.update worlds i w') hmirrors.zone (by
              intro j c' v hv
              by_cases hji : j = i
              · subst hji
                simp only [Function.update_self] at hv ⊢
                split at hv
                · obtain ⟨rfl, rfl⟩ : c = c' ∧ w = v := by simpa using hv
                  exact hmirrors
                · cases hv
              · simp only [Function.update_of_ne hji] at hv ⊢
                exact hworlds j c' v hv)
          -- what the handler does now has nothing to do with the body to come
          have henter : handler (c.blockingAt (n i)).env (c.blockingAt (n i)).conf
              (c.blockingAt (n i)).request (.arrive z now) = .ok (rc', w') := hhandler'
          refine ⟨n, ⟨c.blockingAt (n i), .arrive z now, rc', w'⟩ :: turns', t', ?_, hend, ?_⟩
          · refine .cons (.enter i (c.blockingAt (n i)) now ?_ henter) ?_
            · show Option.map _ (s.waiting i) = none
              rw [hfree]
              rfl
            · convert hrun' using 2
              funext j
              by_cases hji : j = i
              · subst hji
                simp only [Server.mirrorWaiting, Function.update_self, hdone]
                split <;> rfl
              · simp only [Server.mirrorWaiting, Function.update_of_ne hji]
          · refine .cons ⟨⟨n i, rfl⟩, .arrive hz now, hmirrors, ?_⟩ hall
            have hhits : ServerTurn.acted ⟨c, .arrive s.zone now, rc, w⟩ = hits := by
              show w.acted - 0 = hits
              omega
            rw [hhits]
            exact hjudged.mono fun hfails => .inl ⟨rfl, hfails⟩
      | @resume i c w w₁ w₂ rc a hwait harrival hzone hbody hhandler =>
          obtain ⟨m, rfl⟩ := hz
          obtain ⟨hmain, hmode, hcontext⟩ := hsound.waits i c w hwait
          have hresumed : (w.resume a).Mirrors ((worlds i).resume (a.withBlocked m)) :=
            { hworlds i c w hwait with
              zone := ⟨m, rfl⟩
              now := rfl }
          obtain ⟨w₁', hbody', hits, d, b, hjudged, hctx, hctx', hacted, hmirrors⟩ :=
            (bodyHandler_mirrors c.env c.conf c.request a m hresumed).of_ok hbody
          -- the handler is entered again, and returns what was left for it
          obtain ⟨rfl, rfl⟩ : d = rc ∧ w₁ = w₂ := by
            have hre := handler_reentry c.env c.conf c.request hmain hmode hctx
            simpa [hre] using hhandler
          have hmode' : c.conf.blocking.mode ≠ .off :=
            fun h => hmode (c.conf.blocking_mode_off.mp h)
          have hre' := handler_reentry (c.blockingAt m).env (c.blockingAt m).conf
            (c.blockingAt m).request hmain hmode' hctx'
          obtain ⟨n, turns', t', hrun', hend, hall⟩ := ih hsound₁ w₁'.zone worlds hmirrors.zone (by
            intro j c' v hv
            by_cases hji : j = i
            · subst hji
              simp only [Function.update_self] at hv
              cases hv
            · simp only [Function.update_of_ne hji] at hv
              exact hworlds j c' v hv)
          refine ⟨Function.update n i m,
            ⟨c.blockingAt m, (worlds i).resume (a.withBlocked m), b, w₁'⟩ :: turns', t', ?_, hend,
            ?_⟩
          · refine .cons (.resume i (a.withBlocked m) (w := worlds i) ?_ ?_ ?_ hbody' hre') ?_
            · simp only [Server.mirrorWaiting, hwait, Option.map_some, Function.update_self]
            · show Option.map _ c.body.arrival = _
              rw [harrival]
              rfl
            · show a.zone.withBlocked m = s.zone.withBlocked m
              rw [hzone]
            · convert hrun' using 2
              funext j
              by_cases hji : j = i
              · subst hji
                simp only [Server.mirrorWaiting, Function.update_self, Option.map_none]
              · simp only [Server.mirrorWaiting, Function.update_of_ne hji]
          · refine .cons ⟨⟨m, rfl⟩, hresumed, hmirrors, ?_⟩ hall
            have hhits : ServerTurn.acted ⟨c, w.resume a, d, w₁⟩ = hits := by
              have hacted : w₁.acted = w.acted + hits := hacted
              show w₁.acted - w.acted = hits
              omega
            rw [hhits]
            exact hjudged.mono fun hfails => .inr ⟨a, hcontext, harrival, hfails⟩

/-- **`shield detect` is a dry run of `shield block`.**  To every run there is one of the
server whose detecting locations are switched to blocking, turn by turn on the same
requests: with the same scans, hits and log records but for the decision, the same bans,
and a zone that differs in the counter of denials alone.  A verdict differs only where a
hit was acted on or an inspection failed, and is then that of the location's mode. -/
theorem detect_dryRun (env : Env) (garbage : Shctx) (turns : List (ServerTurn env))
    (s : Server env) (hrun : Server.Run env (Server.start env garbage) turns s) :
    ∃ turns' s', Server.Run env (Server.start env garbage) turns' s'
      ∧ s.zone.Alike s'.zone ∧ List.Forall₂ ServerTurn.Mirrored turns turns' := by
  obtain ⟨n, turns', s', hrun', hend, hall⟩ := hrun.mirrored (Server.start_sound garbage)
    (banInitZone garbage) (fun _ => .arrive (banInitZone garbage) 0) (.refl _)
    (fun _ _ _ hnone => by cases hnone)
  exact ⟨turns', s', hrun', hend, hall⟩

end Runs

/-! ## §7. An attacker seen by both. -/

/-- The attacker, in a location that detects. -/
def watched (A : Automata) : Caller (envReading A) :=
  { attacker A with
    conf := { (attacker A).conf with mode := .detect } }

/-- The hit is acted on, and the request declined. -/
theorem watched_declined (A : Automata) :
    ∃ w, handler (watched A).env (watched A).conf (watched A).request
        (.arrive (banInitZone staleShctx) 0) = .ok (ngxDeclined, w)
      ∧ w.acted = 1 := by
  let w₀ := World.arrive (banInitZone staleShctx) 0
  have hcheck : checkBan (watched A).env (watched A).conf (watched A).request w₀
      = .ok (false, w₀) := rfl
  have hstruck : inspectPrebody (watched A).env (watched A).conf (watched A).request w₀
      = .ok (.ok (structuralHit .httpoxy "httpoxy" "header"), w₀) := attacker_struck A w₀
  have hact : handler (watched A).env (watched A).conf (watched A).request w₀
      = act (watched A).env (watched A).conf (watched A).request
          (structuralHit .httpoxy "httpoxy" "header") w₀ := by
    show (checkBan (watched A).env (watched A).conf (watched A).request w₀ >>= _) = _
    rw [hcheck, ok_bind]
    show (inspectPrebody (watched A).env (watched A).conf (watched A).request w₀ >>= _) = _
    rw [hstruck, ok_bind]
  rw [hact]
  exact ⟨_, rfl, rfl⟩

/-- The attacker's request is declined by the server as it is, and
denied by the switched one. -/
theorem detect_dryRun_watched :
    ∃ A turns s turns' s', shieldInit AcAllocs.granted AcAllocs.granted true = .ok (some A)
      ∧ Server.Run (envReading A) (Server.start (envReading A) staleShctx) turns s
      ∧ turns.map ServerTurn.verdict = [ngxDeclined]
      ∧ Server.Run (envReading A) (Server.start (envReading A) staleShctx) turns' s'
      ∧ turns'.map ServerTurn.verdict = [403] := by
  obtain ⟨A, hA⟩ := shieldInit_granted
  obtain ⟨w, hfirst, hacted⟩ := watched_declined A
  have hrun := Server.Run.cons
    (.enter (s := Server.start (envReading A) staleShctx) 0 (watched A) 0 rfl hfirst) (.nil _)
  obtain ⟨turns', s', hrun', -, hall⟩ := detect_dryRun (envReading A) staleShctx _ _ hrun
  refine ⟨A, _, _, turns', s', hA, hrun, rfl, hrun', ?_⟩
  cases hall with
  | @cons _ t' _ _ hmirrored hrest =>
      cases hrest
      have hverdict : t'.verdict = 403 := hmirrored.judged.of_hit hacted
      show [t'.verdict] = [403]
      rw [hverdict]

end HttpShield
