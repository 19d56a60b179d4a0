/-
  HttpShield.Config.Merge
  ───────────────────────
  The effective configuration of a location.

  nginx merges from the outside in: the configuration of a level with the one of the
  level around it, which has been merged itself unless it is the outermost.  What it is
  for is said in terms of settings: a level sets some of seven, and the innermost level
  that sets one decides.  The sentinels, the zero of `skip` and the plain defaults are one
  way to write these down.

    • `Directive.set_conf`      — a directive sets what it says,
    • `mergeLocConf_eq`         — one merge is one step of inheritance,
    • `mergeDown_eq`            — all of them, by induction on the nesting,
    • `mergeLocConf_innermost`  — the innermost setting, as a unit,
    • `mergeDown_reads`         — what the handler is given.
-/
import HttpShield.Config.Directives

namespace HttpShield

/-! ## §1. `ngx_http_shield_merge_loc_conf`. -/

/-- `ngx_conf_merge_value` and its kind, for a sentinel and a default. -/
def mergeValue {α : Type} [DecidableEq α] (unset default prev conf : α) : α :=
  if conf = unset then if prev = unset then default else prev else conf

/-- The fields with a sentinel of their own, and the mask. -/
def mergeValues (prev conf : ShieldLocConf) : ShieldLocConf :=
  { conf with
    mode := mergeValue ngxConfUnsetUint ShieldMode.off.value prev.mode conf.mode
    body := mergeValue ngxConfUnset 1 prev.body conf.body
    maxBody := mergeValue ngxConfUnsetSize (8 * 1024) prev.maxBody conf.maxBody
    status := mergeValue ngxConfUnsetUint 403 prev.status conf.status
    -- masks are replaced, not united
    skip := if conf.skip = 0 then prev.skip else conf.skip }

/-- The two sinks, by the sentinel of the first. -/
def mergeLog (prev conf : ShieldLocConf) : ShieldLocConf :=
  if conf.log = .unset then
    { conf with
      log := if prev.log = .unset then .null else prev.log
      syslogPeer := if prev.syslogPeer = .unset then .null else prev.syslogPeer }
  else conf

/-- The policy, by the sentinel of its zone. -/
def mergeBan (prev conf : ShieldLocConf) : ShieldLocConf :=
  if conf.banZone = .unset then
    if prev.banZone = .unset then
      -- nobody set it: no sentinel may get into a live configuration
      { conf with
        banZone := .null
        banCount := 0
        banWindow := 0
        banTime := 0
        banKey := .peer
        banTrusted := none }
    else
      { conf with
        banZone := prev.banZone
        banCount := prev.banCount
        banWindow := prev.banWindow
        banTime := prev.banTime
        banKey := prev.banKey
        banTrusted := prev.banTrusted }
  else conf

/-- `ngx_http_shield_merge_loc_conf`. -/
def mergeLocConf (prev conf : ShieldLocConf) : ShieldLocConf :=
  mergeBan prev (mergeLog prev (mergeValues prev conf))

/-- The levels inside a level, from the outside in: each is merged with the merged one
around it. -/
def mergeDown : ShieldLocConf → List ShieldLocConf → List ShieldLocConf
  | _, [] => []
  | prev, conf :: confs => mergeLocConf prev conf :: mergeDown (mergeLocConf prev conf) confs

/-! ## §2. Settings. -/

/-- **What a level sets**: a value for each setting that it makes. -/
structure Settings where
  mode : Option ShieldMode
  body : Option Bool
  maxBody : Option { n : Nat // n ≤ ngxMaxIntTValue }
  status : Option { code : Nat // code ∈ allowedStatuses }
  skip : Option { m : Mask // m ≠ 0 }
  log : Option LogSetting
  ban : Option BanSetting

/-- The seven settings that a level may make, one for each directive. -/
inductive Setting where
  | mode | body | maxBody | status | skip | log | ban
  deriving Repr, DecidableEq

/-- The setting that a directive makes. -/
def Directive.setting : Directive → Setting
  | .shield _ => .mode
  | .shieldBody _ => .body
  | .shieldMaxBody _ => .maxBody
  | .shieldStatus _ => .status
  | .shieldSkip _ _ => .skip
  | .shieldLog _ => .log
  | .shieldBan _ _ => .ban

/-- The level makes the setting. -/
def Settings.sets (s : Settings) : Setting → Bool
  | .mode => s.mode.isSome
  | .body => s.body.isSome
  | .maxBody => s.maxBody.isSome
  | .status => s.status.isSome
  | .skip => s.skip.isSome
  | .log => s.log.isSome
  | .ban => s.ban.isSome

/-- A level that makes no setting. -/
def Settings.none : Settings := ⟨.none, .none, .none, .none, .none, .none, .none⟩

/-- The mask of a setting. -/
def maskOf (skip : Option { m : Mask // m ≠ 0 }) : Mask := skip.elim 0 (·.1)

/-- The mask that the arguments of `shield_skip` leave. -/
def skipOf (value : Bytes) (values : List Bytes) (skip : Mask) : Option { m : Mask // m ≠ 0 } :=
  match h : skipLoop (value :: values) skip with
  | .ok m => some ⟨m, skipLoop_ne_zero h⟩
  | .error _ => .none

/-- The settings with those of one more directive.  A second `shield_skip` of a level adds
to the first; of the other directives there is no second. -/
def Settings.add (env : ConfEnv) (s : Settings) : Directive → Settings
  | .shield value => { s with mode := modeOf value }
  | .shieldBody value => { s with body := flagOf value }
  | .shieldMaxBody value => { s with maxBody := env.parseSize value }
  | .shieldStatus value => { s with status := statusOf value }
  | .shieldSkip value values => { s with skip := skipOf value values (maskOf s.skip) }
  | .shieldLog value => { s with log := (logOf env value).toOption }
  | .shieldBan value values => { s with ban := (banOf env value values).toOption }

/-- The settings that the directives of a level make. -/
def settingsOf (env : ConfEnv) (level : List Directive) : Settings :=
  level.foldl (Settings.add env) .none

/-- What the innermost level that sets it makes of a setting; the innermost level stands
first. -/
def innermost {α : Type} (setting : Settings → Option α) (levels : List Settings) : Option α :=
  levels.findSome? setting

/-- The file sink that `shield_log` configures: null unless it names a file. -/
def LogSetting.logFile : LogSetting → ConfPtr
  | .file p => .ptr p
  | _ => .null

/-- The syslog sink that `shield_log` configures: null unless it names a peer. -/
def LogSetting.logPeer : LogSetting → ConfPtr
  | .syslog p => .ptr p
  | _ => .null

/-- **The configuration that a level builds from its settings**: a sentinel where it sets
nothing. -/
def Settings.conf (s : Settings) : ShieldLocConf where
  mode := s.mode.elim ngxConfUnsetUint ShieldMode.value
  body := s.body.elim ngxConfUnset (fun b => if b then 1 else 0)
  maxBody := s.maxBody.elim ngxConfUnsetSize (·.1)
  status := s.status.elim ngxConfUnsetUint (·.1)
  skip := maskOf s.skip
  log := s.log.elim .unset LogSetting.logFile
  syslogPeer := s.log.elim .unset LogSetting.logPeer
  banZone := s.ban.elim .unset (fun b => .ptr b.zone)
  banCount := s.ban.elim ngxConfUnsetUint (·.count.1)
  banWindow := s.ban.elim ngxConfUnset (·.window.1)
  banTime := s.ban.elim ngxConfUnset (·.time.1)
  banKey := s.ban.elim .peer (·.key)
  banTrusted := s.ban.elim .none (·.trusted)

/-- **The configuration that is in force**: a default where nothing is set. -/
def Settings.live (s : Settings) : ShieldLocConf where
  mode := (s.mode.getD .off).value
  body := if s.body.getD true then 1 else 0
  maxBody := (s.maxBody.getD ⟨8 * 1024, by decide⟩).1
  status := (s.status.getD ⟨403, by decide⟩).1
  skip := maskOf s.skip
  log := (s.log.getD .off).logFile
  syslogPeer := (s.log.getD .off).logPeer
  banZone := s.ban.elim .null (fun b => .ptr b.zone)
  banCount := s.ban.elim 0 (·.count.1)
  banWindow := s.ban.elim 0 (·.window.1)
  banTime := s.ban.elim 0 (·.time.1)
  banKey := s.ban.elim .peer (·.key)
  banTrusted := s.ban.elim .none (·.trusted)

/-- Inheritance: what the inner level does not set it takes from the outer one. -/
def Settings.inside (inner outer : Settings) : Settings where
  mode := inner.mode.or outer.mode
  body := inner.body.or outer.body
  maxBody := inner.maxBody.or outer.maxBody
  status := inner.status.or outer.status
  skip := inner.skip.or outer.skip
  log := inner.log.or outer.log
  ban := inner.ban.or outer.ban

/-! ## §3. Directives set what they say. -/

theorem skipOf_eq {value : Bytes} {values : List Bytes} {skip m : Mask}
    (h : skipLoop (value :: values) skip = .ok m) :
    skipOf value values skip = some ⟨m, skipLoop_ne_zero h⟩ := by
  unfold skipOf
  split
  · rename_i m' hm'
    obtain rfl := Except.ok.inj (hm'.symm.trans h)
    rfl
  · rename_i e he
    cases he.symm.trans h

/-- A handler that may be called once was not called before. -/
theorem ok_of_once {duplicate : Prop} [Decidable duplicate] {e : ConfError}
    {x : Except ConfError ShieldLocConf} {conf : ShieldLocConf}
    (h : (if duplicate then .error e else x) = .ok conf) : x = .ok conf := by
  by_cases hduplicate : duplicate
  · rw [if_pos hduplicate] at h
    cases h
  · rw [if_neg hduplicate] at h
    exact h

/-- **A directive that is accepted** sets what it says, and nothing else. -/
theorem Directive.set_conf {env : ConfEnv} {s : Settings} {d : Directive} {conf : ShieldLocConf}
    (h : d.set env s.conf = .ok conf) :
    conf = (s.add env d).conf
      ∧ ∀ x, (s.add env d).sets x = (decide (d.setting = x) || s.sets x) := by
  cases d with
  | shield value =>
      -- A handler that succeeds found its field unset, and wrote this one field.
      have h' := ok_of_once (show setMode value s.conf = .ok conf from h)
      cases hvalue : modeOf value with
      | none =>
          rw [hvalue] at h'
          cases h'
      | some mode =>
          rw [hvalue] at h'
          obtain rfl := Except.ok.inj h'
          simp only [Settings.add, hvalue]
          exact ⟨rfl, fun x => by cases x <;> rfl⟩
  | shieldBody value =>
      have h' := ok_of_once (show setBody value s.conf = .ok conf from h)
      cases hvalue : flagOf value with
      | none =>
          rw [hvalue] at h'
          cases h'
      | some flag =>
          rw [hvalue] at h'
          obtain rfl := Except.ok.inj h'
          simp only [Settings.add, hvalue]
          exact ⟨rfl, fun x => by cases x <;> rfl⟩
  | shieldMaxBody value =>
      have h' := ok_of_once (show setMaxBody env value s.conf = .ok conf from h)
      cases hvalue : env.parseSize value with
      | none =>
          rw [hvalue] at h'
          cases h'
      | some size =>
          rw [hvalue] at h'
          obtain rfl := Except.ok.inj h'
          simp only [Settings.add, hvalue]
          exact ⟨rfl, fun x => by cases x <;> rfl⟩
  | shieldStatus value =>
      have h' := ok_of_once (show setStatus value s.conf = .ok conf from h)
      cases hvalue : statusOf value with
      | none =>
          rw [hvalue] at h'
          cases h'
      | some code =>
          rw [hvalue] at h'
          obtain rfl := Except.ok.inj h'
          simp only [Settings.add, hvalue]
          exact ⟨rfl, fun x => by cases x <;> rfl⟩
  | shieldSkip value values =>
      -- `shield_skip` may stand more than once: its masks are joined.
      change (skipLoop (value :: values) (maskOf s.skip) >>= _) = _ at h
      cases hloop : skipLoop (value :: values) (maskOf s.skip) with
      | error e =>
          rw [hloop] at h
          cases h
      | ok m =>
          rw [hloop] at h
          obtain rfl := Except.ok.inj h
          simp only [Settings.add, skipOf_eq hloop]
          exact ⟨rfl, fun x => by cases x <;> rfl⟩
  | shieldLog value =>
      have h' := ok_of_once (show setLog env value s.conf = .ok conf from h)
      cases hvalue : logOf env value with
      | error e =>
          rw [hvalue] at h'
          cases h'
      | ok sink =>
          simp only [Settings.add, hvalue]
          rw [hvalue] at h'
          refine ⟨?_, fun x => by cases x <;> rfl⟩
          cases sink with
          | off => exact (Except.ok.inj h').symm
          | file p => exact (Except.ok.inj h').symm
          | syslog p => exact (Except.ok.inj h').symm
  | shieldBan value values =>
      have h' := ok_of_once (show setBan env value values s.conf = .ok conf from h)
      cases hvalue : banOf env value values with
      | error e =>
          rw [hvalue] at h'
          cases h'
      | ok ban =>
          simp only [Settings.add, hvalue]
          rw [hvalue] at h'
          exact ⟨(Except.ok.inj h').symm, fun x => by cases x <;> rfl⟩

theorem setAll_conf {env : ConfEnv} {level : List Directive} {s : Settings} {conf : ShieldLocConf}
    (h : setAll env level s.conf = .ok conf) :
    conf = (level.foldl (Settings.add env) s).conf
      ∧ ∀ x, (level.foldl (Settings.add env) s).sets x = true
        ↔ (∃ d ∈ level, d.setting = x) ∨ s.sets x = true := by
  induction level generalizing s with
  | nil =>
      refine ⟨(Except.ok.inj h).symm, fun x => ?_⟩
      simp
  | cons d ds ih =>
      unfold setAll at h
      cases hd : d.set env s.conf with
      | error e =>
          rw [hd] at h
          cases h
      | ok conf' =>
          rw [hd] at h
          obtain ⟨rfl, hsets⟩ := Directive.set_conf hd
          obtain ⟨hconf, hmore⟩ := ih h
          refine ⟨hconf, fun x => ?_⟩
          rw [List.foldl_cons, hmore, hsets, Bool.or_eq_true, decide_eq_true_eq,
            List.exists_mem_cons_iff]
          exact or_left_comm.trans or_assoc.symm

/-- **A level that loads** builds the configuration of its settings, which are those it
has a directive for. -/
theorem loadLevel_eq {env : ConfEnv} {level : List Directive} {conf : ShieldLocConf}
    (h : loadLevel env level = .ok conf) :
    conf = (settingsOf env level).conf
      ∧ ∀ x, (settingsOf env level).sets x = true ↔ ∃ d ∈ level, d.setting = x := by
  obtain ⟨hconf, hsets⟩ := @setAll_conf env level .none conf h
  refine ⟨hconf, fun x => (hsets x).trans (or_iff_left ?_)⟩
  cases x <;> exact Bool.false_ne_true

/-! ## §4. One merge. -/

/-- The sentinel and the default together: the inner setting, or the outer one, or the
default.  Around stands a level as it was built, or one that has been merged. -/
theorem mergeValue_eq {α β : Type} [DecidableEq α] {unset prev : α} {f : β → α}
    (hf : ∀ b, f b ≠ unset) (d : β) (inner outer : Option β)
    (hprev : prev = outer.elim unset f ∨ prev = f (outer.getD d)) :
    mergeValue unset (f d) prev (inner.elim unset f) = f ((inner.or outer).getD d) := by
  unfold mergeValue
  cases inner with
  | some b => exact if_neg (hf b)
  | none =>
      refine (if_pos rfl).trans ?_
      cases outer with
      | some b =>
          have hprev' : prev = f b := hprev.elim id id
          rw [hprev', if_neg (hf b)]
          rfl
      | none =>
          rcases hprev with rfl | rfl
          · exact if_pos rfl
          · exact if_neg (hf d)

/-- The configuration of the level around, as it was built or merged. -/
def Settings.Shown (s : Settings) (conf : ShieldLocConf) : Prop := conf = s.conf ∨ conf = s.live

theorem maskOf_or (inner outer : Option { m : Mask // m ≠ 0 }) :
    (if maskOf inner = 0 then maskOf outer else maskOf inner) = maskOf (inner.or outer) := by
  cases inner with
  | none => exact if_pos rfl
  | some m => exact if_neg m.2

/-- The fields with a sentinel of their own, and the mask. -/
theorem mergeValues_eq {inner outer : Settings} {prev : ShieldLocConf} (h : outer.Shown prev) :
    mergeValues prev inner.conf
      = { inner.conf with
          mode := (inner.inside outer).live.mode
          body := (inner.inside outer).live.body
          maxBody := (inner.inside outer).live.maxBody
          status := (inner.inside outer).live.status
          skip := (inner.inside outer).live.skip } := by
  -- No value is its own sentinel, so the merge sees which of the levels has set it.
  have hmode : mergeValue ngxConfUnsetUint ShieldMode.off.value prev.mode inner.conf.mode
      = (inner.inside outer).live.mode := by
    apply mergeValue_eq (f := ShieldMode.value) _ ShieldMode.off
    · rcases h with rfl | rfl
      · exact .inl rfl
      · exact .inr rfl
    · intro mode
      cases mode <;> decide
  have hbody : mergeValue ngxConfUnset 1 prev.body inner.conf.body
      = (inner.inside outer).live.body := by
    apply mergeValue_eq (f := fun b => if b = true then 1 else 0) _ true
    · rcases h with rfl | rfl
      · exact .inl rfl
      · exact .inr rfl
    · intro b
      cases b <;> decide
  have hmaxBody : mergeValue ngxConfUnsetSize (8 * 1024) prev.maxBody inner.conf.maxBody
      = (inner.inside outer).live.maxBody := by
    apply mergeValue_eq (f := fun n : { n : Nat // n ≤ ngxMaxIntTValue } => n.1) _
      ⟨8 * 1024, by decide⟩
    · rcases h with rfl | rfl
      · exact .inl rfl
      · exact .inr rfl
    · exact fun n => Nat.ne_of_lt (Nat.lt_of_le_of_lt n.2 (by decide))
  have hstatus : mergeValue ngxConfUnsetUint 403 prev.status inner.conf.status
      = (inner.inside outer).live.status := by
    apply mergeValue_eq (f := fun code : { code : Nat // code ∈ allowedStatuses } => code.1) _
      ⟨403, by decide⟩
    · rcases h with rfl | rfl
      · exact .inl rfl
      · exact .inr rfl
    · have hallowed : ∀ code ∈ allowedStatuses, code ≠ ngxConfUnsetUint := by decide
      exact fun code => hallowed code.1 code.2
  have hskip : (if inner.conf.skip = 0 then prev.skip else inner.conf.skip)
      = (inner.inside outer).live.skip := by
    have hprev : prev.skip = maskOf outer.skip := by
      rcases h with rfl | rfl
      · rfl
      · rfl
    rw [hprev]
    exact maskOf_or inner.skip outer.skip
  unfold mergeValues
  rw [hmode, hbody, hmaxBody, hstatus, hskip]

/-- The merge takes both sinks from the innermost level with a `shield_log`. -/
theorem mergeLog_eq {inner outer : Settings} {prev conf : ShieldLocConf} (h : outer.Shown prev)
    (hlog : conf.log = inner.conf.log) (hpeer : conf.syslogPeer = inner.conf.syslogPeer) :
    mergeLog prev conf
      = { conf with
          log := (inner.inside outer).live.log
          syslogPeer := (inner.inside outer).live.syslogPeer } := by
  obtain ⟨imode, ibody, imaxBody, istatus, iskip, ilog, iban⟩ := inner
  obtain ⟨omode, obody, omaxBody, ostatus, oskip, olog, oban⟩ := outer
  unfold mergeLog
  cases ilog with
  | some sink =>
      have hset : conf.log ≠ .unset := by
        rw [hlog]
        cases sink <;> exact ConfPtr.noConfusion
      rw [if_neg hset]
      exact congrArg₂ (fun log peer => { conf with log := log, syslogPeer := peer }) hlog hpeer
  | none =>
      refine (if_pos (show conf.log = .unset from hlog)).trans ?_
      cases olog with
      | none =>
          rcases h with rfl | rfl
          · rfl
          · rfl
      | some sink =>
          rcases h with rfl | rfl
          · cases sink <;> rfl
          · cases sink <;> rfl

/-- The merge takes all six fields of the ban policy from the innermost
level with a `shield_ban`. -/
theorem mergeBan_eq {inner outer : Settings} {prev conf : ShieldLocConf} (h : outer.Shown prev)
    (hban : conf = { conf with
      banZone := inner.conf.banZone
      banCount := inner.conf.banCount
      banWindow := inner.conf.banWindow
      banTime := inner.conf.banTime
      banKey := inner.conf.banKey
      banTrusted := inner.conf.banTrusted }) :
    mergeBan prev conf
      = { conf with
          banZone := (inner.inside outer).live.banZone
          banCount := (inner.inside outer).live.banCount
          banWindow := (inner.inside outer).live.banWindow
          banTime := (inner.inside outer).live.banTime
          banKey := (inner.inside outer).live.banKey
          banTrusted := (inner.inside outer).live.banTrusted } := by
  obtain ⟨imode, ibody, imaxBody, istatus, iskip, ilog, iban⟩ := inner
  obtain ⟨omode, obody, omaxBody, ostatus, oskip, olog, oban⟩ := outer
  have hzone := congrArg ShieldLocConf.banZone hban
  unfold mergeBan
  cases iban with
  | some ban =>
      rw [if_neg (by rw [hzone]; exact ConfPtr.noConfusion)]
      exact hban
  | none =>
      refine (if_pos (show conf.banZone = .unset from hzone)).trans ?_
      cases oban with
      | none =>
          rcases h with rfl | rfl
          · rfl
          · rfl
      | some ban =>
          rcases h with rfl | rfl
          · rfl
          · rfl

/-- **One merge is one step of inheritance**, and leaves no sentinel. -/
theorem mergeLocConf_eq {inner outer : Settings} {prev : ShieldLocConf} (h : outer.Shown prev) :
    mergeLocConf prev inner.conf = (inner.inside outer).live := by
  unfold mergeLocConf
  rw [mergeValues_eq h]
  refine (congrArg (mergeBan prev) (@mergeLog_eq inner outer prev _ h ?_ ?_)).trans ?_
  · rfl
  · rfl
  · refine (@mergeBan_eq inner outer prev _ h ?_).trans ?_
    · rfl
    · rfl

/-! ## §5. The nesting. -/

/-- What is in force inside all of the levels, the innermost first. -/
def inherited (levels : List Settings) : Settings := levels.foldr Settings.inside .none

theorem Settings.inside_none (s : Settings) : s.inside .none = s := by
  obtain ⟨mode, body, maxBody, status, skip, log, ban⟩ := s
  unfold Settings.inside Settings.none
  simp only [Option.or_none]

/-- **The innermost level that sets it decides.** -/
theorem inherited_eq {α : Type} (setting : Settings → Option α) (hnone : setting .none = .none)
    (hinside : ∀ inner outer, setting (Settings.inside inner outer)
      = (setting inner).or (setting outer)) (levels : List Settings) :
    setting (inherited levels) = innermost setting levels := by
  induction levels with
  | nil => exact hnone
  | cons s levels ih =>
      show setting (s.inside (inherited levels)) = List.findSome? setting (s :: levels)
      rw [hinside, ih, List.findSome?_cons]
      cases setting s <;> rfl

/-- **All of the merges**: below the outermost level there is in force what is inherited
from the levels around. -/
theorem mergeDown_eq {around levels : List Settings} {prev : ShieldLocConf}
    (h : (inherited around).Shown prev) {k : Nat} (hk : k < levels.length) :
    (mergeDown prev (levels.map Settings.conf))[k]?
      = some (inherited ((levels.take (k + 1)).reverse ++ around)).live := by
  induction levels generalizing around prev k with
  | nil => cases hk
  | cons s levels ih =>
      have hmerge : mergeLocConf prev s.conf = (inherited (s :: around)).live := mergeLocConf_eq h
      rw [List.map_cons, mergeDown, hmerge]
      cases k with
      | zero => rfl
      | succ k =>
          have hrest := @ih (s :: around) _ (.inr rfl) k (Nat.lt_of_succ_lt_succ hk)
          rw [List.getElem?_cons_succ, hrest, List.take_succ_cons, List.reverse_cons,
            List.append_assoc]
          rfl

/-! ## §6. What is in force. -/

/-- The levels around a place and the one it is in, from the inside out. -/
def enclosing (env : ConfEnv) (outermost : List Directive) (levels : List (List Directive))
    (k : Nat) : List Settings :=
  ((outermost :: levels.take (k + 1)).reverse).map (settingsOf env)

/-- **What is in force inside the levels**, the innermost first: of every setting that of
the innermost level that sets it, or the default; the sinks and the policy each as one;
no sentinel. -/
structure InForce (levels : List Settings) (conf : ShieldLocConf) : Prop where
  mode : conf.mode = ((innermost Settings.mode levels).map ShieldMode.value).getD 0
  body : conf.body = if (innermost Settings.body levels).getD true then 1 else 0
  maxBody : conf.maxBody = ((innermost Settings.maxBody levels).map (·.1)).getD (8 * 1024)
  status : conf.status = ((innermost Settings.status levels).map (·.1)).getD 403
  skip : conf.skip = ((innermost Settings.skip levels).map (·.1)).getD 0
  log : (conf.log, conf.syslogPeer) =
    match innermost Settings.log levels with
    | none | some .off => (.null, .null)
    | some (.file p) => (.ptr p, .null)
    | some (.syslog p) => (.null, .ptr p)
  ban : (conf.banZone, conf.banCount, conf.banWindow, conf.banTime, conf.banKey, conf.banTrusted) =
    match innermost Settings.ban levels with
    | none => (.null, 0, 0, 0, .peer, none)
    | some b => (.ptr b.zone, b.count.1, b.window.1, b.time.1, b.key, b.trusted)
  no_sentinel : conf.mode ≠ ngxConfUnsetUint ∧ conf.body ≠ ngxConfUnset
    ∧ conf.maxBody ≠ ngxConfUnsetSize ∧ conf.status ≠ ngxConfUnsetUint
    ∧ conf.log ≠ .unset ∧ conf.syslogPeer ≠ .unset
    ∧ conf.banZone ≠ .unset ∧ conf.banCount ≠ ngxConfUnsetUint
    ∧ conf.banWindow ≠ ngxConfUnset ∧ conf.banTime ≠ ngxConfUnset

theorem live_noSentinel (s : Settings) :
    s.live.mode ≠ ngxConfUnsetUint ∧ s.live.body ≠ ngxConfUnset
      ∧ s.live.maxBody ≠ ngxConfUnsetSize ∧ s.live.status ≠ ngxConfUnsetUint
      ∧ s.live.log ≠ .unset ∧ s.live.syslogPeer ≠ .unset
      ∧ s.live.banZone ≠ .unset ∧ s.live.banCount ≠ ngxConfUnsetUint
      ∧ s.live.banWindow ≠ ngxConfUnset ∧ s.live.banTime ≠ ngxConfUnset := by
  have hunset : ngxMaxIntTValue < ngxConfUnsetUint := by decide
  have hnegative : ngxConfUnset < 0 := by decide
  have hstatus : ∀ code ∈ allowedStatuses, code ≠ ngxConfUnsetUint := by decide
  have hban : s.live.banZone ≠ .unset ∧ s.live.banCount ≤ ngxMaxIntTValue
      ∧ 0 ≤ s.live.banWindow ∧ 0 ≤ s.live.banTime := by
    unfold Settings.live
    cases s.ban with
    | none => exact ⟨ConfPtr.noConfusion, Nat.zero_le _, Int.le_refl 0, Int.le_refl 0⟩
    | some b =>
        have hwindow := b.window.2.1
        have htime := b.time.2.1
        exact ⟨ConfPtr.noConfusion, b.count.2.2, by simp; omega, by simp; omega⟩
  obtain ⟨hzone, hcount, hwindow, htime⟩ := hban
  refine ⟨?_, ?_, ?_, hstatus _ (s.status.getD ⟨403, by decide⟩).2, ?_, ?_, hzone, ?_, ?_, ?_⟩
  · show (s.mode.getD .off).value ≠ _
    cases s.mode.getD .off <;> decide
  · show (if s.body.getD true = true then (1 : Int) else 0) ≠ _
    split <;> decide
  · exact Nat.ne_of_lt (Nat.lt_of_le_of_lt (s.maxBody.getD ⟨8 * 1024, by decide⟩).2 hunset)
  · show (s.log.getD .off).logFile ≠ _
    cases s.log.getD .off <;> exact ConfPtr.noConfusion
  · show (s.log.getD .off).logPeer ≠ _
    cases s.log.getD .off <;> exact ConfPtr.noConfusion
  · exact Nat.ne_of_lt (Nat.lt_of_le_of_lt hcount hunset)
  · omega
  · omega

/-- The settings inherited from some levels are those in force there: the innermost of each. -/
theorem live_inForce (levels : List Settings) : InForce levels (inherited levels).live where
  mode := by
    rw [← inherited_eq Settings.mode rfl fun _ _ => rfl]
    unfold Settings.live
    cases (inherited levels).mode <;> rfl
  body := by
    rw [← inherited_eq Settings.body rfl fun _ _ => rfl]
    rfl
  maxBody := by
    rw [← inherited_eq Settings.maxBody rfl fun _ _ => rfl]
    unfold Settings.live
    cases (inherited levels).maxBody <;> rfl
  status := by
    rw [← inherited_eq Settings.status rfl fun _ _ => rfl]
    unfold Settings.live
    cases (inherited levels).status <;> rfl
  skip := by
    rw [← inherited_eq Settings.skip rfl fun _ _ => rfl]
    unfold Settings.live maskOf
    cases (inherited levels).skip <;> rfl
  log := by
    rw [← inherited_eq Settings.log rfl fun _ _ => rfl]
    unfold Settings.live
    cases (inherited levels).log with
    | none => rfl
    | some sink => cases sink <;> rfl
  ban := by
    rw [← inherited_eq Settings.ban rfl fun _ _ => rfl]
    unfold Settings.live
    cases (inherited levels).ban <;> rfl
  no_sentinel := live_noSentinel _

theorem loadLevels_eq {env : ConfEnv} {levels : List (List Directive)} {confs : List ShieldLocConf}
    (h : levels.mapM (loadLevel env) = .ok confs) :
    confs = (levels.map (settingsOf env)).map Settings.conf
      ∧ ∀ level ∈ levels, ∀ x,
        (settingsOf env level).sets x = true ↔ ∃ d ∈ level, d.setting = x := by
  induction levels generalizing confs with
  | nil =>
      obtain rfl := Except.ok.inj h
      exact ⟨rfl, by simp⟩
  | cons level levels ih =>
      rw [List.mapM_cons] at h
      cases hlevel : loadLevel env level with
      | error e =>
          rw [hlevel] at h
          cases h
      | ok conf =>
          rw [hlevel] at h
          cases hrest : levels.mapM (loadLevel env) with
          | error e =>
              rw [hrest] at h
              cases h
          | ok confs' =>
              rw [hrest] at h
              obtain rfl := Except.ok.inj h
              obtain ⟨hconf, hsets⟩ := loadLevel_eq hlevel
              obtain ⟨hconfs, hmore⟩ := ih hrest
              refine ⟨?_, List.forall_mem_cons.mpr ⟨hsets, hmore⟩⟩
              rw [hconf, hconfs]
              rfl

/-- **The effective configuration is the innermost setting, as a unit.**  Take any nesting
of levels that loads, each a list of directives.  Merged from the outside in, every level
below the outermost has of each setting the one of the innermost level around it that
has a directive for it, or the default. -/
theorem mergeLocConf_innermost (env : ConfEnv) (outermost : List Directive)
    (levels : List (List Directive)) (root : ShieldLocConf) (confs : List ShieldLocConf)
    (hroot : loadLevel env outermost = .ok root)
    (hconfs : levels.mapM (loadLevel env) = .ok confs) :
    (∀ k, k < levels.length → ∃ conf, (mergeDown root confs)[k]? = some conf
        ∧ InForce (enclosing env outermost levels k) conf)
      ∧ ∀ level ∈ outermost :: levels, ∀ x,
        (settingsOf env level).sets x = true ↔ ∃ d ∈ level, d.setting = x := by
  obtain ⟨rfl, hsets⟩ := loadLevel_eq hroot
  obtain ⟨rfl, hmore⟩ := loadLevels_eq hconfs
  refine ⟨?_, List.forall_mem_cons.mpr ⟨hsets, hmore⟩⟩
  intro k hk
  -- the outermost level is not merged itself
  have hshown : (inherited [settingsOf env outermost]).Shown (settingsOf env outermost).conf :=
    .inl (congrArg Settings.conf (Settings.inside_none _).symm)
  have hmerged := @mergeDown_eq [settingsOf env outermost] (levels.map (settingsOf env)) _ hshown k
    (by rwa [List.length_map])
  refine ⟨_, hmerged, ?_⟩
  have henclosing : enclosing env outermost levels k
      = ((levels.map (settingsOf env)).take (k + 1)).reverse ++ [settingsOf env outermost] := by
    unfold enclosing
    rw [List.reverse_cons, List.map_append, List.map_reverse, List.map_take]
    rfl
  rw [henclosing]
  exact live_inForce _

/-! ## §7. A small configuration. -/

/-- A parser and an allocator for the arguments below. -/
def smallConf : ConfEnv where
  parseSize s := if s = bytesOf "1k" then some ⟨1024, by decide⟩ else none
  parseTime s :=
    if s = bytesOf "60s" then some ⟨60, by decide⟩
    else if s = bytesOf "10m" then some ⟨600, by decide⟩
    else none
  ptocidr s := if s = bytesOf "10.0.0.0/8" then some ⟨[10, 0, 0, 0], [255, 0, 0, 0]⟩ else none
  arrayPush _ := true
  sharedMemoryAdd _ := some 1
  syslogProcessConf _ := some 2
  confOpenFile _ := some 3

/-- A server that bans, and logs to a file. -/
def outerLevel : List Directive :=
  [.shield (bytesOf "block"), .shieldLog (bytesOf "hits.json"),
    .shieldBan (bytesOf "zone=z") [bytesOf "count=3", bytesOf "window=60s", bytesOf "bantime=10m",
      bytesOf "key=forwarded", bytesOf "trusted=10.0.0.0/8"]]

/-- A location that does not log, and one inside it. -/
def innerLevels : List (List Directive) :=
  [[.shieldLog (bytesOf "off"), .shieldSkip (bytesOf "sqli") [bytesOf "dotfile"]],
    [.shieldMaxBody (bytesOf "1k"), .shieldBody (bytesOf "off")]]

/-- The configuration that the directives of the server build. -/
def outerConf : ShieldLocConf :=
  { createLocConf with
    mode := 2
    log := .ptr 3
    syslogPeer := .null
    banZone := .ptr 1
    banCount := 3
    banWindow := 60
    banTime := 600
    banKey := .forwarded
    banTrusted := some [⟨[10, 0, 0, 0], [255, 0, 0, 0]⟩] }

/-- The configurations that the directives of the locations build. -/
def innerConfs : List ShieldLocConf :=
  [{ createLocConf with log := .null, syslogPeer := .null, skip := 0x20000001 },
    { createLocConf with maxBody := 1024, body := 0 }]

/-- The inner location blocks and bans as the server does, logs nothing as the location around
it, and has its own limit for bodies. -/
theorem mergeLocConf_innermost_small :
    ∃ conf, (mergeDown outerConf innerConfs)[1]? = some conf
      ∧ InForce (enclosing smallConf outerLevel innerLevels 1) conf
      ∧ conf.mode = 2 ∧ conf.maxBody = 1024 ∧ conf.skip = 0x20000001
      ∧ (conf.log, conf.syslogPeer) = (.null, .null) ∧ conf.banZone = .ptr 1 := by
  obtain ⟨hmerged, -⟩ := mergeLocConf_innermost smallConf outerLevel innerLevels outerConf innerConfs
    (by decide) (by decide)
  obtain ⟨conf, hconf, hforce⟩ := hmerged 1 (by decide)
  have hban := congrArg Prod.fst hforce.ban
  exact ⟨conf, hconf, hforce, hforce.mode.trans (by decide), hforce.maxBody.trans (by decide),
    hforce.skip.trans (by decide), hforce.log.trans (by decide), hban.trans (by decide)⟩

/-! ## §8. What the handler is given. -/

/-- The configuration that the handler reads, as far as it tells values apart. -/
structure ShieldLocConf.Reads (cidrMatch : List Cidr → Sockaddr → Bool) (conf : ShieldLocConf)
    (loc : LocConf) : Prop where
  mode : conf.mode = loc.mode.value
  body : conf.body = if loc.body then 1 else 0
  maxBody : conf.maxBody = loc.maxBody
  status : (conf.status : Int) = loc.status
  skip : conf.skip = loc.skip
  log : conf.log ≠ .null ↔ loc.log = true
  syslogPeer : conf.syslogPeer ≠ .null ↔ loc.syslogPeer = true
  ban_off : conf.banZone = .null ↔ loc.ban = none
  ban : ∀ b, loc.ban = some b → conf.banCount = b.pol.count ∧ conf.banWindow = b.pol.window
    ∧ conf.banTime = b.pol.banTime ∧ conf.banKey = b.key
    ∧ conf.banTrusted.map cidrMatch = b.trusted

/-- The policy of `shield_ban`. -/
def BanSetting.policy (b : BanSetting) : Policy where
  count := b.count.1
  window := b.window.1
  banTime := b.time.1
  count_pos := b.count.2.1
  count_lt := Nat.lt_of_le_of_lt b.count.2.2 (by decide)
  window_pos := b.window.2.1
  banTime_pos := b.time.2.1

/-- The settings that are in force, for the handler. -/
def Settings.locConf (cidrMatch : List Cidr → Sockaddr → Bool) (s : Settings) : LocConf where
  mode := s.mode.getD .off
  body := s.body.getD true
  maxBody := s.live.maxBody
  status := s.live.status
  skip := s.live.skip
  log := decide (s.live.log ≠ .null)
  syslogPeer := decide (s.live.syslogPeer ≠ .null)
  ban := s.ban.map fun b => ⟨b.policy, b.key, b.trusted.map cidrMatch⟩
  status_allowed := by
    have hallowed : ∀ code ∈ allowedStatuses, (code : Int) ∈ [403, 404, 419, 429, 444] := by decide
    exact hallowed _ (s.status.getD ⟨403, by decide⟩).2

theorem mergeDown_length (prev : ShieldLocConf) (confs : List ShieldLocConf) :
    (mergeDown prev confs).length = confs.length := by
  induction confs generalizing prev with
  | nil => rfl
  | cons conf confs ih => rw [mergeDown, List.length_cons, ih, List.length_cons]

/-- **Every level below the outermost** has a configuration that the handler can read. -/
theorem mergeDown_reads (cidrMatch : List Cidr → Sockaddr → Bool) {around levels : List Settings}
    {prev : ShieldLocConf} (h : (inherited around).Shown prev) :
    ∀ conf ∈ mergeDown prev (levels.map Settings.conf), ∃ loc, conf.Reads cidrMatch loc := by
  have hlive : ∀ s : Settings, s.live.Reads cidrMatch (s.locConf cidrMatch) := fun s =>
    { mode := rfl
      body := rfl
      maxBody := rfl
      status := rfl
      skip := rfl
      log := decide_eq_true_iff.symm
      syslogPeer := decide_eq_true_iff.symm
      ban_off := by
        unfold Settings.live Settings.locConf
        cases s.ban <;> simp
      ban := by
        intro b hb
        obtain ⟨ban, hban, rfl⟩ := Option.map_eq_some_iff.mp hb
        unfold Settings.live
        rw [hban]
        exact ⟨rfl, rfl, rfl, rfl, rfl⟩ }
  intro conf hconf
  obtain ⟨k, hk⟩ := List.mem_iff_getElem?.mp hconf
  have hlt : k < levels.length := by
    by_contra hge
    rw [List.getElem?_eq_none (by rw [mergeDown_length, List.length_map]; omega)] at hk
    cases hk
  rw [mergeDown_eq h hlt] at hk
  obtain rfl := Option.some.inj hk
  exact ⟨_, hlive _⟩

end HttpShield
