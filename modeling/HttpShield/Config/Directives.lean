/-
  HttpShield.Config.Directives
  ────────────────────────────
  The directives of the module that a configuration level can hold, with their
  arguments as nginx hands them over, and what they do to the configuration of the
  level (`ngx_http_shield_loc_conf_t` while it is being built).

  A field that no directive has set holds a sentinel, of three kinds, or zero or a
  plain default.  What nginx itself parses, opens and allocates is a parameter.

    • `catByName_lt`     — a name stands for a bit of the mask,
    • `skipLoop_ne_zero` — `shield_skip` never leaves the mask empty.
-/
import HttpShield.Ban.Overflow
import HttpShield.Request.Types

namespace HttpShield

/-! ## §1. The configuration of a level. -/

/-- `NGX_CONF_UNSET`. -/
def ngxConfUnset : Int := -1
/-- `NGX_CONF_UNSET_UINT`. -/
def ngxConfUnsetUint : Nat := ngxUintModulus - 1
/-- `NGX_CONF_UNSET_SIZE`. -/
def ngxConfUnsetSize : Nat := ngxUintModulus - 1

/-- A pointer of the configuration: `NGX_CONF_UNSET_PTR`, `NULL`, or an object. -/
inductive ConfPtr where
  | unset
  | null
  | ptr (p : Nat)
  deriving Repr, DecidableEq

/-- `ngx_cidr_t`. -/
structure Cidr where
  addr : Bytes
  mask : Bytes
  deriving Repr, DecidableEq

/-- `ngx_http_shield_loc_conf_t`, as the directives and the merge see it. -/
structure ShieldLocConf where
  mode : Nat
  body : Int
  maxBody : Nat
  status : Nat
  skip : Mask
  log : ConfPtr
  syslogPeer : ConfPtr
  banZone : ConfPtr
  banCount : Nat
  banWindow : Int
  banTime : Int
  banKey : BanKey
  banTrusted : Option (List Cidr)
  deriving Repr, DecidableEq

/-- `ngx_http_shield_create_loc_conf`. -/
def createLocConf : ShieldLocConf where
  mode := ngxConfUnsetUint
  body := ngxConfUnset
  maxBody := ngxConfUnsetSize
  status := ngxConfUnsetUint
  skip := 0
  -- `NULL` is an explicit `off`, not unset
  log := .unset
  syslogPeer := .unset
  banZone := .unset
  banCount := ngxConfUnsetUint
  banWindow := ngxConfUnset
  banTime := ngxConfUnset
  -- set together with the zone, so these two are no sentinels
  banKey := .peer
  banTrusted := none

/-! ## §2. What nginx does for the directives. -/

/-- What nginx parses, opens and allocates for a directive; `none` is its failure. -/
structure ConfEnv where
  /-- `ngx_parse_size`, a `ssize_t`. -/
  parseSize : Bytes → Option { n : Nat // n ≤ ngxMaxIntTValue }
  /-- `ngx_parse_time`, of seconds. -/
  parseTime : Bytes → Option { t : Int // Clock t }
  /-- `ngx_ptocidr`; that host bits are set is only warned about. -/
  ptocidr : Bytes → Option Cidr
  /-- Whether the array of trusted proxies can be made, and take one more. -/
  arrayPush : Option (List Cidr) → Bool
  sharedMemoryAdd : Bytes → Option Nat
  /-- Allocating the peer, and `ngx_syslog_process_conf`. -/
  syslogProcessConf : Bytes → Option Nat
  confOpenFile : Bytes → Option Nat

/-- The C string that an argument is. -/
def cString (value : Bytes) : Bytes := value.takeWhile (· ≠ 0)

/-- The decimal number, of digits only. -/
def decimalValue (s : Bytes) : Nat := s.foldl (fun n c => n * 10 + (c.toNat - 48)) 0

/-- `ngx_atoi`; `none` is `NGX_ERROR`. -/
def ngxAtoi (s : Bytes) : Option { n : Nat // n ≤ ngxMaxIntTValue } :=
  if s ≠ [] ∧ s.all (fun c => 48 ≤ c.toNat && c.toNat ≤ 57) then
    if h : decimalValue s ≤ ngxMaxIntTValue then some ⟨decimalValue s, h⟩ else none
  else none

/-- Why the configuration does not load. -/
inductive ConfError where
  /-- The text the handler returns. -/
  | returned (text : String)
  /-- `NGX_CONF_ERROR`, with the text and the argument it logs. -/
  | logged (text : String) (value : Bytes)
  /-- `NGX_CONF_ERROR`, after a failure that nginx logs. -/
  | failed
  | fault (f : Fault)
  deriving Repr, DecidableEq

/-! ## §3. The handlers. -/

/-- `NGX_HTTP_SHIELD_OFF`, `_DETECT` and `_BLOCK`. -/
def ShieldMode.value : ShieldMode → Nat
  | .off => 0
  | .detect => 1
  | .block => 2

/-- The mode that an argument of `shield` names. -/
def modeOf (value : Bytes) : Option ShieldMode :=
  if cString value = bytesOf "off" then some .off
  else if cString value = bytesOf "detect" then some .detect
  else if cString value = bytesOf "block" then some .block
  else none

/-- `ngx_http_shield_mode`. -/
def setMode (value : Bytes) (conf : ShieldLocConf) : Except ConfError ShieldLocConf :=
  if conf.mode ≠ ngxConfUnsetUint then .error (.returned "is duplicate")
  else
    match modeOf value with
    | some mode => .ok { conf with mode := mode.value }
    | none => .error (.logged "invalid shield mode \"%V\", expected off, detect or block" value)

/-- The value that the argument of a flag names. -/
def flagOf (value : Bytes) : Option Bool :=
  if ngxStrlow (cString value) = bytesOf "on" then some true
  else if ngxStrlow (cString value) = bytesOf "off" then some false
  else none

/-- `ngx_conf_set_flag_slot`, of `shield_body`. -/
def setBody (value : Bytes) (conf : ShieldLocConf) : Except ConfError ShieldLocConf :=
  if conf.body ≠ ngxConfUnset then .error (.returned "is duplicate")
  else
    match flagOf value with
    | some flag => .ok { conf with body := if flag then 1 else 0 }
    | none =>
        .error (.logged "invalid value \"%s\" in \"%s\" directive, it must be \"on\" or \"off\""
          value)

/-- `ngx_conf_set_size_slot`, of `shield_max_body`. -/
def setMaxBody (env : ConfEnv) (value : Bytes) (conf : ShieldLocConf) :
    Except ConfError ShieldLocConf :=
  if conf.maxBody ≠ ngxConfUnsetSize then .error (.returned "is duplicate")
  else
    match env.parseSize value with
    | some size => .ok { conf with maxBody := size.1 }
    | none => .error (.returned "invalid value")

/-- The statuses that `shield_status` allows. -/
def allowedStatuses : List Nat := [403, 404, 419, 429, 444]

/-- The status that an argument of `shield_status` names, if it is allowed. -/
def statusOf (value : Bytes) : Option { code : Nat // code ∈ allowedStatuses } :=
  match ngxAtoi value with
  | some code => if h : code.1 ∈ allowedStatuses then some ⟨code.1, h⟩ else none
  | none => none

/-- `ngx_http_shield_status`. -/
def setStatus (value : Bytes) (conf : ShieldLocConf) : Except ConfError ShieldLocConf :=
  if conf.status ≠ ngxConfUnsetUint then .error (.returned "is duplicate")
  else
    match statusOf value with
    | some code => .ok { conf with status := code.1 }
    | none =>
        .error (.logged "invalid shield_status \"%V\", allowed: 403, 404, 419, 429, 444" value)

/-- `ngx_http_shield_cat_by_name`; `none` is -1. -/
def catByName (name : Bytes) : Option Nat :=
  match shieldCategories.find? (fun c => c.name = name) with
  | some c => some c.cat
  | none =>
      -- the checks that have no row
      if name = bytesOf "httpoxy" then some ShieldCat.httpoxy.bit
      else if name = bytesOf "range_dos" then some ShieldCat.rangeDos.bit
      else if name = bytesOf "ctrl_char" then some ShieldCat.ctrlChar.bit
      else if name = bytesOf "dotfile" then some ShieldCat.dotfile.bit
      else none

/-- The loop of `ngx_http_shield_skip` over the arguments. -/
def skipLoop : List Bytes → Mask → Except ConfError Mask
  | [], skip => .ok skip
  | value :: values, skip =>
      match catByName value with
      | none => .error (.logged "unknown shield category \"%V\"" value)
      | some cat =>
          match maskBit cat with
          | .ok bit => skipLoop values (skip ||| bit)
          | .error f => .error (.fault f)

/-- `ngx_http_shield_skip`, with one argument at least. -/
def setSkip (value : Bytes) (values : List Bytes) (conf : ShieldLocConf) :
    Except ConfError ShieldLocConf := do
  let skip ← skipLoop (value :: values) conf.skip
  return { conf with skip := skip }

/-- The sink that `shield_log` names. -/
inductive LogSetting where
  | off
  | file (p : Nat)
  | syslog (p : Nat)
  deriving Repr, DecidableEq

/-- The sink that an argument of `shield_log` names. -/
def logOf (env : ConfEnv) (value : Bytes) : Except ConfError LogSetting :=
  if value = bytesOf "off" then .ok .off
  else if value.head? = some 124 then
    .error (.logged "shield_log does not support piping to a command; log to a file and report out of band"
      value)
  else if bytesOf "syslog:" <+: value then
    match env.syslogProcessConf value with
    | some p => .ok (.syslog p)
    | none => .error .failed
  else
    match env.confOpenFile value with
    | some p => .ok (.file p)
    | none => .error .failed

/-- `ngx_http_shield_log`: both sinks are written. -/
def setLog (env : ConfEnv) (value : Bytes) (conf : ShieldLocConf) :
    Except ConfError ShieldLocConf :=
  if conf.log ≠ .unset then .error (.returned "is duplicate")
  else
    match logOf env value with
    -- disabled, which survives inheritance
    | .ok .off => .ok { conf with log := .null, syslogPeer := .null }
    -- set, but no file
    | .ok (.syslog p) => .ok { conf with syslogPeer := .ptr p, log := .null }
    | .ok (.file p) => .ok { conf with log := .ptr p, syslogPeer := .null }
    | .error e => .error e

/-! ## §4. `shield_ban`. -/

/-- The local variables of `ngx_http_shield_ban`; `none` is `NGX_CONF_UNSET`, and `NULL`
for the proxies. -/
structure BanArgs where
  name : Bytes
  n : Option { n : Nat // 1 ≤ n ∧ n ≤ ngxMaxIntTValue }
  window : Option { t : Int // Span t }
  bantime : Option { t : Int // Span t }
  key : BanKey
  trusted : Option (List Cidr)

/-- The arguments of `shield_ban` before any of them is read, with the
defaults of the source. -/
def BanArgs.start : BanArgs where
  name := []
  n := none
  window := none
  bantime := none
  key := .peer
  trusted := none

/-- The time that an argument gives, unless it is zero. -/
def spanOf (t : Option { t : Int // Clock t }) : Option { t : Int // Span t } :=
  match t with
  | some t => if h : t.1 ≤ 0 then none else some ⟨t.1, Int.lt_of_not_ge h, t.2.2⟩
  | none => none

/-- Reading one argument of `shield_ban`. -/
def banArg (env : ConfEnv) (value : Bytes) (args : BanArgs) : Except ConfError BanArgs :=
  if bytesOf "zone=" <+: value then .ok { args with name := value.drop 5 }
  else if bytesOf "count=" <+: value then
    match ngxAtoi (value.drop 6) with
    | some n =>
        if h : n.1 = 0 then .error (.logged "invalid shield_ban count \"%V\"" value)
        else .ok { args with n := some ⟨n.1, Nat.pos_of_ne_zero h, n.2⟩ }
    | none => .error (.logged "invalid shield_ban count \"%V\"" value)
  else if bytesOf "window=" <+: value then
    match spanOf (env.parseTime (value.drop 7)) with
    | some window => .ok { args with window := some window }
    | none => .error (.logged "invalid shield_ban window \"%V\"" value)
  else if bytesOf "bantime=" <+: value then
    match spanOf (env.parseTime (value.drop 8)) with
    | some bantime => .ok { args with bantime := some bantime }
    | none => .error (.logged "invalid shield_ban bantime \"%V\"" value)
  else if bytesOf "key=" <+: value then
    if value.drop 4 = bytesOf "peer" then .ok { args with key := .peer }
    else if value.drop 4 = bytesOf "forwarded" then .ok { args with key := .forwarded }
    else .error (.logged "invalid shield_ban key \"%V\", expected peer or forwarded" value)
  else if bytesOf "trusted=" <+: value then
    if env.arrayPush args.trusted then
      match env.ptocidr (value.drop 8) with
      | some cidr => .ok { args with trusted := some (args.trusted.getD [] ++ [cidr]) }
      | none => .error (.logged "invalid shield_ban trusted address \"%V\"" (value.drop 8))
    else .error .failed
  else .error (.logged "invalid shield_ban parameter \"%V\"" value)

/-- The loop over the arguments. -/
def banLoop (env : ConfEnv) : List Bytes → BanArgs → Except ConfError BanArgs
  | [], args => .ok args
  | value :: values, args => do
      let args ← banArg env value args
      banLoop env values args

/-- **What `shield_ban` sets**: a whole policy, and proxies to trust exactly if its key is
taken from what they forward. -/
structure BanSetting where
  zone : Nat
  count : { n : Nat // 1 ≤ n ∧ n ≤ ngxMaxIntTValue }
  window : { t : Int // Span t }
  time : { t : Int // Span t }
  key : BanKey
  trusted : Option (List Cidr)
  supported : key = .forwarded ↔ trusted ≠ none

/-- `ngx_http_shield_ban` up to the fields it writes. -/
def banOf (env : ConfEnv) (value : Bytes) (values : List Bytes) : Except ConfError BanSetting := do
  let args ← banLoop env (value :: values) .start
  match args.n, args.window, args.bantime with
  | some n, some window, some bantime =>
      if args.name.length = 0 then
        .error (.logged "shield_ban requires zone=, count=, window= and bantime=" [])
      -- a key that anyone can write would let a client ban another
      else if hproxy : args.key = .forwarded ∧ args.trusted = none then
        .error (.logged "shield_ban key=forwarded requires at least one trusted=<address|CIDR>, otherwise the ban key is attacker-controlled"
          [])
      else if hpeer : args.key = .peer ∧ args.trusted ≠ none then
        .error (.logged "shield_ban trusted= is meaningless without key=forwarded" [])
      else
        match env.sharedMemoryAdd args.name with
        | none => .error .failed
        | some zone =>
            .ok
              { zone := zone
                count := n
                window := window
                time := bantime
                key := args.key
                trusted := args.trusted
                supported := by
                  cases hkey : args.key with
                  | peer => simpa [hkey] using hpeer
                  | forwarded => simpa [hkey] using hproxy }
  | _, _, _ => .error (.logged "shield_ban requires zone=, count=, window= and bantime=" [])

/-- `ngx_http_shield_ban`. -/
def setBan (env : ConfEnv) (value : Bytes) (values : List Bytes) (conf : ShieldLocConf) :
    Except ConfError ShieldLocConf :=
  if conf.banZone ≠ .unset then .error (.returned "is duplicate")
  else
    match banOf env value values with
    | .ok ban =>
        .ok
          { conf with
            banZone := .ptr ban.zone
            banCount := ban.count.1
            banWindow := ban.window.1
            banTime := ban.time.1
            banKey := ban.key
            banTrusted := ban.trusted }
    | .error e => .error e

/-! ## §5. A level. -/

/-- A directive with its arguments; nginx has checked their number. -/
inductive Directive where
  | shield (value : Bytes)
  | shieldBody (value : Bytes)
  | shieldMaxBody (value : Bytes)
  | shieldStatus (value : Bytes)
  | shieldSkip (value : Bytes) (values : List Bytes)
  | shieldLog (value : Bytes)
  | shieldBan (value : Bytes) (values : List Bytes)

/-- Run the handler of a directive. -/
def Directive.set (env : ConfEnv) : Directive → ShieldLocConf → Except ConfError ShieldLocConf
  | .shield value => setMode value
  | .shieldBody value => setBody value
  | .shieldMaxBody value => setMaxBody env value
  | .shieldStatus value => setStatus value
  | .shieldSkip value values => setSkip value values
  | .shieldLog value => setLog env value
  | .shieldBan value values => setBan env value values

/-- The directives of a level, in their order. -/
def setAll (env : ConfEnv) : List Directive → ShieldLocConf → Except ConfError ShieldLocConf
  | [], conf => .ok conf
  | d :: ds, conf => do
      let conf ← d.set env conf
      setAll env ds conf

/-- The configuration that a level builds. -/
def loadLevel (env : ConfEnv) (level : List Directive) : Except ConfError ShieldLocConf :=
  setAll env level createLocConf

/-! ## §6. Names of categories. -/

theorem shieldCategories_lt : ∀ c ∈ shieldCategories, c.cat < 64 := by decide

/-- **A name stands for a bit of the mask.** -/
theorem catByName_lt {name : Bytes} {cat : Nat} (h : catByName name = some cat) : cat < 64 := by
  unfold catByName at h
  cases hrow : shieldCategories.find? (fun c => c.name = name) with
  | some c =>
      rw [hrow] at h
      obtain rfl := Option.some.inj h
      exact shieldCategories_lt c (List.mem_of_find?_eq_some hrow)
  | none =>
      simp only [hrow] at h
      repeat' split at h
      all_goals first
        | (obtain rfl := Option.some.inj h; decide)
        | cases h

/-- One name of `shield_skip` sets one bit of the mask, and the loop goes on with it. -/
theorem skipLoop_cons {value : Bytes} {values : List Bytes} {skip skip' : Mask}
    (h : skipLoop (value :: values) skip = .ok skip') :
    ∃ cat, cat < 64 ∧ skipLoop values (skip ||| BitVec.twoPow 64 cat) = .ok skip' := by
  unfold skipLoop at h
  cases hcat : catByName value with
  | none =>
      rw [hcat] at h
      cases h
  | some cat =>
      have hlt := catByName_lt hcat
      have hbit : maskBit cat = .ok (BitVec.twoPow 64 cat) := if_pos hlt
      simp only [hcat, hbit] at h
      exact ⟨cat, hlt, h⟩

/-- The bits that the skip mask has stay set by the loop over further names. -/
theorem skipLoop_keeps {values : List Bytes} {skip skip' : Mask} {i : Nat}
    (h : skipLoop values skip = .ok skip') (hi : skip.getLsbD i = true) :
    skip'.getLsbD i = true := by
  induction values generalizing skip with
  | nil =>
      obtain rfl := Except.ok.inj h
      exact hi
  | cons value values ih =>
      obtain ⟨cat, -, hrest⟩ := skipLoop_cons h
      apply ih hrest
      rw [BitVec.getLsbD_or, hi, Bool.true_or]

/-- **`shield_skip` never leaves the mask empty.** -/
theorem skipLoop_ne_zero {value : Bytes} {values : List Bytes} {skip skip' : Mask}
    (h : skipLoop (value :: values) skip = .ok skip') : skip' ≠ 0 := by
  obtain ⟨cat, hlt, hrest⟩ := skipLoop_cons h
  have hset : skip'.getLsbD cat = true := by
    apply skipLoop_keeps hrest
    rw [BitVec.getLsbD_or, BitVec.getLsbD_twoPow, decide_eq_true hlt]
    simp
  intro heq
  subst heq
  simp at hset

end HttpShield
