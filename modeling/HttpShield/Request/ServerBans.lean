/-
  HttpShield.Request.ServerBans
  ─────────────────────────────
  What the ban engine promises of a server: who is turned away, and when.

  Requests of many clients come to many locations, each with a policy of its own, and
  some of them wait for their bodies while others go by.  All that such a run does to the
  entry of one address are its strikes: the hits acted on in requests that the address
  stands for, as far as the zone had room for them.

    • `World.Comes.strikes`  — what one call of the module does to the ban zone,
    • `Server.Run.zoneCalls` — the calls on the zone behind a run,
    • `server_bans`          — a request is turned away exactly while the last ban armed
      for its client runs,
    • `server_arms`          — under one policy bans are armed neither wrongly nor late.
-/
import HttpShield.Config.Reload
import HttpShield.Request.Records

namespace HttpShield

/-! ## §1. What a call does to the ban zone. -/

/-- **What one call of the module does to the zone**: nothing to any entry, or one record
for the address of the request. -/
inductive World.Strikes (pol : Policy) (key : Option Addr) (w w' : World) : Prop where
  | rests (hacted : w'.acted = w.acted ∨ key = none)
      (hentries : ∀ a, w'.zone.entryOf a = w.zone.entryOf a)
  | records (b : Addr) (alloc : SlabAlloc) (r : Reply) (hkey : key = some b)
      (hacted : w'.acted = w.acted + 1)
      (hchange : ∀ a, Change a (.record b w.now pol.count pol.window pol.banTime alloc) r
        (w.zone.entryOf a) (w'.zone.entryOf a))
      (hreply : r = if (w'.zone.entryOf b).isSome then .recorded (w'.zone.sh.bans ≠ w.zone.sh.bans)
        else .dropped)

/-- The ban check leaves the map and the total. -/
theorem banIsBanned_keeps {env : Env} {ban : BanConf} {r : Request} {w w' : World} {b : Bool}
    (hzone : ∃ ps, w.zone.Wf env.hash ps) (h : banIsBanned env ban r w = .ok (b, w')) :
    w'.zone.entryOf = w.zone.entryOf ∧ w'.zone.sh.bans = w.zone.sh.bans := by
  obtain ⟨ps, hwf⟩ := hzone
  obtain ⟨key, -, h⟩ := bind_eq_ok h
  cases key with
  | none =>
      obtain ⟨-, rfl⟩ : false = b ∧ w = w' := by simpa using h
      exact ⟨rfl, rfl⟩
  | some a =>
      obtain ⟨⟨zone, banned⟩, hcall, h⟩ := bind_eq_ok h
      obtain ⟨-, rfl⟩ : banned = b ∧ w.setZone zone = w' := by simpa using h
      obtain ⟨z, hcall', hentries⟩ := (hwf.refinesMap .plain).is_banned a w.now
      obtain rfl : zone = z := (Prod.ext_iff.mp (Except.ok.inj (hcall.symm.trans hcall'))).1
      exact ⟨hentries, (banIsBannedLocked_trims hcall).bans⟩

/-- What precedes a hit, the check for a ban included, changes no entry and arms no ban. -/
theorem World.Reaches.keeps {env : Env} {conf : LocConf} {r : Request} {w w' : World}
    (h : w.Reaches env conf r w') (hzone : ∃ ps, w.zone.Wf env.hash ps) :
    w'.zone.entryOf = w.zone.entryOf ∧ w'.zone.sh.bans = w.zone.sh.bans := by
  rcases h.zone with hsame | ⟨banned, hcheck⟩
  · rw [hsame]
    exact ⟨rfl, rfl⟩
  · unfold checkBan at hcheck
    cases hban : conf.ban with
    | none =>
        rw [hban] at hcheck
        obtain ⟨-, hsame⟩ : false = banned ∧ w = w.setZone w'.zone := by simpa using hcheck
        have hzone' := congrArg World.zone hsame
        rw [show w'.zone = w.zone from hzone'.symm]
        exact ⟨rfl, rfl⟩
    | some ban =>
        rw [hban] at hcheck
        exact @banIsBanned_keeps env ban r w (w.setZone w'.zone) banned hzone hcheck

/-- **A record** is one call on the zone, for the address of the request. -/
theorem banRecord_strikes {env : Env} {ban : BanConf} {r : Request} {key : Option Addr}
    (hkey : banAddr env ban r = .ok key) {w w' : World} (hzone : ∃ ps, w.zone.Wf env.hash ps)
    (h : banRecord env ban r w = .ok w') :
    w'.acted = w.acted ∧ (∃ ps, w'.zone.Wf env.hash ps)
      ∧ World.Strikes ban.pol key w w'.noteAct := by
  obtain ⟨ps, hwf⟩ := hzone
  obtain ⟨key', hkey', h⟩ := bind_eq_ok h
  obtain rfl : key = key' := Except.ok.inj (hkey.symm.trans hkey')
  cases key with
  | none =>
      obtain rfl : w = w' := Except.ok.inj h
      exact ⟨rfl, ⟨ps, hwf⟩, .rests (.inr rfl) fun a => rfl⟩
  | some b =>
      obtain ⟨⟨zone, rc⟩, hcall, h⟩ := bind_eq_ok h
      obtain rfl : w.setZone zone = w' := Except.ok.inj h
      -- as a call of the zone, with its answer
      have hstep : w.zone.step env.rbtree env.hash
          (.record b w.now ban.pol.count ban.pol.window ban.pol.banTime (env.slab w.acted))
          = .ok (zone, if rc = ngxOk then .recorded (zone.sh.bans ≠ w.zone.sh.bans)
            else .dropped) := by
        show (banRecordLocked _ _ _ _ _ _ _ _ _ >>= _) = _
        rw [hcall]
        rfl
      obtain ⟨z, rc', hcall', -, hstored, hrefused⟩ := (hwf.refinesMap env.rbtree).record
        (env.slab w.acted) b w.now ban.pol.count ban.pol.window ban.pol.banTime
      obtain ⟨rfl, rfl⟩ : zone = z ∧ rc = rc' :=
        Prod.ext_iff.mp (Except.ok.inj (hcall.symm.trans hcall'))
      have hsome : rc = ngxOk ↔ (zone.entryOf b).isSome = true := by
        constructor
        · intro hrc
          rw [hstored hrc]
          rfl
        · intro hentry
          by_contra hrc
          rw [(hrefused hrc).2.2.1] at hentry
          cases hentry
      refine ⟨rfl, (hwf.step_change hstep b).2, ?_⟩
      refine .records b (env.slab w.acted) _ rfl rfl (fun a => (hwf.step_change hstep a).1) ?_
      simp only [hsome]
      rfl

/-- **What a call of the module does to the zone.** -/
theorem World.Comes.strikes {env : Env} {conf : LocConf} {r : Request} {w w' : World}
    (h : w.Comes env conf r w') {ban : BanConf} (hban : conf.ban = some ban) {key : Option Addr}
    (hkey : banAddr env ban r = .ok key) (hzone : ∃ ps, w.zone.Wf env.hash ps) :
    World.Strikes ban.pol key w w' := by
  cases h with
  | nothing hreach =>
      obtain ⟨hentries, -⟩ := hreach.keeps hzone
      exact .rests (.inl hreach.acted) fun a => congrFun hentries a
  | hit hit w₁ w₂ hreal hreach hact hacted hlogged hzone' =>
      obtain ⟨hentries, hbans⟩ := hreach.keeps hzone
      have hwf₁ := hreach.wf hzone
      obtain ⟨w₃, hrecord, hrest⟩ := bind_eq_ok hact
      unfold recordHit at hrecord
      simp only [hban] at hrecord
      obtain ⟨w₄, hrec, hcount⟩ := bind_eq_ok hrecord
      obtain ⟨hsame, ⟨ps, hwf₄⟩, hstrikes⟩ := banRecord_strikes hkey hwf₁ hrec
      obtain rfl : w₄.countHit hit (conf.mode == .block) = w₃ := Except.ok.inj hcount
      have hlog := writeLog_quiet env conf r hit
        (w₄.countHit hit (conf.mode == .block)).noteAct
      obtain ⟨-, rfl⟩ := Prod.ext_iff.mp (Except.ok.inj hrest)
      -- neither the counters of the status page nor the log touch the map
      have hlast : w'.zone = banCountHit w₄.zone hit.cat (conf.mode == .block) :=
        hzone'.trans hlog.zone
      have hone : w'.acted = w.acted + 1 := by
        rw [hacted, hlog.acted, ← hreach.acted, ← hsame]
        rfl
      have hto : ∀ a, w'.zone.entryOf a = w₄.zone.entryOf a := by
        intro a
        rw [hlast]
        exact hwf₄.countHit_entryOf hit.cat _ a
      have hbans' : w'.zone.sh.bans = w₄.zone.sh.bans := by
        rw [hlast]
        exact banCountHit_bans w₄.zone hit.cat _
      cases hstrikes with
      | rests hrest hsame' =>
          rcases hrest with hrest | hnone
          · have hmore : w₄.acted + 1 = w₁.acted := hrest
            omega
          · refine .rests (.inr hnone) ?_
            intro a
            rw [hto a, ← congrFun hentries a]
            exact hsame' a
      | records b alloc reply hb hmore hchange hreply =>
          refine .records b alloc reply hb hone ?_ ?_
          · intro a
            rw [hto a, ← congrFun hentries a, ← hreach.now]
            exact hchange a
          · rw [hto b, hbans', ← hbans]
            exact hreply

/-! ## §2. Strikes.

A strike of an address is a turn that acts on a hit of its client, and leaves it an
entry.  To the entry of an address each turn comes to one call, or to none. -/

section Turns

variable {env : Env}

/-- The policy and the key of the location's `shield_ban`. -/
def Caller.ban (c : Caller env) : BanConf := c.conf.ban.get (Option.isSome_iff_ne_none.mpr c.shares)

/-- The address that the request stands for. -/
def Caller.key (c : Caller env) : Option Addr :=
  match banAddr c.env c.ban c.request with
  | .ok key => key
  | .error _ => none

theorem Caller.conf_ban (c : Caller env) : c.conf.ban = some c.ban := by simp [Caller.ban]

theorem Caller.banAddr_eq (c : Caller env) : banAddr c.env c.ban c.request = .ok c.key := by
  obtain ⟨key, hkey⟩ := banAddr_returns c.env c.ban c.request
  rw [Caller.key, hkey]

/-- When the turn is. -/
def ServerTurn.now (t : ServerTurn env) : Int := t.before.now

/-- The total of the bans moves. -/
def ServerTurn.arms (t : ServerTurn env) : Bool := t.after.zone.sh.bans ≠ t.before.zone.sh.bans

/-- **A strike of `a`**: a hit acted on in a request that `a` stands for, and recorded.
It has its time, and whether it armed a ban. -/
def ServerTurn.strike (a : Addr) (t : ServerTurn env) : Option (Int × Bool) :=
  if t.acted = 1 ∧ t.caller.key = some a ∧ (t.after.zone.entryOf a).isSome then
    some (t.now, t.arms)
  else none

/-- The strikes of `a` in a run. -/
def strikesIn (a : Addr) (turns : List (ServerTurn env)) : List (Int × Bool) :=
  turns.filterMap (ServerTurn.strike a)

/-- The ban that the turn arms for `a`: when, and for how long. -/
def ServerTurn.ban (a : Addr) (t : ServerTurn env) : Option (Int × Int) :=
  (t.strike a).bind fun h => if h.2 then some (h.1, t.caller.ban.pol.banTime) else none

/-- The bans armed for `a` in a run. -/
def bansIn (a : Addr) (turns : List (ServerTurn env)) : List (Int × Int) :=
  turns.filterMap (ServerTurn.ban a)

/-- The clock starts at `c` or later, does not run backwards and has not passed `c'` at
the end. -/
def Clocked : Int → List (ServerTurn env) → Int → Prop
  | c, [], c' => c ≤ c'
  | c, t :: turns, c' => c ≤ t.now ∧ Clocked t.now turns c'

/-- **The calls on the zone behind some turns**, as they go for `a`. -/
structure ZoneCalls (a : Addr) (turns : List (ServerTurn env)) (e : Option Entry)
    (evs : List (Op × Reply)) (e' : Option Entry) : Prop where
  life : Life a e evs e'
  strikes : hitsOf a evs = strikesIn a turns
  bans : evs.filterMap (armOf a) = bansIn a turns
  /-- At the clock, and under the policy, of a turn. -/
  made : ∀ ev ∈ evs, ∃ t ∈ turns, ev.1.clock = some t.now ∧ ev.1.under t.caller.ban.pol
  clock : ∀ c c', Clocked c turns c' → ClockRun c (evs.map fun ev => ev.1) c'

/-- What a turn does to the zone. -/
abbrev ServerTurn.Strikes (t : ServerTurn env) : Prop :=
  World.Strikes t.caller.ban.pol t.caller.key t.before t.after

/-- A turn without a strike of `a` that leaves its entry alone makes no call that shows. -/
theorem ServerTurn.zoneCalls_none {t : ServerTurn env} {a : Addr} (hstrike : t.strike a = none)
    (hentry : t.after.zone.entryOf a = t.before.zone.entryOf a) :
    ZoneCalls a [t] (t.before.zone.entryOf a) [] (t.after.zone.entryOf a) where
  life := by
    rw [hentry]
    exact .nil _
  strikes := by simp [strikesIn, hitsOf, hstrike]
  bans := by simp [bansIn, ServerTurn.ban, hstrike]
  made := by simp
  clock := by
    intro c c' h
    exact le_trans h.1 h.2

/-- A record for another address is no strike of `a`. -/
theorem hitOf_record_ne {a b : Addr} (hb : b ≠ a) (now : Int) (count : Nat) (window banTime : Int)
    (alloc : SlabAlloc) (r : Reply) :
    hitOf a (.record b now count window banTime alloc, r) = none
      ∧ armOf a (.record b now count window banTime alloc, r) = none := by
  cases r with
  | recorded armed => cases armed <;> simp [hitOf, armOf, hb]
  | _ => exact ⟨rfl, rfl⟩

/-- **A turn is one call on the zone, or none.** -/
theorem ServerTurn.Strikes.zoneCalls {t : ServerTurn env} (h : t.Strikes) (a : Addr) :
    ∃ evs, ZoneCalls a [t] (t.before.zone.entryOf a) evs (t.after.zone.entryOf a) := by
  cases h with
  | rests hacted hentries =>
      refine ⟨[], ServerTurn.zoneCalls_none ?_ (hentries a)⟩
      unfold ServerTurn.strike
      rw [if_neg]
      intro hstrike
      rcases hacted with hsame | hnone
      · have hone := hstrike.1
        unfold ServerTurn.acted at hone
        omega
      · rw [hnone] at hstrike
        cases hstrike.2.1
  | records b alloc r hkey hacted hchange hreply =>
      have hone : t.acted = 1 := by
        unfold ServerTurn.acted
        omega
      -- The record shows among the hits and bans of `a` where the turn is a strike of `a`.
      have hseen : hitOf a (.record b t.now t.caller.ban.pol.count t.caller.ban.pol.window
            t.caller.ban.pol.banTime alloc, r) = t.strike a
          ∧ armOf a (.record b t.now t.caller.ban.pol.count t.caller.ban.pol.window
            t.caller.ban.pol.banTime alloc, r) = t.ban a := by
        unfold ServerTurn.ban ServerTurn.strike
        by_cases hab : b = a
        · subst hab
          by_cases hstored : (t.after.zone.entryOf b).isSome = true
          · rw [hreply, if_pos hstored, if_pos ⟨hone, hkey, hstored⟩]
            show hitOf b (_, .recorded t.arms) = _ ∧ armOf b (_, .recorded t.arms) = _
            cases t.arms <;> simp [hitOf, armOf]
          · rw [hreply, if_neg hstored, if_neg fun h => hstored h.2.2]
            exact ⟨rfl, rfl⟩
        · obtain ⟨hhit, harm⟩ := hitOf_record_ne hab t.now t.caller.ban.pol.count
            t.caller.ban.pol.window t.caller.ban.pol.banTime alloc r
          have hother : ¬ (t.acted = 1 ∧ t.caller.key = some a
              ∧ (t.after.zone.entryOf a).isSome = true) := by
            intro h
            rw [hkey] at h
            exact hab (Option.some.inj h.2.1)
          rw [hhit, harm, if_neg hother]
          exact ⟨rfl, rfl⟩
      refine ⟨[_], .cons (hchange a) (.nil _), ?_, ?_, ?_, ?_⟩
      · show List.filterMap (hitOf a) [_] = List.filterMap (ServerTurn.strike a) [t]
        rw [List.filterMap_cons, List.filterMap_cons, ← hseen.1]
        rfl
      · show List.filterMap (armOf a) [_] = List.filterMap (ServerTurn.ban a) [t]
        rw [List.filterMap_cons, List.filterMap_cons, ← hseen.2]
        rfl
      · intro ev hev
        obtain rfl := List.mem_singleton.mp hev
        exact ⟨t, List.mem_singleton_self t, rfl, rfl, rfl, rfl⟩
      · intro c c' hclock
        exact hclock

/-! ## §3. Runs. -/

theorem Life.append {a : Addr} {e e₁ e' : Option Entry} {evs evs' : List (Op × Reply)}
    (h : Life a e evs e₁) (h' : Life a e₁ evs' e') : Life a e (evs ++ evs') e' := by
  induction h with
  | nil e => exact h'
  | cons hchange hrest ih => exact .cons hchange (ih h')

theorem ClockRun.earlier {ops : List Op} : ∀ {c₀ c c' : Int}, ClockRun c ops c' → c₀ ≤ c →
    ClockRun c₀ ops c' := by
  induction ops with
  | nil =>
      intro c₀ c c' h hle
      exact le_trans hle h
  | cons op ops ih =>
      intro c₀ c c' h hle
      obtain ⟨hclock, hrest⟩ := h
      cases hop : op.clock with
      | none =>
          rw [hop] at hrest
          refine ⟨?_, ?_⟩
          · rw [hop]
            exact le_refl c₀
          · rw [hop]
            exact ih hrest hle
      | some now =>
          rw [hop] at hclock hrest
          refine ⟨?_, ?_⟩
          · rw [hop]
            exact le_trans hle hclock
          · rw [hop]
            exact hrest

theorem ClockRun.then {ops ops' : List Op} : ∀ {c m c' : Int}, ClockRun c ops m →
    ClockRun m ops' c' → ClockRun c (ops ++ ops') c' := by
  induction ops with
  | nil =>
      intro c m c' h h'
      exact h'.earlier h
  | cons op ops ih =>
      intro c m c' h h'
      exact ⟨h.1, ih h.2 h'⟩

/-- The calls of one turn, and those of the turns behind it, are the calls of all of them. -/
theorem ZoneCalls.cons {a : Addr} {t : ServerTurn env} {turns : List (ServerTurn env)}
    {e e₁ e' : Option Entry} {evs evs' : List (Op × Reply)} (h : ZoneCalls a [t] e evs e₁)
    (h' : ZoneCalls a turns e₁ evs' e') : ZoneCalls a (t :: turns) e (evs ++ evs') e' where
  life := h.life.append h'.life
  strikes := by
    rw [hitsOf_append, h.strikes, h'.strikes]
    exact (List.filterMap_append (l := [t])).symm
  bans := by
    rw [List.filterMap_append, h.bans, h'.bans]
    exact (List.filterMap_append (l := [t])).symm
  made := by
    intro ev hev
    rcases List.mem_append.mp hev with hfirst | hrest
    · obtain ⟨t', ht', hmade⟩ := h.made ev hfirst
      exact ⟨t', List.mem_cons.mpr (.inl (List.mem_singleton.mp ht')), hmade⟩
    · obtain ⟨t', ht', hmade⟩ := h'.made ev hrest
      exact ⟨t', List.mem_cons_of_mem t ht', hmade⟩
  clock := by
    intro c c' hclock
    rw [List.map_append]
    exact (h.clock c t.now ⟨hclock.1, le_refl _⟩).then (h'.clock t.now c' hclock.2)

/-- **A turn of a server** does to the zone what a call of the module does. -/
theorem Server.Sound.strikes {s s' : Server env} {t : ServerTurn env} (h : s.Sound)
    (hstep : Server.Step env s t s') : t.Strikes := by
  obtain ⟨-, hadds⟩ := h.step hstep
  have hwf : ∃ ps, t.before.zone.Wf t.caller.env.hash ps := by
    rw [hadds.from_zone]
    exact h.wf
  exact (h.comes hstep).strikes t.caller.conf_ban t.caller.banAddr_eq hwf

theorem Server.Run.sound {s s' : Server env} {turns : List (ServerTurn env)}
    (hrun : Server.Run env s turns s') (hs : s.Sound) : s'.Sound := by
  induction hrun with
  | nil s => exact hs
  | cons hstep hrest ih => exact ih (hs.step hstep).1

/-- **Every run is a run of calls for `a`**, by induction over its turns. -/
theorem Server.Run.zoneCalls {s s' : Server env} {turns : List (ServerTurn env)}
    (hrun : Server.Run env s turns s') (hs : s.Sound) (a : Addr) :
    ∃ evs, ZoneCalls a turns (s.zone.entryOf a) evs (s'.zone.entryOf a) := by
  induction hrun with
  | nil s =>
      refine ⟨[], .nil _, rfl, rfl, by simp, ?_⟩
      intro c c' hclock
      exact hclock
  | cons hstep hrest ih =>
      obtain ⟨hs₁, hadds⟩ := hs.step hstep
      obtain ⟨evs', hcalls'⟩ := ih hs₁
      obtain ⟨evs, hcalls⟩ := (hs.strikes hstep).zoneCalls a
      rw [hadds.from_zone, hadds.to_zone] at hcalls
      exact ⟨evs ++ evs', hcalls.cons hcalls'⟩

theorem Server.Run.split {turns turns' : List (ServerTurn env)} : ∀ {s s' : Server env},
    Server.Run env s (turns ++ turns') s' →
    ∃ s₁, Server.Run env s turns s₁ ∧ Server.Run env s₁ turns' s' := by
  induction turns with
  | nil =>
      intro s s' h
      exact ⟨s, .nil s, h⟩
  | cons t turns ih =>
      intro s s' h
      cases h with
      | cons hstep hrest =>
          obtain ⟨s₁, hfirst, hlast⟩ := ih hrest
          exact ⟨s₁, .cons hstep hfirst, hlast⟩

theorem Clocked.split {turns turns' : List (ServerTurn env)} : ∀ {c c' : Int},
    Clocked c (turns ++ turns') c' → ∃ m, Clocked c turns m ∧ Clocked m turns' c' := by
  induction turns with
  | nil =>
      intro c c' h
      exact ⟨c, le_refl c, h⟩
  | cons t turns ih =>
      intro c c' h
      obtain ⟨m, hfirst, hlast⟩ := ih h.2
      exact ⟨m, ⟨h.1, hfirst⟩, hlast⟩

/-! ## §4. Who is turned away. -/

/-- The calls of a run leave the last ban armed in force. -/
theorem Life.governed {a : Addr} {e e' : Option Entry} {evs : List (Op × Reply)}
    (h : Life a e evs e') : ∀ {c c' : Int} {arms : List (Int × Int)},
      ClockRun c (evs.map fun ev => ev.1) c' → Governed c arms e →
      Governed c' (arms ++ evs.filterMap (armOf a)) e' := by
  induction h with
  | nil e =>
      intro c c' arms hclock hgoverned
      rw [List.filterMap_nil, List.append_nil]
      exact hgoverned.tick hclock
  | @cons op r e e₁ e' evs hchange hrest ih =>
      intro c c' arms hclock hgoverned
      have hnext := ih hclock.2 (hgoverned.change hchange hclock.1)
      have harms : (armOf a (op, r)).toList ++ evs.filterMap (armOf a)
          = ((op, r) :: evs).filterMap (armOf a) := by
        rw [List.filterMap_cons]
        cases armOf a (op, r) <;> rfl
      rw [← harms, ← List.append_assoc]
      exact hnext

/-- The first entry of a main request in a location that is on. -/
def ServerTurn.Enters (t : ServerTurn env) : Prop :=
  t.caller.request.isMain = true ∧ t.caller.conf.mode ≠ .off ∧ t.before.ctx = none

/-- The client of a turn is cut off by the entry of its address. -/
theorem ServerTurn.cutsOff_iff (t : ServerTurn env) :
    t.CutsOff ↔ t.Enters ∧ ∃ a, t.caller.key = some a
      ∧ ∃ x, t.before.zone.entryOf a = some x ∧ t.now < x.bannedUntil := by
  constructor
  · intro h
    obtain ⟨hmain, hmode, hctx, ban, a, x, hban, hkey, hentry, hlt⟩ := h
    obtain rfl : t.caller.ban = ban := Option.some.inj (t.caller.conf_ban.symm.trans hban)
    rw [t.caller.banAddr_eq] at hkey
    exact ⟨⟨hmain, hmode, hctx⟩, a, Except.ok.inj hkey, x, hentry, hlt⟩
  · intro h
    obtain ⟨⟨hmain, hmode, hctx⟩, a, hkey, x, hentry, hlt⟩ := h
    refine ⟨hmain, hmode, hctx, t.caller.ban, a, x, t.caller.conf_ban, ?_, hentry, hlt⟩
    rw [t.caller.banAddr_eq, hkey]

/-- A client that is cut off gets the status of the location, and nothing else happens. -/
theorem handler_cut {env : Env} {conf : LocConf} {r : Request} {w : World}
    (hcut : CutOff env conf r w) (hzone : ∃ ps, w.zone.Wf env.hash ps) :
    ∃ w', handler env conf r w = .ok (conf.status, w') ∧ w' = w.setZone w'.zone
      ∧ w'.zone.entryOf = w.zone.entryOf := by
  obtain ⟨hmain, hmode, hctx, hbanned⟩ := hcut
  obtain ⟨banned, zone, hcheck, hiff, -⟩ := checkBan_eq env conf r hzone
  obtain rfl : banned = true := hiff.mpr hbanned
  have hreach : w.Reaches env conf r (w.setZone zone) := ⟨rfl, rfl, rfl, .inr ⟨true, hcheck⟩⟩
  refine ⟨w.setZone zone, ?_, rfl, (hreach.keeps hzone).1⟩
  unfold handler
  rw [if_neg (by simp [hmain]), if_neg hmode]
  simp only [hctx, hcheck, ok_bind, if_true]
  rfl

/-- **Cut off**: the turn is answered with the status, and leaves all but the order of
the zone as it was. -/
theorem Server.Sound.cut {s s' : Server env} {t : ServerTurn env} (h : s.Sound)
    (hstep : Server.Step env s t s') (hcut : t.CutsOff) :
    t.verdict = t.caller.conf.status ∧ t.after = t.before.setZone t.after.zone
      ∧ t.after.zone.entryOf = t.before.zone.entryOf := by
  cases hstep with
  | @enter i c now rc w hfree hrun =>
      obtain ⟨w', hrun', hworld, hentries⟩ := handler_cut hcut h.wf
      obtain ⟨rfl, rfl⟩ : rc = c.conf.status ∧ w = w' :=
        Prod.ext_iff.mp (Except.ok.inj (hrun.symm.trans hrun'))
      exact ⟨rfl, hworld, hentries⟩
  | @resume i c w w₁ w₂ rc a hwait harrival hzone hbody hrun =>
      -- a request that waited has a context
      obtain ⟨-, -, hctx⟩ := h.waits i c w hwait
      have hnone : w.ctx = none := hcut.2.2.1
      rw [hnone] at hctx
      cases hctx

/-- **Who is turned away.**  In every run of the server, whichever locations with whatever
policies the requests come to, whatever calls fail and whatever waits for a body, a request
is cut off exactly if it is a main request at its first entry into a location that is on,
and the last ban armed for its client, by the policy it was armed under, has not run out.
Then it is answered with the location's status, not scanned, counted, recorded or logged. -/
theorem server_bans (env : Env) (garbage : Shctx) (before : List (ServerTurn env))
    (s s' : Server env) (t : ServerTurn env)
    (hrun : Server.Run env (Server.start env garbage) before s) (hstep : Server.Step env s t s')
    (hclock : Clocked 0 before t.now) :
    (t.CutsOff ↔ t.Enters ∧ ∃ a, t.caller.key = some a ∧ LastRuns (bansIn a before) t.now)
      ∧ (t.CutsOff → t.verdict = t.caller.conf.status
        ∧ t.after = t.before.setZone t.after.zone
        ∧ t.after.zone.entryOf = t.before.zone.entryOf) := by
  have hs := hrun.sound (Server.start_sound garbage)
  have hfrom : t.before.zone = s.zone := (hs.step hstep).2.from_zone
  have hgoverned : ∀ a, Governed t.now (bansIn a before) (s.zone.entryOf a) := by
    intro a
    obtain ⟨evs, hcalls⟩ := hrun.zoneCalls (Server.start_sound garbage) a
    have hlast := hcalls.life.governed (hcalls.clock 0 t.now hclock) (governed_none (le_refl 0))
    rw [hcalls.bans] at hlast
    exact hlast
  constructor
  · rw [t.cutsOff_iff, hfrom]
    constructor
    · intro h
      obtain ⟨henters, a, hkey, hbanned⟩ := h
      exact ⟨henters, a, hkey, ((hgoverned a).exact t.now (le_refl _)).mp hbanned⟩
    · intro h
      obtain ⟨henters, a, hkey, hlast⟩ := h
      exact ⟨henters, a, hkey, ((hgoverned a).exact t.now (le_refl _)).mpr hlast⟩
  · exact hs.cut hstep

end Turns

/-! ## §5. A client that persists. -/

/-- A body that can be read is not answered with the status of the location. -/
theorem attacker_own_status (A : Automata) :
    (envReading A).body.rc ≠ (attacker A).conf.status := (attacker A).own_status

/-- A client that strikes twice is banned for five seconds. -/
def persister (A : Automata) : Caller (envReading A) where
  conf := { (attacker A).conf with ban := some { banning with pol := twoHits } }
  request := (attacker A).request
  granted := fun _ => true
  readFile := fun _ => 1
  slab := fun _ => .block 0 staleNode
  body := (envReading A).body
  shares := Option.some_ne_none _
  own_status := attacker_own_status A

theorem persister_struck (A : Automata) (w : World) :
    inspectPrebody (persister A).env (persister A).conf (persister A).request w
      = .ok (.ok (structuralHit .httpoxy "httpoxy" "header"), w) := attacker_struck A w

/-- A request of the persister that is not banned is denied for its hit. -/
theorem persister_acts (A : Automata) {w w₁ : World} (hctx : w.ctx = none)
    (hcheck : checkBan (persister A).env (persister A).conf (persister A).request w
      = .ok (false, w₁)) :
    handler (persister A).env (persister A).conf (persister A).request w
      = act (persister A).env (persister A).conf (persister A).request
          (structuralHit .httpoxy "httpoxy" "header") w₁ := by
  unfold handler
  rw [if_neg (show ¬ ¬ (persister A).request.isMain = true from not_not.mpr rfl),
    if_neg (show ¬ (persister A).conf.mode = .off from fun h => by cases h)]
  simp only [hctx, hcheck, ok_bind]
  show (inspectPrebody _ _ _ w₁ >>= _) = _
  rw [persister_struck, ok_bind]

/-- The persister strikes twice, and its second strike arms a ban. -/
theorem persister_banned (A : Automata) :
    ∃ w w', handler (persister A).env (persister A).conf (persister A).request
        (.arrive (banInitZone staleShctx) 0) = .ok (403, w)
      ∧ handler (persister A).env (persister A).conf (persister A).request (.arrive w.zone 2)
        = .ok (403, w')
      ∧ (w.acted = 1 ∧ (w.zone.entryOf (client 1)).isSome = true ∧ w.zone.sh.bans = 0)
      ∧ w'.acted = 1 ∧ (w'.zone.entryOf (client 1)).isSome = true ∧ w'.zone.sh.bans = 1 :=
  ⟨_, _, (persister_acts A rfl rfl).trans rfl, (persister_acts A rfl rfl).trans rfl,
    ⟨rfl, rfl, rfl⟩, rfl, rfl, rfl⟩

/-- The run of the two requests of the persister. -/
theorem persister_run (A : Automata) :
    ∃ t₁ t₂ s, Server.Run (envReading A) (Server.start (envReading A) staleShctx) [t₁, t₂] s
      ∧ s.waiting 2 = none
      ∧ (t₁.caller = persister A ∧ t₁.now = 0 ∧ t₁.strike (client 1) = some (0, false))
      ∧ t₂.caller = persister A ∧ t₂.now = 2 ∧ t₂.strike (client 1) = some (2, true) := by
  obtain ⟨w, w', hfirst, hsecond, ⟨hacted, hstored, hbans⟩, hacted', hstored', hbans'⟩ :=
    persister_banned A
  let t₁ : ServerTurn (envReading A) :=
    ⟨persister A, .arrive (banInitZone staleShctx) 0, 403, w⟩
  let t₂ : ServerTurn (envReading A) := ⟨persister A, .arrive w.zone 2, 403, w'⟩
  have harms₁ : t₁.arms = false := by
    show decide (w.zone.sh.bans ≠ (banInitZone staleShctx).sh.bans) = false
    rw [hbans]
    rfl
  have harms₂ : t₂.arms = true := by
    show decide (w'.zone.sh.bans ≠ w.zone.sh.bans) = true
    rw [hbans, hbans']
    rfl
  refine ⟨t₁, t₂, _, .cons (.enter 0 (persister A) 0 rfl hfirst)
    (.cons (.enter 1 (persister A) 2 rfl hsecond) (.nil _)), rfl, ⟨rfl, rfl, ?_⟩, rfl, rfl, ?_⟩
  · unfold ServerTurn.strike
    rw [if_pos ⟨hacted, rfl, hstored⟩, harms₁]
    rfl
  · unfold ServerTurn.strike
    rw [if_pos ⟨hacted', rfl, hstored'⟩, harms₂]
    rfl

/-- A third request, while the ban runs, is turned away. -/
theorem server_bans_persister :
    ∃ A before s t s', shieldInit AcAllocs.granted AcAllocs.granted true = .ok (some A)
      ∧ Server.Run (envReading A) (Server.start (envReading A) staleShctx) before s
      ∧ Server.Step (envReading A) s t s' ∧ t.CutsOff ∧ t.verdict = 403 := by
  obtain ⟨A, hA⟩ := shieldInit_granted
  obtain ⟨t₁, t₂, s, hrun, hfree, ⟨hcaller₁, hnow₁, hstrike₁⟩, hcaller₂, hnow₂, hstrike₂⟩ :=
    persister_run A
  obtain ⟨rc, w, hthird, -⟩ := @handler_comes (persister A).env (persister A).conf
    (persister A).request (.arrive s.zone 4) rfl (hrun.sound (Server.start_sound staleShctx)).wf
  have hstep := Server.Step.enter 2 (persister A) 4 hfree hthird
  have hclock : Clocked 0 [t₁, t₂] 4 := by
    show 0 ≤ t₁.now ∧ t₁.now ≤ t₂.now ∧ t₂.now ≤ 4
    rw [hnow₁, hnow₂]
    decide
  have hbans : bansIn (client 1) [t₁, t₂] = [(2, 5)] := by
    simp [bansIn, ServerTurn.ban, hstrike₁, hstrike₂, hcaller₂]
    rfl
  obtain ⟨hiff, hcut⟩ := server_bans (envReading A) staleShctx [t₁, t₂] s _ _ hrun hstep hclock
  have hon : (persister A).conf.mode ≠ .off := show ShieldMode.block ≠ .off by decide
  have hruns : LastRuns (bansIn (client 1) [t₁, t₂]) 4 := by
    rw [hbans]
    exact ⟨(2, 5), rfl, by decide⟩
  have hcuts := hiff.mpr ⟨⟨rfl, hon, rfl⟩, client 1, rfl, hruns⟩
  exact ⟨A, _, s, _, _, hA, hrun, hstep, hcuts, (hcut hcuts).1⟩

/-! ## §6. Under one policy. -/

section Bursts

variable {env : Env}

/-- A strike is a hit of the entry. -/
theorem ServerTurn.Strikes.hit {t : ServerTurn env} (h : t.Strikes) {a : Addr} {t₁ : Int}
    {b : Bool} (hstrike : t.strike a = some (t₁, b)) :
    t₁ = t.now
      ∧ b = (((t.before.zone.entryOf a).getD (Entry.fresh t.now)).hit t.now
          t.caller.ban.pol.count t.caller.ban.pol.window t.caller.ban.pol.banTime).2
      ∧ t.after.zone.entryOf a
        = some (((t.before.zone.entryOf a).getD (Entry.fresh t.now)).hit t.now
          t.caller.ban.pol.count t.caller.ban.pol.window t.caller.ban.pol.banTime).1 := by
  unfold ServerTurn.strike at hstrike
  by_cases hthis : t.acted = 1 ∧ t.caller.key = some a ∧ (t.after.zone.entryOf a).isSome = true
  · rw [if_pos hthis] at hstrike
    obtain ⟨rfl, rfl⟩ : t.now = t₁ ∧ t.arms = b := by simpa using hstrike
    obtain ⟨hone, hkey, hstored⟩ := hthis
    cases h with
    | rests hacted hentries =>
        rcases hacted with hsame | hnone
        · unfold ServerTurn.acted at hone
          omega
        · rw [hnone] at hkey
          cases hkey
    | records b' alloc r hkey' hacted hchange hreply =>
        obtain rfl : b' = a := Option.some.inj (hkey'.symm.trans hkey)
        rw [if_pos hstored] at hreply
        rcases (hchange b').record_self with ⟨-, -, hnone⟩ | ⟨hr, hentry⟩
        · rw [hnone] at hstored
          cases hstored
        · refine ⟨rfl, ?_, hentry⟩
          exact Reply.recorded.inj (hreply.symm.trans hr)
  · rw [if_neg hthis] at hstrike
    cases hstrike

/-- **A burst**: turns with `count` strikes of `a` in them, the first of which is at `t₁`,
at a clock that stays inside the window and short of the largest value; no earlier strike is
in the window before, and no ban is running. -/
structure StrikeBurst (pol : Policy) (a : Addr) (pre burst : List (ServerTurn env)) (t₁ c' : Int) :
    Prop where
  first : ∃ t rest b, burst = t :: rest ∧ t.strike a = some (t₁, b)
  count : (strikesIn a burst).length = pol.count
  within : c' < t₁ + pol.window
  early : c' < timeMax
  quiet : ∀ h ∈ strikesIn a pre, h.1 + pol.window ≤ t₁
  free : ¬ ∃ t₀, (t₀, true) ∈ strikesIn a pre ∧ t₁ < min (t₀ + pol.banTime) timeMax

theorem Clocked.le {turns : List (ServerTurn env)} : ∀ {c c' : Int}, Clocked c turns c' →
    c ≤ c' ∧ ∀ t ∈ turns, t.now ≤ c' := by
  induction turns with
  | nil =>
      intro c c' h
      exact ⟨h, by simp⟩
  | cons t turns ih =>
      intro c c' h
      obtain ⟨hle, hall⟩ := ih h.2
      refine ⟨le_trans h.1 hle, ?_⟩
      intro t' ht'
      rcases List.mem_cons.mp ht' with rfl | ht'
      · exact hle
      · exact hall t' ht'

/-- The calls behind turns of one policy are a timeline of each address. -/
theorem ZoneCalls.timeline {a : Addr} {turns : List (ServerTurn env)} {e e' : Option Entry}
    {evs : List (Op × Reply)} (h : ZoneCalls a turns e evs e') {pol : Policy}
    (hpol : ∀ t ∈ turns, t.caller.ban.pol = pol) {c c' : Int} (hclock : Clocked c turns c')
    (sweeps : Int → Prop) (hsweeps : ∀ t ∈ turns, sweeps t.now) :
    Timeline pol sweeps c e (strikesIn a turns) c' e' := by
  rw [← h.strikes]
  refine h.life.timeline c c' ?_ (h.clock c c' hclock) ?_
  · intro ev hev
    obtain ⟨t, ht, -, hunder⟩ := h.made ev hev
    rw [← hpol t ht]
    exact hunder
  · intro ev hev _ now w hsweep
    obtain ⟨t, ht, hnow, -⟩ := h.made ev hev
    rw [Op.clock_of_sweep hsweep] at hnow
    obtain rfl := Option.some.inj hnow
    exact hsweeps t ht

/-- **A burst arms on its last strike**, and not before. -/
theorem StrikeBurst.arms {pol : Policy} {a : Addr} {pre burst : List (ServerTurn env)}
    {t₁ c' : Int} (h : StrikeBurst pol a pre burst t₁ c') {s s' : Server env} (hs : s.Sound)
    (hrun : Server.Run env s burst s') (hpol : ∀ t ∈ burst, t.caller.ban.pol = pol) {c : Int}
    (hclock : Clocked c burst c') (hcounted : Counted pol (strikesIn a pre) (s.zone.entryOf a))
    (henforced : Enforced pol c (strikesIn a pre) (s.zone.entryOf a)) :
    (strikesIn a burst).map (fun v => v.2) = List.replicate (pol.count - 1) false ++ [true] := by
  obtain ⟨t, rest, b, rfl, hstrike⟩ := h.first
  cases hrun with
  | @cons _ s₁ _ _ _ hstep hrest =>
      obtain ⟨hs₁, hadds⟩ := hs.step hstep
      obtain ⟨rfl, hb, hentry⟩ := (hs.strikes hstep).hit hstrike
      rw [hpol t List.mem_cons_self, hadds.from_zone] at hb hentry
      rw [hadds.to_zone] at hentry
      -- the rest of the burst goes on from the first strike
      obtain ⟨evs, hcalls⟩ := hrest.zoneCalls hs₁ a
      rw [hentry] at hcalls
      have hearly : ∀ t' ∈ rest, t'.now < timeMax := by
        intro t' ht'
        exact lt_of_le_of_lt (hclock.2.le.2 t' ht') h.early
      have hline := hcalls.timeline (fun t' ht' => hpol t' (List.mem_cons_of_mem t ht')) hclock.2
        (fun now => now < timeMax) hearly
      have hstrikes : strikesIn a (t :: rest) = (t.now, b) :: strikesIn a rest :=
        List.filterMap_cons_some hstrike
      have hcount := h.count
      rw [hstrikes] at hcount ⊢
      refine hline.burst_first hb hcounted.below ?_ ?_ h.within (by simpa using hcount)
      · -- no ban is running
        intro x hx
        by_contra hlt
        have hrunning := (henforced.exact t.now hclock.1).mp ⟨x, hx, not_le.mp hlt⟩
        simp only [timeAddClamp_eq_min] at hrunning
        exact h.free hrunning
      · -- the window of the earlier strikes is over
        intro x hx
        obtain ⟨v, hv, hle⟩ := hcounted.start x hx
        have hover := h.quiet v (List.mem_of_getLast? hv)
        omega

/-- A fresh segment has counted nothing. -/
theorem counted_empty (pol : Policy) : Counted pol [] none where
  arms := by simp
  below := by simp
  hits := by simp
  start := by simp

/-- **Bans are armed neither wrongly nor late**: where all locations have one policy, in
every run of the server each ban of an address is armed on `count` strikes of its own, all of
them inside one window and none of them counted before, and a burst of `count` strikes arms
on its last one. -/
theorem server_arms (env : Env) (pol : Policy) (garbage : Shctx) (pre burst : List (ServerTurn env))
    (s : Server env) (hrun : Server.Run env (Server.start env garbage) (pre ++ burst) s)
    (hpol : ∀ t ∈ pre ++ burst, t.caller.ban.pol = pol) (c : Int)
    (hclock : Clocked 0 (pre ++ burst) c) (a : Addr) :
    ArmsSound pol (strikesIn a (pre ++ burst))
      ∧ ∀ t₁, StrikeBurst pol a pre burst t₁ c →
        (strikesIn a burst).map (fun v => v.2)
          = List.replicate (pol.count - 1) false ++ [true] := by
  have hfresh : Counted pol [] ((Server.start env garbage).zone.entryOf a) := counted_empty pol
  constructor
  · obtain ⟨evs, hcalls⟩ := hrun.zoneCalls (Server.start_sound garbage) a
    have hline := hcalls.timeline hpol hclock (fun _ => True) (fun _ _ => trivial)
    exact (hline.counted [] hfresh).armsSound
  · intro t₁ hburst
    obtain ⟨s₁, hpre, hlast⟩ := hrun.split
    obtain ⟨m, hclock₁, hclock₂⟩ := hclock.split
    obtain ⟨evs, hcalls⟩ := hpre.zoneCalls (Server.start_sound garbage) a
    have hline := hcalls.timeline (fun t ht => hpol t (List.mem_append_left _ ht)) hclock₁
      (fun _ => True) (fun _ _ => trivial)
    exact hburst.arms (hpre.sound (Server.start_sound garbage)) hlast
      (fun t ht => hpol t (List.mem_append_right _ ht)) hclock₂ (hline.counted [] hfresh)
      (hline.enforced [] (enforced_empty pol))

end Bursts

/-- The two requests of the persister are a burst, so the second arms a ban. -/
theorem server_arms_persister :
    ∃ A t₁ t₂ s, shieldInit AcAllocs.granted AcAllocs.granted true = .ok (some A)
      ∧ Server.Run (envReading A) (Server.start (envReading A) staleShctx) [t₁, t₂] s
      ∧ ArmsSound twoHits (strikesIn (client 1) [t₁, t₂])
      ∧ (strikesIn (client 1) [t₁, t₂]).map (fun v => v.2) = [false, true] := by
  obtain ⟨A, hA⟩ := shieldInit_granted
  obtain ⟨t₁, t₂, s, hrun, -, ⟨hcaller₁, hnow₁, hstrike₁⟩, hcaller₂, hnow₂, hstrike₂⟩ :=
    persister_run A
  have hpol : ∀ t ∈ [] ++ [t₁, t₂], t.caller.ban.pol = twoHits := by
    intro t ht
    have hcaller : t.caller = persister A := by
      rcases List.mem_cons.mp ht with rfl | ht
      · exact hcaller₁
      · obtain rfl := List.mem_singleton.mp ht
        exact hcaller₂
    rw [hcaller]
    rfl
  have hclock : Clocked 0 ([] ++ [t₁, t₂]) 2 := by
    show 0 ≤ t₁.now ∧ t₁.now ≤ t₂.now ∧ t₂.now ≤ 2
    rw [hnow₁, hnow₂]
    decide
  obtain ⟨hsound, hburst⟩ :=
    server_arms (envReading A) twoHits staleShctx [] [t₁, t₂] s hrun hpol 2 hclock (client 1)
  exact ⟨A, t₁, t₂, s, hA, hrun, hsound, hburst 0
    { first := ⟨t₁, [t₂], false, rfl, hstrike₁⟩
      count := by simp [strikesIn, hstrike₁, hstrike₂, twoHits]
      within := by decide
      early := by decide
      quiet := by simp [strikesIn]
      free := by simp [strikesIn] }⟩

end HttpShield
