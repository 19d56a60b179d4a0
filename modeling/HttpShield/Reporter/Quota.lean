/-
  HttpShield.Reporter.Quota
  ─────────────────────────
  Runs of `process_line`, in one process after the other: what the suppressor knows is
  saved with every report that is accepted, and loaded by the next process.

    • `step_knows`    — what is true of all that the suppressor knows stays true,
    • `daily_quota`   — no day has more reports than the cap,
    • `reports_apart` — reports of one address are a window apart, unless a new day clears
                        the addresses too early.
-/
import HttpShield.Reporter.Suppress

namespace HttpShield

open JsonText (Text)

/-! ## §1. Runs. -/

/-- The limits, the state file, the process if there is one, and the clock. -/
structure Quota where
  windowS : Int
  dailyCap : Int
  saved : Option SavedReports
  proc : Option (Suppressor × Reporter)
  clock : Int

/-- The turns of a run: a start of the process, or a call. -/
inductive Turn where
  /-- A process takes over from the last one. -/
  | start (dryRun : Bool)
  | call (line : Text) (answer : Answer) (now : Int)

/-- A report that was accepted: its address, and when. -/
abbrev Accepted := Text × Int

/-- A turn, where it is possible, with the report that was accepted in it. -/
def Quota.step (lib : Library) (q : Quota) : Turn → Option (Quota × List Accepted)
  | .start dryRun =>
      some ({ q with proc := some (.load q.windowS q.dailyCap q.saved, .fresh dryRun) }, [])
  | .call line answer now =>
      match q.proc with
      | none => none
      | some (sup, rep) =>
          if q.clock ≤ now then
            let p := sup.processLine lib rep line answer now
            some ({ q with
                saved := if p.recorded.isSome then some p.sup.save else q.saved
                -- an exception ends the process
                proc := p.result.map fun _ => (p.sup, p.reporter)
                clock := now },
              p.accepted.toList.map (·, now))
          else none

/-- Turns one after the other, with the reports that were accepted. -/
def Quota.run (lib : Library) (q : Quota) : List Turn → Option (Quota × List Accepted)
  | [] => some (q, [])
  | turn :: rest => do
      let (q, reports) ← q.step lib turn
      let (q, more) ← q.run lib rest
      return (q, reports ++ more)

/-- The suppressor was never started: there is no state file, and no process. -/
structure Quota.Unused (q : Quota) : Prop where
  saved : q.saved = none
  proc : q.proc = none

/-! ## §2. Days and their reports. -/

/-- The number of reports on a day, as `datetime` has it. -/
def reportsOn (day : Int) (reports : List Accepted) : Nat :=
  (reports.filter fun r => utcDay r.2 = some day).length

theorem reportsOn_append (day : Int) (reports more : List Accepted) :
    reportsOn day (reports ++ more) = reportsOn day reports + reportsOn day more := by
  unfold reportsOn
  rw [List.filter_append, List.length_append]

/-- Rounding half to even keeps the order. -/
theorem roundHalfEven_mono {a a' : Int} {b : Nat} (hpos : 0 < b) (hle : a ≤ a') :
    roundHalfEven a b ≤ roundHalfEven a' b := by
  have hquot : a / b ≤ a' / b := Int.ediv_le_ediv (by omega) hle
  have hdiv := Int.mul_ediv_add_emod a b
  have hdiv' := Int.mul_ediv_add_emod a' b
  unfold roundHalfEven
  rcases Int.lt_or_eq_of_le hquot with hless | hsame
  · -- the smaller one is rounded up to the other's quotient at most
    split_ifs <;> omega
  · -- of two with one quotient the remainders decide
    rw [← hsame] at hdiv' ⊢
    split_ifs <;> omega

/-- The day of a later time is no earlier one. -/
theorem utcDay_mono {now now' day day' : Int} (hle : now ≤ now') (h : utcDay now = some day)
    (h' : utcDay now' = some day') : day ≤ day' := by
  have hround : roundHalfEven (now * 1000000) second ≤ roundHalfEven (now' * 1000000) second :=
    roundHalfEven_mono second_pos (Int.mul_le_mul_of_nonneg_right hle (by decide))
  unfold utcDay at h h'
  dsimp only at h h'
  split_ifs at h h'
  cases h
  cases h'
  exact Int.ediv_le_ediv (by decide) hround

/-- A call in a run is one of the process, and leaves what `process_line` does. -/
theorem call_cases {lib : Library} {q q' : Quota} {line : Text} {answer : Answer} {now : Int}
    {reports : List Accepted} (h : q.step lib (.call line answer now) = some (q', reports)) :
    ∃ sup rep, q.proc = some (sup, rep) ∧ q.clock ≤ now
      ∧ q' = { q with
          saved := if (sup.processLine lib rep line answer now).recorded.isSome then
            some (sup.processLine lib rep line answer now).sup.save else q.saved
          proc := (sup.processLine lib rep line answer now).result.map fun _ =>
            ((sup.processLine lib rep line answer now).sup,
              (sup.processLine lib rep line answer now).reporter)
          clock := now }
      ∧ reports = (sup.processLine lib rep line answer now).accepted.toList.map (·, now) := by
  unfold Quota.step at h
  dsimp only at h
  cases hproc : q.proc with
  | none =>
      rw [hproc] at h
      cases h
  | some pair =>
      rw [hproc] at h
      dsimp only at h
      by_cases hclock : q.clock ≤ now
      · rw [if_pos hclock] at h
        cases h
        exact ⟨pair.1, pair.2, rfl, hclock, rfl, rfl⟩
      · rw [if_neg hclock] at h
        cases h

/-! ## §3. What a call leaves. -/

/-- What a call leaves behind: nothing, a new day, or a report on it. -/
inductive Effect (lib : Library) (sup : Suppressor) (line : Text) (now : Int) : Processed → Prop where
  | none (p : Processed) (haccepted : p.accepted = none) (hrecorded : p.recorded = none)
      (hsup : p.sup = sup) : Effect lib sup line now p
  | rolled (p : Processed) (today : Int) (hday : utcDay now = some today)
      (hip : lineIp lib line ≠ none) (haccepted : p.accepted = none) (hrecorded : p.recorded = none)
      (hsup : p.sup = sup.rolled today) : Effect lib sup line now p
  | reported (p : Processed) (today : Int) (ip : Text) (hday : utcDay now = some today)
      (hip : lineIp lib line ≠ none) (hallows : (sup.rolled today).Allows ip now)
      (haccepted : p.accepted = some ip) (hrecorded : p.recorded = some ip)
      (hsup : p.sup = (sup.rolled today).reported ip now) : Effect lib sup line now p

/-- At a time that is no date, `allow` raises. -/
theorem processLine_no_day (lib : Library) (sup : Suppressor) (rep : Reporter) (line : Text)
    (answer : Answer) {now : Int} (hday : utcDay now = none) :
    (sup.processLine lib rep line answer now).report = none
      ∧ (sup.processLine lib rep line answer now).recorded = none
      ∧ (sup.processLine lib rep line answer now).sup = sup := by
  have hallow : ∀ ip, sup.allow ip now = none := by
    intro ip
    unfold Suppressor.allow Suppressor.rollDay
    rw [hday]
    rfl
  unfold Suppressor.processLine
  dsimp only
  by_cases hempty : strip line = []
  · rw [if_pos hempty]
    exact ⟨rfl, rfl, rfl⟩
  · rw [if_neg hempty]
    cases lib.loads (strip line) with
    | none => exact ⟨rfl, rfl, rfl⟩
    | some v =>
        cases v with
        | obj entry =>
            dsimp only
            rw [hallow]
            split_ifs
            · exact ⟨rfl, rfl, rfl⟩
            · exact ⟨rfl, rfl, rfl⟩
        | _ => exact ⟨rfl, rfl, rfl⟩

theorem processLine_effect (lib : Library) (sup : Suppressor) (rep : Reporter) (line : Text)
    (answer : Answer) (now : Int) :
    Effect lib sup line now (sup.processLine lib rep line answer now) := by
  cases hday : utcDay now with
  | none =>
      obtain ⟨hreport, hrecorded, hsup⟩ := processLine_no_day lib sup rep line answer hday
      refine .none _ ?_ hrecorded hsup
      unfold Processed.accepted
      rw [hreport]
  | some today =>
      have hends := sup.processLine_ends lib rep line answer hday
      generalize sup.processLine lib rep line answer now = p at hends ⊢
      cases hends with
      | raised h => exact .none _ rfl rfl rfl
      | skipped h hip => exact .none _ rfl rfl rfl
      | suppressed h ip hip hnot => exact .rolled _ today hday (by simp [hip]) rfl rfl rfl
      | reported h ip hip hallows payload rep' hpayload =>
          refine .reported _ today ip hday (by simp [hip]) hallows ?_ rfl rfl
          show some payload.ip = some ip
          rw [hpayload]
      | dropped h ip hip payload rep' => exact .rolled _ today hday (by simp [hip]) rfl rfl rfl
      | failed h ip hip payload rep' => exact .rolled _ today hday (by simp [hip]) rfl rfl rfl

/-! ## §4. What the suppressor knows, over runs.

What the suppressor knows is in its state file and, while a process runs, in the memory
of the process.  A property that lasts holds of both in every run. -/

/-- What the suppressor knows without a state file: no day, and no report. -/
def SavedReports.none : SavedReports where
  day := Option.none
  count := 0
  last := fun _ => Option.none

theorem load_save (windowS dailyCap : Int) (saved : Option SavedReports) :
    (Suppressor.load windowS dailyCap saved).save = saved.getD .none := by
  cases saved with
  | none => rfl
  | some s => rfl

section Runs

variable (ok : Suppressor → Int → Int → Prop) (inv : SavedReports → List Accepted → Int → Prop)

/-- The suppressor satisfies `ok` where the turn comes to ask it about an address. -/
def Quota.Meets (lib : Library) (q : Quota) : Turn → Prop
  | .start _ => True
  | .call line _ now => ∀ sup rep today, q.proc = some (sup, rep) → utcDay now = some today →
      lineIp lib line ≠ none → ok sup now today

/-- The suppressor satisfies `ok` wherever one of the turns comes to ask it about an address. -/
def Quota.AllMeet (lib : Library) (q : Quota) : List Turn → Prop
  | [] => True
  | turn :: rest => q.Meets ok lib turn
      ∧ ∀ q' reports, q.step lib turn = some (q', reports) → q'.AllMeet lib rest

/-- `inv` holds without reports, and stays true with time, with a new day,
and with an allowed report. -/
structure Lasting (windowS dailyCap : Int) : Prop where
  none : ∀ clock, inv .none [] clock
  later : ∀ s reports clock now, inv s reports clock → clock ≤ now → inv s reports now
  rolled : ∀ (sup : Suppressor) reports now today, sup.windowS = windowS →
    inv sup.save reports now → utcDay now = some today → ok sup now today →
    inv (sup.rolled today).save reports now
  reported : ∀ (sup : Suppressor) reports ip now today, sup.windowS = windowS →
    sup.dailyCap = dailyCap → inv sup.save reports now → utcDay now = some today →
    sup.day = some today → sup.Allows ip now →
    inv (sup.reported ip now).save (reports ++ [(ip, now)]) now

/-- The reports so far satisfy `inv` with what the state file holds and
what the process remembers. -/
structure Quota.Knows (q : Quota) (reports : List Accepted) : Prop where
  saved : inv (q.saved.getD .none) reports q.clock
  proc : ∀ sup rep, q.proc = some (sup, rep) →
    sup.windowS = q.windowS ∧ sup.dailyCap = q.dailyCap ∧ inv sup.save reports q.clock

variable {ok inv}

/-- **One turn keeps what the suppressor knows true**, for a lasting `inv`. -/
theorem step_knows {lib : Library} {q q' : Quota} {reports more : List Accepted}
    (hlasting : Lasting ok inv q.windowS q.dailyCap) (hknows : q.Knows inv reports) {turn : Turn}
    (hmeets : q.Meets ok lib turn) (hstep : q.step lib turn = some (q', more)) :
    q'.Knows inv (reports ++ more) ∧ q'.windowS = q.windowS ∧ q'.dailyCap = q.dailyCap := by
  cases turn with
  | start dryRun =>
      cases hstep
      rw [List.append_nil]
      refine ⟨⟨hknows.saved, ?_⟩, rfl, rfl⟩
      intro sup rep heq
      cases heq
      refine ⟨rfl, rfl, ?_⟩
      -- a new process knows what the last report left in the state file
      rw [load_save]
      exact hknows.saved
  | call line answer now =>
      obtain ⟨sup, rep, hproc, hclock, rfl, rfl⟩ := call_cases hstep
      obtain ⟨hwindow, hcap, hsup⟩ := hknows.proc sup rep hproc
      have hnow := hlasting.later _ _ _ _ hsup hclock
      have hsaved := hlasting.later _ _ _ _ hknows.saved hclock
      have heffect := processLine_effect lib sup rep line answer now
      refine ⟨?_, rfl, rfl⟩
      generalize sup.processLine lib rep line answer now = p at heffect ⊢
      cases heffect with
      | none haccepted hrecorded hsame =>
          rw [haccepted, hrecorded]
          refine ⟨by simpa using hsaved, ?_⟩
          intro sup' rep' hproc'
          obtain ⟨_, -, heq⟩ := Option.map_eq_some_iff.mp hproc'
          cases heq
          rw [hsame]
          exact ⟨hwindow, hcap, by simpa using hnow⟩
      | rolled today hday hip haccepted hrecorded hrolled =>
          -- the new day is not saved: the file still has the last report's
          have hroll := hlasting.rolled sup reports now today hwindow hnow hday
            (hmeets sup rep today hproc hday hip)
          rw [haccepted, hrecorded]
          refine ⟨by simpa using hsaved, ?_⟩
          intro sup' rep' hproc'
          obtain ⟨_, -, heq⟩ := Option.map_eq_some_iff.mp hproc'
          cases heq
          rw [hrolled, rolled_windowS, rolled_dailyCap]
          exact ⟨hwindow, hcap, by simpa using hroll⟩
      | reported today ip hday hip hallows haccepted hrecorded hreported =>
          have hroll := hlasting.rolled sup reports now today hwindow hnow hday
            (hmeets sup rep today hproc hday hip)
          have hreport := hlasting.reported (sup.rolled today) reports ip now today
            ((rolled_windowS sup today).trans hwindow) ((rolled_dailyCap sup today).trans hcap)
            hroll hday (rolled_day sup today) hallows
          rw [haccepted, hrecorded, hreported]
          refine ⟨hreport, ?_⟩
          intro sup' rep' hproc'
          obtain ⟨_, -, heq⟩ := Option.map_eq_some_iff.mp hproc'
          cases heq
          exact ⟨(rolled_windowS sup today).trans hwindow, (rolled_dailyCap sup today).trans hcap,
            hreport⟩

theorem run_knows {lib : Library} (turns : List Turn) :
    ∀ {q q' : Quota} {reports more : List Accepted}, Lasting ok inv q.windowS q.dailyCap →
      q.Knows inv reports → q.AllMeet ok lib turns → q.run lib turns = some (q', more) →
      q'.Knows inv (reports ++ more) := by
  induction turns with
  | nil =>
      intro q q' reports more _ hknows _ hrun
      cases hrun
      rw [List.append_nil]
      exact hknows
  | cons turn rest ih =>
      intro q q' reports more hlasting hknows hmeet hrun
      unfold Quota.run at hrun
      obtain ⟨⟨q₁, first⟩, hstep, hrun⟩ := Option.bind_eq_some_iff.mp hrun
      obtain ⟨⟨q₂, others⟩, hrest, hrun⟩ := Option.bind_eq_some_iff.mp hrun
      cases hrun
      obtain ⟨hknows₁, hwindow, hcap⟩ := step_knows hlasting hknows hmeet.1 hstep
      rw [← hwindow, ← hcap] at hlasting
      rw [← List.append_assoc]
      exact ih hlasting hknows₁ (hmeet.2 q₁ first hstep) hrest

/-- Without a state file and a process there is nothing to know, so a lasting `inv` holds. -/
theorem Quota.Unused.knows {q : Quota} (h : q.Unused)
    (hlasting : Lasting ok inv q.windowS q.dailyCap) : q.Knows inv [] where
  saved := by
    rw [h.saved]
    exact hlasting.none q.clock
  proc := by
    intro sup rep hproc
    rw [h.proc] at hproc
    cases hproc

end Runs

/-! ## §5. The daily quota. -/

/-- The count is the number of reports on its day, none of them is on a later day, and no
day has more than the cap. -/
structure Tallied (cap : Int) (s : SavedReports) (reports : List Accepted) (clock : Int) : Prop where
  bound : ∀ day, reportsOn day reports ≤ cap.toNat
  fresh : s.day = none → reports = []
  count : ∀ day, s.day = some day → s.count = reportsOn day reports
  latest : ∀ day, s.day = some day → ∀ day', day < day' → reportsOn day' reports = 0
  past : ∀ day, s.day = some day → ∃ t ≤ clock, utcDay t = some day

theorem reportsOn_one {ip : Text} {now today : Int} (h : utcDay now = some today) (day : Int) :
    reportsOn day [(ip, now)] = if today = day then 1 else 0 := by
  show ([(ip, now)].filter fun r => decide (utcDay r.2 = some day)).length = _
  by_cases heq : today = day
  · have hday : decide (utcDay now = some day) = true := by
      rw [h, heq]
      exact decide_eq_true rfl
    rw [if_pos heq, List.filter_cons_of_pos (by exact hday)]
    rfl
  · have hday : ¬ decide (utcDay now = some day) = true := by
      rw [h]
      simpa using heq
    rw [if_neg heq, List.filter_cons_of_neg (by exact hday)]
    rfl

/-- On a new day nothing has been reported yet. -/
theorem Tallied.rolled {cap : Int} {sup : Suppressor} {reports : List Accepted} {now today : Int}
    (h : Tallied cap sup.save reports now) (hday : utcDay now = some today) :
    Tallied cap (sup.rolled today).save reports now := by
  by_cases hsame : sup.day = some today
  · rw [rolled_of_day hsame]
    exact h
  · -- the clock has not gone back, so the day it had is before today
    have hnone : ∀ day, today ≤ day → reportsOn day reports = 0 := by
      intro day hle
      cases hold : sup.day with
      | none =>
          rw [h.fresh hold]
          rfl
      | some old =>
          obtain ⟨t, ht, htday⟩ := h.past old hold
          have hmono := utcDay_mono ht htday hday
          have hne : old ≠ today := fun heq => hsame (heq ▸ hold)
          exact h.latest old hold day (by omega)
    have hrolled : (sup.rolled today).save = ⟨some today, 0, fun _ => none⟩ := by
      unfold Suppressor.rolled
      rw [if_pos fun heq => hsame heq.symm]
      rfl
    rw [hrolled]
    refine ⟨h.bound, ?_, ?_, ?_, ?_⟩
    · intro hfalse
      cases hfalse
    · intro _ heq
      cases heq
      rw [hnone today (Int.le_refl today)]
      rfl
    · intro _ heq day hlt
      cases heq
      exact hnone day (Int.le_of_lt hlt)
    · intro _ heq
      cases heq
      exact ⟨now, Int.le_refl now, hday⟩

/-- A report below the cap is counted. -/
theorem Tallied.reported {sup : Suppressor} {reports : List Accepted} {ip : Text} {now today : Int}
    (h : Tallied sup.dailyCap sup.save reports now) (hday : utcDay now = some today)
    (htoday : sup.day = some today) (hcap : sup.count < sup.dailyCap) :
    Tallied sup.dailyCap (sup.reported ip now).save (reports ++ [(ip, now)]) now := by
  have hcount : sup.count = reportsOn today reports := h.count today htoday
  have hon : ∀ day, reportsOn day (reports ++ [(ip, now)])
      = reportsOn day reports + if today = day then 1 else 0 := by
    intro day
    rw [reportsOn_append, reportsOn_one hday]
  refine ⟨?_, ?_, ?_, ?_, ?_⟩
  · intro day
    rw [hon]
    have := h.bound day
    split_ifs with heq
    · subst heq
      omega
    · omega
  · intro hfalse
    rw [show (sup.reported ip now).save.day = sup.day from rfl, htoday] at hfalse
    cases hfalse
  · intro day hd
    obtain rfl : today = day := Option.some.inj (htoday.symm.trans hd)
    rw [hon, if_pos rfl]
    show sup.count + 1 = _
    omega
  · intro day hd day' hlt
    obtain rfl : today = day := Option.some.inj (htoday.symm.trans hd)
    rw [hon, if_neg (by omega)]
    exact h.latest today htoday day' hlt
  · intro day hd
    exact h.past day hd

theorem tallied_lasting (windowS dailyCap : Int) :
    Lasting (fun _ _ _ => True) (Tallied dailyCap) windowS dailyCap where
  none := by
    intro clock
    refine ⟨fun day => Nat.zero_le _, fun _ => rfl, ?_, ?_, ?_⟩ <;> rintro day ⟨⟩
  later := by
    intro s reports clock now h hle
    refine ⟨h.bound, h.fresh, h.count, h.latest, ?_⟩
    intro day hday
    obtain ⟨t, ht, htday⟩ := h.past day hday
    exact ⟨t, Int.le_trans ht hle, htday⟩
  rolled := fun sup reports now today _ h hday _ => h.rolled hday
  reported := by
    intro sup reports ip now today _ heq h hday htoday hallows
    subst heq
    exact h.reported hday htoday hallows.1

theorem allMeet_trivial (lib : Library) (turns : List Turn) :
    ∀ q : Quota, q.AllMeet (fun _ _ _ => True) lib turns := by
  induction turns with
  | nil => intro q; exact trivial
  | cons turn rest ih =>
      intro q
      refine ⟨?_, fun q' _ _ => ih q'⟩
      cases turn with
      | start dryRun => exact trivial
      | call line answer now => exact fun _ _ _ _ _ _ => trivial

/-- **No day has more reports than the cap**, whatever the lines and the answers, and
however often the process is started again. -/
theorem daily_quota (lib : Library) {q q' : Quota} (hq : q.Unused) (turns : List Turn)
    {reports : List Accepted} (hrun : q.run lib turns = some (q', reports)) (day : Int) :
    reportsOn day reports ≤ q.dailyCap.toNat := by
  have hlasting := tallied_lasting q.windowS q.dailyCap
  exact (run_knows turns hlasting (hq.knows hlasting) (allMeet_trivial lib turns q)
    hrun).saved.bound day

/-! ## §6. One report a day. -/

/-- A dedup window of a second, and one report a day. -/
def oneADay : Quota where
  windowS := 1
  dailyCap := 1
  saved := none
  proc := none
  clock := 0

theorem oneADay_unused : oneADay.Unused := ⟨rfl, rfl⟩

/-- Two hits on the first day, with a restart in between, and one on the next. -/
def threeHits : List Turn :=
  [.start false, .call hitText .accepted (seconds 10), .start false,
    .call hitText .accepted (seconds 20), .call hitText .accepted (seconds 86400)]

theorem daily_quota_threeHits :
    ∃ q' reports, oneADay.run plainLibrary threeHits = some (q', reports) ∧ reports.length = 2
      ∧ reportsOn 0 reports ≤ 1 ∧ reportsOn 1 reports ≤ 1 := by
  have hreports : (oneADay.run plainLibrary threeHits).map (fun r => r.2.length) = some 2 := by
    decide
  obtain ⟨⟨q', reports⟩, hrun, hlength⟩ := Option.map_eq_some_iff.mp hreports
  exact ⟨q', reports, hrun, hlength, daily_quota plainLibrary oneADay_unused threeHits hrun 0,
    daily_quota plainLibrary oneADay_unused threeHits hrun 1⟩

/-- The number of reports at times that fall in a UTC day. -/
def reportsWithin (day : Int) (reports : List Accepted) : Nat :=
  (reports.filter fun r => r.2 / seconds 86400 = day).length

/-- A hit on the first day, and one a quarter of a microsecond before its end. -/
def beforeMidnight : List Turn :=
  [.start false, .call hitText .accepted (seconds 10),
    .call hitText .accepted (seconds 86400 - second / 4194304)]

/-- Two reports before the first midnight pass a cap of one: `datetime` rounds the time of
the second into the next day. -/
theorem daily_quota_beforeMidnight :
    ∃ q' reports, oneADay.run plainLibrary beforeMidnight = some (q', reports)
      ∧ reportsWithin 0 reports = 2 ∧ ¬ reportsWithin 0 reports ≤ oneADay.dailyCap.toNat := by
  have hreports : (oneADay.run plainLibrary beforeMidnight).map (fun r => reportsWithin 0 r.2)
      = some 2 := by
    decide
  obtain ⟨⟨q', reports⟩, hrun, hwithin⟩ := Option.map_eq_some_iff.mp hreports
  have hwithin : reportsWithin 0 reports = 2 := hwithin
  refine ⟨q', reports, hrun, hwithin, ?_⟩
  rw [hwithin]
  decide

/-! ## §7. The window of an address. -/

/-- On a new day, the addresses that are forgotten were all reported a window ago. -/
def Suppressor.Outlived (sup : Suppressor) (now today : Int) : Prop :=
  sup.day = some today ∨ ∀ ip t, sup.last ip = some t → sup.window ≤ now - t

/-- The reports of an address are a window apart so far, and the last one is remembered, or
a window ago. -/
structure Remembered (window : Int) (s : SavedReports) (reports : List Accepted) (clock : Int) :
    Prop where
  apart : reports.Pairwise fun r r' => r.1 = r'.1 → window ≤ r'.2 - r.2
  past : ∀ r ∈ reports, r.2 ≤ clock
  last : ∀ r ∈ reports, (∃ t, s.last r.1 = some t ∧ r.2 ≤ t) ∨ window ≤ clock - r.2

theorem Remembered.rolled {sup : Suppressor} {reports : List Accepted} {now today : Int}
    (h : Remembered sup.window sup.save reports now) (hkept : sup.Outlived now today) :
    Remembered sup.window (sup.rolled today).save reports now := by
  by_cases hsame : sup.day = some today
  · rw [rolled_of_day hsame]
    exact h
  · refine ⟨h.apart, h.past, ?_⟩
    intro r hr
    right
    rcases h.last r hr with ⟨t, ht, hle⟩ | hold
    · have := hkept.resolve_left hsame r.1 t ht
      omega
    · exact hold

/-- After a report the times within the window are those from before it, updated
at the reported address. -/
theorem reported_last (sup : Suppressor) (ip ip' : Text) (now : Int) :
    (sup.reported ip now).save.last ip'
      = (Function.update sup.last ip (some now) ip').filter fun t => now - sup.window ≤ t := rfl

/-- A report that the suppressor allows is remembered with the others. -/
theorem Remembered.reported {sup : Suppressor} {reports : List Accepted} {ip : Text} {now : Int}
    (h : Remembered sup.window sup.save reports now) (hallows : sup.Allows ip now) :
    Remembered sup.window (sup.reported ip now).save (reports ++ [(ip, now)]) now := by
  have hsince : ∀ r ∈ reports, r.1 = ip → sup.window ≤ now - r.2 := by
    intro r hr heq
    rcases h.last r hr with ⟨t, ht, hle⟩ | hold
    · rw [heq] at ht
      have := hallows.2 t ht
      omega
    · exact hold
  refine ⟨?_, ?_, ?_⟩
  · refine List.pairwise_append.mpr ⟨h.apart, List.pairwise_singleton _ _, ?_⟩
    intro r hr r' hr' heq
    rw [List.mem_singleton.mp hr'] at heq ⊢
    exact hsince r hr heq
  · intro r hr
    rcases List.mem_append.mp hr with hr | hr
    · exact h.past r hr
    · rw [List.mem_singleton.mp hr]
  · -- an entry is replaced by a later one, or pruned when it is a window old
    have hkeep : ∀ r : Accepted, ∀ t, Function.update sup.last ip (some now) r.1 = some t →
        r.2 ≤ t → (∃ t, (sup.reported ip now).save.last r.1 = some t ∧ r.2 ≤ t)
          ∨ sup.window ≤ now - r.2 := by
      intro r t ht hle
      rw [reported_last, ht]
      by_cases hrecent : now - sup.window ≤ t
      · left
        refine ⟨t, ?_, hle⟩
        rw [Option.filter_some, if_pos (decide_eq_true hrecent)]
      · right
        omega
    intro r hr
    rcases List.mem_append.mp hr with hr | hr
    · by_cases heq : r.1 = ip
      · right
        exact hsince r hr heq
      · rcases h.last r hr with ⟨t, ht, hle⟩ | hold
        · refine hkeep r t ?_ hle
          rw [Function.update_of_ne heq]
          exact ht
        · exact .inr hold
    · rw [List.mem_singleton.mp hr]
      exact hkeep (ip, now) now (Function.update_self ..) (Int.le_refl now)

theorem remembered_lasting (windowS dailyCap : Int) :
    Lasting Suppressor.Outlived (Remembered (windowS * seconds 1)) windowS dailyCap where
  none := by
    intro clock
    refine ⟨.nil, ?_, ?_⟩ <;> intro r hr <;> cases hr
  later := by
    intro s reports clock now h hle
    refine ⟨h.apart, ?_, ?_⟩
    · intro r hr
      exact Int.le_trans (h.past r hr) hle
    · intro r hr
      exact (h.last r hr).imp_right fun hold => by omega
  rolled := by
    intro sup reports now today heq h _ hkept
    subst heq
    exact h.rolled hkept
  reported := by
    intro sup reports ip now today heq _ h _ _ hallows
    subst heq
    exact h.reported hallows

/-- **Reports of one address are a window apart**, whatever the lines, the answers and the
restarts, as long as no call comes on a new day while an address of the last one is still
in its window. -/
theorem reports_apart (lib : Library) {q q' : Quota} (hq : q.Unused) (turns : List Turn)
    (hkept : q.AllMeet Suppressor.Outlived lib turns) {reports : List Accepted}
    (hrun : q.run lib turns = some (q', reports)) :
    reports.Pairwise fun r r' => r.1 = r'.1 → q.windowS * seconds 1 ≤ r'.2 - r.2 := by
  have hlasting := remembered_lasting q.windowS q.dailyCap
  exact (run_knows turns hlasting (hq.knows hlasting) hkept hrun).saved.apart

/-! ## §8. Within one day, and across midnight. -/

/-- In a run within one day every call finds a suppressor that has forgotten no
report within its window. -/
theorem oneDay_outlived (lib : Library) (day : Int) (turns : List Turn)
    (hday : ∀ line answer now, .call line answer now ∈ turns → utcDay now = some day) :
    ∀ q : Quota, (∀ s ∈ q.saved, s.day = some day) →
      (∀ sup rep, q.proc = some (sup, rep) → (∀ ip, sup.last ip = none) ∨ sup.day = some day) →
      q.AllMeet Suppressor.Outlived lib turns := by
  -- At every turn the process has reported nothing yet, or on this one day only.
  induction turns with
  | nil => intro q _ _; exact trivial
  | cons turn rest ih =>
      intro q hsaved hproc
      have hrest := ih fun line answer now hmem => hday line answer now (List.mem_cons_of_mem _ hmem)
      cases turn with
      | start dryRun =>
          refine ⟨trivial, ?_⟩
          intro q' reports heq
          cases heq
          refine hrest _ hsaved ?_
          intro sup rep heq
          cases heq
          cases hs : q.saved with
          | none => exact .inl fun ip => rfl
          | some s => exact .inr (hsaved s hs)
      | call line answer now =>
          have hnow := hday line answer now List.mem_cons_self
          constructor
          · intro sup rep today hsup htoday _
            rw [hnow] at htoday
            rcases hproc sup rep hsup with hblank | hsame
            · right
              intro ip t ht
              rw [hblank ip] at ht
              cases ht
            · exact .inl (hsame.trans htoday)
          · intro q' reports hstep
            obtain ⟨sup, rep, hsup, -, rfl, -⟩ := call_cases hstep
            have heffect := processLine_effect lib sup rep line answer now
            generalize sup.processLine lib rep line answer now = p at heffect ⊢
            have hrolled : ∀ today, utcDay now = some today →
                (sup.rolled today).day = some day := by
              intro today htoday
              rw [rolled_day, ← htoday, hnow]
            refine hrest _ ?_ ?_
            · intro s hs
              cases heffect with
              | none haccepted hrecorded hsame =>
                  rw [hrecorded] at hs
                  exact hsaved s hs
              | rolled today htoday hip haccepted hrecorded hsame =>
                  rw [hrecorded] at hs
                  exact hsaved s hs
              | reported today ip htoday hip hallows haccepted hrecorded hsame =>
                  rw [hrecorded, hsame] at hs
                  cases hs
                  exact hrolled today htoday
            · intro sup' rep' hproc'
              obtain ⟨_, -, heq⟩ := Option.map_eq_some_iff.mp hproc'
              cases heq
              cases heffect with
              | none haccepted hrecorded hsame =>
                  rw [hsame]
                  exact hproc sup rep hsup
              | rolled today htoday hip haccepted hrecorded hsame =>
                  rw [hsame]
                  exact .inr (hrolled today htoday)
              | reported today ip htoday hip hallows haccepted hrecorded hsame =>
                  rw [hsame]
                  exact .inr (hrolled today htoday)

/-- A quarter of an hour, and the free tier. -/
def freeTier : Quota where
  windowS := 900
  dailyCap := 1000
  saved := none
  proc := none
  clock := 0

/-- Two hits, and a third a quarter of an hour behind the first. -/
def quarterHour : List Turn :=
  [.start false, .call hitText .accepted (seconds 10), .call hitText .accepted (seconds 20),
    .call hitText .accepted (seconds 910)]

theorem quarterHour_outlived : freeTier.AllMeet Suppressor.Outlived plainLibrary quarterHour := by
  apply oneDay_outlived plainLibrary 0
  · intro line answer now hmem
    simp only [quarterHour, List.mem_cons, List.not_mem_nil, or_false, reduceCtorEq, false_or,
      Turn.call.injEq] at hmem
    rcases hmem with ⟨-, -, rfl⟩ | ⟨-, -, rfl⟩ | ⟨-, -, rfl⟩ <;> decide
  · intro s heq
    cases heq
  · intro sup rep heq
    cases heq

theorem reports_apart_quarterHour :
    ∃ q' reports, freeTier.run plainLibrary quarterHour = some (q', reports)
      ∧ reports.map Prod.snd = [seconds 10, seconds 910]
      ∧ reports.Pairwise fun r r' => r.1 = r'.1 → seconds 900 ≤ r'.2 - r.2 := by
  have htimes : (freeTier.run plainLibrary quarterHour).map (fun r => r.2.map Prod.snd)
      = some [seconds 10, seconds 910] := by
    decide
  obtain ⟨⟨q', reports⟩, hrun, htimes⟩ := Option.map_eq_some_iff.mp htimes
  exact ⟨q', reports, hrun, htimes, reports_apart plainLibrary ⟨rfl, rfl⟩ quarterHour
    quarterHour_outlived hrun⟩

/-- At midnight the addresses are forgotten with the count: ten seconds before and ten
seconds behind it, an address is reported twice. -/
theorem reports_apart_midnight :
    (freeTier.run plainLibrary [.start false, .call hitText .accepted (seconds 86390),
        .call hitText .accepted (seconds 86410)]).map Prod.snd
      = some [(textOf "8.8.8.8", seconds 86390), (textOf "8.8.8.8", seconds 86410)]
      ∧ ¬ [(textOf "8.8.8.8", seconds 86390), (textOf "8.8.8.8", seconds 86410)].Pairwise
        fun r r' => r.1 = r'.1 → seconds 900 ≤ r'.2 - r.2 := by
  refine ⟨by decide, ?_⟩
  intro hapart
  have hpair := List.rel_of_pairwise_cons hapart List.mem_cons_self rfl
  exact absurd hpair (by decide)

end HttpShield
