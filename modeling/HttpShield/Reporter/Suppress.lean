/-
  HttpShield.Reporter.Suppress
  ────────────────────────────
  The suppressor, and `process_line` as a whole.

    • `processLine_ends`     — the ways a call of `process_line` can end,
    • `processLine_screened` — it is the call of which `follow` knows less,
    • `processLine_returns`  — when it returns, and what it returns then.
-/
import HttpShield.Reporter.Comment

namespace HttpShield

open JsonText (Text Value loads)

/-! ## §1. `Suppressor`. -/

/-- What the suppressor saves: the day, the count, and the last report of each address. -/
structure SavedReports where
  day : Option Int
  count : Int
  last : Text → Option Int

/-- `Suppressor`, but for the path of its state file. -/
structure Suppressor where
  windowS : Int
  dailyCap : Int
  day : Option Int
  count : Int
  last : Text → Option Int

/-- `__init__`, with `_load`. -/
def Suppressor.load (windowS dailyCap : Int) (saved : Option SavedReports) : Suppressor where
  windowS := windowS
  dailyCap := dailyCap
  day := saved.bind SavedReports.day
  count := (saved.map SavedReports.count).getD 0
  last := (saved.map SavedReports.last).getD fun _ => none

/-- `_save`. -/
def Suppressor.save (sup : Suppressor) : SavedReports where
  day := sup.day
  count := sup.count
  last := sup.last

/-- The window, as a time. -/
def Suppressor.window (sup : Suppressor) : Int := sup.windowS * seconds 1

/-- The whole number nearest to `a / b`, and of two the even one. -/
def roundHalfEven (a : Int) (b : Nat) : Int :=
  if 2 * (a % b) < b ∨ 2 * (a % b) = b ∧ a / b % 2 = 0 then a / b else a / b + 1

/-- The UTC day that `datetime.fromtimestamp` assigns to a time, from the first day of the
year 1 to the last of 9999: for any other time it raises. -/
def utcDay (now : Int) : Option Int :=
  -- rounded to microseconds first, so half of one before midnight the next day has begun;
  -- that the source takes the product in floats moves no time across a midnight
  let us := roundHalfEven (now * 1000000) second
  if -62135596800000000 ≤ us ∧ us < 253402300800000000 then some (us / 86400000000) else none

/-- `_roll_day`. -/
def Suppressor.rollDay (sup : Suppressor) (now : Int) : Option Suppressor :=
  match utcDay now with
  | none => none
  | some today =>
      if some today ≠ sup.day then
        -- the addresses go with the count, also those still in their window
        some { sup with day := some today, count := 0, last := fun _ => none }
      else some sup

/-- `_prune`. -/
def Suppressor.prune (sup : Suppressor) (now : Int) : Suppressor :=
  { sup with last := fun ip => (sup.last ip).filter fun t => now - sup.window ≤ t }

/-- `allow`. -/
def Suppressor.allow (sup : Suppressor) (ip : Text) (now : Int) :
    Option ((Bool × String) × Suppressor) := do
  let sup ← sup.rollDay now
  if sup.dailyCap ≤ sup.count then return ((false, "daily-cap"), sup)
  else
    match sup.last ip with
    | some prev =>
        -- a clock that went back counts as recent
        if now - prev < sup.window then return ((false, "deduped"), sup)
        else return ((true, ""), sup)
    | none => return ((true, ""), sup)

/-- `record`. -/
def Suppressor.record (sup : Suppressor) (ip : Text) (now : Int) : Option Suppressor := do
  let sup ← sup.rollDay now
  return Suppressor.prune
    { sup with last := Function.update sup.last ip (some now), count := sup.count + 1 } now

/-! ## §2. `process_line`. -/

/-- The fields of a report, as they are sent. -/
structure Payload where
  ip : Text
  categories : List Nat
  comment : Text
  timestamp : Text
  deriving DecidableEq

/-- A call of `process_line`: the report and its outcome if there was one, the address
recorded, what the call returned unless it raised, and the objects afterwards. -/
structure Processed where
  report : Option (Payload × Outcome)
  recorded : Option Text
  result : Option Bool
  sup : Suppressor
  reporter : Reporter

/-- `process_line`, from the report on. -/
def sendReport (lib : Library) (sup : Suppressor) (rep : Reporter) (entry : List (Text × Value))
    (ip : Text) (answer : Answer) (now : Int) : Processed :=
  let payload : Payload :=
    { ip := ip
      categories := categoriesFor (lib.field entry "cat" "")
      comment := buildComment lib entry
      timestamp := lib.field entry "ts" "" }
  match rep.report answer now with
  | (.ok, rep) =>
      match sup.record ip now with
      | some sup => ⟨some (payload, .ok), some ip, some true, sup, rep⟩
      -- sent, but the time is no date
      | none => ⟨some (payload, .ok), some ip, none, sup, rep⟩
  | (.drop, rep) => ⟨some (payload, .drop), none, some true, sup, rep⟩
  | (.retry, rep) => ⟨some (payload, .retry), none, some false, sup, rep⟩

/-- `process_line`. -/
def Suppressor.processLine (lib : Library) (sup : Suppressor) (rep : Reporter) (line : Text)
    (answer : Answer) (now : Int) : Processed :=
  let done : Processed := ⟨none, none, some true, sup, rep⟩
  let raised : Processed := ⟨none, none, none, sup, rep⟩
  if strip line = [] then done
  else
    match lib.loads (strip line) with
    | none => done
    | some (.obj entry) =>
        let ip := lib.field entry "ip" ""
        if ¬ isReportableIp lib ip then done
        else
          match sup.allow ip now with
          | none => raised
          | some ((false, _), sup) => { done with sup := sup }
          | some ((true, _), sup) => sendReport lib sup rep entry ip answer now
    -- `.get` of something that is no `dict`
    | some _ => raised

/-! ## §3. What a call can do. -/

/-- The suppressor on a day. -/
def Suppressor.rolled (sup : Suppressor) (today : Int) : Suppressor :=
  if some today ≠ sup.day then
    { sup with day := some today, count := 0, last := fun _ => none }
  else sup

/-- The suppressor with one report more. -/
def Suppressor.reported (sup : Suppressor) (ip : Text) (now : Int) : Suppressor :=
  Suppressor.prune
    { sup with last := Function.update sup.last ip (some now), count := sup.count + 1 } now

@[simp] theorem rolled_day (sup : Suppressor) (today : Int) :
    (sup.rolled today).day = some today := by
  unfold Suppressor.rolled
  split_ifs with h
  · rfl
  · exact (not_not.mp h).symm

@[simp] theorem rolled_windowS (sup : Suppressor) (today : Int) :
    (sup.rolled today).windowS = sup.windowS := by
  unfold Suppressor.rolled
  split_ifs
  · rfl
  · rfl

@[simp] theorem rolled_dailyCap (sup : Suppressor) (today : Int) :
    (sup.rolled today).dailyCap = sup.dailyCap := by
  unfold Suppressor.rolled
  split_ifs
  · rfl
  · rfl

theorem rolled_of_day {sup : Suppressor} {today : Int} (h : sup.day = some today) :
    sup.rolled today = sup :=
  if_neg (not_not.mpr h.symm)

theorem rollDay_eq {sup : Suppressor} {now today : Int} (h : utcDay now = some today) :
    sup.rollDay now = some (sup.rolled today) := by
  unfold Suppressor.rollDay Suppressor.rolled
  rw [h]
  dsimp only
  split_ifs
  · rfl
  · rfl

theorem record_eq {sup : Suppressor} {ip : Text} {now today : Int} (h : utcDay now = some today) :
    sup.record ip now = some ((sup.rolled today).reported ip now) := by
  unfold Suppressor.record
  rw [rollDay_eq h]
  rfl

/-- What the suppressor says of an address on a day: the cap is not reached, and the last
report of it is a window away. -/
def Suppressor.Allows (sup : Suppressor) (ip : Text) (now : Int) : Prop :=
  sup.count < sup.dailyCap ∧ ∀ prev, sup.last ip = some prev → sup.window ≤ now - prev

theorem allow_eq {sup : Suppressor} {ip : Text} {now today : Int} (h : utcDay now = some today) :
    ∃ answer, sup.allow ip now = some (answer, sup.rolled today)
      ∧ (answer.1 = true ↔ (sup.rolled today).Allows ip now) := by
  unfold Suppressor.allow Suppressor.Allows
  rw [rollDay_eq h]
  simp only [Option.bind_eq_bind, Option.bind_some]
  by_cases hcap : (sup.rolled today).dailyCap ≤ (sup.rolled today).count
  · rw [if_pos hcap]
    refine ⟨_, rfl, ?_⟩
    constructor
    · intro h
      cases h
    · intro h
      omega
  · rw [if_neg hcap]
    cases hlast : (sup.rolled today).last ip with
    | none =>
        refine ⟨_, rfl, fun _ => ⟨by omega, ?_⟩, fun _ => rfl⟩
        intro prev hprev
        cases hprev
    | some prev =>
        dsimp only
        by_cases hrecent : now - prev < (sup.rolled today).window
        · rw [if_pos hrecent]
          refine ⟨_, rfl, ?_⟩
          constructor
          · intro h
            cases h
          · rintro ⟨-, hold⟩
            have := hold prev rfl
            omega
        · rw [if_neg hrecent]
          refine ⟨_, rfl, fun _ => ⟨by omega, ?_⟩, fun _ => rfl⟩
          intro _ heq
          cases heq
          omega

/-! ## §4. How a call ends. -/

/-- The reportable address of a line. -/
def lineIp (lib : Library) (line : Text) : Option Text :=
  if strip line = [] then none
  else
    match lib.loads (strip line) with
    | some (.obj entry) =>
        if isReportableIp lib (lib.field entry "ip" "") then some (lib.field entry "ip" "") else none
    | _ => none

/-- A line that is something else than an object: `.get` raises. -/
def NotAnObject (lib : Library) (line : Text) : Prop :=
  strip line ≠ [] ∧ ∃ v, lib.loads (strip line) = some v ∧ ∀ entry, v ≠ .obj entry

/-- The address of a report that was accepted. -/
def Processed.accepted (p : Processed) : Option Text :=
  match p.report with
  | some (payload, .ok) => some payload.ip
  | _ => none

/-- The ways a call of `process_line` can end, at a time that is a date. -/
inductive Processed.Ends (lib : Library) (sup : Suppressor) (rep : Reporter) (line : Text)
    (now today : Int) : Processed → Prop where
  | raised (h : NotAnObject lib line) :
      Processed.Ends lib sup rep line now today ⟨none, none, none, sup, rep⟩
  | skipped (h : ¬ NotAnObject lib line) (hip : lineIp lib line = none) :
      Processed.Ends lib sup rep line now today ⟨none, none, some true, sup, rep⟩
  | suppressed (h : ¬ NotAnObject lib line) (ip : Text) (hip : lineIp lib line = some ip)
      (hnot : ¬ (sup.rolled today).Allows ip now) :
      Processed.Ends lib sup rep line now today ⟨none, none, some true, sup.rolled today, rep⟩
  | reported (h : ¬ NotAnObject lib line) (ip : Text) (hip : lineIp lib line = some ip)
      (hallows : (sup.rolled today).Allows ip now) (payload : Payload) (rep' : Reporter)
      (hpayload : payload.ip = ip) :
      Processed.Ends lib sup rep line now today
        ⟨some (payload, .ok), some ip, some true, (sup.rolled today).reported ip now, rep'⟩
  | dropped (h : ¬ NotAnObject lib line) (ip : Text) (hip : lineIp lib line = some ip)
      (payload : Payload) (rep' : Reporter) :
      Processed.Ends lib sup rep line now today
        ⟨some (payload, .drop), none, some true, sup.rolled today, rep'⟩
  | failed (h : ¬ NotAnObject lib line) (ip : Text) (hip : lineIp lib line = some ip)
      (payload : Payload) (rep' : Reporter) :
      Processed.Ends lib sup rep line now today
        ⟨some (payload, .retry), none, some false, sup.rolled today, rep'⟩

/-- **The ways a call of `process_line` can end.** -/
theorem Suppressor.processLine_ends (lib : Library) (sup : Suppressor) (rep : Reporter)
    (line : Text) (answer : Answer) {now today : Int} (hday : utcDay now = some today) :
    (sup.processLine lib rep line answer now).Ends lib sup rep line now today := by
  unfold Suppressor.processLine
  dsimp only
  by_cases hempty : strip line = []
  · rw [if_pos hempty]
    refine .skipped (fun h => h.1 hempty) ?_
    unfold lineIp
    rw [if_pos hempty]
  · rw [if_neg hempty]
    have hraised : ∀ v, lib.loads (strip line) = some v → (∀ entry, v ≠ .obj entry) →
        NotAnObject lib line := fun v hv hne => ⟨hempty, v, hv, hne⟩
    cases hloads : lib.loads (strip line) with
    | none =>
        refine .skipped ?_ ?_
        · rintro ⟨-, v, hv, -⟩
          rw [hloads] at hv
          cases hv
        · unfold lineIp
          rw [if_neg hempty, hloads]
    | some v =>
        cases v with
        -- `entry.get` of anything but an object raises
        | null => exact .raised (hraised _ hloads nofun)
        | bool b => exact .raised (hraised _ hloads nofun)
        | num m e => exact .raised (hraised _ hloads nofun)
        | nan => exact .raised (hraised _ hloads nofun)
        | infinity b => exact .raised (hraised _ hloads nofun)
        | str s => exact .raised (hraised _ hloads nofun)
        | arr vs => exact .raised (hraised _ hloads nofun)
        | obj entry =>
            dsimp only
            have hnot : ¬ NotAnObject lib line := by
              rintro ⟨-, v, hv, hne⟩
              rw [hloads] at hv
              cases hv
              exact hne entry rfl
            have hline : lineIp lib line = if isReportableIp lib (lib.field entry "ip" "") then
                some (lib.field entry "ip" "") else none := by
              unfold lineIp
              rw [if_neg hempty, hloads]
            generalize lib.field entry "ip" "" = ip at hline ⊢
            by_cases hreportable : isReportableIp lib ip = true
            · rw [if_neg (not_not.mpr hreportable)]
              rw [if_pos hreportable] at hline
              obtain ⟨⟨ok, why⟩, hallow, hiff⟩ := @allow_eq sup ip _ _ hday
              rw [hallow]
              cases ok with
              | false => exact .suppressed hnot ip hline fun h => Bool.false_ne_true (hiff.mpr h)
              | true =>
                  dsimp only
                  unfold sendReport
                  dsimp only
                  rcases rep.report answer now with ⟨outcome, rep'⟩
                  cases outcome with
                  | ok =>
                      dsimp only
                      -- `allow` has rolled the day already
                      rw [record_eq hday, rolled_of_day (rolled_day sup today)]
                      exact .reported hnot ip hline (hiff.mp rfl) _ rep' rfl
                  | retry => exact .failed hnot ip hline _ rep'
                  | drop => exact .dropped hnot ip hline _ rep'
            · rw [if_pos hreportable]
              rw [if_neg hreportable] at hline
              exact .skipped hnot hline

/-! ## §5. The two models of `process_line`. -/

/-- The functions of the library that the model of the loop calls on an entry. -/
def Library.checks (lib : Library) : EntryChecks where
  str := lib.str
  isReportableIp := isReportableIp lib

/-- The model of `process_line` in which the suppressor's answer comes from outside is this
one, for some answer. -/
theorem processLine_screened (lib : Library) (hloads : lib.loads = loads) (sup : Suppressor)
    (rep : Reporter) (line : Bytes) (answer : Answer) {now today : Int}
    (hday : utcDay now = some today) :
    ∃ allowed, HttpShield.processLine lib.checks rep line allowed answer now
      = ⟨(sup.processLine lib rep (codes line) answer now).report.map Prod.snd,
        (sup.processLine lib rep (codes line) answer now).result,
        (sup.processLine lib rep (codes line) answer now).reporter⟩ := by
  have hrecord := fun ip => @record_eq (sup.rolled today) ip _ _ hday
  unfold HttpShield.processLine screen Suppressor.processLine
  rw [hloads]
  dsimp only
  -- Only an object with a reportable address asks the suppressor;
  -- elsewhere any answer will do.
  by_cases hempty : strip (codes line) = []
  · refine ⟨true, ?_⟩
    rw [if_pos hempty, if_pos hempty]
    rfl
  · rw [if_neg hempty]
    rcases hv : loads (strip (codes line)) with _ | v
    · refine ⟨true, ?_⟩
      rw [if_neg hempty]
      rfl
    · cases v with
      | obj entry =>
          obtain ⟨⟨ok, why⟩, hallow, -⟩ :=
            @allow_eq sup (lib.field entry "ip" "") _ _ hday
          refine ⟨ok, ?_⟩
          rw [if_neg hempty]
          dsimp only
          rw [hallow]
          have hip : ((getKey entry "ip").map lib.checks.str).getD [] = lib.field entry "ip" "" := rfl
          rw [hip]
          by_cases hreportable : isReportableIp lib (lib.field entry "ip" "") = true
          · have hchecks : lib.checks.isReportableIp (lib.field entry "ip" "") = true := hreportable
            rw [if_neg (not_not.mpr hchecks), if_neg (not_not.mpr hreportable)]
            cases ok with
            | false => rfl
            | true =>
                rw [if_neg (by simp)]
                dsimp only
                unfold sendReport
                dsimp only
                rcases rep.report answer now with ⟨outcome, rep'⟩
                cases outcome with
                | ok =>
                    dsimp only
                    rw [hrecord]
                    rfl
                | retry => rfl
                | drop => rfl
          · have hchecks : ¬ lib.checks.isReportableIp (lib.field entry "ip" "") = true :=
              hreportable
            rw [if_pos hchecks, if_pos hreportable]
            rfl
      | _ =>
          refine ⟨true, ?_⟩
          rw [if_neg hempty]
          rfl

/-- **When a call returns.**  At a time that is a date, `process_line` returns, with `False`
only if the report is to be repeated, and records exactly the reports that were accepted,
unless the line is JSON of something else than an object. -/
theorem processLine_returns (lib : Library) (sup : Suppressor) (rep : Reporter) (line : Text)
    (answer : Answer) {now today : Int} (hday : utcDay now = some today) :
    ((∃ b, (sup.processLine lib rep line answer now).result = some b)
      ∧ ((sup.processLine lib rep line answer now).result = some false →
        ∃ payload, (sup.processLine lib rep line answer now).report = some (payload, .retry))
      ∧ ((sup.processLine lib rep line answer now).recorded.isSome ↔
        ∃ payload, (sup.processLine lib rep line answer now).report = some (payload, .ok)))
    ↔ ¬ NotAnObject lib line := by
  have hends := sup.processLine_ends lib rep line answer hday
  generalize sup.processLine lib rep line answer now = p at hends ⊢
  cases hends with
  | raised h =>
      constructor
      · rintro ⟨⟨b, hb⟩, -⟩
        cases hb
      · intro hnot
        exact absurd h hnot
  | skipped h hip => exact ⟨fun _ => h, fun _ => ⟨⟨true, rfl⟩, by simp, by simp⟩⟩
  | suppressed h ip hip hnot => exact ⟨fun _ => h, fun _ => ⟨⟨true, rfl⟩, by simp, by simp⟩⟩
  | reported h ip hip hallows payload rep' hpayload =>
      exact ⟨fun _ => h, fun _ => ⟨⟨true, rfl⟩, by simp, by simp⟩⟩
  | dropped h ip hip payload rep' => exact ⟨fun _ => h, fun _ => ⟨⟨true, rfl⟩, by simp, by simp⟩⟩
  | failed h ip hip payload rep' => exact ⟨fun _ => h, fun _ => ⟨⟨false, rfl⟩, by simp, by simp⟩⟩

/-! ## §6. A line with a hit, and a line that is no object. -/

/-- A library for ASCII texts, in which `8.8.8.8` is the only address. -/
def plainLibrary : Library where
  loads := loads
  str v :=
    match v with
    | .str s => s
    | _ => []
  ipAddress ip :=
    if ip = textOf "8.8.8.8" then some ⟨false, false, false, false, false, false⟩ else none
  isalnum := asciiAlnum

/-- The line of a hit from the address of `plainLibrary`. -/
def hitText : Text := textOf "\x7b\"ip\":\"8.8.8.8\",\"cat\":\"sqli\"\x7d"

theorem utcDay_first : utcDay 0 = some 0 := by decide

/-- The line of the hit is an object: the call returns, and records the report. -/
theorem processLine_returns_hit :
    ¬ NotAnObject plainLibrary hitText
      ∧ (∃ b, ((Suppressor.load 900 1000 none).processLine plainLibrary (.fresh false) hitText
        .accepted 0).result = some b)
      ∧ ∃ payload, ((Suppressor.load 900 1000 none).processLine plainLibrary (.fresh false) hitText
        .accepted 0).report = some (payload, .ok) := by
  have hobject : ¬ NotAnObject plainLibrary hitText := by
    rintro ⟨-, v, hv, hne⟩
    obtain ⟨entry, hloads⟩ : ∃ entry, plainLibrary.loads (strip hitText) = some (.obj entry) :=
      ⟨_, rfl⟩
    exact hne entry (Option.some.inj (hv.symm.trans hloads))
  have hrecorded : ((Suppressor.load 900 1000 none).processLine plainLibrary (.fresh false) hitText
      .accepted 0).recorded.isSome = true := by
    decide
  obtain ⟨hreturns, -, hiff⟩ :=
    (processLine_returns plainLibrary _ _ hitText .accepted utcDay_first).mpr hobject
  exact ⟨hobject, hreturns, hiff.mp hrecorded⟩

/-- On the line `[]` the call raises, because an array has no `.get`. -/
theorem processLine_raises :
    ((Suppressor.load 900 1000 none).processLine plainLibrary (.fresh false) (textOf "[]")
      .accepted 0).result = none := by
  decide

end HttpShield
