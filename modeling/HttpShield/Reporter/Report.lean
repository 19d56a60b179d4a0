/-
  HttpShield.Reporter.Report
  ──────────────────────────
  The reporter's handling of one line: what `process_line` finds out about it, the
  report it sends, and the cooldown a failed report starts.

  What the API answers and whether the suppressor allows the report come from outside.
  Times are the exact values of the `float`s that `time.time()` returns.
-/
import HttpShield.Request.HitLog

namespace HttpShield

open JsonText (Text Value loads)

/-- A second, in the unit of all times: `2 ^ -1074` seconds, of which every finite `float` is
a whole number.  The power is taken in two steps, since evaluation stops at large exponents. -/
def second : Nat := (2 ^ 179) ^ 6

theorem second_pos : 0 < second := by decide

/-- A number of seconds. -/
def seconds (n : Nat) : Int := n * second

theorem seconds_nonneg (n : Nat) : 0 ≤ seconds n :=
  Int.mul_nonneg (Int.natCast_nonneg n) (Int.natCast_nonneg second)

theorem seconds_mono {m n : Nat} (h : m ≤ n) : seconds m ≤ seconds n :=
  Int.mul_le_mul_of_nonneg_right (Int.ofNat_le.mpr h) (Int.natCast_nonneg second)

/-! ## §1. `Reporter`. -/

/-- What the reports so far have left: `Reporter`, without its constants. -/
structure Reporter where
  dryRun : Bool
  cooldownUntil : Int
  failStreak : Nat
  deriving Repr, DecidableEq

/-- `Reporter.__init__`. -/
def Reporter.fresh (dryRun : Bool) : Reporter where
  dryRun := dryRun
  cooldownUntil := 0
  failStreak := 0

/-- `in_cooldown`. -/
def Reporter.inCooldown (rep : Reporter) (now : Int) : Int := max 0 (rep.cooldownUntil - now)

theorem inCooldown_pos (rep : Reporter) (now : Int) :
    0 < rep.inCooldown now ↔ now < rep.cooldownUntil := by
  unfold Reporter.inCooldown
  omega

/-- `_note_success`. -/
def Reporter.noteSuccess (rep : Reporter) : Reporter :=
  { rep with failStreak := 0, cooldownUntil := 0 }

/-- The delay of `_note_failure`, for the streak that counts this failure. -/
def failureDelay (streak : Nat) : Option Int → Int
  | some retryAfter => max 0 (min retryAfter (seconds 3600))
  | none => min (seconds 300) (seconds 5 * (Nat.pow 2 (min (streak - 1) 32) : Nat))

/-- `_note_failure`. -/
def Reporter.noteFailure (rep : Reporter) (now : Int) (retryAfter : Option Int) : Reporter :=
  { rep with
    failStreak := rep.failStreak + 1
    cooldownUntil := now + failureDelay (rep.failStreak + 1) retryAfter }

/-- What the POST comes back with. -/
inductive Answer where
  | accepted
  /-- `HTTPError`, with its `Retry-After` where that can be parsed. -/
  | httpError (code : Nat) (retryAfter : Option Int)
  /-- `URLError` and `OSError`. -/
  | networkError
  deriving Repr, DecidableEq

/-- `OK`, `RETRY` and `DROP`. -/
inductive Outcome where
  | ok | retry | drop
  deriving Repr, DecidableEq

/-- `Reporter.report`. -/
def Reporter.report (rep : Reporter) (answer : Answer) (now : Int) : Outcome × Reporter :=
  -- nothing is sent, and nothing remembered
  if rep.dryRun then (.ok, rep)
  else
    match answer with
    | .accepted => (.ok, rep.noteSuccess)
    | .httpError code retryAfter =>
        -- told to wait, the server broken, or the report refused for good
        if code = 429 then (.retry, rep.noteFailure now retryAfter)
        else if 500 ≤ code ∧ code < 600 then (.retry, rep.noteFailure now none)
        else (.drop, rep)
    | .networkError => (.retry, rep.noteFailure now none)

/-! ## §2. `process_line`. -/

/-- What `process_line` calls on an entry. -/
structure EntryChecks where
  /-- `str`. -/
  str : Value → Text
  isReportableIp : Text → Bool

/-- `entry.get(key)`: of a repeated key, `json.loads` keeps the last value. -/
def getKey (entry : List (Text × Value)) (key : String) : Option Value :=
  (entry.reverse.find? fun m => m.1 = codes (bytesOf key)).map Prod.snd

/-- The decision about a line: to skip it, to raise on it, or to report it. -/
inductive Screening where
  /-- Nothing: `return True`. -/
  | skip
  /-- `entry` is no `dict`: `.get` raises. -/
  | raised
  | report
  deriving Repr, DecidableEq

/-- `process_line` up to the report; `allowed` is the answer of `sup.allow`. -/
def screen (k : EntryChecks) (line : Bytes) (allowed : Bool) : Screening :=
  if strip (codes line) = [] then .skip
  else
    match loads (strip (codes line)) with
    -- text that is not JSON is logged and left
    | none => .skip
    | some (.obj entry) =>
        if ¬ k.isReportableIp (((getKey entry "ip").map k.str).getD []) then .skip
        else if ¬ allowed then .skip
        else .report
    | some _ => .raised

/-- A call of `process_line`: the outcome of the report if there was one, what the call
returned unless it raised, and the reporter afterwards. -/
structure LineCall where
  outcome : Option Outcome
  result : Option Bool
  reporter : Reporter
  deriving Repr, DecidableEq

/-- `process_line`. -/
def processLine (k : EntryChecks) (rep : Reporter) (line : Bytes) (allowed : Bool) (answer : Answer)
    (now : Int) : LineCall :=
  match screen k line allowed with
  | .skip => ⟨none, some true, rep⟩
  | .raised => ⟨none, none, rep⟩
  | .report =>
      match rep.report answer now with
      | (.ok, rep) => ⟨some .ok, some true, rep⟩
      | (.drop, rep) => ⟨some .drop, some true, rep⟩
      | (.retry, rep) => ⟨some .retry, some false, rep⟩

end HttpShield
