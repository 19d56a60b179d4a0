/-
  HttpShield.Reporter.Cooldown
  ────────────────────────────
  How often the API is asked.

  A process reads whatever log there is, rotated or truncated or not, and the API answers as
  it likes.  A request that fails sets the end of a cooldown, from the time the line was
  handed on and not from the time the answer came, and no line is read before it.

    • `report_backoff`     — a report is an attempt that backs off,
    • `followPass_attempt` — a pass makes one when it is due, or none,
    • `reporter_backsOff`  — over the passes of a process: requests are spaced by their
      pauses, an outage is asked for seventeen times an hour at most, and an hour is the
      longest cooldown.
-/
import HttpShield.Lib.Backoff
import HttpShield.Reporter.Daemon

namespace HttpShield

open Backoff (Ending Attempt Keeps pauseOf streakAfter waits)
open JsonText (Text Value loads)

/-! ## §1. A report is an attempt. -/

/-- How a request ends.  Of a `429` the `Retry-After` counts, clamped. -/
def Answer.ending : Answer → Ending
  | .accepted => .success
  | .httpError code retryAfter =>
      if code = 429 then .failure (retryAfter.map fun r => failureDelay 0 (some r))
      else if 500 ≤ code ∧ code < 600 then .failure none
      else .refused
  | .networkError => .failure none

/-- The delay behind so many failures in a row. -/
def backoffDelay (streak : Nat) : Int := failureDelay (streak + 1) none

/-- `cooldown_until` and `_fail_streak`. -/
def Reporter.backoff (rep : Reporter) : Backoff.State := ⟨rep.cooldownUntil, rep.failStreak⟩

/-- **A report is an attempt that backs off.** -/
theorem report_backoff {rep : Reporter} (hdry : rep.dryRun = false) (answer : Answer) (now : Int) :
    (rep.report answer now).2.backoff = rep.backoff.after backoffDelay ⟨now, answer.ending⟩
      ∧ (rep.report answer now).2.dryRun = false := by
  unfold Reporter.report
  rw [if_neg (by rw [hdry]; exact Bool.false_ne_true)]
  cases answer with
  | accepted => exact ⟨rfl, hdry⟩
  | networkError => exact ⟨rfl, hdry⟩
  | httpError code retryAfter =>
      unfold Answer.ending
      dsimp only
      by_cases htold : code = 429
      · rw [if_pos htold, if_pos htold]
        cases retryAfter with
        | none => exact ⟨rfl, hdry⟩
        | some r => exact ⟨rfl, hdry⟩
      · rw [if_neg htold, if_neg htold]
        by_cases hbroken : 500 ≤ code ∧ code < 600
        · rw [if_pos hbroken, if_pos hbroken]
          exact ⟨rfl, hdry⟩
        · rw [if_neg hbroken, if_neg hbroken]
          exact ⟨rfl, hdry⟩

/-- The reporter behind a call is that behind its report, if there was one. -/
theorem processLine_reporter (lib : Library) (sup : Suppressor) (rep : Reporter) (line : Text)
    (answer : Answer) (now : Int) {p : Processed}
    (hp : p = sup.processLine lib rep line answer now) :
    (p.report = none ∧ p.reporter = rep)
      ∨ p.report.isSome = true ∧ p.reporter = (rep.report answer now).2 := by
  have hsent : ∀ (sup : Suppressor) entry ip,
      (sendReport lib sup rep entry ip answer now).report.isSome = true
        ∧ (sendReport lib sup rep entry ip answer now).reporter = (rep.report answer now).2 := by
    intro sup entry ip
    unfold sendReport
    rcases rep.report answer now with ⟨outcome, rep'⟩
    cases outcome with
    | ok =>
        dsimp only
        cases sup.record ip now with
        | none => exact ⟨rfl, rfl⟩
        | some sup' => exact ⟨rfl, rfl⟩
    | retry => exact ⟨rfl, rfl⟩
    | drop => exact ⟨rfl, rfl⟩
  subst hp
  unfold Suppressor.processLine
  dsimp only
  split
  · exact .inl ⟨rfl, rfl⟩
  · split
    · exact .inl ⟨rfl, rfl⟩
    · split
      · exact .inl ⟨rfl, rfl⟩
      · split
        · exact .inl ⟨rfl, rfl⟩
        · exact .inl ⟨rfl, rfl⟩
        · exact .inr (hsent _ _ _)
    · exact .inl ⟨rfl, rfl⟩

/-! ## §2. Passes. -/

/-- The objects of a process. -/
abbrev Process := Follower × Reporter × Suppressor

/-- The request a pass makes: when, and how it ends.  In a dry run there is none. -/
def Pass.attempt (r : Pass) (s : Sight) : Option Attempt :=
  r.call.bind fun c =>
    if c.2.report.isSome ∧ c.2.reporter.dryRun = false then some ⟨s.lineAt, s.answer.ending⟩
    else none

/-- **The passes of a process**: the requests it makes, and its objects behind them unless an
exception ended it. -/
def followPasses (lib : Library) : Option Process → List Sight → List Attempt × Option Process
  | q, [] => ([], q)
  | none, _ :: _ => ([], none)
  | some (f, rep, sup), s :: sights =>
      let r := followPass lib f rep sup s
      let rest := followPasses lib r.next sights
      ((r.attempt s).toList ++ rest.1, rest.2)

/-- The times of the passes follow each other. -/
def SightsTimed : Int → List Sight → Int → Prop
  | c, [], c' => c ≤ c'
  | c, s :: sights, c' =>
      c ≤ s.checkAt ∧ s.checkAt ≤ s.lineAt ∧ s.lineAt ≤ s.saveAt ∧ SightsTimed s.saveAt sights c'

theorem SightsTimed.le {sights : List Sight} : ∀ {c c' : Int}, SightsTimed c sights c' →
    c ≤ c' := by
  induction sights with
  | nil =>
      intro c c' h
      exact h
  | cons s sights ih =>
      intro c c' h
      obtain ⟨hcheck, hline, hsave, hrest⟩ := h
      have hend := ih hrest
      omega

/-- No line is handed on in a cooldown. -/
theorem followPass_due {lib : Library} {f : Follower} {rep : Reporter} {sup : Suppressor}
    {s : Sight} (h : (followPass lib f rep sup s).call.isSome = true) :
    rep.cooldownUntil ≤ s.checkAt := by
  by_contra hcool
  have hpos : 0 < rep.inCooldown s.checkAt := by
    rw [inCooldown_pos]
    omega
  revert h
  unfold followPass
  cases f.reopen s with
  | none => exact Bool.false_ne_true
  | some f' =>
      dsimp only
      rw [if_pos hpos]
      exact Bool.false_ne_true

/-- **A pass makes a request when it is due, or none.** -/
theorem followPass_attempt (lib : Library) (f : Follower) {rep : Reporter} (sup : Suppressor)
    (hdry : rep.dryRun = false) (s : Sight) (htimed : s.checkAt ≤ s.lineAt) {r : Pass}
    (hr : r = followPass lib f rep sup s) :
    (r.attempt s = none ∧ ∀ q ∈ r.next, q.2.1 = rep)
      ∨ ∃ x, r.attempt s = some x ∧ x = ⟨s.lineAt, s.answer.ending⟩ ∧ rep.cooldownUntil ≤ x.time
        ∧ ∀ q ∈ r.next, q.2.1.dryRun = false
          ∧ q.2.1.backoff = rep.backoff.after backoffDelay x := by
  have hdue : r.call.isSome = true → rep.cooldownUntil ≤ s.checkAt := by
    rw [hr]
    exact followPass_due
  have hends : r.Ends lib rep sup s := by
    rw [hr]
    exact followPass_ends lib f rep sup s
  cases hends with
  | idle f' saves hsaves =>
      refine .inl ⟨rfl, ?_⟩
      intro q hq
      obtain rfl : (f', rep, sup) = q := by simpa using hq
      rfl
  | called pos line p next saves hsaves hp hnext =>
      have hobjects : ∀ q ∈ next.map (·, p.reporter, p.sup), q.2.1 = p.reporter := by
        intro q hq
        obtain ⟨f', -, rfl⟩ := Option.map_eq_some_iff.mp hq
        rfl
      -- The call asks for no request, and leaves the reporter alone, or makes one.
      rcases processLine_reporter lib sup rep (codes line) s.answer s.lineAt hp with
        ⟨hnone, hsame⟩ | ⟨hsome, hreport⟩
      · refine .inl ⟨?_, ?_⟩
        · show (if p.report.isSome = true ∧ _ then _ else _) = _
          rw [hnone]
          exact if_neg fun h => Bool.false_ne_true h.1
        · intro q hq
          rw [hobjects q hq, hsame]
      · obtain ⟨hbackoff, hdry'⟩ := report_backoff hdry s.answer s.lineAt
        rw [← hreport] at hbackoff hdry'
        refine .inr ⟨⟨s.lineAt, s.answer.ending⟩, if_pos ⟨hsome, hdry'⟩, rfl, ?_, ?_⟩
        · exact le_trans (hdue rfl) htimed
        · intro q hq
          rw [hobjects q hq]
          exact ⟨hdry', hbackoff⟩

/-- **The run lemma**: a process makes its requests when they are due. -/
theorem followPasses_keeps (lib : Library) (sights : List Sight) : ∀ {f : Follower}
    {rep : Reporter} {sup : Suppressor} {c c' : Int}, rep.dryRun = false →
    SightsTimed c sights c' →
    ∃ b, Keeps backoffDelay rep.backoff (followPasses lib (some (f, rep, sup)) sights).1 b
      ∧ (∀ q ∈ (followPasses lib (some (f, rep, sup)) sights).2, q.2.1.backoff = b)
      ∧ ∀ x ∈ (followPasses lib (some (f, rep, sup)) sights).1, x.time ≤ c'
        ∧ ∃ answer : Answer, x.ending = answer.ending := by
  induction sights with
  | nil =>
      intro f rep sup c c' hdry htimed
      refine ⟨rep.backoff, .nil _, ?_, ?_⟩
      · intro q hq
        obtain rfl : (f, rep, sup) = q := by simpa [followPasses] using hq
        rfl
      · intro x hx
        cases hx
  | cons s sights ih =>
      intro f rep sup c c' hdry htimed
      obtain ⟨hcheck, hline, hsave, hrest⟩ := htimed
      have hend := hrest.le
      have hpass := followPass_attempt lib f sup hdry s hline rfl
      show ∃ b, Keeps backoffDelay rep.backoff
          (((followPass lib f rep sup s).attempt s).toList
            ++ (followPasses lib (followPass lib f rep sup s).next sights).1) b
        ∧ (∀ q ∈ (followPasses lib (followPass lib f rep sup s).next sights).2, _) ∧ ∀ x ∈ _ ++ _, _
      generalize followPass lib f rep sup s = r at hpass ⊢
      -- an exception ends the process, and with it the requests
      have hstopped : followPasses lib none sights = ([], none) := by
        cases sights with
        | nil => rfl
        | cons s' sights => rfl
      rcases hpass with ⟨hnone, hsame⟩ | ⟨x, hsome, rfl, hdue, hnext⟩
      · rw [hnone]
        cases hq : r.next with
        | none =>
            rw [hstopped]
            exact ⟨rep.backoff, .nil _, by simp, by simp⟩
        | some q =>
            obtain ⟨f', rep', sup'⟩ := q
            obtain rfl : rep' = rep := hsame _ hq
            exact ih hdry hrest
      · rw [hsome]
        have hfirst : s.lineAt ≤ c' := by omega
        cases hq : r.next with
        | none =>
            rw [hstopped]
            refine ⟨_, .cons hdue (.nil _), by simp, ?_⟩
            intro y hy
            obtain rfl : y = ⟨s.lineAt, s.answer.ending⟩ := by simpa using hy
            exact ⟨hfirst, s.answer, rfl⟩
        | some q =>
            obtain ⟨f', rep', sup'⟩ := q
            obtain ⟨hdry', hbackoff⟩ := hnext _ hq
            obtain ⟨b, hkeeps, hlast, hall⟩ := @ih f' rep' sup' _ _ hdry' hrest
            rw [hbackoff] at hkeeps
            refine ⟨b, .cons hdue hkeeps, hlast, ?_⟩
            intro y hy
            rcases List.mem_cons.mp hy with rfl | hy
            · exact ⟨hfirst, s.answer, rfl⟩
            · exact hall y hy

/-! ## §3. The pauses of the reporter. -/

theorem backoffDelay_eq (n : Nat) :
    backoffDelay n = min (seconds 300) (seconds 5 * (2 ^ min n 32 : Nat)) := rfl

theorem backoffDelay_mono (s t : Nat) (h : s ≤ t) : backoffDelay s ≤ backoffDelay t := by
  have hpow : 2 ^ min s 32 ≤ 2 ^ min t 32 := Nat.pow_le_pow_right (by decide) (by omega)
  have hgrow : seconds 5 * (2 ^ min s 32 : Nat) ≤ seconds 5 * (2 ^ min t 32 : Nat) :=
    Int.mul_le_mul_of_nonneg_left (by omega) (seconds_nonneg 5)
  rw [backoffDelay_eq, backoffDelay_eq]
  exact min_le_min_left _ hgrow

theorem backoffDelay_bounds (n : Nat) : 0 ≤ backoffDelay n ∧ backoffDelay n ≤ seconds 3600 := by
  have hpow : 0 ≤ seconds 5 * (2 ^ min n 32 : Nat) :=
    Int.mul_nonneg (seconds_nonneg 5) (Int.natCast_nonneg _)
  have hfive := seconds_nonneg 300
  have hhour : seconds 300 ≤ seconds 3600 := seconds_mono (by decide)
  rw [backoffDelay_eq]
  omega

/-- An hour is the longest pause, whatever `Retry-After` says. -/
theorem Answer.pause_le (answer : Answer) {asked : Option Int}
    (h : answer.ending = .failure asked) (n : Nat) :
    0 ≤ pauseOf backoffDelay n asked ∧ pauseOf backoffDelay n asked ≤ seconds 3600 := by
  have hclamped : ∀ r : Int, 0 ≤ failureDelay 0 (some r)
      ∧ failureDelay 0 (some r) ≤ seconds 3600 := by
    intro r
    have hhour := seconds_nonneg 3600
    show 0 ≤ max 0 (min r (seconds 3600)) ∧ max 0 (min r (seconds 3600)) ≤ seconds 3600
    omega
  cases asked with
  | none => exact backoffDelay_bounds n
  | some p =>
      cases answer with
      | accepted => cases h
      | networkError => cases h
      | httpError code retryAfter =>
          unfold Answer.ending at h
          dsimp only at h
          split at h
          · cases retryAfter with
            | none => cases h
            | some r =>
                obtain rfl : failureDelay 0 (some r) = p := by simpa using h
                exact hclamped r
          · split at h
            · cases h
            · cases h

/-- Seventeen pauses are more than an hour. -/
theorem hour_lt_waits (s n : Nat) : seconds 3600 < waits backoffDelay s (17 + n) := by
  have hfirst : waits backoffDelay 0 17 = seconds 3615 := by decide
  have hmono := Backoff.waits_mono backoffDelay_mono 17 (Nat.zero_le s)
  have hrest := Backoff.waits_nonneg (fun s => (backoffDelay_bounds s).1) n (s + 17)
  have hhour : seconds 3600 < seconds 3615 := by decide
  rw [hfirst] at hmono
  rw [Backoff.waits_add]
  omega

/-! ## §4. The requests of a process. -/

/-- **The API is not hammered, and the reporter is not parked.**  Whatever a process finds to
read and whatever the API answers, behind a request that failed the next one comes after its
pause, be that one the API asked for or one that grows with the failures in a row since the
last report that was accepted; in an outage there are no more than seventeen requests in an
hour; and no cooldown has more than an hour to go. -/
theorem reporter_backsOff (lib : Library) (f : Follower) (sup : Suppressor) (sights : List Sight)
    (c c' : Int) (hepoch : 0 ≤ c) (htimed : SightsTimed c sights c') (requests : List Attempt)
    (q : Option Process)
    (hrun : followPasses lib (some (f, .fresh false, sup)) sights = (requests, q)) :
    (∀ pre x y post asked, requests = pre ++ x :: y :: post → x.ending = .failure asked →
        x.time + pauseOf backoffDelay (streakAfter 0 pre) asked ≤ y.time)
      ∧ (∀ pre x out post, requests = pre ++ x :: out ++ post →
        (∀ y ∈ x :: out, y.ending = .failure none) →
        (∀ y ∈ (x :: out).getLast?, y.time ≤ x.time + seconds 3600) → (x :: out).length ≤ 17)
      ∧ ∀ p ∈ q, ∀ now, c' ≤ now → p.2.1.inCooldown now ≤ seconds 3600 := by
  have hdry : (Reporter.fresh false).dryRun = false := rfl
  obtain ⟨b, hkeeps, hlast, hall⟩ := @followPasses_keeps lib sights f _ sup c c' hdry htimed
  rw [hrun] at hkeeps hlast hall
  have hend := htimed.le
  have hhour := seconds_nonneg 3600
  refine ⟨?_, ?_, ?_⟩
  · intro pre x y post asked heq hx
    rw [heq] at hkeeps
    exact hkeeps.spaced hx
  · intro pre x out post heq hout hwithin
    rw [heq, List.append_assoc] at hkeeps
    obtain ⟨b₁, -, -, hrest⟩ := hkeeps.split
    obtain ⟨b₂, houtage, -⟩ := @Backoff.Keeps.split _ (x :: out) post _ _ hrest
    -- Eighteen attempts are seventeen pauses apart, and these are more than an hour.
    by_contra hmany
    obtain ⟨n, hn⟩ : ∃ n, out.length = 17 + n :=
      ⟨out.length - 17, by simp only [List.length_cons] at hmany; omega⟩
    obtain ⟨y, hy⟩ : ∃ y, (x :: out).getLast? = some y :=
      ⟨_, List.getLast?_eq_some_getLast (List.cons_ne_nil x out)⟩
    have hspread := houtage.outage hout y hy
    have hlong := hour_lt_waits b₁.streak n
    have hshort := hwithin y hy
    rw [hn] at hspread
    omega
  · intro p hp now hnow
    -- No pause is longer than an hour, whatever the server asks for.
    have hdue : b.due ≤ c' + seconds 3600 := by
      refine hkeeps.due_le ?_ ?_ ?_
      · show 0 ≤ c' + seconds 3600
        omega
      · show (0 : Int) ≤ c' + seconds 3600
        omega
      · intro x hx
        obtain ⟨htime, answer, hanswer⟩ := hall x hx
        refine ⟨htime, ?_⟩
        intro asked n hasked
        exact (answer.pause_le (hanswer.symm.trans hasked) n).2
    have hbackoff := hlast p hp
    have huntil : p.2.1.cooldownUntil = b.due := by
      rw [← hbackoff]
      rfl
    unfold Reporter.inCooldown
    rw [huntil]
    omega

/-- A look at the log of one hit while the network is down. -/
def downAt (now : Int) : Sight where
  opened := some (7, (contentOf [oneHit]).length)
  checkAt := now
  content := contentOf [oneHit]
  lineAt := now
  allowed := true
  answer := .networkError
  saveAt := now
  disk := some (7, (contentOf [oneHit]).length)

/-- The second look comes too early. -/
def threeLooks : List Sight := [downAt (seconds 100), downAt (seconds 104), downAt (seconds 105)]

/-- Of three looks in six seconds two make a request, five seconds apart, and ten more are
to wait. -/
theorem reporter_backsOff_threeLooks :
    ∃ x y q, followPasses plainLibrary (some (.start none [], .fresh false, .load 900 1000 none))
        threeLooks = ([x, y], q)
      ∧ x.time + backoffDelay 0 ≤ y.time
      ∧ ∀ p ∈ q, p.2.1.inCooldown (seconds 105) ≤ seconds 3600 := by
  let requests : List Attempt :=
    [⟨seconds 100, .failure none⟩, ⟨seconds 105, .failure none⟩]
  have hrequests : (followPasses plainLibrary
      (some (.start none [], .fresh false, .load 900 1000 none)) threeLooks).1 = requests := by
    decide
  have htimed : SightsTimed 0 threeLooks (seconds 105) :=
    ⟨by decide, le_refl _, le_refl _, by decide, le_refl _, le_refl _, by decide, le_refl _,
      le_refl _, le_refl _⟩
  obtain ⟨hspaced, -, hhour⟩ := reporter_backsOff plainLibrary (.start none [])
    (.load 900 1000 none) threeLooks 0 (seconds 105) (le_refl 0) htimed requests _
    (Prod.ext hrequests rfl)
  exact ⟨_, _, _, Prod.ext hrequests rfl, hspaced [] _ _ [] none rfl rfl,
    fun p hp => hhour p hp (seconds 105) (le_refl _)⟩

end HttpShield
