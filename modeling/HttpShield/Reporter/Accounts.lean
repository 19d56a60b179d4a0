/-
  HttpShield.Reporter.Accounts
  ────────────────────────────
  What becomes of the lines of the log, over whole runs of the daemon.

  A report is in the suppressor's state file as soon as it is accepted; the offset follows
  later, so after a crash some lines are read again, and it is for the suppressor to know
  them.  Between the answer of the API and the save a crash loses the report: that is the
  only way to exceed the quota.

    • `Daemon.step_inv` — no deed breaks the invariant,
    • `daemon_accounts` — every line passed by has been accounted for.
-/
import HttpShield.Reporter.Daemon

namespace HttpShield

open JsonText (Text Value loads)

/-! ## §1. What has become of the lines. -/

/-- The event of the log file that a note is of. -/
def Note.seen : Note → Option Event
  | .started => some .started
  | .saved offset inode => some (.saved offset inode)
  | .call h _ => some (.handed h)
  | .cut _ _ _ => none

def seen (notes : List Note) : List Event := notes.filterMap Note.seen

/-- A report that was accepted and saved. -/
def Note.recorded : Note → Option Accepted
  | .started => none
  | .saved _ _ => none
  | .call h p => p.accepted.map (·, h.time)
  | .cut ip time recorded => if recorded then some (ip, time) else none

def recordedOf (notes : List Note) : List Accepted := notes.filterMap Note.recorded

/-- A report that was accepted in a call cut short before it was saved. -/
def Note.lost : Note → Option Accepted
  | .started => none
  | .saved _ _ => none
  | .call _ _ => none
  | .cut ip time recorded => if recorded then none else some (ip, time)

def lostOf (notes : List Note) : List Accepted := notes.filterMap Note.lost

/-- A report that was accepted, saved or not. -/
def Note.accepted : Note → Option Accepted
  | .started => none
  | .saved _ _ => none
  | .call h p => p.accepted.map (·, h.time)
  | .cut ip time _ => some (ip, time)

def acceptedOf (notes : List Note) : List Accepted := notes.filterMap Note.accepted

/-- **How a line may be done with**, at the time of the call that passed it by. -/
inductive Disposed (lib : Library) (windowS dailyCap : Int) (past : List Note) (h : Handed)
    (p : Processed) : Prop where
  | unreportable (hip : lineIp lib (codes h.line) = none)
  /-- The report is accepted. -/
  | accepted (payload : Payload) (hip : lineIp lib (codes h.line) = some payload.ip)
      (hreport : p.report = some (payload, .ok))
  /-- The report is refused for good. -/
  | refused (payload : Payload) (hip : lineIp lib (codes h.line) = some payload.ip)
      (hreport : p.report = some (payload, .drop))
  /-- The reports of the day are used up. -/
  | capped (ip : Text) (day : Int) (hip : lineIp lib (codes h.line) = some ip)
      (hday : utcDay h.time = some day)
      (hcap : dailyCap ≤ reportsOn day (recordedOf past))
  /-- The address was reported within the window. -/
  | recent (ip : Text) (t : Int) (hip : lineIp lib (codes h.line) = some ip)
      (hreport : (ip, t) ∈ recordedOf past) (hwindow : h.time - t < windowS * seconds 1)

/-- The line behind those in front of it is done with. -/
def Settled (lib : Library) (windowS dailyCap : Int) (past : List Note) (pre : List LogLine)
    (l : LogLine) : Prop :=
  ∃ before h p after, past = before ++ .call h p :: after ∧ h.pos = (contentOf pre).length
    ∧ h.line = l.text ∧ Disposed lib windowS dailyCap before h p

/-! ## §2. What the suppressor knows. -/

/-- The suppressor's count and its addresses are those of the reports. -/
structure Known (cap : Int) (s : SavedReports) (reports : List Accepted) (clock : Int) : Prop where
  tallied : Tallied cap s reports clock
  last : ∀ ip t, s.last ip = some t → (ip, t) ∈ reports

/-- An address is remembered only if it was reported. -/
theorem reported_mem {sup : Suppressor} {reports : List Accepted} {ip : Text} {now : Int}
    (h : ∀ ip t, sup.last ip = some t → (ip, t) ∈ reports) (ip' : Text) (t : Int)
    (hlast : (sup.reported ip now).last ip' = some t) : (ip', t) ∈ reports ++ [(ip, now)] := by
  have hkept : (Function.update sup.last ip (some now) ip').filter
      (fun t => now - sup.window ≤ t) = some t := hlast
  have hlast := (Option.filter_eq_some_iff.mp hkept).1
  by_cases hip : ip' = ip
  · subst hip
    rw [Function.update_self] at hlast
    cases hlast
    exact List.mem_append_right _ (List.mem_singleton_self _)
  · rw [Function.update_of_ne hip] at hlast
    exact List.mem_append_left _ (h ip' t hlast)

theorem rolled_last {sup : Suppressor} {reports : List Accepted} {today : Int}
    (h : ∀ ip t, sup.last ip = some t → (ip, t) ∈ reports) (ip : Text) (t : Int)
    (hlast : (sup.rolled today).last ip = some t) : (ip, t) ∈ reports := by
  unfold Suppressor.rolled at hlast
  split_ifs at hlast with hday
  · exact h ip t hlast

theorem known_lasting (windowS dailyCap : Int) :
    Lasting (fun _ _ _ => True) (Known dailyCap) windowS dailyCap where
  none := by
    intro clock
    refine ⟨(tallied_lasting windowS dailyCap).none clock, ?_⟩
    intro ip t hlast
    cases hlast
  later := fun s reports clock now h hle =>
    ⟨(tallied_lasting windowS dailyCap).later s reports clock now h.tallied hle, h.last⟩
  rolled := fun sup reports now today _ h hday _ => ⟨h.tallied.rolled hday, rolled_last h.last⟩
  reported := fun sup reports ip now today hwindow hcap h hday htoday hallows =>
    ⟨(tallied_lasting windowS dailyCap).reported sup reports ip now today hwindow hcap h.tallied
      hday htoday hallows, reported_mem h.last⟩

section Knows

variable {inv : SavedReports → List Accepted → Int → Prop} {q : Quota} {reports : List Accepted}

/-- What the suppressor knows stays true as time passes. -/
theorem Quota.Knows.later (h : q.Knows inv reports)
    (hlasting : Lasting (fun _ _ _ => True) inv q.windowS q.dailyCap) {now : Int}
    (hle : q.clock ≤ now) : ({ q with clock := now } : Quota).Knows inv reports where
  saved := hlasting.later _ _ _ _ h.saved hle
  proc := by
    intro sup rep hproc
    obtain ⟨hwindow, hcap, hinv⟩ := h.proc sup rep hproc
    exact ⟨hwindow, hcap, hlasting.later _ _ _ _ hinv hle⟩

/-- What the state file knows stays true when the process ends. -/
theorem Quota.Knows.gone (h : q.Knows inv reports) :
    ({ q with proc := none } : Quota).Knows inv reports where
  saved := h.saved
  proc := by
    intro sup rep hproc
    cases hproc

/-- A process that is started knows what the state file does. -/
theorem Quota.Knows.started (h : q.Knows inv reports)
    (hlasting : Lasting (fun _ _ _ => True) inv q.windowS q.dailyCap) (lib : Library)
    (dryRun : Bool) :
    ({ q with proc := some (.load q.windowS q.dailyCap q.saved, .fresh dryRun) } : Quota).Knows inv
      reports := by
  have hmeets : q.Meets (fun _ _ _ => True) lib (.start dryRun) := trivial
  have hstart := (step_knows hlasting h hmeets rfl).1
  rw [List.append_nil] at hstart
  exact hstart

/-- The process and its state file behind a call. -/
def Quota.behind (q : Quota) (p : Processed) (now : Int) : Quota :=
  { q with
    saved := p.stored q.saved
    proc := p.result.map fun _ => (p.sup, p.reporter)
    clock := now }

/-- What the suppressor knows stays true behind a call, the report of the call included. -/
theorem Quota.Knows.called (h : q.Knows inv reports)
    (hlasting : Lasting (fun _ _ _ => True) inv q.windowS q.dailyCap) {lib : Library}
    {sup : Suppressor} {rep : Reporter} (hproc : q.proc = some (sup, rep)) {line : Text}
    {answer : Answer} {now : Int} (hclock : q.clock ≤ now) {p : Processed}
    (hp : p = sup.processLine lib rep line answer now) :
    (q.behind p now).Knows inv (reports ++ p.accepted.toList.map (·, now)) := by
  subst hp
  have hstep : q.step lib (.call line answer now)
      = some (q.behind (sup.processLine lib rep line answer now) now,
        (sup.processLine lib rep line answer now).accepted.toList.map (·, now)) := by
    unfold Quota.step
    dsimp only
    rw [hproc]
    dsimp only
    rw [if_pos hclock]
    rfl
  have hmeets : q.Meets (fun _ _ _ => True) lib (.call line answer now) :=
    fun _ _ _ _ _ _ => trivial
  exact (step_knows hlasting h hmeets hstep).1

end Knows

/-! ## §3. What becomes of a line. -/

/-- The payload that is sent about an entry. -/
def payloadOf (lib : Library) (entry : List (Text × Value)) : Payload where
  ip := lib.field entry "ip" ""
  categories := categoriesFor (lib.field entry "cat" "")
  comment := buildComment lib entry
  timestamp := lib.field entry "ts" ""

theorem sendReport_report (lib : Library) (sup : Suppressor) (rep : Reporter)
    (entry : List (Text × Value)) (answer : Answer) (now : Int) :
    ∃ outcome, (sendReport lib sup rep entry (lib.field entry "ip" "") answer now).report
      = some (payloadOf lib entry, outcome) := by
  unfold sendReport
  dsimp only
  rcases rep.report answer now with ⟨outcome, rep'⟩
  refine ⟨outcome, ?_⟩
  cases outcome with
  | ok =>
      cases sup.record (lib.field entry "ip" "") now with
      | none => rfl
      | some sup' => rfl
  | retry => rfl
  | drop => rfl

/-- **What is sent** is read off the line, and about its address. -/
theorem processLine_payload {lib : Library} {sup : Suppressor} {rep : Reporter} {line : Text}
    {answer : Answer} {now : Int} {payload : Payload} {outcome : Outcome}
    (h : (sup.processLine lib rep line answer now).report = some (payload, outcome)) :
    lineIp lib line = some payload.ip
      ∧ ∃ entry, lib.loads (strip line) = some (.obj entry) ∧ payload = payloadOf lib entry := by
  unfold Suppressor.processLine at h
  unfold lineIp
  dsimp only at h
  split_ifs at h with hempty
  rw [if_neg hempty]
  split at h
  · cases h
  · rename_i entry hloads
    split_ifs at h with hreportable
    split at h
    · cases h
    · cases h
    · obtain ⟨outcome', hreport⟩ := sendReport_report lib _ rep entry answer now
      cases hreport.symm.trans h
      rw [hloads]
      dsimp only
      rw [if_pos hreportable]
      exact ⟨rfl, entry, rfl, rfl⟩
  · cases h

/-- **A call that passes its line by has disposed of it.** -/
theorem disposed_of_call {lib : Library} {d : Daemon} {past : List Note} {sup : Suppressor}
    {rep : Reporter} {line : Bytes} {answer : Answer} {now today : Int} {pos : Nat} {p : Processed}
    (hwindow : sup.windowS = d.windowS) (hcap : sup.dailyCap = d.dailyCap)
    (hknown : Known d.dailyCap sup.save (recordedOf past) now) (hday : utcDay now = some today)
    (hp : p = sup.processLine lib rep (codes line) answer now) (hpassed : p.result = some true) :
    Disposed lib d.windowS d.dailyCap past (p.call.handed pos line now) p := by
  have hends := sup.processLine_ends lib rep (codes line) answer hday
  have hpayload : ∀ payload outcome, p.report = some (payload, outcome) →
      lineIp lib (codes line) = some payload.ip := by
    intro payload outcome hreport
    rw [hp] at hreport
    exact (processLine_payload hreport).1
  rw [← hp] at hends
  cases hends with
  | raised h => cases hpassed
  | failed h ip hip payload rep' => cases hpassed
  | skipped h hip => exact .unreportable hip
  | reported h ip hip hallows payload rep' _ => exact .accepted payload (hpayload _ _ rfl) rfl
  | dropped h ip hip payload rep' => exact .refused payload (hpayload _ _ rfl) rfl
  | suppressed h ip hip hnot =>
      -- the cap is reached, or the last report of the address is recent
      by_cases hroom : (sup.rolled today).count < (sup.rolled today).dailyCap
      · have hrecent : ∃ prev, (sup.rolled today).last ip = some prev
            ∧ now - prev < (sup.rolled today).window := by
          by_contra hno
          refine hnot ⟨hroom, ?_⟩
          intro prev hlast
          by_contra hlt
          exact hno ⟨prev, hlast, by omega⟩
        obtain ⟨prev, hlast, hlt⟩ := hrecent
        refine .recent ip prev hip (rolled_last hknown.last ip prev hlast) ?_
        rw [← hwindow, ← rolled_windowS sup today]
        exact hlt
      · have hcount := (hknown.tallied.rolled hday).count today (rolled_day sup today)
        refine .capped ip today hip hday ?_
        rw [← hcount, ← hcap, ← rolled_dailyCap sup today]
        exact Int.not_lt.mp hroom

/-! ## §4. The invariant.

A daemon is two machines on one clock: the follower with its position, and the
suppressor with its reports.  The invariant has a part for each, and one about the
calls. -/

/-- **The invariant** of a run. -/
structure DaemonInv (lib : Library) (d : Daemon) (notes : List Note) : Prop where
  machine : RunInv d.machine (seen notes)
  known : d.quota.Knows (Known d.dailyCap) (recordedOf notes)
  disposed : ∀ before h p after, notes = before ++ .call h p :: after → h.result = some true →
    Disposed lib d.windowS d.dailyCap before h p

theorem seen_append (notes more : List Note) : seen (notes ++ more) = seen notes ++ seen more :=
  List.filterMap_append

theorem recordedOf_append (notes more : List Note) :
    recordedOf (notes ++ more) = recordedOf notes ++ recordedOf more := List.filterMap_append

theorem seen_events {events : List Event} (h : Saves events) :
    seen (events.filterMap Event.note) = events := by
  induction events with
  | nil => rfl
  | cons e rest ih =>
      obtain ⟨offset, inode, rfl⟩ := h e List.mem_cons_self
      have hrest := ih fun e' he => h e' (List.mem_cons_of_mem _ he)
      show .saved offset inode :: seen (rest.filterMap Event.note) = _
      rw [hrest]

theorem event_recorded (e : Event) : e.note.bind Note.recorded = none := by
  cases e with
  | started => rfl
  | handed h => rfl
  | saved offset inode => rfl

theorem recordedOf_events (events : List Event) :
    recordedOf (events.filterMap Event.note) = [] := by
  unfold recordedOf
  rw [List.filterMap_filterMap]
  exact List.filterMap_eq_nil_iff.mpr fun e _ => event_recorded e

theorem seen_notes {r : Pass} (h : Saves r.saves) : seen r.notes = r.events := by
  unfold Pass.notes Pass.events
  rw [seen_append, seen_events h]
  cases r.call with
  | none => rfl
  | some c => rfl

/-- A call in a longer history is one of before, or a new one. -/
theorem call_cut {notes more before after : List Note} {h : Handed} {p : Processed}
    (heq : notes ++ more = before ++ .call h p :: after) :
    (∃ rest, notes = before ++ .call h p :: rest)
      ∨ ∃ between, before = notes ++ between ∧ more = between ++ .call h p :: after := by
  rcases List.append_eq_append_iff.mp heq with ⟨between, hbefore, hmore⟩ | ⟨rest, hnotes, hrest⟩
  · exact .inr ⟨between, hbefore, hmore⟩
  · cases rest with
    | nil =>
        refine .inr ⟨[], ?_, hrest.symm⟩
        rw [hnotes, List.append_nil, List.append_nil]
    | cons x rest =>
        cases hrest
        exact .inl ⟨rest, hnotes⟩

/-- No event is noted as a call of `process_line`: a pass notes its call apart. -/
theorem not_call_events (events : List Event) {before after : List Note} {h : Handed}
    {p : Processed} (heq : events.filterMap Event.note = before ++ .call h p :: after) : False := by
  have hmem : Note.call h p ∈ events.filterMap Event.note := by
    rw [heq]
    exact List.mem_append_right _ List.mem_cons_self
  obtain ⟨e, -, he⟩ := List.mem_filterMap.mp hmem
  cases e with
  | started => cases he
  | handed h' => cases he
  | saved offset inode => cases he

/-- **A deed without a call keeps the invariant**, when it keeps its two parts
about position and memory. -/
theorem DaemonInv.quiet {lib : Library} {d d' : Daemon} {notes more : List Note}
    (hinv : DaemonInv lib d notes) (hmachine : RunInv d'.machine (seen (notes ++ more)))
    (hknown : d'.quota.Knows (Known d'.dailyCap) (recordedOf (notes ++ more)))
    (hsame : d'.windowS = d.windowS ∧ d'.dailyCap = d.dailyCap)
    (hquiet : ∀ before h p after, more ≠ before ++ .call h p :: after) :
    DaemonInv lib d' (notes ++ more) where
  machine := hmachine
  known := hknown
  disposed := by
    intro before h p after heq hpassed
    rw [hsame.1, hsame.2]
    rcases call_cut heq with ⟨rest, hnotes⟩ | ⟨between, -, hmore⟩
    · exact hinv.disposed before h p rest hnotes hpassed
    · exact absurd hmore (hquiet between h p after)

/-! ## §5. No deed breaks it. -/

section Deeds

variable {lib : Library} {d : Daemon} {notes : List Note} {f : Follower} {rep : Reporter}
  {sup : Suppressor} {g : Pickup}

/-- The state file behind a pass depends only on the offsets that it saves. -/
theorem persist_events (logPath : Bytes) (state : Option Saved) (r : Pass) :
    persist logPath state r.events = persist logPath state r.saves := by
  unfold Pass.events
  cases r.call with
  | none => rfl
  | some c => rfl

/-- A pass keeps the part of the invariant about the log file and its position. -/
theorem DaemonInv.pass_machine (hloads : lib.loads = loads) (hinv : DaemonInv lib d notes)
    (hproc : d.proc = some (f, rep, sup)) (htimed : g.Timed d.clock) :
    RunInv (d.after g (followPass lib f rep sup (d.sight g))).machine
      (seen (notes ++ (followPass lib f rep sup (d.sight g)).notes)) := by
  obtain ⟨today, hday⟩ := Option.isSome_iff_exists.mp htimed.2.2.2
  obtain ⟨allowed, hpass⟩ := followPass_loopPass lib hloads f rep sup (d.sight g) hday
  have hmachine : d.machine.proc = some (f, rep) := by
    show d.proc.map _ = _
    rw [hproc]
    rfl
  have hround : (g.round allowed).Timed d.machine.clock := ⟨htimed.1, htimed.2.1, htimed.2.2.1⟩
  have hrun := pass_inv (k := lib.checks) hinv.machine hmachine hround
  have hsight : d.machine.sight (g.round allowed) = { d.sight g with allowed := allowed } := rfl
  rw [hsight, hpass] at hrun
  have hsaves := (followPass_ends lib f rep sup (d.sight g)).saves
  rw [seen_append, seen_notes hsaves]
  generalize followPass lib f rep sup (d.sight g) = r at hrun ⊢
  have hafter : (d.after g r).machine = d.machine.after (g.round allowed)
      (r.next.map fun n => (n.1, n.2.1), r.events) := by
    unfold Daemon.after Machine.after Daemon.machine
    dsimp only
    rw [persist_events]
    rfl
  rw [hafter]
  exact hrun

/-! ## §6. The suppressor in a pass. -/

/-- The process behind a call, as the suppressor's side sees it. -/
theorem next_quota (p : Processed) (next : Option Follower)
    (hnext : next.isSome = p.result.isSome) :
    (next.map (·, p.reporter, p.sup)).map (fun q => (q.2.2, q.2.1))
      = p.result.map fun _ => (p.sup, p.reporter) := by
  cases next with
  | none =>
      cases hresult : p.result with
      | none => rfl
      | some returned =>
          rw [hresult] at hnext
          cases hnext
  | some f =>
      cases hresult : p.result with
      | none =>
          rw [hresult] at hnext
          cases hnext
      | some returned => rfl

theorem recordedOf_notes (r : Pass) :
    recordedOf r.notes = (r.call.bind fun c => c.2.accepted.map (·, c.1.time)).toList := by
  unfold Pass.notes
  rw [recordedOf_append, recordedOf_events, List.append_nil]
  cases r.call with
  | none => rfl
  | some c =>
      have hnote : (Note.call c.1 c.2).recorded = c.2.accepted.map (·, c.1.time) := rfl
      cases haccepted : c.2.accepted with
      | none => simp [recordedOf, hnote, haccepted]
      | some ip => simp [recordedOf, hnote, haccepted]

/-- A pass keeps the part of the invariant about what the suppressor knows. -/
theorem DaemonInv.pass_known (hinv : DaemonInv lib d notes) (hproc : d.proc = some (f, rep, sup))
    (htimed : g.Timed d.clock) {r : Pass} (hends : r.Ends lib rep sup (d.sight g)) :
    (d.after g r).quota.Knows (Known d.dailyCap) (recordedOf (notes ++ r.notes)) := by
  have hlasting := known_lasting d.quota.windowS d.quota.dailyCap
  have hquota : d.quota.proc = some (sup, rep) := by
    show d.proc.map _ = _
    rw [hproc]
    rfl
  have hclock : d.quota.clock ≤ g.lineAt := by
    show d.clock ≤ g.lineAt
    omega
  rw [recordedOf_append, recordedOf_notes]
  -- A pass without a call moves the clock only; a call adds the report
  -- that was accepted in it.
  cases hends with
  | idle f' saves hsaves =>
      have hsame : (d.after g ⟨some (f', rep, sup), none, saves⟩).quota
          = { d.quota with clock := g.saveAt } := by
        unfold Daemon.after Daemon.quota
        rw [hproc]
        rfl
      rw [hsame]
      show Quota.Knows _ _ (recordedOf notes ++ [])
      rw [List.append_nil]
      exact hinv.known.later hlasting (Int.le_trans hclock htimed.2.2.1)
  | called pos line p next saves hsaves hp hnext =>
      have hsame : (d.after g ⟨next.map (·, p.reporter, p.sup),
          some (p.call.handed pos line g.lineAt, p), saves⟩).quota
          = { d.quota.behind p g.lineAt with clock := g.saveAt } := by
        unfold Daemon.after Daemon.quota Quota.behind
        dsimp only
        rw [next_quota p next hnext]
        rfl
      have hcalled := hinv.known.called hlasting hquota hclock hp
      have hreports : (p.accepted.map (·, g.lineAt)).toList
          = p.accepted.toList.map (·, g.lineAt) := by
        cases p.accepted with
        | none => rfl
        | some ip => rfl
      show Quota.Knows _ (d.after g ⟨next.map (·, p.reporter, p.sup),
          some (p.call.handed pos line g.lineAt, p), saves⟩).quota
        (recordedOf notes ++ (p.accepted.map (·, g.lineAt)).toList)
      rw [hsame, hreports]
      exact hcalled.later hlasting htimed.2.2.1

/-- **A pass keeps the invariant.** -/
theorem DaemonInv.pass (hloads : lib.loads = loads) (hinv : DaemonInv lib d notes)
    (hproc : d.proc = some (f, rep, sup)) (htimed : g.Timed d.clock) :
    DaemonInv lib (d.after g (followPass lib f rep sup (d.sight g)))
      (notes ++ (followPass lib f rep sup (d.sight g)).notes) := by
  obtain ⟨today, hday⟩ := Option.isSome_iff_exists.mp htimed.2.2.2
  have hmachine := hinv.pass_machine hloads hproc htimed
  have hends := followPass_ends lib f rep sup (d.sight g)
  generalize followPass lib f rep sup (d.sight g) = r at hmachine hends ⊢
  have hknown := hinv.pass_known hproc htimed hends
  cases hends with
  | idle f' saves hsaves =>
      exact hinv.quiet hmachine hknown ⟨rfl, rfl⟩ fun _ _ _ _ => not_call_events saves
  | called pos line p next saves hsaves hp hnext =>
      refine ⟨hmachine, hknown, ?_⟩
      intro before h p' after heq hpassed
      rcases call_cut heq with ⟨rest, hnotes⟩ | ⟨between, hbefore, hmore⟩
      · exact hinv.disposed before h p' rest hnotes hpassed
      · -- the only call among the new notes is the first of them
        cases between with
        | cons x between =>
            injection hmore with _ hsaves
            exact (not_call_events saves hsaves).elim
        | nil =>
            injection hmore with hcall _
            cases hcall
            rw [hbefore, List.append_nil]
            have hquota : d.quota.proc = some (sup, rep) := by
              show d.proc.map _ = _
              rw [hproc]
              rfl
            obtain ⟨hwindow, hcap, hsup⟩ := hinv.known.proc sup rep hquota
            have hlasting := known_lasting d.quota.windowS d.quota.dailyCap
            have hclock : d.quota.clock ≤ g.lineAt := by
              show d.clock ≤ g.lineAt
              omega
            exact disposed_of_call hwindow hcap (hlasting.later _ _ _ _ hsup hclock) hday hp hpassed

/-! ## §7. Calls that do not return, and the other deeds. -/

/-- **A call that did not return keeps the invariant**, whether or not its report was saved. -/
theorem DaemonInv.cutOff (hinv : DaemonInv lib d notes) (hproc : d.proc = some (f, rep, sup))
    (htimed : g.Timed d.clock) {h : Handed} {p : Processed} {ip : Text}
    (hcall : (followPass lib f rep sup (d.sight g)).call = some (h, p))
    (hrecorded : p.recorded = some ip) (recorded : Bool) :
    DaemonInv lib (d.cutOff g p recorded) (notes ++ [.cut ip g.lineAt recorded]) := by
  have hlasting := known_lasting d.quota.windowS d.quota.dailyCap
  have hends := followPass_ends lib f rep sup (d.sight g)
  have hquota : d.quota.proc = some (sup, rep) := by
    show d.proc.map _ = _
    rw [hproc]
    rfl
  have hclock : d.quota.clock ≤ g.lineAt := by
    show d.clock ≤ g.lineAt
    omega
  have hp : ∃ line, p = sup.processLine lib rep (codes line) g.answer g.lineAt := by
    generalize followPass lib f rep sup (d.sight g) = r at hcall hends
    cases hends with
    | idle f' saves hsaves => cases hcall
    | called pos line p next saves hsaves hp hnext =>
        cases hcall
        exact ⟨line, hp⟩
  obtain ⟨line, hp⟩ := hp
  have haccepted : p.accepted = some ip := by
    have heffect := processLine_effect lib sup rep (codes line) g.answer g.lineAt
    rw [← hp] at heffect
    cases heffect with
    | none haccepted hnone _ =>
        rw [hnone] at hrecorded
        cases hrecorded
    | rolled _ _ _ haccepted hnone _ =>
        rw [hnone] at hrecorded
        cases hrecorded
    | reported _ ip' _ _ _ haccepted hsome _ =>
        rw [hsome] at hrecorded
        cases hrecorded
        exact haccepted
  refine hinv.quiet ?_ ?_ ⟨rfl, rfl⟩ ?_
  · -- the log file has grown, and the offset of the state file is the old one
    rw [seen_append, show seen [.cut ip g.lineAt recorded] = [] from rfl, List.append_nil]
    refine .gone ((hinv.machine.sound.grow g.early).grow g.late) rfl ?_
    intro st hst howns
    obtain ⟨hbehind, hle⟩ := hinv.machine.state st hst howns
    exact ⟨(hbehind.grow g.early).grow g.late, hle⟩
  · rw [recordedOf_append]
    cases recorded with
    | true =>
        have hcalled := (hinv.known.called hlasting hquota hclock hp).later hlasting htimed.2.2.1
        rw [haccepted] at hcalled
        exact hcalled.gone
    | false =>
        show Quota.Knows _ _ (recordedOf notes ++ [])
        rw [List.append_nil]
        exact (hinv.known.later hlasting (Int.le_trans hclock htimed.2.2.1)).gone
  · intro before h' p' after heq
    cases before with
    | nil => cases heq
    | cons x before =>
        injection heq with _ hnil
        exact absurd hnil.symm (by simp)

/-- **No deed breaks the invariant.** -/
theorem Daemon.step_inv (hloads : lib.loads = loads) {d' : Daemon} {more : List Note} {a : Deed}
    (hinv : DaemonInv lib d notes) (h : d.step lib a = some (d', more)) :
    DaemonInv lib d' (notes ++ more) ∧ d'.windowS = d.windowS ∧ d'.dailyCap = d.dailyCap := by
  have hlasting := known_lasting d.quota.windowS d.quota.dailyCap
  have hgone := hinv.known.gone
  cases a with
  | append line =>
      cases h
      rw [List.append_nil]
      exact ⟨⟨append_inv hinv.machine line, hinv.known, hinv.disposed⟩, rfl, rfl⟩
  | start dryRun =>
      cases hproc : d.proc with
      | some q =>
          simp only [Daemon.step, hproc] at h
          cases h
      | none =>
          simp only [Daemon.step, hproc] at h
          cases h
          -- A start calls nothing and reports nothing, so only position
          -- and memory are in question.
          refine ⟨hinv.quiet ?_ ?_ ⟨rfl, rfl⟩ fun _ _ _ _ =>
              not_call_events [.started],
            rfl, rfl⟩
          · rw [seen_append]
            exact start_inv hinv.machine dryRun
          · have hstarted := hinv.known.started hlasting lib dryRun
            rw [recordedOf_append]
            show Quota.Knows _ _ (recordedOf notes ++ [])
            rw [List.append_nil]
            exact hstarted
  | kill =>
      cases hproc : d.proc with
      | none =>
          simp only [Daemon.step, hproc] at h
          cases h
      | some q =>
          simp only [Daemon.step, hproc] at h
          cases h
          rw [List.append_nil]
          exact ⟨⟨.gone hinv.machine.sound rfl hinv.machine.state, hgone, hinv.disposed⟩, rfl, rfl⟩
  | stop =>
      cases hproc : d.proc with
      | none =>
          simp only [Daemon.step, hproc] at h
          cases h
      | some q =>
          obtain ⟨f, rep, sup⟩ := q
          simp only [Daemon.step, hproc] at h
          cases h
          have hmachine : d.machine.proc = some (f, rep) := by
            show d.proc.map _ = _
            rw [hproc]
            rfl
          refine ⟨hinv.quiet ?_ ?_ ⟨rfl, rfl⟩ fun _ _ _ _ => not_call_events _, rfl, rfl⟩
          · rw [seen_append, seen_events]
            · exact stop_inv hinv.machine hmachine rfl
            · intro e he
              split_ifs at he with hopen
              · exact ⟨_, _, List.mem_singleton.mp he⟩
              · cases he
          · rw [recordedOf_append, recordedOf_events, List.append_nil]
            exact hgone
  | pass g =>
      cases hproc : d.proc with
      | none =>
          simp only [Daemon.step, hproc] at h
          cases h
      | some q =>
          obtain ⟨f, rep, sup⟩ := q
          simp only [Daemon.step, hproc] at h
          split_ifs at h with htimed
          cases h
          exact ⟨hinv.pass hloads hproc htimed, rfl, rfl⟩
  | cut g recorded =>
      cases hproc : d.proc with
      | none =>
          simp only [Daemon.step, hproc] at h
          cases h
      | some q =>
          obtain ⟨f, rep, sup⟩ := q
          simp only [Daemon.step, hproc] at h
          split_ifs at h with htimed
          -- Only a pass that got a report through can be cut off behind it.
          cases hcall : (followPass lib f rep sup (d.sight g)).call with
          | none =>
              rw [hcall] at h
              cases h
          | some c =>
              rw [hcall] at h
              dsimp only at h
              cases hrecorded : c.2.recorded with
              | none =>
                  rw [hrecorded] at h
                  cases h
              | some ip =>
                  rw [hrecorded] at h
                  cases h
                  exact ⟨hinv.cutOff hproc htimed hcall hrecorded recorded, rfl, rfl⟩

/-- The invariant holds of an unused daemon without history. -/
theorem Daemon.Unused.inv (h : d.Unused) : DaemonInv lib d [] where
  machine := by
    refine Machine.Unread.inv ⟨?_, h.state⟩
    show d.proc.map _ = none
    rw [h.proc]
    rfl
  known := by
    refine Quota.Unused.knows ⟨h.reports, ?_⟩ (known_lasting d.quota.windowS d.quota.dailyCap)
    show d.proc.map _ = none
    rw [h.proc]
    rfl
  disposed := by
    intro before h p after heq
    exact absurd heq.symm (by simp)

/-- **The invariant holds in every run** of an unused daemon, and the
limits stay as they are. -/
theorem Daemon.Reach.inv (hloads : lib.loads = loads) {d₀ : Daemon} (h₀ : d₀.Unused)
    (hrun : Daemon.Reach lib d₀ d notes) :
    DaemonInv lib d notes ∧ d.windowS = d₀.windowS ∧ d.dailyCap = d₀.dailyCap := by
  induction hrun with
  | init => exact ⟨h₀.inv, rfl, rfl⟩
  | step a run h ih =>
      obtain ⟨hinv, hwindow, hcap⟩ := ih
      obtain ⟨hinv', hwindow', hcap'⟩ := Daemon.step_inv hloads hinv h
      exact ⟨hinv', hwindow'.trans hwindow, hcap'.trans hcap⟩

end Deeds

/-! ## §8. Every line is accounted for.

A line that the position has passed was handed to `process_line`, and the call that
passed it by has disposed of it. -/

/-- A finished line is settled when every call that passed its line by disposed of it. -/
theorem settled_of_done {lib : Library} {windowS dailyCap : Int} {past : List Note}
    (rest : List Note) {lines : List LogLine}
    (hdisposed : ∀ before h p after, past ++ rest = before ++ .call h p :: after →
      h.result = some true → Disposed lib windowS dailyCap before h p)
    (hdone : AllDone (seen past) lines) (pre : List LogLine) (l : LogLine) (post : List LogLine)
    (hlines : lines = pre ++ l :: post) : Settled lib windowS dailyCap past pre l := by
  obtain ⟨h, hcall, hpassed, hpos, hline⟩ := hdone pre l post hlines
  obtain ⟨e, he, heq⟩ := List.mem_filterMap.mp hcall
  obtain ⟨note, hnote, hseen⟩ := List.mem_filterMap.mp he
  cases e with
  | started => cases heq
  | saved offset inode => cases heq
  | handed h' =>
      cases heq
      cases note with
      | started => cases hseen
      | saved offset inode => cases hseen
      | cut ip time recorded => cases hseen
      | call h' p =>
          cases hseen
          obtain ⟨before, after, hpast⟩ := List.append_of_mem hnote
          refine ⟨before, h, p, after, hpast, hpos, hline, ?_⟩
          refine hdisposed before h p (after ++ rest) ?_ hpassed
          rw [hpast, List.append_assoc]
          rfl

theorem reportsOn_cons (day : Int) (r : Accepted) (reports : List Accepted) :
    reportsOn day (r :: reports) = reportsOn day [r] + reportsOn day reports :=
  reportsOn_append day [r] reports

/-- A report that was accepted is saved, or lost. -/
theorem reportsOn_accepted (day : Int) (notes : List Note) :
    reportsOn day (acceptedOf notes)
      = reportsOn day (recordedOf notes) + reportsOn day (lostOf notes) := by
  induction notes with
  | nil => rfl
  | cons note rest ih =>
      unfold acceptedOf recordedOf lostOf at ih ⊢
      cases note with
      | started => exact ih
      | saved offset inode => exact ih
      | call h p =>
          cases haccepted : p.accepted with
          | none =>
              simpa [List.filterMap_cons, Note.accepted, Note.recorded, Note.lost, haccepted]
                using ih
          | some ip =>
              simp only [List.filterMap_cons, Note.accepted, Note.recorded, Note.lost, haccepted,
                Option.map_some]
              rw [reportsOn_cons, ih, reportsOn_cons day (ip, h.time) (List.filterMap _ rest)]
              omega
      | cut ip time recorded =>
          cases recorded with
          | true =>
              simp only [List.filterMap_cons, Note.accepted, Note.recorded, Note.lost, if_true]
              rw [reportsOn_cons, ih, reportsOn_cons day (ip, time) (List.filterMap _ rest)]
              omega
          | false =>
              simp only [List.filterMap_cons, Note.accepted, Note.recorded, Note.lost,
                Bool.false_eq_true, if_false]
              rw [reportsOn_cons, ih, reportsOn_cons day (ip, time) (List.filterMap Note.lost rest)]
              omega

/-- **Every line is accounted for**, however often the daemon is killed and wherever.  When
a line is handed on, all in front of it are done with: what they report was accepted, or
refused for good, unless it is no address to report, or one reported within the window, or
the quota of the day is used up by reports.  So are all in front of the saved offset.  And
no day has more reports than the cap, but for those which a crash kept from being saved. -/
theorem daemon_accounts (lib : Library) (hloads : lib.loads = loads) {d₀ d : Daemon}
    (h₀ : d₀.Unused) {notes : List Note} (hrun : Daemon.Reach lib d₀ d notes) :
    (∀ before h p after, notes = before ++ .call h p :: after →
      ∃ pre l post, d.lines = pre ++ l :: post ∧ h.pos = (contentOf pre).length ∧ h.line = l.text
        ∧ ∀ pre' l' post', pre = pre' ++ l' :: post' →
          Settled lib d₀.windowS d₀.dailyCap before pre' l')
    ∧ (∀ st, d.state = some st → st.path = d.logPath → st.inode = d.inode →
      ∃ pre post, d.lines = pre ++ post ∧ st.offset = (contentOf pre).length
        ∧ ∀ pre' l' post', pre = pre' ++ l' :: post' →
          Settled lib d₀.windowS d₀.dailyCap notes pre' l')
    ∧ ∀ day, reportsOn day (acceptedOf notes)
      ≤ d₀.dailyCap.toNat + reportsOn day (lostOf notes) := by
  obtain ⟨hinv, hwindow, hcap⟩ := hrun.inv hloads h₀
  rw [← hwindow, ← hcap]
  refine ⟨?_, ?_, ?_⟩
  · intro before h p after heq
    have hseen : seen notes = seen before ++ .handed h :: seen after := by
      rw [heq, seen_append]
      rfl
    have hdue : Due d.lines (seen before) h := hinv.machine.sound _ _ _ hseen
    obtain ⟨pre, l, post, hlines, hpos, hline, hdone⟩ := hdue.line
    refine ⟨pre, l, post, hlines, hpos, hline, ?_⟩
    exact settled_of_done _ (heq ▸ hinv.disposed) hdone
  · intro st hst hpath hinode
    obtain ⟨⟨pre, post, hlines, hoffset, hdone⟩, -⟩ := hinv.machine.state st hst ⟨hpath, hinode⟩
    refine ⟨pre, post, hlines, hoffset, ?_⟩
    refine settled_of_done [] ?_ hdone
    rw [List.append_nil]
    exact hinv.disposed
  · intro day
    rw [reportsOn_accepted]
    have hbound : reportsOn day (recordedOf notes) ≤ d.dailyCap.toNat :=
      hinv.known.saved.tallied.bound day
    omega

/-! ## §9. A report that is lost with its process. -/

/-- The deeds of a run one after the other. -/
def Daemon.run (lib : Library) (d : Daemon) : List Deed → Option (Daemon × List Note)
  | [] => some (d, [])
  | a :: rest => do
      let (d, notes) ← d.step lib a
      let (d, more) ← d.run lib rest
      return (d, notes ++ more)

theorem Daemon.reach_run {lib : Library} {d₀ : Daemon} (deeds : List Deed) :
    ∀ {d d' : Daemon} {notes more : List Note}, Daemon.Reach lib d₀ d notes →
      d.run lib deeds = some (d', more) → Daemon.Reach lib d₀ d' (notes ++ more) := by
  induction deeds with
  | nil =>
      intro d d' notes more hreach h
      cases h
      rw [List.append_nil]
      exact hreach
  | cons a rest ih =>
      intro d d' notes more hreach h
      unfold Daemon.run at h
      obtain ⟨⟨d₁, first⟩, hstep, h⟩ := Option.bind_eq_some_iff.mp h
      obtain ⟨⟨d₂, others⟩, hrest, h⟩ := Option.bind_eq_some_iff.mp h
      cases h
      rw [← List.append_assoc]
      exact ih (hreach.step a hstep) hrest

/-- The log of one hit, with a quota of one report a day. -/
def oneHitADay : Daemon where
  lines := [oneHit]
  inode := 7
  logPath := bytesOf "/var/log/nginx/shield.json"
  clock := 0
  windowS := 900
  dailyCap := 1
  state := none
  reports := none
  proc := none

theorem oneHitADay_unused : oneHitADay.Unused where
  proc := rfl
  state := by
    intro st hst
    cases hst
  reports := rfl

/-- A pass at a time, with a report that is accepted. -/
def pickupAt (now : Int) : Pickup := ⟨[], [], now, now, now, .accepted⟩

/-- Killed before the report is saved, and started again. -/
def crashed : List Deed :=
  [.start false, .cut (pickupAt (seconds 100)) false, .start false, .pass (pickupAt (seconds 101)),
    .kill, .start false, .pass (pickupAt (seconds 102))]

/-- The report is lost, and made again: one more than the quota.  The line that was not yet
behind the saved offset is read a third time, and suppressed. -/
theorem daemon_accounts_crashed :
    ∃ d notes, Daemon.Reach plainLibrary oneHitADay d notes
      ∧ reportsOn 0 (acceptedOf notes) = 2 ∧ reportsOn 0 (lostOf notes) = 1
      ∧ reportsOn 0 (acceptedOf notes) ≤ 1 + reportsOn 0 (lostOf notes) := by
  have hcounts : ((oneHitADay.run plainLibrary crashed).map fun r =>
      (reportsOn 0 (acceptedOf r.2), reportsOn 0 (lostOf r.2))) = some (2, 1) := by
    decide
  obtain ⟨⟨d, notes⟩, hrun, hcounts⟩ := Option.map_eq_some_iff.mp hcounts
  have hreach := Daemon.reach_run crashed .init hrun
  injection hcounts with haccepted hlost
  exact ⟨d, notes, hreach, haccepted, hlost,
    (daemon_accounts plainLibrary rfl oneHitADay_unused hreach).2.2 0⟩

end HttpShield
