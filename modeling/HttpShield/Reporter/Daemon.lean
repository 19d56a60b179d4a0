/-
  HttpShield.Reporter.Daemon
  ──────────────────────────
  The whole daemon: `follow` with the suppressor it asks, and the state files of both.

  The two files are written at different times, and the daemon may be killed between any
  two writes.

    • `followPass_loopPass` — a pass is one of which the suppressor's answer was left open,
    • `followPass_ends`     — it calls `process_line` once, or leaves the objects alone.
-/
import HttpShield.Reporter.Delivery
import HttpShield.Reporter.Quota

namespace HttpShield

open JsonText (Text Value loads)

/-! ## §1. A pass with the suppressor. -/

/-- The call as it looks without the suppressor. -/
def Processed.call (p : Processed) : LineCall where
  outcome := p.report.map Prod.snd
  result := p.result
  reporter := p.reporter

/-- What a pass leaves: the variables of `follow` with the two objects, unless an exception
ended it; the call of `process_line`; and the offsets written. -/
structure Pass where
  next : Option (Follower × Reporter × Suppressor)
  call : Option (Handed × Processed)
  saves : List Event

/-- The events of a pass: the line handed on, if there is one, and the offsets saved. -/
def Pass.events (r : Pass) : List Event := (r.call.map fun c => Event.handed c.1).toList ++ r.saves

/-- A line, read at a position. -/
def Follower.onLine (lib : Library) (f : Follower) (rep : Reporter) (sup : Suppressor) (s : Sight)
    (pos : Nat) (line : Bytes) : Pass :=
  let f := { f with rotationEofs := 0 }
  let p := sup.processLine lib rep (codes line) s.answer s.lineAt
  let call := some (p.call.handed pos line s.lineAt, p)
  match p.result with
  | some true =>
      let f := { f with fh := some (pos + line.length), offset := pos + line.length }
      let (f, saved) := f.checkpoint s.saveAt
      ⟨some (f, p.reporter, p.sup), call, saved⟩
  | some false => ⟨some ({ f with fh := some pos }, p.reporter, p.sup), call, []⟩
  | none => ⟨none, call, []⟩

/-- **A pass of the loop**, with the suppressor. -/
def followPass (lib : Library) (f : Follower) (rep : Reporter) (sup : Suppressor) (s : Sight) :
    Pass :=
  match f.reopen s with
  | none => ⟨some (f, rep, sup), none, []⟩
  | some f =>
      if 0 < rep.inCooldown s.checkAt then ⟨some (f, rep, sup), none, []⟩
      else
        let pos := f.fh.getD 0
        let line := readline s.content pos
        if line ≠ [] then f.onLine lib rep sup s pos line
        else
          let (f, saves) := f.atEof s
          ⟨some (f, rep, sup), none, saves⟩

/-- A pass over a line is `atLine` with some answer of the suppressor. -/
theorem onLine_atLine (lib : Library) (hloads : lib.loads = loads) (f : Follower) (rep : Reporter)
    (sup : Suppressor) (s : Sight) (pos : Nat) (line : Bytes) {today : Int}
    (hday : utcDay s.lineAt = some today) :
    ∃ allowed, f.atLine lib.checks rep { s with allowed := allowed } pos line
      = ((f.onLine lib rep sup s pos line).next.map fun n => (n.1, n.2.1),
        (f.onLine lib rep sup s pos line).events) := by
  obtain ⟨allowed, hcall⟩ := processLine_screened lib hloads sup rep line s.answer hday
  refine ⟨allowed, ?_⟩
  have hcall : processLine lib.checks rep line allowed s.answer s.lineAt
      = (sup.processLine lib rep (codes line) s.answer s.lineAt).call := hcall
  unfold Follower.atLine Follower.onLine
  dsimp only
  rw [hcall]
  generalize sup.processLine lib rep (codes line) s.answer s.lineAt = p
  have hresult : p.call.result = p.result := rfl
  rw [hresult]
  cases p.result with
  | none => rfl
  | some returned =>
      cases returned with
      | true => rfl
      | false => rfl

/-- **A pass is one of which the suppressor's answer was left open.** -/
theorem followPass_loopPass (lib : Library) (hloads : lib.loads = loads) (f : Follower)
    (rep : Reporter) (sup : Suppressor) (s : Sight) {today : Int}
    (hday : utcDay s.lineAt = some today) :
    ∃ allowed, loopPass lib.checks f rep { s with allowed := allowed }
      = ((followPass lib f rep sup s).next.map fun n => (n.1, n.2.1),
        (followPass lib f rep sup s).events) := by
  have hreopen : ∀ allowed, f.reopen { s with allowed := allowed } = f.reopen s := fun _ => rfl
  unfold loopPass followPass
  cases hopen : f.reopen s with
  | none =>
      refine ⟨true, ?_⟩
      rw [hreopen, hopen]
      rfl
  | some f' =>
      dsimp only
      by_cases hcool : 0 < rep.inCooldown s.checkAt
      · refine ⟨true, ?_⟩
        rw [hreopen, hopen]
        dsimp only
        rw [if_pos hcool, if_pos hcool]
        rfl
      · rw [if_neg hcool]
        by_cases hline : readline s.content (f'.fh.getD 0) ≠ []
        · obtain ⟨allowed, hatLine⟩ := onLine_atLine lib hloads f' rep sup s (f'.fh.getD 0)
            (readline s.content (f'.fh.getD 0)) hday
          refine ⟨allowed, ?_⟩
          rw [hreopen, hopen]
          dsimp only
          rw [if_neg hcool, if_pos hline, if_pos hline]
          exact hatLine
        · refine ⟨true, ?_⟩
          rw [hreopen, hopen]
          dsimp only
          rw [if_neg hcool, if_neg hline, if_neg hline]
          rfl

/-! ## §2. How a pass ends. -/

/-- The events write offsets, and nothing else. -/
def Saves (events : List Event) : Prop := ∀ e ∈ events, ∃ offset inode, e = .saved offset inode

theorem checkpoint_saves (f : Follower) (now : Int) : Saves (f.checkpoint now).2 := by
  intro e he
  unfold Follower.checkpoint at he
  split_ifs at he with hdue
  · exact ⟨_, _, List.mem_singleton.mp he⟩
  · cases he

theorem drained_saves (f : Follower) : Saves f.drained.2 := by
  intro e he
  unfold Follower.drained at he
  split_ifs at he with hgrace
  · cases he
  · exact ⟨_, _, List.mem_singleton.mp he⟩

theorem checkRotation_saves (f : Follower) (s : Sight) : Saves (f.checkRotation s).2 := by
  unfold Follower.checkRotation
  cases s.disk with
  | none => exact drained_saves f
  | some found =>
      dsimp only
      split_ifs with hleft htruncated
      · intro e he
        cases he
      · exact drained_saves f
      · intro e he
        cases he

theorem atEof_saves (f : Follower) (s : Sight) : Saves (f.atEof s).2 := by
  intro e he
  unfold Follower.atEof at he
  rcases List.mem_append.mp he with hcheckpoint | hrotation
  · exact checkpoint_saves f s.saveAt e hcheckpoint
  · exact checkRotation_saves _ s e hrotation

theorem saves_nil : Saves [] := by
  intro e he
  cases he

/-- What a pass does with the suppressor: nothing, or one call of `process_line`. -/
inductive Pass.Ends (lib : Library) (rep : Reporter) (sup : Suppressor) (s : Sight) :
    Pass → Prop where
  | idle (f : Follower) (saves : List Event) (hsaves : Saves saves) :
      Pass.Ends lib rep sup s ⟨some (f, rep, sup), none, saves⟩
  | called (pos : Nat) (line : Bytes) (p : Processed) (next : Option Follower) (saves : List Event)
      (hsaves : Saves saves)
      (hp : p = sup.processLine lib rep (codes line) s.answer s.lineAt)
      (hnext : next.isSome = p.result.isSome) :
      Pass.Ends lib rep sup s ⟨next.map (·, p.reporter, p.sup),
        some (p.call.handed pos line s.lineAt, p), saves⟩

theorem Pass.Ends.saves {lib : Library} {rep : Reporter} {sup : Suppressor} {s : Sight} {r : Pass}
    (h : r.Ends lib rep sup s) : Saves r.saves := by
  cases h with
  | idle f saves hsaves => exact hsaves
  | called pos line p next saves hsaves hp hnext => exact hsaves

theorem followPass_ends (lib : Library) (f : Follower) (rep : Reporter) (sup : Suppressor)
    (s : Sight) : (followPass lib f rep sup s).Ends lib rep sup s := by
  unfold followPass
  cases f.reopen s with
  | none => exact .idle f [] saves_nil
  | some f =>
      dsimp only
      split_ifs with hcool hline
      · exact .idle f [] saves_nil
      · unfold Follower.onLine
        dsimp only
        generalize hp : sup.processLine lib rep (codes _) s.answer s.lineAt = p
        cases hresult : p.result with
        | none => exact .called _ _ p none [] saves_nil hp.symm (by rw [hresult]; rfl)
        | some returned =>
            cases returned with
            | true =>
                exact .called _ _ p (some _) _ (checkpoint_saves _ _) hp.symm (by rw [hresult]; rfl)
            | false => exact .called _ _ p (some _) [] saves_nil hp.symm (by rw [hresult]; rfl)
      · exact .idle _ _ (atEof_saves _ s)

/-! ## §3. Runs. -/

/-- The log file, the state files, the limits, and the process if there is one. -/
structure Daemon where
  lines : List LogLine
  inode : Int
  logPath : Bytes
  clock : Int
  windowS : Int
  dailyCap : Int
  state : Option Saved
  reports : Option SavedReports
  proc : Option (Follower × Reporter × Suppressor)

/-- What a pass finds out; the suppressor's answer is not among it. -/
structure Pickup where
  early : List LogLine
  late : List LogLine
  checkAt : Int
  lineAt : Int
  saveAt : Int
  answer : Answer

/-- The pass as a round, with some answer of the suppressor. -/
def Pickup.round (g : Pickup) (allowed : Bool) : Round where
  early := g.early
  late := g.late
  checkAt := g.checkAt
  lineAt := g.lineAt
  saveAt := g.saveAt
  allowed := allowed
  answer := g.answer

/-- What happens in a run. -/
inductive Deed where
  | append (line : LogLine)
  | start (dryRun : Bool)
  /-- The process is gone, without having got a report through in this pass. -/
  | kill
  /-- The process leaves the loop on `SIGTERM`. -/
  | stop
  | pass (g : Pickup)
  /-- It is gone in the middle of `process_line`: the API has accepted the report, and the
  suppressor has saved it or not. -/
  | cut (g : Pickup) (recorded : Bool)

/-- The history of a run. -/
inductive Note where
  | started
  | saved (offset : Nat) (inode : Int)
  | call (h : Handed) (p : Processed)
  /-- A report accepted in a call that did not return. -/
  | cut (ip : Text) (time : Int) (recorded : Bool)

/-- The daemon but for its suppressor. -/
def Daemon.machine (d : Daemon) : Machine where
  lines := d.lines
  inode := d.inode
  logPath := d.logPath
  clock := d.clock
  state := d.state
  proc := d.proc.map fun q => (q.1, q.2.1)

/-- The daemon but for the log file. -/
def Daemon.quota (d : Daemon) : Quota where
  windowS := d.windowS
  dailyCap := d.dailyCap
  saved := d.reports
  proc := d.proc.map fun q => (q.2.2, q.2.1)
  clock := d.clock

/-- What a pass sees of the file. -/
def Daemon.sight (d : Daemon) (g : Pickup) : Sight := d.machine.sight (g.round false)

/-- The suppressor's state file behind a call. -/
def Processed.stored (p : Processed) (old : Option SavedReports) : Option SavedReports :=
  if p.recorded.isSome then some p.sup.save else old

/-- The note of an event; that of a call says more. -/
def Event.note : Event → Option Note
  | .started => some .started
  | .handed _ => none
  | .saved offset inode => some (.saved offset inode)

/-- The notes of a pass. -/
def Pass.notes (r : Pass) : List Note :=
  (r.call.map fun c => Note.call c.1 c.2).toList ++ r.saves.filterMap Event.note

/-- The times of a pass follow each other, and `datetime` knows the day. -/
abbrev Pickup.Timed (g : Pickup) (clock : Int) : Prop :=
  clock ≤ g.checkAt ∧ g.checkAt ≤ g.lineAt ∧ g.lineAt ≤ g.saveAt ∧ (utcDay g.lineAt).isSome

/-- The world behind a pass. -/
def Daemon.after (d : Daemon) (g : Pickup) (r : Pass) : Daemon :=
  { d with
    lines := d.lines ++ g.early ++ g.late
    clock := g.saveAt
    state := persist d.logPath d.state r.saves
    reports := r.call.elim d.reports fun c => c.2.stored d.reports
    proc := r.next }

/-- The world behind a call that did not return. -/
def Daemon.cutOff (d : Daemon) (g : Pickup) (p : Processed) (recorded : Bool) : Daemon :=
  { d with
    lines := d.lines ++ g.early ++ g.late
    clock := g.saveAt
    reports := if recorded then p.stored d.reports else d.reports
    proc := none }

/-- A deed, where it is possible. -/
def Daemon.step (lib : Library) (d : Daemon) : Deed → Option (Daemon × List Note)
  | .append line => some ({ d with lines := d.lines ++ [line] }, [])
  | .start dryRun =>
      match d.proc with
      | none =>
          let sup := .load d.windowS d.dailyCap d.reports
          some ({ d with proc := some (.start d.state d.logPath, .fresh dryRun, sup) }, [.started])
      | some _ => none
  | .kill =>
      match d.proc with
      | none => none
      | some _ => some ({ d with proc := none }, [])
  | .stop =>
      match d.proc with
      | none => none
      | some (f, _) =>
          let events := if f.fh.isSome then [.saved f.offset f.curInode] else []
          some ({ d with proc := none, state := persist d.logPath d.state events },
            events.filterMap Event.note)
  | .pass g =>
      match d.proc with
      | none => none
      | some (f, rep, sup) =>
          if g.Timed d.clock then
            let r := followPass lib f rep sup (d.sight g)
            some (d.after g r, r.notes)
          else none
  | .cut g recorded =>
      match d.proc with
      | none => none
      | some (f, rep, sup) =>
          if g.Timed d.clock then
            match (followPass lib f rep sup (d.sight g)).call with
            | none => none
            | some (_, p) =>
                match p.recorded with
                | none => none
                | some ip => some (d.cutOff g p recorded, [.cut ip g.lineAt recorded])
          else none

/-- **Runs**, with their history. -/
inductive Daemon.Reach (lib : Library) (d₀ : Daemon) : Daemon → List Note → Prop where
  | init : Daemon.Reach lib d₀ d₀ []
  | step {d d' : Daemon} {notes more : List Note} (a : Deed) (run : Daemon.Reach lib d₀ d notes)
      (h : d.step lib a = some (d', more)) : Daemon.Reach lib d₀ d' (notes ++ more)

/-- The daemon has not run yet on this file, and has reported nothing. -/
structure Daemon.Unused (d : Daemon) : Prop where
  proc : d.proc = none
  state : ∀ st ∈ d.state, st.path = d.logPath → st.inode ≠ d.inode
  reports : d.reports = none

end HttpShield
