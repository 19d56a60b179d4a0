/-
  HttpShield.Reporter.Delivery
  ────────────────────────────
  Runs of the reporter on one log file: lines are appended, the process goes round its
  loop, is killed or stopped, and started again.

  The history of a run is the list of its events.  A line is finished once a call of
  `process_line` on it has returned `True`, in whichever process; a session is what one
  process has handed on so far.  The invariant says that the descriptor and the offset of
  the state file only ever stand behind finished lines.

    • `step_inv`       — no action breaks the invariant,
    • `follow_delivers` — no line is skipped, none is handed on again once it is finished,
      and no send falls into a cooldown of its own process.
-/
import HttpShield.Reporter.Follow

namespace HttpShield

/-! ## §1. Runs. -/

/-- The log file, the state file, and the process if there is one. -/
structure Machine where
  lines : List LogLine
  inode : Int
  logPath : Bytes
  clock : Int
  state : Option Saved
  proc : Option (Follower × Reporter)

/-- What a pass finds out: the lines appended between `os.fstat` and `readline`, and
between that and `os.stat`, the times it takes, and the answers that decide on a line. -/
structure Round where
  early : List LogLine
  late : List LogLine
  checkAt : Int
  lineAt : Int
  saveAt : Int
  allowed : Bool
  answer : Answer

/-- The actions of a run. -/
inductive Action where
  | append (line : LogLine)
  | start (dryRun : Bool)
  /-- The process is gone, between two passes. -/
  | kill
  /-- The process leaves the loop on `SIGTERM`. -/
  | stop
  | pass (round : Round)

/-- The state file after some events: the last offset written. -/
def persist (logPath : Bytes) (state : Option Saved) (events : List Event) : Option Saved :=
  events.foldl
    (fun state e =>
      match e with
      | .saved offset inode => some ⟨logPath, offset, inode⟩
      | _ => state)
    state

/-- What the pass sees of the file. -/
def Machine.sight (m : Machine) (round : Round) : Sight where
  opened := some (m.inode, (contentOf m.lines).length)
  checkAt := round.checkAt
  content := contentOf (m.lines ++ round.early)
  lineAt := round.lineAt
  allowed := round.allowed
  answer := round.answer
  saveAt := round.saveAt
  disk := some (m.inode, (contentOf (m.lines ++ round.early ++ round.late)).length)

/-- The world behind a pass. -/
def Machine.after (m : Machine) (round : Round)
    (r : Option (Follower × Reporter) × List Event) : Machine :=
  { m with
    lines := m.lines ++ round.early ++ round.late
    clock := round.saveAt
    state := persist m.logPath m.state r.2
    proc := r.1 }

/-- An action, where it is possible. -/
def Machine.step (k : EntryChecks) (m : Machine) : Action → Option (Machine × List Event)
  | .append line => some ({ m with lines := m.lines ++ [line] }, [])
  | .start dryRun =>
      match m.proc with
      | none =>
          some ({ m with proc := some (.start m.state m.logPath, .fresh dryRun) }, [.started])
      | some _ => none
  | .kill =>
      match m.proc with
      | none => none
      | some _ => some ({ m with proc := none }, [])
  | .stop =>
      match m.proc with
      | none => none
      | some (f, _) =>
          let events := if f.fh.isSome then [.saved f.offset f.curInode] else []
          some ({ m with proc := none, state := persist m.logPath m.state events }, events)
  | .pass round =>
      match m.proc with
      | none => none
      | some (f, rep) =>
          if m.clock ≤ round.checkAt ∧ round.checkAt ≤ round.lineAt
              ∧ round.lineAt ≤ round.saveAt then
            let r := loopPass k f rep (m.sight round)
            some (m.after round r, r.2)
          else none

/-- **Runs**, with their history. -/
inductive Reach (k : EntryChecks) (m₀ : Machine) : Machine → List Event → Prop where
  | init : Reach k m₀ m₀ []
  | step {m m' : Machine} {past events : List Event} (a : Action) (run : Reach k m₀ m past)
      (h : m.step k a = some (m', events)) : Reach k m₀ m' (past ++ events)

/-- The reporter has not seen this file: there is no process, and no state file of it. -/
structure Machine.Unread (m : Machine) : Prop where
  proc : m.proc = none
  state : ∀ st ∈ m.state, st.path = m.logPath → st.inode ≠ m.inode

/-! ## §2. Histories. -/

/-- The calls of `process_line`. -/
def calls (past : List Event) : List Handed :=
  past.filterMap fun e =>
    match e with
    | .handed h => some h
    | _ => none

/-- The calls of `process_line` since the last start of the process. -/
def session (past : List Event) : List Handed :=
  past.foldl
    (fun s e =>
      match e with
      | .started => []
      | .handed h => s ++ [h]
      | .saved _ _ => s)
    []

/-- The end of the last line for which a call returned `True`. -/
def lastEnd (past : List Event) : Nat :=
  past.foldl
    (fun n e =>
      match e with
      | .handed h => if h.result = some true then h.next else n
      | _ => n)
    0

/-- Every one of the first lines of the file is finished. -/
def AllDone (past : List Event) (lines : List LogLine) : Prop :=
  ∀ pre l post, lines = pre ++ l :: post →
    ∃ h ∈ calls past, h.result = some true ∧ h.pos = (contentOf pre).length ∧ h.line = l.text

/-- A position behind finished lines. -/
def Behind (lines : List LogLine) (past : List Event) (p : Nat) : Prop :=
  ∃ before after, lines = before ++ after ∧ p = (contentOf before).length ∧ AllDone past before

theorem calls_snoc_handed (past : List Event) (h : Handed) :
    calls (past ++ [.handed h]) = calls past ++ [h] := List.filterMap_append

/-- Events that only save the offset hold no call of `process_line`. -/
theorem calls_saves {p : Nat} {inode : Int} (saves : List Event)
    (hsaves : ∀ e ∈ saves, e = .saved p inode) : calls saves = [] := by
  induction saves with
  | nil => rfl
  | cons e saves ih =>
      obtain rfl : e = .saved p inode := hsaves e List.mem_cons_self
      exact ih fun e he => hsaves e (List.mem_cons_of_mem _ he)

theorem calls_mono {past : List Event} (events : List Event) {h : Handed} (hh : h ∈ calls past) :
    h ∈ calls (past ++ events) := by
  unfold calls at hh ⊢
  rw [List.filterMap_append]
  exact List.mem_append_left _ hh

@[simp] theorem session_started (past : List Event) : session (past ++ [.started]) = [] := by
  unfold session
  rw [List.foldl_append]
  rfl

@[simp] theorem session_handed (past : List Event) (h : Handed) :
    session (past ++ [.handed h]) = session past ++ [h] := by
  unfold session
  rw [List.foldl_append]
  rfl

@[simp] theorem session_saved (past : List Event) (offset : Nat) (inode : Int) :
    session (past ++ [.saved offset inode]) = session past := by
  unfold session
  rw [List.foldl_append]
  rfl

@[simp] theorem lastEnd_started (past : List Event) :
    lastEnd (past ++ [.started]) = lastEnd past := by
  unfold lastEnd
  rw [List.foldl_append]
  rfl

@[simp] theorem lastEnd_handed (past : List Event) (h : Handed) :
    lastEnd (past ++ [.handed h]) = if h.result = some true then h.next else lastEnd past := by
  unfold lastEnd
  rw [List.foldl_append]
  rfl

@[simp] theorem lastEnd_saved (past : List Event) (offset : Nat) (inode : Int) :
    lastEnd (past ++ [.saved offset inode]) = lastEnd past := by
  unfold lastEnd
  rw [List.foldl_append]
  rfl

theorem AllDone.mono {past : List Event} {lines : List LogLine} (h : AllDone past lines)
    (events : List Event) : AllDone (past ++ events) lines := by
  intro pre l post hsplit
  obtain ⟨c, hc, hresult, hpos, hline⟩ := h pre l post hsplit
  exact ⟨c, calls_mono events hc, hresult, hpos, hline⟩

/-- Where a list with one element more is cut: at that element, or in front of it. -/
theorem cut_snoc {α : Type} {xs pre post : List α} {x y : α} (h : xs ++ [x] = pre ++ y :: post) :
    (xs = pre ∧ x = y) ∨ ∃ rest, xs = pre ++ y :: rest := by
  rcases List.eq_nil_or_concat' post with rfl | ⟨rest, z, rfl⟩
  · obtain ⟨hxs, hlast⟩ := List.append_inj' h rfl
    exact .inl ⟨hxs, List.head_eq_of_cons_eq hlast⟩
  · right
    refine ⟨rest, ?_⟩
    have hcut : xs ++ [x] = (pre ++ y :: rest) ++ [z] := by
      rw [h, List.append_assoc, List.cons_append]
    exact (List.append_inj' hcut rfl).1

/-- A call that returned `True` finishes one line more. -/
theorem AllDone.snoc {past : List Event} {lines : List LogLine} (h : AllDone past lines)
    {l : LogLine} {c : Handed} (hresult : c.result = some true)
    (hpos : c.pos = (contentOf lines).length) (hline : c.line = l.text) :
    AllDone (past ++ [.handed c]) (lines ++ [l]) := by
  intro pre l' post hsplit
  rcases cut_snoc hsplit with ⟨rfl, rfl⟩ | ⟨rest, hlines⟩
  · -- the new line
    refine ⟨c, ?_, hresult, hpos, hline⟩
    rw [calls_snoc_handed]
    exact List.mem_append_right _ List.mem_cons_self
  · -- one in front of it
    exact h.mono [.handed c] pre l' rest hlines

theorem Behind.zero (lines : List LogLine) (past : List Event) : Behind lines past 0 := by
  refine ⟨[], lines, rfl, rfl, ?_⟩
  intro pre l post hsplit
  cases pre <;> cases hsplit

theorem Behind.mono {lines : List LogLine} {past : List Event} {p : Nat} (h : Behind lines past p)
    (events : List Event) : Behind lines (past ++ events) p := by
  obtain ⟨before, after, hlines, hp, hdone⟩ := h
  exact ⟨before, after, hlines, hp, hdone.mono events⟩

theorem Behind.grow {lines : List LogLine} {past : List Event} {p : Nat} (h : Behind lines past p)
    (more : List LogLine) : Behind (lines ++ more) past p := by
  obtain ⟨before, after, rfl, hp, hdone⟩ := h
  exact ⟨before, after ++ more, List.append_assoc .., hp, hdone⟩

/-! ## §3. What the history may hold. -/

/-- A call that is due: it is on a line of the file, in front of which all is finished, it
goes on where the session stands, and it sends nothing in a cooldown of the session. -/
structure Due (lines : List LogLine) (past : List Event) (h : Handed) : Prop where
  line : ∃ before l after, lines = before ++ l :: after ∧ h.pos = (contentOf before).length
    ∧ h.line = l.text ∧ AllDone past before
  order : ∀ h' ∈ session past, h'.next ≤ h.pos
  follows : ∀ h' ∈ (session past).getLast?, h'.next = h.pos
  cooled : h.outcome ≠ none → ∀ h' ∈ session past, h'.outcome = some .retry →
    h'.cooldownUntil ≤ h.time

/-- An event that the events in front of it allow. -/
def Warranted (lines : List LogLine) (past : List Event) : Event → Prop
  | .started => True
  | .handed h => Due lines past h
  | .saved offset _ => offset ≤ lastEnd past

/-- Every event of the history is one that the lines of the file allow. -/
def Sound (lines : List LogLine) (past : List Event) : Prop :=
  ∀ before e after, past = before ++ e :: after → Warranted lines before e

/-- Where the descriptor of a session may stand. -/
structure Positioned (lines : List LogLine) (past : List Event) (p : Nat) : Prop where
  behind : Behind lines past p
  le_last : p ≤ lastEnd past
  order : ∀ h ∈ session past, h.next ≤ p
  follows : ∀ h ∈ (session past).getLast?, h.next = p

theorem Due.grow {lines : List LogLine} {past : List Event} {h : Handed} (hdue : Due lines past h)
    (more : List LogLine) : Due (lines ++ more) past h := by
  obtain ⟨before, l, after, rfl, hpos, hline, hdone⟩ := hdue.line
  refine ⟨⟨before, l, after ++ more, ?_, hpos, hline, hdone⟩, hdue.order, hdue.follows,
    hdue.cooled⟩
  rw [List.append_assoc, List.cons_append]

theorem Sound.grow {lines : List LogLine} {past : List Event} (h : Sound lines past)
    (more : List LogLine) : Sound (lines ++ more) past := by
  intro before e after hsplit
  have he := h before e after hsplit
  cases e with
  | started => exact trivial
  | handed c => exact Due.grow he more
  | saved offset inode => exact he

theorem Sound.snoc {lines : List LogLine} {past : List Event} {e : Event} (h : Sound lines past)
    (he : Warranted lines past e) : Sound lines (past ++ [e]) := by
  intro before e' after hsplit
  rcases cut_snoc hsplit with ⟨rfl, rfl⟩ | ⟨rest, hpast⟩
  · exact he
  · exact h before e' rest hpast

theorem Positioned.grow {lines : List LogLine} {past : List Event} {p : Nat}
    (h : Positioned lines past p) (more : List LogLine) : Positioned (lines ++ more) past p :=
  ⟨h.behind.grow more, h.le_last, h.order, h.follows⟩

/-- Writing the offset leaves the descriptor where it stands. -/
theorem Positioned.saved {lines : List LogLine} {past : List Event} {p : Nat}
    (h : Positioned lines past p) (offset : Nat) (inode : Int) :
    Positioned lines (past ++ [.saved offset inode]) p := by
  refine ⟨h.behind.mono _, ?_, ?_, ?_⟩
  · rw [lastEnd_saved]
    exact h.le_last
  · rw [session_saved]
    exact h.order
  · rw [session_saved]
    exact h.follows

/-- A call on the line at the position leaves it where the call left off. -/
theorem Positioned.handed {lines : List LogLine} {past : List Event} {c : Handed}
    (h : Positioned lines past c.pos) (hdue : Due lines past c) :
    Positioned lines (past ++ [.handed c]) c.next := by
  obtain ⟨before, l, after, hlines, hpos, hline, hdone⟩ := hdue.line
  have hle := c.pos_le_next
  have hlast : ∀ h' ∈ (session (past ++ [.handed c])).getLast?, h'.next = c.next := by
    rw [session_handed, List.getLast?_append]
    intro h' heq
    cases heq
    rfl
  have horder : ∀ h' ∈ session (past ++ [.handed c]), h'.next ≤ c.next := by
    intro h' hh'
    rw [session_handed] at hh'
    rcases List.mem_append.mp hh' with hh' | hh'
    · exact Nat.le_trans (hdue.order h' hh') hle
    · rw [List.mem_singleton.mp hh']
  by_cases hresult : c.result = some true
  · -- the line is finished, and the position behind it
    have hnext : c.next = (contentOf (before ++ [l])).length := by
      unfold Handed.next
      rw [if_pos hresult, hpos, hline, contentOf_append, List.length_append, contentOf_cons]
      rw [List.length_append]
      rfl
    refine ⟨⟨before ++ [l], after, ?_, hnext, hdone.snoc hresult hpos hline⟩, ?_, horder, hlast⟩
    · rw [hlines, List.append_assoc]
      rfl
    · rw [lastEnd_handed, if_pos hresult]
  · -- the line is to be read again
    have hnext : c.next = c.pos := if_neg hresult
    refine ⟨?_, ?_, horder, hlast⟩
    · rw [hnext]
      exact h.behind.mono [.handed c]
    · rw [lastEnd_handed, if_neg hresult, hnext]
      exact h.le_last

/-- Saving the position any number of times keeps the history sound and
the descriptor in place. -/
theorem saves_keep {lines : List LogLine} {p : Nat} {inode : Int} (saves : List Event)
    (hsaves : ∀ e ∈ saves, e = .saved p inode) : ∀ past : List Event, Sound lines past →
      Positioned lines past p → Sound lines (past ++ saves) ∧ Positioned lines (past ++ saves) p
        ∧ session (past ++ saves) = session past := by
  induction saves with
  | nil =>
      intro past hsound hpos
      rw [List.append_nil]
      exact ⟨hsound, hpos, rfl⟩
  | cons e saves ih =>
      intro past hsound hpos
      obtain rfl : e = .saved p inode := hsaves e List.mem_cons_self
      have hfirst : Warranted lines past (.saved p inode) := hpos.le_last
      have hkeep := ih (fun e he => hsaves e (List.mem_cons_of_mem _ he))
        (past ++ [.saved p inode]) (hsound.snoc hfirst) (hpos.saved p inode)
      rw [session_saved, List.append_assoc, List.singleton_append] at hkeep
      exact hkeep

/-! ## §4. The invariant.

The position of the process is behind finished lines, and the offset in the state file
is behind finished lines and not ahead of the process. -/

/-- The state file is of this log file. -/
def Machine.Owns (m : Machine) (st : Saved) : Prop := st.path = m.logPath ∧ st.inode = m.inode

/-- Where the process stands: it has yet to open the file, at the offset it loaded, or it
has it open; and the state file is not ahead of it. -/
inductive Position (m : Machine) (past : List Event) (f : Follower) : Prop where
  | closed (hfh : f.fh = none) (hsession : session past = [])
      (hload : f.savedInode = m.inode →
        Behind m.lines past f.offset ∧ f.offset ≤ lastEnd past)
      (hstate : ∀ st ∈ m.state, m.Owns st → f.savedInode = m.inode ∧ f.offset = st.offset)
  | opened (p : Nat) (hat : f.At p m.inode) (hpos : Positioned m.lines past p)
      (hstate : ∀ st ∈ m.state, m.Owns st → st.offset ≤ p)

/-- **The invariant** of a run. -/
structure RunInv (m : Machine) (past : List Event) : Prop where
  sound : Sound m.lines past
  state : ∀ st ∈ m.state, m.Owns st → Behind m.lines past st.offset ∧ st.offset ≤ lastEnd past
  proc : ∀ f rep, m.proc = some (f, rep) → Position m past f
  /-- The cooldowns of the session are over, or known. -/
  cooldown : ∀ f rep, m.proc = some (f, rep) → ∀ h ∈ session past, h.outcome = some .retry →
    h.cooldownUntil ≤ rep.cooldownUntil ∨ h.cooldownUntil ≤ m.clock

theorem Machine.Unread.inv {m : Machine} (h : m.Unread) : RunInv m [] where
  sound := by
    intro before e after hsplit
    cases before <;> cases hsplit
  state := by
    intro st hst howns
    exact absurd howns.2 (h.state st hst howns.1)
  proc := by
    intro f rep hproc
    rw [h.proc] at hproc
    cases hproc
  cooldown := by
    intro f rep hproc
    rw [h.proc] at hproc
    cases hproc

/-- The state file behind some saves is as it was, or holds the saved offset. -/
theorem persist_saves {logPath : Bytes} {p : Nat} {inode : Int} (saves : List Event)
    (hsaves : ∀ e ∈ saves, e = .saved p inode) : ∀ state : Option Saved,
      ∀ st ∈ persist logPath state saves, st ∈ state ∨ st.offset = p := by
  induction saves with
  | nil =>
      intro state st hst
      exact .inl hst
  | cons e saves ih =>
      intro state st hst
      obtain rfl : e = .saved p inode := hsaves e List.mem_cons_self
      have hrest := ih (fun e he => hsaves e (List.mem_cons_of_mem _ he))
        (some ⟨logPath, p, inode⟩) st hst
      rcases hrest with hnew | hoffset
      · cases hnew
        exact .inr rfl
      · exact .inr hoffset

/-- A saved position behind finished lines leaves the state file behind finished lines, and
not ahead of the process. -/
theorem persist_behind {m : Machine} {lines : List LogLine} {past saves : List Event} {p : Nat}
    {inode : Int} (hsaves : ∀ e ∈ saves, e = .saved p inode) (hbehind : Behind lines past p)
    (hold : ∀ st ∈ m.state, m.Owns st → Behind lines past st.offset ∧ st.offset ≤ p) :
    ∀ st ∈ persist m.logPath m.state saves, m.Owns st →
      Behind lines past st.offset ∧ st.offset ≤ p := by
  intro st hst howns
  rcases persist_saves saves hsaves m.state st hst with hst | hoffset
  · exact hold st hst howns
  · rw [hoffset]
    exact ⟨hbehind, Nat.le_refl p⟩

/-- A process that stands behind finished lines, with the state file not ahead of it. -/
theorem RunInv.of_positioned {m : Machine} {past : List Event} {p : Nat}
    (hsound : Sound m.lines past) (hpos : Positioned m.lines past p)
    (hstate : ∀ st ∈ m.state, m.Owns st → Behind m.lines past st.offset ∧ st.offset ≤ p)
    (hproc : ∀ f rep, m.proc = some (f, rep) → f.At p m.inode)
    (hcooldown : ∀ f rep, m.proc = some (f, rep) → ∀ h ∈ session past, h.outcome = some .retry →
      h.cooldownUntil ≤ rep.cooldownUntil ∨ h.cooldownUntil ≤ m.clock) : RunInv m past where
  sound := hsound
  state := fun st hst howns =>
    ⟨(hstate st hst howns).1, Nat.le_trans (hstate st hst howns).2 hpos.le_last⟩
  proc := fun f rep hp =>
    .opened p (hproc f rep hp) hpos fun st hst howns => (hstate st hst howns).2
  cooldown := hcooldown

/-- Opening the file brings the process to where it stands. -/
theorem Position.reopen {m : Machine} {past : List Event} {f : Follower} (h : Position m past f)
    (round : Round) :
    ∃ f' p, f.reopen (m.sight round) = some f' ∧ f'.At p m.inode ∧ Positioned m.lines past p
      ∧ ∀ st ∈ m.state, m.Owns st → st.offset ≤ p := by
  cases h with
  | opened p hat hpos hstate =>
      refine ⟨f, p, ?_, hat, hpos, hstate⟩
      unfold Follower.reopen
      rw [hat.fh]
  | closed hfh hsession hload hstate =>
      have hempty : ∀ p, Behind m.lines past p → p ≤ lastEnd past → Positioned m.lines past p := by
        intro p hbehind hle
        refine ⟨hbehind, hle, ?_, ?_⟩ <;> rw [hsession] <;> simp
      unfold Follower.reopen
      rw [hfh]
      show ∃ f' p, (if m.inode = f.savedInode ∧ f.offset ≤ (contentOf m.lines).length then _
        else _) = some f' ∧ _
      split_ifs with hresume
      · -- resume at the offset loaded
        obtain ⟨hbehind, hle⟩ := hload hresume.1.symm
        refine ⟨_, f.offset, rfl, ⟨rfl, rfl, rfl⟩, hempty _ hbehind hle, ?_⟩
        intro st hst howns
        exact Nat.le_of_eq (hstate st hst howns).2.symm
      · -- from the top, unless the state file were of this file: its offset is within it
        refine ⟨_, 0, rfl, ⟨rfl, rfl, rfl⟩, hempty 0 (.zero _ _) (Nat.zero_le _), ?_⟩
        intro st hst howns
        obtain ⟨hinode, -⟩ := hstate st hst howns
        obtain ⟨⟨before, after, hlines, hoffset, -⟩, -⟩ := hload hinode
        refine absurd ⟨hinode.symm, ?_⟩ hresume
        rw [hoffset, hlines, contentOf_append, List.length_append]
        omega

/-! ## §5. A pass keeps it. -/

/-- The times of a pass follow each other. -/
structure Round.Timed (round : Round) (clock : Int) : Prop where
  check : clock ≤ round.checkAt
  line : round.checkAt ≤ round.lineAt
  save : round.lineAt ≤ round.saveAt

/-- The file still reaches the position when the pass looks at its size. -/
theorem sight_stable {m : Machine} {past : List Event} {p : Nat} (h : Behind m.lines past p)
    (round : Round) : (m.sight round).Stable p m.inode := by
  obtain ⟨before, after, hlines, hp, -⟩ := h
  refine ⟨_, rfl, ?_⟩
  rw [hp, hlines]
  simp only [contentOf_append, List.length_append]
  omega

/-- The line read at the position is the next line of the file. -/
theorem readline_behind {lines : List LogLine} {past : List Event} {p : Nat}
    (h : Behind lines past p) (hline : readline (contentOf lines) p ≠ []) :
    ∃ before l after, lines = before ++ l :: after ∧ p = (contentOf before).length
      ∧ readline (contentOf lines) p = l.text ∧ AllDone past before := by
  obtain ⟨before, after, hlines, hp, hdone⟩ := h
  cases after with
  | nil =>
      rw [hlines, hp, List.append_nil] at hline
      exact absurd (readline_end before) hline
  | cons l after =>
      refine ⟨before, l, after, hlines, hp, ?_, hdone⟩
      rw [hlines, hp]
      exact readline_line before after l

/-- The cooldowns of the session are over when a line is handed on. -/
theorem RunInv.cooled {m : Machine} {past : List Event} {f : Follower} {rep : Reporter}
    (hinv : RunInv m past) (hproc : m.proc = some (f, rep)) {round : Round}
    (htimed : round.Timed m.clock) (hready : rep.cooldownUntil ≤ round.checkAt) :
    ∀ h ∈ session past, h.outcome = some .retry → h.cooldownUntil ≤ round.lineAt := by
  intro h hh hretry
  have := htimed.check
  have := htimed.line
  rcases hinv.cooldown f rep hproc h hh hretry with hle | hle
  · omega
  · omega

/-- The call of a pass is due. -/
theorem RunInv.due {m : Machine} {past : List Event} {f : Follower} {rep : Reporter} {p : Nat}
    (hinv : RunInv m past) (hproc : m.proc = some (f, rep)) {round : Round}
    (htimed : round.Timed m.clock) (hpos : Positioned m.lines past p)
    (hready : rep.cooldownUntil ≤ round.checkAt)
    (hline : readline (m.sight round).content p ≠ []) (c : LineCall) :
    Due (m.lines ++ round.early) past
      (c.handed p (readline (m.sight round).content p) (m.sight round).lineAt) where
  line := readline_behind (hpos.grow round.early).behind hline
  order := hpos.order
  follows := hpos.follows
  cooled := fun _ => hinv.cooled hproc htimed hready

/-- **A pass keeps the invariant.** -/
theorem pass_inv {k : EntryChecks} {m : Machine} {past : List Event} {f : Follower}
    {rep : Reporter} (hinv : RunInv m past) (hproc : m.proc = some (f, rep)) {round : Round}
    (htimed : round.Timed m.clock) :
    RunInv (m.after round (loopPass k f rep (m.sight round)))
      (past ++ (loopPass k f rep (m.sight round)).2) := by
  obtain ⟨f', p, hopen, hat, hpos, hstate⟩ := (hinv.proc f rep hproc).reopen round
  have hends : PassEnds k f' rep (m.sight round) p m.inode (loopPass k f rep (m.sight round)) :=
    loopPass_cases hopen hat (sight_stable hpos.behind round)
  have hclock : ∀ h ∈ session past, h.outcome = some .retry →
      h.cooldownUntil ≤ rep.cooldownUntil ∨ h.cooldownUntil ≤ round.saveAt := by
    intro h hh hretry
    have := htimed.check
    have := htimed.line
    have := htimed.save
    exact (hinv.cooldown f rep hproc h hh hretry).imp_right (by omega)
  have hsound := (hinv.sound.grow round.early).grow round.late
  have hpos' := (hpos.grow round.early).grow round.late
  have hold : ∀ st ∈ m.state, m.Owns st →
      Behind (m.lines ++ round.early ++ round.late) past st.offset ∧ st.offset ≤ p :=
    fun st hst howns =>
      ⟨((hinv.state st hst howns).1.grow round.early).grow round.late, hstate st hst howns⟩
  generalize loopPass k f rep (m.sight round) = r at hends ⊢
  cases hends with
  | waits hwait =>
      -- only the file and the clock have gone on
      rw [List.append_nil]
      refine .of_positioned hsound hpos' hold ?_ ?_
      · intro f'' rep'' heq
        cases heq
        exact hat
      · intro f'' rep'' heq
        cases heq
        exact hclock
  | eof f'' saves hcool hline hat' hsaves =>
      -- what is written is the offset of the descriptor
      obtain ⟨hsound', hpos'', hsession⟩ := saves_keep saves hsaves past hsound hpos'
      have hold' : ∀ st ∈ m.state, m.Owns st →
          Behind (m.lines ++ round.early ++ round.late) (past ++ saves) st.offset
            ∧ st.offset ≤ p :=
        fun st hst howns => ⟨(hold st hst howns).1.mono saves, (hold st hst howns).2⟩
      refine .of_positioned hsound' hpos'' (persist_behind hsaves hpos''.behind hold') ?_ ?_
      · intro f₁ rep₁ heq
        cases heq
        exact hat'
      · intro f₁ rep₁ heq
        cases heq
        rw [hsession]
        exact hclock
  | handed c next saves hcool hline hcall hat' hsaves =>
      -- the call moves the descriptor on, and the offset written with it
      have hdue := (hinv.due hproc htimed hpos hcool hline c).grow round.late
      have hsound₁ := hsound.snoc (show Warranted _ past (.handed _) from hdue)
      have hpos₁ := hpos'.handed hdue
      have hpass := (c.handed p (readline (m.sight round).content p)
        (m.sight round).lineAt).pos_le_next
      obtain ⟨hsound', hpos'', hsession⟩ := saves_keep saves hsaves _ hsound₁ hpos₁
      have hstate' := persist_behind hsaves hpos''.behind fun st hst howns =>
        ⟨((hold st hst howns).1.mono _).mono saves, Nat.le_trans (hold st hst howns).2 hpass⟩
      rw [List.append_cons]
      refine .of_positioned hsound' hpos'' hstate' ?_ ?_
      · intro f₁ rep₁ hnext
        obtain ⟨f₂, hf₂, heq⟩ := Option.map_eq_some_iff.mp hnext
        cases heq
        exact hat' f₁ hf₂
      · intro f₁ rep₁ hnext h hh hretry
        obtain ⟨f₂, hf₂, heq⟩ := Option.map_eq_some_iff.mp hnext
        cases heq
        rw [hsession, session_handed] at hh
        -- earlier cooldowns are over, the new one is in the reporter
        rcases List.mem_append.mp hh with hh | hh
        · exact .inr (Int.le_trans (hinv.cooled hproc htimed hcool h hh hretry) htimed.save)
        · rw [List.mem_singleton.mp hh]
          exact .inl (Int.le_refl _)

/-! ## §6. The other actions keep it. -/

/-- Lines appended change nothing for those in front of them. -/
theorem append_inv {m : Machine} {past : List Event} (hinv : RunInv m past) (line : LogLine) :
    RunInv { m with lines := m.lines ++ [line] } past where
  sound := hinv.sound.grow [line]
  state := fun st hst howns =>
    ⟨(hinv.state st hst howns).1.grow [line], (hinv.state st hst howns).2⟩
  proc := by
    intro f rep hproc
    cases hinv.proc f rep hproc with
    | closed hfh hsession hload hstate =>
        exact .closed hfh hsession (fun h => ⟨(hload h).1.grow [line], (hload h).2⟩) hstate
    | opened p hat hpos hstate => exact .opened p hat (hpos.grow [line]) hstate
  cooldown := hinv.cooldown

/-- The invariant holds without a process when the history is sound and
the state file is right. -/
theorem RunInv.gone {m : Machine} {past : List Event} (hsound : Sound m.lines past)
    (hproc : m.proc = none) (hstate : ∀ st ∈ m.state, m.Owns st →
      Behind m.lines past st.offset ∧ st.offset ≤ lastEnd past) : RunInv m past where
  sound := hsound
  state := hstate
  proc := by
    intro f rep hp
    rw [hproc] at hp
    cases hp
  cooldown := by
    intro f rep hp
    rw [hproc] at hp
    cases hp

/-- A new process takes up the offset of the state file, or starts at the top. -/
theorem start_inv {m : Machine} {past : List Event} (hinv : RunInv m past) (dryRun : Bool) :
    RunInv { m with proc := some (.start m.state m.logPath, .fresh dryRun) }
      (past ++ [.started]) where
  sound := hinv.sound.snoc (show Warranted _ past .started from trivial)
  state := by
    intro st hst howns
    rw [lastEnd_started]
    exact ⟨(hinv.state st hst howns).1.mono _, (hinv.state st hst howns).2⟩
  proc := by
    intro f rep heq
    cases heq
    refine .closed rfl (session_started past) ?_ ?_
    · intro hinode
      rw [lastEnd_started]
      show Behind _ _ (loadOffset m.state m.logPath).1 ∧ (loadOffset m.state m.logPath).1 ≤ _
      have hload : (loadOffset m.state m.logPath).2 = m.inode := hinode
      unfold loadOffset at hload ⊢
      split at hload
      · next st hst =>
          split_ifs at hload ⊢ with hpath
          · -- the state file is of this log file
            obtain ⟨hbehind, hle⟩ := hinv.state st hst ⟨hpath, hload⟩
            exact ⟨hbehind.mono _, hle⟩
          · exact ⟨.zero _ _, Nat.zero_le _⟩
      · exact ⟨.zero _ _, Nat.zero_le _⟩
    · intro st hst howns
      show (loadOffset m.state m.logPath).2 = m.inode ∧ (loadOffset m.state m.logPath).1 = _
      have hsome : m.state = some st := hst
      unfold loadOffset
      rw [hsome]
      dsimp only
      rw [if_pos howns.1]
      exact ⟨howns.2, rfl⟩
  cooldown := by
    intro f rep _ h hh
    rw [session_started] at hh
    cases hh

/-- The offset written on the way out is that of the descriptor. -/
theorem stop_inv {m : Machine} {past : List Event} {f : Follower} {rep : Reporter}
    (hinv : RunInv m past) (hproc : m.proc = some (f, rep)) {events : List Event}
    (hevents : events = if f.fh.isSome then [.saved f.offset f.curInode] else []) :
    RunInv { m with proc := none, state := persist m.logPath m.state events }
      (past ++ events) := by
  cases hinv.proc f rep hproc with
  | closed hfh hsession hload hstate =>
      rw [hfh] at hevents
      subst hevents
      rw [Option.isSome_none, if_neg Bool.false_ne_true, List.append_nil]
      exact .gone hinv.sound rfl hinv.state
  | opened p hat hpos hstate =>
      rw [hat.fh, hat.offset, hat.curInode] at hevents
      have hsaves : ∀ e ∈ events, e = .saved p m.inode := by
        rw [hevents]
        simp
      obtain ⟨hsound, hpos', -⟩ := saves_keep events hsaves past hinv.sound hpos
      have hstate' := persist_behind hsaves hpos'.behind fun st hst howns =>
        ⟨(hinv.state st hst howns).1.mono events, hstate st hst howns⟩
      refine .gone hsound rfl ?_
      intro st hst howns
      exact ⟨(hstate' st hst howns).1, Nat.le_trans (hstate' st hst howns).2 hpos'.le_last⟩

/-- **No action breaks the invariant.** -/
theorem step_inv {k : EntryChecks} {m m' : Machine} {past events : List Event} {a : Action}
    (hinv : RunInv m past) (h : m.step k a = some (m', events)) : RunInv m' (past ++ events) := by
  cases a with
  | append line =>
      cases h
      rw [List.append_nil]
      exact append_inv hinv line
  | start dryRun =>
      cases hproc : m.proc with
      | none =>
          simp only [Machine.step, hproc] at h
          cases h
          exact start_inv hinv dryRun
      | some q =>
          simp only [Machine.step, hproc] at h
          cases h
  | kill =>
      cases hproc : m.proc with
      | none =>
          simp only [Machine.step, hproc] at h
          cases h
      | some q =>
          simp only [Machine.step, hproc] at h
          cases h
          rw [List.append_nil]
          exact .gone hinv.sound rfl hinv.state
  | stop =>
      cases hproc : m.proc with
      | none =>
          simp only [Machine.step, hproc] at h
          cases h
      | some q =>
          simp only [Machine.step, hproc] at h
          cases h
          exact stop_inv hinv hproc rfl
  | pass round =>
      cases hproc : m.proc with
      | none =>
          simp only [Machine.step, hproc] at h
          cases h
      | some q =>
          simp only [Machine.step, hproc] at h
          split_ifs at h with htimed
          cases h
          exact pass_inv hinv hproc ⟨htimed.1, htimed.2.1, htimed.2.2⟩

/-- **The invariant holds in every run** that starts without a state file. -/
theorem reach_inv {k : EntryChecks} {m₀ m : Machine} {past : List Event} (h₀ : m₀.Unread)
    (h : Reach k m₀ m past) : RunInv m past := by
  induction h with
  | init => exact h₀.inv
  | step a _ hstep ih => exact step_inv ih hstep

/-! ## §7. No line is skipped. -/

/-- Out of a cooldown, a pass hands a line on unless all of them are finished. -/
theorem pass_hands {k : EntryChecks} {m : Machine} {past : List Event} {f : Follower}
    {rep : Reporter} (hinv : RunInv m past) (hproc : m.proc = some (f, rep)) {round : Round}
    (hcool : rep.cooldownUntil ≤ round.checkAt) :
    AllDone past (m.lines ++ round.early)
      ∨ ∃ h saves, (loopPass k f rep (m.sight round)).2 = .handed h :: saves := by
  obtain ⟨f', p, hopen, hat, hpos, -⟩ := (hinv.proc f rep hproc).reopen round
  have hends : PassEnds k f' rep (m.sight round) p m.inode (loopPass k f rep (m.sight round)) :=
    loopPass_cases hopen hat (sight_stable hpos.behind round)
  generalize loopPass k f rep (m.sight round) = r at hends ⊢
  cases hends with
  | waits hwait =>
      have : round.checkAt < rep.cooldownUntil := hwait
      omega
  | eof f'' saves hready hline hat' hsaves =>
      left
      obtain ⟨before, after, hlines, hp, hdone⟩ := hpos.behind.grow round.early
      cases after with
      | nil =>
          rw [hlines, List.append_nil]
          exact hdone
      | cons l after =>
          -- there would have been a line to read
          have htext : readline (contentOf (m.lines ++ round.early)) p = l.text := by
            rw [hlines, hp]
            exact readline_line before after l
          exact absurd (htext.symm.trans hline) l.text_ne_nil
  | handed c next saves hready hline hcall hat' hsaves => exact .inr ⟨_, saves, rfl⟩

/-- **No line is skipped.**  A line is handed on only when all in front of it are
finished, so after a restart every unfinished one comes before the later ones; in a session
each call is on the line behind a finished one, or again on the same, and none falls into a
cooldown of the session; no offset is written beyond the last finished line; and a pass out
of a cooldown hands a line on as long as there is one. -/
theorem follow_delivers (k : EntryChecks) {m₀ m : Machine} {past : List Event} (h₀ : m₀.Unread)
    (hrun : Reach k m₀ m past) :
    (∀ before h after, past = before ++ .handed h :: after →
      (∃ pre l post, m.lines = pre ++ l :: post ∧ h.pos = (contentOf pre).length
        ∧ h.line = l.text ∧ AllDone before pre)
      ∧ (∀ h' ∈ (session before).getLast?, h'.next = h.pos)
      ∧ (∀ h' ∈ session before, h'.result = some true → h'.pos + h'.line.length ≤ h.pos)
      ∧ (h.outcome ≠ none → ∀ h' ∈ session before, h'.outcome = some .retry →
        h'.cooldownUntil ≤ h.time))
    ∧ (∀ before offset inode after, past = before ++ .saved offset inode :: after →
      offset ≤ lastEnd before)
    ∧ ∀ round m' events, m.step k (.pass round) = some (m', events) →
      (∃ f rep, m.proc = some (f, rep) ∧ round.checkAt < rep.cooldownUntil)
        ∨ AllDone past (m.lines ++ round.early) ∨ ∃ h saves, events = .handed h :: saves := by
  have hinv := reach_inv h₀ hrun
  refine ⟨?_, ?_, ?_⟩
  · intro before h after hsplit
    have hdue : Due m.lines before h := hinv.sound before (.handed h) after hsplit
    refine ⟨hdue.line, hdue.follows, ?_, hdue.cooled⟩
    intro h' hh' hresult
    have hle := hdue.order h' hh'
    unfold Handed.next at hle
    rw [if_pos hresult] at hle
    exact hle
  · intro before offset inode after hsplit
    exact hinv.sound before (.saved offset inode) after hsplit
  · intro round m' events hstep
    cases hproc : m.proc with
    | none =>
        simp only [Machine.step, hproc] at hstep
        cases hstep
    | some q =>
        simp only [Machine.step, hproc] at hstep
        split_ifs at hstep with htimed
        cases hstep
        by_cases hcool : round.checkAt < q.2.cooldownUntil
        · exact .inl ⟨q.1, q.2, rfl, hcool⟩
        · exact .inr (pass_hands hinv hproc (by omega))

/-- The actions of a run one after the other. -/
def Machine.run (k : EntryChecks) (m : Machine) : List Action → Option (Machine × List Event)
  | [] => some (m, [])
  | a :: rest => do
      let (m, events) ← m.step k a
      let (m, more) ← m.run k rest
      return (m, events ++ more)

theorem reach_run {k : EntryChecks} {m₀ : Machine} (actions : List Action) :
    ∀ {m m' : Machine} {past events : List Event}, Reach k m₀ m past →
      m.run k actions = some (m', events) → Reach k m₀ m' (past ++ events) := by
  induction actions with
  | nil =>
      intro m m' past events hrun h
      cases h
      rw [List.append_nil]
      exact hrun
  | cons a rest ih =>
      intro m m' past events hrun h
      unfold Machine.run at h
      obtain ⟨⟨m₁, events₁⟩, hstep, h⟩ := Option.bind_eq_some_iff.mp h
      obtain ⟨⟨m₂, events₂⟩, hrest, h⟩ := Option.bind_eq_some_iff.mp h
      cases h
      rw [← List.append_assoc]
      exact ih (hrun.step a hstep) hrest

/-! ## §8. One hit, handed on twice. -/

/-- `str` of a string, and one public address. -/
def oneAddress : EntryChecks where
  str v :=
    match v with
    | .str s => s
    | _ => []
  isReportableIp ip := ip = codes (bytesOf "8.8.8.8")

theorem oneHit_plain : ∀ c ∈ bytesOf "\x7b\"ip\":\"8.8.8.8\"\x7d",
    c.toNat < 0x80 ∧ c ≠ 10 ∧ c ≠ 13 := by
  have hall : (bytesOf "\x7b\"ip\":\"8.8.8.8\"\x7d").all
      (fun c => decide (c.toNat < 0x80 ∧ c ≠ 10 ∧ c ≠ 13)) = true := by
    decide
  intro c hc
  exact of_decide_eq_true (List.all_eq_true.mp hall c hc)

/-- The line of one hit from a public address. -/
def oneHit : LogLine where
  body := bytesOf "\x7b\"ip\":\"8.8.8.8\"\x7d"
  plain := oneHit_plain

/-- The file of this hit, before the reporter's first start. -/
def oneHitLog : Machine where
  lines := [oneHit]
  inode := 7
  logPath := bytesOf "/var/log/nginx/shield.json"
  clock := 0
  state := none
  proc := none

/-- A pass at a time, with an answer of the API. -/
def passAt (now : Int) (answer : Answer) : Action :=
  .pass ⟨[], [], now, now, now, true, answer⟩

/-- The report fails, and is repeated before the process is killed or after it. -/
def repeated (killed : Bool) : List Action :=
  [.start false, passAt (seconds 100) .networkError]
    ++ (if killed then [.kill, .start false] else [])
    ++ [passAt (seconds 101) .accepted, passAt (seconds 105) .accepted]

theorem oneHitLog_unread : oneHitLog.Unread where
  proc := rfl
  state := by simp [oneHitLog]

theorem follow_delivers_repeated :
    ∃ m past, Reach oneAddress oneHitLog m past
      ∧ (calls past).map Handed.time = [seconds 100, seconds 105]
      ∧ ∀ before offset inode after, past = before ++ .saved offset inode :: after →
        offset ≤ lastEnd before := by
  have htimes : ((oneHitLog.run oneAddress (repeated false)).map fun r =>
      (calls r.2).map Handed.time) = some [seconds 100, seconds 105] := by
    decide
  obtain ⟨⟨m, past⟩, hrun, htimes⟩ := Option.map_eq_some_iff.mp htimes
  have hreach := reach_run (repeated false) .init hrun
  exact ⟨m, past, hreach, htimes, (follow_delivers oneAddress oneHitLog_unread hreach).2.1⟩

/-- The call that fails, and the one that repeats it. -/
def failedCall : Handed where
  pos := 0
  line := oneHit.text
  time := seconds 100
  outcome := some .retry
  result := some false
  cooldownUntil := seconds 105

def earlyCall : Handed where
  pos := 0
  line := oneHit.text
  time := seconds 101
  outcome := some .ok
  result := some true
  cooldownUntil := 0

/-- A cooldown does not outlive its process: killed and started again, the reporter sends
at once. -/
theorem follow_forgets_cooldown :
    ¬ ∀ (k : EntryChecks) (m₀ m : Machine) (past : List Event), m₀.Unread → Reach k m₀ m past →
      ∀ before h after, past = before ++ .handed h :: after → h.outcome ≠ none →
        ∀ h' ∈ calls before, h'.outcome = some .retry → h'.cooldownUntil ≤ h.time := by
  have hevents : (oneHitLog.run oneAddress (repeated true)).map Prod.snd
      = some [.started, .handed failedCall, .started, .handed earlyCall, .saved 17 7,
        .saved 17 7] := by
    decide
  obtain ⟨⟨m, past⟩, hrun, hpast⟩ := Option.map_eq_some_iff.mp hevents
  have hreach := reach_run (repeated true) .init hrun
  intro hall
  have hle := hall oneAddress oneHitLog m past oneHitLog_unread hreach
    [.started, .handed failedCall, .started] earlyCall [.saved 17 7, .saved 17 7] hpast
    (by decide) failedCall (by simp [calls]) rfl
  revert hle
  decide

end HttpShield
