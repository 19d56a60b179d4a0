/-
  HttpShield.Reporter.Framing
  ───────────────────────────
  `follow` on a log that is still being written: appends of any bytes come in between its
  passes, and between the calls of a pass; nothing is rotated, truncated or restarted, and
  every report is accepted.

  At the end of the file `readline` returns what there is, also in the middle of a line.
  So whether the lines come through whole depends on where the appends end:

    • `wholeLines_append` — the lines of a file do not depend on how it grew,
    • `ready_inv`         — a pass that finds a newline ahead, or nothing, hands on a line,
    • `follow_framing`    — the lines come through exactly if all passes are such.
-/
import HttpShield.Reporter.Delivery

namespace HttpShield

open JsonText (loads)

/-! ## §1. The lines of a file. -/

/-- The lines of a file that end in a newline, behind what is open already. -/
def wholeLinesFrom (opened : Bytes) : Bytes → List Bytes
  | [] => []
  | c :: rest =>
      if c = 10 then (opened ++ [c]) :: wholeLinesFrom [] rest
      else wholeLinesFrom (opened ++ [c]) rest

/-- The lines of a file that end in a newline. -/
def wholeLines (content : Bytes) : List Bytes := wholeLinesFrom [] content

/-- The text is one line, up to its newline. -/
def Terminated (line : Bytes) : Prop := ∃ body : Bytes, line = body ++ [10] ∧ 10 ∉ body

theorem LogLine.terminated (l : LogLine) : Terminated l.text :=
  ⟨l.body, rfl, fun h => (l.plain 10 h).2.1 rfl⟩

theorem Terminated.mem {line : Bytes} (h : Terminated line) : 10 ∈ line := by
  obtain ⟨body, rfl, -⟩ := h
  exact List.mem_append_right body List.mem_cons_self

theorem wholeLinesFrom_line (body : Bytes) (hbody : 10 ∉ body) :
    ∀ opened rest : Bytes,
      wholeLinesFrom opened (body ++ 10 :: rest)
        = (opened ++ body ++ [10]) :: wholeLinesFrom [] rest := by
  induction body with
  | nil =>
      intro opened rest
      rw [List.append_nil]
      rfl
  | cons c body ih =>
      intro opened rest
      rw [List.mem_cons, not_or] at hbody
      show (if c = 10 then _ else wholeLinesFrom (opened ++ [c]) (body ++ 10 :: rest)) = _
      rw [if_neg (Ne.symm hbody.1), ih hbody.2, List.append_assoc opened, List.singleton_append]

theorem wholeLinesFrom_open (body : Bytes) (hbody : 10 ∉ body) :
    ∀ opened : Bytes, wholeLinesFrom opened body = [] := by
  induction body with
  | nil => intro opened; rfl
  | cons c body ih =>
      intro opened
      rw [List.mem_cons, not_or] at hbody
      show (if c = 10 then _ else wholeLinesFrom (opened ++ [c]) body) = _
      rw [if_neg (Ne.symm hbody.1), ih hbody.2]

/-- A text without a newline has no whole line. -/
theorem wholeLines_open {body : Bytes} (hbody : 10 ∉ body) : wholeLines body = [] :=
  wholeLinesFrom_open body hbody []

theorem wholeLines_cons {line : Bytes} (h : Terminated line) (rest : Bytes) :
    wholeLines (line ++ rest) = line :: wholeLines rest := by
  obtain ⟨body, rfl, hbody⟩ := h
  rw [List.append_assoc]
  exact wholeLinesFrom_line body hbody [] rest

theorem wholeLines_flatten {ls : List Bytes} (hls : ∀ l ∈ ls, Terminated l) (rest : Bytes) :
    wholeLines (ls.flatten ++ rest) = ls ++ wholeLines rest := by
  induction ls with
  | nil => rfl
  | cons l ls ih =>
      rw [List.flatten_cons, List.append_assoc, wholeLines_cons (hls l List.mem_cons_self),
        ih fun l' hl' => hls l' (List.mem_cons_of_mem l hl')]
      rfl

/-- Bytes with a newline in them begin with a line. -/
theorem exists_line {content : Bytes} (h : 10 ∈ content) :
    ∃ line rest, content = line ++ rest ∧ Terminated line := by
  obtain ⟨body, rest, rfl, hbody⟩ := List.eq_append_cons_of_mem h
  exact ⟨body ++ [10], rest, (List.append_cons ..), body, rfl, hbody⟩

/-- The lines of a file, and what is open behind them. -/
theorem wholeLines_split (content : Bytes) :
    ∃ opened : Bytes, content = (wholeLines content).flatten ++ opened
      ∧ (∀ l ∈ wholeLines content, Terminated l) ∧ 10 ∉ opened := by
  induction hn : content.length using Nat.strongRecOn generalizing content with
  | ind n ih =>
      by_cases h : 10 ∈ content
      · -- the first line, and then those of the rest
        obtain ⟨line, rest, rfl, hline⟩ := exists_line h
        have hshort : rest.length < n := by
          have := List.length_pos_of_mem hline.mem
          rw [List.length_append] at hn
          omega
        obtain ⟨opened, hrest, hall, hopened⟩ := ih rest.length hshort rest rfl
        rw [wholeLines_cons hline]
        refine ⟨opened, ?_, ?_, hopened⟩
        · rw [List.flatten_cons, List.append_assoc, ← hrest]
        · intro l hl
          rcases List.mem_cons.mp hl with rfl | hl
          · exact hline
          · exact hall l hl
      · rw [wholeLines_open h]
        refine ⟨content, rfl, ?_, h⟩
        intro l hl
        cases hl

theorem wholeLines_terminated {content l : Bytes} (hl : l ∈ wholeLines content) :
    Terminated l := by
  obtain ⟨_, _, hall, _⟩ := wholeLines_split content
  exact hall l hl

/-- Appending to a content leaves the whole lines that it has. -/
theorem wholeLines_append (content more : Bytes) :
    wholeLines content <+: wholeLines (content ++ more) := by
  obtain ⟨opened, hcontent, hall, -⟩ := wholeLines_split content
  refine ⟨wholeLines (opened ++ more), ?_⟩
  rw [← wholeLines_flatten hall, ← List.append_assoc, ← hcontent]

theorem wholeLines_mono {content content' : Bytes} (h : content <+: content') :
    wholeLines content <+: wholeLines content' := by
  obtain ⟨more, rfl⟩ := h
  exact wholeLines_append content more

theorem wholeLines_contentOf (lines : List LogLine) :
    wholeLines (contentOf lines) = lines.map LogLine.text := by
  induction lines with
  | nil => rfl
  | cons l lines ih => rw [contentOf_cons, wholeLines_cons l.terminated, ih, List.map_cons]

/-! ## §2. What `readline` gives. -/

/-- `readline` gives a terminated line that is in front of it as a whole. -/
theorem readline_terminated (before rest : Bytes) {line : Bytes} (h : Terminated line) :
    readline (before ++ (line ++ rest)) before.length = line := by
  obtain ⟨body, rfl, hbody⟩ := h
  have htake : (body ++ 10 :: rest).takeWhile (· ≠ 10) = body := by
    have hall : ∀ c ∈ body, decide (c ≠ 10) = true := by
      intro c hc
      have hne : c ≠ 10 := fun h => hbody (h ▸ hc)
      exact decide_eq_true hne
    rw [List.takeWhile_append_of_pos hall, List.takeWhile_cons_of_neg (by simp), List.append_nil]
  have hlength : body.length + 1 = (body ++ [10]).length := by rw [List.length_append]; rfl
  unfold readline
  dsimp only
  rw [List.drop_left, List.append_assoc, List.singleton_append, htake, List.append_cons, hlength,
    List.take_left]

/-- `readline` gives all of the rest when there is no newline in it. -/
theorem readline_open (before : Bytes) {rest : Bytes} (h : 10 ∉ rest) :
    readline (before ++ rest) before.length = rest := by
  have htake : rest.takeWhile (· ≠ 10) = rest := by
    refine List.takeWhile_eq_self_iff.mpr ?_
    intro c hc
    have hne : c ≠ 10 := fun heq => h (heq ▸ hc)
    exact decide_eq_true hne
  unfold readline
  dsimp only
  rw [List.drop_left, htake]
  exact List.take_of_length_le (Nat.le_succ _)

/-! ## §3. Runs. -/

/-- A log that is being written, and the process on it, as long as it lives. -/
structure Tail where
  content : Bytes
  inode : Int
  proc : Option (Follower × Reporter)

/-- What a pass finds out: the bytes appended between `os.fstat` and `readline`, and between
that and `os.stat`, the times it takes, and what the suppressor says. -/
structure Poll where
  early : Bytes
  late : Bytes
  checkAt : Int
  lineAt : Int
  saveAt : Int
  allowed : Bool

/-- The moves of the writer, the process and its loop. -/
inductive Move where
  | append (chunk : Bytes)
  | pass (poll : Poll)

/-- What the pass sees of the log.  Every report is accepted. -/
def Tail.sight (t : Tail) (poll : Poll) : Sight where
  opened := some (t.inode, t.content.length)
  checkAt := poll.checkAt
  content := t.content ++ poll.early
  lineAt := poll.lineAt
  allowed := poll.allowed
  answer := .accepted
  saveAt := poll.saveAt
  disk := some (t.inode, (t.content ++ poll.early ++ poll.late).length)

/-- A move, with the events it leaves. -/
def Tail.step (k : EntryChecks) (t : Tail) : Move → Tail × List Event
  | .append chunk => ({ t with content := t.content ++ chunk }, [])
  | .pass poll =>
      let content := t.content ++ poll.early ++ poll.late
      match t.proc with
      | none => ({ t with content := content }, [])
      | some (f, rep) =>
          let r := loopPass k f rep (t.sight poll)
          ({ t with content := content, proc := r.1 }, r.2)

/-- Moves one after the other, with the events they leave. -/
def Tail.run (k : EntryChecks) (t : Tail) : List Move → Tail × List Event
  | [] => (t, [])
  | move :: rest =>
      let (t, events) := t.step k move
      let (t, more) := t.run k rest
      (t, events ++ more)

/-- The process has just been started, without a state file of this log. -/
def Tail.Started (t : Tail) : Prop :=
  ∃ state logPath dryRun, t.proc = some (.start state logPath, .fresh dryRun)
    ∧ ∀ st ∈ state, st.path = logPath → st.inode ≠ t.inode

/-- A pass that reads finds nothing behind the descriptor, or the end of a line. -/
def Tail.Ready (t : Tail) : Move → Prop
  | .append _ => True
  | .pass poll => ∀ f rep, t.proc = some (f, rep) → rep.cooldownUntil ≤ poll.checkAt →
      (t.content ++ poll.early).drop (f.fh.getD 0) = []
        ∨ 10 ∈ (t.content ++ poll.early).drop (f.fh.getD 0)

/-- Every pass among the moves is ready when its turn comes. -/
def Tail.AllReady (k : EntryChecks) (t : Tail) : List Move → Prop
  | [] => True
  | move :: rest => t.Ready move ∧ (t.step k move).1.AllReady k rest

/-- A line that `json.loads` makes an object of, as it does of what the module logs. -/
def IsEntry (line : Bytes) : Prop := ∃ entry, loads (strip (codes line)) = some (.obj entry)

/-- The lines handed to `process_line`. -/
def handedLines (past : List Event) : List Bytes := (calls past).map Handed.line

/-- **The lines come through**: those handed on are the first of the file, the process
lives, and its next pass hands on the next one as long as there is one. -/
structure Framed (k : EntryChecks) (t : Tail) (past : List Event) : Prop where
  lines : handedLines past <+: wholeLines t.content
  lives : t.proc.isSome
  next : ∀ poll, 0 ≤ poll.checkAt →
    handedLines past = wholeLines (t.content ++ poll.early)
      ∨ ∃ h saves, (t.step k (.pass poll)).2 = .handed h :: saves
        ∧ handedLines past ++ [h.line] <+: wholeLines (t.content ++ poll.early)

/-! ## §4. One pass. -/

@[simp] theorem handedLines_append (past events : List Event) :
    handedLines (past ++ events) = handedLines past ++ handedLines events := by
  unfold handedLines calls
  rw [List.filterMap_append, List.map_append]

theorem handedLines_saves {p : Nat} {inode : Int} (saves : List Event)
    (hsaves : ∀ e ∈ saves, e = .saved p inode) : handedLines saves = [] := by
  unfold handedLines
  rw [calls_saves saves hsaves]
  rfl

theorem handedLines_handed (h : Handed) {p : Nat} {inode : Int} (saves : List Event)
    (hsaves : ∀ e ∈ saves, e = .saved p inode) :
    handedLines (.handed h :: saves) = [h.line] := by
  show h.line :: handedLines saves = _
  rw [handedLines_saves saves hsaves]

/-- On an entry, with the report accepted, `process_line` returns `True`, and there is no
cooldown. -/
theorem processLine_entry (k : EntryChecks) {rep : Reporter} (hrep : rep.cooldownUntil = 0)
    {line : Bytes} (hline : IsEntry line) (allowed : Bool) (now : Int) :
    (processLine k rep line allowed .accepted now).result = some true
      ∧ (processLine k rep line allowed .accepted now).reporter.cooldownUntil = 0 := by
  obtain ⟨entry, hloads⟩ := hline
  unfold processLine
  cases hscreen : screen k line allowed with
  | skip => exact ⟨rfl, hrep⟩
  | raised =>
      unfold screen at hscreen
      rw [hloads] at hscreen
      dsimp only at hscreen
      split_ifs at hscreen
  | report =>
      unfold Reporter.report
      by_cases hdry : rep.dryRun
      · rw [if_pos hdry]
        exact ⟨rfl, hrep⟩
      · rw [if_neg hdry]
        exact ⟨rfl, rfl⟩

/-- A pass that is done with its line leaves the process running. -/
theorem loopPass_lives {k : EntryChecks} {f f' : Follower} {rep : Reporter} {s : Sight} {p : Nat}
    (hopen : f.reopen s = some f') (hfh : f'.fh = some p)
    (hcall : (processLine k rep (readline s.content p) s.allowed s.answer s.lineAt).result
      = some true) : (loopPass k f rep s).1.isSome := by
  rw [loopPass_at hopen hfh]
  split_ifs with hwait hline
  · rfl
  · unfold Follower.atLine
    dsimp only
    rw [hcall]
    rfl
  · rfl

/-- Where the descriptor stands: behind `p` bytes, or yet to be opened, at the top. -/
def Tail.Stands (t : Tail) (f : Follower) (p : Nat) : Prop :=
  f.At p t.inode ∨ (f.fh = none ∧ p = 0 ∧ (f.savedInode = t.inode → f.offset = 0))

theorem Tail.Stands.pos {t : Tail} {f : Follower} {p : Nat} (h : t.Stands f p) :
    f.fh.getD 0 = p := by
  rcases h with hat | ⟨hfh, hp, -⟩
  · rw [hat.fh]
    rfl
  · rw [hfh, hp]
    rfl

theorem Tail.Stands.reopen {t : Tail} {f : Follower} {p : Nat} (h : t.Stands f p) (poll : Poll) :
    ∃ f', f.reopen (t.sight poll) = some f' ∧ f'.At p t.inode := by
  rcases h with hat | ⟨hfh, rfl, hoffset⟩
  · refine ⟨f, ?_, hat⟩
    unfold Follower.reopen
    rw [hat.fh]
  · unfold Follower.reopen
    rw [hfh]
    show ∃ f', (if t.inode = f.savedInode ∧ f.offset ≤ t.content.length then _ else _) = some f' ∧ _
    split_ifs with hresume
    · have hzero := hoffset hresume.1.symm
      exact ⟨_, rfl, by rw [hzero], hzero, rfl⟩
    · exact ⟨_, rfl, rfl, rfl, rfl⟩

/-! ## §5. The invariant of the follower. -/

/-- **The invariant**: what was handed on is lines, the content goes on behind them, and
that is where the process stands. -/
structure Tail.Inv (t : Tail) (past : List Event) : Prop where
  terminated : ∀ l ∈ handedLines past, Terminated l
  rest : ∃ rest, t.content = (handedLines past).flatten ++ rest
  proc : ∃ f rep, t.proc = some (f, rep) ∧ rep.cooldownUntil = 0
    ∧ t.Stands f (handedLines past).flatten.length

theorem Tail.Started.inv {t : Tail} (h : t.Started) : t.Inv [] := by
  obtain ⟨state, logPath, dryRun, hproc, hstate⟩ := h
  refine ⟨?_, ⟨t.content, rfl⟩, _, _, hproc, rfl, .inr ⟨rfl, rfl, ?_⟩⟩
  · intro l hl
    cases hl
  · -- the offset loaded is that of another file, or none
    show (loadOffset state logPath).2 = t.inode → (loadOffset state logPath).1 = 0
    unfold loadOffset
    cases hst : state with
    | none => intro _; rfl
    | some st =>
        dsimp only
        split_ifs with hpath
        · intro hinode
          exact absurd hinode (hstate st hst hpath)
        · intro _
          rfl

/-- A pass of this process ends as one on a file that is not rotated does. -/
theorem Tail.Inv.passEnds {k : EntryChecks} {t : Tail} {past : List Event} {f : Follower}
    {rep : Reporter} (hinv : t.Inv past) (hproc : t.proc = some (f, rep)) (poll : Poll) :
    ∃ f', f.reopen (t.sight poll) = some f' ∧ f'.At (handedLines past).flatten.length t.inode
      ∧ PassEnds k f' rep (t.sight poll) (handedLines past).flatten.length t.inode
        (loopPass k f rep (t.sight poll)) := by
  obtain ⟨f₀, rep₀, hproc₀, -, hstands⟩ := hinv.proc
  obtain ⟨rest, hrest⟩ := hinv.rest
  obtain ⟨rfl, rfl⟩ : f₀ = f ∧ rep₀ = rep := by
    rw [hproc₀] at hproc
    cases hproc
    exact ⟨rfl, rfl⟩
  obtain ⟨f', hopen, hat⟩ := hstands.reopen poll
  have hstable : (t.sight poll).Stable (handedLines past).flatten.length t.inode := by
    refine ⟨_, rfl, ?_⟩
    rw [hrest]
    simp only [List.length_append]
    omega
  exact ⟨f', hopen, hat, loopPass_cases hopen hat hstable⟩

/-- The descriptor of the process has in front of it what was not handed on yet. -/
theorem Tail.Inv.ahead {t : Tail} {past : List Event} (hinv : t.Inv past) (poll : Poll) :
    ∃ rest, t.content ++ poll.early = (handedLines past).flatten ++ rest
      ∧ ∀ f rep, t.proc = some (f, rep) →
        (t.content ++ poll.early).drop (f.fh.getD 0) = rest := by
  obtain ⟨f₀, rep₀, hproc₀, -, hstands⟩ := hinv.proc
  obtain ⟨rest, hrest⟩ := hinv.rest
  refine ⟨rest ++ poll.early, by rw [hrest, List.append_assoc], ?_⟩
  intro f rep hproc
  rw [hproc₀] at hproc
  cases hproc
  rw [hstands.pos, hrest, List.append_assoc, List.drop_left]

/-- A newline ahead: the pass hands on the line in front of it. -/
theorem Tail.Inv.hands {k : EntryChecks} {t : Tail} {past : List Event} {f : Follower}
    {rep : Reporter} (hinv : t.Inv past) (hproc : t.proc = some (f, rep)) {poll : Poll}
    (hcool : rep.cooldownUntil ≤ poll.checkAt) {line rest : Bytes} (hline : Terminated line)
    (hrest : t.content ++ poll.early = (handedLines past).flatten ++ (line ++ rest)) :
    ∃ h saves, (loopPass k f rep (t.sight poll)).2 = .handed h :: saves ∧ h.line = line
      ∧ handedLines (.handed h :: saves) = [line]
      ∧ (IsEntry line → rep.cooldownUntil = 0 →
        ∃ f' rep', (loopPass k f rep (t.sight poll)).1 = some (f', rep')
          ∧ rep'.cooldownUntil = 0
          ∧ f'.At ((handedLines past).flatten.length + line.length) t.inode) := by
  obtain ⟨f', hopen, hat, hends⟩ := hinv.passEnds (k := k) hproc poll
  have hread : readline (t.sight poll).content (handedLines past).flatten.length = line := by
    show readline (t.content ++ poll.early) _ = line
    rw [hrest]
    exact readline_terminated _ rest hline
  have hlives := @loopPass_lives k _ _ rep _ _ hopen hat.fh
  rw [hread] at hlives
  generalize loopPass k f rep (t.sight poll) = r at hends hlives ⊢
  -- The pass is not in a cooldown, and what it reads is not empty, so it hands the line on.
  cases hends with
  | waits hwait =>
      have : poll.checkAt < rep.cooldownUntil := hwait
      omega
  | eof f'' saves hready hempty =>
      rw [hread] at hempty
      rw [hempty] at hline
      exact absurd hline.mem List.not_mem_nil
  | handed c next saves hready hne hcall hnext hsaves =>
      rw [hread] at hcall hnext hsaves ⊢
      refine ⟨_, saves, rfl, rfl, handedLines_handed _ saves hsaves, ?_⟩
      intro hentry hrep
      obtain ⟨hresult, hzero⟩ := processLine_entry k hrep hentry poll.allowed poll.lineAt
      obtain ⟨f'', hf''⟩ : ∃ f'', next = some f'' := by
        cases next with
        | none => exact absurd (hlives hresult) (by simp)
        | some f'' => exact ⟨f'', rfl⟩
      have hat' := hnext f'' hf''
      rw [hf'']
      refine ⟨f'', c.reporter, rfl, ?_, ?_⟩
      · rw [hcall]
        exact hzero
      · have hmoved : (c.handed (handedLines past).flatten.length line (t.sight poll).lineAt).next
            = (handedLines past).flatten.length + line.length := by
          have hdone : c.result = some true := hcall ▸ hresult
          exact if_pos hdone
        rw [hmoved] at hat'
        exact hat'

/-- The end of the file in the middle of a line: the pass hands on what there is of it. -/
theorem Tail.Inv.hands_fragment {k : EntryChecks} {t : Tail} {past : List Event} {f : Follower}
    {rep : Reporter} (hinv : t.Inv past) (hproc : t.proc = some (f, rep)) {poll : Poll}
    (hcool : rep.cooldownUntil ≤ poll.checkAt) {rest : Bytes} (hopened : 10 ∉ rest)
    (hne : rest ≠ []) (hrest : t.content ++ poll.early = (handedLines past).flatten ++ rest) :
    rest ∈ handedLines (loopPass k f rep (t.sight poll)).2 := by
  obtain ⟨f', hopen, hat, hends⟩ := hinv.passEnds (k := k) hproc poll
  have hread : readline (t.sight poll).content (handedLines past).flatten.length = rest := by
    show readline (t.content ++ poll.early) _ = rest
    rw [hrest]
    exact readline_open _ hopened
  generalize loopPass k f rep (t.sight poll) = r at hends ⊢
  cases hends with
  | waits hwait =>
      have : poll.checkAt < rep.cooldownUntil := hwait
      omega
  | eof f'' saves hready hempty =>
      rw [hread] at hempty
      exact absurd hempty hne
  | handed c next saves hready hne' hcall hnext hsaves =>
      rw [hread, handedLines_handed _ saves]
      · exact List.mem_singleton.mpr rfl
      · exact hsaves

/-- A pass in a cooldown, or with nothing in front of it, hands on
nothing and stays in place. -/
theorem Tail.Inv.idles {k : EntryChecks} {t : Tail} {past : List Event} {f : Follower}
    {rep : Reporter} (hinv : t.Inv past) (hproc : t.proc = some (f, rep)) {poll : Poll}
    (hidle : rep.cooldownUntil ≤ poll.checkAt →
      t.content ++ poll.early = (handedLines past).flatten) :
    handedLines (loopPass k f rep (t.sight poll)).2 = []
      ∧ ∃ f', (loopPass k f rep (t.sight poll)).1 = some (f', rep)
        ∧ f'.At (handedLines past).flatten.length t.inode := by
  obtain ⟨f', hopen, hat, hends⟩ := hinv.passEnds (k := k) hproc poll
  generalize loopPass k f rep (t.sight poll) = r at hends ⊢
  cases hends with
  | waits hwait => exact ⟨rfl, f', rfl, hat⟩
  | eof f'' saves hready hempty hat' hsaves =>
      exact ⟨handedLines_saves saves hsaves, f'', rfl, hat'⟩
  | handed c next saves hready hne hcall hnext hsaves =>
      have hread : readline (t.sight poll).content (handedLines past).flatten.length = [] := by
        show readline (t.content ++ poll.early) _ = []
        rw [hidle hready]
        simpa using @readline_open (handedLines past).flatten [] List.not_mem_nil
      exact absurd hread hne

/-! ## §6. Runs, where all passes are ready.

A pass is ready if what it finds in front of the descriptor is empty, or has a newline
in it.  As long as all passes are, the lines handed on are those of the file. -/

/-- A move appends to the log, or leaves it as it is. -/
theorem step_content (k : EntryChecks) (t : Tail) (move : Move) :
    t.content <+: (t.step k move).1.content := by
  cases move with
  | append chunk => exact List.prefix_append t.content chunk
  | pass poll =>
      have hgrow : t.content <+: t.content ++ poll.early ++ poll.late := by
        rw [List.append_assoc]
        exact List.prefix_append _ _
      unfold Tail.step
      cases t.proc with
      | none => exact hgrow
      | some q => exact hgrow

theorem run_content (k : EntryChecks) (moves : List Move) :
    ∀ t : Tail, t.content <+: (t.run k moves).1.content := by
  induction moves with
  | nil => intro t; exact List.prefix_refl _
  | cons move rest ih =>
      intro t
      exact (step_content k t move).trans (ih (t.step k move).1)

/-- The invariant behind a pass that hands on these lines, and stands behind them. -/
theorem Tail.Inv.next {t : Tail} {past events : List Event} (hinv : t.Inv past) {lines : List Bytes}
    (hhanded : handedLines events = lines) (hlines : ∀ l ∈ lines, Terminated l) {content more : Bytes}
    (hcontent : content = (handedLines past).flatten ++ (lines.flatten ++ more))
    {f : Follower} {rep : Reporter} (hrep : rep.cooldownUntil = 0)
    (hat : f.At ((handedLines past).flatten.length + lines.flatten.length) t.inode) :
    Tail.Inv { t with content := content, proc := some (f, rep) } (past ++ events) := by
  have hall : handedLines (past ++ events) = handedLines past ++ lines := by
    rw [handedLines_append, hhanded]
  constructor
  · rw [hall]
    intro l hl
    rcases List.mem_append.mp hl with hbefore | hnow
    · exact hinv.terminated l hbefore
    · exact hlines l hnow
  · refine ⟨more, ?_⟩
    show content = _
    rw [hall, List.flatten_append, hcontent, List.append_assoc]
  · refine ⟨f, rep, rfl, hrep, .inl ?_⟩
    rw [hall, List.flatten_append, List.length_append]
    exact hat

/-- **A ready pass keeps the invariant.** -/
theorem ready_inv {k : EntryChecks} {t : Tail} {past : List Event} (hinv : t.Inv past)
    {move : Move} (hready : t.Ready move)
    (hentry : ∀ l ∈ wholeLines (t.step k move).1.content, IsEntry l) :
    (t.step k move).1.Inv (past ++ (t.step k move).2) := by
  obtain ⟨f, rep, hproc, hrep, hstands⟩ := hinv.proc
  cases move with
  | append chunk =>
      obtain ⟨rest, hrest⟩ := hinv.rest
      show Tail.Inv { t with content := t.content ++ chunk } (past ++ [])
      rw [List.append_nil]
      refine ⟨hinv.terminated, ⟨rest ++ chunk, ?_⟩, f, rep, hproc, hrep, hstands⟩
      show t.content ++ chunk = _
      rw [hrest, List.append_assoc]
  | pass poll =>
      obtain ⟨rest, hrest, hbehind⟩ := hinv.ahead poll
      have hdrop := hbehind f rep hproc
      have hstep : t.step k (.pass poll)
          = ({ t with
              content := t.content ++ poll.early ++ poll.late
              proc := (loopPass k f rep (t.sight poll)).1 },
            (loopPass k f rep (t.sight poll)).2) := by
        unfold Tail.step
        rw [hproc]
      rw [hstep] at hentry ⊢
      by_cases hline : rep.cooldownUntil ≤ poll.checkAt ∧ 10 ∈ rest
      · -- the line goes to what was handed on
        obtain ⟨line, more, rfl, hterminated⟩ := exists_line hline.2
        obtain ⟨h, saves, hevents, -, hhanded, hnext⟩ :=
          hinv.hands (k := k) hproc hline.1 hterminated hrest
        have hmem : line ∈ wholeLines (t.content ++ poll.early ++ poll.late) := by
          rw [hrest, List.append_assoc, List.append_assoc, wholeLines_flatten hinv.terminated,
            wholeLines_cons hterminated]
          exact List.mem_append_right _ List.mem_cons_self
        obtain ⟨f', rep', hproc', hrep', hat'⟩ := hnext (hentry line hmem) hrep
        rw [hproc', hevents]
        refine @Tail.Inv.next t past _ hinv _ hhanded ?_ _ (more ++ poll.late) ?_ f' rep' ?_ ?_
        · intro l hl
          rw [List.mem_singleton.mp hl]
          exact hterminated
        · rw [hrest, List.flatten_singleton]
          simp only [List.append_assoc]
        · exact hrep'
        · rw [List.flatten_singleton]
          exact hat'
      · -- nothing happens
        have hidle : rep.cooldownUntil ≤ poll.checkAt →
            t.content ++ poll.early = (handedLines past).flatten := by
          intro hcool
          rcases hready f rep hproc hcool with hempty | hmem
          · rw [hdrop] at hempty
            rw [hrest, hempty, List.append_nil]
          · rw [hdrop] at hmem
            exact absurd ⟨hcool, hmem⟩ hline
        obtain ⟨hnone, f', hproc', hat'⟩ := hinv.idles (k := k) hproc hidle
        rw [hproc']
        refine @Tail.Inv.next t past _ hinv _ hnone ?_ _ (rest ++ poll.late) ?_ f' rep ?_ ?_
        · intro l hl
          cases hl
        · rw [hrest, List.flatten_nil, List.nil_append, List.append_assoc]
        · exact hrep
        · exact hat'

/-- **A run of ready passes keeps the invariant**, by induction over its moves. -/
theorem allReady_inv {k : EntryChecks} (moves : List Move) :
    ∀ {t : Tail} {past : List Event}, t.Inv past → t.AllReady k moves →
      (∀ l ∈ wholeLines (t.run k moves).1.content, IsEntry l) →
      (t.run k moves).1.Inv (past ++ (t.run k moves).2) := by
  induction moves with
  | nil =>
      intro t past hinv _ _
      show t.Inv (past ++ [])
      rw [List.append_nil]
      exact hinv
  | cons move rest ih =>
      intro t past hinv hready hentry
      have hfirst := ready_inv hinv hready.1 fun l hl =>
        hentry l ((wholeLines_mono (run_content k rest _)).subset hl)
      have hrest := ih hfirst hready.2 hentry
      rw [List.append_assoc] at hrest
      exact hrest

/-- Under the invariant the lines come through. -/
theorem Tail.Inv.framed {k : EntryChecks} {t : Tail} {past : List Event} (hinv : t.Inv past) :
    Framed k t past := by
  obtain ⟨f, rep, hproc, hrep, -⟩ := hinv.proc
  refine ⟨?_, ?_, ?_⟩
  · obtain ⟨rest, hrest⟩ := hinv.rest
    rw [hrest, wholeLines_flatten hinv.terminated]
    exact List.prefix_append _ _
  · rw [hproc]
    rfl
  · intro poll hnow
    obtain ⟨rest, hrest, -⟩ := hinv.ahead poll
    by_cases hmem : 10 ∈ rest
    · right
      obtain ⟨line, more, rfl, hterminated⟩ := exists_line hmem
      have hcool : rep.cooldownUntil ≤ poll.checkAt := by omega
      obtain ⟨h, saves, hevents, hline, -, -⟩ :=
        hinv.hands (k := k) hproc hcool hterminated hrest
      refine ⟨h, saves, ?_, wholeLines more, ?_⟩
      · unfold Tail.step
        rw [hproc]
        exact hevents
      · rw [hline, hrest, wholeLines_flatten hinv.terminated, wholeLines_cons hterminated,
          List.append_assoc, List.singleton_append]
    · left
      rw [hrest, wholeLines_flatten hinv.terminated, wholeLines_open hmem, List.append_nil]

/-- A pass that is not ready hands on something that is no line. -/
theorem ready_of_lines {k : EntryChecks} {t : Tail} {past : List Event} (hinv : t.Inv past)
    {move : Move} (hlines : ∀ l ∈ handedLines (t.step k move).2, 10 ∈ l) : t.Ready move := by
  cases move with
  | append chunk => exact trivial
  | pass poll =>
      intro f rep hproc hcool
      obtain ⟨rest, hrest, hbehind⟩ := hinv.ahead poll
      rw [hbehind f rep hproc]
      by_contra hnot
      rw [not_or] at hnot
      have hfragment := hinv.hands_fragment (k := k) hproc hcool hnot.2 hnot.1 hrest
      have hstep : (t.step k (.pass poll)).2 = (loopPass k f rep (t.sight poll)).2 := by
        unfold Tail.step
        rw [hproc]
      rw [← hstep] at hfragment
      exact hnot.2 (hlines rest hfragment)

/-- A run that hands on nothing but terminated lines has ready passes only. -/
theorem allReady_of_lines {k : EntryChecks} (moves : List Move) :
    ∀ {t : Tail} {past : List Event}, t.Inv past →
      (∀ l ∈ wholeLines (t.run k moves).1.content, IsEntry l) →
      (∀ l ∈ handedLines (t.run k moves).2, 10 ∈ l) → t.AllReady k moves := by
  induction moves with
  | nil => intro t past _ _ _; exact trivial
  | cons move rest ih =>
      intro t past hinv hentry hlines
      have hsplit : handedLines (t.run k (move :: rest)).2
          = handedLines (t.step k move).2 ++ handedLines ((t.step k move).1.run k rest).2 :=
        handedLines_append _ _
      rw [hsplit] at hlines
      have hready : t.Ready move :=
        ready_of_lines hinv fun l hl => hlines l (List.mem_append_left _ hl)
      have hfirst := ready_inv hinv hready fun l hl =>
        hentry l ((wholeLines_mono (run_content k rest _)).subset hl)
      exact ⟨hready, ih hfirst hentry fun l hl => hlines l (List.mem_append_right _ hl)⟩

/-- **When the lines come through.**  The log is made of newline-terminated entries, and is
written in pieces of any size: the lines handed on are those of the file, one after the
other, exactly if no pass reads while there is only a part of a line behind the descriptor. -/
theorem follow_framing (k : EntryChecks) (lines : List LogLine) (hlog : ∀ l ∈ lines, IsEntry l.text)
    {t : Tail} (ht : t.Started) (moves : List Move)
    (hwritten : (t.run k moves).1.content <+: contentOf lines) :
    Framed k (t.run k moves).1 (t.run k moves).2 ↔ t.AllReady k moves := by
  have hentry : ∀ l ∈ wholeLines (t.run k moves).1.content, IsEntry l := by
    intro l hl
    have hmem := (wholeLines_mono hwritten).subset hl
    rw [wholeLines_contentOf] at hmem
    obtain ⟨l', hl', rfl⟩ := List.mem_map.mp hmem
    exact hlog l' hl'
  constructor
  · intro hframed
    exact allReady_of_lines moves ht.inv hentry fun l hl =>
      (wholeLines_terminated (hframed.lines.subset hl)).mem
  · intro hready
    exact (allReady_inv moves ht.inv hready hentry).framed

/-! ## §7. Records of the module are entries. -/

/-- A record of the module, with its newline, is a line of ASCII that
`process_line` takes for an entry. -/
theorem renderHit_logLine {ts : Bytes} {conf : LocConf} {r : Request} {hit : Hit} (hts : Plain ts)
    (hip : Plain r.addrText) (hcat : Plain hit.category) (hsrc : Plain hit.source) {line : Bytes}
    (hline : renderHit ts conf r hit = .ok line) :
    ∃ l : LogLine, l.text = line ++ [10] ∧ IsEntry l.text := by
  have hprintable := renderHit_printable hts hip hcat hsrc hline
  have hplain : ∀ c ∈ line, c.toNat < 0x80 ∧ c ≠ 10 ∧ c ≠ 13 := by
    intro c hc
    obtain ⟨hlow, hhigh⟩ := hprintable c hc
    refine ⟨hhigh, ?_, ?_⟩
    · intro heq
      subst heq
      exact absurd hlow (by decide)
    · intro heq
      subst heq
      exact absurd hlow (by decide)
  have hloads := loads_renderHit hts hip hcat hsrc hline (List.forall_mem_nil _)
  rw [List.append_nil, ← strip_renderHit hline] at hloads
  exact ⟨⟨line, hplain⟩, rfl, _, hloads⟩

/-! ## §8. A log from its first hit on. -/

/-- The log before the first hit. -/
def emptyLog : Tail where
  content := []
  inode := 7
  proc := some (.start none (bytesOf "/var/log/nginx/shield.json"), .fresh false)

theorem emptyLog_started : emptyLog.Started :=
  ⟨none, _, false, rfl, by simp⟩

theorem oneHit_isEntry : ∀ l ∈ [oneHit], IsEntry l.text := by
  intro l hl
  rw [List.mem_singleton.mp hl]
  exact ⟨_, rfl⟩

/-- The line in two pieces, with something in between. -/
def cutAt (n : Nat) (inBetween : List Move) : List Move :=
  [.append (oneHit.text.take n)] ++ inBetween ++ [.append (oneHit.text.drop n)]

def pollAt (now : Int) : Move := .pass ⟨[], [], now, now, now, true⟩

theorem cutAt_written :
    (emptyLog.run oneAddress (cutAt 5 [] ++ [pollAt 1])).1.content <+: contentOf [oneHit] := by
  decide

/-- The pass finds the whole line, and hands it on as it is. -/
theorem follow_framing_whole :
    emptyLog.AllReady oneAddress (cutAt 5 [] ++ [pollAt 1])
      ∧ Framed oneAddress (emptyLog.run oneAddress (cutAt 5 [] ++ [pollAt 1])).1
        (emptyLog.run oneAddress (cutAt 5 [] ++ [pollAt 1])).2
      ∧ handedLines (emptyLog.run oneAddress (cutAt 5 [] ++ [pollAt 1])).2 = [oneHit.text] := by
  have hready : emptyLog.AllReady oneAddress (cutAt 5 [] ++ [pollAt 1]) := by
    refine ⟨trivial, trivial, ?_, trivial⟩
    intro f rep hproc _
    cases hproc
    exact .inr (by decide)
  exact ⟨hready, (follow_framing oneAddress [oneHit] oneHit_isEntry emptyLog_started _
    cutAt_written).mpr hready, by decide⟩

/-- A pass that reads in the middle of the line takes it for two, neither of which is
JSON: the hit is lost. -/
theorem follow_framing_cut :
    (∀ l ∈ [oneHit], IsEntry l.text) ∧ emptyLog.Started
      ∧ (emptyLog.run oneAddress (cutAt 5 [pollAt 1] ++ [pollAt 2])).1.content = contentOf [oneHit]
      ∧ handedLines (emptyLog.run oneAddress (cutAt 5 [pollAt 1] ++ [pollAt 2])).2
        = [oneHit.text.take 5, oneHit.text.drop 5]
      ∧ (calls (emptyLog.run oneAddress (cutAt 5 [pollAt 1] ++ [pollAt 2])).2).map Handed.outcome
        = [none, none]
      ∧ ¬ handedLines (emptyLog.run oneAddress (cutAt 5 [pollAt 1] ++ [pollAt 2])).2
        <+: wholeLines (emptyLog.run oneAddress (cutAt 5 [pollAt 1] ++ [pollAt 2])).1.content := by
  refine ⟨oneHit_isEntry, emptyLog_started, ?_, ?_, ?_, ?_⟩ <;> decide

end HttpShield
