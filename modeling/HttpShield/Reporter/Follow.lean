/-
  HttpShield.Reporter.Follow
  ──────────────────────────
  The loop of `follow`, one pass at a time.

  A pass sees the file system and the clock only through what its calls return (`Sight`),
  and leaves events behind: a line handed to `process_line`, an offset written to the
  state file.  Positions are byte offsets, which they are in ASCII text; there is no
  carriage return in a line, which universal newlines would take for its end.

    • `readline_line`   — read behind whole lines, the file gives the next one,
    • `loopPass_cases`  — what a pass does to a file that is not rotated or truncated.
-/
import HttpShield.Reporter.Report

namespace HttpShield

/-! ## §1. The log file. -/

/-- A line of ASCII, without its newline. -/
structure LogLine where
  body : Bytes
  plain : ∀ c ∈ body, c.toNat < 0x80 ∧ c ≠ 10 ∧ c ≠ 13

/-- The line as it stands in the file. -/
def LogLine.text (l : LogLine) : Bytes := l.body ++ [10]

/-- The file of some lines. -/
def contentOf (lines : List LogLine) : Bytes := lines.flatMap LogLine.text

/-- `fh.readline()` at a position: up to the newline, or all there is. -/
def readline (content : Bytes) (pos : Nat) : Bytes :=
  let rest := content.drop pos
  rest.take ((rest.takeWhile (· ≠ 10)).length + 1)

theorem LogLine.text_length (l : LogLine) : l.text.length = l.body.length + 1 := List.length_append

theorem LogLine.text_ne_nil (l : LogLine) : l.text ≠ [] := by
  unfold LogLine.text
  simp

theorem contentOf_append (ls ls' : List LogLine) :
    contentOf (ls ++ ls') = contentOf ls ++ contentOf ls' := List.flatMap_append

theorem contentOf_cons (l : LogLine) (ls : List LogLine) :
    contentOf (l :: ls) = l.text ++ contentOf ls := List.flatMap_cons

/-- Read behind some whole lines, the file gives the next one. -/
theorem readline_line (before after : List LogLine) (l : LogLine) :
    readline (contentOf (before ++ l :: after)) (contentOf before).length = l.text := by
  have hbody : (l.body ++ 10 :: contentOf after).takeWhile (· ≠ 10) = l.body := by
    rw [List.takeWhile_append_of_pos fun c hc => decide_eq_true (l.plain c hc).2.1,
      List.takeWhile_cons_of_neg (by simp), List.append_nil]
  have hrest : l.text ++ contentOf after = l.body ++ 10 :: contentOf after := by
    unfold LogLine.text
    rw [List.append_assoc]
    rfl
  unfold readline
  dsimp only
  rw [contentOf_append, List.drop_left, contentOf_cons, hrest, hbody, ← hrest,
    ← l.text_length, List.take_left]

/-- `readline` at the end of the file gives nothing. -/
theorem readline_end (lines : List LogLine) :
    readline (contentOf lines) (contentOf lines).length = [] := by
  unfold readline
  dsimp only
  rw [List.drop_length]
  rfl

/-! ## §2. The state file. -/

/-- The state file. -/
structure Saved where
  path : Bytes
  offset : Nat
  inode : Int
  deriving Repr, DecidableEq

/-- `load_offset`. -/
def loadOffset (state : Option Saved) (logPath : Bytes) : Nat × Int :=
  match state with
  | some st => if st.path = logPath then (st.offset, st.inode) else (0, -1)
  | none => (0, -1)

/-! ## §3. A pass. -/

/-- `ROTATION_EOF_GRACE`. -/
def rotationEofGrace : Nat := 2

/-- The variables of `follow`; of `fh` its position. -/
structure Follower where
  fh : Option Nat
  offset : Nat
  savedInode : Int
  curInode : Int
  lastSave : Int
  rotationEofs : Nat
  deriving Repr, DecidableEq

/-- The variables of `follow` as they are set before the loop. -/
def Follower.start (state : Option Saved) (logPath : Bytes) : Follower where
  fh := none
  offset := (loadOffset state logPath).1
  savedInode := (loadOffset state logPath).2
  curInode := -1
  lastSave := 0
  rotationEofs := 0

/-- What a pass meets outside: the files, the clock, and the answers that decide on a
line.  A path is absent or has an inode and a size. -/
structure Sight where
  /-- `open` and `os.fstat`. -/
  opened : Option (Int × Nat)
  checkAt : Int
  /-- The open file, as it is when `readline` gets to it. -/
  content : Bytes
  lineAt : Int
  allowed : Bool
  answer : Answer
  saveAt : Int
  /-- `os.stat`. -/
  disk : Option (Int × Nat)

/-- A line handed to `process_line`. -/
structure Handed where
  pos : Nat
  line : Bytes
  /-- The time it was handed. -/
  time : Int
  outcome : Option Outcome
  result : Option Bool
  /-- The end of the cooldown, as the call left it. -/
  cooldownUntil : Int
  deriving Repr, DecidableEq

/-- The call of `process_line` on a line at a position. -/
def LineCall.handed (c : LineCall) (pos : Nat) (line : Bytes) (time : Int) : Handed where
  pos := pos
  line := line
  time := time
  outcome := c.outcome
  result := c.result
  cooldownUntil := c.reporter.cooldownUntil

/-- What a pass does for others to see. -/
inductive Event where
  /-- `load_offset`, in a new process. -/
  | started
  | handed (h : Handed)
  | saved (offset : Nat) (inode : Int)
  deriving Repr, DecidableEq

/-- `if fh is None:`; nothing where the path is absent. -/
def Follower.reopen (f : Follower) (s : Sight) : Option Follower :=
  match f.fh with
  | some _ => some f
  | none =>
      match s.opened with
      | none => none
      | some (inode, size) =>
          -- the file that was read before, and not truncated since: go on in it
          if inode = f.savedInode ∧ f.offset ≤ size then
            some { f with fh := some f.offset, curInode := inode, savedInode := inode }
          else some { f with fh := some 0, offset := 0, curInode := inode, savedInode := inode }

/-- `if now - last_save >= 2.0:`. -/
def Follower.checkpoint (f : Follower) (now : Int) : Follower × List Event :=
  if seconds 2 ≤ now - f.lastSave then
    ({ f with lastSave := now }, [.saved f.offset f.curInode])
  else (f, [])

/-- Close the descriptor, and read the file at the path from its top. -/
def Follower.close (f : Follower) : Follower :=
  { f with fh := none, offset := 0, savedInode := -1 }

/-- One more empty read on a file that is no longer at the path. -/
def Follower.drained (f : Follower) : Follower × List Event :=
  if f.rotationEofs + 1 < rotationEofGrace then
    ({ f with rotationEofs := f.rotationEofs + 1 }, [])
  else ({ f.close with rotationEofs := 0 }, [.saved f.offset f.curInode])

/-- What `os.stat` says at the end of the file. -/
def Follower.checkRotation (f : Follower) (s : Sight) : Follower × List Event :=
  match s.disk with
  | none => f.drained
  | some (inode, size) =>
      if inode ≠ f.curInode ∨ size < f.offset then
        -- a truncated file has nothing to drain, a rotated one may
        if inode = f.curInode then (f.close, []) else f.drained
      -- back at its path: the count of empty reads stays what it is
      else (f, [])

/-- What a pass does at the end of the file. -/
def Follower.atEof (f : Follower) (s : Sight) : Follower × List Event :=
  let (f, saved) := f.checkpoint s.saveAt
  let (f, closed) := f.checkRotation s
  (f, saved ++ closed)

/-- A line, read at a position.  An exception ends the process. -/
def Follower.atLine (k : EntryChecks) (f : Follower) (rep : Reporter) (s : Sight) (pos : Nat)
    (line : Bytes) : Option (Follower × Reporter) × List Event :=
  -- what `readline` gave is a line here, with or without its newline
  let f := { f with rotationEofs := 0 }
  let call := processLine k rep line s.allowed s.answer s.lineAt
  let handed : Event := .handed (call.handed pos line s.lineAt)
  match call.result with
  | some true =>
      let f := { f with fh := some (pos + line.length), offset := pos + line.length }
      let (f, saved) := f.checkpoint s.saveAt
      (some (f, call.reporter), handed :: saved)
  -- to be read once more, behind the cooldown
  | some false => (some ({ f with fh := some pos }, call.reporter), [handed])
  | none => (none, [handed])

/-- **A pass of the loop.** -/
def loopPass (k : EntryChecks) (f : Follower) (rep : Reporter) (s : Sight) :
    Option (Follower × Reporter) × List Event :=
  match f.reopen s with
  | none => (some (f, rep), [])
  | some f =>
      if 0 < rep.inCooldown s.checkAt then (some (f, rep), [])
      else
        let pos := f.fh.getD 0
        let line := readline s.content pos
        if line ≠ [] then f.atLine k rep s pos line
        else
          let (f, events) := f.atEof s
          (some (f, rep), events)

/-! ## §4. A file that is neither rotated nor truncated. -/

/-- The position behind the call. -/
def Handed.next (h : Handed) : Nat :=
  if h.result = some true then h.pos + h.line.length else h.pos

theorem Handed.pos_le_next (h : Handed) : h.pos ≤ h.next := by
  unfold Handed.next
  split_ifs
  · exact Nat.le_add_right _ _
  · exact Nat.le_refl _

/-- The descriptor is on the file with this inode, at this position. -/
structure Follower.At (f : Follower) (p : Nat) (inode : Int) : Prop where
  fh : f.fh = some p
  offset : f.offset = p
  curInode : f.curInode = inode

/-- The path still has the inode, and a size that reaches the position. -/
def Sight.Stable (s : Sight) (p : Nat) (inode : Int) : Prop :=
  ∃ size, s.disk = some (inode, size) ∧ p ≤ size

theorem checkpoint_at {f : Follower} {p : Nat} {inode : Int} (h : f.At p inode) (now : Int) :
    (f.checkpoint now).1.At p inode ∧ ∀ e ∈ (f.checkpoint now).2, e = .saved p inode := by
  unfold Follower.checkpoint
  split_ifs
  · refine ⟨⟨h.fh, h.offset, h.curInode⟩, ?_⟩
    intro e he
    rw [List.mem_singleton] at he
    rw [he, h.offset, h.curInode]
  · exact ⟨h, by simp⟩

/-- An empty read of a file that is still at its path leaves the descriptor where it stands. -/
theorem atEof_at {f : Follower} {p : Nat} {inode : Int} (h : f.At p inode) {s : Sight}
    (hstable : s.Stable p inode) :
    (f.atEof s).1.At p inode ∧ ∀ e ∈ (f.atEof s).2, e = .saved p inode := by
  obtain ⟨size, hdisk, hsize⟩ := hstable
  obtain ⟨hat, hsaved⟩ := checkpoint_at h s.saveAt
  have hrotation : (f.checkpoint s.saveAt).1.checkRotation s = ((f.checkpoint s.saveAt).1, []) := by
    unfold Follower.checkRotation
    rw [hdisk]
    dsimp only
    -- the inode is that of the descriptor, and the file has not shrunk
    rw [if_neg]
    rintro (hinode | hshort)
    · exact hinode hat.curInode.symm
    · have := hat.offset
      omega
  unfold Follower.atEof
  dsimp only
  rw [hrotation, List.append_nil]
  exact ⟨hat, hsaved⟩

/-- The line is passed by if the call returns `True`, and read again otherwise. -/
theorem atLine_at {k : EntryChecks} {f : Follower} {p : Nat} {inode : Int} (h : f.At p inode)
    (rep : Reporter) (s : Sight) (line : Bytes) {c : LineCall}
    (hcall : c = processLine k rep line s.allowed s.answer s.lineAt) :
    ∃ (next : Option Follower) (saves : List Event), f.atLine k rep s p line
        = (next.map (·, c.reporter), .handed (c.handed p line s.lineAt) :: saves)
      ∧ (∀ f' ∈ next, f'.At (c.handed p line s.lineAt).next inode)
      ∧ ∀ e ∈ saves, e = .saved (c.handed p line s.lineAt).next inode := by
  have hnext : (c.handed p line s.lineAt).next
      = if c.result = some true then p + line.length else p := rfl
  unfold Follower.atLine
  dsimp only
  rw [← hcall, hnext]
  rcases hresult : c.result with _ | _ | _
  · -- raised: there is no process any more
    exact ⟨none, [], rfl, by simp, by simp⟩
  · -- `False`: back to the line
    refine ⟨some _, [], rfl, ?_, by simp⟩
    intro f' heq
    cases heq
    exact ⟨rfl, h.offset, h.curInode⟩
  · -- `True`: behind it, where the checkpoint leaves the descriptor
    have hat : Follower.At
        { f with rotationEofs := 0, fh := some (p + line.length), offset := p + line.length }
        (p + line.length) inode :=
      ⟨rfl, rfl, h.curInode⟩
    obtain ⟨hcheck, hsaves⟩ := checkpoint_at hat s.saveAt
    rw [if_pos rfl]
    refine ⟨some _, _, rfl, ?_, hsaves⟩
    intro f' heq
    cases heq
    exact hcheck

/-- What a pass does once the file is open at `p`: it waits, finds the end of the file, or
hands the line it reads on. -/
inductive PassEnds (k : EntryChecks) (f : Follower) (rep : Reporter) (s : Sight) (p : Nat)
    (inode : Int) : Option (Follower × Reporter) × List Event → Prop where
  | waits (hwait : s.checkAt < rep.cooldownUntil) : PassEnds k f rep s p inode (some (f, rep), [])
  | eof (f' : Follower) (saves : List Event) (hcool : rep.cooldownUntil ≤ s.checkAt)
      (hline : readline s.content p = []) (hat : f'.At p inode)
      (hsaves : ∀ e ∈ saves, e = .saved p inode) :
      PassEnds k f rep s p inode (some (f', rep), saves)
  | handed (c : LineCall) (next : Option Follower) (saves : List Event)
      (hcool : rep.cooldownUntil ≤ s.checkAt) (hline : readline s.content p ≠ [])
      (hcall : c = processLine k rep (readline s.content p) s.allowed s.answer s.lineAt)
      (hat : ∀ f' ∈ next, f'.At (c.handed p (readline s.content p) s.lineAt).next inode)
      (hsaves : ∀ e ∈ saves,
        e = .saved (c.handed p (readline s.content p) s.lineAt).next inode) :
      PassEnds k f rep s p inode (next.map (·, c.reporter),
        .handed (c.handed p (readline s.content p) s.lineAt) :: saves)

/-- A pass with a descriptor at `p`. -/
theorem loopPass_at {k : EntryChecks} {f f' : Follower} {rep : Reporter} {s : Sight} {p : Nat}
    (hopen : f.reopen s = some f') (hfh : f'.fh = some p) :
    loopPass k f rep s
      = if s.checkAt < rep.cooldownUntil then (some (f', rep), [])
        else if readline s.content p ≠ [] then f'.atLine k rep s p (readline s.content p)
        else (some ((f'.atEof s).1, rep), (f'.atEof s).2) := by
  have hpos : f'.fh.getD 0 = p := by
    rw [hfh]
    rfl
  unfold loopPass
  rw [hopen]
  simp only [inCooldown_pos, hpos]

/-- **What a pass does** to a file that is not rotated or truncated. -/
theorem loopPass_cases {k : EntryChecks} {f f' : Follower} {rep : Reporter} {s : Sight} {p : Nat}
    {inode : Int} (hopen : f.reopen s = some f') (hat : f'.At p inode)
    (hstable : s.Stable p inode) :
    PassEnds k f' rep s p inode (loopPass k f rep s) := by
  rw [loopPass_at hopen hat.fh]
  split_ifs with hwait hline
  · exact .waits hwait
  · obtain ⟨next, saves, hatLine, hnext, hsaves⟩ :=
      atLine_at hat rep s (readline s.content p) rfl
    rw [hatLine]
    exact .handed _ next saves (not_lt.mp hwait) hline rfl hnext hsaves
  · obtain ⟨hnext, hsaves⟩ := atEof_at hat hstable
    exact .eof _ _ (not_lt.mp hwait) (not_not.mp hline) hnext hsaves

end HttpShield
