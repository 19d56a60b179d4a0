/-
  HttpShield.Reporter.Rotation
  ────────────────────────────
  `follow` while its log is rotated: the path is renamed away, made again, absent and
  restored at any time, also between the calls of a pass, and lines are still appended to
  the file it was.  Nothing is truncated.

  The descriptor is left behind on the second empty read after which `os.stat` does not
  find its file at the path.  The count of such reads starts again at a line, but not
  when the file is back at its path.

    • `loopPass_ends`  — what a pass does once its file is open,
    • `settled_inv`    — the invariant, over the reads from a descriptor,
    • `follow_drains`  — a descriptor is only left behind drained.
-/
import HttpShield.Reporter.Delivery

namespace HttpShield

/-! ## §1. The end of the file. -/

/-- What `os.stat` says is not that the file is at its path. -/
def Rotated (inode : Int) (disk : Option (Int × Nat)) : Prop :=
  ∀ i size, disk = some (i, size) → i ≠ inode

theorem checkpoint_rotationEofs (f : Follower) (now : Int) :
    (f.checkpoint now).1.rotationEofs = f.rotationEofs := by
  unfold Follower.checkpoint
  split_ifs
  · rfl
  · rfl

/-- What becomes of a descriptor at the end of its file. -/
inductive EofEnds (f : Follower) (s : Sight) (p : Nat) (inode : Int) : Follower → Prop where
  | stays (f' : Follower) (size : Nat) (hdisk : s.disk = some (inode, size)) (hat : f'.At p inode)
      (hcount : f'.rotationEofs = f.rotationEofs) : EofEnds f s p inode f'
  | counts (f' : Follower) (hdisk : Rotated inode s.disk) (hfirst : f.rotationEofs = 0)
      (hat : f'.At p inode) (hcount : f'.rotationEofs = 1) : EofEnds f s p inode f'
  | closes (f' : Follower) (hdisk : Rotated inode s.disk) (hsecond : f.rotationEofs ≠ 0)
      (hfh : f'.fh = none) (hoffset : f'.offset = 0) (hcount : f'.rotationEofs = 0) :
      EofEnds f s p inode f'

/-- An empty read on a file that is not at its path is counted, and the second closes it. -/
theorem drained_ends {f f₀ : Follower} {s : Sight} {p : Nat} {inode : Int} (hat : f.At p inode)
    (hcount : f.rotationEofs = f₀.rotationEofs) (hdisk : Rotated inode s.disk) :
    EofEnds f₀ s p inode f.drained.1 ∧ ∀ e ∈ f.drained.2, e = .saved p inode := by
  unfold Follower.drained rotationEofGrace
  split_ifs with hgrace
  · have hfirst : f₀.rotationEofs = 0 := by omega
    refine ⟨.counts _ hdisk hfirst ⟨hat.fh, hat.offset, hat.curInode⟩ ?_, by simp⟩
    show f.rotationEofs + 1 = 1
    omega
  · refine ⟨.closes _ hdisk (by omega) rfl rfl rfl, ?_⟩
    intro e he
    rw [List.mem_singleton.mp he, hat.offset, hat.curInode]

/-- The end of the file, where it still has the size it had. -/
theorem atEof_ends {f : Follower} {s : Sight} {p : Nat} {inode : Int} (hat : f.At p inode)
    (hsize : ∀ size, s.disk = some (inode, size) → p ≤ size) :
    EofEnds f s p inode (f.atEof s).1 ∧ ∀ e ∈ (f.atEof s).2, e = .saved p inode := by
  obtain ⟨hat', hsaves⟩ := checkpoint_at hat s.saveAt
  have hcount := checkpoint_rotationEofs f s.saveAt
  have hcheck : EofEnds f s p inode ((f.checkpoint s.saveAt).1.checkRotation s).1
      ∧ ∀ e ∈ ((f.checkpoint s.saveAt).1.checkRotation s).2, e = .saved p inode := by
    unfold Follower.checkRotation
    rcases hdisk : s.disk with _ | ⟨i, size⟩
    · -- absent
      refine drained_ends hat' hcount ?_
      intro i size hsome
      rw [hdisk] at hsome
      cases hsome
    · dsimp only
      by_cases hinode : i = inode
      · -- the same file: it has not shrunk
        have hshort : ¬ (i ≠ (f.checkpoint s.saveAt).1.curInode
            ∨ size < (f.checkpoint s.saveAt).1.offset) := by
          have := hsize size (hinode ▸ hdisk)
          rw [hat'.curInode, hat'.offset]
          omega
        rw [if_neg hshort]
        exact ⟨.stays _ size (hinode ▸ hdisk) hat' hcount, by simp⟩
      · -- another one
        have hother : i ≠ (f.checkpoint s.saveAt).1.curInode := by
          rw [hat'.curInode]
          exact hinode
        rw [if_pos (Or.inl hother), if_neg hother]
        refine drained_ends hat' hcount ?_
        intro i' size' hsome
        rw [hdisk] at hsome
        cases hsome
        exact hinode
  refine ⟨hcheck.1, ?_⟩
  intro e he
  rcases List.mem_append.mp he with he | he
  · exact hsaves e he
  · exact hcheck.2 e he

/-- A pass that hands on a line resets the count of empty reads. -/
theorem atLine_rotationEofs {k : EntryChecks} {f f' : Follower} {rep rep' : Reporter} {s : Sight}
    {p : Nat} {line : Bytes} (h : (f.atLine k rep s p line).1 = some (f', rep')) :
    f'.rotationEofs = 0 := by
  unfold Follower.atLine at h
  dsimp only at h
  split at h
  · cases h
    rw [checkpoint_rotationEofs]
  · cases h
    rfl
  · cases h

/-- What a pass does once its file is open at `p`. -/
inductive RotationEnds (k : EntryChecks) (f : Follower) (rep : Reporter) (s : Sight) (p : Nat)
    (inode : Int) : Option (Follower × Reporter) × List Event → Prop where
  | waits (hwait : s.checkAt < rep.cooldownUntil) :
      RotationEnds k f rep s p inode (some (f, rep), [])
  | eof (f' : Follower) (saves : List Event) (hcool : rep.cooldownUntil ≤ s.checkAt)
      (hline : readline s.content p = []) (hends : EofEnds f s p inode f')
      (hsaves : ∀ e ∈ saves, e = .saved p inode) :
      RotationEnds k f rep s p inode (some (f', rep), saves)
  | handed (c : LineCall) (next : Option Follower) (saves : List Event)
      (hcool : rep.cooldownUntil ≤ s.checkAt) (hline : readline s.content p ≠ [])
      (hat : ∀ f' ∈ next, f'.At (c.handed p (readline s.content p) s.lineAt).next inode
        ∧ f'.rotationEofs = 0)
      (hsaves : ∀ e ∈ saves,
        e = .saved (c.handed p (readline s.content p) s.lineAt).next inode) :
      RotationEnds k f rep s p inode (next.map (·, c.reporter),
        .handed (c.handed p (readline s.content p) s.lineAt) :: saves)

/-- **What a pass does**, where its file may be anywhere, but is not truncated. -/
theorem loopPass_ends {k : EntryChecks} {f f' : Follower} {rep : Reporter} {s : Sight} {p : Nat}
    {inode : Int} (hopen : f.reopen s = some f') (hat : f'.At p inode)
    (hsize : ∀ size, s.disk = some (inode, size) → p ≤ size) :
    RotationEnds k f' rep s p inode (loopPass k f rep s) := by
  rw [loopPass_at hopen hat.fh]
  split_ifs with hwait hline
  · exact .waits hwait
  · obtain ⟨next, saves, hatLine, hnext, hsaves⟩ :=
      atLine_at hat rep s (readline s.content p) rfl
    have hcount : ∀ q, (f'.atLine k rep s p (readline s.content p)).1 = some q →
        q.1.rotationEofs = 0 := fun q h => atLine_rotationEofs h
    rw [hatLine] at hcount ⊢
    refine .handed _ next saves (not_lt.mp hwait) hline ?_ hsaves
    intro f'' hf''
    exact ⟨hnext f'' hf'', hcount _ (congrArg (Option.map _) (Option.mem_def.mp hf''))⟩
  · obtain ⟨hends, hsaves⟩ := atEof_ends hat hsize
    exact .eof _ _ (not_lt.mp hwait) (not_not.mp hline) hends hsaves

/-! ## §2. Runs. -/

/-- A read from the descriptor: a line, with the call on it, or nothing, with the lines of
the file then, and what `os.stat` said afterwards. -/
inductive ReadBack where
  | line (h : Handed)
  | empty (lines : List LogLine) (disk : Option (Int × Nat))

/-- A descriptor that was closed: its file, where it began to read, and its reads. -/
structure Closing where
  inode : Int
  since : Nat
  reads : List ReadBack

/-- The path of the log, the files, the process, and what it has read so far. -/
structure LogDir where
  path : Option Int
  file : Int → List LogLine
  proc : Option (Follower × Reporter)
  /-- Where the present descriptor began to read. -/
  since : Nat
  /-- The reads of that descriptor. -/
  reads : List ReadBack
  closings : List Closing

/-- What a pass finds out: the lines appended to the file it reads, before `readline` and
behind it, what is at the path for `os.stat`, the times, and the answers. -/
structure Glance where
  early : List LogLine
  late : List LogLine
  path : Option Int
  checkAt : Int
  lineAt : Int
  saveAt : Int
  allowed : Bool
  answer : Answer

/-- The actions of the writer, of the rotation and of the process. -/
inductive DirAction where
  /-- To any file, also one that is at no path any more. -/
  | append (inode : Int) (line : LogLine)
  | create (inode : Int)
  /-- The path is renamed away, restored, or put on another file. -/
  | rename (path : Option Int)
  | pass (glance : Glance)

/-- The files, with more lines in one. -/
def LogDir.grown (d : LogDir) (target : Option Int) (more : List LogLine) (inode : Int) :
    List LogLine :=
  if target = some inode then d.file inode ++ more else d.file inode

/-- The file that a pass reads. -/
def LogDir.target (d : LogDir) (f : Follower) : Option Int :=
  if f.fh.isSome then some f.curInode else d.path

/-- The lines of that file when the pass reads it. -/
def LogDir.readable (d : LogDir) (f : Follower) (g : Glance) : List LogLine :=
  match d.target f with
  | some inode => d.file inode ++ g.early
  | none => []

/-- The files of the directory behind the pass. -/
def LogDir.files (d : LogDir) (f : Follower) (g : Glance) : Int → List LogLine :=
  d.grown (d.target f) (g.early ++ g.late)

/-- What the pass sees of the files. -/
def LogDir.sight (d : LogDir) (f : Follower) (g : Glance) : Sight where
  opened := d.path.map fun inode => (inode, (contentOf (d.file inode)).length)
  checkAt := g.checkAt
  content := contentOf (d.readable f g)
  lineAt := g.lineAt
  allowed := g.allowed
  answer := g.answer
  saveAt := g.saveAt
  disk := g.path.map fun inode => (inode, (contentOf (d.files f g inode)).length)

/-- The read of a pass, unless it waits. -/
def readBack (lines : List LogLine) (s : Sight) (rep : Reporter) (events : List Event) :
    List ReadBack :=
  if 0 < rep.inCooldown s.checkAt then []
  else
    match calls events with
    | h :: _ => [.line h]
    | [] => [.empty lines s.disk]

/-- The process goes on without a descriptor. -/
def closes : Option (Follower × Reporter) → Bool
  | some (f, _) => f.fh.isNone
  | none => false

/-- The directory behind a pass. -/
def LogDir.after (k : EntryChecks) (d : LogDir) (f : Follower) (rep : Reporter) (g : Glance) :
    LogDir :=
  let s := d.sight f g
  let r := loopPass k f rep s
  match f.reopen s with
  | none => { d with path := g.path, file := d.files f g, proc := r.1 }
  | some f' =>
      let since := if f.fh.isSome then d.since else f'.fh.getD 0
      let reads :=
        (if f.fh.isSome then d.reads else []) ++ readBack (d.readable f g) s rep r.2
      { path := g.path
        file := d.files f g
        proc := r.1
        since := since
        reads := reads
        closings := d.closings ++ if closes r.1 then [⟨f'.curInode, since, reads⟩] else [] }

/-- The inode is in use by the descriptor. -/
def LogDir.isOpen (d : LogDir) (inode : Int) : Bool :=
  match d.proc with
  | some (f, _) => f.fh.isSome && f.curInode == inode
  | none => false

/-- An action, where it is possible. -/
def LogDir.step (k : EntryChecks) (d : LogDir) : DirAction → Option LogDir
  | .append inode line => some { d with file := d.grown (some inode) [line] }
  | .create inode =>
      -- an inode is given out again only when nothing holds it
      if d.isOpen inode then none
      else some { d with path := some inode, file := Function.update d.file inode [] }
  | .rename path => some { d with path := path }
  | .pass g =>
      match d.proc with
      | none => none
      | some (f, rep) => some (d.after k f rep g)

/-- Actions one after the other. -/
def LogDir.run (k : EntryChecks) (d : LogDir) : List DirAction → Option LogDir
  | [] => some d
  | a :: rest => do
      let d ← d.step k a
      d.run k rest

/-! ## §3. Settled runs. -/

/-- No empty read finds the file back at its path while an earlier one, which did not, is
still counted. -/
def LogDir.Settled (d : LogDir) : DirAction → Prop
  | .pass g => ∀ f rep p, d.proc = some (f, rep) → f.fh = some p → rep.cooldownUntil ≤ g.checkAt →
      readline (contentOf (d.readable f g)) p = [] → g.path = some f.curInode →
      f.rotationEofs = 0
  | _ => True

/-- Every action among some is settled when its turn comes. -/
def LogDir.AllSettled (k : EntryChecks) (d : LogDir) : List DirAction → Prop
  | [] => True
  | a :: rest => d.Settled a ∧ ∀ d', d.step k a = some d' → d'.AllSettled k rest

/-- The lines of the file from a position on are finished. -/
def Finished (since : Nat) (reads : List ReadBack) (lines : List LogLine) : Prop :=
  ∀ pre l post, lines = pre ++ l :: post → since ≤ (contentOf pre).length →
    ∃ h, .line h ∈ reads ∧ h.result = some true ∧ h.pos = (contentOf pre).length
      ∧ h.line = l.text

/-- **The descriptor was drained**: its two last reads gave nothing, both times the file was
not at its path afterwards, and all its lines up to the second are finished. -/
def Closing.Drained (c : Closing) : Prop :=
  ∃ before lines₁ disk₁ lines₂ disk₂,
    c.reads = before ++ [.empty lines₁ disk₁, .empty lines₂ disk₂]
      ∧ Rotated c.inode disk₁ ∧ Rotated c.inode disk₂ ∧ Finished c.since c.reads lines₂

/-! ## §4. How far a descriptor has got.

A descriptor may begin in the middle of a file, so lines count from where it began to
read. -/

/-- The lines that begin between two positions are finished. -/
def FinishedTo (since p : Nat) (reads : List ReadBack) (lines : List LogLine) : Prop :=
  ∀ pre l post, lines = pre ++ l :: post → since ≤ (contentOf pre).length →
    (contentOf pre).length < p →
    ∃ h, .line h ∈ reads ∧ h.result = some true ∧ h.pos = (contentOf pre).length
      ∧ h.line = l.text

theorem FinishedTo.mono {since p : Nat} {reads : List ReadBack} {lines : List LogLine}
    (h : FinishedTo since p reads lines) (more : List ReadBack) :
    FinishedTo since p (reads ++ more) lines := by
  intro pre l post hlines hsince hp
  obtain ⟨c, hc, hcall⟩ := h pre l post hlines hsince hp
  exact ⟨c, List.mem_append_left more hc, hcall⟩

/-- Lines appended behind the position are none of them. -/
theorem FinishedTo.grow {since p : Nat} {reads : List ReadBack} {lines : List LogLine}
    (h : FinishedTo since p reads lines) (hp : p ≤ (contentOf lines).length)
    (more : List LogLine) : FinishedTo since p reads (lines ++ more) := by
  intro pre l post hsplit hsince hlt
  rcases List.append_eq_append_iff.mp hsplit with ⟨a, rfl, -⟩ | ⟨c, hlines, hpost⟩
  · -- it would begin behind the end
    rw [contentOf_append, List.length_append] at hlt
    omega
  · cases c with
    | nil =>
        rw [List.append_nil] at hlines
        rw [hlines] at hp
        omega
    | cons l' c =>
        obtain ⟨rfl, -⟩ := List.cons.inj hpost
        exact h pre l c hlines hsince hlt

/-- A file is finished when it is finished up to its end. -/
theorem FinishedTo.finished {since p : Nat} {reads : List ReadBack} {lines : List LogLine}
    (h : FinishedTo since p reads lines) (hp : (contentOf lines).length ≤ p) :
    Finished since reads lines := by
  intro pre l post hlines hsince
  refine h pre l post hlines hsince ?_
  have := l.text_length
  rw [hlines, contentOf_append, contentOf_cons, List.length_append, List.length_append] at hp
  omega

/-- `readline` stops at the first newline. -/
theorem readline_length_le {content a b : Bytes} {pos : Nat}
    (h : content.drop pos = a ++ 10 :: b) : (readline content pos).length ≤ a.length + 1 := by
  have htake : ((a ++ 10 :: b).takeWhile (· ≠ 10)).length ≤ a.length := by
    rw [List.takeWhile_append]
    split_ifs
    · rw [List.takeWhile_cons_of_neg (by simp), List.append_nil]
    · exact (List.takeWhile_prefix _).length_le
  unfold readline
  dsimp only
  rw [h, List.length_take]
  omega

/-- A line whose beginning is inside of what `readline` gives begins
where `readline` started. -/
theorem readline_start {lines pre post : List LogLine} {l : LogLine} {p : Nat}
    (hlines : lines = pre ++ l :: post) (hp : p ≤ (contentOf pre).length)
    (hlt : (contentOf pre).length < p + (readline (contentOf lines) p).length) :
    (contentOf pre).length = p := by
  by_contra hne
  rcases List.eq_nil_or_concat' pre with rfl | ⟨before, l', rfl⟩
  · have hzero : (contentOf []).length = 0 := rfl
    omega
  · -- the newline of the line in front of it comes first
    have hend : contentOf (before ++ [l']) = contentOf before ++ l'.body ++ [10] := by
      rw [contentOf_append, List.append_assoc]
      exact congrArg _ (List.append_nil l'.text)
    have hlength : (contentOf (before ++ [l'])).length
        = (contentOf before ++ l'.body).length + 1 := by
      rw [hend, List.length_append]
      rfl
    have hdrop : (contentOf lines).drop p
        = (contentOf before ++ l'.body).drop p ++ 10 :: contentOf (l :: post) := by
      rw [hlines, contentOf_append, hend, List.append_assoc, List.singleton_append,
        List.drop_append_of_le_length (by omega)]
    have hread := readline_length_le hdrop
    rw [List.length_drop] at hread
    omega

/-- A line that is finished moves the position behind it. -/
theorem FinishedTo.line {since p : Nat} {reads : List ReadBack} {lines : List LogLine}
    (h : FinishedTo since p reads lines) {c : Handed} (hresult : c.result = some true)
    (hpos : c.pos = p) (hline : c.line = readline (contentOf lines) p) :
    FinishedTo since (p + c.line.length) (reads ++ [.line c]) lines := by
  intro pre l post hlines hsince hlt
  by_cases hbefore : (contentOf pre).length < p
  · exact h.mono [.line c] pre l post hlines hsince hbefore
  · rw [hline] at hlt
    have hstart := readline_start hlines (Nat.le_of_not_lt hbefore) hlt
    refine ⟨c, List.mem_append_right _ List.mem_cons_self, hresult, ?_, ?_⟩
    · rw [hpos, hstart]
    · rw [hline, hlines, ← hstart]
      exact readline_line pre post l

/-- `readline` gives no more than there is in the file. -/
theorem readline_within {content : Bytes} {p : Nat} (h : p ≤ content.length) :
    p + (readline content p).length ≤ content.length := by
  unfold readline
  dsimp only
  rw [List.length_take, List.length_drop]
  omega

/-- `readline` gives nothing only at the end of the file. -/
theorem readline_nil {content : Bytes} {p : Nat} (h : readline content p = []) :
    content.length ≤ p := by
  unfold readline at h
  dsimp only at h
  rcases List.take_eq_nil_iff.mp h with h | h
  · cases h
  · exact List.drop_eq_nil_iff.mp h

/-- The state of a descriptor: its position, how far it has got, and what the count of
empty reads stands for.  `load` is what the state file says. -/
structure Standing (load : Nat × Int) (since p : Nat) (inode : Int) (reads : List ReadBack)
    (lines : List LogLine) (f : Follower) : Prop where
  stands : f.At p inode
  size : p ≤ (contentOf lines).length
  origin : since = 0 ∨ load = (since, inode)
  finished : FinishedTo since p reads lines
  count : f.rotationEofs = 0 ∨ (f.rotationEofs = 1
    ∧ ∃ before lines₁ disk₁, reads = before ++ [.empty lines₁ disk₁] ∧ Rotated inode disk₁)

/-! ## §5. A pass. -/

theorem readBack_waits {lines : List LogLine} {s : Sight} {rep : Reporter} {events : List Event}
    (h : s.checkAt < rep.cooldownUntil) : readBack lines s rep events = [] :=
  if_pos ((inCooldown_pos rep s.checkAt).mpr h)

theorem readBack_empty {lines : List LogLine} {s : Sight} {rep : Reporter} {events : List Event}
    (h : rep.cooldownUntil ≤ s.checkAt) (hnone : calls events = []) :
    readBack lines s rep events = [.empty lines s.disk] := by
  unfold readBack
  rw [if_neg, hnone]
  rw [inCooldown_pos]
  omega

theorem readBack_line {lines : List LogLine} {s : Sight} {rep : Reporter} {c : Handed}
    {saves : List Event} (h : rep.cooldownUntil ≤ s.checkAt) :
    readBack lines s rep (.handed c :: saves) = [.line c] := by
  unfold readBack
  rw [if_neg]
  · rfl
  · rw [inCooldown_pos]
    omega

/-- Lines appended are ahead of the descriptor. -/
theorem Standing.grow {load : Nat × Int} {since p : Nat} {inode : Int} {reads : List ReadBack}
    {lines : List LogLine} {f : Follower} (h : Standing load since p inode reads lines f)
    (more : List LogLine) : Standing load since p inode reads (lines ++ more) f where
  stands := h.stands
  size := by
    have := h.size
    rw [contentOf_append, List.length_append]
    omega
  origin := h.origin
  finished := h.finished.grow h.size more
  count := h.count

/-- **A settled pass**: the descriptor goes on, or is left behind drained. -/
theorem Standing.pass {k : EntryChecks} {load : Nat × Int} {since p : Nat} {inode : Int}
    {reads : List ReadBack} {lines : List LogLine} {f : Follower} {rep : Reporter} {s : Sight}
    (h : Standing load since p inode reads lines f) (hcontent : s.content = contentOf lines)
    (hsettled : rep.cooldownUntil ≤ s.checkAt → readline s.content p = [] →
      (∃ size, s.disk = some (inode, size)) → f.rotationEofs = 0)
    {r : Option (Follower × Reporter) × List Event} (hends : RotationEnds k f rep s p inode r)
    {f' : Follower} {rep' : Reporter} (hr : r.1 = some (f', rep')) :
    (∃ p', Standing load since p' inode (reads ++ readBack lines s rep r.2) lines f')
      ∨ (f'.fh = none ∧ f'.offset = 0 ∧ f'.rotationEofs = 0
        ∧ Closing.Drained ⟨inode, since, reads ++ readBack lines s rep r.2⟩) := by
  cases hends with
  | waits hwait =>
      cases hr
      left
      refine ⟨p, ?_⟩
      rw [readBack_waits hwait, List.append_nil]
      exact h
  | eof f'' saves hcool hline hends hsaves =>
      cases hr
      rw [readBack_empty hcool (calls_saves saves hsaves)]
      cases hends with
      | stays size hdisk hat hcount =>
          left
          refine ⟨p, hat, h.size, h.origin, h.finished.mono _, .inl ?_⟩
          rw [hcount]
          exact hsettled hcool hline ⟨size, hdisk⟩
      | counts hdisk hfirst hat hcount =>
          left
          exact ⟨p, hat, h.size, h.origin, h.finished.mono _, .inr ⟨hcount, reads, lines, s.disk,
            rfl, hdisk⟩⟩
      | closes hdisk hsecond hfh hoffset hcount =>
          right
          refine ⟨hfh, hoffset, hcount, ?_⟩
          -- the count stands for the read before this one
          rcases h.count with hzero | ⟨-, before, lines₁, disk₁, hreads, hdisk₁⟩
          · exact absurd hzero hsecond
          · have hend : (contentOf lines).length ≤ p := by
              rw [← hcontent]
              exact readline_nil hline
            refine ⟨before, lines₁, disk₁, lines, s.disk, ?_, hdisk₁, hdisk, ?_⟩
            · show reads ++ [.empty lines s.disk] = _
              rw [hreads, List.append_assoc]
              rfl
            · exact (h.finished.mono _).finished hend
  | handed c next saves hcool hline hat hsaves =>
      obtain ⟨f'', hnext, heq⟩ := Option.map_eq_some_iff.mp hr
      cases heq
      obtain ⟨hat', hcount⟩ := hat f' hnext
      rw [readBack_line hcool]
      left
      by_cases hresult : c.result = some true
      · -- behind the line
        have hmoved : (c.handed p (readline s.content p) s.lineAt).next
            = p + (readline s.content p).length := if_pos hresult
        have hwithin := readline_within h.size
        rw [hmoved] at hat'
        rw [← hcontent] at hwithin
        refine ⟨_, hat', ?_, h.origin, ?_, .inl hcount⟩
        · rw [hcontent] at hwithin ⊢
          exact hwithin
        · exact h.finished.line (c := c.handed p (readline s.content p) s.lineAt) hresult rfl
            (congrArg (readline · p) hcontent)
      · -- back in front of it
        have hmoved : (c.handed p (readline s.content p) s.lineAt).next = p := if_neg hresult
        rw [hmoved] at hat'
        exact ⟨p, hat', h.size, h.origin, h.finished.mono _, .inl hcount⟩

/-! ## §6. Runs. -/

/-- Where the process stands: it has yet to open the file at the path, from the top or at
the offset it loaded, or it has one open. -/
inductive LogDir.Place (d : LogDir) (load : Nat × Int) (f : Follower) : Prop where
  | closed (hfh : f.fh = none) (hcount : f.rotationEofs = 0)
      (horigin : f.offset = 0 ∨ load = (f.offset, f.savedInode))
  | opened (p : Nat)
      (hstanding : Standing load d.since p f.curInode d.reads (d.file f.curInode) f)

/-- **The invariant** of a run. -/
structure LogDir.Inv (d : LogDir) (load : Nat × Int) : Prop where
  proc : ∀ f rep, d.proc = some (f, rep) → d.Place load f
  closings : ∀ c ∈ d.closings, (c.since = 0 ∨ load = (c.since, c.inode)) ∧ c.Drained

/-- A pass that has, or gets, a descriptor has it at a position of the file that it reads. -/
theorem LogDir.Place.opens {d : LogDir} {load : Nat × Int} {f f' : Follower}
    (h : d.Place load f) {g : Glance} (hopen : f.reopen (d.sight f g) = some f') :
    ∃ p, d.target f = some f'.curInode
      ∧ Standing load (if f.fh.isSome then d.since else f'.fh.getD 0) p f'.curInode
        (if f.fh.isSome then d.reads else []) (d.file f'.curInode) f'
      ∧ (f'.rotationEofs = 0 ∨ (f' = f ∧ f.fh = some p)) := by
  unfold LogDir.target
  cases h with
  | opened p hstanding =>
      have hfh := hstanding.stands.fh
      unfold Follower.reopen at hopen
      rw [hfh] at hopen
      cases hopen
      rw [hfh]
      exact ⟨p, rfl, hstanding, .inr ⟨rfl, rfl⟩⟩
  | closed hfh hcount horigin =>
      unfold Follower.reopen at hopen
      rw [hfh] at hopen ⊢
      cases hpath : d.path with
      | none =>
          have hopened : (d.sight f g).opened = none := by
            unfold LogDir.sight
            rw [hpath]
            rfl
          rw [hopened] at hopen
          cases hopen
      | some inode =>
          have hopened : (d.sight f g).opened
              = some (inode, (contentOf (d.file inode)).length) := by
            unfold LogDir.sight
            rw [hpath]
            rfl
          rw [hopened] at hopen
          dsimp only at hopen
          -- nothing has been read yet, and nothing lies between a position and itself
          have hfresh : ∀ p, FinishedTo p p [] (d.file inode) := by
            intro p pre l post _ hle hlt
            omega
          split_ifs at hopen with hresume
          · cases hopen
            refine ⟨f.offset, rfl, ⟨⟨rfl, rfl, rfl⟩, hresume.2, ?_, hfresh _, .inl hcount⟩,
              .inl hcount⟩
            rw [← hresume.1] at horigin
            exact horigin
          · cases hopen
            exact ⟨0, rfl, ⟨⟨rfl, rfl, rfl⟩, Nat.zero_le _, .inl rfl, hfresh 0, .inl hcount⟩,
              .inl hcount⟩

/-- The file that a pass reads, when it does and behind it. -/
theorem LogDir.files_target {d : LogDir} {f : Follower} {inode : Int} (h : d.target f = some inode)
    (g : Glance) :
    d.readable f g = d.file inode ++ g.early ∧ d.files f g inode = d.readable f g ++ g.late := by
  have hreadable : d.readable f g = d.file inode ++ g.early := by
    unfold LogDir.readable
    rw [h]
  refine ⟨hreadable, ?_⟩
  unfold LogDir.files LogDir.grown
  rw [if_pos h, hreadable, List.append_assoc]

/-- Where a settled pass leaves the descriptor it has. -/
theorem LogDir.Place.pass {k : EntryChecks} {d : LogDir} {load : Nat × Int} {f f' : Follower}
    {rep : Reporter} (h : d.Place load f) (hproc : d.proc = some (f, rep)) {g : Glance}
    (hsettled : d.Settled (.pass g)) (hopen : f.reopen (d.sight f g) = some f')
    {since : Nat} (hsince : since = if f.fh.isSome then d.since else f'.fh.getD 0)
    {reads : List ReadBack} (hreads : reads = (if f.fh.isSome then d.reads else [])
      ++ readBack (d.readable f g) (d.sight f g) rep (loopPass k f rep (d.sight f g)).2)
    {f'' : Follower} {rep'' : Reporter}
    (hr : (loopPass k f rep (d.sight f g)).1 = some (f'', rep'')) :
    (since = 0 ∨ load = (since, f'.curInode))
      ∧ ((∃ p', Standing load since p' f''.curInode reads (d.files f g f''.curInode) f'')
        ∨ (f''.fh = none ∧ f''.offset = 0 ∧ f''.rotationEofs = 0
          ∧ Closing.Drained ⟨f'.curInode, since, reads⟩)) := by
  obtain ⟨p, htarget, hstanding, hcount⟩ := h.opens hopen
  obtain ⟨hreadable, hfiles⟩ := LogDir.files_target htarget g
  rw [← hsince] at hstanding
  have hgrown := hstanding.grow g.early
  rw [← hreadable] at hgrown
  -- the position is in the file, also when it is looked at once more
  have hsize : ∀ size, (d.sight f g).disk = some (f'.curInode, size) → p ≤ size := by
    intro size hdisk
    obtain ⟨inode, -, heq⟩ := Option.map_eq_some_iff.mp hdisk
    obtain ⟨rfl, rfl⟩ := Prod.mk.inj heq
    exact (hgrown.grow g.late).size.trans_eq (by rw [hfiles])
  have hquiet : rep.cooldownUntil ≤ g.checkAt → readline (d.sight f g).content p = [] →
      (∃ size, (d.sight f g).disk = some (f'.curInode, size)) → f'.rotationEofs = 0 := by
    rintro hcool hline ⟨size, hdisk⟩
    rcases hcount with hzero | ⟨rfl, hfh⟩
    · exact hzero
    · obtain ⟨inode, hpath, heq⟩ := Option.map_eq_some_iff.mp hdisk
      obtain ⟨rfl, -⟩ := Prod.mk.inj heq
      exact hsettled f' rep p hproc hfh hcool hline hpath
  have hends : RotationEnds k f' rep (d.sight f g) p f'.curInode
      (loopPass k f rep (d.sight f g)) := loopPass_ends hopen hstanding.stands hsize
  refine ⟨hstanding.origin, ?_⟩
  rw [hreads]
  rcases hgrown.pass rfl hquiet hends hr with ⟨p', hnext⟩ | hclosed
  · refine .inl ⟨p', ?_⟩
    rw [hnext.stands.curInode, hfiles]
    exact hnext.grow g.late
  · exact .inr hclosed

/-- While the path is absent, a process without a descriptor waits for it. -/
theorem LogDir.after_absent {k : EntryChecks} {d : LogDir} {f : Follower} {rep : Reporter}
    {g : Glance} (hopen : f.reopen (d.sight f g) = none) :
    d.after k f rep g
      = { d with path := g.path, file := d.files f g, proc := some (f, rep) } := by
  have hpass : loopPass k f rep (d.sight f g) = (some (f, rep), []) := by
    unfold loopPass
    rw [hopen]
  unfold LogDir.after
  dsimp only
  rw [hopen, hpass]

/-- **A settled pass keeps the invariant.** -/
theorem after_inv {k : EntryChecks} {d : LogDir} {load : Nat × Int} (hinv : d.Inv load)
    {f : Follower} {rep : Reporter} (hproc : d.proc = some (f, rep)) {g : Glance}
    (hsettled : d.Settled (.pass g)) : (d.after k f rep g).Inv load := by
  have hplace := hinv.proc f rep hproc
  cases hopen : f.reopen (d.sight f g) with
  | none =>
      rw [LogDir.after_absent hopen]
      refine ⟨?_, hinv.closings⟩
      intro f' rep' heq
      cases heq
      cases hplace with
      | closed hfh hcount horigin => exact .closed hfh hcount horigin
      | opened p hstanding =>
          unfold Follower.reopen at hopen
          rw [hstanding.stands.fh] at hopen
          cases hopen
  | some f' =>
      have hpass := fun f'' rep'' =>
        @LogDir.Place.pass k d load f f' rep hplace hproc g hsettled hopen _ rfl _ rfl f'' rep''
      unfold LogDir.after
      dsimp only
      rw [hopen]
      dsimp only
      generalize loopPass k f rep (d.sight f g) = r at hpass ⊢
      constructor
      · intro f'' rep'' hr
        obtain ⟨-, ⟨p', hnext⟩ | ⟨hfh, hoffset, hzero, -⟩⟩ := hpass f'' rep'' hr
        · exact .opened p' hnext
        · exact .closed hfh hzero (.inl hoffset)
      · intro c hc
        rcases List.mem_append.mp hc with hc | hc
        · exact hinv.closings c hc
        · by_cases hclosed : closes r.1 = true
          · rw [if_pos hclosed] at hc
            rw [List.mem_singleton.mp hc]
            rcases hr : r.1 with _ | ⟨f'', rep''⟩
            · rw [hr] at hclosed
              cases hclosed
            · obtain ⟨horigin, ⟨p', hnext⟩ | ⟨-, -, -, hdrained⟩⟩ := hpass f'' rep'' hr
              · -- it still has its descriptor
                rw [hr] at hclosed
                unfold closes at hclosed
                dsimp only at hclosed
                rw [hnext.stands.fh] at hclosed
                cases hclosed
              · exact ⟨horigin, hdrained⟩
          · rw [if_neg hclosed] at hc
            cases hc

/-- A change to other files leaves the place of the process as it is. -/
theorem LogDir.Place.congr {d d' : LogDir} {load : Nat × Int} {f : Follower} (h : d.Place load f)
    (hsince : d'.since = d.since) (hreads : d'.reads = d.reads)
    (hfile : f.fh.isSome → ∃ more, d'.file f.curInode = d.file f.curInode ++ more) :
    d'.Place load f := by
  cases h with
  | closed hfh hcount horigin => exact .closed hfh hcount horigin
  | opened p hstanding =>
      have hopen : f.fh.isSome := by
        rw [hstanding.stands.fh]
        rfl
      obtain ⟨more, hmore⟩ := hfile hopen
      refine .opened p ?_
      rw [hsince, hreads, hmore]
      exact hstanding.grow more

/-- **No settled action breaks the invariant.** -/
theorem settled_inv {k : EntryChecks} {d d' : LogDir} {load : Nat × Int} (hinv : d.Inv load)
    {a : DirAction} (hsettled : d.Settled a) (hstep : d.step k a = some d') : d'.Inv load := by
  cases a with
  | append inode line =>
      cases hstep
      refine ⟨?_, hinv.closings⟩
      intro f rep hproc
      refine (hinv.proc f rep hproc).congr rfl rfl ?_
      intro _
      show ∃ more, (if some inode = some f.curInode then _ else _) = _
      split_ifs
      · exact ⟨[line], rfl⟩
      · exact ⟨[], (List.append_nil _).symm⟩
  | create inode =>
      unfold LogDir.step at hstep
      dsimp only at hstep
      split_ifs at hstep with hopen
      cases hstep
      refine ⟨?_, hinv.closings⟩
      intro f rep hproc
      refine (hinv.proc f rep hproc).congr rfl rfl ?_
      intro hfh
      -- A new file cannot have the inode of the one that the descriptor keeps open.
      have hne : f.curInode ≠ inode := by
        intro heq
        subst heq
        refine hopen ?_
        unfold LogDir.isOpen
        rw [show d.proc = some (f, rep) from hproc]
        simp [hfh]
      refine ⟨[], ?_⟩
      show Function.update d.file inode [] f.curInode = _
      rw [Function.update_of_ne hne, List.append_nil]
  | rename path =>
      cases hstep
      refine ⟨?_, hinv.closings⟩
      intro f rep hproc
      exact (hinv.proc f rep hproc).congr rfl rfl fun _ => ⟨[], (List.append_nil _).symm⟩
  | pass g =>
      cases hproc : d.proc with
      | none =>
          simp only [LogDir.step, hproc] at hstep
          cases hstep
      | some q =>
          simp only [LogDir.step, hproc] at hstep
          cases hstep
          exact after_inv hinv hproc hsettled

theorem run_inv {k : EntryChecks} {load : Nat × Int} (actions : List DirAction) :
    ∀ {d d' : LogDir}, d.Inv load → d.AllSettled k actions → d.run k actions = some d' →
      d'.Inv load := by
  induction actions with
  | nil =>
      intro d d' hinv _ hrun
      cases hrun
      exact hinv
  | cons a rest ih =>
      intro d d' hinv hsettled hrun
      obtain ⟨d₁, hstep, hrest⟩ := Option.bind_eq_some_iff.mp hrun
      exact ih (settled_inv hinv hsettled.1 hstep) (hsettled.2 d₁ hstep) hrest

/-- The invariant holds of a process that has just been started. -/
theorem started_inv {d : LogDir} {state : Option Saved} {logPath : Bytes} {dryRun : Bool}
    (hproc : d.proc = some (.start state logPath, .fresh dryRun)) (hnone : d.closings = []) :
    d.Inv (loadOffset state logPath) where
  proc := by
    intro f rep h
    rw [hproc] at h
    cases h
    exact .closed rfl rfl (.inr rfl)
  closings := by
    intro c hc
    rw [hnone] at hc
    cases hc

/-- **A descriptor is only left behind drained.**  Whatever happens to the path and to the
files, as long as no empty read finds the file back at its path while an earlier one is
still counted: the two last reads of a descriptor that was closed gave nothing, after
neither was its file at the path, and all the lines that were in it at the second of them
are finished, from its top on, or from the offset in the state file. -/
theorem follow_drains (k : EntryChecks) {d d' : LogDir} {state : Option Saved} {logPath : Bytes}
    {dryRun : Bool} (hproc : d.proc = some (.start state logPath, .fresh dryRun))
    (hnone : d.closings = []) (actions : List DirAction) (hsettled : d.AllSettled k actions)
    (hrun : d.run k actions = some d') :
    ∀ c ∈ d'.closings,
      (c.since = 0 ∨ loadOffset state logPath = (c.since, c.inode)) ∧ c.Drained :=
  (run_inv actions (started_inv hproc hnone) hsettled hrun).closings

/-! ## §7. A file that is renamed away. -/

/-- A log with one hit in it, which the process has yet to open. -/
def restingLog : LogDir where
  path := some 7
  file := fun inode => if inode = 7 then [oneHit] else []
  proc := some (.start none (bytesOf "/var/log/nginx/shield.json"), .fresh false)
  since := 0
  reads := []
  closings := []

/-- A pass that finds this at the path in the end. -/
def glanceAt (path : Option Int) : DirAction := .pass ⟨[], [], path, 1, 1, 1, true, .accepted⟩

/-- The hit, and then two empty reads with the path absent. -/
def renamedAway : List DirAction := [glanceAt (some 7), glanceAt none, glanceAt none]

theorem renamedAway_settled : restingLog.AllSettled oneAddress renamedAway := by
  refine ⟨?_, fun d₁ _ => ⟨?_, fun d₂ _ => ⟨?_, fun _ _ => trivial⟩⟩⟩
  · -- the file has not been opened yet
    intro f rep p heq heq'
    cases heq
    cases heq'
  · intro f rep p _ _ _ _ heq
    cases heq
  · intro f rep p _ _ _ _ heq
    cases heq

theorem follow_drains_renamed :
    ∃ d', restingLog.run oneAddress renamedAway = some d' ∧ d'.closings.length = 1
      ∧ ∀ c ∈ d'.closings, c.Drained := by
  have hclosed : (restingLog.run oneAddress renamedAway).map (fun d => d.closings.length)
      = some 1 := by
    decide
  obtain ⟨d', hrun, hlength⟩ := Option.map_eq_some_iff.mp hclosed
  exact ⟨d', hrun, hlength, fun c hc =>
    (follow_drains oneAddress rfl rfl renamedAway renamedAway_settled hrun c hc).2⟩

/-- Absent, restored, and absent again: the count goes on where it was, and the descriptor
is closed after an empty read behind which its file was at the path. -/
theorem follow_counts_on :
    (restingLog.run oneAddress [glanceAt (some 7), glanceAt none, .rename (some 7),
        glanceAt (some 7), glanceAt none]).map LogDir.closings
      = some [⟨7, 0, [.line ⟨0, oneHit.text, 1, some .ok, some true, 0⟩, .empty [oneHit] none,
        .empty [oneHit] (some (7, 17)), .empty [oneHit] none]⟩]
      ∧ ¬ Closing.Drained ⟨7, 0, [.line ⟨0, oneHit.text, 1, some .ok, some true, 0⟩,
        .empty [oneHit] none, .empty [oneHit] (some (7, 17)), .empty [oneHit] none]⟩ := by
  refine ⟨rfl, ?_⟩
  rintro ⟨before, lines₁, disk₁, lines₂, disk₂, hreads, hdisk₁, -⟩
  have hlast := @List.append_inj_right' _ [ReadBack.line _, .empty _ none] _ _ _ hreads rfl
  cases hlast
  exact hdisk₁ 7 17 rfl rfl

end HttpShield
