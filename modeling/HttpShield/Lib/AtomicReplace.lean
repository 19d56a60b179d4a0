/-
  HttpShield.Lib.AtomicReplace
  ────────────────────────────
  Files that are replaced whole.

  A new content is written to a file beside the target, piece by piece, and that file is
  renamed to the target.  A process may be killed between any two of these calls: the
  target then has its old content or the new one, and no other file but the one beside it
  has changed.

    • `replace_cut`, `replace_done` — one replacement, cut short or finished,
    • `runSaves_target`             — many of them, on several files.
-/
import Mathlib.Logic.Function.Basic
import Mathlib.Data.List.Basic
import Mathlib.Tactic.Common

namespace AtomicReplace

variable {P C : Type} [DecidableEq P]

/-! ## §1. Calls. -/

/-- The files there are, by their paths. -/
abbrev Disk (P C : Type) := P → Option (List C)

/-- What a process asks of the file system. -/
inductive Call (P C : Type) where
  /-- A file that exists is emptied. -/
  | create (p : P)
  | append (p : P) (piece : List C)
  | rename (p q : P)

def Call.run (d : Disk P C) : Call P C → Disk P C
  | .create p => Function.update d p (some [])
  | .append p piece => Function.update d p ((d p).map (· ++ piece))
  | .rename p q => if p = q then d else Function.update (Function.update d q (d p)) p none

def runCalls (d : Disk P C) (calls : List (Call P C)) : Disk P C := calls.foldl Call.run d

/-- The calls that replace a file. -/
def replace (tmp target : P) (pieces : List (List C)) : List (Call P C) :=
  .create tmp :: (pieces.map (.append tmp) ++ [.rename tmp target])

theorem runCalls_append (d : Disk P C) (calls more : List (Call P C)) :
    runCalls d (calls ++ more) = runCalls (runCalls d calls) more := List.foldl_append

/-- A call that only writes to a file leaves the others alone. -/
theorem runCalls_other {d : Disk P C} {tmp p : P} (hp : p ≠ tmp) (calls : List (Call P C))
    (h : ∀ c ∈ calls, c = .create tmp ∨ ∃ piece, c = .append tmp piece) :
    runCalls d calls p = d p := by
  induction calls generalizing d with
  | nil => rfl
  | cons c calls ih =>
      have hrest := ih (d := c.run d) fun c' hc' => h c' (List.mem_cons_of_mem _ hc')
      have hcall : c.run d p = d p := by
        rcases h c List.mem_cons_self with rfl | ⟨piece, rfl⟩
        · exact Function.update_of_ne hp _ _
        · exact Function.update_of_ne hp _ _
      exact hrest.trans hcall

/-- Appending some pieces to the temporary file leaves them there one behind the other. -/
theorem runCalls_pieces (tmp : P) (pieces : List (List C)) :
    ∀ (d : Disk P C) (content : List C), d tmp = some content →
      runCalls d (pieces.map (.append tmp)) tmp = some (content ++ pieces.flatten) := by
  induction pieces with
  | nil =>
      intro d content hd
      show d tmp = some (content ++ [])
      rw [List.append_nil]
      exact hd
  | cons piece pieces ih =>
      intro d content hd
      have hfirst : (Call.append tmp piece).run d tmp = some (content ++ piece) := by
        show Function.update d tmp ((d tmp).map (· ++ piece)) tmp = _
        rw [Function.update_self, hd]
        rfl
      show runCalls ((Call.append tmp piece).run d) (pieces.map (.append tmp)) tmp = _
      rw [ih _ _ hfirst, List.append_assoc]
      rfl

/-! ## §2. A replacement. -/

/-- **Cut short**, it has changed nothing but the file beside the target. -/
theorem replace_cut {tmp target : P} {pieces : List (List C)} {made : Nat}
    (h : made < (replace tmp target pieces).length) (d : Disk P C) {p : P} (hp : p ≠ tmp) :
    runCalls d ((replace tmp target pieces).take made) p = d p := by
  apply runCalls_other hp
  intro c hc
  have hlen : (replace tmp target pieces).length
      = (Call.create tmp :: pieces.map (Call.append tmp)).length + 1 := by
    unfold replace
    simp
  have hbody : (replace tmp target pieces).take made
      = (Call.create tmp :: pieces.map (Call.append tmp)).take made := by
    show ((Call.create tmp :: pieces.map (Call.append tmp)) ++ [Call.rename tmp target]).take
      made = _
    exact List.take_append_of_le_length (by omega)
  rw [hbody] at hc
  rcases List.mem_cons.mp (List.mem_of_mem_take hc) with hcreate | happend
  · exact .inl hcreate
  · obtain ⟨piece, -, hpiece⟩ := List.mem_map.mp happend
    exact .inr ⟨piece, hpiece.symm⟩

/-- **Finished**, the target has the new content. -/
theorem replace_done {tmp target : P} (hne : tmp ≠ target) (pieces : List (List C))
    (d : Disk P C) :
    runCalls d (replace tmp target pieces) target = some pieces.flatten
      ∧ ∀ p, p ≠ tmp → p ≠ target → runCalls d (replace tmp target pieces) p = d p := by
  let written := runCalls d (Call.create tmp :: pieces.map (Call.append tmp))
  have hcontent : written tmp = some pieces.flatten := by
    have h := runCalls_pieces tmp pieces (Function.update d tmp (some [])) []
      (Function.update_self tmp (some []) d)
    exact h
  have hwritten : runCalls d (replace tmp target pieces)
      = Function.update (Function.update written target (written tmp)) tmp none := by
    show runCalls d ((Call.create tmp :: pieces.map (Call.append tmp)) ++
      [Call.rename tmp target]) = _
    rw [runCalls_append]
    exact if_neg hne
  rw [hwritten]
  refine ⟨?_, ?_⟩
  · rw [Function.update_of_ne hne.symm, Function.update_self]
    exact hcontent
  · intro p htmp htarget
    rw [Function.update_of_ne htmp, Function.update_of_ne htarget]
    apply runCalls_other htmp
    intro c hc
    rcases List.mem_cons.mp hc with hcreate | happend
    · exact .inl hcreate
    · obtain ⟨piece, -, hpiece⟩ := List.mem_map.mp happend
      exact .inr ⟨piece, hpiece.symm⟩

/-! ## §3. Many of them. -/

/-- A replacement, with the number of calls that were made before the process was gone. -/
structure Save (P C : Type) where
  tmp : P
  target : P
  pieces : List (List C)
  made : Nat

def Save.run (d : Disk P C) (s : Save P C) : Disk P C :=
  runCalls d ((replace s.tmp s.target s.pieces).take s.made)

/-- The process made every call of the save before it was cut short. -/
def Save.Finished (s : Save P C) : Prop := (replace s.tmp s.target s.pieces).length ≤ s.made

instance (s : Save P C) : Decidable s.Finished :=
  inferInstanceAs (Decidable ((replace s.tmp s.target s.pieces).length ≤ s.made))

def runSaves (d : Disk P C) (saves : List (Save P C)) : Disk P C := saves.foldl Save.run d

/-- The content of the last save that was finished. -/
def lastContent (target : P) (old : Option (List C)) (saves : List (Save P C)) :
    Option (List C) :=
  saves.foldl
    (fun content s =>
      if s.target = target ∧ s.Finished then some s.pieces.flatten else content)
    old

theorem lastContent_cons (target : P) (old : Option (List C)) (s : Save P C)
    (saves : List (Save P C)) :
    lastContent target old (s :: saves)
      = lastContent target (if s.target = target ∧ s.Finished then some s.pieces.flatten else old)
        saves := rfl

/-- One save of a file leaves the new content there if it was finished,
and the old content if not. -/
theorem Save.run_target (s : Save P C) {target : P} (htmp : s.tmp ≠ target)
    (hne : s.tmp ≠ s.target) (d : Disk P C) :
    s.run d target
      = if s.target = target ∧ s.Finished then some s.pieces.flatten else d target := by
  unfold Save.run
  by_cases hdone : s.Finished
  · rw [List.take_of_length_le hdone]
    obtain ⟨hnew, hothers⟩ := replace_done hne s.pieces d
    by_cases htarget : s.target = target
    · rw [if_pos ⟨htarget, hdone⟩, ← htarget]
      exact hnew
    · rw [if_neg fun h => htarget h.1]
      exact hothers target htmp.symm fun h => htarget h.symm
  · rw [if_neg fun h => hdone h.2]
    exact replace_cut (Nat.lt_of_not_le hdone) d htmp.symm

/-- **After any saves, cut short or not, a file has the content of the last finished one**
that went to it. -/
theorem runSaves_target {target : P} (saves : List (Save P C))
    (htmp : ∀ s ∈ saves, s.tmp ≠ target ∧ s.tmp ≠ s.target) (d : Disk P C) :
    runSaves d saves target = lastContent target (d target) saves := by
  induction saves generalizing d with
  | nil => rfl
  | cons s saves ih =>
      obtain ⟨hother, hne⟩ := htmp s List.mem_cons_self
      show runSaves (s.run d) saves target = lastContent target _ saves
      rw [ih (fun s' hs' => htmp s' (List.mem_cons_of_mem _ hs')), s.run_target hother hne]

end AtomicReplace
