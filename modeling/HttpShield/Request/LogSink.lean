/-
  HttpShield.Request.LogSink
  ──────────────────────────
  The file sink of `ngx_http_shield_write_log`: what the log holds, whatever the writes
  come back with, and what is said when a record is lost.

  Every worker has its own `log_disk_full_time` and `log_error_time` for a location, and
  all of them append to one file.  A write may be short or fail, and clocks may go back.

    • `SinkTimes.write_fate`  — what one write does, by the times of its sink,
    • `LogFile.run_entries`   — in a run, by the entries before it,
    • `logFile_accounts`      — so no record is lost without an alert, and no two alerts
      of a sink are within a minute.
-/
import HttpShield.Request.HitLog

namespace HttpShield

/-! ## §1. One write. -/

/-- What `ngx_write_fd` comes back with: a number of bytes, or `-1`, and whether
`ngx_errno` is `ENOSPC`. -/
inductive WriteFd where
  | wrote (n : Nat)
  | failed (enospc : Bool)
  deriving Repr, DecidableEq

/-- What is logged about a write. -/
inductive WriteAlert where
  | failed (enospc : Bool)
  | incomplete (n len : Nat)
  deriving Repr, DecidableEq

/-- What became of a record. -/
inductive Fate where
  | skipped
  | written (out : WriteFd) (alert : Option WriteAlert)
  deriving Repr, DecidableEq

/-- `log_disk_full_time` and `log_error_time`. -/
structure SinkTimes where
  diskFull : Int
  error : Int
  deriving Repr, DecidableEq

/-- An alert, unless there was one within the minute. -/
def SinkTimes.alert (s : SinkTimes) (now : Int) (a : WriteAlert) :
    SinkTimes × Option WriteAlert :=
  if now - s.error > 59 then ({ s with error := now }, some a) else (s, none)

/-- The file sink, with the line terminated. -/
def SinkTimes.write (s : SinkTimes) (now : Int) (line : Bytes) (out : WriteFd) :
    SinkTimes × Fate :=
  -- the disk was full in this second
  if now = s.diskFull then (s, .skipped)
  else
    match out with
    | .wrote n =>
        if n = line.length then (s, .written out none)
        else
          let (s, alert) := s.alert now (.incomplete n line.length)
          (s, .written out alert)
    | .failed enospc =>
        let s := if enospc then { s with diskFull := now } else s
        let (s, alert) := s.alert now (.failed enospc)
        (s, .written out alert)

/-- The bytes the file has got. -/
def Fate.bytes (line : Bytes) : Fate → Bytes
  | .skipped => []
  | .written (.wrote n) _ => line.take n
  | .written (.failed _) _ => []

/-- The write was answered with `ENOSPC`. -/
def Fate.full : Fate → Bool
  | .written (.failed true) _ => true
  | _ => false

def Fate.alerted : Fate → Bool
  | .written _ (some _) => true
  | _ => false

/-- The write was made, and did not put down the whole line. -/
def Fate.CutShort (line : Bytes) : Fate → Prop
  | .skipped => False
  | .written out _ => out ≠ .wrote line.length

theorem Fate.cutShort_of_full {fate : Fate} (h : fate.full = true) (line : Bytes) :
    fate.CutShort line := by
  cases fate with
  | skipped => cases h
  | written out alert =>
      cases out with
      | wrote n => cases h
      | failed enospc => exact fun heq => by cases heq

/-- What is neither left out nor cut short is in the file. -/
theorem Fate.bytes_whole {line : Bytes} {fate : Fate} (hmade : fate ≠ .skipped)
    (hwhole : ¬ fate.CutShort line) : fate.bytes line = line := by
  cases fate with
  | skipped => exact absurd rfl hmade
  | written out alert =>
      obtain rfl : out = .wrote line.length := not_not.mp hwhole
      exact List.take_length

theorem Fate.bytes_front (line : Bytes) (fate : Fate) : fate.bytes line <+: line := by
  cases fate with
  | skipped => exact List.nil_prefix
  | written out alert =>
      cases out with
      | wrote n => exact List.take_prefix n line
      | failed enospc => exact List.nil_prefix

/-- **What a write does**: it is left out in the second of the last `ENOSPC`, and raises an
alert if it is cut short and the last alert is a minute ago. -/
theorem SinkTimes.write_fate (s : SinkTimes) (now : Int) (line : Bytes) (out : WriteFd) :
    ((s.write now line out).2 = .skipped ↔ now = s.diskFull)
      ∧ ((s.write now line out).2.alerted = true
        ↔ (s.write now line out).2.CutShort line ∧ now - s.error > 59)
      ∧ (s.write now line out).1
        = { diskFull := if (s.write now line out).2.full then now else s.diskFull
            error := if (s.write now line out).2.alerted then now else s.error } := by
  by_cases hskip : now = s.diskFull
  · simp [SinkTimes.write, hskip, Fate.alerted, Fate.full, Fate.CutShort]
  · cases out with
    | wrote n =>
        by_cases hwhole : n = line.length
        · simp [SinkTimes.write, hskip, hwhole, Fate.alerted, Fate.full, Fate.CutShort]
        · by_cases halert : now - s.error > 59 <;>
            simp [SinkTimes.write, SinkTimes.alert, hskip, hwhole, halert, Fate.alerted,
              Fate.full, Fate.CutShort]
    | failed enospc =>
        cases enospc <;> by_cases halert : now - s.error > 59 <;>
          simp [SinkTimes.write, SinkTimes.alert, hskip, halert, Fate.alerted, Fate.full,
            Fate.CutShort]

/-! ## §2. A log file. -/

/-- The line that is written is the record, and a newline. -/
theorem fileLine_returns (ts : Bytes) (conf : LocConf) (r : Request) (hit : Hit) :
    ∃ record, renderHit ts conf r hit = .ok record
      ∧ fileLine ts conf r hit = .ok (record ++ [10]) := by
  have hrender := renderHit_eq ts conf r hit
  refine ⟨_, hrender, ?_⟩
  unfold fileLine
  rw [hrender]
  exact putByte_eq (renderHit_length hrender) 10

/-- A hit to be logged, in a location of a worker, and what the write comes back with. -/
structure LogWrite (S : Type) where
  sink : S
  now : Int
  conf : LocConf
  request : Request
  hit : Hit
  out : WriteFd

/-- A record handed to a sink: when, with what line, and what became of it. -/
structure LogEntry (S : Type) where
  sink : S
  now : Int
  line : Bytes
  fate : Fate

/-- What the file has got of the entry. -/
def LogEntry.bytes {S : Type} (e : LogEntry S) : Bytes := e.fate.bytes e.line

/-- The file, and the times of each sink that appends to it. -/
structure LogFile (S : Type) where
  times : S → SinkTimes
  content : Bytes

/-- The times are zero (`ngx_pcalloc`), and the file is empty. -/
def LogFile.empty (S : Type) : LogFile S where
  times := fun _ => ⟨0, 0⟩
  content := []

section Runs

variable {S : Type} [DecidableEq S] (iso : Int → Bytes)

/-- One hit is logged; `iso` is what `ngx_cached_http_log_iso8601` holds at a time. -/
def LogFile.step (f : LogFile S) (w : LogWrite S) : Except Fault (LogFile S × LogEntry S) := do
  let line ← fileLine (iso w.now) w.conf w.request w.hit
  let (times, fate) := (f.times w.sink).write w.now line w.out
  return ({ times := Function.update f.times w.sink times
            content := f.content ++ fate.bytes line },
    ⟨w.sink, w.now, line, fate⟩)

/-- Hits in the order in which they are logged. -/
def LogFile.run (f : LogFile S) : List (LogWrite S) → Except Fault (LogFile S × List (LogEntry S))
  | [] => .ok (f, [])
  | w :: writes => do
      let (f, e) ← f.step iso w
      let (f, entries) ← f.run writes
      return (f, e :: entries)

/-- The entry is of this write. -/
def LogWrite.Gives (w : LogWrite S) (e : LogEntry S) : Prop :=
  e.sink = w.sink ∧ e.now = w.now ∧ fileLine (iso w.now) w.conf w.request w.hit = .ok e.line

/-- The time of the last entry of a sink that has the property; zero if there is none. -/
def lastTime (p : Fate → Bool) (entries : List (LogEntry S)) (sink : S) : Int :=
  ((entries.reverse.find? fun e => e.sink = sink ∧ p e.fate = true).map LogEntry.now).getD 0

/-- **What became of a record**, by the entries before it. -/
structure LogEntry.Fits (before : List (LogEntry S)) (e : LogEntry S) : Prop where
  skipped : e.fate = .skipped ↔ e.now = lastTime Fate.full before e.sink
  alerted : e.fate.alerted = true
    ↔ e.fate.CutShort e.line ∧ e.now - lastTime Fate.alerted before e.sink > 59

/-! ## §3. The entries of a file. -/

theorem lastTime_append (p : Fate → Bool) (entries : List (LogEntry S)) (e : LogEntry S)
    (sink : S) :
    lastTime p (entries ++ [e]) sink
      = if e.sink = sink ∧ p e.fate = true then e.now else lastTime p entries sink := by
  unfold lastTime
  rw [List.reverse_append, List.reverse_singleton, List.singleton_append, List.find?_cons]
  by_cases h : e.sink = sink ∧ p e.fate = true
  · rw [if_pos h]
    simp [h]
  · rw [if_neg h]
    simp [h]

/-- The times of the sinks are those of the entries, and the content is what these wrote. -/
structure LogFile.Inv (f : LogFile S) (past : List (LogEntry S)) : Prop where
  diskFull : ∀ sink, (f.times sink).diskFull = lastTime Fate.full past sink
  error : ∀ sink, (f.times sink).error = lastTime Fate.alerted past sink
  content : f.content = past.flatMap LogEntry.bytes

theorem LogFile.empty_inv : (LogFile.empty S).Inv [] where
  diskFull := fun _ => rfl
  error := fun _ => rfl
  content := rfl

/-- A hit is logged, and its file gets some of the line. -/
theorem LogFile.step_eq (f : LogFile S) (w : LogWrite S) :
    ∃ line times fate, fileLine (iso w.now) w.conf w.request w.hit = .ok line
      ∧ (f.times w.sink).write w.now line w.out = (times, fate)
      ∧ f.step iso w = .ok ({ times := Function.update f.times w.sink times
                              content := f.content ++ fate.bytes line },
          ⟨w.sink, w.now, line, fate⟩) := by
  obtain ⟨record, -, hline⟩ := fileLine_returns (iso w.now) w.conf w.request w.hit
  generalize record ++ [10] = line at hline
  refine ⟨line, _, _, hline, rfl, ?_⟩
  unfold LogFile.step
  rw [hline, ok_bind]
  rfl

/-- **One more logged hit keeps the invariant.** -/
theorem LogFile.Inv.step {f : LogFile S} {past : List (LogEntry S)} (h : f.Inv past)
    (w : LogWrite S) :
    ∃ f' e, f.step iso w = .ok (f', e) ∧ w.Gives iso e ∧ e.Fits past
      ∧ f'.Inv (past ++ [e]) := by
  obtain ⟨line, times, fate, hline, hwrite, hstep⟩ := f.step_eq iso w
  obtain ⟨hskipped, halerted, htimes⟩ := (f.times w.sink).write_fate w.now line w.out
  rw [hwrite] at hskipped halerted htimes
  dsimp only at hskipped halerted htimes
  refine ⟨_, _, hstep, ⟨rfl, rfl, hline⟩, ⟨?_, ?_⟩, ⟨?_, ?_, ?_⟩⟩
  · rw [hskipped, h.diskFull w.sink]
  · rw [halerted, h.error w.sink]
  · intro sink
    rw [lastTime_append]
    by_cases hsink : w.sink = sink
    · subst hsink
      simp [htimes, h.diskFull w.sink]
    · simp [hsink, Function.update_of_ne (Ne.symm hsink), h.diskFull sink]
  · intro sink
    rw [lastTime_append]
    by_cases hsink : w.sink = sink
    · subst hsink
      simp [htimes, h.error w.sink]
    · simp [hsink, Function.update_of_ne (Ne.symm hsink), h.error sink]
  · rw [List.flatMap_append, List.flatMap_singleton, h.content]
    rfl

/-- **What hits leave in a file**: a beginning of each line, one behind the other. -/
theorem LogFile.run_appends (writes : List (LogWrite S)) :
    ∀ f : LogFile S, ∃ f' entries, f.run iso writes = .ok (f', entries)
      ∧ List.Forall₂ (LogWrite.Gives iso) writes entries
      ∧ f'.content = f.content ++ entries.flatMap LogEntry.bytes := by
  induction writes with
  | nil =>
      intro f
      exact ⟨f, [], rfl, .nil, (List.append_nil _).symm⟩
  | cons w writes ih =>
      intro f
      obtain ⟨line, times, fate, hline, -, hstep⟩ := f.step_eq iso w
      obtain ⟨f', entries, hrun, hall, hcontent⟩ := ih
        { times := Function.update f.times w.sink times
          content := f.content ++ fate.bytes line }
      refine ⟨f', ⟨w.sink, w.now, line, fate⟩ :: entries, ?_, .cons ⟨rfl, rfl, hline⟩ hall, ?_⟩
      · unfold LogFile.run
        rw [hstep, ok_bind]
        dsimp only
        rw [hrun]
        rfl
      · rw [hcontent, List.flatMap_cons, List.append_assoc]
        rfl

/-- **What becomes of every record of a run**, by those before it. -/
theorem LogFile.run_entries (writes : List (LogWrite S)) :
    ∀ {f : LogFile S} {past : List (LogEntry S)}, f.Inv past →
      ∃ f' entries, f.run iso writes = .ok (f', entries) ∧ f'.Inv (past ++ entries)
        ∧ List.Forall₂ (LogWrite.Gives iso) writes entries
        ∧ ∀ before e after, entries = before ++ e :: after → e.Fits (past ++ before) := by
  induction writes with
  | nil =>
      intro f past h
      refine ⟨f, [], rfl, ?_, .nil, ?_⟩
      · rw [List.append_nil]
        exact h
      · intro before e after heq
        cases before with
        | nil => cases heq
        | cons x before => cases heq
  | cons w writes ih =>
      intro f past h
      obtain ⟨f₁, e₁, hstep, hgives, hfits, h₁⟩ := h.step iso w
      obtain ⟨f', entries, hrun, h', hall, hrest⟩ := ih h₁
      refine ⟨f', e₁ :: entries, ?_, ?_, .cons hgives hall, ?_⟩
      · unfold LogFile.run
        rw [hstep]
        show (f₁.run iso writes >>= fun r => _) = _
        rw [hrun]
        rfl
      · rw [List.append_assoc, List.singleton_append] at h'
        exact h'
      · intro before e after heq
        cases before with
        | nil =>
            cases heq
            rw [List.append_nil]
            exact hfits
        | cons x before =>
            obtain ⟨rfl, hentries⟩ := List.cons.inj heq
            have hfits' := hrest before e after hentries
            rw [List.append_assoc, List.singleton_append] at hfits'
            exact hfits'

/-! ## §4. Losses and alerts.

The file does not show that a record was lost, but the error log does: a record that is
not written whole has an alert of its sink within the minute before. -/

/-- The last time of a sink is 0, or that of an entry with no such entry
of the sink behind it. -/
theorem lastTime_cases (p : Fate → Bool) (sink : S) (entries : List (LogEntry S)) :
    (lastTime p entries sink = 0 ∧ ∀ e ∈ entries, e.sink = sink → p e.fate = false)
      ∨ ∃ pre e mid, entries = pre ++ e :: mid ∧ e.sink = sink ∧ p e.fate = true
        ∧ lastTime p entries sink = e.now ∧ ∀ e' ∈ mid, e'.sink = sink → p e'.fate = false := by
  induction entries using List.reverseRecOn with
  | nil => exact .inl ⟨rfl, fun e he => by cases he⟩
  | append_singleton entries x ih =>
      rw [lastTime_append]
      by_cases hx : x.sink = sink ∧ p x.fate = true
      · rw [if_pos hx]
        exact .inr ⟨entries, x, [], rfl, hx.1, hx.2, rfl, fun e he => by cases he⟩
      · rw [if_neg hx]
        have hnot : x.sink = sink → p x.fate = false :=
          fun hsink => Bool.eq_false_iff.mpr fun hp => hx ⟨hsink, hp⟩
        rcases ih with ⟨hzero, hnone⟩ | ⟨pre, e, mid, rfl, hsink, hp, htime, hmid⟩
        · refine .inl ⟨hzero, ?_⟩
          intro e he
          rcases List.mem_append.mp he with he | he
          · exact hnone e he
          · exact List.mem_singleton.mp he ▸ hnot
        · refine .inr ⟨pre, e, mid ++ [x], by simp, hsink, hp, htime, ?_⟩
          intro e' he'
          rcases List.mem_append.mp he' with he' | he'
          · exact hmid e' he'
          · exact List.mem_singleton.mp he' ▸ hnot

/-- The last time of a sink is that of its last entry with the given kind of fate. -/
theorem lastTime_eq {p : Fate → Bool} {sink : S} {pre mid : List (LogEntry S)} {e : LogEntry S}
    (hsink : e.sink = sink) (hp : p e.fate = true)
    (hmid : ∀ e' ∈ mid, e'.sink = sink → p e'.fate = false) :
    lastTime p (pre ++ e :: mid) sink = e.now := by
  have hnone : mid.reverse.find? (fun e => e.sink = sink ∧ p e.fate = true) = none := by
    rw [List.find?_eq_none]
    intro e' he' hfound
    have hfound := of_decide_eq_true hfound
    rw [hmid e' (List.mem_reverse.mp he') hfound.1] at hfound
    cases hfound.2
  unfold lastTime
  rw [List.reverse_append, List.reverse_cons, List.append_assoc, List.find?_append, hnone,
    Option.none_or, List.singleton_append, List.find?_cons_of_pos (by simp [hsink, hp])]
  rfl

/-- Every record of a run fits behind those before it. -/
def Ordered (entries : List (LogEntry S)) : Prop :=
  ∀ before e after, entries = before ++ e :: after → e.Fits before

theorem Ordered.front {entries before after : List (LogEntry S)} (h : Ordered entries)
    (heq : entries = before ++ after) : Ordered before := by
  intro pre e mid hsplit
  apply h pre e (mid ++ after)
  rw [heq, hsplit, List.append_assoc, List.cons_append]

/-- No alert of a sink is later than its last one. -/
theorem Ordered.alert_le {entries : List (LogEntry S)} (h : Ordered entries) :
    ∀ e ∈ entries, e.fate.alerted = true → e.now ≤ lastTime Fate.alerted entries e.sink := by
  induction entries using List.reverseRecOn with
  | nil =>
      intro e he
      cases he
  | append_singleton entries x ih =>
      intro e he halert
      rw [lastTime_append]
      have hentries := ih (h.front rfl)
      rcases List.mem_append.mp he with he | he
      · have hle := hentries e he halert
        by_cases hx : x.sink = e.sink ∧ x.fate.alerted = true
        · rw [if_pos hx]
          have hspaced := ((h entries x [] rfl).alerted.mp hx.2).2
          rw [hx.1] at hspaced
          omega
        · rw [if_neg hx]
          exact hle
      · obtain rfl := List.mem_singleton.mp he
        rw [if_pos ⟨rfl, halert⟩]

/-- The sink had an alert within the minute before. -/
def Reported (entries : List (LogEntry S)) (sink : S) (now : Int) : Prop :=
  ∃ e ∈ entries, e.sink = sink ∧ e.fate.alerted = true ∧ now - e.now ≤ 59

/-- A record that is cut short is reported. -/
theorem LogEntry.Fits.reported {before : List (LogEntry S)} {e : LogEntry S} (h : e.Fits before)
    (hclock : 59 < e.now) (hcut : e.fate.CutShort e.line) :
    Reported (before ++ [e]) e.sink e.now := by
  by_cases halert : e.fate.alerted = true
  · exact ⟨e, by simp, rfl, halert, by omega⟩
  · have hrecent : ¬ e.now - lastTime Fate.alerted before e.sink > 59 :=
      fun hlate => halert (h.alerted.mpr ⟨hcut, hlate⟩)
    rcases lastTime_cases Fate.alerted e.sink before with
      ⟨hzero, -⟩ | ⟨pre, e', mid, rfl, hsink, halert', htime, -⟩
    · omega
    · exact ⟨e', by simp, hsink, halert', by omega⟩

/-- The second in which a record is left out is that of the last `ENOSPC`. -/
theorem LogEntry.Fits.skipped_iff {before : List (LogEntry S)} {e : LogEntry S}
    (h : e.Fits before) (hclock : 59 < e.now) :
    e.fate = .skipped ↔ ∃ pre e' mid, before = pre ++ e' :: mid ∧ e'.sink = e.sink
      ∧ e'.fate.full = true ∧ e'.now = e.now
      ∧ ∀ x ∈ mid, x.sink = e.sink → x.fate.full = false := by
  rw [h.skipped]
  constructor
  · intro htime
    rcases lastTime_cases Fate.full e.sink before with
      ⟨hzero, -⟩ | ⟨pre, e', mid, hsplit, hsink, hfull, hlast, hmid⟩
    · omega
    · exact ⟨pre, e', mid, hsplit, hsink, hfull, hlast.symm.trans htime.symm, hmid⟩
  · intro hlast
    obtain ⟨pre, e', mid, hsplit, hsink, hfull, htime, hmid⟩ := hlast
    rw [hsplit, lastTime_eq hsink hfull hmid]
    exact htime.symm

omit [DecidableEq S] in
/-- Each entry is of one of the writes. -/
theorem gives_of_mem {writes : List (LogWrite S)} {entries : List (LogEntry S)}
    (h : List.Forall₂ (LogWrite.Gives iso) writes entries) {e : LogEntry S} (he : e ∈ entries) :
    ∃ w ∈ writes, w.Gives iso e := by
  induction h with
  | nil => cases he
  | @cons w e' writes entries hgives _ ih =>
      cases he with
      | head => exact ⟨w, List.mem_cons_self, hgives⟩
      | tail _ he =>
          obtain ⟨w', hw', hgives'⟩ := ih he
          exact ⟨w', List.mem_cons_of_mem w hw', hgives'⟩

/-- **The log accounts for every record**, however the writes end and whatever the clocks
do after the first minute of 1970.  The file holds a beginning of every record, one behind
the other.  A record is left out exactly in the second of the last `ENOSPC` of its sink; one
that is not there whole is reported by an alert of the sink within the minute; and no two
alerts of a sink are within a minute. -/
theorem logFile_accounts (writes : List (LogWrite S)) (hclock : ∀ w ∈ writes, 59 < w.now) :
    ∃ f entries, (LogFile.empty S).run iso writes = .ok (f, entries)
      ∧ List.Forall₂ (LogWrite.Gives iso) writes entries
      ∧ f.content = entries.flatMap LogEntry.bytes
      ∧ ∀ before e after, entries = before ++ e :: after →
        e.bytes <+: e.line
        ∧ (e.bytes = e.line ∨ Reported (before ++ [e]) e.sink e.now)
        ∧ (e.fate = .skipped ↔ ∃ pre e' mid, before = pre ++ e' :: mid ∧ e'.sink = e.sink
          ∧ e'.fate.full = true ∧ e'.now = e.now
          ∧ ∀ x ∈ mid, x.sink = e.sink → x.fate.full = false)
        ∧ (e.fate.alerted = true → ¬ Reported before e.sink e.now) := by
  obtain ⟨f, entries, hrun, hinv, hall, hfits⟩ :=
    LogFile.run_entries iso writes (LogFile.empty_inv (S := S))
  rw [List.nil_append] at hinv
  have hordered : Ordered entries := hfits
  have hlate : ∀ e ∈ entries, 59 < e.now := by
    intro e he
    obtain ⟨w, hw, hgives⟩ := gives_of_mem iso hall he
    rw [hgives.2.1]
    exact hclock w hw
  refine ⟨f, entries, hrun, hall, hinv.content, ?_⟩
  intro before e after heq
  have hout := hordered before e after heq
  have hnow : 59 < e.now := hlate e (by simp [heq])
  have hskip := hout.skipped_iff hnow
  refine ⟨e.fate.bytes_front e.line, ?_, hskip, ?_⟩
  · by_cases hskipped : e.fate = .skipped
    · -- the write that found the disk full was made in the same second
      obtain ⟨pre, e', mid, rfl, hsink, hfull, htime, -⟩ := hskip.mp hskipped
      have hsplit : entries = pre ++ e' :: (mid ++ e :: after) := by
        rw [heq, List.append_assoc, List.cons_append]
      have hfits' := hordered pre e' _ hsplit
      obtain ⟨x, hx, hxsink, halert, hrecent⟩ :=
        hfits'.reported (hlate e' (by simp [hsplit])) (Fate.cutShort_of_full hfull e'.line)
      refine .inr ⟨x, ?_, hxsink.trans hsink, halert, htime ▸ hrecent⟩
      rw [← List.singleton_append, ← List.append_assoc]
      exact List.mem_append_left _ (List.mem_append_left _ hx)
    · by_cases hcut : e.fate.CutShort e.line
      · exact .inr (hout.reported hnow hcut)
      · exact .inl (Fate.bytes_whole hskipped hcut)
  · intro halert hreported
    obtain ⟨e', he', hsink, halert', hrecent⟩ := hreported
    have hspaced := (hout.alerted.mp halert).2
    have hle := (hordered.front heq).alert_le e' he' halert'
    rw [hsink] at hle
    omega

end Runs

/-! ## §5. A disk that fills up. -/

/-- One hit, logged at the given time with the given outcome of the write. -/
def hitAt (now : Int) (out : WriteFd) : LogWrite Unit where
  sink := ()
  now := now
  conf := loggingConf .block false
  request := forging
  hit := ⟨bytesOf "sqli", 0, bytesOf "uri"⟩
  out := out

/-- A short write, a full disk, and room again. -/
def diskFills : List (LogWrite Unit) :=
  [hitAt 100 (.wrote 10), hitAt 101 (.failed true), hitAt 101 (.wrote 0), hitAt 102 (.wrote 153)]

/-- The short write is reported, the full disk within the minute is not, and the record
of the same second is left out. -/
theorem logFile_accounts_diskFills :
    ∃ f entries, (LogFile.empty Unit).run (fun _ => bytesOf "2026-07-17T14:22:05+02:00") diskFills
        = .ok (f, entries)
      ∧ entries.map LogEntry.fate = [.written (.wrote 10) (some (.incomplete 10 153)),
        .written (.failed true) none, .skipped, .written (.wrote 153) none]
      ∧ f.content = entries.flatMap LogEntry.bytes := by
  obtain ⟨f, entries, hrun, -, hcontent, -⟩ :=
    logFile_accounts (fun _ => bytesOf "2026-07-17T14:22:05+02:00") diskFills (by decide)
  have hfates : ((LogFile.empty Unit).run (fun _ => bytesOf "2026-07-17T14:22:05+02:00")
      diskFills).map (fun r => r.2.map LogEntry.fate)
        = .ok [.written (.wrote 10) (some (.incomplete 10 153)), .written (.failed true) none,
          .skipped, .written (.wrote 153) none] := by
    decide +kernel
  rw [hrun] at hfates
  exact ⟨f, entries, hrun, Except.ok.inj hfates, hcontent⟩

end HttpShield
