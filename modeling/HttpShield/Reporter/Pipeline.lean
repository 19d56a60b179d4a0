/-
  HttpShield.Reporter.Pipeline
  ────────────────────────────
  From the request to the report: the module, the log files, and the reporter that reads
  them.

  A record may be cut short, or left out, by a write that fails; a file may be truncated;
  and the reporter may read from anywhere to anywhere, in the middle of a line too, since
  offsets are saved late and `readline` returns what there is.  So what it reads need not be
  a line of the log, and the request line in a record is the client's to choose.

    • `flat_renderHit`  — a record is an object whose keys are all the module's,
    • `Site.Inv.step`   — every file is made of beginnings of records,
    • `genuine_read`    — what is read as an object with members is a record, whole,
    • `reports_genuine` — so no report is about anything but a hit of a request.
-/
import HttpShield.Lib.JsonTorn
import HttpShield.Reporter.Accounts
import HttpShield.Request.Records

namespace HttpShield

open JsonText (Text Value Spells Renders Fields Flat Blocks Scraps loads)

/-! ## §1. Records as objects. -/

/-- The keys of a record. -/
def hitKeys : List String := ["ts", "ip", "cat", "src", "mode", "status", "req"]

/-- A key begins with a letter, and has no brace in it. -/
theorem hitKeys_plain : ∀ k ∈ hitKeys, Spells (codes (bytesOf k)) (codes (bytesOf k))
    ∧ ∃ c kt, codes (bytesOf k) = c :: kt ∧ Blocks c ∧ 123 ∉ c :: kt := by
  intro k hk
  have hplain : Plain (bytesOf k) := by
    revert k
    decide
  refine ⟨spells_of_plain hplain, ?_⟩
  have hletter : ∀ c, 97 ≤ c → c ≤ 122 → Blocks c := by
    intro c hlow hhigh
    refine ⟨?_, by omega, by omega, by omega⟩
    unfold JsonText.isSpace
    simp only [Bool.or_eq_false_iff, beq_eq_false_iff_ne]
    omega
  simp only [hitKeys, List.mem_cons, List.not_mem_nil, or_false] at hk
  rcases hk with rfl | rfl | rfl | rfl | rfl | rfl | rfl <;>
    exact ⟨_, _, rfl, hletter _ (by decide) (by decide), by decide⟩

/-- A member under one of the keys, behind it others. -/
theorem fields_more {k : String} (hk : k ∈ hitKeys) {v : Value} {vt t : Text}
    {ms : List (Text × Value)} (hvalue : Renders v vt) (rest : Fields ms t) :
    Fields ((codes (bytesOf k), v) :: ms)
      (34 :: (codes (bytesOf k) ++ 34 :: 58 :: (vt ++ 44 :: t))) := by
  obtain ⟨hkey, c, kt, heq, hc, hplain⟩ := hitKeys_plain k hk
  rw [heq] at hkey ⊢
  exact .more hkey hc hplain hvalue rest

/-- A single member under a key of the record is a rendered list of members. -/
theorem fields_last {k : String} (hk : k ∈ hitKeys) {v : Value} {vt : Text}
    (hvalue : Renders v vt) :
    Fields [(codes (bytesOf k), v)] (34 :: (codes (bytesOf k) ++ 34 :: 58 :: vt)) := by
  obtain ⟨hkey, c, kt, heq, hc, hplain⟩ := hitKeys_plain k hk
  rw [heq] at hkey ⊢
  exact .last hkey hc hplain hvalue

/-- **A record is an object whose keys are the module's.** -/
theorem flat_renderHit {ts : Bytes} {conf : LocConf} {r : Request} {hit : Hit} {line : Bytes}
    (hts : Plain ts) (hip : Plain r.addrText) (hcat : Plain hit.category) (hsrc : Plain hit.source)
    (hline : renderHit ts conf r hit = .ok line) : Flat (codes line) := by
  have hmode : Spells (codes (bytesOf conf.modeText)) (codes (bytesOf conf.modeText)) := by
    apply JsonText.spells_plain
    apply spells_key
    unfold LocConf.modeText
    split_ifs <;> simp
  have hfields := fields_more (k := "ts") (by decide) (.str (spells_of_plain hts))
    (fields_more (k := "ip") (by decide) (.str (spells_of_plain hip))
    (fields_more (k := "cat") (by decide) (.str (spells_of_plain hcat))
    (fields_more (k := "src") (by decide) (.str (spells_of_plain hsrc))
    (fields_more (k := "mode") (by decide) (.str hmode)
    (fields_more (k := "status") (by decide) (.nat conf.loggedStatus)
    (fields_last (k := "req") (by decide)
      (.str (spells_flatMap_escaped (r.requestLine.take 600)))))))))
  refine ⟨_, _, hfields, ?_⟩
  obtain rfl := Except.ok.inj ((renderHit_eq ts conf r hit).symm.trans hline)
  rw [codes_append, codes_append, codes_hitFormat]
  have hend : codes [34, 125] = [34, 125] := rfl
  simp only [hend, List.cons_append, List.append_assoc, List.nil_append]

/-! ## §2. What is read. -/

/-- A newline at the end is stripped. -/
theorem strip_newline (t : Text) : strip (t ++ [10]) = strip t := by
  have hspace : isPySpace 10 = true := by decide
  unfold strip
  rw [List.dropWhile_append]
  split
  · next hempty =>
      rw [List.isEmpty_iff.mp hempty, List.dropWhile_cons_of_pos hspace]
      rfl
  · rw [List.reverse_append, List.reverse_singleton, List.singleton_append,
      List.dropWhile_cons_of_pos hspace]

/-- A stripped text is a beginning of the text behind its white space. -/
theorem strip_front (t : Text) : strip t <+: t.dropWhile isPySpace := by
  apply List.reverse_suffix.mp
  unfold strip
  rw [List.reverse_reverse]
  exact List.dropWhile_suffix _

theorem strip_within (t : Text) : strip t <:+: t :=
  (strip_front t).isInfix.trans (List.dropWhile_suffix _).isInfix

/-- A stripped text does not begin with white space. -/
theorem skipSpace_strip (t : Text) : JsonText.skipSpace (strip t) = strip t := by
  cases hstrip : strip t with
  | nil => rfl
  | cons c r =>
      apply JsonText.skipSpace_cons
      obtain ⟨rest, hrest⟩ := hstrip ▸ strip_front t
      have hhead := List.head?_dropWhile_not isPySpace t
      rw [← hrest] at hhead
      have hnot : isPySpace c = false := by simpa using hhead
      by_contra hspace
      have hcases : c = 32 ∨ c = 9 ∨ c = 10 ∨ c = 13 := by
        simp only [JsonText.isSpace, Bool.not_eq_false, Bool.or_eq_true, beq_iff_eq] at hspace
        omega
      rcases hcases with rfl | rfl | rfl | rfl <;> cases hnot

/-- The text of a file, its lines joined. -/
def joined (content : Bytes) : Text := codes (content.filter (· ≠ 10))

theorem joined_append (content more : Bytes) :
    joined (content ++ more) = joined content ++ joined more := by
  unfold joined
  rw [List.filter_append, codes_append]

theorem joined_front {content content' : Bytes} (h : content <+: content') :
    joined content <+: joined content' :=
  (h.filter _).map _

/-- What `readline` returns has no newline but at its end. -/
theorem readline_body (content : Bytes) (pos : Nat) :
    ∃ body, 10 ∉ body ∧ body <:+: content
      ∧ (readline content pos = body ∨ readline content pos = body ++ [10]) := by
  have hsplit := List.takeWhile_append_dropWhile (p := (· ≠ 10)) (l := content.drop pos)
  refine ⟨(content.drop pos).takeWhile (· ≠ 10), ?_, ?_, ?_⟩
  · intro hmem
    have hne := List.mem_takeWhile_imp hmem
    simp at hne
  · have hfront : (content.drop pos).takeWhile (· ≠ 10) <+: content.drop pos :=
      List.takeWhile_prefix _
    exact hfront.isInfix.trans (List.drop_suffix pos content).isInfix
  · unfold readline
    dsimp only
    cases hrest : (content.drop pos).dropWhile (· ≠ 10) with
    | nil =>
        left
        rw [hrest, List.append_nil] at hsplit
        rw [hsplit]
        exact List.take_of_length_le (Nat.le_succ _)
    | cons c r =>
        right
        have hhead := List.head?_dropWhile_not (p := (· ≠ 10)) (content.drop pos)
        rw [hrest] at hhead
        have hc : c = 10 := by simpa using hhead
        rw [hrest, hc] at hsplit
        generalize (content.drop pos).takeWhile (· ≠ 10) = body at hsplit ⊢
        rw [← hsplit, List.take_length_add_append]
        rfl

/-- **What is read** is somewhere in the file, its lines joined. -/
theorem strip_readline (content : Bytes) (pos : Nat) :
    strip (codes (readline content pos)) <:+: joined content := by
  obtain ⟨body, hbody, hwithin, hread⟩ := readline_body content pos
  have hkept : body.filter (· ≠ 10) = body := by
    rw [List.filter_eq_self]
    intro c hc
    exact decide_eq_true fun h => hbody (h ▸ hc)
  have hcodes : codes body <:+: joined content := by
    unfold joined
    rw [← hkept]
    exact (hwithin.filter _).map _
  have hstrip : strip (codes (readline content pos)) = strip (codes body) := by
    rcases hread with hread | hread
    · rw [hread]
    · rw [hread, codes_append]
      exact strip_newline (codes body)
  rw [hstrip]
  exact (strip_within _).trans hcodes

/-! ## §3. The log files. -/

/-- A request, and the state in which it is served, whatever other requests have made of
the zone. -/
structure Served where
  env : Env
  conf : LocConf
  request : Request
  world : World
  fresh : world.ctx = none
  wf : ∃ ps, world.zone.Wf env.hash ps
  plain : Plain request.addrText

/-- The records that the request leaves for the log file. -/
def Served.fileRecords (v : Served) : Except Fault (List LogRecord) := do
  let (_, w) ← serve v.env v.conf v.request v.world
  return (w.logged.drop v.world.logged.length).filter fun rec => rec.sink = .file

/-- The hit that a record was written for. -/
def LogRecord.hit (rec : LogRecord) : Hit where
  category := rec.category
  cat := (catByName rec.category).getD 0
  source := rec.source

/-- The write of a record of the request to a log file. -/
def Served.write {S : Type} (v : Served) (sink : S) (out : WriteFd) (rec : LogRecord) :
    LogWrite S where
  sink := sink
  now := rec.ts
  conf := v.conf
  request := v.request
  hit := rec.hit
  out := out

/-- The log files there are, and the times of the sinks. -/
structure Site (S F : Type) where
  times : S → SinkTimes
  files : F → Bytes

def Site.empty (S F : Type) : Site S F where
  times := fun _ => ⟨0, 0⟩
  files := fun _ => []

/-- What happens to them: a request is served, and its record written to the file that the
sink has open; or a file is cut down to a size. -/
inductive SiteMove (S F : Type) where
  | request (v : Served) (sink : S) (file : F) (out : WriteFd)
  | truncate (file : F) (size : Nat)

def SiteMove.served {S F : Type} : SiteMove S F → Option Served
  | .request v _ _ _ => some v
  | .truncate _ _ => none

section Sites

variable {S F : Type} [DecidableEq S] [DecidableEq F] (iso : Int → Bytes)

/-- A file, as a log file. -/
def Site.file (s : Site S F) (file : F) : LogFile S where
  times := s.times
  content := s.files file

def Site.step (s : Site S F) : SiteMove S F → Except Fault (Site S F)
  | .request v sink file out => do
      let records ← v.fileRecords
      let (f, _) ← (s.file file).run iso (records.map (v.write sink out))
      return { times := f.times, files := Function.update s.files file f.content }
  | .truncate file size =>
      .ok { s with files := Function.update s.files file ((s.files file).take size) }

def Site.run (s : Site S F) : List (SiteMove S F) → Except Fault (Site S F)
  | [] => .ok s
  | move :: moves => do
      let s ← s.step iso move
      s.run moves

/-- The requests of a run. -/
def requestsOf (moves : List (SiteMove S F)) : List Served := moves.filterMap SiteMove.served

/-! ## §4. Records in the files. -/

/-- **The hit is one of the request**: it is real, its location has a log file, and it was
logged when the request came or when its body was there. -/
structure Served.Hits (v : Served) (hit : Hit) (now : Int) : Prop where
  real : hit.Real v.env v.conf v.request
  log : v.conf.log = true
  time : now = v.world.now ∨ ∃ a, v.env.body.arrival = some a ∧ now = a.now

/-- The text is a record of a hit of one of the requests. -/
def Recorded (requests : List Served) (o : Text) : Prop :=
  ∃ v ∈ requests, ∃ hit now line, v.Hits hit now
    ∧ renderHit (iso now) v.conf v.request hit = .ok line ∧ o = codes line

/-- The files are made of the beginnings of records. -/
def Site.Inv (s : Site S F) (requests : List Served) : Prop :=
  ∀ file, Scraps (Recorded iso requests) (joined (s.files file))

omit [DecidableEq S] [DecidableEq F] in
theorem Site.empty_inv : (Site.empty S F).Inv iso [] := fun _ => .nil

theorem Recorded.mono {requests more : List Served} {o : Text} (h : Recorded iso requests o) :
    Recorded iso (requests ++ more) o := by
  obtain ⟨v, hv, hrest⟩ := h
  exact ⟨v, List.mem_append_left _ hv, hrest⟩

/-- The hit that a record is of is the one that was logged. -/
theorem LogRecord.of_hit {hit : Hit} (h : hit.Named) (sink : LogSink) (conf : LocConf)
    (r : Request) (w : World) : (LogRecord.of sink conf r hit w).hit = hit := by
  have hcat : catByName (LogRecord.of sink conf r hit w).category = some hit.cat := h.skip
  unfold LogRecord.hit
  rw [hcat]
  rfl

omit [DecidableEq S] [DecidableEq F] in
/-- **What a request leaves for the file** are records of hits of it. -/
theorem Served.fileRecords_hits (v : Served) :
    ∃ records, v.fileRecords = .ok records ∧ ∀ rec ∈ records, v.Hits rec.hit rec.ts := by
  obtain ⟨rc, w, hserve, hends⟩ := serve_logs v.env v.conf v.request v.world v.fresh v.wf
  have hrecords : v.fileRecords = .ok ((w.logged.drop v.world.logged.length).filter
      fun rec => rec.sink = .file) := by
    unfold Served.fileRecords
    rw [hserve]
    rfl
  refine ⟨_, hrecords, ?_⟩
  rcases hends with ⟨-, hlogged⟩ | ⟨-, hit, w₁, hreal, htime, hlogged⟩
  · rw [hlogged, List.drop_length]
    simp
  · rw [hlogged, List.drop_left]
    intro rec hmem
    obtain ⟨hrec, hfile⟩ := List.mem_filter.mp hmem
    have hof := mem_hitRecords (w := w₁) rfl hrec
    have hhit : rec.hit = hit := by
      rw [hof]
      exact LogRecord.of_hit hreal.named _ _ _ _
    have hts : rec.ts = w₁.now := by
      rw [hof]
      rfl
    rw [hhit, hts]
    refine ⟨hreal, ?_, htime⟩
    -- without a log file there is no record for it
    have hlen := @hitRecords_file v.env v.conf v.request hit w₁
    have hpos := List.length_pos_of_mem hmem
    rw [hlen] at hpos
    split at hpos
    · next hlog => exact hlog.1
    · omega

/-- What a write leaves of a record, with the lines of the file joined, is a
beginning of a recorded object. -/
theorem joined_line {v : Served} {hit : Hit} {now : Int} (hiso : ∀ now, Plain (iso now))
    (hhits : v.Hits hit now) {line : Bytes}
    (hline : fileLine (iso now) v.conf v.request hit = .ok line) (fate : Fate) :
    ∃ o, Recorded iso [v] o ∧ joined (fate.bytes line) <+: o := by
  obtain ⟨record, hrecord, hfile⟩ := fileLine_returns (iso now) v.conf v.request hit
  obtain rfl := Except.ok.inj (hfile.symm.trans hline)
  refine ⟨codes record, ⟨v, List.mem_singleton_self v, hit, now, record, hhits, hrecord, rfl⟩, ?_⟩
  have hprintable := renderHit_printable (hiso now) v.plain hhits.real.named.plain.1.1
    hhits.real.named.plain.2.1 hrecord
  have hkept : record.filter (· ≠ 10) = record := by
    rw [List.filter_eq_self]
    intro c hc
    have hlow := (hprintable c hc).1
    apply decide_eq_true
    intro h
    rw [h] at hlow
    exact absurd hlow (by decide)
  have hwhole : joined (record ++ [10]) = codes record := by
    unfold joined
    rw [List.filter_append, hkept]
    exact congrArg codes (List.append_nil record)
  rw [← hwhole]
  exact joined_front (fate.bytes_front _)

omit [DecidableEq S] [DecidableEq F] in
/-- What the writes of a request leave, with the lines of the file joined, is
scraps of recorded objects. -/
theorem joined_entries {v : Served} (hiso : ∀ now, Plain (iso now)) (sink : S) (out : WriteFd)
    {records : List LogRecord} (hhits : ∀ rec ∈ records, v.Hits rec.hit rec.ts)
    {entries : List (LogEntry S)}
    (hall : List.Forall₂ (LogWrite.Gives iso) (records.map (v.write sink out)) entries) :
    Scraps (Recorded iso [v]) (joined (entries.flatMap LogEntry.bytes)) := by
  induction records generalizing entries with
  | nil =>
      cases hall
      exact .nil
  | cons rec records ih =>
      cases hall with
      | @cons _ e _ entries hgives hrest =>
          rw [List.forall_mem_cons] at hhits
          rw [List.flatMap_cons, joined_append]
          obtain ⟨o, ho, hfront⟩ := joined_line iso hiso hhits.1 hgives.2.2 e.fate
          exact .cons ho hfront (ih hhits.2 hrest)

/-- **No move breaks the invariant**, and none fails. -/
theorem Site.Inv.step (hiso : ∀ now, Plain (iso now)) {s : Site S F} {requests : List Served}
    (h : s.Inv iso requests) (move : SiteMove S F) :
    ∃ s', s.step iso move = .ok s' ∧ s'.Inv iso (requests ++ move.served.toList) := by
  cases move with
  | request v sink file out =>
      obtain ⟨records, hrecords, hhits⟩ := v.fileRecords_hits
      obtain ⟨f, entries, hrun, hall, hcontent⟩ :=
        (s.file file).run_appends iso (records.map (v.write sink out))
      refine ⟨{ times := f.times, files := Function.update s.files file f.content }, ?_, ?_⟩
      · show (v.fileRecords >>= fun _ => _) = _
        rw [hrecords, ok_bind, hrun]
        rfl
      · intro i
        by_cases hi : i = file
        · subst hi
          show Scraps _ (joined (Function.update s.files i f.content i))
          rw [Function.update_self, hcontent, joined_append]
          apply Scraps.append
          · exact (h i).mono fun o => Recorded.mono iso
          · apply (joined_entries iso hiso sink out hhits hall).mono
            intro o ho
            obtain ⟨v', hv', hrest⟩ := ho
            exact ⟨v', List.mem_append_right _ hv', hrest⟩
        · show Scraps _ (joined (Function.update s.files file f.content i))
          rw [Function.update_of_ne hi]
          exact (h i).mono fun o => Recorded.mono iso
  | truncate file size =>
      refine ⟨_, rfl, ?_⟩
      intro i
      show Scraps (Recorded iso (requests ++ [])) (joined (Function.update s.files file _ i))
      rw [List.append_nil]
      by_cases hi : i = file
      · subst hi
        rw [Function.update_self]
        have hfront : (s.files i).take size <+: s.files i := List.take_prefix size _
        exact (h i).front _ (joined_front hfront)
      · rw [Function.update_of_ne hi]
        exact h i

/-- **Every run keeps the invariant**, and none fails. -/
theorem Site.Inv.run (hiso : ∀ now, Plain (iso now)) (moves : List (SiteMove S F)) :
    ∀ {s : Site S F} {requests : List Served}, s.Inv iso requests →
      ∃ s', s.run iso moves = .ok s' ∧ s'.Inv iso (requests ++ requestsOf moves) := by
  induction moves with
  | nil =>
      intro s requests h
      refine ⟨s, rfl, ?_⟩
      show s.Inv iso (requests ++ [])
      rw [List.append_nil]
      exact h
  | cons move moves ih =>
      intro s requests h
      obtain ⟨s₁, hstep, h₁⟩ := h.step iso hiso move
      obtain ⟨s', hrun, h'⟩ := ih h₁
      refine ⟨s', ?_, ?_⟩
      · unfold Site.run
        rw [hstep]
        exact hrun
      · have hrequests : requestsOf (move :: moves) = move.served.toList ++ requestsOf moves := by
          unfold requestsOf
          rw [List.filterMap_cons]
          cases move.served <;> rfl
        rw [hrequests, ← List.append_assoc]
        exact h'

/-! ## §5. The reports. -/

omit [DecidableEq S] [DecidableEq F] in
/-- **What is read as an object with members is a record, whole.** -/
theorem genuine_read (hiso : ∀ now, Plain (iso now)) {s : Site S F} {requests : List Served}
    (h : s.Inv iso requests) (file : F) (pos : Nat) {m : Text × Value}
    {ms : List (Text × Value)}
    (hread : loads (strip (codes (readline (s.files file) pos))) = some (.obj (m :: ms))) :
    ∃ v ∈ requests, ∃ hit now, v.Hits hit now
      ∧ m :: ms = hitMembers (iso now) v.conf v.request hit := by
  have hflat : ∀ o, Recorded iso requests o → Flat o := by
    intro o ho
    obtain ⟨v, hv, hit, now, line, hhits, hline, rfl⟩ := ho
    obtain ⟨⟨hcat, -⟩, hsrc, -⟩ := hhits.real.named.plain
    exact flat_renderHit (hiso now) v.plain hcat hsrc hline
  have hwhole := JsonText.scraps_loads hflat (h file) (strip_readline (s.files file) pos) hread
  rw [skipSpace_strip] at hwhole
  obtain ⟨v, hv, hit, now, line, hhits, hline, hcodes⟩ := hwhole
  obtain ⟨⟨hcat, -⟩, hsrc, -⟩ := hhits.real.named.plain
  have hloads := @loads_renderHit _ _ _ _ _ (hiso now) v.plain hcat hsrc hline [] (by simp)
  rw [List.append_nil, ← hcodes, hread] at hloads
  exact ⟨v, hv, hit, now, hhits, Value.obj.inj (Option.some.inj hloads)⟩

/-- The payload that is sent about a hit of a request. -/
def reportOf (lib : Library) (ts : Bytes) (r : Request) (hit : Hit) : Payload where
  ip := codes r.addrText
  categories := categoriesFor (codes hit.category)
  comment := (textOf "nginx-http-shield: " ++ codes hit.category ++ textOf " attack in "
    ++ codes hit.source ++ textOf "; "
    ++ sanitizeReq lib.isalnum (codes (r.requestLine.take 600))).take 500
  timestamp := codes ts

/-- The fields that are looked up in a record. -/
theorem payloadOf_hitMembers {lib : Library} (hstr : ∀ t, lib.str (.str t) = t) (ts : Bytes)
    (conf : LocConf) (r : Request) (hit : Hit) :
    payloadOf lib (hitMembers ts conf r hit) = reportOf lib ts r hit := by
  have hfields : getKey (hitMembers ts conf r hit) "ip" = some (.str (codes r.addrText))
      ∧ getKey (hitMembers ts conf r hit) "cat" = some (.str (codes hit.category))
      ∧ getKey (hitMembers ts conf r hit) "src" = some (.str (codes hit.source))
      ∧ getKey (hitMembers ts conf r hit) "ts" = some (.str (codes ts))
      ∧ getKey (hitMembers ts conf r hit) "req"
        = some (.str (codes (r.requestLine.take (min 600 r.requestLine.length)))) :=
    ⟨rfl, rfl, rfl, rfl, rfl⟩
  obtain ⟨hip, hcat, hsrc, hts, hreq⟩ := hfields
  unfold payloadOf buildComment Library.field reportOf
  rw [hip, hcat, hsrc, hts, hreq, ← List.take_eq_take_min]
  simp only [Option.map_some, Option.getD_some, hstr]

/-- A pass that calls `process_line` gives it a line of the file it sees. -/
theorem followPass_reads {lib : Library} {f : Follower} {rep : Reporter} {sup : Suppressor}
    {s : Sight} {h : Handed} {p : Processed}
    (hcall : (followPass lib f rep sup s).call = some (h, p)) :
    ∃ pos, p = sup.processLine lib rep (codes (readline s.content pos)) s.answer s.lineAt := by
  unfold followPass at hcall
  split at hcall
  · cases hcall
  · next f' _ =>
      dsimp only at hcall
      split_ifs at hcall with hcool hline
      · refine ⟨f'.fh.getD 0, ?_⟩
        unfold Follower.onLine at hcall
        dsimp only at hcall
        split at hcall <;> exact (Prod.ext_iff.mp (Option.some.inj hcall)).2.symm

/-- **Reports are genuine.**  Requests are served in any order and any state, their records
written by any sinks to any files, cut short or left out as the writes go, and files are
truncated: nothing of it fails, and whatever a pass of the reporter reads, from wherever
its offset is and however far, a report that it sends is about a request that was served,
for a hit that this request or its body really carries, in a location that logs, and says of
it what the log does. -/
theorem reports_genuine (lib : Library) (hloads : lib.loads = loads)
    (hstr : ∀ t, lib.str (.str t) = t) (hempty : lib.ipAddress [] = none)
    (hiso : ∀ now, Plain (iso now)) (moves : List (SiteMove S F)) :
    ∃ site, (Site.empty S F).run iso moves = .ok site
      ∧ ∀ (file : F) (f : Follower) (rep : Reporter) (sup : Suppressor) (s : Sight) (h : Handed)
          (p : Processed) (payload : Payload) (outcome : Outcome),
        s.content = site.files file → (followPass lib f rep sup s).call = some (h, p) →
        p.report = some (payload, outcome) →
        ∃ v ∈ requestsOf moves, ∃ hit now, v.Hits hit now
          ∧ payload = reportOf lib (iso now) v.request hit := by
  obtain ⟨site, hrun, hinv⟩ := (Site.empty_inv iso (S := S) (F := F)).run iso hiso moves
  rw [List.nil_append] at hinv
  refine ⟨site, hrun, ?_⟩
  intro file f rep sup s h p payload outcome hcontent hcall hreport
  obtain ⟨pos, rfl⟩ := followPass_reads hcall
  obtain ⟨hip, entry, hread, hpayload⟩ := processLine_payload hreport
  rw [hcontent, hloads] at hread
  cases entry with
  | nil =>
      -- an object that begins in a string has no address
      unfold lineIp at hip
      rw [hcontent, hloads, hread] at hip
      have hnone : isReportableIp lib (lib.field [] "ip" "") = false := by
        show isReportableIp lib [] = false
        unfold isReportableIp
        rw [hempty]
      split at hip
      · cases hip
      · dsimp only at hip
        rw [hnone] at hip
        cases hip
  | cons m ms =>
      obtain ⟨v, hv, hit, now, hhits, hmembers⟩ := genuine_read iso hiso hinv file pos hread
      rw [hmembers, payloadOf_hitMembers hstr] at hpayload
      exact ⟨v, hv, hit, now, hhits, hpayload⟩

end Sites

/-! ## §6. A visitor, from the request to the report. -/

/-- A request with a `Proxy` header, from a public address. -/
def visitor (A : Automata) : Served where
  env := envReading A
  conf := loggingConf .block false
  request := { proxied with addrText := bytesOf "8.8.8.8" }
  world := { freshWorld with now := 100 }
  fresh := rfl
  wf := ⟨[], banInitZone_wf _⟩
  plain := by
    show Plain (bytesOf "8.8.8.8")
    decide

/-- The record of the visitor's request. -/
def visitorRecord : LogRecord where
  sink := .file
  ts := 100
  ip := bytesOf "8.8.8.8"
  category := bytesOf "httpoxy"
  source := bytesOf "header"
  blocked := some 403
  req := bytesOf "POST / HTTP/1.1"

theorem visitor_records (A : Automata) : (visitor A).fileRecords = .ok [visitorRecord] := by
  have hcheck : checkBan (visitor A).env (visitor A).conf (visitor A).request (visitor A).world
      = .ok (false, (visitor A).world) := rfl
  have hstruck : structural 0 (visitor A).request
      = .ok (.ok (structuralHit .httpoxy "httpoxy" "header")) := rfl
  have hinspect : inspectPrebody (visitor A).env (visitor A).conf (visitor A).request
      (visitor A).world
      = .ok (.ok (structuralHit .httpoxy "httpoxy" "header"), (visitor A).world) := by
    rcases inspectPrebody_eq (visitor A).env (visitor A).conf (visitor A).request
      (visitor A).world with ⟨hit, hhit, hinspect⟩ | ⟨hclean, -⟩
    · have hsame : Inspection.ok (structuralHit .httpoxy "httpoxy" "header") = .ok hit :=
        Except.ok.inj (hstruck.symm.trans hhit)
      rw [hinspect, hsame]
    · cases hstruck.symm.trans hclean
  have hact : handler (visitor A).env (visitor A).conf (visitor A).request (visitor A).world
      = act (visitor A).env (visitor A).conf (visitor A).request
          (structuralHit .httpoxy "httpoxy" "header") (visitor A).world := by
    show (checkBan (visitor A).env (visitor A).conf (visitor A).request (visitor A).world >>= _) = _
    rw [hcheck, ok_bind]
    show (inspectPrebody (visitor A).env (visitor A).conf (visitor A).request
      (visitor A).world >>= _) = _
    rw [hinspect, ok_bind]
  unfold Served.fileRecords serve
  rw [hact]
  rfl

/-- The time of a record, always the same. -/
def oneTime : Int → Bytes := fun _ => bytesOf "2026-07-17T14:22:05+02:00"

/-- The line that the write of the visitor's record leaves in the log file. -/
def visitorLine : Bytes :=
  bytesOf "\x7b\"ts\":\"2026-07-17T14:22:05+02:00\",\"ip\":\"8.8.8.8\",\"cat\":\"httpoxy\""
    ++ bytesOf ",\"src\":\"header\",\"mode\":\"block\",\"status\":403,\"req\":\"POST / HTTP/1.1\"\x7d\n"

/-- The visitor's request, the write of whose record is not cut short. -/
def visitorMoves (A : Automata) : List (SiteMove Unit Unit) :=
  [.request (visitor A) () () (.wrote visitorLine.length)]

theorem visitor_written (A : Automata) : ∃ site,
    (Site.empty Unit Unit).run oneTime (visitorMoves A) = .ok site
      ∧ site.files () = visitorLine := by
  have hwrite : (LogFile.run oneTime (LogFile.empty Unit)
      [(visitor A).write () (.wrote visitorLine.length) visitorRecord]).map
        (fun r => r.1.content) = .ok visitorLine := by
    show (LogFile.run oneTime (LogFile.empty Unit) [⟨(), 100, loggingConf .block false,
      { proxied with addrText := bytesOf "8.8.8.8" }, visitorRecord.hit,
      .wrote visitorLine.length⟩]).map (fun r => r.1.content) = .ok visitorLine
    decide +kernel
  cases hrun : LogFile.run oneTime (LogFile.empty Unit)
      [(visitor A).write () (.wrote visitorLine.length) visitorRecord] with
  | error e =>
      rw [hrun] at hwrite
      cases hwrite
  | ok result =>
      rw [hrun] at hwrite
      refine ⟨{ times := result.1.times
                files := Function.update (Site.empty Unit Unit).files () result.1.content }, ?_, ?_⟩
      · show ((visitor A).fileRecords >>= fun _ => _) >>= _ = _
        rw [visitor_records, ok_bind]
        show (LogFile.run oneTime (LogFile.empty Unit) [_] >>= _) >>= _ = _
        rw [hrun]
        rfl
      · exact Except.ok.inj hwrite

/-- A pass of the reporter on the visitor's log file, from its top. -/
def visitorSight (content : Bytes) : Sight where
  opened := some (7, content.length)
  checkAt := seconds 101
  content := content
  lineAt := seconds 101
  allowed := true
  answer := .accepted
  saveAt := seconds 101
  disk := some (7, content.length)

/-- The visitor is denied, logged, and reported under its own address. -/
theorem reports_genuine_visitor :
    ∃ A site h p payload, shieldInit AcAllocs.granted AcAllocs.granted true = .ok (some A)
      ∧ (Site.empty Unit Unit).run oneTime (visitorMoves A) = .ok site
      ∧ (followPass plainLibrary (.start none []) (.fresh false) (.load 900 1000 none)
        (visitorSight (site.files ()))).call = some (h, p)
      ∧ p.report = some (payload, .ok) ∧ payload.ip = textOf "8.8.8.8" := by
  obtain ⟨A, hA⟩ := shieldInit_granted
  obtain ⟨site, hrun, hgenuine⟩ := reports_genuine oneTime plainLibrary rfl (fun _ => rfl) (by decide)
    (fun _ => (by decide : Plain (bytesOf "2026-07-17T14:22:05+02:00"))) (visitorMoves A)
  obtain ⟨site', hrun', hfile⟩ := visitor_written A
  obtain rfl : site = site' := Except.ok.inj (hrun.symm.trans hrun')
  have hpass : ((followPass plainLibrary (.start none []) (.fresh false) (.load 900 1000 none)
      (visitorSight (site.files ()))).call.bind fun c => c.2.report.map Prod.snd) = some .ok := by
    rw [hfile]
    decide +kernel
  obtain ⟨⟨h, p⟩, hcall, hreport⟩ := Option.bind_eq_some_iff.mp hpass
  obtain ⟨⟨payload, outcome⟩, hreport, rfl⟩ := Option.map_eq_some_iff.mp hreport
  obtain ⟨v, hv, hit, now, -, hpayload⟩ := hgenuine () _ _ _ (visitorSight (site.files ())) h p
    payload _ rfl hcall hreport
  obtain rfl : v = visitor A := List.mem_singleton.mp hv
  exact ⟨A, site, h, p, payload, hA, hrun, hcall, hreport, congrArg Payload.ip hpayload⟩

end HttpShield
