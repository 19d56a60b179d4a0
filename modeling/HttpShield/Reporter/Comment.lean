/-
  HttpShield.Reporter.Comment
  ───────────────────────────
  What a report says in public: `sanitize_req` and `build_comment`.

  Texts are lists of code points.  `json`, `str`, `ipaddress` and `str.isalnum` come with
  Python, and are taken as they are.

    • `sanitizeReq_eq`     — the steps of `sanitize_req`, one behind the other,
    • `sanitizeReq_eq_iff` — what of a request line it shows.
-/
import HttpShield.Reporter.Report

namespace HttpShield

open JsonText (Text Value)

/-! ## §1. What comes with Python. -/

/-- The properties of an address that `is_reportable_ip` asks for. -/
structure Address where
  isPrivate : Bool
  isLoopback : Bool
  isLinkLocal : Bool
  isMulticast : Bool
  isReserved : Bool
  isUnspecified : Bool

/-- The functions of the standard library that the reporter calls on values it has not made. -/
structure Library where
  /-- `json.loads`, unless it raises `ValueError`. -/
  loads : Text → Option Value
  /-- `str`. -/
  str : Value → Text
  /-- `ipaddress.ip_address`, unless it raises `ValueError`. -/
  ipAddress : Text → Option Address
  /-- `str.isalnum`, of one character. -/
  isalnum : Nat → Bool

/-- A text in the source. -/
def textOf (s : String) : Text := codes (bytesOf s)

/-- `str.split(sep, maxsplit)`. -/
def split (sep : Nat) : Nat → Text → List Text
  | 0, t => [t]
  | n + 1, t =>
      if sep ∈ t then t.takeWhile (· ≠ sep) :: split sep n ((t.dropWhile (· ≠ sep)).drop 1)
      else [t]

/-- `str.find`. -/
def find (word : Text) : Text → Option Nat
  | [] => if word = [] then some 0 else none
  | c :: t => if word <+: c :: t then some 0 else (find word t).map (· + 1)

/-! ## §2. A report. -/

/-- `is_reportable_ip`. -/
def isReportableIp (lib : Library) (ip : Text) : Bool :=
  match lib.ipAddress ip with
  | none => false
  | some addr =>
      !(addr.isPrivate || addr.isLoopback || addr.isLinkLocal || addr.isMulticast
        || addr.isReserved || addr.isUnspecified)

/-- `CAT_MAP`, and `DEFAULT_CATS` for what is not in it. -/
def categoriesFor (cat : Text) : List Nat :=
  if cat = textOf "sqli" then [21, 16]
  else if cat = textOf "range_dos" then [21, 4]
  else [21]

/-- The authority behind a scheme is dropped. -/
def dropAuthority (path : Text) : Text :=
  match find (textOf "://") path with
  | some scheme =>
      -- wherever it stands, also behind the first segment
      let rest := path.drop (scheme + 3)
      match find (textOf "/") rest with
      | some slash => rest.drop slash
      | none => textOf "/"
  | none => path

/-- The first segment is kept, of a path that begins with a slash. -/
def keepSegment (path : Text) : Text :=
  if path.head? = some 47 then 47 :: (split 47 1 (path.drop 1)).headD [] else []

/-- The characters that are kept of the method. -/
def cleanMethod (isalnum : Nat → Bool) (method : Text) : Text := (method.filter isalnum).take 16

/-- The characters that are kept of the path. -/
def cleanPath (path : Text) : Text := (path.filter fun c => 0x20 ≤ c && c < 0x7F).take 128

/-- `sanitize_req`. -/
def sanitizeReq (isalnum : Nat → Bool) (req : Text) : Text :=
  let parts := split 32 2 req
  let method := parts.headD []
  let target := parts.getD 1 []
  -- no query string
  let path := (split 63 1 target).headD []
  let path := keepSegment (dropAuthority path)
  strip (cleanMethod isalnum method ++ textOf " " ++ cleanPath path)

/-- `str(entry.get(key, default))`. -/
def Library.field (lib : Library) (entry : List (Text × Value)) (key default : String) : Text :=
  ((getKey entry key).map lib.str).getD (textOf default)

/-- `build_comment`. -/
def buildComment (lib : Library) (entry : List (Text × Value)) : Text :=
  let cat := lib.field entry "cat" "?"
  let src := lib.field entry "src" "?"
  let req := sanitizeReq lib.isalnum (lib.field entry "req" "")
  (textOf "nginx-http-shield: " ++ cat ++ textOf " attack in " ++ src ++ textOf "; " ++ req).take 500

/-! ## §3. Splitting and finding. -/

theorem split_head (sep n : Nat) (t : Text) :
    (split sep (n + 1) t).headD [] = t.takeWhile (· ≠ sep) := by
  unfold split
  split_ifs with h
  · rfl
  · show t = _
    refine (List.takeWhile_eq_self_iff.mpr ?_).symm
    intro c hc
    have hne : c ≠ sep := fun heq => h (heq ▸ hc)
    exact decide_eq_true hne

theorem split_second (sep n : Nat) (t : Text) :
    (split sep (n + 2) t).getD 1 []
      = ((t.dropWhile (· ≠ sep)).drop 1).takeWhile (· ≠ sep) := by
  unfold split
  split_ifs with h
  · have hfirst : ∀ ts : List Text, ts.getD 0 [] = ts.headD [] := by
      intro ts
      cases ts with
      | nil => rfl
      | cons t ts => rfl
    show (split sep (n + 1) _).getD 0 [] = _
    rw [hfirst]
    exact split_head sep n _
  · have hall : t.dropWhile (· ≠ sep) = [] := by
      refine List.dropWhile_eq_nil_iff.mpr ?_
      intro c hc
      have hne : c ≠ sep := fun heq => h (heq ▸ hc)
      exact decide_eq_true hne
    rw [hall]
    rfl

/-- The word stands where it is found. -/
theorem find_prefix {word : Text} (t : Text) : ∀ {i : Nat}, find word t = some i →
    word <+: t.drop i := by
  induction t with
  | nil =>
      intro i h
      unfold find at h
      split_ifs at h with hword
      rw [hword]
      exact List.nil_prefix
  | cons c t ih =>
      intro i h
      unfold find at h
      split_ifs at h with hprefix
      · cases h
        exact hprefix
      · obtain ⟨j, hj, rfl⟩ := Option.map_eq_some_iff.mp h
        exact ih hj

/-- A character is found behind all those in front of it. -/
theorem find_char (c : Nat) (t : Text) :
    find [c] t = if c ∈ t then some (t.takeWhile (· ≠ c)).length else none := by
  induction t with
  | nil => rfl
  | cons d t ih =>
      by_cases hcd : c = d
      · subst hcd
        unfold find
        rw [if_pos ⟨t, rfl⟩, if_pos List.mem_cons_self, List.takeWhile_cons_of_neg (by simp)]
        rfl
      · have hnot : ¬ [c] <+: d :: t := by
          rintro ⟨s, hs⟩
          exact hcd (List.cons.inj hs).1
        have hne : d ≠ c := fun h => hcd h.symm
        unfold find
        rw [if_neg hnot, ih, List.takeWhile_cons_of_pos (by simpa using hne)]
        by_cases hmem : c ∈ t
        · rw [if_pos hmem, if_pos (List.mem_cons_of_mem d hmem)]
          rfl
        · rw [if_neg hmem, if_neg]
          · rfl
          · rintro (_ | ⟨_, h⟩)
            · exact hcd rfl
            · exact hmem h

theorem drop_takeWhile_length (p : Nat → Bool) (t : Text) :
    t.drop (t.takeWhile p).length = t.dropWhile p := by
  have h := @List.drop_left _ (t.takeWhile p) (t.dropWhile p)
  rw [List.takeWhile_append_dropWhile] at h
  exact h

/-! ## §4. What is shown of a request line. -/

/-- The method. -/
def methodOf (req : Text) : Text := req.takeWhile (· ≠ 32)

/-- The target. -/
def targetOf (req : Text) : Text := ((req.dropWhile (· ≠ 32)).drop 1).takeWhile (· ≠ 32)

/-- The path of the target, up to the query. -/
def targetPath (req : Text) : Text := (targetOf req).takeWhile (· ≠ 63)

/-- The target begins with a slash. -/
def OriginForm (req : Text) : Prop := (targetOf req).head? = some 47

/-- The first segment of the target, up to the next slash or the query. -/
def firstSegment (req : Text) : Text := ((targetOf req).drop 1).takeWhile fun c => c ≠ 47 ∧ c ≠ 63

/-- The segment behind the authority that a scheme at this position announces. -/
def segmentBehind (path : Text) (scheme : Nat) : Text :=
  (((path.drop (scheme + 3)).dropWhile (· ≠ 47)).drop 1).takeWhile (· ≠ 47)

/-- The segment that is taken for the first: where `://` stands in the path, the one behind
the authority that follows. -/
def segmentShown (req : Text) : Text :=
  match find (textOf "://") (targetPath req) with
  | some scheme => segmentBehind (targetPath req) scheme
  | none => firstSegment req

/-- The line hides what stands behind its first segment: there is no `://` in the path, or
the segment behind the authority that follows does not differ from the first one in the
printable ASCII characters, of which there is room for 127. -/
def Hides (req : Text) : Prop :=
  ∀ scheme, find (textOf "://") (targetPath req) = some scheme →
    cleanPath (47 :: segmentBehind (targetPath req) scheme) = cleanPath (47 :: firstSegment req)

/-- **The steps of `sanitize_req`.** -/
theorem sanitizeReq_eq (isalnum : Nat → Bool) (req : Text) :
    sanitizeReq isalnum req = strip (cleanMethod isalnum (methodOf req) ++ [32]
      ++ cleanPath (keepSegment (dropAuthority (targetPath req)))) := by
  unfold sanitizeReq methodOf targetPath targetOf
  dsimp only
  rw [split_head, split_second, split_head]
  rfl

theorem keepSegment_slash (rest : Text) :
    keepSegment (47 :: rest) = 47 :: rest.takeWhile (· ≠ 47) := by
  unfold keepSegment
  rw [List.head?_cons, if_pos rfl, split_head]
  rfl

/-- The segment that is kept of a path with `://` is the one behind the authority. -/
theorem keepSegment_behind (path : Text) {scheme : Nat} (h : find (textOf "://") path = some scheme) :
    keepSegment (dropAuthority path) = 47 :: segmentBehind path scheme := by
  unfold dropAuthority segmentBehind
  rw [h]
  dsimp only
  generalize path.drop (scheme + 3) = rest
  have hslash : textOf "/" = [47] := rfl
  rw [hslash, find_char]
  by_cases hmem : 47 ∈ rest
  · rw [if_pos hmem]
    dsimp only
    rw [drop_takeWhile_length]
    obtain ⟨before, after, rfl, hbefore⟩ := List.eq_append_cons_of_mem hmem
    have hdrop : (before ++ 47 :: after).dropWhile (· ≠ 47) = 47 :: after := by
      rw [List.dropWhile_append_of_pos, List.dropWhile_cons_of_neg (by simp)]
      intro c hc
      have hne : c ≠ 47 := fun heq => hbefore (heq ▸ hc)
      exact decide_eq_true hne
    rw [hdrop, keepSegment_slash]
    rfl
  · -- no path at all
    have hdrop : rest.dropWhile (· ≠ 47) = [] := by
      refine List.dropWhile_eq_nil_iff.mpr ?_
      intro c hc
      have hne : c ≠ 47 := fun heq => hmem (heq ▸ hc)
      exact decide_eq_true hne
    rw [if_neg hmem, hdrop]
    rfl

/-- The path of an origin-form target is shown as its segment. -/
theorem keepSegment_shown {req : Text} (h : OriginForm req) :
    keepSegment (dropAuthority (targetPath req)) = 47 :: segmentShown req := by
  unfold segmentShown
  cases hfind : find (textOf "://") (targetPath req) with
  | some scheme => exact keepSegment_behind (targetPath req) hfind
  | none =>
      obtain ⟨body, hbody⟩ : ∃ body, targetOf req = 47 :: body := by
        unfold OriginForm at h
        cases htarget : targetOf req with
        | nil =>
            rw [htarget] at h
            cases h
        | cons c body =>
            rw [htarget] at h
            cases h
            exact ⟨body, rfl⟩
      have hpath : targetPath req = 47 :: body.takeWhile (· ≠ 63) := by
        unfold targetPath
        rw [hbody, List.takeWhile_cons_of_pos (by decide)]
      have hdrop : dropAuthority (targetPath req) = targetPath req := by
        unfold dropAuthority
        rw [hfind]
      rw [hdrop, hpath, keepSegment_slash, List.takeWhile_takeWhile]
      unfold firstSegment
      rw [hbody]
      simp

/-! ## §5. Two request lines. -/

/-- What follows a space, begins with a slash, and has no white space in it, is left by
`strip` as it is. -/
theorem strip_slash (method path : Text) (hpath : ∀ c ∈ 47 :: path, isPySpace c = false) :
    strip (method ++ [32] ++ 47 :: path) = (method ++ [32]).dropWhile isPySpace ++ 47 :: path := by
  have hslash : isPySpace 47 = false := rfl
  have hfront : (method ++ [32] ++ 47 :: path).dropWhile isPySpace
      = (method ++ [32]).dropWhile isPySpace ++ 47 :: path := by
    rw [List.dropWhile_append]
    split_ifs with hempty
    · rw [List.isEmpty_iff.mp hempty, List.dropWhile_cons_of_neg (by simp [hslash])]
      rfl
    · rfl
  -- the last character is no white space either
  obtain ⟨init, last, hlast⟩ := List.eq_nil_or_concat' (47 :: path) |>.resolve_left (by simp)
  have hend : isPySpace last = false := by
    apply hpath
    rw [hlast]
    exact List.mem_append_right init List.mem_cons_self
  unfold strip
  rw [hfront, hlast, ← List.append_assoc, List.reverse_append, List.reverse_singleton,
    List.singleton_append, List.dropWhile_cons_of_neg (by simp [hend]), List.reverse_cons,
    List.reverse_reverse]

/-- Of the printable characters only the space is white. -/
theorem not_pySpace {c : Nat} (hlow : 0x20 < c) (hhigh : c < 0x7F) : isPySpace c = false := by
  unfold isPySpace
  simp only [Bool.or_eq_false_iff, Bool.and_eq_false_iff, decide_eq_false_iff_not,
    beq_eq_false_iff_ne]
  omega

theorem mem_targetOf {req : Text} {c : Nat} (h : c ∈ targetOf req) : c ≠ 32 := by
  have hp := List.mem_takeWhile_imp h
  simpa using hp

/-- The segment that is shown holds no space. -/
theorem segmentShown_ne_space {req : Text} {c : Nat} (h : c ∈ segmentShown req) : c ≠ 32 := by
  refine @mem_targetOf req c ?_
  unfold segmentShown at h
  have hpath : ∀ d ∈ targetPath req, d ∈ targetOf req :=
    fun d hd => (List.takeWhile_prefix _).subset hd
  split at h
  · unfold segmentBehind at h
    have hdropped := List.mem_of_mem_drop ((List.takeWhile_prefix _).subset h)
    exact hpath c (List.mem_of_mem_drop ((List.dropWhile_suffix _).subset hdropped))
  · unfold firstSegment at h
    exact List.mem_of_mem_drop ((List.takeWhile_prefix _).subset h)

/-- The cleaned path begins with its slash, and has no white space. -/
theorem cleanPath_shown (req : Text) :
    ∃ rest, cleanPath (47 :: segmentShown req) = 47 :: rest
      ∧ ∀ c ∈ 47 :: rest, isPySpace c = false := by
  have hcons : cleanPath (47 :: segmentShown req)
      = 47 :: ((segmentShown req).filter fun c => 0x20 ≤ c && c < 0x7F).take 127 := by
    unfold cleanPath
    rw [List.filter_cons_of_pos (by decide)]
    rfl
  refine ⟨_, hcons, ?_⟩
  intro c hc
  rcases List.mem_cons.mp hc with rfl | hc
  · rfl
  · obtain ⟨hmem, hprintable⟩ := List.mem_filter.mp (List.mem_of_mem_take hc)
    have hne := segmentShown_ne_space hmem
    simp only [Bool.and_eq_true, decide_eq_true_eq] at hprintable
    exact not_pySpace (by omega) hprintable.2

/-- Two origin-form lines with the same method are reduced to the same text exactly if they
show the same segment. -/
theorem sanitizeReq_eq_iff (isalnum : Nat → Bool) {req req' : Text} (hreq : OriginForm req)
    (hreq' : OriginForm req') (hmethod : methodOf req = methodOf req') :
    sanitizeReq isalnum req = sanitizeReq isalnum req'
      ↔ cleanPath (47 :: segmentShown req) = cleanPath (47 :: segmentShown req') := by
  obtain ⟨rest, hrest, hspace⟩ := cleanPath_shown req
  obtain ⟨rest', hrest', hspace'⟩ := cleanPath_shown req'
  rw [sanitizeReq_eq, sanitizeReq_eq, keepSegment_shown hreq, keepSegment_shown hreq', hmethod,
    hrest, hrest', strip_slash _ _ hspace, strip_slash _ _ hspace', List.append_cancel_left_eq]

/-- A line that hides what it should shows its first segment. -/
theorem hides_iff (req : Text) :
    Hides req ↔ cleanPath (47 :: segmentShown req) = cleanPath (47 :: firstSegment req) := by
  unfold Hides segmentShown
  cases hfind : find (textOf "://") (targetPath req) with
  | none => exact ⟨fun _ => rfl, fun _ scheme h => by cases h⟩
  | some scheme =>
      constructor
      · intro h
        exact h scheme rfl
      · intro h _ heq
        cases heq
        exact h

/-! ## §6. The outline of a request line. -/

/-- The method of a line and its first segment, and nothing else. -/
def outline (req : Text) : Text := methodOf req ++ 32 :: 47 :: firstSegment req

theorem methodOf_ne_space {req : Text} {c : Nat} (h : c ∈ methodOf req) :
    decide (c ≠ 32) = true := by
  have hp := List.mem_takeWhile_imp h
  exact hp

theorem firstSegment_mem {req : Text} {c : Nat} (h : c ∈ firstSegment req) :
    c ≠ 32 ∧ c ≠ 47 ∧ c ≠ 63 := by
  have htarget : c ∈ targetOf req := List.mem_of_mem_drop ((List.takeWhile_prefix _).subset h)
  have hp := List.mem_takeWhile_imp h
  exact ⟨mem_targetOf htarget, of_decide_eq_true hp⟩

theorem methodOf_outline (req : Text) : methodOf (outline req) = methodOf req := by
  show (methodOf req ++ 32 :: _).takeWhile (· ≠ 32) = _
  rw [List.takeWhile_append_of_pos fun c hc => methodOf_ne_space hc,
    List.takeWhile_cons_of_neg (by simp), List.append_nil]

theorem targetOf_outline (req : Text) : targetOf (outline req) = 47 :: firstSegment req := by
  have hdrop : (outline req).dropWhile (· ≠ 32) = 32 :: 47 :: firstSegment req := by
    show (methodOf req ++ 32 :: _).dropWhile (· ≠ 32) = _
    rw [List.dropWhile_append_of_pos fun c hc => methodOf_ne_space hc,
      List.dropWhile_cons_of_neg (by simp)]
  unfold targetOf
  rw [hdrop]
  show (47 :: firstSegment req).takeWhile (· ≠ 32) = _
  refine List.takeWhile_eq_self_iff.mpr ?_
  intro c hc
  rcases List.mem_cons.mp hc with rfl | hc
  · rfl
  · exact decide_eq_true (firstSegment_mem hc).1

theorem firstSegment_outline (req : Text) : firstSegment (outline req) = firstSegment req := by
  show ((targetOf (outline req)).drop 1).takeWhile _ = _
  rw [targetOf_outline]
  refine List.takeWhile_eq_self_iff.mpr ?_
  intro c hc
  exact decide_eq_true (firstSegment_mem hc).2

/-- The outline of a request line hides what stands behind its first segment: `://` takes
two slashes, and there is one. -/
theorem hides_outline (req : Text) : Hides (outline req) := by
  intro scheme hfind
  obtain ⟨after, hafter⟩ := find_prefix _ hfind
  obtain ⟨rest, hrest⟩ : targetPath (outline req) <+: 47 :: firstSegment req := by
    rw [← targetOf_outline]
    exact List.takeWhile_prefix _
  have hle : scheme ≤ (targetPath (outline req)).length := by
    by_contra hlt
    rw [List.drop_eq_nil_of_le (by omega)] at hafter
    cases hafter
  have hdrop : (47 :: firstSegment req).drop scheme = textOf "://" ++ (after ++ rest) := by
    rw [← hrest, List.drop_append_of_le_length hle, ← hafter, List.append_assoc]
  -- the second of the slashes is in the segment
  have hmem : 47 ∈ (firstSegment req).drop (scheme + 1) := by
    show 47 ∈ (47 :: firstSegment req).drop (scheme + 2)
    rw [← List.drop_drop, hdrop]
    exact List.mem_cons_self
  exact absurd rfl (firstSegment_mem (List.mem_of_mem_drop hmem)).2.1

/-- **What a report shows of a request line.**  The lines with origin-form targets that hide
what stands behind the first segment are those which are reduced to the same text as all
such lines of the same method and the same first segment. -/
theorem sanitizeReq_hides (isalnum : Nat → Bool) {req : Text} (hreq : OriginForm req) :
    (∀ req', OriginForm req' → methodOf req' = methodOf req → firstSegment req' = firstSegment req →
      Hides req' → sanitizeReq isalnum req = sanitizeReq isalnum req') ↔ Hides req := by
  constructor
  · intro hsame
    have horigin : OriginForm (outline req) := by
      unfold OriginForm
      rw [targetOf_outline]
      rfl
    have heq := hsame (outline req) horigin (methodOf_outline req) (firstSegment_outline req)
      (hides_outline req)
    rw [sanitizeReq_eq_iff isalnum hreq horigin (methodOf_outline req).symm,
      (hides_iff (outline req)).mp (hides_outline req), firstSegment_outline] at heq
    exact (hides_iff req).mpr heq
  · intro hhides req' hreq' hmethod hfirst hhides'
    rw [sanitizeReq_eq_iff isalnum hreq hreq' hmethod.symm, (hides_iff req).mp hhides,
      (hides_iff req').mp hhides', hfirst]

/-! ## §7. A password reset. -/

/-- `str.isalnum` on ASCII. -/
def asciiAlnum (c : Nat) : Bool :=
  (48 ≤ c && c ≤ 57) || (65 ≤ c && c ≤ 90) || (97 ≤ c && c ≤ 122)

/-- A password reset link. -/
def resetPage : Text := textOf "GET /reset/TOKEN-abc123?u=1 HTTP/1.1"

theorem resetPage_originForm : OriginForm resetPage := by
  unfold OriginForm
  decide

theorem resetPage_hides : Hides resetPage := by
  have hnone : find (textOf "://") (targetPath resetPage) = none := by decide
  intro scheme h
  rw [hnone] at h
  cases h

/-- The sanitised line of a password reset is that of every other
request for its first segment. -/
theorem sanitizeReq_hides_reset :
    OriginForm resetPage ∧ Hides resetPage
      ∧ ∀ req', OriginForm req' → methodOf req' = methodOf resetPage
        → firstSegment req' = firstSegment resetPage → Hides req'
        → sanitizeReq asciiAlnum resetPage = sanitizeReq asciiAlnum req' :=
  ⟨resetPage_originForm, resetPage_hides,
    (sanitizeReq_hides asciiAlnum resetPage_originForm).mpr resetPage_hides⟩

/-- A URL behind the first segment is taken for an absolute-form target, and its path for
the path of the request. -/
theorem sanitizeReq_discloses :
    OriginForm (textOf "GET /go/http://h/TOKEN-abc123 HTTP/1.1")
      ∧ OriginForm (textOf "GET /go HTTP/1.1")
      ∧ methodOf (textOf "GET /go/http://h/TOKEN-abc123 HTTP/1.1")
        = methodOf (textOf "GET /go HTTP/1.1")
      ∧ firstSegment (textOf "GET /go/http://h/TOKEN-abc123 HTTP/1.1")
        = firstSegment (textOf "GET /go HTTP/1.1")
      ∧ sanitizeReq asciiAlnum (textOf "GET /go/http://h/TOKEN-abc123 HTTP/1.1")
        = textOf "GET /TOKEN-abc123"
      ∧ sanitizeReq asciiAlnum (textOf "GET /go HTTP/1.1") = textOf "GET /go" := by
  unfold OriginForm
  decide

end HttpShield
