/-
  HttpShield.Request.MediaType
  ────────────────────────────
  Which bodies are scanned, by the grammar of the media type.

  The module matches a value in two ways: a type and then its end, or the end and then a
  suffix.  Both are tests of the essence, the part in front of the first semicolon
  without the blanks behind it.  Beside the values of the tests stands the way they
  are read, byte by byte.

    • `contentTypeIs_iff`, `contentTypeSuffix_iff` — the two matchers,
    • `contentTypeValueScannable_iff` — a value,
    • `scannableBodyAt_eq`            — no byte outside a value is read,
    • `scannableBody_iff`             — the chain of values.
-/
import HttpShield.Request.Verdict

namespace HttpShield

/-! ## §1. The grammar. -/

/-- A value without its parameters. -/
def essence (v : Bytes) : Bytes := (v.takeWhile (· ≠ 59)).rdropWhile isBlank

/-- The types that are listed. -/
def textualTypes : List String :=
  ["application/x-www-form-urlencoded", "multipart/form-data", "application/json",
    "application/xml", "application/graphql", "application/x-ndjson", "application/json-seq",
    "application/yaml", "application/x-yaml"]

/-- The structured suffixes. -/
def textualSuffixes : List String := ["+json", "+xml"]

/-- **The value is of a textual type**, in whatever case. -/
def Textual (v : Bytes) : Prop :=
  bytesOf "text/" <+: ngxStrlow v
    ∨ (∃ t ∈ textualTypes, ngxStrlow (essence v) = bytesOf t)
    ∨ bytesOf "application/" <+: ngxStrlow (essence v)
      ∧ ∃ s ∈ textualSuffixes, bytesOf s <:+ ngxStrlow (essence v)

/-- A literal that the module matches: in lower case, without a NUL, a semicolon or a blank. -/
structure Literal (t : Bytes) : Prop where
  lower : ngxStrlow t = t
  plain : ∀ c ∈ t, c ≠ 0 ∧ c ≠ 59 ∧ isBlank c = false

/-- The test for `Literal`, byte by byte. -/
def isLiteral (t : Bytes) : Bool :=
  t.all fun c => ngxTolower c == c && c != 0 && c != 59 && !isBlank c

theorem literal_of_test {t : Bytes} (h : isLiteral t = true) : Literal t := by
  unfold isLiteral at h
  simp only [List.all_eq_true, Bool.and_eq_true, beq_iff_eq, bne_iff_ne, Bool.not_eq_true'] at h
  constructor
  · exact (List.map_congr_left fun c hc => (h c hc).1.1.1).trans (List.map_id t)
  · exact fun c hc => ⟨(h c hc).1.1.2, (h c hc).1.2, (h c hc).2⟩

theorem literal_of_mem : ∀ t ∈ "text/" :: "application/" :: textualTypes ++ textualSuffixes,
    Literal (bytesOf t) := by
  have htest : ∀ t ∈ "text/" :: "application/" :: textualTypes ++ textualSuffixes,
      isLiteral (bytesOf t) = true := by
    decide +kernel
  exact fun t ht => literal_of_test (htest t ht)

theorem isBlank_iff {c : UInt8} : isBlank c = true ↔ c = 32 ∨ c = 9 := by
  unfold isBlank
  rw [Bool.or_eq_true, beq_iff_eq, beq_iff_eq]

/-! ## §2. Comparing without case. -/

/-- `ngx_strncasecmp` of a literal finds it at the front. -/
theorem ngxStrncasecmp_eq_zero_iff {t : Bytes} (ht : Literal t) {v : Bytes}
    (hlen : t.length ≤ v.length) : ngxStrncasecmp v t t.length = 0 ↔ t <+: ngxStrlow v := by
  obtain ⟨hlower, hplain⟩ := ht
  induction t generalizing v with
  | nil => cases v <;> simp [ngxStrncasecmp]
  | cons c t ih =>
      cases v with
      | nil => simp at hlen
      | cons d v =>
          obtain ⟨hc, hrest⟩ :=
            List.cons.inj (show ngxTolower c :: ngxStrlow t = c :: t from hlower)
          have hnul : c ≠ 0 := (hplain c List.mem_cons_self).1
          have hgo := ih (v := v) (by simpa using hlen) hrest
            fun x hx => hplain x (List.mem_cons_of_mem _ hx)
          show (if ngxTolower d = ngxTolower c then
              if ngxTolower d = 0 then 0 else ngxStrncasecmp v t t.length
            else _) = 0 ↔ c :: t <+: ngxTolower d :: ngxStrlow v
          rw [hc, List.cons_prefix_cons]
          by_cases heq : ngxTolower d = c
          · rw [if_pos heq, heq, if_neg hnul, hgo]
            simp
          · have hne : (ngxTolower d).toNat ≠ c.toNat := fun h => heq (UInt8.toNat_inj.mp h)
            rw [if_neg heq]
            refine iff_of_false ?_ fun h => heq h.1.symm
            omega

/-- A piece that is a literal but for its case has no semicolon and no blank either. -/
theorem Literal.of_lower {a : Bytes} (h : Literal (ngxStrlow a)) :
    ∀ c ∈ a, c ≠ 59 ∧ isBlank c = false := by
  have hkeep : ∀ c : UInt8, c = 59 ∨ isBlank c = true → ngxTolower c = c := by
    intro c hc
    rw [isBlank_iff] at hc
    rcases hc with rfl | rfl | rfl <;> rfl
  intro c hc
  have hmem : ngxTolower c ∈ ngxStrlow a := List.mem_map_of_mem hc
  by_contra hbad
  have hkind : c = 59 ∨ isBlank c = true := by
    by_contra hno
    rw [not_or, Bool.not_eq_true] at hno
    exact hbad hno
  rw [hkeep c hkind] at hmem
  exact hbad (h.plain c hmem).2

/-- A literal at the front, in whatever case. -/
theorem exists_of_prefix {t v : Bytes} (h : t <+: ngxStrlow v) :
    ∃ a rest, v = a ++ rest ∧ ngxStrlow a = t := by
  refine ⟨v.take t.length, v.drop t.length, (List.take_append_drop _ _).symm, ?_⟩
  unfold ngxStrlow at h ⊢
  rw [List.map_take]
  exact (List.prefix_iff_eq_take.mp h).symm

theorem prefix_of_append {a rest t : Bytes} (h : ngxStrlow a = t) :
    t <+: ngxStrlow (a ++ rest) := by
  unfold ngxStrlow at h ⊢
  rw [List.map_append, h]
  exact List.prefix_append _ _

/-! ## §3. The essence. -/

theorem rdropWhile_append {a b : Bytes} (ha : ∀ c ∈ a, isBlank c = false) :
    (a ++ b).rdropWhile isBlank = a ++ b.rdropWhile isBlank := by
  induction b using List.reverseRecOn with
  | nil =>
      rw [List.append_nil, List.rdropWhile_nil, List.append_nil]
      apply List.rdropWhile_eq_self_iff.mpr
      intro hne
      rw [ha _ (List.getLast_mem hne)]
      exact Bool.false_ne_true
  | append_singleton b c ih =>
      rw [← List.append_assoc]
      by_cases hc : isBlank c = true
      · rw [List.rdropWhile_concat_pos _ _ _ hc, List.rdropWhile_concat_pos _ _ _ hc, ih]
      · rw [List.rdropWhile_concat_neg _ _ _ hc, List.rdropWhile_concat_neg _ _ _ hc,
          List.append_assoc]

/-- What stands in front without a semicolon and blanks belongs to the essence. -/
theorem essence_append {a : Bytes} (ha : ∀ c ∈ a, c ≠ 59 ∧ isBlank c = false) (rest : Bytes) :
    essence (a ++ rest) = a ++ essence rest := by
  unfold essence
  rw [List.takeWhile_append_of_pos (by simpa using fun c hc => (ha c hc).1),
    rdropWhile_append fun c hc => (ha c hc).2]

theorem essence_isPrefix (v : Bytes) : essence v <+: v :=
  (List.rdropWhile_prefix _ _).trans (List.takeWhile_prefix _)

/-- The test behind a type: its terminator is there, or the end. -/
def endsType : Bytes → Bool
  | [] => true
  | c :: _ => c == 59

/-- The whitespace and then the terminator: what is left has no essence. -/
theorem essence_eq_nil_iff (rest : Bytes) :
    essence rest = [] ↔ endsType (rest.dropWhile isBlank) = true := by
  have hsemicolon : ∀ c : UInt8, isBlank c = true → c ≠ 59 := by
    intro c hc
    rcases isBlank_iff.mp hc with rfl | rfl <;> decide
  unfold essence
  rw [List.rdropWhile_eq_nil_iff]
  induction rest with
  | nil => simp [endsType]
  | cons c rest ih =>
      by_cases hblank : isBlank c = true
      · rw [List.takeWhile_cons_of_pos (by simpa using hsemicolon c hblank),
          List.dropWhile_cons_of_pos hblank, List.forall_mem_cons]
        exact (and_iff_right hblank).trans ih
      · rw [List.dropWhile_cons_of_neg hblank]
        by_cases hc : c = 59
        · subst hc
          simp [endsType]
        · rw [List.takeWhile_cons_of_pos (by simpa using hc), List.forall_mem_cons]
          simp [endsType, hblank, hc]

/-! ## §4. The matchers. -/

/-- **The prefix and then the terminator**: the essence is the type. -/
theorem contentTypeIs_iff {t : Bytes} (ht : Literal t) (v : Bytes) :
    contentTypeIs v t = true ↔ ngxStrlow (essence v) = t := by
  unfold contentTypeIs
  constructor
  · intro h
    split at h
    · cases h
    · rename_i hfound
      rw [not_or, not_lt, not_not] at hfound
      rw [ngxStrncasecmp_eq_zero_iff ht hfound.1] at hfound
      obtain ⟨a, rest, rfl, rfl⟩ := exists_of_prefix hfound.2
      rw [ngxStrlow_length, List.drop_left] at h
      rw [essence_append ht.of_lower, (essence_eq_nil_iff rest).mpr h, List.append_nil]
  · intro h
    obtain ⟨rest, hv⟩ := essence_isPrefix v
    have hlit : Literal (ngxStrlow (essence v)) := h ▸ ht
    have hlen : t.length ≤ v.length := by
      rw [← h, ngxStrlow_length]
      exact (essence_isPrefix v).length_le
    have hcmp : ngxStrncasecmp v t t.length = 0 := by
      rw [ngxStrncasecmp_eq_zero_iff ht hlen, ← hv]
      exact prefix_of_append h
    -- behind the essence there is none
    have hnil : essence rest = [] := by
      have hsplit := essence_append hlit.of_lower rest
      rw [hv] at hsplit
      exact List.append_cancel_left (hsplit.symm.trans (List.append_nil _).symm)
    rw [if_neg (by rw [not_or, not_lt, not_not]; exact ⟨hlen, hcmp⟩)]
    have hdrop : v.drop t.length = rest := by
      conv_lhs => rw [← hv, ← h, ngxStrlow_length, List.drop_left]
    rw [hdrop]
    exact (essence_eq_nil_iff rest).mp hnil

/-- A prefix and a suffix do not overlap if the suffix begins with a byte that is not in
the prefix. -/
theorem length_add_le {p s l : Bytes} {c : UInt8} (hp : p <+: l) (hs : c :: s <:+ l) (hc : c ∉ p) :
    p.length + (c :: s).length ≤ l.length := by
  obtain ⟨x, rfl⟩ := hp
  obtain ⟨y, hy⟩ := hs
  have hlen := congrArg List.length hy
  rw [List.length_append] at hlen
  by_contra hshort
  have hlt : y.length < p.length := by omega
  have hget : (p ++ x)[y.length]? = some c := by rw [← hy]; simp
  rw [List.getElem?_append_left hlt] at hget
  exact hc (List.mem_of_getElem? hget)

/-- **The terminator and then the suffix**: so does the essence end. -/
theorem contentTypeSuffix_iff {c : UInt8} {s : Bytes} (hs : Literal (c :: s))
    (hc : c ∉ bytesOf "application/") (v : Bytes) :
    contentTypeSuffix v (c :: s) = true
      ↔ bytesOf "application/" <+: ngxStrlow (essence v) ∧ c :: s <:+ ngxStrlow (essence v) := by
  have happ : Literal (bytesOf "application/") := literal_of_mem _ (by simp)
  have hpre : ∀ v, bytesOf "application/" <+: ngxStrlow (essence v) →
      bytesOf "application/" <+: ngxStrlow v := fun v h =>
    h.trans (List.IsPrefix.map _ (essence_isPrefix v))
  -- the last bytes of the essence
  have hlast : ∀ e : Bytes, (e.length ≥ (c :: s).length
      && ngxStrncasecmp (e.drop (e.length - (c :: s).length)) (c :: s) (c :: s).length == 0) = true
        ↔ c :: s <:+ ngxStrlow e := by
    intro e
    rw [Bool.and_eq_true, decide_eq_true_eq, beq_iff_eq]
    constructor
    · rintro ⟨hlen, hcmp⟩
      have hdrop : (e.drop (e.length - (c :: s).length)).length = (c :: s).length := by
        rw [List.length_drop]
        omega
      rw [ngxStrncasecmp_eq_zero_iff hs (by omega)] at hcmp
      have heq := hcmp.eq_of_length (by rw [ngxStrlow_length, hdrop])
      rw [heq]
      exact List.IsSuffix.map _ (List.drop_suffix _ _)
    · intro hsuffix
      have hlen := hsuffix.length_le
      rw [ngxStrlow_length] at hlen
      have hdrop : (e.drop (e.length - (c :: s).length)).length = (c :: s).length := by
        rw [List.length_drop]
        omega
      refine ⟨hlen, (ngxStrncasecmp_eq_zero_iff hs (by omega)).mpr ?_⟩
      have heq := List.suffix_iff_eq_drop.mp hsuffix
      rw [ngxStrlow_length] at heq
      have hlow : c :: s = ngxStrlow (e.drop (e.length - (c :: s).length)) :=
        heq.trans List.map_drop.symm
      rw [← hlow]
  show (if _ then false else (decide ((essence v).length ≥ (c :: s).length)
    && ngxStrncasecmp ((essence v).drop ((essence v).length - (c :: s).length)) (c :: s)
      (c :: s).length == 0)) = true ↔ _
  by_cases hfound : v.length < (bytesOf "application/").length + (c :: s).length
      ∨ ngxStrncasecmp v (bytesOf "application/") (bytesOf "application/").length ≠ 0
  · rw [if_pos hfound]
    refine iff_of_false Bool.false_ne_true ?_
    rintro ⟨hfront, hback⟩
    have hlen := length_add_le hfront hback hc
    rw [ngxStrlow_length] at hlen
    have hle := (essence_isPrefix v).length_le
    rcases hfound with hshort | hdiff
    · omega
    · exact hdiff ((ngxStrncasecmp_eq_zero_iff happ (by omega)).mpr (hpre v hfront))
  · rw [if_neg hfound, hlast]
    rw [not_or, not_lt, not_not] at hfound
    have hfront := hfound.2
    rw [ngxStrncasecmp_eq_zero_iff happ (by omega)] at hfront
    obtain ⟨a, rest, rfl, ha⟩ := exists_of_prefix hfront
    have hlit : Literal (ngxStrlow a) := ha ▸ happ
    refine ⟨fun h => ⟨?_, h⟩, fun h => h.2⟩
    rw [essence_append hlit.of_lower]
    exact prefix_of_append ha

/-! ## §5. The grammar decides. -/

theorem text_iff (v : Bytes) :
    (v.length ≥ (bytesOf "text/").length
        && ngxStrncasecmp v (bytesOf "text/") (bytesOf "text/").length == 0) = true
      ↔ bytesOf "text/" <+: ngxStrlow v := by
  rw [Bool.and_eq_true, decide_eq_true_eq, beq_iff_eq]
  constructor
  · intro h
    exact (ngxStrncasecmp_eq_zero_iff (literal_of_mem "text/" (by simp)) h.1).mp h.2
  · intro h
    have hlen := h.length_le
    rw [ngxStrlow_length] at hlen
    exact ⟨hlen, (ngxStrncasecmp_eq_zero_iff (literal_of_mem "text/" (by simp)) hlen).mpr h⟩

/-- The test for a listed type compares the essence of the value with it. -/
theorem contentTypeIs_listed {t : String} (ht : t ∈ textualTypes) (v : Bytes) :
    contentTypeIs v (bytesOf t) = true ↔ ngxStrlow (essence v) = bytesOf t := by
  apply contentTypeIs_iff
  apply literal_of_mem
  rw [List.cons_append, List.cons_append]
  exact List.mem_cons_of_mem _ (List.mem_cons_of_mem _ (List.mem_append_left _ ht))

/-- A structured suffix, tested: it begins with a plus. -/
theorem contentTypeSuffix_listed {s : String} (hs : s ∈ textualSuffixes) (v : Bytes) :
    contentTypeSuffix v (bytesOf s) = true
      ↔ bytesOf "application/" <+: ngxStrlow (essence v) ∧ bytesOf s <:+ ngxStrlow (essence v) := by
  have hplus : ∀ s ∈ textualSuffixes, bytesOf s = 43 :: (bytesOf s).tail := by decide
  have hlit : Literal (bytesOf s) := literal_of_mem s (by simp [hs])
  rw [hplus s hs] at hlit ⊢
  exact contentTypeSuffix_iff hlit (by decide) v

/-- **A value is scannable** exactly if it is of a textual type. -/
theorem contentTypeValueScannable_iff (v : Bytes) :
    contentTypeValueScannable v = true ↔ Textual v := by
  unfold contentTypeValueScannable
  simp only [Bool.or_eq_true]
  rw [text_iff, contentTypeSuffix_listed (s := "+json") (by decide),
    contentTypeSuffix_listed (s := "+xml") (by decide),
    contentTypeIs_listed (t := "application/x-www-form-urlencoded") (by decide),
    contentTypeIs_listed (t := "multipart/form-data") (by decide),
    contentTypeIs_listed (t := "application/json") (by decide),
    contentTypeIs_listed (t := "application/xml") (by decide),
    contentTypeIs_listed (t := "application/graphql") (by decide),
    contentTypeIs_listed (t := "application/x-ndjson") (by decide),
    contentTypeIs_listed (t := "application/json-seq") (by decide),
    contentTypeIs_listed (t := "application/yaml") (by decide),
    contentTypeIs_listed (t := "application/x-yaml") (by decide)]
  unfold Textual textualTypes textualSuffixes
  simp only [List.mem_cons, List.not_mem_nil, or_false, or_and_right, exists_or, exists_eq_left,
    and_or_left]
  -- the tests stand in another order
  apply iff_of_eq
  ac_rfl

/-! ## §6. No read goes past a value. -/

/-- `ngx_strncasecmp(v->data + i, s, len)` for a literal `s` of `len` bytes. -/
def ngxStrncasecmpAt (v : Bytes) : Nat → Bytes → Except Fault Int
  | _, [] => .ok 0
  | i, c :: s => do
      let d ← byteAt v i
      if ngxTolower d = ngxTolower c then
        if ngxTolower d = 0 then return 0 else ngxStrncasecmpAt v (i + 1) s
      else return ((ngxTolower d).toNat : Int) - ((ngxTolower c).toNat : Int)

/-- `ngx_http_shield_content_type_is`, read by read. -/
def contentTypeIsAt (v type : Bytes) : Except Fault Bool := do
  if v.length < type.length then return false
  if (← ngxStrncasecmpAt v 0 type) ≠ 0 then return false
  let i ← skipBlanks v type.length (v.length - type.length)
  if i = v.length then return true
  return (← byteAt v i) == 59

/-- The loop to the first semicolon, `n` bytes at most. -/
def toSemicolon (v : Bytes) : Nat → Nat → Except Fault Nat
  | i, 0 => .ok i
  | i, n + 1 => do
      if (← byteAt v i) = 59 then return i else toSemicolon v (i + 1) n

/-- `ngx_http_shield_content_type_suffix`, read by read. -/
def contentTypeSuffixAt (v suffix : Bytes) : Except Fault Bool := do
  let application := bytesOf "application/"
  if v.length < application.length + suffix.length then return false
  if (← ngxStrncasecmpAt v 0 application) ≠ 0 then return false
  let i ← toSemicolon v 0 v.length
  let i ← trimBlanks v 0 i
  if i < suffix.length then return false
  return (← ngxStrncasecmpAt v (i - suffix.length) suffix) == 0

/-- The test for `text/`, read by read. -/
def textAt (v : Bytes) : Except Fault Bool := do
  if v.length < (bytesOf "text/").length then return false
  return (← ngxStrncasecmpAt v 0 (bytesOf "text/")) == 0

/-- `||` over tests that read: the first that holds ends it. -/
def anyOk : List (Except Fault Bool) → Except Fault Bool
  | [] => .ok false
  | test :: tests => do
      if ← test then return true else anyOk tests

/-- `ngx_http_shield_content_type_value_scannable`, read by read. -/
def contentTypeValueScannableAt (v : Bytes) : Except Fault Bool :=
  anyOk
    [contentTypeIsAt v (bytesOf "application/x-www-form-urlencoded"),
      contentTypeIsAt v (bytesOf "multipart/form-data"),
      contentTypeIsAt v (bytesOf "application/json"),
      textAt v,
      contentTypeIsAt v (bytesOf "application/xml"),
      contentTypeSuffixAt v (bytesOf "+json"),
      contentTypeSuffixAt v (bytesOf "+xml"),
      contentTypeIsAt v (bytesOf "application/graphql"),
      contentTypeIsAt v (bytesOf "application/x-ndjson"),
      contentTypeIsAt v (bytesOf "application/json-seq"),
      contentTypeIsAt v (bytesOf "application/yaml"),
      contentTypeIsAt v (bytesOf "application/x-yaml")]

/-- `ngx_http_shield_scannable_body`, read by read. -/
def scannableBodyAt (r : Request) : Except Fault Bool :=
  if r.contentLengthN ≤ 0 ∧ ¬ r.chunked then .ok false
  else if r.contentType = [] then .ok true
  else anyOk (r.contentType.map fun ct => contentTypeValueScannableAt ct.value)

/-! ## §7. Every read stays in the value. -/

theorem ngxStrncasecmpAt_eq {v : Bytes} (s : Bytes) (i : Nat) (h : i + s.length ≤ v.length) :
    ngxStrncasecmpAt v i s = .ok (ngxStrncasecmp (v.drop i) s s.length) := by
  induction s generalizing i with
  | nil =>
      unfold ngxStrncasecmpAt
      cases v.drop i <;> rfl
  | cons c s ih =>
      rw [List.length_cons] at h
      have hi : i < v.length := by omega
      unfold ngxStrncasecmpAt
      rw [byteAt_eq hi, ok_bind, ih (i + 1) (by omega), List.drop_eq_getElem_cons hi,
        List.length_cons, ngxStrncasecmp]
      by_cases hsame : ngxTolower v[i] = ngxTolower c
      · rw [if_pos hsame, if_pos hsame]
        split <;> rfl
      · rw [if_neg hsame, if_neg hsame]
        rfl

/-- `ngx_strncasecmp` sees only the first `n` bytes. -/
theorem ngxStrncasecmp_take (a b : Bytes) (n : Nat) :
    ngxStrncasecmp (a.take n) b n = ngxStrncasecmp a b n := by
  induction n generalizing a b with
  | zero => cases a <;> cases b <;> rfl
  | succ n ih =>
      cases a with
      | nil => rfl
      | cons x xs =>
          cases b with
          | nil => rfl
          | cons y ys => simp only [List.take_succ_cons, ngxStrncasecmp, ih]

theorem contentTypeIsAt_eq (v type : Bytes) :
    contentTypeIsAt v type = .ok (contentTypeIs v type) := by
  unfold contentTypeIsAt contentTypeIs
  by_cases hshort : v.length < type.length
  · rw [if_pos hshort, if_pos (.inl hshort)]
    rfl
  · rw [if_neg hshort, ngxStrncasecmpAt_eq type 0 (by omega), ok_bind, List.drop_zero]
    by_cases hdiff : ngxStrncasecmp v type type.length ≠ 0
    · rw [if_pos hdiff, if_pos (.inr hdiff)]
      rfl
    · rw [if_neg hdiff, if_neg fun h => h.elim hshort hdiff]
      obtain ⟨i, hi, hle, htext⟩ :=
        @skipBlanks_returns v (v.length - type.length) type.length (by omega)
      rw [hi, ok_bind, ← htext]
      by_cases hend : i = v.length
      · rw [if_pos hend, List.drop_eq_nil_of_le (by omega)]
        rfl
      · have hlt : i < v.length := by omega
        rw [if_neg hend, byteAt_eq hlt, List.drop_eq_getElem_cons hlt]
        rfl

theorem toSemicolon_returns {v : Bytes} (n i : Nat) (hn : i + n = v.length) :
    toSemicolon v i n = .ok (i + ((v.drop i).takeWhile (· ≠ 59)).length) := by
  induction n generalizing i with
  | zero =>
      rw [List.drop_eq_nil_of_le (by omega)]
      rfl
  | succ n ih =>
      have hi : i < v.length := by omega
      unfold toSemicolon
      rw [byteAt_eq hi, ok_bind, List.drop_eq_getElem_cons hi]
      by_cases hsemicolon : v[i] = 59
      · rw [if_pos hsemicolon, List.takeWhile_cons_of_neg (by simpa using hsemicolon)]
        rfl
      · rw [if_neg hsemicolon, List.takeWhile_cons_of_pos (by simpa using hsemicolon),
          ih (i + 1) (by omega), List.length_cons]
        congr 1
        omega

theorem contentTypeSuffixAt_eq (v suffix : Bytes) :
    contentTypeSuffixAt v suffix = .ok (contentTypeSuffix v suffix) := by
  unfold contentTypeSuffixAt contentTypeSuffix
  by_cases hshort : v.length < (bytesOf "application/").length + suffix.length
  · rw [if_pos hshort, if_pos (.inl hshort)]
    rfl
  · rw [if_neg hshort, ngxStrncasecmpAt_eq (bytesOf "application/") 0 (by omega), ok_bind,
      List.drop_zero]
    by_cases hdiff : ngxStrncasecmp v (bytesOf "application/") (bytesOf "application/").length ≠ 0
    · rw [if_pos hdiff, if_pos (.inr hdiff)]
      rfl
    · rw [if_neg hdiff, if_neg fun h => h.elim hshort hdiff]
      have hfront : v.take (v.takeWhile (· ≠ 59)).length = v.takeWhile (· ≠ 59) :=
        (List.prefix_iff_eq_take.mp (List.takeWhile_prefix _)).symm
      have hfits := (List.takeWhile_prefix (p := (· ≠ 59)) (l := v)).length_le
      obtain ⟨len, hlen, hle, htext⟩ :=
        @trimBlanks_returns v 0 (v.takeWhile (· ≠ 59)).length (by omega)
      rw [List.drop_zero, hfront] at htext
      rw [toSemicolon_returns v.length 0 (by omega), ok_bind, List.drop_zero, Nat.zero_add, hlen,
        ok_bind, ← htext]
      show _ = Except.ok (decide ((v.take len).length ≥ suffix.length)
        && ngxStrncasecmp ((v.take len).drop ((v.take len).length - suffix.length)) suffix
          suffix.length == 0)
      rw [List.length_take, Nat.min_eq_left (by omega)]
      by_cases hroom : len < suffix.length
      · rw [if_pos hroom, decide_eq_false (by omega)]
        rfl
      · have hwhole : len - (len - suffix.length) = suffix.length := by omega
        rw [if_neg hroom, ngxStrncasecmpAt_eq suffix _ (by omega), decide_eq_true (by omega),
          List.drop_take, hwhole, ngxStrncasecmp_take]
        rfl

theorem textAt_eq (v : Bytes) :
    textAt v = .ok (v.length ≥ (bytesOf "text/").length
      && ngxStrncasecmp v (bytesOf "text/") (bytesOf "text/").length == 0) := by
  unfold textAt
  by_cases hshort : v.length < (bytesOf "text/").length
  · rw [if_pos hshort, decide_eq_false (by omega)]
    rfl
  · rw [if_neg hshort, ngxStrncasecmpAt_eq _ 0 (by omega), decide_eq_true (by omega)]
    rfl

theorem anyOk_eq (bs : List Bool) : anyOk (bs.map .ok) = .ok (bs.any id) := by
  induction bs with
  | nil => rfl
  | cons b bs ih =>
      rw [List.map_cons, List.any_cons, anyOk, ih]
      cases b <;> rfl

theorem contentTypeValueScannableAt_eq (v : Bytes) :
    contentTypeValueScannableAt v = .ok (contentTypeValueScannable v) := by
  unfold contentTypeValueScannableAt contentTypeValueScannable
  simp only [contentTypeIsAt_eq, contentTypeSuffixAt_eq, textAt_eq]
  refine (anyOk_eq [_, _, _, _, _, _, _, _, _, _, _, _]).trans (congrArg _ ?_)
  simp only [List.any_cons, List.any_nil, id_eq, Bool.or_false, Bool.or_assoc]

/-- The function that reads byte by byte never reads outside a value, and answers the
same. -/
theorem scannableBodyAt_eq (r : Request) : scannableBodyAt r = .ok (scannableBody r) := by
  unfold scannableBodyAt scannableBody
  split
  · rfl
  · split
    · rfl
    · simp only [contentTypeValueScannableAt_eq]
      have hmap :
          (r.contentType.map fun ct =>
            (Except.ok (contentTypeValueScannable ct.value) : Except Fault Bool))
          = (r.contentType.map fun ct => contentTypeValueScannable ct.value).map .ok := by
        rw [List.map_map]
        rfl
      rw [hmap, anyOk_eq, List.any_map]
      rfl

/-- **Which bodies are scanned.**  A body that is announced is scanned exactly if it has
no content type, or one of its content types is textual; no read goes past the end of a
value. -/
theorem scannableBody_iff (r : Request) (hbody : 0 < r.contentLengthN ∨ r.chunked = true) :
    scannableBodyAt r = .ok (scannableBody r)
      ∧ (scannableBody r = true ↔ r.contentType = [] ∨ ∃ ct ∈ r.contentType, Textual ct.value) := by
  refine ⟨scannableBodyAt_eq r, ?_⟩
  have hannounced : ¬ (r.contentLengthN ≤ 0 ∧ ¬ r.chunked = true) := by
    intro h
    rcases hbody with hlen | hchunked
    · omega
    · exact h.2 hchunked
  unfold scannableBody
  rw [if_neg hannounced]
  by_cases hnone : r.contentType = []
  · rw [if_pos hnone]
    exact iff_of_true rfl (.inl hnone)
  · rw [if_neg hnone, List.any_eq_true]
    simp only [contentTypeValueScannable_iff, hnone, false_or]

/-- A decoy in front of a type that is textual. -/
def smuggled : Request :=
  { oneBytePost with
    contentType := [⟨1, bytesOf "Content-Type", bytesOf "image/png"⟩,
      ⟨1, bytesOf "Content-Type", bytesOf "Application/Problem+JSON\t; q=1"⟩] }

theorem scannableBody_iff_smuggled :
    scannableBodyAt smuggled = .ok true
      ∧ ∃ ct ∈ smuggled.contentType, Textual ct.value := by
  have hscanned : scannableBody smuggled = true := by decide
  obtain ⟨hreads, hiff⟩ := scannableBody_iff smuggled (.inl (by decide))
  rw [hscanned] at hreads
  exact ⟨hreads, (hiff.mp hscanned).resolve_left (List.cons_ne_nil _ _)⟩

end HttpShield
