/-
  HttpShield.Request.Forwarded
  ────────────────────────────
  Which part of an `X-Forwarded-For` line is the token.

  The module scans backwards for the comma and then trims between two ends.  The grammar
  says what it has to find, as a way to cut the line in four; the reference of the fuzz
  target goes forwards instead, and finds the same.

    • `lastToken_iff`    — there is one way to cut the line,
    • `cutBlanks_eq`     — the two trims from the right start on,
    • `xffLastToken_eq`  — the backward scan finds that token,
    • `xffNaive_eq`      — and so does the forward one.
-/
import HttpShield.Request.BanKey

namespace HttpShield

/-! ## §1. The grammar. -/

/-- **The token of the line** has this offset and length.  The line is cut in four: what
ends with the last comma, blanks, the token, blanks. -/
def LastToken (value : Bytes) (off len : Nat) : Prop :=
  ∃ before lead token trail : Bytes,
    value = before ++ (lead ++ (token ++ trail))
      ∧ (before = [] ∨ ∃ b, before = b ++ [44])
      ∧ (44 : UInt8) ∉ lead ++ (token ++ trail)
      ∧ (∀ c ∈ lead, isBlank c = true) ∧ (∀ c ∈ trail, isBlank c = true)
      -- the token itself has no blank at an end, and an empty one leaves none behind it
      ∧ (∀ c, token.head? = some c → isBlank c = false)
      ∧ (∀ c, token.getLast? = some c → isBlank c = false)
      ∧ (token = [] → trail = [])
      ∧ off = (before ++ lead).length ∧ len = token.length

/-- Where the token begins: behind the blanks behind the last comma. -/
def tokenOffset (value : Bytes) : Nat :=
  value.length - ((afterLastComma value).dropWhile isBlank).length

/-- What is left after trimming does not end with what was trimmed. -/
theorem getLast?_rdropWhile {p : UInt8 → Bool} {l : Bytes} {c : UInt8}
    (h : (l.rdropWhile p).getLast? = some c) : p c = false := by
  have hstop := List.head?_dropWhile_not p l.reverse
  unfold List.rdropWhile at h
  rw [List.getLast?_reverse] at h
  rw [h] at hstop
  exact hstop

theorem head?_dropWhile {p : UInt8 → Bool} {l : Bytes} {c : UInt8}
    (h : (l.dropWhile p).head? = some c) : p c = false := by
  have hstop := List.head?_dropWhile_not p l
  rw [h] at hstop
  exact hstop

theorem afterLastComma_append {before rest : Bytes}
    (hbefore : before = [] ∨ ∃ b, before = b ++ [44]) (hrest : (44 : UInt8) ∉ rest) : afterLastComma (before ++ rest) = rest := by
  have hall : ∀ c ∈ rest.reverse, decide (c ≠ 44) = true := by
    intro c hc
    rw [decide_eq_true_eq]
    intro heq
    subst heq
    exact hrest (List.mem_reverse.mp hc)
  unfold afterLastComma List.rtakeWhile
  rw [List.reverse_append, List.takeWhile_append_of_pos hall]
  rcases hbefore with rfl | ⟨b, rfl⟩
  · simp
  · simp

/-- What stands in front of the part after the last comma ends with a comma. -/
theorem before_comma (value : Bytes) :
    ∃ before, value = before ++ afterLastComma value ∧ (before = [] ∨ ∃ b, before = b ++ [44]) := by
  refine ⟨value.rdropWhile (· ≠ 44), List.rdropWhile_append_rtakeWhile.symm, ?_⟩
  cases hlast : (value.rdropWhile (· ≠ 44)).getLast? with
  | none => exact .inl (List.getLast?_eq_none_iff.mp hlast)
  | some c =>
      obtain ⟨b, hb⟩ := List.getLast?_eq_some_iff.mp hlast
      have hcomma : c = 44 := not_not.mp (of_decide_eq_false (getLast?_rdropWhile hlast))
      exact .inr ⟨b, by rw [hb, hcomma]⟩

/-- Dropping blanks in front of a text that begins with none gives the text back. -/
theorem dropWhile_append_blanks {lead rest : Bytes} (hlead : ∀ c ∈ lead, isBlank c = true)
    (hrest : ∀ c, rest.head? = some c → isBlank c = false) :
    (lead ++ rest).dropWhile isBlank = rest := by
  rw [List.dropWhile_append_of_pos hlead]
  cases rest with
  | nil => rfl
  | cons c rest =>
      apply List.dropWhile_cons_of_neg
      rw [hrest c rfl]
      exact Bool.false_ne_true

/-- Dropping blanks behind a text that ends with none gives the text back. -/
theorem rdropWhile_append_blanks {token trail : Bytes} (htrail : ∀ c ∈ trail, isBlank c = true)
    (htoken : ∀ c, token.getLast? = some c → isBlank c = false) :
    (token ++ trail).rdropWhile isBlank = token := by
  unfold List.rdropWhile
  rw [List.reverse_append, dropWhile_append_blanks, List.reverse_reverse]
  · intro c hc
    exact htrail c (List.mem_reverse.mp hc)
  · intro c hc
    rw [List.head?_reverse] at hc
    exact htoken c hc

/-- **There is one way to cut the last token out of the line.** -/
theorem lastToken_iff (value : Bytes) (off len : Nat) :
    LastToken value off len ↔ off = tokenOffset value ∧ len = (lastElement value).length := by
  constructor
  · rintro ⟨before, lead, token, trail, rfl, hbefore, hcomma, hlead, htrail, hhead, hlast, hempty,
      rfl, rfl⟩
    have hfront : ∀ c, (token ++ trail).head? = some c → isBlank c = false := by
      cases token with
      | nil =>
          rw [hempty rfl]
          exact hhead
      | cons d token => exact hhead
    unfold tokenOffset lastElement
    rw [afterLastComma_append hbefore hcomma, dropWhile_append_blanks hlead hfront,
      rdropWhile_append_blanks htrail hlast]
    refine ⟨?_, rfl⟩
    simp only [List.length_append]
    omega
  · rintro ⟨rfl, rfl⟩
    obtain ⟨before, hvalue, hbefore⟩ := before_comma value
    have hlead : (afterLastComma value).takeWhile isBlank
        ++ (afterLastComma value).dropWhile isBlank = afterLastComma value := List.takeWhile_append_dropWhile
    have htrail : lastElement value ++ ((afterLastComma value).dropWhile isBlank).rtakeWhile isBlank
        = (afterLastComma value).dropWhile isBlank := List.rdropWhile_append_rtakeWhile
    refine ⟨before, (afterLastComma value).takeWhile isBlank, lastElement value,
      ((afterLastComma value).dropWhile isBlank).rtakeWhile isBlank, ?_, hbefore, ?_, ?_, ?_, ?_,
      fun c => getLast?_rdropWhile, ?_, ?_, rfl⟩
    · rw [htrail, hlead]
      exact hvalue
    · rw [htrail, hlead]
      intro hmem
      simpa using List.mem_rtakeWhile_imp hmem
    · intro c hc
      exact List.mem_takeWhile_imp hc
    · intro c hc
      exact List.mem_rtakeWhile_imp hc
    · intro c hc
      apply head?_dropWhile (l := afterLastComma value)
      rw [← htrail, List.head?_append, hc]
      rfl
    · -- nothing but blanks is left, so nothing at all
      intro hnone
      have hblank := List.rdropWhile_eq_nil_iff.mp hnone
      have hnil : (afterLastComma value).dropWhile isBlank = [] := by
        cases hrest : (afterLastComma value).dropWhile isBlank with
        | nil => rfl
        | cons c rest =>
            have hc := hblank c (by rw [hrest]; exact List.mem_cons_self)
            have hc' := head?_dropWhile (l := afterLastComma value) (c := c) (by rw [hrest]; rfl)
            rw [hc] at hc'
            cases hc'
      rw [hnil]
      rfl
    · have hlen := congrArg List.length hvalue
      have hlen' := congrArg List.length hlead
      rw [List.length_append] at hlen hlen'
      unfold tokenOffset
      rw [List.length_append]
      omega

/-! ## §2. Two scans. -/

/-- Both scans end alike: the blanks are cut off at the two ends. -/
def cutBlanks (value : Bytes) (start : Nat) : Except Fault (Nat × Nat) := do
  let start ← skipBlanks value start (value.length - start)
  let len ← trimBlanks value start (value.length - start)
  return (start, len)

/-- Forwards over `n` bytes, past every comma. -/
def eachComma (value : Bytes) : Nat → Nat → Nat → Except Fault Nat
  | _, segStart, 0 => .ok segStart
  | i, segStart, n + 1 => do
      let c ← byteAt value i
      eachComma value (i + 1) (if c = 44 then i + 1 else segStart) n

/-- `xff_naive`, the reference of the fuzz target: the offset and the length. -/
def xffNaive (value : Bytes) : Except Fault (Nat × Nat) := do
  let start ← eachComma value 0 0 value.length
  cutBlanks value start

/-- From the right start on, what is cut off leaves the token. -/
theorem cutBlanks_eq {value : Bytes} {start : Nat} (hstart : start ≤ value.length)
    (htext : value.drop start = afterLastComma value) :
    cutBlanks value start = .ok (tokenOffset value, (lastElement value).length) := by
  obtain ⟨off, hoff, hle, htext'⟩ :=
    @skipBlanks_returns value (value.length - start) start (by omega)
  obtain ⟨len, hlen, hle', htext''⟩ :=
    @trimBlanks_returns value off (value.length - off) (by omega)
  have hall : (value.drop off).take (value.length - off) = value.drop off := by
    apply List.take_of_length_le
    rw [List.length_drop]
  rw [htext] at htext'
  rw [hall, htext'] at htext''
  have hoff' : off = tokenOffset value := by
    unfold tokenOffset
    rw [← htext', List.length_drop]
    omega
  have hlen' : len = (lastElement value).length := by
    unfold lastElement
    rw [← htext'', ← htext', List.length_take, List.length_drop]
    omega
  unfold cutBlanks
  rw [hoff, ok_bind, hlen, ok_bind, hoff', hlen']
  rfl

/-- The backward scan gives the offset and the length of the line's last element. -/
theorem xffLastToken_eq (value : Bytes) :
    xffLastToken value = .ok (tokenOffset value, (lastElement value).length) := by
  obtain ⟨start, hstart, hle, htext⟩ := @lastComma_returns value value.length (Nat.le_refl _)
  rw [List.take_length] at htext
  rw [← cutBlanks_eq hle htext]
  unfold xffLastToken
  rw [hstart]
  rfl

/-- The forward loop keeps the part after the last comma that it has seen. -/
theorem eachComma_returns {value : Bytes} (n i segStart : Nat) (hn : i + n = value.length)
    (hle : segStart ≤ i)
    (htext : (value.take i).drop segStart = afterLastComma (value.take i)) :
    ∃ start, eachComma value i segStart n = .ok start ∧ start ≤ value.length
      ∧ value.drop start = afterLastComma value := by
  induction n generalizing i segStart with
  | zero =>
      obtain rfl : i = value.length := by omega
      rw [List.take_length] at htext
      exact ⟨segStart, rfl, hle, htext⟩
  | succ n ih =>
      have hlt : i < value.length := by omega
      unfold eachComma
      rw [byteAt_eq hlt, ok_bind]
      apply ih (i + 1) _ (by omega)
      · split
        · exact Nat.le_refl _
        · omega
      · have hlen : (value.take i).length = i := by
          rw [List.length_take]
          omega
        unfold afterLastComma at htext ⊢
        rw [List.take_succ_eq_append_getElem hlt, List.rtakeWhile_concat]
        by_cases hcomma : value[i] = 44
        · rw [if_pos hcomma, if_neg (by simp [hcomma])]
          apply List.drop_eq_nil_of_le
          simp
        · rw [if_neg hcomma, if_pos (by simp [hcomma]), List.drop_append_of_le_length (by omega),
            htext]

/-- The forward scan gives the offset and the length of the line's last element. -/
theorem xffNaive_eq (value : Bytes) :
    xffNaive value = .ok (tokenOffset value, (lastElement value).length) := by
  obtain ⟨start, hstart, hle, htext⟩ :=
    @eachComma_returns value value.length 0 0 (by omega) (Nat.le_refl _) (by simp [afterLastComma])
  unfold xffNaive
  rw [hstart, ok_bind]
  exact cutBlanks_eq hle htext

/-- **The selected token is that of the grammar**, in offset and length: a slice inside
the value, found without a read outside it, and the one that the forward scan finds. -/
theorem xffLastToken_grammar (value : Bytes) :
    ∃ off len, xffLastToken value = .ok (off, len) ∧ xffNaive value = .ok (off, len)
      ∧ off + len ≤ value.length
      ∧ ∀ off' len', LastToken value off' len' ↔ off' = off ∧ len' = len := by
  refine ⟨tokenOffset value, (lastElement value).length, xffLastToken_eq value, xffNaive_eq value,
    ?_, lastToken_iff value⟩
  have hpart : (afterLastComma value).length ≤ value.length :=
    (List.rtakeWhile_suffix _ _).length_le
  have hdrop : ((afterLastComma value).dropWhile isBlank).length ≤ (afterLastComma value).length :=
    (List.dropWhile_suffix _).length_le
  have htoken : (lastElement value).length ≤ ((afterLastComma value).dropWhile isBlank).length :=
    (List.rdropWhile_prefix _ _).length_le
  unfold tokenOffset
  omega

example : xffLastToken (bytesOf "10.0.0.1, ,	 10.0.0.2 ") = .ok (13, 8) := by decide

end HttpShield
