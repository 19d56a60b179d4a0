/-
  HttpShield.Lib.JsonDump
  ───────────────────────
  JSON texts as `json.dumps` writes them: ASCII only, with a space behind each comma and
  each colon.

  A character beyond the first plane is written as a surrogate pair, and a pair is read
  as one character.  So a string is read back as it was unless it holds the halves of a
  pair, one behind the other: those come back joined.

    • `chars_dumpChars` — what a dumped string is read as,
    • `joined_eq_iff`   — when that is the string,
    • `reads_object`    — objects of what is read back are read back.
-/
import HttpShield.Lib.JsonTree

namespace JsonText

/-! ## §1. Strings. -/

/-- A digit of `%04x`. -/
def hexChar (d : Nat) : Nat := if d < 10 then 48 + d else 87 + d

/-- A code unit, as an escape. -/
def dumpUnit (u : Nat) : Text :=
  [92, 117, hexChar (u / 4096 % 16), hexChar (u / 256 % 16), hexChar (u / 16 % 16),
    hexChar (u % 16)]

/-- A character of a string, as `json.dumps` writes it. -/
def dumpChar (c : Nat) : Text :=
  if c = 34 ∨ c = 92 then [92, c]
  else if c = 10 then [92, 110]
  else if c = 13 then [92, 114]
  else if c = 9 then [92, 116]
  else if c = 12 then [92, 102]
  else if c = 8 then [92, 98]
  else if 32 ≤ c ∧ c < 127 then [c]
  else if c < 0x10000 then dumpUnit c
  else
    dumpUnit (0xD800 + (c - 0x10000) / 0x400) ++ dumpUnit (0xDC00 + (c - 0x10000) % 0x400)

def dumpChars (s : Text) : Text := s.flatMap dumpChar

/-- A string, as `json.dumps` writes it. -/
def dumpString (s : Text) : Text := 34 :: (dumpChars s ++ [34])

/-! ## §2. Surrogate pairs. -/

/-- The string with its pairs joined. -/
def joined : Text → Text
  | [] => []
  | [c] => [c]
  | h :: l :: rest =>
      if isHigh h && isLow l then (0x10000 + (h - 0xD800) * 0x400 + (l - 0xDC00)) :: joined rest
      else h :: joined (l :: rest)

/-- No second half of a pair follows a first half in the string. -/
def Unpaired (s : Text) : Prop := s.IsChain fun h l => (isHigh h && isLow l) = false

theorem joined_of_not_high {c : Nat} (h : isHigh c = false) (s : Text) :
    joined (c :: s) = c :: joined s := by
  cases s with
  | nil => rfl
  | cons l rest =>
      rw [joined, h]
      rfl

theorem joined_length_le (s : Text) : (joined s).length ≤ s.length := by
  fun_induction joined s with
  | case1 => exact Nat.le_refl 0
  | case2 c => exact Nat.le_refl 1
  | case3 h l rest hpair ih =>
      simp only [List.length_cons]
      omega
  | case4 h l rest hpair ih =>
      simp only [List.length_cons] at ih ⊢
      omega

/-- **Joining changes a string that holds a pair**, and no other. -/
theorem joined_eq_iff (s : Text) : joined s = s ↔ Unpaired s := by
  unfold Unpaired
  fun_induction joined s with
  | case1 => exact iff_of_true rfl .nil
  | case2 c => exact iff_of_true rfl (.singleton c)
  | case3 h l rest hpair ih =>
      refine iff_of_false ?_ ?_
      · intro heq
        have hlen := congrArg List.length heq
        have hle := joined_length_le rest
        simp only [List.length_cons] at hlen
        omega
      · intro hchain
        have hfirst := (List.isChain_cons_cons.mp hchain).1
        rw [hpair] at hfirst
        cases hfirst
  | case4 h l rest hpair ih =>
      have hpair : (isHigh h && isLow l) = false := Bool.eq_false_iff.mpr hpair
      rw [List.isChain_cons_cons, ← ih]
      constructor
      · intro heq
        exact ⟨hpair, (List.cons.inj heq).2⟩
      · intro heq
        rw [heq.2]

/-- The ways a character is dumped. -/
inductive Dumped (c : Nat) : Text → Prop where
  | short (e : Nat) (hescape : shortEscape e = some c) (hlt : c < 127) : Dumped c [92, e]
  | plain (hlow : 32 ≤ c) (hhigh : c < 127) (hquote : c ≠ 34) (hback : c ≠ 92) : Dumped c [c]
  | unit (hlt : c < 0x10000) (hlarge : c < 32 ∨ 127 ≤ c) : Dumped c (dumpUnit c)
  | pair (hle : 0x10000 ≤ c) :
      Dumped c (dumpUnit (0xD800 + (c - 0x10000) / 0x400)
        ++ dumpUnit (0xDC00 + (c - 0x10000) % 0x400))

theorem dumpChar_dumped (c : Nat) : Dumped c (dumpChar c) := by
  unfold dumpChar
  split_ifs with hquote hn hr ht hf hb hplain hplane
  · refine .short c ?_ (by omega)
    unfold shortEscape
    rw [if_pos (by omega)]
  · exact .short 110 (by subst hn; rfl) (by omega)
  · exact .short 114 (by subst hr; rfl) (by omega)
  · exact .short 116 (by subst ht; rfl) (by omega)
  · exact .short 102 (by subst hf; rfl) (by omega)
  · exact .short 98 (by subst hb; rfl) (by omega)
  · exact .plain hplain.1 hplain.2 (by omega) (by omega)
  · exact .unit hplane (by omega)
  · exact .pair (by omega)

/-- A code point outside of the range of first halves is no first half. -/
theorem isHigh_eq_false {c : Nat} (h : c < 0xD800 ∨ 0xDC00 ≤ c) : isHigh c = false := by
  unfold isHigh
  simp only [Bool.and_eq_false_iff, decide_eq_false_iff_not]
  omega

theorem isLow_eq_false {c : Nat} (h : c < 0xDC00 ∨ 0xE000 ≤ c) : isLow c = false := by
  unfold isLow
  simp only [Bool.and_eq_false_iff, decide_eq_false_iff_not]
  omega

theorem isLow_range {c : Nat} (h : isLow c = true) : 0xDC00 ≤ c ∧ c < 0xE000 := by
  unfold isLow at h
  simpa using h

/-! ## §3. Escapes are read back. -/

theorem hexDigit_hexChar : ∀ d < 16, hexDigit (hexChar d) = some d := by
  decide

/-- The four digits of an escaped unit read as the unit. -/
theorem hex4_dumpUnit {u : Nat} (h : u < 0x10000) (rest : Text) :
    hex4 (hexChar (u / 4096 % 16) :: hexChar (u / 256 % 16) :: hexChar (u / 16 % 16)
      :: hexChar (u % 16) :: rest) = some (u, rest) := by
  unfold hex4
  dsimp only
  rw [hexDigit_hexChar _ (Nat.mod_lt (u / 4096) (by omega)),
    hexDigit_hexChar _ (Nat.mod_lt (u / 256) (by omega)),
    hexDigit_hexChar _ (Nat.mod_lt (u / 16) (by omega)),
    hexDigit_hexChar _ (Nat.mod_lt u (by omega))]
  have hvalue : ((u / 4096 % 16 * 16 + u / 256 % 16) * 16 + u / 16 % 16) * 16 + u % 16 = u := by
    omega
  show some (((u / 4096 % 16 * 16 + u / 256 % 16) * 16 + u / 16 % 16) * 16 + u % 16, rest) = _
  rw [hvalue]

/-- An escaped unit, read behind the backslash. -/
theorem escape_dumpUnit {u : Nat} (h : u < 0x10000) (rest : Text) :
    escape ((dumpUnit u).tail ++ rest)
      = some (if isHigh u then joinPair u rest else (u, rest)) := by
  show escape (117 :: (hexChar (u / 4096 % 16) :: hexChar (u / 256 % 16)
    :: hexChar (u / 16 % 16) :: hexChar (u % 16) :: rest)) = _
  unfold escape
  dsimp only
  rw [if_pos rfl, hex4_dumpUnit h]

/-- A second half that follows the first half `u` joins it to one code point. -/
theorem joinPair_low (u : Nat) {l : Nat} (hlow : isLow l = true) (hlt : l < 0x10000)
    (rest : Text) :
    joinPair u (dumpUnit l ++ rest)
      = (0x10000 + (u - 0xD800) * 0x400 + (l - 0xDC00), rest) := by
  show joinPair u (92 :: 117 :: (hexChar (l / 4096 % 16) :: hexChar (l / 256 % 16)
    :: hexChar (l / 16 % 16) :: hexChar (l % 16) :: rest)) = _
  simp only [joinPair, hex4_dumpUnit hlt, hlow]
  rfl

/-- An escaped unit that is no second half leaves the unit in front of it alone. -/
theorem joinPair_unit (u : Nat) {l : Nat} (hlow : isLow l = false) (hlt : l < 0x10000)
    (rest : Text) : joinPair u (dumpUnit l ++ rest) = (u, dumpUnit l ++ rest) := by
  show joinPair u (92 :: 117 :: (hexChar (l / 4096 % 16) :: hexChar (l / 256 % 16)
    :: hexChar (l / 16 % 16) :: hexChar (l % 16) :: rest)) = _
  simp only [joinPair, hex4_dumpUnit hlt, hlow]
  rfl

/-- A text that begins with no escaped unit leaves the unit in front of it alone. -/
theorem joinPair_other (u : Nat) {t : Text} (h : ∀ rest, t ≠ 92 :: 117 :: rest) :
    joinPair u t = (u, t) := by
  unfold joinPair
  split
  · rename_i rest
    exact absurd rfl (h rest)
  · rfl

/-- **What follows a first half in a dumped string**, unless it is a second one, is left
alone. -/
theorem joinPair_dumpChars (u : Nat) (s rest : Text) (hunit : ∀ c ∈ s, c < 0x110000)
    (hlow : ∀ l s', s = l :: s' → isLow l = false) :
    joinPair u (dumpChars s ++ 34 :: rest) = (u, dumpChars s ++ 34 :: rest) := by
  cases s with
  | nil =>
      apply joinPair_other
      intro t heq
      cases heq
  | cons l s =>
      have hl := hlow l s rfl
      have hlt := hunit l List.mem_cons_self
      have hdumped := dumpChar_dumped l
      show joinPair u ((dumpChar l ++ dumpChars s) ++ 34 :: rest)
        = (u, (dumpChar l ++ dumpChars s) ++ 34 :: rest)
      rw [List.append_assoc]
      generalize dumpChar l = t at hdumped ⊢
      cases hdumped with
      | short e hescape hlt =>
          apply joinPair_other
          intro r heq
          obtain rfl : e = 117 := by simpa using congrArg (fun t => t.getD 1 0) heq
          cases hescape
      | plain hmin hmax hquote hback =>
          apply joinPair_other
          intro r heq
          exact hback (List.cons.inj heq).1
      | unit hlt hlarge => exact joinPair_unit u hl hlt _
      | pair hle =>
          -- a character beyond the first plane begins with another first half
          rw [List.append_assoc]
          exact joinPair_unit u (isLow_eq_false (by omega)) (by omega) _

/-! ## §4. Strings are read back. -/

/-- One escape in front of the rest of a string reads as one character more. -/
theorem chars_escape {t rest s r : Text} {c n : Nat} (hescape : escape t = some (c, rest))
    (hrest : chars n rest = some (s, r)) : chars (n + 1) (92 :: t) = some (c :: s, r) := by
  unfold chars
  rw [if_neg (by decide), if_pos rfl, hescape]
  show (chars n rest).bind _ = _
  rw [hrest]
  rfl

/-- A short escape reads as the character that it stands for. -/
theorem escape_short {e c : Nat} (h : shortEscape e = some c) (rest : Text) :
    escape (e :: rest) = some (c, rest) := by
  have hne : e ≠ 117 := by
    intro heq
    subst heq
    cases h
  unfold escape
  dsimp only
  rw [if_neg hne, h]
  rfl

/-- **A dumped string is read as itself, with its pairs joined.** -/
theorem chars_dumpChars (s : Text) (hunit : ∀ c ∈ s, c < 0x110000) (rest : Text) :
    ∀ n, s.length < n → chars n (dumpChars s ++ 34 :: rest) = some (joined s, rest) := by
  induction hlen : s.length using Nat.strong_induction_on generalizing s with
  | _ len ih =>
      intro n hn
      subst hlen
      obtain ⟨n, rfl⟩ : ∃ m, n = m + 1 := ⟨n - 1, by omega⟩
      cases s with
      | nil => rfl
      | cons c s =>
          have hc := hunit c List.mem_cons_self
          have hs : ∀ d ∈ s, d < 0x110000 := fun d hd => hunit d (List.mem_cons_of_mem _ hd)
          rw [List.length_cons] at hn
          have hrest := ih s.length (by simp) s hs rfl n (by omega)
          show chars (n + 1) ((dumpChar c ++ dumpChars s) ++ 34 :: rest) = _
          rw [List.append_assoc]
          have hdumped := dumpChar_dumped c
          generalize dumpChar c = t at hdumped ⊢
          cases hdumped with
          | short e hescape hlt =>
              rw [joined_of_not_high (isHigh_eq_false (by omega))]
              exact chars_escape (escape_short hescape _) hrest
          | plain hmin hmax hquote hback =>
              rw [joined_of_not_high (isHigh_eq_false (by omega))]
              show chars (n + 1) (c :: (dumpChars s ++ 34 :: rest)) = _
              unfold chars
              rw [if_neg hquote, if_neg hback, if_neg (by omega), hrest]
              rfl
          | pair hle =>
              -- both halves are read, and give the character again
              have hescape := escape_dumpUnit (u := 0xD800 + (c - 0x10000) / 0x400) (by omega)
                (dumpUnit (0xDC00 + (c - 0x10000) % 0x400) ++ (dumpChars s ++ 34 :: rest))
              have hhigh : isHigh (0xD800 + (c - 0x10000) / 0x400) = true := by
                unfold isHigh
                simp only [Bool.and_eq_true, decide_eq_true_eq]
                omega
              have hlow : isLow (0xDC00 + (c - 0x10000) % 0x400) = true := by
                unfold isLow
                simp only [Bool.and_eq_true, decide_eq_true_eq]
                omega
              have hsame : 0x10000 + (0xD800 + (c - 0x10000) / 0x400 - 0xD800) * 0x400
                  + (0xDC00 + (c - 0x10000) % 0x400 - 0xDC00) = c := by
                omega
              rw [if_pos hhigh, joinPair_low _ hlow (by omega), hsame] at hescape
              rw [joined_of_not_high (isHigh_eq_false (by omega)), List.append_assoc]
              exact chars_escape hescape hrest
          | unit hlt hlarge =>
              have hescape := escape_dumpUnit hlt (dumpChars s ++ 34 :: rest)
              by_cases hhigh : isHigh c = true
              · rw [if_pos hhigh] at hescape
                by_cases hnext : ∃ l s', s = l :: s' ∧ isLow l = true
                · -- a pair, although in two characters: read as one
                  obtain ⟨l, s', rfl, hlow⟩ := hnext
                  obtain ⟨hmin, hmax⟩ := isLow_range hlow
                  have hsecond : dumpChars (l :: s') = dumpUnit l ++ dumpChars s' := by
                    show dumpChar l ++ dumpChars s' = _
                    unfold dumpChar
                    rw [if_neg (by omega), if_neg (by omega), if_neg (by omega), if_neg (by omega),
                      if_neg (by omega), if_neg (by omega), if_neg (by omega), if_pos (by omega)]
                  have hs' : ∀ d ∈ s', d < 0x110000 := fun d hd => hs d (List.mem_cons_of_mem _ hd)
                  rw [List.length_cons] at hn
                  have hrest' := ih s'.length (by simp) s' hs' rfl n (by omega)
                  rw [hsecond, List.append_assoc] at hescape ⊢
                  rw [joinPair_low c hlow (by omega)] at hescape
                  have hjoined : joined (c :: l :: s')
                      = (0x10000 + (c - 0xD800) * 0x400 + (l - 0xDC00)) :: joined s' := by
                    rw [joined, if_pos (by simp [hhigh, hlow])]
                  rw [hjoined]
                  exact chars_escape hescape hrest'
                · rw [joinPair_dumpChars c s rest hs (by
                    intro l s' hcons
                    exact Bool.eq_false_iff.mpr fun hlow => hnext ⟨l, s', hcons, hlow⟩)] at hescape
                  have hjoined : joined (c :: s) = c :: joined s := by
                    cases s with
                    | nil => rfl
                    | cons l s' =>
                        have hlow : ¬ isLow l = true := fun hlow => hnext ⟨l, s', rfl, hlow⟩
                        rw [joined, if_neg (by simp [hlow])]
                  rw [hjoined]
                  exact chars_escape hescape hrest
              · rw [if_neg hhigh] at hescape
                rw [joined_of_not_high (Bool.eq_false_iff.mpr hhigh)]
                exact chars_escape hescape hrest

theorem dumpChars_length_le (s : Text) : s.length ≤ (dumpChars s).length := by
  induction s with
  | nil => exact Nat.le_refl 0
  | cons c s ih =>
      have hdumped := dumpChar_dumped c
      have hone : 1 ≤ (dumpChar c).length := by
        generalize dumpChar c = t at hdumped ⊢
        cases hdumped with
        | short e hescape hlt => exact Nat.le_add_left 1 1
        | plain hlow hhigh hquote hback => exact Nat.le_refl 1
        | unit hlt hlarge => exact Nat.le_add_left 1 5
        | pair hle => exact Nat.le_add_left 1 11
      show s.length + 1 ≤ (dumpChar c ++ dumpChars s).length
      rw [List.length_append]
      omega

/-- A dumped string, behind its opening quote, is read back with its pairs joined. -/
theorem string_dumpChars (s : Text) (hunit : ∀ c ∈ s, c < 0x110000) (rest : Text) :
    string (dumpChars s ++ 34 :: rest) = some (joined s, rest) := by
  apply chars_dumpChars s hunit rest
  have := dumpChars_length_le s
  rw [List.length_append]
  omega

/-! ## §5. Values. -/

theorem reads_string (s : Text) (hunit : ∀ c ∈ s, c < 0x110000) :
    Reads (.str (joined s)) (dumpString s) where
  head := ⟨34, _, rfl, rfl, by decide⟩
  value := by
    intro rest n _ hn
    obtain ⟨n, rfl⟩ : ∃ m, n = m + 1 := ⟨n - 1, by omega⟩
    show value (n + 1) (34 :: ((dumpChars s ++ [34]) ++ rest)) = _
    rw [List.append_assoc, List.singleton_append]
    unfold value
    rw [if_pos rfl, string_dumpChars s hunit]
    rfl

/-- An integer, as `json.dumps` writes it. -/
def dumpInt : Int → Text
  | .ofNat n => decimal n
  | .negSucc n => 45 :: decimal (n + 1)

theorem isDigit_range {c : Nat} (h : isDigit c = true) : 48 ≤ c ∧ c ≤ 57 := by
  unfold isDigit at h
  simpa using h

/-- A digit is none of the characters that begin another kind of value. -/
theorem value_digit {c : Nat} (h : isDigit c = true) (t : Text) (n : Nat) :
    value (n + 1) (c :: t) = number (c :: t) := by
  obtain ⟨hmin, hmax⟩ := isDigit_range h
  unfold value
  rw [if_neg (by omega), if_neg (by omega), if_neg (by omega), if_neg (by omega),
    if_neg (by omega), if_neg (by omega), if_neg (by omega), if_neg (by omega),
    if_neg (by omega)]

/-- A minus sign in front of a number negates its mantissa. -/
theorem number_minus {c : Nat} {t rest : Text} {m e : Int} (hc : c ≠ 45)
    (h : number (c :: t) = some (.num m e, rest)) :
    number (45 :: c :: t) = some (.num (-m) e, rest) := by
  have hplus : minus (c :: t) = (false, c :: t) := if_neg hc
  have hminus : minus (45 :: c :: t) = (true, c :: t) := rfl
  unfold number at h ⊢
  rw [hplus] at h
  rw [hminus]
  cases hint : intPart (c :: t) with
  | none => simp [hint] at h
  | some p =>
      simp only [hint, Option.bind_eq_bind, Option.bind_some, Option.pure_def] at h ⊢
      cases h
      rfl

/-- The text of a number reads as the negative one behind a minus sign. -/
theorem Reads.minus {m e : Int} {t : Text} (h : Reads (.num m e) t)
    (hdigit : ∃ c t', t = c :: t' ∧ isDigit c = true) : Reads (.num (-m) e) (45 :: t) where
  head := ⟨45, t, rfl, rfl, by decide⟩
  value := by
    intro rest n hrest hn
    obtain ⟨c, t', rfl, hc⟩ := hdigit
    obtain ⟨hmin, hmax⟩ := isDigit_range hc
    obtain ⟨n, rfl⟩ : ∃ k, n = k + 1 := ⟨n - 1, by omega⟩
    have hread := h.value rest (n + 1) hrest (Nat.lt_of_succ_lt hn)
    rw [List.cons_append, value_digit hc] at hread
    -- behind the sign stands a digit, and not `Infinity`
    have hinfinity : ¬ 73 :: infinityTail <+: c :: (t' ++ rest) := by
      intro hprefix
      obtain ⟨r, hr⟩ := hprefix
      obtain rfl : 73 = c := (List.cons.inj hr).1
      omega
    show JsonText.value (n + 1) (45 :: (c :: (t' ++ rest))) = _
    unfold JsonText.value
    rw [if_neg (by decide), if_neg (by decide), if_neg (by decide), if_neg (by decide),
      if_neg (by decide), if_neg (by decide), if_neg (by decide), if_neg (by decide),
      if_neg fun h => hinfinity h.2]
    exact number_minus (by omega) hread

theorem reads_int : ∀ n : Int, Reads (.num n 0) (dumpInt n)
  | .ofNat n => (Written.nat n).reads
  | .negSucc n => (Written.nat (n + 1)).reads.minus (decimal_head (n + 1))

/-- A decimal with a fraction reads as all its digits, scaled by the length of the fraction. -/
theorem reads_fraction (n : Nat) {c : Nat} {fs : Text} (hfs : ∀ d ∈ c :: fs, isDigit d = true) :
    ∃ ds, digitsValue ds = n
      ∧ Reads (.num (digitsValue (ds ++ c :: fs)) (-((c :: fs).length : Int)))
        (decimal n ++ 46 :: c :: fs) := by
  -- The whole part is a single zero, or begins with another digit.
  obtain ⟨ds, hint, hvalue⟩ : ∃ ds, (∀ t, (∀ d r, t = d :: r → isDigit d = false) →
      intPart (decimal n ++ t) = some (ds, t)) ∧ digitsValue ds = n := by
    by_cases hzero : n = 0
    · subst hzero
      exact ⟨[48], fun _ _ => rfl, rfl⟩
    · obtain ⟨c, ds, hdecimal, hhead, hdigit, hdigits, hvalue⟩ := decimal_pos hzero
      refine ⟨c :: ds, ?_, hvalue⟩
      intro t ht
      rw [hdecimal, List.cons_append]
      unfold intPart
      dsimp only
      rw [if_neg hhead, if_pos hdigit, List.takeWhile_append_of_pos hdigits,
        List.dropWhile_append_of_pos hdigits]
      cases t with
      | nil => rw [List.takeWhile_nil, List.dropWhile_nil, List.append_nil]
      | cons d r =>
          have hstop : ¬ isDigit d = true := Bool.eq_false_iff.mp (ht d r rfl)
          rw [List.takeWhile_cons_of_neg hstop, List.dropWhile_cons_of_neg hstop, List.append_nil]
  refine ⟨ds, hvalue, ?_⟩
  obtain ⟨h, hs, hdecimal, hdigit⟩ := decimal_head n
  obtain ⟨hmin, hmax⟩ := isDigit_range hdigit
  refine ⟨⟨h, hs ++ 46 :: c :: fs, by rw [hdecimal]; rfl, isSpace_of_isDigit hdigit, by omega⟩, ?_⟩
  intro rest k hrest hk
  obtain ⟨k, rfl⟩ : ∃ m, k = m + 1 := ⟨k - 1, by omega⟩
  -- The reader finds no sign, the whole part, the point with its digits, and no exponent.
  have hnumber : number (decimal n ++ 46 :: (c :: fs ++ rest))
      = some (.num (digitsValue (ds ++ c :: fs)) (-((c :: fs).length : Int)), rest) := by
    have hminus : minus (decimal n ++ 46 :: (c :: fs ++ rest))
        = (false, decimal n ++ 46 :: (c :: fs ++ rest)) := by
      rw [hdecimal]
      exact if_neg (by omega)
    have hpoint := hint (46 :: (c :: fs ++ rest)) fun d r heq => by
      rw [← (List.cons.inj heq).1]
      rfl
    obtain ⟨htake, hdrop⟩ := takeWhile_digits hfs hrest
    have hfrac : fracPart (46 :: (c :: fs ++ rest)) = (c :: fs, rest) := by
      show (if 46 = 46 ∧ (c :: fs ++ rest).takeWhile isDigit ≠ [] then
        ((c :: fs ++ rest).takeWhile isDigit, (c :: fs ++ rest).dropWhile isDigit) else _) = _
      rw [htake, hdrop]
      exact if_pos ⟨rfl, by simp⟩
    have hexp : expPart rest = (0, rest) := by
      cases rest with
      | nil => rfl
      | cons d r =>
          obtain ⟨-, -, he, hE, -⟩ := hrest d r rfl
          unfold expPart
          dsimp only
          exact if_neg fun h => h.1.elim he hE
    unfold number
    rw [hminus]
    simp only [hpoint, Option.bind_eq_bind, Option.bind_some, hfrac, hexp, Int.zero_sub]
    rfl
  have htext : (decimal n ++ 46 :: c :: fs) ++ rest = decimal n ++ 46 :: (c :: fs ++ rest) := by
    rw [List.append_assoc]
    rfl
  rw [htext]
  rw [hdecimal, List.cons_append] at hnumber ⊢
  rw [value_digit hdigit]
  exact hnumber

theorem reads_null : Reads .null [110, 117, 108, 108] where
  head := ⟨110, _, rfl, rfl, by decide⟩
  value := by
    intro rest n _ hn
    obtain ⟨n, rfl⟩ : ∃ m, n = m + 1 := ⟨n - 1, by omega⟩
    rfl

/-! ## §6. Objects. -/

/-- Members, by their keys and the texts of their values. -/
def dumpMembers : List (Text × Text) → Text
  | [] => []
  | [m] => dumpString m.1 ++ 58 :: 32 :: m.2
  | m :: m' :: ms => dumpString m.1 ++ 58 :: 32 :: m.2 ++ 44 :: 32 :: dumpMembers (m' :: ms)

/-- An object, as `json.dumps` writes it. -/
def dumpObject (ms : List (Text × Text)) : Text := 123 :: (dumpMembers ms ++ [125])

/-- A member of an object: its key, its value, and how the value is dumped. -/
structure Field where
  key : Text
  value : Value
  text : Text

/-- The text of a member reads as its value, and its key survives the dump. -/
structure Field.Dumps (m : Field) : Prop where
  units : ∀ c ∈ m.key, c < 0x110000
  unpaired : Unpaired m.key
  value : Reads m.value m.text

theorem Reads.space {v : Value} {t : Text} (h : Reads v t) (rest : Text) :
    JsonText.skipSpace (32 :: (t ++ rest)) = t ++ rest := by
  show JsonText.skipSpace (t ++ rest) = t ++ rest
  exact h.skipSpace rest

theorem Field.Dumps.key_read {m : Field} (h : m.Dumps) (rest : Text) :
    string (dumpChars m.key ++ 34 :: rest) = some (m.key, rest) := by
  rw [string_dumpChars m.key h.units, (joined_eq_iff m.key).mpr h.unpaired]

/-- A dump of members begins with the quote of the first key. -/
theorem dumpMembers_head (m : Text × Text) (ms : List (Text × Text)) :
    ∃ t, dumpMembers (m :: ms) = 34 :: t := by
  cases ms with
  | nil => exact ⟨_, rfl⟩
  | cons m' ms => exact ⟨_, rfl⟩

/-- **Members are read back**, up to the closing brace. -/
theorem members_dumpMembers (ms : List Field) (hne : ms ≠ []) (hms : ∀ m ∈ ms, m.Dumps)
    (rest : Text) :
    ∀ n, (dumpMembers (ms.map fun m => (m.key, m.text))).length < n →
      members n (dumpMembers (ms.map fun m => (m.key, m.text)) ++ 125 :: rest)
        = some (ms.map fun m => (m.key, m.value), rest) := by
  induction ms with
  | nil => exact absurd rfl hne
  | cons m ms ih =>
      intro n hn
      have hm := hms m List.mem_cons_self
      obtain ⟨n, rfl⟩ : ∃ k, n = k + 1 := ⟨n - 1, by omega⟩
      -- The last member ends at the brace, the others at a comma and a
      -- space, which is skipped.
      cases ms with
      | nil =>
          have hlen : m.text.length < n := by
            simp [dumpMembers, dumpString] at hn
            omega
          have htext : dumpMembers [(m.key, m.text)] ++ 125 :: rest
              = 34 :: (dumpChars m.key ++ 34 :: (58 :: 32 :: (m.text ++ 125 :: rest))) := by
            simp [dumpMembers, dumpString]
          show members (n + 1) (dumpMembers [(m.key, m.text)] ++ 125 :: rest) = _
          rw [htext]
          unfold members
          rw [if_neg (by decide), hm.key_read]
          show (value n (skipSpace (32 :: (m.text ++ 125 :: rest)))).bind _ = _
          rw [hm.value.space, hm.value.value _ n (stops_brace rest) hlen]
          rfl
      | cons m' ms =>
          have hmore : dumpMembers ((m :: m' :: ms).map fun m => (m.key, m.text))
              = dumpString m.key ++ 58 :: 32 :: m.text
                ++ 44 :: 32 :: dumpMembers ((m' :: ms).map fun m => (m.key, m.text)) := rfl
          rw [hmore] at hn ⊢
          have hlens : m.text.length < n
              ∧ (dumpMembers ((m' :: ms).map fun m => (m.key, m.text))).length < n := by
            simp only [dumpString, List.length_append, List.length_cons] at hn
            omega
          have hrest := ih (by simp) (fun k hk => hms k (List.mem_cons_of_mem _ hk)) n hlens.2
          obtain ⟨t, ht⟩ := dumpMembers_head (m'.key, m'.text) (ms.map fun m => (m.key, m.text))
          have hnext : dumpMembers ((m' :: ms).map fun m => (m.key, m.text)) = 34 :: t := ht
          have htext : dumpString m.key ++ 58 :: 32 :: m.text
                ++ 44 :: 32 :: dumpMembers ((m' :: ms).map fun m => (m.key, m.text)) ++ 125 :: rest
              = 34 :: (dumpChars m.key ++ 34 :: (58 :: 32 :: (m.text ++ 44 :: (32 ::
                (dumpMembers ((m' :: ms).map fun m => (m.key, m.text)) ++ 125 :: rest))))) := by
            simp [dumpString]
          rw [htext]
          unfold members
          rw [if_neg (by decide), hm.key_read]
          show (value n (skipSpace (32 :: (m.text ++ 44 :: _)))).bind _ = _
          rw [hm.value.space, hm.value.value _ n (stops_comma _) hlens.1]
          show (members n (skipSpace (32 :: (dumpMembers ((m' :: ms).map fun m => (m.key, m.text))
            ++ 125 :: rest)))).bind _ = _
          have hskip : skipSpace (32 :: (dumpMembers ((m' :: ms).map fun m => (m.key, m.text))
                ++ 125 :: rest))
              = dumpMembers ((m' :: ms).map fun m => (m.key, m.text)) ++ 125 :: rest := by
            rw [hnext]
            rfl
          rw [hskip, hrest]
          rfl

/-- **Objects are read back.** -/
theorem reads_object (ms : List Field) (hms : ∀ m ∈ ms, m.Dumps) :
    Reads (.obj (ms.map fun m => (m.key, m.value)))
      (dumpObject (ms.map fun m => (m.key, m.text))) where
  head := ⟨123, _, rfl, rfl, by decide⟩
  value := by
    intro rest n _ hn
    unfold dumpObject at hn ⊢
    rw [List.length_cons, List.length_append, List.length_singleton] at hn
    obtain ⟨n, rfl⟩ : ∃ k, n = k + 1 := ⟨n - 1, by omega⟩
    rw [List.cons_append, List.append_assoc, List.singleton_append]
    unfold value
    rw [if_neg (by decide), if_pos rfl]
    cases ms with
    | nil => rfl
    | cons m ms =>
        have hread := members_dumpMembers (m :: ms) (by simp) hms rest n (by omega)
        obtain ⟨t, ht⟩ := dumpMembers_head (m.key, m.text) (ms.map fun m => (m.key, m.text))
        have ht : dumpMembers ((m :: ms).map fun m => (m.key, m.text)) = 34 :: t := ht
        rw [ht, List.cons_append] at hread ⊢
        rw [skipSpace_cons rfl]
        exact congrArg (Option.map _) hread

/-- A text that reads as a value loads as that value. -/
theorem Reads.loads {v : Value} {t : Text} (h : Reads v t) : JsonText.loads t = some v := by
  have hskip := h.skipSpace []
  have hread := h.value [] (t.length + 1) (by
    intro c r heq
    cases heq) (by omega)
  rw [List.append_nil] at hskip hread
  unfold JsonText.loads
  rw [hskip, hread]
  rfl

end JsonText
