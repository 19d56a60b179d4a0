/-
  HttpShield.Lib.Json
  ───────────────────
  JSON texts and their values.

  A text is a list of code points, and so is a string value: an escape may name half of
  a surrogate pair.  The parser takes one value off the front of a text and leaves the
  rest; its fuel bounds the nesting and the number of members, and a whole text always
  has enough of it.

    • `chars_spells`      — a string, however it is spelled, is read back,
    • `value_renders`     — so is a rendered string or natural number,
    • `loads_fields`      — a text of rendered members is exactly one object, of them.
-/
import Mathlib.Data.List.Basic
import Mathlib.Data.List.TakeWhile
import Mathlib.Data.Nat.Digits.Lemmas
import Mathlib.Tactic.Common

namespace JsonText

/-! ## §1. Values and texts. -/

/-- A text: its code points. -/
abbrev Text := List Nat

/-- A JSON value.  A number is a mantissa and a power of ten, or one of the constants that
are none; an object keeps its members in order, repeated keys and all. -/
inductive Value where
  | null
  | bool (b : Bool)
  | num (mantissa exponent : Int)
  | nan
  | infinity (negative : Bool)
  | str (s : Text)
  | arr (values : List Value)
  | obj (members : List (Text × Value))

/-- White space. -/
def isSpace (c : Nat) : Bool := c == 32 || c == 9 || c == 10 || c == 13

/-- A decimal digit. -/
def isDigit (c : Nat) : Bool := 48 ≤ c && c ≤ 57

def skipSpace (t : Text) : Text := t.dropWhile isSpace

/-! ## §2. Strings. -/

/-- The value of a hexadecimal digit. -/
def hexDigit (c : Nat) : Option Nat :=
  if 48 ≤ c ∧ c ≤ 57 then some (c - 48)
  else if 97 ≤ c ∧ c ≤ 102 then some (c - 87)
  else if 65 ≤ c ∧ c ≤ 70 then some (c - 55)
  else none

/-- The value of four hexadecimal digits, and the text behind them. -/
def hex4 : Text → Option (Nat × Text)
  | a :: b :: c :: d :: rest => do
      let a ← hexDigit a
      let b ← hexDigit b
      let c ← hexDigit c
      let d ← hexDigit d
      return (((a * 16 + b) * 16 + c) * 16 + d, rest)
  | _ => none

/-- What a single character stands for behind a backslash. -/
def shortEscape (c : Nat) : Option Nat :=
  if c = 34 ∨ c = 92 ∨ c = 47 then some c
  else if c = 98 then some 8
  else if c = 102 then some 12
  else if c = 110 then some 10
  else if c = 114 then some 13
  else if c = 116 then some 9
  else none

/-- The first half of a surrogate pair, and the second. -/
def isHigh (u : Nat) : Bool := 0xD800 ≤ u && u < 0xDC00

def isLow (u : Nat) : Bool := 0xDC00 ≤ u && u < 0xE000

/-- The code unit in front of the rest, joined with the next one if they are a pair. -/
def joinPair (u : Nat) : Text → Nat × Text
  | 92 :: 117 :: rest =>
      match hex4 rest with
      | some (v, rest') =>
          if isLow v then (0x10000 + (u - 0xD800) * 0x400 + (v - 0xDC00), rest')
          else (u, 92 :: 117 :: rest)
      | none => (u, 92 :: 117 :: rest)
  | rest => (u, rest)

/-- The escape behind a backslash. -/
def escape : Text → Option (Nat × Text)
  | [] => none
  | c :: rest =>
      if c = 117 then
        match hex4 rest with
        | some (u, rest) => some (if isHigh u then joinPair u rest else (u, rest))
        | none => none
      else (shortEscape c).map fun u => (u, rest)

/-- The characters of a string, up to the closing quote. -/
def chars : Nat → Text → Option (Text × Text)
  | 0, _ => none
  | _ + 1, [] => none
  | n + 1, c :: rest =>
      if c = 34 then some ([], rest)
      else if c = 92 then do
        let (u, rest) ← escape rest
        let (s, rest) ← chars n rest
        return (u :: s, rest)
      else if c < 32 then none
      else do
        let (s, rest) ← chars n rest
        return (c :: s, rest)

/-- A string, behind its opening quote. -/
def string (t : Text) : Option (Text × Text) := chars (t.length + 1) t

/-! ## §3. Spellings of a string. -/

/-- **Spellings of a string**: each character as it is, or escaped. -/
inductive Spells : Text → Text → Prop where
  | nil : Spells [] []
  | plain {t s : Text} (c : Nat) (hctrl : 32 ≤ c) (hquote : c ≠ 34) (hback : c ≠ 92)
      (rest : Spells t s) : Spells (c :: t) (c :: s)
  | short {t s : Text} (c u : Nat) (hescape : shortEscape c = some u) (rest : Spells t s) :
      Spells (92 :: c :: t) (u :: s)
  | unicode {t s : Text} (a b c d u : Nat) (hhex : hex4 [a, b, c, d] = some (u, []))
      (hhigh : isHigh u = false) (rest : Spells t s) :
      Spells (92 :: 117 :: a :: b :: c :: d :: t) (u :: s)

theorem Spells.append {t t' s s' : Text} (h : Spells t s) (h' : Spells t' s') :
    Spells (t ++ t') (s ++ s') := by
  induction h with
  | nil => exact h'
  | plain c hctrl hquote hback rest ih => exact .plain c hctrl hquote hback ih
  | short c u hescape rest ih => exact .short c u hescape ih
  | unicode a b c d u hhex hhigh rest ih => exact .unicode a b c d u hhex hhigh ih

/-- A string of plain characters spells itself. -/
theorem spells_plain (s : Text) (h : ∀ c ∈ s, 32 ≤ c ∧ c ≠ 34 ∧ c ≠ 92) : Spells s s := by
  induction s with
  | nil => exact .nil
  | cons c s ih =>
      obtain ⟨hctrl, hquote, hback⟩ := h c List.mem_cons_self
      exact .plain c hctrl hquote hback (ih fun d hd => h d (List.mem_cons_of_mem _ hd))

/-- No spelling is shorter than the string. -/
theorem Spells.length_le {t s : Text} (h : Spells t s) : s.length ≤ t.length := by
  induction h with
  | nil => exact Nat.le_refl 0
  | plain c hctrl hquote hback rest ih =>
      rw [List.length_cons, List.length_cons]
      omega
  | short c u hescape rest ih =>
      rw [List.length_cons, List.length_cons, List.length_cons]
      omega
  | unicode a b c d u hhex hhigh rest ih =>
      simp only [List.length_cons]
      omega

theorem hex4_append {a b c d u : Nat} (h : hex4 [a, b, c, d] = some (u, [])) (rest : Text) :
    hex4 (a :: b :: c :: d :: rest) = some (u, rest) := by
  unfold hex4 at h ⊢
  cases ha : hexDigit a <;> cases hb : hexDigit b <;> cases hc : hexDigit c <;>
    cases hd : hexDigit d <;> simp_all

/-- **Every spelling is read back.** -/
theorem chars_spells {t s : Text} (h : Spells t s) (rest : Text) :
    ∀ n, s.length < n → chars n (t ++ 34 :: rest) = some (s, rest) := by
  induction h with
  | nil =>
      intro n hn
      obtain ⟨n, rfl⟩ := Nat.exists_eq_add_of_lt hn
      rfl
  | @plain t s c hctrl hquote hback _ ih =>
      intro n hn
      rw [List.length_cons] at hn
      obtain ⟨n, rfl⟩ : ∃ m, n = m + 1 := ⟨n - 1, by omega⟩
      show chars (n + 1) (c :: (t ++ 34 :: rest)) = _
      unfold chars
      rw [if_neg hquote, if_neg hback, if_neg (by omega), ih n (by omega)]
      rfl
  | @short t s c u hescape _ ih =>
      intro n hn
      rw [List.length_cons] at hn
      obtain ⟨n, rfl⟩ : ∃ m, n = m + 1 := ⟨n - 1, by omega⟩
      -- `\u` is no short escape
      have hne : c ≠ 117 := by
        intro heq
        subst heq
        cases hescape
      have hesc : escape (c :: (t ++ 34 :: rest)) = some (u, t ++ 34 :: rest) := by
        show (if c = 117 then _ else (shortEscape c).map _) = _
        rw [if_neg hne, hescape]
        rfl
      show chars (n + 1) (92 :: c :: (t ++ 34 :: rest)) = _
      unfold chars
      rw [if_neg (by decide), if_pos rfl, hesc]
      show (chars n (t ++ 34 :: rest)).bind _ = _
      rw [ih n (by omega)]
      rfl
  | @unicode t s a b c d u hhex hhigh _ ih =>
      intro n hn
      rw [List.length_cons] at hn
      obtain ⟨n, rfl⟩ : ∃ m, n = m + 1 := ⟨n - 1, by omega⟩
      have hesc : escape (117 :: a :: b :: c :: d :: (t ++ 34 :: rest))
          = some (u, t ++ 34 :: rest) := by
        unfold escape
        dsimp only
        rw [if_pos rfl, hex4_append hhex]
        dsimp only
        -- not the first half of a pair, so the next escape is not looked at
        rw [hhigh]
        rfl
      show chars (n + 1) (92 :: 117 :: a :: b :: c :: d :: (t ++ 34 :: rest)) = _
      unfold chars
      rw [if_neg (by decide), if_pos rfl, hesc]
      show (chars n (t ++ 34 :: rest)).bind _ = _
      rw [ih n (by omega)]
      rfl

theorem string_spells {t s : Text} (h : Spells t s) (rest : Text) :
    string (t ++ 34 :: rest) = some (s, rest) := by
  apply chars_spells h rest
  have := h.length_le
  rw [List.length_append]
  omega

/-! ## §4. Numbers. -/

/-- The natural number of some digits. -/
def digitsValue (ds : Text) : Nat := ds.foldl (fun n d => n * 10 + (d - 48)) 0

/-- A minus sign, if there is one. -/
def minus : Text → Bool × Text
  | [] => (false, [])
  | c :: rest => if c = 45 then (true, rest) else (false, c :: rest)

/-- The digits before the point: a zero alone, or digits that do not begin with one. -/
def intPart : Text → Option (Text × Text)
  | [] => none
  | c :: rest =>
      if c = 48 then some ([48], rest)
      else if isDigit c then some (c :: rest.takeWhile isDigit, rest.dropWhile isDigit)
      else none

/-- The digits behind the point, if there are any. -/
def fracPart : Text → Text × Text
  | [] => ([], [])
  | c :: rest =>
      if c = 46 ∧ rest.takeWhile isDigit ≠ [] then
        (rest.takeWhile isDigit, rest.dropWhile isDigit)
      else ([], c :: rest)

/-- The exponent, if there is one. -/
def expPart : Text → Int × Text
  | [] => (0, [])
  | c :: rest =>
      let (negative, ds) := match rest with
        | 43 :: ds => (false, ds)
        | ds => minus ds
      if (c = 101 ∨ c = 69) ∧ ds.takeWhile isDigit ≠ [] then
        let e : Int := digitsValue (ds.takeWhile isDigit)
        (if negative then -e else e, ds.dropWhile isDigit)
      else (0, c :: rest)

/-- A number. -/
def number (t : Text) : Option (Value × Text) := do
  let (negative, t) := minus t
  let (ds, t) ← intPart t
  let (fs, t) := fracPart t
  let (e, t) := expPart t
  let m : Int := digitsValue (ds ++ fs)
  return (.num (if negative then -m else m) (e - fs.length), t)

/-! ## §5. Natural numbers in decimal. -/

/-- A natural number in decimal. -/
def decimal (n : Nat) : Text :=
  if n = 0 then [48] else (Nat.digits 10 n).reverse.map (· + 48)

/-- What cannot go on a number. -/
def Stops (rest : Text) : Prop :=
  ∀ c r, rest = c :: r → isDigit c = false ∧ c ≠ 46 ∧ c ≠ 101 ∧ c ≠ 69 ∧ c ≠ 45

theorem stops_cons {c : Nat} (hdigit : isDigit c = false)
    (hmore : c ≠ 46 ∧ c ≠ 101 ∧ c ≠ 69 ∧ c ≠ 45) (rest : Text) : Stops (c :: rest) := by
  intro d r heq
  obtain ⟨rfl, rfl⟩ := List.cons.inj heq
  exact ⟨hdigit, hmore⟩

theorem digitsValue_append (ds : Text) (d : Nat) :
    digitsValue (ds ++ [d]) = digitsValue ds * 10 + (d - 48) := by
  unfold digitsValue
  rw [List.foldl_append]
  rfl

theorem digitsValue_reverse (L : List Nat) :
    digitsValue (L.reverse.map (· + 48)) = Nat.ofDigits 10 L := by
  induction L with
  | nil => rfl
  | cons d L ih =>
      rw [List.reverse_cons, List.map_append, List.map_singleton, digitsValue_append, ih,
        Nat.ofDigits_cons]
      omega

theorem isDigit_of_lt {d : Nat} (h : d < 10) : isDigit (d + 48) = true := by
  unfold isDigit
  simp only [Bool.and_eq_true, decide_eq_true_eq]
  omega

/-- A number other than zero begins with another digit. -/
theorem decimal_pos {n : Nat} (h : n ≠ 0) :
    ∃ c ds, decimal n = c :: ds ∧ c ≠ 48 ∧ isDigit c = true ∧ (∀ d ∈ ds, isDigit d = true)
      ∧ digitsValue (c :: ds) = n := by
  have hne : (Nat.digits 10 n).reverse ≠ [] := by
    simp [Nat.digits_ne_nil_iff_ne_zero, h]
  obtain ⟨c, ds, hcons⟩ := List.exists_cons_of_ne_nil hne
  have hdigits : ∀ d ∈ c :: ds, d < 10 := by
    intro d hd
    rw [← hcons, List.mem_reverse] at hd
    exact Nat.digits_lt_base (by omega) hd
  -- the last of the reversed digits is the first in the text
  have hhead : c ≠ 0 := by
    have hlast := Nat.getLast_digit_ne_zero 10 h
    intro hzero
    apply hlast
    rw [← List.head_reverse (by simpa using hne)]
    simp only [hcons, List.head_cons, hzero]
  refine ⟨c + 48, ds.map (· + 48), ?_, by omega, isDigit_of_lt (hdigits c List.mem_cons_self),
    ?_, ?_⟩
  · unfold decimal
    rw [if_neg h, hcons, List.map_cons]
  · intro d hd
    obtain ⟨e, he, rfl⟩ := List.mem_map.mp hd
    exact isDigit_of_lt (hdigits e (List.mem_cons_of_mem _ he))
  · show digitsValue ((c :: ds).map (· + 48)) = n
    rw [← hcons, digitsValue_reverse, Nat.ofDigits_digits]

theorem takeWhile_digits {ds rest : Text} (hds : ∀ d ∈ ds, isDigit d = true) (hrest : Stops rest) :
    (ds ++ rest).takeWhile isDigit = ds ∧ (ds ++ rest).dropWhile isDigit = rest := by
  rw [List.takeWhile_append_of_pos hds, List.dropWhile_append_of_pos hds]
  cases rest with
  | nil => exact ⟨List.append_nil ds, rfl⟩
  | cons c r =>
      have hstop : ¬ isDigit c = true := by
        rw [(hrest c r rfl).1]
        simp
      rw [List.takeWhile_cons_of_neg hstop, List.dropWhile_cons_of_neg hstop, List.append_nil]
      exact ⟨rfl, rfl⟩

theorem intPart_decimal (n : Nat) {rest : Text} (hrest : Stops rest) :
    ∃ ds, intPart (decimal n ++ rest) = some (ds, rest) ∧ digitsValue ds = n := by
  by_cases hzero : n = 0
  · subst hzero
    exact ⟨[48], rfl, rfl⟩
  · obtain ⟨c, ds, hdecimal, hhead, hdigit, hdigits, hvalue⟩ := decimal_pos hzero
    obtain ⟨htake, hdrop⟩ := takeWhile_digits hdigits hrest
    refine ⟨c :: ds, ?_, hvalue⟩
    rw [hdecimal, List.cons_append]
    unfold intPart
    dsimp only
    rw [if_neg hhead, if_pos hdigit, htake, hdrop]

theorem decimal_head (n : Nat) : ∃ c ds, decimal n = c :: ds ∧ isDigit c = true := by
  by_cases hzero : n = 0
  · exact ⟨48, [], by rw [hzero]; rfl, rfl⟩
  · obtain ⟨c, ds, hdecimal, -, hdigit, -⟩ := decimal_pos hzero
    exact ⟨c, ds, hdecimal, hdigit⟩

theorem decimal_isDigit (n : Nat) : ∀ d ∈ decimal n, isDigit d = true := by
  by_cases hzero : n = 0
  · subst hzero
    decide
  · obtain ⟨c, ds, hdecimal, -, hdigit, hdigits, -⟩ := decimal_pos hzero
    rw [hdecimal]
    intro d hd
    cases hd with
    | head => exact hdigit
    | tail _ hd => exact hdigits d hd

/-- The decimal form of a natural number is read back. -/
theorem number_decimal (n : Nat) {rest : Text} (hrest : Stops rest) :
    number (decimal n ++ rest) = some (.num n 0, rest) := by
  have hminus : minus (decimal n ++ rest) = (false, decimal n ++ rest) := by
    obtain ⟨c, ds, hdecimal, hdigit⟩ := decimal_head n
    rw [hdecimal, List.cons_append]
    unfold minus
    apply if_neg
    intro heq
    subst heq
    cases hdigit
  obtain ⟨ds, hint, hvalue⟩ := intPart_decimal n hrest
  -- what stops the digits is no point and no exponent either
  have hfrac : fracPart rest = ([], rest) := by
    cases rest with
    | nil => rfl
    | cons c r =>
        unfold fracPart
        exact if_neg fun h => (hrest c r rfl).2.1 h.1
  have hexp : expPart rest = (0, rest) := by
    cases rest with
    | nil => rfl
    | cons c r =>
        obtain ⟨-, -, he, hE, -⟩ := hrest c r rfl
        unfold expPart
        dsimp only
        exact if_neg fun h => h.1.elim he hE
  unfold number
  rw [hminus]
  simp only [hint, Option.bind_eq_bind, Option.bind_some, hfrac, hexp, List.append_nil, hvalue]
  rfl

/-! ## §6. Values. -/

/-- A literal, behind its first letter. -/
def literal (word : Text) (v : Value) (t : Text) : Option (Value × Text) :=
  if word <+: t then some (v, t.drop word.length) else none

/-- `Infinity`, behind its first letter. -/
def infinityTail : Text := [110, 102, 105, 110, 105, 116, 121]

mutual

/-- A value. -/
def value : Nat → Text → Option (Value × Text)
  | 0, _ => none
  | _ + 1, [] => none
  | n + 1, c :: rest =>
      if c = 34 then (string rest).map fun (s, rest) => (.str s, rest)
      else if c = 123 then
        match skipSpace rest with
        | 125 :: rest => some (.obj [], rest)
        | rest => (members n rest).map fun (ms, rest) => (.obj ms, rest)
      else if c = 91 then
        match skipSpace rest with
        | 93 :: rest => some (.arr [], rest)
        | rest => (elements n rest).map fun (vs, rest) => (.arr vs, rest)
      else if c = 116 then literal [114, 117, 101] (.bool true) rest
      else if c = 102 then literal [97, 108, 115, 101] (.bool false) rest
      else if c = 110 then literal [117, 108, 108] .null rest
      else if c = 78 then literal [97, 78] .nan rest
      else if c = 73 then literal infinityTail (.infinity false) rest
      else if c = 45 ∧ 73 :: infinityTail <+: rest then
        some (.infinity true, rest.drop (infinityTail.length + 1))
      else number (c :: rest)

/-- The members of an object, up to the closing brace. -/
def members : Nat → Text → Option (List (Text × Value) × Text)
  | 0, _ => none
  | _ + 1, [] => none
  | n + 1, c :: rest =>
      if c ≠ 34 then none
      else do
        let (k, rest) ← string rest
        match skipSpace rest with
        | 58 :: rest => do
            let (v, rest) ← value n (skipSpace rest)
            match skipSpace rest with
            | 125 :: rest => return ([(k, v)], rest)
            | 44 :: rest => do
                let (ms, rest) ← members n (skipSpace rest)
                return ((k, v) :: ms, rest)
            | _ => none
        | _ => none

/-- The elements of an array, up to the closing bracket. -/
def elements : Nat → Text → Option (List Value × Text)
  | 0, _ => none
  | n + 1, t => do
      let (v, rest) ← value n t
      match skipSpace rest with
      | 93 :: rest => return ([v], rest)
      | 44 :: rest => do
          let (vs, rest) ← elements n (skipSpace rest)
          return (v :: vs, rest)
      | _ => none

end

/-- **The value of a whole text**, white space around it aside. -/
def loads (t : Text) : Option Value :=
  match value (t.length + 1) (skipSpace t) with
  | some (v, rest) => if skipSpace rest = [] then some v else none
  | none => none

/-! ## §7. Rendered objects. -/

/-- A rendered string or natural number. -/
inductive Renders : Value → Text → Prop where
  | str {t s : Text} (h : Spells t s) : Renders (.str s) (34 :: (t ++ [34]))
  | nat (n : Nat) : Renders (.num n 0) (decimal n)

/-- Rendered members, with a comma between two of them. -/
inductive RendersMembers : List (Text × Value) → Text → Prop where
  | last {k v kt vt} (hkey : Spells kt k) (hvalue : Renders v vt) :
      RendersMembers [(k, v)] (34 :: (kt ++ 34 :: 58 :: vt))
  | more {k v kt vt ms t} (hkey : Spells kt k) (hvalue : Renders v vt)
      (rest : RendersMembers ms t) :
      RendersMembers ((k, v) :: ms) (34 :: (kt ++ 34 :: 58 :: (vt ++ 44 :: t)))

theorem skipSpace_cons {c : Nat} (h : isSpace c = false) (rest : Text) :
    skipSpace (c :: rest) = c :: rest :=
  List.dropWhile_cons_of_neg (by simp [h])

theorem isSpace_of_isDigit {c : Nat} (h : isDigit c = true) : isSpace c = false := by
  unfold isDigit at h
  unfold isSpace
  simp only [Bool.and_eq_true, decide_eq_true_eq] at h
  simp only [Bool.or_eq_false_iff, beq_eq_false_iff_ne]
  omega

theorem Renders.skipSpace {v : Value} {t : Text} (h : Renders v t) (rest : Text) :
    skipSpace (t ++ rest) = t ++ rest := by
  cases h with
  | str h => exact skipSpace_cons rfl _
  | nat n =>
      obtain ⟨c, ds, hdecimal, hdigit⟩ := decimal_head n
      rw [hdecimal, List.cons_append]
      exact skipSpace_cons (isSpace_of_isDigit hdigit) _

/-- **A rendered value is read back.** -/
theorem value_renders {v : Value} {t : Text} (h : Renders v t) {rest : Text} (hrest : Stops rest)
    (n : Nat) : value (n + 1) (t ++ rest) = some (v, rest) := by
  cases h with
  | @str t s h =>
      show value (n + 1) (34 :: ((t ++ [34]) ++ rest)) = _
      rw [List.append_assoc, List.singleton_append]
      unfold value
      rw [if_pos rfl, string_spells h]
      rfl
  | nat k =>
      have hnumber := number_decimal k hrest
      obtain ⟨c, ds, hdecimal, hdigit⟩ := decimal_head k
      rw [hdecimal, List.cons_append] at hnumber ⊢
      have hrange : 48 ≤ c ∧ c ≤ 57 := by
        unfold isDigit at hdigit
        simpa using hdigit
      -- a digit is none of the characters that begin another kind of value
      unfold value
      rw [if_neg (by omega), if_neg (by omega), if_neg (by omega), if_neg (by omega),
        if_neg (by omega), if_neg (by omega), if_neg (by omega), if_neg (by omega),
        if_neg (by omega)]
      exact hnumber

/-- A comma ends a number. -/
theorem stops_comma (rest : Text) : Stops (44 :: rest) :=
  stops_cons rfl (by decide) rest

theorem stops_brace (rest : Text) : Stops (125 :: rest) :=
  stops_cons rfl (by decide) rest

/-- The last member of an object is read up to the closing brace. -/
theorem members_last {k kt vt : Text} {v : Value} (hkey : Spells kt k) (hvalue : Renders v vt)
    (rest : Text) (n : Nat) :
    members (n + 2) (34 :: (kt ++ 34 :: 58 :: (vt ++ 125 :: rest))) = some ([(k, v)], rest) := by
  have hread : value (n + 1) (skipSpace (vt ++ 125 :: rest)) = some (v, 125 :: rest) := by
    rw [hvalue.skipSpace]
    exact value_renders hvalue (stops_brace rest) n
  unfold members
  rw [if_neg (by decide), string_spells hkey]
  show (value (n + 1) (skipSpace (vt ++ 125 :: rest))).bind _ = _
  rw [hread]
  rfl

/-- A member in front of others is read up to the comma, and the others behind it. -/
theorem members_more {k kt vt t rest : Text} {v : Value} {ms : List (Text × Value)}
    (hkey : Spells kt k) (hvalue : Renders v vt) (hskip : skipSpace t = t) (n : Nat)
    (hms : members (n + 1) t = some (ms, rest)) :
    members (n + 2) (34 :: (kt ++ 34 :: 58 :: (vt ++ 44 :: t))) = some ((k, v) :: ms, rest) := by
  have hread : value (n + 1) (skipSpace (vt ++ 44 :: t)) = some (v, 44 :: t) := by
    rw [hvalue.skipSpace]
    exact value_renders hvalue (stops_comma t) n
  unfold members
  rw [if_neg (by decide), string_spells hkey]
  show (value (n + 1) (skipSpace (vt ++ 44 :: t))).bind _ = _
  rw [hread]
  show (members (n + 1) (skipSpace t)).bind _ = _
  rw [hskip, hms]
  rfl

theorem RendersMembers.length_le {ms : List (Text × Value)} {t : Text}
    (h : RendersMembers ms t) : ms.length ≤ t.length := by
  induction h with
  | last hkey hvalue =>
      simp only [List.length_cons, List.length_nil]
      omega
  | more hkey hvalue rest ih =>
      simp only [List.length_cons, List.length_append]
      omega

theorem RendersMembers.skipSpace {ms : List (Text × Value)} {t : Text}
    (h : RendersMembers ms t) (rest : Text) : skipSpace (t ++ rest) = t ++ rest := by
  cases h with
  | last hkey hvalue => exact skipSpace_cons rfl _
  | more hkey hvalue _ => exact skipSpace_cons rfl _

/-- **Rendered members are read back.** -/
theorem members_renders {ms : List (Text × Value)} {t : Text} (h : RendersMembers ms t)
    (rest : Text) : ∀ n, ms.length < n → members n (t ++ 125 :: rest) = some (ms, rest) := by
  induction h with
  | @last k v kt vt hkey hvalue =>
      intro n hn
      obtain ⟨n, rfl⟩ : ∃ m, n = m + 2 := ⟨n - 2, by simp at hn; omega⟩
      have := members_last hkey hvalue rest n
      simpa only [List.cons_append, List.append_assoc] using this
  | @more k v kt vt ms t hkey hvalue hms ih =>
      intro n hn
      rw [List.length_cons] at hn
      obtain ⟨n, rfl⟩ : ∃ m, n = m + 2 := ⟨n - 2, by omega⟩
      have := members_more hkey hvalue (hms.skipSpace (125 :: rest)) n (ih (n + 1) (by omega))
      simpa only [List.cons_append, List.append_assoc] using this

/-- **A text of rendered members is one object, of these.** -/
theorem loads_fields {ms : List (Text × Value)} {t ws : Text} (h : RendersMembers ms t)
    (hws : ∀ c ∈ ws, isSpace c = true) :
    loads (123 :: (t ++ 125 :: ws)) = some (.obj ms) := by
  have hread : members (123 :: (t ++ 125 :: ws)).length (t ++ 125 :: ws) = some (ms, ws) := by
    apply members_renders h
    have := h.length_le
    rw [List.length_cons, List.length_append]
    omega
  have hvalue : value ((123 :: (t ++ 125 :: ws)).length + 1) (123 :: (t ++ 125 :: ws))
      = some (.obj ms, ws) := by
    unfold value
    rw [if_neg (by decide), if_pos rfl, h.skipSpace]
    -- the members begin with a quote, so the object is not the empty one
    cases h with
    | last hkey hvalue => exact congrArg (Option.map _) hread
    | more hkey hvalue hms => exact congrArg (Option.map _) hread
  unfold loads
  rw [skipSpace_cons rfl, hvalue]
  exact if_pos (List.dropWhile_eq_nil_iff.mpr hws)

end JsonText
