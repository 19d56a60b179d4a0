/-
  HttpShield.Lib.JsonTorn
  ───────────────────────
  What may be read in a log of JSON objects whose records were written short.

  The text is made of the beginnings of objects, one behind the other.  A beginning may end
  anywhere: in a string, in an escape, where a value should follow, or behind the closing
  brace.  And the text may be read from anywhere to anywhere.  What is in the strings is
  anything, an object that was put there included.

    • `members_torn`  — members that are torn are not read, whatever follows them,
    • `object_within` — an object that begins in a string has no members,
    • `scraps_loads`  — so one that has any is one of the objects, whole.
-/
import HttpShield.Lib.JsonDump

namespace JsonText

/-! ## §1. Scraps. -/

/-- A character that follows neither a key nor a value. -/
structure Blocks (c : Nat) : Prop where
  space : isSpace c = false
  colon : c ≠ 58
  comma : c ≠ 44
  brace : c ≠ 125

/-- Rendered members, whose keys begin with such a character and hold no brace. -/
inductive Fields : List (Text × Value) → Text → Prop where
  | last {k c kt v vt} (hkey : Spells (c :: kt) k) (hc : Blocks c) (hplain : 123 ∉ c :: kt)
      (hvalue : Renders v vt) : Fields [(k, v)] (34 :: ((c :: kt) ++ 34 :: 58 :: vt))
  | more {k c kt v vt ms t} (hkey : Spells (c :: kt) k) (hc : Blocks c) (hplain : 123 ∉ c :: kt)
      (hvalue : Renders v vt) (rest : Fields ms t) :
      Fields ((k, v) :: ms) (34 :: ((c :: kt) ++ 34 :: 58 :: (vt ++ 44 :: t)))

/-- An object of such members, from brace to brace. -/
def Flat (o : Text) : Prop := ∃ ms t, Fields ms t ∧ o = 123 :: (t ++ [125])

/-- **Scraps** of objects: the beginnings of some, one behind the other. -/
inductive Scraps (O : Text → Prop) : Text → Prop where
  | nil : Scraps O []
  | cons {o p t : Text} (ho : O o) (hp : p <+: o) (ht : Scraps O t) : Scraps O (p ++ t)

theorem Scraps.mono {O O' : Text → Prop} (hO : ∀ o, O o → O' o) {t : Text} (h : Scraps O t) :
    Scraps O' t := by
  induction h with
  | nil => exact .nil
  | cons ho hp _ ih => exact .cons (hO _ ho) hp ih

theorem Scraps.append {O : Text → Prop} {t t' : Text} (h : Scraps O t) (h' : Scraps O t') :
    Scraps O (t ++ t') := by
  induction h with
  | nil => exact h'
  | cons ho hp _ ih =>
      rw [List.append_assoc]
      exact .cons ho hp ih

/-- The text is empty, or begins with a character that blocks the reader. -/
def Blocked (rest : Text) : Prop := rest = [] ∨ ∃ c r, rest = c :: r ∧ Blocks c

theorem blocks_brace : Blocks 123 := ⟨rfl, by decide, by decide, by decide⟩

theorem blocks_digit {c : Nat} (h : isDigit c = true) : Blocks c := by
  obtain ⟨hmin, hmax⟩ := isDigit_range h
  exact ⟨isSpace_of_isDigit h, by omega, by omega, by omega⟩

theorem Blocked.skipSpace {rest : Text} (h : Blocked rest) : skipSpace rest = rest := by
  rcases h with rfl | ⟨c, r, rfl, hc⟩
  · rfl
  · exact skipSpace_cons hc.space r

theorem Fields.renders {ms : List (Text × Value)} {t : Text} (h : Fields ms t) :
    RendersMembers ms t := by
  induction h with
  | last hkey hc hplain hvalue => exact .last hkey hvalue
  | more hkey hc hplain hvalue rest ih => exact .more hkey hvalue ih

/-- Members begin with a quote, and not with one that ends a string in front of something
that can be there. -/
theorem Fields.head {ms : List (Text × Value)} {t : Text} (h : Fields ms t) :
    ∃ c r, t = 34 :: c :: r ∧ Blocks c := by
  cases h with
  | @last k c kt v vt hkey hc hplain hvalue => exact ⟨c, kt ++ 34 :: 58 :: vt, rfl, hc⟩
  | @more k c kt v vt ms t hkey hc hplain hvalue rest =>
      exact ⟨c, kt ++ 34 :: 58 :: (vt ++ 44 :: t), rfl, hc⟩

/-- A prefix of a text in two parts ends in the first one or in the second. -/
theorem prefix_append_cases {q a b : Text} (h : q <+: a ++ b) :
    q <+: a ∨ ∃ q', q = a ++ q' ∧ q' <+: b := by
  rcases List.prefix_or_prefix_of_prefix h (List.prefix_append a b) with hqa | ⟨q', rfl⟩
  · exact .inl hqa
  · exact .inr ⟨q', rfl, (List.prefix_append_right_inj a).mp h⟩

/-- A suffix begins in the first one or in the second. -/
theorem suffix_append_cases {q a b : Text} (h : q <:+ a ++ b) :
    q <:+ b ∨ ∃ q', q = q' ++ b ∧ q' <:+ a := by
  rcases List.suffix_or_suffix_of_suffix h (List.suffix_append a b) with hqb | ⟨q', rfl⟩
  · exact .inl hqb
  · exact .inr ⟨q', rfl, ((List.suffix_append_inj_of_length_eq rfl).mp h).1⟩

/-- A character of it is in the first one or in the second. -/
theorem append_eq_cons_cases {l₁ l₂ a b : Text} {c : Nat} (h : l₁ ++ l₂ = a ++ c :: b) :
    (∃ m, l₁ = a ++ c :: m ∧ b = m ++ l₂) ∨ ∃ a', a = l₁ ++ a' ∧ l₂ = a' ++ c :: b := by
  rcases List.append_eq_append_iff.mp h with ⟨a', rfl, hl₂⟩ | ⟨m, hl₁, hb⟩
  · exact .inr ⟨a', rfl, hl₂⟩
  · cases m with
    | nil =>
        refine .inr ⟨[], ?_, hb.symm⟩
        rw [hl₁, List.append_nil, List.append_nil]
    | cons d m =>
        obtain ⟨rfl, rfl⟩ := List.cons.inj hb
        exact .inl ⟨m, hl₁, rfl⟩

/-- **What may follow a beginning**: nothing, or a text that begins with a brace, ends a
string it is taken into the middle of in front of something that cannot be there, and
leaves nothing good where it is taken for a value. -/
structure Follows (y : Text) : Prop where
  head : y = [] ∨ ∃ r, y = 123 :: r
  closes : ∀ n s rest, chars n y = some (s, rest) → Blocked rest
  value : ∀ n v rest, y.length < n → JsonText.value n y = some (v, rest) → Blocked rest

theorem Follows.blocked {y : Text} (h : Follows y) : Blocked y := by
  rcases h.head with rfl | ⟨r, rfl⟩
  · exact .inl rfl
  · exact .inr ⟨123, r, rfl, blocks_brace⟩

theorem Follows.stops {y : Text} (h : Follows y) : Stops y := by
  rcases h.head with rfl | ⟨r, rfl⟩
  · intro c r heq
    cases heq
  · exact stops_cons rfl (by decide) r

/-! ## §2. Torn strings and numbers. -/

section Torn

variable {y : Text}

/-- A character that is read in front of the rest. -/
theorem chars_cons_some {n c : Nat} {t s rest : Text} (hquote : c ≠ 34) (hback : c ≠ 92)
    (h : chars (n + 1) (c :: t) = some (s, rest)) : ∃ s', chars n t = some (s', rest) := by
  unfold chars at h
  rw [if_neg hquote, if_neg hback] at h
  split_ifs at h with hctrl
  obtain ⟨⟨s', rest'⟩, hread, heq⟩ := Option.bind_eq_some_iff.mp h
  cases heq
  exact ⟨s', hread⟩

/-- A string that is read from an escape on has a valid escape, and is read on behind it. -/
theorem chars_escape_some {n : Nat} {t s rest : Text}
    (h : chars (n + 1) (92 :: t) = some (s, rest)) :
    ∃ u t' s', escape t = some (u, t') ∧ chars n t' = some (s', rest) := by
  unfold chars at h
  rw [if_neg (by decide), if_pos rfl] at h
  obtain ⟨⟨u, t'⟩, hescape, h⟩ := Option.bind_eq_some_iff.mp h
  obtain ⟨⟨s', rest'⟩, hread, heq⟩ := Option.bind_eq_some_iff.mp h
  cases heq
  exact ⟨u, t', s', hescape, hread⟩

/-- The end of the text is no escape, and neither are a brace and what is behind it. -/
theorem escape_torn (hy : Follows y) : escape y = none := by
  rcases hy.head with rfl | ⟨r, rfl⟩
  · rfl
  · rfl

/-- An escape `\u` whose four digits are torn off is not read. -/
theorem escape_hex_torn (hy : Follows y) (a b c : Nat) :
    escape (117 :: y) = none ∧ escape (117 :: a :: y) = none
      ∧ escape (117 :: a :: b :: y) = none ∧ escape (117 :: a :: b :: c :: y) = none := by
  have hbrace : hexDigit 123 = none := rfl
  rcases hy.head with rfl | ⟨r, rfl⟩
  · exact ⟨rfl, rfl, rfl, rfl⟩
  · refine ⟨?_, ?_, ?_, ?_⟩
    · rcases r with _ | ⟨x, _ | ⟨x', _ | ⟨x'', r⟩⟩⟩ <;> simp [escape, hex4, hbrace]
    · rcases r with _ | ⟨x, _ | ⟨x', r⟩⟩ <;> cases hexDigit a <;> simp [escape, hex4, hbrace]
    · rcases r with _ | ⟨x, r⟩ <;> cases hexDigit a <;> cases hexDigit b <;>
        simp [escape, hex4, hbrace]
    · cases ha : hexDigit a <;> cases hb : hexDigit b <;> cases hc : hexDigit c <;>
        simp [escape, hex4, hbrace, ha, hb, hc]

/-- **A torn string** ends in front of something that cannot be there. -/
theorem chars_torn (hy : Follows y) {kt k : Text} (h : Spells kt k) :
    ∀ q, q <+: kt → ∀ n s rest, chars n (q ++ y) = some (s, rest) → Blocked rest := by
  induction h with
  | nil =>
      intro q hq n s rest hread
      rw [List.prefix_nil.mp hq] at hread
      exact hy.closes n s rest hread
  | @plain t s₀ c hctrl hquote hback _ ih =>
      intro q hq n s rest hread
      rcases List.prefix_cons_iff.mp hq with rfl | ⟨q, rfl, hq₁⟩
      · exact hy.closes n s rest hread
      · cases n with
        | zero => cases hread
        | succ n =>
            obtain ⟨s', hread⟩ := chars_cons_some hquote hback hread
            exact ih q hq₁ n s' rest hread
  | @short t s₀ c u hescape _ ih =>
      intro q hq n s rest hread
      rcases List.prefix_cons_iff.mp hq with rfl | ⟨q, rfl, hq₁⟩
      · exact hy.closes n s rest hread
      · cases n with
        | zero => cases hread
        | succ n =>
            obtain ⟨u', t', s', hesc, hread⟩ := chars_escape_some hread
            rcases List.prefix_cons_iff.mp hq₁ with rfl | ⟨q, rfl, hq₂⟩
            · cases (escape_torn hy).symm.trans hesc
            · cases (escape_short hescape (q ++ y)).symm.trans hesc
              exact ih q hq₂ n s' rest hread
  | @unicode t s₀ a b c d u hhex hhigh _ ih =>
      intro q hq n s rest hread
      rcases List.prefix_cons_iff.mp hq with rfl | ⟨q, rfl, hq₁⟩
      · exact hy.closes n s rest hread
      · cases n with
        | zero => cases hread
        | succ n =>
            obtain ⟨u', t', s', hesc, hread⟩ := chars_escape_some hread
            obtain ⟨h0, h1, h2, h3⟩ := escape_hex_torn hy a b c
            -- the escape is cut off somewhere, or it is whole
            rcases List.prefix_cons_iff.mp hq₁ with rfl | ⟨q, rfl, hq₂⟩
            · cases (escape_torn hy).symm.trans hesc
            rcases List.prefix_cons_iff.mp hq₂ with rfl | ⟨q, rfl, hq₃⟩
            · cases h0.symm.trans hesc
            rcases List.prefix_cons_iff.mp hq₃ with rfl | ⟨q, rfl, hq₄⟩
            · cases h1.symm.trans hesc
            rcases List.prefix_cons_iff.mp hq₄ with rfl | ⟨q, rfl, hq₅⟩
            · cases h2.symm.trans hesc
            rcases List.prefix_cons_iff.mp hq₅ with rfl | ⟨q, rfl, hq₆⟩
            · cases h3.symm.trans hesc
            · have hwhole : escape (117 :: a :: b :: c :: d :: (q ++ y)) = some (u, q ++ y) := by
                unfold escape
                dsimp only
                rw [if_pos rfl, hex4_append hhex]
                dsimp only
                rw [hhigh]
                rfl
              cases hwhole.symm.trans hesc
              exact ih q hq₆ n s' rest hread

/-! ## §3. Torn numbers. -/

/-- The text begins with nothing that continues a number: no point and no exponent. -/
def Ended (rest : Text) : Prop := ∀ d r, rest = d :: r → d ≠ 46 ∧ d ≠ 101 ∧ d ≠ 69

theorem Follows.ended (h : Follows y) : Ended y := by
  intro d r heq
  obtain ⟨-, hpoint, he, hE, -⟩ := h.stops d r heq
  exact ⟨hpoint, he, hE⟩

/-- A number whose whole part is followed by no fraction and no exponent ends with that part. -/
theorem number_ended {c : Nat} {t is rest rest' : Text} {v : Value} (hc : c ≠ 45)
    (hint : intPart (c :: t) = some (is, rest)) (hrest : Ended rest)
    (h : number (c :: t) = some (v, rest')) : rest' = rest := by
  have hminus : minus (c :: t) = (false, c :: t) := if_neg hc
  have hfrac : fracPart rest = ([], rest) := by
    cases rest with
    | nil => rfl
    | cons d r => exact if_neg fun h => (hrest d r rfl).1 h.1
  have hexp : expPart rest = (0, rest) := by
    cases rest with
    | nil => rfl
    | cons d r =>
        obtain ⟨-, he, hE⟩ := hrest d r rfl
        unfold expPart
        dsimp only
        exact if_neg fun h => h.1.elim he hE
  unfold number at h
  rw [hminus] at h
  simp only [hint, Option.bind_eq_bind, Option.bind_some, hfrac, hexp] at h
  cases h
  rfl

/-- **A torn number** leaves a digit, or what follows. -/
theorem number_torn (hy : Follows y) {c : Nat} {q : Text} (hc : isDigit c = true)
    (hq : ∀ d ∈ q, isDigit d = true) {v : Value} {rest : Text}
    (h : number (c :: (q ++ y)) = some (v, rest)) : Blocked rest := by
  have hrange := isDigit_range hc
  by_cases hzero : c = 48
  · -- a zero is alone
    have hint : intPart (c :: (q ++ y)) = some ([48], q ++ y) := if_pos hzero
    cases q with
    | nil =>
        rw [number_ended (by omega) hint hy.ended h]
        exact hy.blocked
    | cons d q =>
        have hd := hq d List.mem_cons_self
        have hended : Ended ((d :: q) ++ y) := by
          intro d' r heq
          obtain ⟨rfl, -⟩ := List.cons.inj heq
          have hdrange := isDigit_range hd
          omega
        rw [number_ended (by omega) hint hended h]
        exact .inr ⟨d, q ++ y, rfl, blocks_digit hd⟩
  · obtain ⟨htake, hdrop⟩ := takeWhile_digits hq hy.stops
    have hint : intPart (c :: (q ++ y)) = some (c :: q, y) := by
      unfold intPart
      dsimp only
      rw [if_neg hzero, if_pos hc, htake, hdrop]
    rw [number_ended (by omega) hint hy.ended h]
    exact hy.blocked

/-- **A torn value** leaves nothing that can be there. -/
theorem value_torn (hy : Follows y) {v : Value} {vt : Text} (h : Renders v vt) {q : Text}
    (hq : q <+: vt) {n : Nat} (hn : (q ++ y).length < n) {w : Value} {rest : Text}
    (hread : value n (q ++ y) = some (w, rest)) : Blocked rest := by
  cases q with
  | nil => exact hy.value n w rest hn hread
  | cons c q =>
      obtain ⟨n, rfl⟩ : ∃ m, n = m + 1 := ⟨n - 1, by omega⟩
      cases h with
      | @str t s hspells =>
          obtain ⟨rfl, hq₁⟩ := List.cons_prefix_cons.mp hq
          rw [List.cons_append] at hread
          unfold value at hread
          rw [if_pos rfl] at hread
          obtain ⟨⟨s', rest'⟩, hstring, heq⟩ := Option.map_eq_some_iff.mp hread
          cases heq
          rcases prefix_append_cases hq₁ with hinside | ⟨q', rfl, hq₂⟩
          · exact chars_torn hy hspells q hinside _ s' _ hstring
          · rcases List.prefix_cons_iff.mp hq₂ with rfl | ⟨q'', rfl, hnil⟩
            · rw [List.append_nil] at hstring
              exact chars_torn hy hspells t List.prefix_rfl _ s' _ hstring
            · -- the string is whole
              rw [List.prefix_nil.mp hnil, List.append_assoc] at hstring
              cases (string_spells hspells y).symm.trans hstring
              exact hy.blocked
      | nat k =>
          have hdigits : ∀ d ∈ c :: q, isDigit d = true :=
            fun d hd => decimal_isDigit k d (hq.subset hd)
          have hc := hdigits c List.mem_cons_self
          rw [List.cons_append, value_digit hc] at hread
          exact number_torn hy hc (fun d hd => hdigits d (List.mem_cons_of_mem c hd)) hread

/-! ## §4. Torn members.

A reader that is inside of an object when the text tears off finds a brace where it
looks for a comma or a quote, or nothing at all; so it reads no members. -/

/-- Members whose first key is followed by a blocking character are not read. -/
theorem members_of_blocked {n : Nat} {t : Text}
    (h : ∀ k rest, string t = some (k, rest) → Blocked rest) :
    members (n + 1) (34 :: t) = none := by
  unfold members
  rw [if_neg (by decide)]
  cases hstring : string t with
  | none => rfl
  | some read =>
      obtain ⟨k, rest⟩ := read
      have hblocked := h k rest hstring
      simp only [Option.bind_eq_bind, Option.bind_some, hblocked.skipSpace]
      rcases hblocked with rfl | ⟨c, r, rfl, hc⟩
      · rfl
      · split
        · rename_i heq
          cases heq
          exact absurd rfl hc.colon
        · rfl

/-- Members are not read where neither a comma nor a brace follows the first value. -/
theorem members_value_blocked {n : Nat} {kt k t : Text} (hkey : Spells kt k)
    (hskip : skipSpace t = t) (h : ∀ v rest, value n t = some (v, rest) → Blocked rest) :
    members (n + 1) (34 :: (kt ++ 34 :: 58 :: t)) = none := by
  unfold members
  rw [if_neg (by decide), string_spells hkey]
  show (value n (skipSpace t)).bind _ = _
  rw [hskip]
  cases hvalue : value n t with
  | none => rfl
  | some read =>
      obtain ⟨v, rest⟩ := read
      have hblocked := h v rest hvalue
      simp only [Option.bind_eq_bind, Option.bind_some, hblocked.skipSpace]
      rcases hblocked with rfl | ⟨c, r, rfl, hc⟩
      · rfl
      · split
        · rename_i heq
          cases heq
          exact absurd rfl hc.brace
        · rename_i heq
          cases heq
          exact absurd rfl hc.comma
        · rfl

/-- Members are not read where those behind the first one are not. -/
theorem members_more_none {n : Nat} {kt k vt t : Text} {v : Value} (hkey : Spells kt k)
    (hvalue : Renders v vt) (hskip : skipSpace t = t) (h : members (n + 1) t = none) :
    members (n + 2) (34 :: (kt ++ 34 :: 58 :: (vt ++ 44 :: t))) = none := by
  have hread : value (n + 1) (skipSpace (vt ++ 44 :: t)) = some (v, 44 :: t) := by
    rw [hvalue.skipSpace]
    exact value_renders hvalue (stops_comma t) n
  unfold members
  rw [if_neg (by decide), string_spells hkey]
  show (value (n + 1) (skipSpace (vt ++ 44 :: t))).bind _ = _
  rw [hread]
  show (members (n + 1) (skipSpace t)).bind _ = _
  rw [hskip, h]
  rfl

/-- A text that does not begin with a quote reads as no members. -/
theorem members_not_quote {c : Nat} (hc : c ≠ 34) (t : Text) (n : Nat) :
    members n (c :: t) = none := by
  cases n with
  | zero => rfl
  | succ n =>
      unfold members
      exact if_pos hc

theorem members_of_follows (hy : Follows y) (n : Nat) : members n y = none := by
  rcases hy.head with rfl | ⟨r, rfl⟩
  · cases n with
    | zero => rfl
    | succ n => rfl
  · exact members_not_quote (by decide) r n

/-- A beginning of a value is not in white space. -/
theorem Renders.skipSpace_front (hy : Follows y) {v : Value} {vt q : Text} (h : Renders v vt)
    (hq : q <+: vt) : JsonText.skipSpace (q ++ y) = q ++ y := by
  cases q with
  | nil => exact hy.blocked.skipSpace
  | cons c q =>
      cases h with
      | str h =>
          obtain ⟨rfl, -⟩ := List.cons_prefix_cons.mp hq
          exact skipSpace_cons rfl _
      | nat k =>
          have hdigit := decimal_isDigit k c (hq.subset List.mem_cons_self)
          exact skipSpace_cons (isSpace_of_isDigit hdigit) _

/-- A beginning of rendered members, and what may follow it, has no white space in front. -/
theorem Fields.skipSpace_front (hy : Follows y) {ms : List (Text × Value)} {t q : Text}
    (h : Fields ms t) (hq : q <+: t) : JsonText.skipSpace (q ++ y) = q ++ y := by
  obtain ⟨c, r, rfl, -⟩ := h.head
  rcases List.prefix_cons_iff.mp hq with rfl | ⟨q, rfl, -⟩
  · exact hy.blocked.skipSpace
  · exact skipSpace_cons rfl _

/-- A member that ends before its value does, or with it. -/
theorem members_torn_first (hy : Follows y) {kt k vt q : Text} {v : Value} (hkey : Spells kt k)
    (hvalue : Renders v vt) (hq : q <+: kt ++ 34 :: 58 :: vt) {n : Nat}
    (hn : (q ++ y).length ≤ n) : members (n + 1) (34 :: (q ++ y)) = none := by
  have hinKey : q <+: kt → members (n + 1) (34 :: (q ++ y)) = none := by
    intro hq
    exact members_of_blocked fun s rest hread => chars_torn hy hkey q hq _ s rest hread
  rcases prefix_append_cases hq with hinside | ⟨q, rfl, hq₁⟩
  · exact hinKey hinside
  rcases List.prefix_cons_iff.mp hq₁ with rfl | ⟨q, rfl, hq₂⟩
  · apply hinKey
    rw [List.append_nil]
  rcases List.prefix_cons_iff.mp hq₂ with rfl | ⟨q, rfl, hq₃⟩
  · -- behind the quote that ends the key
    apply members_of_blocked
    intro s rest hread
    rw [List.append_assoc] at hread
    cases (string_spells hkey y).symm.trans hread
    exact hy.blocked
  · rw [List.append_assoc] at hn ⊢
    apply members_value_blocked hkey (hvalue.skipSpace_front hy hq₃)
    intro w rest hread
    refine value_torn hy hvalue hq₃ ?_ hread
    rw [List.length_append, List.length_append] at hn
    rw [List.length_append]
    simp only [List.length_cons] at hn
    omega

/-- **Torn members are not read**, whatever follows them. -/
theorem members_torn (hy : Follows y) {ms : List (Text × Value)} {t : Text} (h : Fields ms t) :
    ∀ q, q <+: t → ∀ n, (q ++ y).length ≤ n → members n (q ++ y) = none := by
  induction h with
  | @last k c kt v vt hkey hc hplain hvalue =>
      intro q hq n hn
      rcases List.prefix_cons_iff.mp hq with rfl | ⟨q, rfl, hq₁⟩
      · exact members_of_follows hy n
      · rw [List.cons_append, List.length_cons] at hn
        obtain ⟨n, rfl⟩ : ∃ m, n = m + 1 := ⟨n - 1, by omega⟩
        exact members_torn_first hy hkey hvalue hq₁ (by omega)
  | @more k c kt v vt ms t hkey hc hplain hvalue hrest ih =>
      intro q hq n hn
      rcases List.prefix_cons_iff.mp hq with rfl | ⟨q, rfl, hq₁⟩
      · exact members_of_follows hy n
      · rw [List.cons_append, List.length_cons] at hn
        obtain ⟨n, rfl⟩ : ∃ m, n = m + 1 := ⟨n - 1, by omega⟩
        have hsplit : (c :: kt) ++ 34 :: 58 :: (vt ++ 44 :: t)
            = ((c :: kt) ++ 34 :: 58 :: vt) ++ 44 :: t := by
          simp only [List.append_assoc, List.cons_append]
        rw [hsplit] at hq₁
        have hfirst : q <+: (c :: kt) ++ 34 :: 58 :: vt →
            members (n + 1) (34 :: (q ++ y)) = none := by
          intro hq
          exact members_torn_first hy hkey hvalue hq (by omega)
        rcases prefix_append_cases hq₁ with hinside | ⟨q, rfl, hq₂⟩
        · exact hfirst hinside
        rcases List.prefix_cons_iff.mp hq₂ with rfl | ⟨q, rfl, hq₃⟩
        · apply hfirst
          rw [List.append_nil]
        · -- the comma is there, so the next member is begun
          have htail : (q ++ y).length + 3 ≤ n := by
            simp only [List.length_append, List.length_cons] at hn ⊢
            omega
          obtain ⟨n, rfl⟩ : ∃ m, n = m + 1 := ⟨n - 1, by omega⟩
          have hnone := members_more_none hkey hvalue (hrest.skipSpace_front hy hq₃)
            (ih q hq₃ (n + 1) (by omega))
          simp only [List.append_assoc, List.cons_append] at hnone ⊢
          exact hnone

/-! ## §5. Torn objects. -/

/-- A text behind a brace that is not the closing one reads as an object
of the members in it. -/
theorem value_brace {c : Nat} (hspace : isSpace c = false) (hbrace : c ≠ 125) (t : Text) (n : Nat) :
    value (n + 1) (123 :: c :: t)
      = (members n (c :: t)).map fun (ms, rest) => (.obj ms, rest) := by
  unfold value
  rw [if_neg (by decide), if_pos rfl, skipSpace_cons hspace]
  dsimp only
  split
  · rename_i heq
    exact absurd (List.cons.inj heq).1 hbrace
  · rfl

/-- White space behind the brace is skipped. -/
theorem value_brace_space {c : Nat} (hspace : isSpace c = true) (t : Text) (n : Nat) :
    value (n + 1) (123 :: c :: t) = value (n + 1) (123 :: t) := by
  unfold value
  rw [if_neg (by decide), if_pos rfl, if_neg (by decide), if_pos rfl]
  unfold skipSpace
  rw [List.dropWhile_cons_of_pos hspace]

/-- A brace with something behind it that may follow a beginning reads as no value. -/
theorem value_brace_follows (hy : Follows y) (n : Nat) : value (n + 1) (123 :: y) = none := by
  rcases hy.head with rfl | ⟨r, rfl⟩
  · cases n with
    | zero => rfl
    | succ n => rfl
  · rw [value_brace rfl (by decide), members_not_quote (by decide)]
    rfl

/-- **A beginning of an object is no value**, unless it is the whole object. -/
theorem value_piece (hy : Follows y) {o p : Text} (ho : Flat o) (hp : p <+: o) (hne : p ≠ [])
    {n : Nat} (hn : (p ++ y).length < n) {v : Value} {rest : Text}
    (hread : value n (p ++ y) = some (v, rest)) : p = o ∧ rest = y := by
  obtain ⟨ms, t, hms, rfl⟩ := ho
  obtain ⟨n, rfl⟩ : ∃ m, n = m + 1 := ⟨n - 1, by omega⟩
  rcases List.prefix_cons_iff.mp hp with rfl | ⟨q, rfl, hq⟩
  · exact absurd rfl hne
  rw [List.cons_append] at hread
  rw [List.cons_append, List.length_cons] at hn
  -- behind the brace are the members, or what follows the beginning
  have htorn : q <+: t → (123 : Nat) :: q = 123 :: (t ++ [125]) ∧ rest = y := by
    intro hq
    exfalso
    have hnone := members_torn hy hms q hq n (by omega)
    obtain ⟨c, r, rfl, -⟩ := hms.head
    rcases List.prefix_cons_iff.mp hq with rfl | ⟨q', rfl, -⟩
    · rw [List.nil_append, value_brace_follows hy] at hread
      cases hread
    · rw [List.cons_append] at hread hnone
      rw [value_brace rfl (by decide), hnone] at hread
      cases hread
  rcases prefix_append_cases hq with hinside | ⟨q', rfl, hq'⟩
  · exact htorn hinside
  rcases List.prefix_cons_iff.mp hq' with rfl | ⟨q'', rfl, hnil⟩
  · apply htorn
    rw [List.append_nil]
  · -- the object is whole
    obtain rfl := List.prefix_nil.mp hnil
    refine ⟨rfl, ?_⟩
    rw [List.append_assoc, List.singleton_append] at hread hn
    have hlength := hms.renders.length_le
    rw [List.length_append] at hn
    have hmembers := members_renders hms.renders y n (by omega)
    obtain ⟨c, r, rfl, -⟩ := hms.head
    rw [List.cons_append] at hread hmembers
    rw [value_brace rfl (by decide), hmembers] at hread
    cases hread
    rfl

/-- A text that may follow a beginning may do so with another beginning in front of it. -/
theorem Follows.piece (hy : Follows y) {o p : Text} (ho : Flat o) (hp : p <+: o) :
    Follows (p ++ y) := by
  cases p with
  | nil => exact hy
  | cons d q =>
      have hvalue : ∀ n v rest, ((d :: q) ++ y).length < n →
          JsonText.value n ((d :: q) ++ y) = some (v, rest) → Blocked rest := by
        intro n v rest hn hread
        obtain ⟨-, rfl⟩ := value_piece hy ho hp (List.cons_ne_nil d q) hn hread
        exact hy.blocked
      obtain ⟨ms, t, hms, rfl⟩ := ho
      obtain ⟨c, r, rfl, hc⟩ := hms.head
      obtain ⟨rfl, hq⟩ := List.cons_prefix_cons.mp hp
      refine ⟨.inr ⟨q ++ y, rfl⟩, ?_, hvalue⟩
      intro n s rest hread
      cases n with
      | zero => cases hread
      | succ n =>
          obtain ⟨s', hread⟩ := chars_cons_some (by decide) (by decide) hread
          rcases List.prefix_cons_iff.mp hq with rfl | ⟨q', rfl, hq'⟩
          · exact hy.closes n s' rest hread
          · -- the quote of the first key ends the string
            cases n with
            | zero => cases hread
            | succ n =>
                cases hread
                rcases List.prefix_cons_iff.mp hq' with rfl | ⟨q'', rfl, -⟩
                · exact hy.blocked
                · exact .inr ⟨c, q'' ++ y, rfl, hc⟩

theorem follows_nil : Follows [] where
  head := .inl rfl
  closes := by
    intro n s rest hread
    cases n with
    | zero => cases hread
    | succ n => cases hread
  value := by
    intro n v rest _ hread
    cases n with
    | zero => cases hread
    | succ n => cases hread

/-- Scraps of objects may follow the beginning of an object. -/
theorem Scraps.follows {O : Text → Prop} (hO : ∀ o, O o → Flat o) {t : Text} (h : Scraps O t) :
    Follows t := by
  induction h with
  | nil => exact follows_nil
  | cons ho hp ht ih => exact ih.piece (hO _ ho) hp

/-! ## §6. Objects in strings. -/

/-- A string is spelled behind a brace, which is in no escape. -/
theorem Spells.brace {t s : Text} (h : Spells t s) :
    ∀ a b, t = a ++ 123 :: b → ∃ s', Spells b s' := by
  induction h with
  | nil =>
      intro a b heq
      cases a with
      | nil => cases heq
      | cons x a => cases heq
  | @plain t s c hctrl hquote hback hrest ih =>
      intro a b heq
      cases a with
      | nil =>
          obtain ⟨-, rfl⟩ := List.cons.inj heq
          exact ⟨s, hrest⟩
      | cons x a => exact ih a b (List.cons.inj heq).2
  | @short t s c u hescape hrest ih =>
      intro a b heq
      rcases a with _ | ⟨x, _ | ⟨x', a⟩⟩
      · cases heq
      · obtain ⟨rfl, -⟩ := List.cons.inj (List.cons.inj heq).2
        cases hescape
      · exact ih a b (List.cons.inj (List.cons.inj heq).2).2
  | @unicode t s d₁ d₂ d₃ d₄ u hhex hhigh hrest ih =>
      intro a b heq
      have hbrace : hexDigit 123 = none := rfl
      -- A brace among the four digits of an escape would make it invalid.
      rcases a with _ | ⟨x, _ | ⟨x₁, _ | ⟨x₂, _ | ⟨x₃, _ | ⟨x₄, _ | ⟨x₅, a⟩⟩⟩⟩⟩⟩
      · cases heq
      · cases heq
      · cases heq
        simp [hex4, hbrace] at hhex
      · cases heq
        cases h₁ : hexDigit d₁ <;> simp [hex4, hbrace, h₁] at hhex
      · cases heq
        cases h₁ : hexDigit d₁ <;> cases h₂ : hexDigit d₂ <;> simp [hex4, hbrace, h₁, h₂] at hhex
      · cases heq
        cases h₁ : hexDigit d₁ <;> cases h₂ : hexDigit d₂ <;> cases h₃ : hexDigit d₃ <;>
          simp [hex4, hbrace, h₁, h₂, h₃] at hhex
      · simp only [List.cons_append, List.cons.injEq] at heq
        exact ih a b heq.2.2.2.2.2.2

/-- What may be behind the quote that ends a string in an object: nothing of the members,
or the next ones. -/
def Resumes (z : Text) : Prop := z = [] ∨ ∃ c r, z = 44 :: 34 :: c :: r ∧ Blocks c

/-- **A brace in members is in one of their strings.** -/
theorem Fields.brace {ms : List (Text × Value)} {t : Text} (h : Fields ms t) :
    ∀ a b, t = a ++ 123 :: b → ∃ w s z, Spells w s ∧ Resumes z ∧ b = w ++ 34 :: z := by
  -- A key is plain and a number has no brace, so a brace is in a string value.
  have hkeys : ∀ {c : Nat} {kt rest a b : Text}, 123 ∉ c :: kt →
      34 :: ((c :: kt) ++ 34 :: 58 :: rest) = a ++ 123 :: b → ∃ a', rest = a' ++ 123 :: b := by
    intro c kt rest a b hplain heq
    have hsplit : 34 :: ((c :: kt) ++ 34 :: 58 :: rest)
        = (34 :: ((c :: kt) ++ [34, 58])) ++ rest := by
      simp only [List.cons_append, List.append_assoc, List.nil_append]
    rcases append_eq_cons_cases (hsplit.symm.trans heq) with ⟨m, hm, -⟩ | ⟨a', -, hrest⟩
    · exfalso
      have hmem : 123 ∈ (34 : Nat) :: ((c :: kt) ++ [34, 58]) := by
        rw [hm]
        exact List.mem_append_right a List.mem_cons_self
      rcases List.mem_cons.mp hmem with heq | hmem
      · cases heq
      rcases List.mem_append.mp hmem with hmem | hmem
      · exact hplain hmem
      · exact absurd hmem (by decide)
    · exact ⟨a', hrest⟩
  have hvalues : ∀ {v : Value} {vt a b : Text}, Renders v vt → vt = a ++ 123 :: b →
      ∃ w s, Spells w s ∧ b = w ++ [34] := by
    intro v vt a b hvalue heq
    cases hvalue with
    | @str t s hspells =>
        have hsplit : 34 :: (t ++ [34]) = (34 :: t) ++ [34] := rfl
        rcases append_eq_cons_cases (hsplit.symm.trans heq) with ⟨m, hm, hb⟩ | ⟨a', -, hend⟩
        · cases a with
          | nil => cases hm
          | cons x a =>
              obtain ⟨s', hs'⟩ := hspells.brace a m (List.cons.inj hm).2
              exact ⟨m, s', hs', hb⟩
        · rcases a' with _ | ⟨x, _ | ⟨x', a'⟩⟩
          · cases hend
          · cases hend
          · cases hend
    | nat k =>
        have hdigit := decimal_isDigit k 123 (by
          rw [heq]
          exact List.mem_append_right a List.mem_cons_self)
        cases hdigit
  induction h with
  | last hkey hc hplain hvalue =>
      intro a b heq
      obtain ⟨a', hrest⟩ := hkeys hplain heq
      obtain ⟨w, s, hw, hb⟩ := hvalues hvalue hrest
      exact ⟨w, s, [], hw, .inl rfl, hb⟩
  | more hkey hc hplain hvalue rest ih =>
      intro a b heq
      obtain ⟨a', hrest⟩ := hkeys hplain heq
      rcases append_eq_cons_cases hrest with ⟨m, hm, hb⟩ | ⟨a'', -, htail⟩
      · obtain ⟨w, s, hw, rfl⟩ := hvalues hvalue hm
        obtain ⟨c, r, rfl, hc⟩ := rest.head
        refine ⟨w, s, 44 :: 34 :: c :: r, hw, .inr ⟨c, r, rfl, hc⟩, ?_⟩
        rw [hb, List.append_assoc, List.singleton_append]
      · cases a'' with
        | nil => cases htail
        | cons x a'' => exact ih a'' b (List.cons.inj htail).2

/-- No members are read behind the quote that ends a string in an object. -/
theorem members_resumed (hy : Follows y) {z q : Text} (hz : Resumes z) (hq : q <+: z ++ [125])
    (n : Nat) : members (n + 1) (34 :: (q ++ y)) = none := by
  apply members_of_blocked
  intro k rest hread
  cases q with
  | nil => exact hy.closes _ k rest hread
  | cons d q =>
      have hd : d ≠ 34 ∧ d ≠ 92 := by
        rcases hz with rfl | ⟨c, r, rfl, -⟩
        · obtain ⟨rfl, -⟩ := List.cons_prefix_cons.mp hq
          decide
        · obtain ⟨rfl, -⟩ := List.cons_prefix_cons.mp hq
          decide
      obtain ⟨k', hread⟩ := chars_cons_some hd.1 hd.2 hread
      cases q with
      | nil => exact hy.closes _ k' rest hread
      | cons d' q =>
          rcases hz with rfl | ⟨c, r, rfl, hc⟩
          · have hlength := hq.length_le
            simp at hlength
          · -- the quote of the next key ends the string
            obtain ⟨-, hq₁⟩ := List.cons_prefix_cons.mp hq
            obtain ⟨rfl, hq₂⟩ := List.cons_prefix_cons.mp hq₁
            cases hread
            rcases List.prefix_cons_iff.mp hq₂ with rfl | ⟨q', rfl, -⟩
            · exact hy.blocked
            · exact .inr ⟨c, q' ++ y, rfl, hc⟩

/-- **An object that begins in a string has no members.** -/
theorem object_within (hy : Follows y) {z : Text} (hz : Resumes z) {w s : Text} (hw : Spells w s) :
    ∀ q, q <+: w ++ 34 :: (z ++ [125]) → ∀ n v rest,
      value (n + 1) (123 :: (q ++ y)) = some (v, rest) → v = .obj [] := by
  have hother : ∀ {c n : Nat} {q : Text} {v : Value} {rest : Text}, isSpace c = false → c ≠ 125 →
      c ≠ 34 → value (n + 1) (123 :: c :: (q ++ y)) = some (v, rest) → v = .obj [] := by
    intro c n q v rest hspace hbrace hquote hread
    rw [value_brace hspace hbrace, members_not_quote hquote] at hread
    cases hread
  have hnothing : ∀ {n : Nat} {v : Value} {rest : Text},
      value (n + 1) (123 :: ([] ++ y)) = some (v, rest) → v = .obj [] := by
    intro n v rest hread
    rw [List.nil_append, value_brace_follows hy] at hread
    cases hread
  induction hw with
  | nil =>
      intro q hq n v rest hread
      rcases List.prefix_cons_iff.mp hq with rfl | ⟨q, rfl, hq₁⟩
      · exact hnothing hread
      · -- the string ends behind white space only
        rw [List.cons_append, value_brace rfl (by decide)] at hread
        cases n with
        | zero => cases hread
        | succ n =>
            rw [members_resumed hy hz hq₁] at hread
            cases hread
  | @plain t s c hctrl hquote hback _ ih =>
      intro q hq n v rest hread
      rcases List.prefix_cons_iff.mp hq with rfl | ⟨q, rfl, hq₁⟩
      · exact hnothing hread
      rw [List.cons_append] at hread
      cases hspace : isSpace c with
      | true =>
          rw [value_brace_space hspace] at hread
          exact ih q hq₁ n v rest hread
      | false =>
          by_cases hbrace : c = 125
          · subst hbrace
            cases hread
            rfl
          · exact hother hspace hbrace hquote hread
  | short c u hescape _ ih =>
      intro q hq n v rest hread
      rcases List.prefix_cons_iff.mp hq with rfl | ⟨q, rfl, -⟩
      · exact hnothing hread
      · exact hother rfl (by decide) (by decide) hread
  | unicode a b c d u hhex hhigh _ ih =>
      intro q hq n v rest hread
      rcases List.prefix_cons_iff.mp hq with rfl | ⟨q, rfl, -⟩
      · exact hnothing hread
      · exact hother rfl (by decide) (by decide) hread

end Torn

/-! ## §7. What is read of scraps. -/

/-- The end of a beginning that starts with a brace is all of it, or the brace is in a
string. -/
theorem Flat.suffix_cases {o a b : Text} (ho : Flat o) (hp : a ++ 123 :: b <+: o) :
    a = [] ∨ ∃ w s z, Spells w s ∧ Resumes z ∧ b <+: w ++ 34 :: (z ++ [125]) := by
  obtain ⟨ms, t, hms, rfl⟩ := ho
  cases a with
  | nil => exact .inl rfl
  | cons x a =>
      have htail : a ++ 123 :: b <+: t ++ [125] := (List.cons_prefix_cons.mp hp).2
      obtain ⟨r, hr⟩ := htail
      have hr : t ++ [125] = a ++ 123 :: (b ++ r) := by
        rw [← hr, List.append_assoc, List.cons_append]
      rcases append_eq_cons_cases hr with ⟨m, hm, hb⟩ | ⟨a', -, hend⟩
      · obtain ⟨w, s, z, hw, hz, rfl⟩ := hms.brace a m hm
        refine .inr ⟨w, s, z, hw, hz, r, ?_⟩
        rw [hb, List.append_assoc, List.cons_append]
      · rcases a' with _ | ⟨x', a'⟩
        · cases hend
        · cases a' with
          | nil => cases hend
          | cons x'' a' => cases hend

section Read

variable {O : Text → Prop} {t : Text}

/-- Every beginning of scraps is scraps. -/
theorem Scraps.front (h : Scraps O t) : ∀ q, q <+: t → Scraps O q := by
  induction h with
  | nil =>
      intro q hq
      rw [List.prefix_nil.mp hq]
      exact .nil
  | @cons o p t ho hp ht ih =>
      intro q hq
      rcases prefix_append_cases hq with hinside | ⟨q', rfl, hq'⟩
      · rw [← List.append_nil q]
        exact .cons ho (hinside.trans hp) .nil
      · exact .cons ho hp (ih q' hq')

/-- **A value that begins with a brace** in scraps is the empty object, or one of the
objects, and whole. -/
theorem Scraps.value_suffix (hO : ∀ o, O o → Flat o) (h : Scraps O t) {r : Text}
    (hr : 123 :: r <:+ t) {n : Nat} (hn : (123 :: r).length < n) {v : Value} {rest : Text}
    (hread : value n (123 :: r) = some (v, rest)) :
    v = .obj [] ∨ ∃ o, O o ∧ 123 :: r = o ++ rest ∧ Follows rest := by
  induction h with
  | nil => cases List.suffix_nil.mp hr
  | @cons o p t ho hp ht ih =>
      rcases suffix_append_cases hr with hlater | ⟨p', heq, a, rfl⟩
      · exact ih hlater
      have hy := ht.follows hO
      cases p' with
      | nil =>
          rw [List.nil_append] at heq
          exact ih (heq ▸ List.suffix_rfl)
      | cons x b =>
          obtain ⟨rfl, rfl⟩ := List.cons.inj heq
          rcases (hO o ho).suffix_cases hp with rfl | ⟨w, s, z, hw, hz, hb⟩
          · rw [List.nil_append] at hp
            obtain ⟨hwhole, rfl⟩ := value_piece hy (hO o ho) hp (List.cons_ne_nil _ b) hn hread
            exact .inr ⟨o, ho, congrArg (· ++ rest) hwhole, hy⟩
          · obtain ⟨n, rfl⟩ : ∃ m, n = m + 1 := ⟨n - 1, by omega⟩
            exact .inl (object_within hy hz hw b hb n v rest hread)

/-- A text that reads as an object begins with a brace. -/
theorem value_obj_head {n : Nat} {u rest : Text} {ms : List (Text × Value)}
    (h : value n u = some (.obj ms, rest)) : ∃ r, u = 123 :: r := by
  have hliteral : ∀ {word t : Text} {v : Value}, literal word v t = some (.obj ms, rest) →
      v = .obj ms := by
    intro word t v h
    unfold literal at h
    split_ifs at h
    cases h
    rfl
  cases n with
  | zero => cases h
  | succ n =>
      cases u with
      | nil => cases h
      | cons c u =>
          unfold value at h
          split_ifs at h with hstr hobj harr htrue hfalse hnull hnan hinf hneg
          · obtain ⟨read, -, heq⟩ := Option.map_eq_some_iff.mp h
            cases heq
          · exact ⟨u, by rw [hobj]⟩
          · split at h
            · cases h
            · obtain ⟨read, -, heq⟩ := Option.map_eq_some_iff.mp h
              cases heq
          · cases hliteral h
          · cases hliteral h
          · cases hliteral h
          · cases hliteral h
          · cases hliteral h
          · cases h
          · unfold number at h
            obtain ⟨read, -, h⟩ := Option.bind_eq_some_iff.mp h
            cases h

/-- **An object with members that is read anywhere in scraps is one of the objects.** -/
theorem scraps_loads (hO : ∀ o, O o → Flat o) (h : Scraps O t) {u : Text} (hu : u <:+: t)
    {m : Text × Value} {ms : List (Text × Value)} (hread : loads u = some (.obj (m :: ms))) :
    O (skipSpace u) := by
  unfold loads at hread
  cases hvalue : value (u.length + 1) (skipSpace u) with
  | none =>
      rw [hvalue] at hread
      cases hread
  | some read =>
      obtain ⟨v, rest⟩ := read
      rw [hvalue] at hread
      dsimp only at hread
      split_ifs at hread with hrest
      cases hread
      obtain ⟨r, hr⟩ := value_obj_head hvalue
      have hsuffix : skipSpace u <:+ u := List.dropWhile_suffix isSpace
      have hlength := hsuffix.length_le
      -- the part of the scraps up to the end of the object is scraps too
      obtain ⟨a, b, rfl⟩ := hu
      have hends : skipSpace u <:+ a ++ u := hsuffix.trans (List.suffix_append a u)
      have hscraps := h.front (a ++ u) (List.prefix_append (a ++ u) b)
      rw [hr] at hvalue hends hlength ⊢
      rcases hscraps.value_suffix hO hends (Nat.lt_succ_of_le hlength) hvalue with
        hempty | ⟨o, ho, heq, hfollows⟩
      · cases hempty
      · rw [hfollows.blocked.skipSpace] at hrest
        rw [heq, hrest, List.append_nil]
        exact ho

end Read

end JsonText
