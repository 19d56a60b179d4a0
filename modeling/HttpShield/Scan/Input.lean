/-
  HttpShield.Scan.Input
  ─────────────────────
  `ngx_http_shield_scan_input`: one input buffer, two normalised copies, one scan
  of each.  `ngx_unescape_uri` belongs to nginx and is a parameter here, with the
  documented behaviour the module relies on.

    • `shieldInit_total` — configuration builds both automata or reports failure,
    • `scanInput_eq`     — with scratch buffers of the input's length no write is
      out of bounds, and the verdict is that of the naive search of the copies,
    • `detects_iff`      — something live shows in one of the copies.
-/
import HttpShield.Scan.Patterns

namespace HttpShield

/-! ## §1. Percent-decoding. -/

/-- The value of a hexadecimal digit of either case. -/
def hexValue (c : UInt8) : Option Nat :=
  let n := c.toNat
  if 48 ≤ n ∧ n ≤ 57 then some (n - 48)
  else if 97 ≤ n ∧ n ≤ 102 then some (n - 97 + 10)
  else if 65 ≤ n ∧ n ≤ 70 then some (n - 65 + 10)
  else none

/-- `ngx_unescape_uri(&dst, &src, len, 0)`: one pass, which never grows the buffer.
What it makes of an escape that the end of the buffer cuts off is left open: it is
dropped, or it is copied. -/
structure NgxUnescape where
  unescape : Bytes → Bytes
  keepsTail : Bool
  nil : unescape [] = []
  copied : ∀ b s, b ≠ 37 → unescape (b :: s) = b :: unescape s
  decoded : ∀ x y u v s, hexValue x = some u → hexValue y = some v →
    unescape (37 :: x :: y :: s) = UInt8.ofNat (16 * u + v) :: unescape s
  badFirst : ∀ x s, hexValue x = none → unescape (37 :: x :: s) = x :: unescape s
  badSecond : ∀ x y u s, hexValue x = some u → hexValue y = none →
    unescape (37 :: x :: y :: s) = unescape s
  tail : ∀ s, s.length < 2 → (∀ x ∈ s, hexValue x ≠ none) →
    unescape (37 :: s) = if keepsTail then 37 :: s else []

/-- The decoder never grows its input. -/
theorem NgxUnescape.length_le (U : NgxUnescape) (s : Bytes) : (U.unescape s).length ≤ s.length := by
  induction h : s.length using Nat.strong_induction_on generalizing s with
  | _ n ih =>
      subst h
      cases s with
      | nil => rw [U.nil]
      | cons b s =>
          by_cases hb : b = 37
          · subst hb
            -- the shape of the escape
            have htail : s.length < 2 → (∀ x ∈ s, hexValue x ≠ none) →
                (U.unescape (37 :: s)).length ≤ (37 :: s).length := by
              intro hlen hhex
              rw [U.tail s hlen hhex]
              split <;> simp
            cases s with
            | nil => exact htail (by simp) (by simp)
            | cons x s =>
                cases hx : hexValue x with
                | none =>
                    have := ih s.length (by simp only [List.length_cons]; omega) s rfl
                    rw [U.badFirst x s hx]
                    simp only [List.length_cons]
                    omega
                | some u =>
                    cases s with
                    | nil => exact htail (by simp) (by simp [hx])
                    | cons y s =>
                        have := ih s.length (by simp only [List.length_cons]; omega) s rfl
                        cases hy : hexValue y with
                        | none =>
                            rw [U.badSecond x y u s hx hy]
                            simp only [List.length_cons]
                            omega
                        | some v =>
                            rw [U.decoded x y u v s hx hy]
                            simp only [List.length_cons]
                            omega
          · have := ih s.length (by simp) s rfl
            rw [U.copied b s hb]
            simp only [List.length_cons]
            omega

/-- The decoder as a state machine reads: an escape cut off by the end is dropped. -/
def unescapeUri : Bytes → Bytes
  | [] => []
  | b :: s =>
      if b = 37 then
        match s with
        | [] => []
        | x :: s =>
            match hexValue x, s with
            | none, s => x :: unescapeUri s
            | some _, [] => []
            | some u, y :: s =>
                match hexValue y with
                | none => unescapeUri s
                | some v => UInt8.ofNat (16 * u + v) :: unescapeUri s
      else b :: unescapeUri s

/-- What is assumed of the decoder can be had. -/
def ngxUnescapeUri : NgxUnescape where
  unescape := unescapeUri
  keepsTail := false
  nil := by simp only [unescapeUri]
  copied b s hb := by rw [unescapeUri.eq_def]; simp [hb]
  decoded x y u v s hx hy := by simp [unescapeUri, hx, hy]
  badFirst x s hx := by simp [unescapeUri, hx]
  badSecond x y u s hx hy := by simp [unescapeUri, hx, hy]
  tail s hlen hhex := by
    cases s with
    | nil => rfl
    | cons x s =>
        have hs : s = [] := by
          apply List.length_eq_zero_iff.mp
          simp only [List.length_cons] at hlen
          omega
        subst hs
        cases hx : hexValue x with
        | none => exact absurd hx (hhex x (by simp))
        | some u => simp [unescapeUri, hx]

/-! ## §2. The automata of a configuration. -/

/-- `ngx_http_shield_ac_raw` and `ngx_http_shield_ac_decoded`, once the configuration
has built them. -/
structure Automata where
  raw : Ac
  decoded : Ac
  raw_built : ∃ m, acBuild shieldTables m matchRaw = .ok (some raw)
  decoded_built : ∃ m, acBuild shieldTables m matchDecoded = .ok (some decoded)

/-- `ngx_http_shield_init`: `none` is `NGX_ERROR`; `pushed` says whether there was
room for the phase handler. -/
def shieldInit (decodedAllocs rawAllocs : AcAllocs) (pushed : Bool) :
    Except Fault (Option Automata) :=
  match hdecoded : acBuild shieldTables decodedAllocs matchDecoded with
  | .error e => .error e
  | .ok none => .ok none
  | .ok (some decoded) =>
      match hraw : acBuild shieldTables rawAllocs matchRaw with
      | .error e => .error e
      | .ok none => .ok none
      | .ok (some raw) =>
          -- only now the handler is registered: no half of a configuration runs
          if pushed then .ok (some ⟨raw, decoded, ⟨_, hraw⟩, ⟨_, hdecoded⟩⟩) else .ok none

/-- Building an automaton of the compiled-in tables fails exactly when an allocation
does: neither of the two limits is reached. -/
theorem acBuild_none_iff (m : AcAllocs) {flavour : Nat}
    (hfit : shieldTables.cap flavour ≤ acMaxStates) :
    ∃ r, acBuild shieldTables m flavour = .ok r ∧ (r = none ↔ m.all = false) := by
  obtain ⟨r, hbuild, hnone, -⟩ := acBuild_right shieldTables_valid m flavour
  have hterms := shieldTables_fit.1
  refine ⟨r, hbuild, ?_⟩
  rw [hnone]
  constructor
  · rintro (hmany | hlarge | hfailed)
    · exact absurd hmany (Nat.not_lt.mpr hterms)
    · exact absurd hlarge (Nat.not_lt.mpr hfit)
    · exact hfailed
  · exact fun hfailed => .inr (.inr hfailed)

/-- **Configuration never goes half way**: it fails exactly when an allocation does,
and leaves both automata otherwise. -/
theorem shieldInit_total (decodedAllocs rawAllocs : AcAllocs) (pushed : Bool) :
    ∃ r, shieldInit decodedAllocs rawAllocs pushed = .ok r
      ∧ (r = none ↔ decodedAllocs.all = false ∨ rawAllocs.all = false ∨ pushed = false) := by
  obtain ⟨rd, hrd, hd⟩ := acBuild_none_iff decodedAllocs shieldTables_fit.2.1
  obtain ⟨rr, hrr, hr⟩ := acBuild_none_iff rawAllocs shieldTables_fit.2.2
  unfold shieldInit
  split
  · next e he => rw [hrd] at he; cases he
  · next he =>
      rw [hrd] at he
      cases he
      exact ⟨none, rfl, by simp [hd.mp rfl]⟩
  · next decoded he =>
      rw [hrd] at he
      cases he
      have hdt : ¬ decodedAllocs.all = false := fun h => by simpa using hd.mpr h
      split
      · next e he' => rw [hrr] at he'; cases he'
      · next he' =>
          rw [hrr] at he'
          cases he'
          exact ⟨none, rfl, by simp [hr.mp rfl]⟩
      · next raw he' =>
          rw [hrr] at he'
          cases he'
          have hrt : ¬ rawAllocs.all = false := fun h => by simpa using hr.mpr h
          cases pushed with
          | false => exact ⟨none, rfl, by simp⟩
          | true => exact ⟨_, rfl, by simp [hdt, hrt]⟩

/-- With all memory granted there are automata. -/
theorem shieldInit_granted :
    ∃ A, shieldInit AcAllocs.granted AcAllocs.granted true = .ok (some A) := by
  obtain ⟨r, hr, hnone⟩ := shieldInit_total AcAllocs.granted AcAllocs.granted true
  cases r with
  | none => exact absurd (hnone.mp rfl) (by decide)
  | some A => exact ⟨A, hr⟩

/-! ## §3. The scan of an input. -/

/-- `ngx_http_shield_hit_t`. -/
structure Hit where
  category : Bytes
  cat : Nat
  source : Bytes
  deriving Repr, DecidableEq

/-- What an inspection returns: `NGX_OK` with the hit filled in, `NGX_DECLINED`, or
`NGX_ERROR`. -/
inductive Inspection where
  | ok (hit : Hit)
  | declined
  | error
  deriving Repr, DecidableEq

/-- Writing to a scratch buffer of `size` bytes. -/
def fill (size : Nat) (bytes : Bytes) : Except Fault Bytes :=
  if bytes.length ≤ size then .ok bytes else .error .outOfBounds

/-- `'+'` is a space in the decoded copy. -/
def plusToSpace (b : UInt8) : UInt8 := if b = 43 then 32 else b

/-- The hit a category row is reported as. -/
def CatDef.hit (c : CatDef) (source : Bytes) : Hit :=
  { category := c.name, cat := c.cat, source := source }

/-- `ngx_http_shield_scan_input`.  `scratchLc` and `scratchDec` are the sizes of the
scratch buffers. -/
def scanInput (U : NgxUnescape) (A : Automata) (data : Bytes) (scratchLc scratchDec : Nat)
    (source : Bytes) (skip : Mask) : Except Fault Inspection := do
  if data.length = 0 then
    return .declined
  -- the raw copy keeps its escapes, the decoded one loses one layer of them
  let rawLc ← fill scratchLc (ngxStrlow data)
  let dec ← fill scratchDec (U.unescape data)
  let dec := ngxStrlow (dec.map plusToSpace)
  -- the raw automaton has the first word
  match ← acScan shieldTables A.raw rawLc skip with
  | some c => return .ok (c.hit source)
  | none =>
      match ← acScan shieldTables A.decoded dec skip with
      | some c => return .ok (c.hit source)
      | none => return .declined

/-- The decoded copy. -/
def NgxUnescape.normalise (U : NgxUnescape) (data : Bytes) : Bytes :=
  ngxStrlow ((U.unescape data).map plusToSpace)

/-- The verdict as a naive search would give it. -/
def naiveInput (U : NgxUnescape) (data source : Bytes) (skip : Mask) : Inspection :=
  match naiveScan shieldTables matchRaw (ngxStrlow data) skip with
  | some c => .ok (c.hit source)
  | none =>
      match naiveScan shieldTables matchDecoded (U.normalise data) skip with
      | some c => .ok (c.hit source)
      | none => .declined

/-! ## §4. The scan is the naive one. -/

/-- An automaton of the configuration scans as a naive search does. -/
theorem acScan_built {ac : Ac} {flavour : Nat}
    (h : ∃ m, acBuild shieldTables m flavour = .ok (some ac)) (data : Bytes) (skip : Mask) :
    acScan shieldTables ac data skip = .ok (naiveScan shieldTables flavour data skip) := by
  obtain ⟨m, hm⟩ := h
  obtain ⟨r, hbuild, -, hright⟩ := acBuild_right shieldTables_valid m flavour
  have hr : r = some ac := by
    rw [hbuild] at hm
    injection hm
  obtain ⟨words, hac⟩ := hright ac hr
  exact hac.scan shieldTables_valid data skip

/-- **The verdict is the naive one**, and the scratch buffers of the input's length
are never overrun. -/
theorem scanInput_eq (U : NgxUnescape) (A : Automata) (data source : Bytes) (skip : Mask)
    {scratchLc scratchDec : Nat} (hlc : data.length ≤ scratchLc) (hdec : data.length ≤ scratchDec) :
    scanInput U A data scratchLc scratchDec source skip = .ok (naiveInput U data source skip) := by
  have hraw := acScan_built A.raw_built (ngxStrlow data) skip
  have hdecoded := acScan_built A.decoded_built (U.normalise data) skip
  unfold scanInput
  by_cases hempty : data.length = 0
  · -- an empty input is not scanned, and nothing is found in it
    have hnil : data = [] := List.length_eq_zero_iff.mp hempty
    subst hnil
    have hnone := fun flavour => naiveScan_nil shieldTables_valid flavour skip
    rw [if_pos hempty, pure_eq_ok]
    unfold naiveInput NgxUnescape.normalise
    rw [U.nil]
    show _ = Except.ok (match naiveScan shieldTables matchRaw [] skip with
      | some c => _
      | none => _)
    rw [hnone]
    show _ = Except.ok (match naiveScan shieldTables matchDecoded [] skip with
      | some c => _
      | none => _)
    rw [hnone]
  · have hfillLc : fill scratchLc (ngxStrlow data) = .ok (ngxStrlow data) := by
      unfold fill
      rw [if_pos (by rw [ngxStrlow_length]; exact hlc)]
    have hfillDec : fill scratchDec (U.unescape data) = .ok (U.unescape data) := by
      unfold fill
      rw [if_pos (Nat.le_trans (U.length_le data) hdec)]
    rw [if_neg hempty, hfillLc, ok_bind, hfillDec, ok_bind, hraw, ok_bind]
    unfold naiveInput
    cases naiveScan shieldTables matchRaw (ngxStrlow data) skip with
    | some c => rfl
    | none =>
        show (acScan shieldTables A.decoded (U.normalise data) skip >>= _) = _
        rw [hdecoded, ok_bind]
        cases naiveScan shieldTables matchDecoded (U.normalise data) skip with
        | some c => rfl
        | none => rfl

/-- **A clean verdict**: nothing live shows in either copy. -/
theorem naiveInput_eq_declined_iff (U : NgxUnescape) (data source : Bytes) (skip : Mask) :
    naiveInput U data source skip = .declined
      ↔ ¬ shieldTables.Shows matchRaw skip (ngxStrlow data)
        ∧ ¬ shieldTables.Shows matchDecoded skip (U.normalise data) := by
  rw [← naiveScan_eq_none_iff shieldTables_valid, ← naiveScan_eq_none_iff shieldTables_valid]
  unfold naiveInput
  cases naiveScan shieldTables matchRaw (ngxStrlow data) skip with
  | some c => simp
  | none =>
      cases naiveScan shieldTables matchDecoded (U.normalise data) skip with
      | some c => simp
      | none => simp

/-- Nothing shows in a buffer shorter than every signature. -/
theorem not_shows_of_short {data : Bytes} (h : data.length < 3) (flavour : Nat) (skip : Mask) :
    ¬ shieldTables.Shows flavour skip data := by
  rintro (⟨c, hc, -, -, sig, hsig, hin⟩ | ⟨r, hr, -, -, hall⟩)
  · have := hin.length_le
    have := sigs_not_short.1 c hc sig hsig
    omega
  · obtain ⟨t, ht, hlen⟩ := sigs_not_short.2 r hr
    have := (hall t ht).length_le
    omega

/-- A short input is clean under every skip mask. -/
theorem naiveInput_of_short (U : NgxUnescape) {data : Bytes} (h : data.length < 3)
    (source : Bytes) (skip : Mask) : naiveInput U data source skip = .declined := by
  rw [naiveInput_eq_declined_iff]
  have hdec : (U.normalise data).length < 3 := by
    unfold NgxUnescape.normalise
    rw [ngxStrlow_length, List.length_map]
    exact Nat.lt_of_le_of_lt (U.length_le data) h
  exact ⟨not_shows_of_short (by rw [ngxStrlow_length]; exact h) matchRaw skip,
    not_shows_of_short hdec matchDecoded skip⟩

/-- An input is clean, or it is a hit. -/
theorem naiveInput_cases (U : NgxUnescape) (data source : Bytes) (skip : Mask) :
    naiveInput U data source skip = .declined
      ∨ ∃ hit, naiveInput U data source skip = .ok hit := by
  unfold naiveInput
  cases naiveScan shieldTables matchRaw (ngxStrlow data) skip with
  | some c => exact .inr ⟨_, rfl⟩
  | none =>
      cases naiveScan shieldTables matchDecoded (U.normalise data) skip with
      | some c => exact .inr ⟨_, rfl⟩
      | none => exact .inl rfl

/-- **A hit**: something live shows in one of the two copies. -/
theorem naiveInput_hit_iff (U : NgxUnescape) (data source : Bytes) (skip : Mask) :
    (∃ hit, naiveInput U data source skip = .ok hit)
      ↔ shieldTables.Shows matchRaw skip (ngxStrlow data)
        ∨ shieldTables.Shows matchDecoded skip (U.normalise data) := by
  have hclean := naiveInput_eq_declined_iff U data source skip
  rcases naiveInput_cases U data source skip with hdeclined | ⟨hit, hhit⟩
  · obtain ⟨hraw, hdec⟩ := hclean.mp hdeclined
    rw [hdeclined]
    constructor
    · rintro ⟨hit, h⟩
      cases h
    · rintro (h | h)
      · exact absurd h hraw
      · exact absurd h hdec
  · rw [hhit] at hclean ⊢
    refine ⟨fun _ => ?_, fun _ => ⟨hit, rfl⟩⟩
    by_contra hno
    rw [not_or] at hno
    cases hclean.mpr hno

/-- The scan of a buffer, with scratch buffers of its length, returns `NGX_OK`. -/
def Detects (U : NgxUnescape) (A : Automata) (source : Bytes) (skip : Mask) (data : Bytes) : Prop :=
  ∃ hit, scanInput U A data data.length data.length source skip = .ok (.ok hit)

/-- **Detection**: something live shows in one of the two copies. -/
theorem detects_iff (U : NgxUnescape) (A : Automata) (source : Bytes) (skip : Mask)
    (data : Bytes) : Detects U A source skip data ↔ shieldTables.Shows matchRaw skip (ngxStrlow data)
      ∨ shieldTables.Shows matchDecoded skip (U.normalise data) := by
  unfold Detects
  rw [scanInput_eq U A data source skip (Nat.le_refl _) (Nat.le_refl _),
    ← naiveInput_hit_iff U data source]
  simp only [Except.ok.injEq]

end HttpShield
