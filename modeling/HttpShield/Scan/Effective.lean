/-
  HttpShield.Scan.Effective
  ─────────────────────────
  Is every compiled-in signature effective?

  A signature must survive what is done to the buffer before the automaton that
  carries it sees it: lower-casing in the raw copy; decoding, the folding of `+` to a
  space and lower-casing in the other.  All signatures of the tables do but one:
  `chmodX` is only looked for in the decoded copy, where there is no `+`.

    • `sig_lower`, `sig_survives`   — what the tables hold,
    • `sig_effective_iff`           — exactly when a buffer with a signature is a hit,
    • `sig_everywhere_iff`          — all signatures but `chmodX` are hits everywhere.
-/
import HttpShield.Scan.Encoding

namespace HttpShield

/-! ## §1. What the tables hold. -/

/-- The one signature with a `+` of a row that is only scanned in the decoded copy. -/
def chmodX : Bytes := bytesOf "chmod +x"

/-- The decoded copy of `chmod +x`, whose plus sign becomes a space. -/
def chmodFolded : Bytes := bytesOf "chmod  x"

/-- What the tables hold of a signature, in one pass over them. -/
theorem sig_copies : ∀ c ∈ shieldCategories, ∀ sig ∈ c.sigs, ngxStrlow sig = sig
    ∧ (c.isIn matchRaw = true
      ∨ (c.isIn matchDecoded = true ∧ 37 ∉ sig ∧ 43 ∉ sig)
      ∨ sig = chmodX) := by
  decide +kernel

/-- No signature has an upper-case letter. -/
theorem sig_lower : ∀ c ∈ shieldCategories, ∀ sig ∈ c.sigs, ngxStrlow sig = sig := by
  intro c hc sig hsig
  exact (sig_copies c hc sig hsig).1

/-- A signature is for the raw copy, or it is for the decoded one and has nothing that
decoding or folding would change, or it is `chmodX`. -/
theorem sig_survives : ∀ c ∈ shieldCategories, ∀ sig ∈ c.sigs,
    c.isIn matchRaw = true
      ∨ (c.isIn matchDecoded = true ∧ 37 ∉ sig ∧ 43 ∉ sig)
      ∨ sig = chmodX := by
  intro c hc sig hsig
  exact (sig_copies c hc sig hsig).2

/-! ## §2. The copies of a buffer that holds a signature. -/

/-- What has no `%` is decoded to itself, whatever follows. -/
theorem NgxUnescape.unescape_append (U : NgxUnescape) {u : Bytes} (hu : 37 ∉ u) (v : Bytes) :
    U.unescape (u ++ v) = u ++ U.unescape v := by
  induction u with
  | nil => rfl
  | cons b u ih =>
      have hb : b ≠ 37 := fun hb => hu (by simp [hb])
      have hrest := ih fun hin => hu (List.mem_cons_of_mem _ hin)
      rw [List.cons_append, U.copied b _ hb, hrest, List.cons_append]

theorem map_plusToSpace_eq {s : Bytes} (hs : 43 ∉ s) : s.map plusToSpace = s := by
  have hsame : s.map plusToSpace = s.map id := by
    apply List.map_congr_left
    intro b hb
    have hne : b ≠ 43 := fun h => hs (h ▸ hb)
    unfold plusToSpace
    rw [if_neg hne]
    rfl
  rw [hsame, List.map_id]

/-- The decoded copy, where what comes first has no `%`. -/
theorem NgxUnescape.normalise_append (U : NgxUnescape) {u : Bytes} (hu : 37 ∉ u) (v : Bytes) :
    U.normalise (u ++ v) = ngxStrlow (u.map plusToSpace) ++ U.normalise v := by
  unfold NgxUnescape.normalise ngxStrlow
  rw [U.unescape_append hu, List.map_append, List.map_append]

/-- A lower-case signature stands in the raw copy as it is. -/
theorem sig_infix_raw {sig : Bytes} (hlow : ngxStrlow sig = sig) (u v : Bytes) :
    sig <:+: ngxStrlow (u ++ sig ++ v) := by
  refine ⟨ngxStrlow u, ngxStrlow v, ?_⟩
  unfold ngxStrlow at hlow ⊢
  rw [List.map_append, List.map_append, hlow]

/-- A lower-case signature without `%` and `+` stands in the decoded copy as it is. -/
theorem sig_infix_decoded (U : NgxUnescape) {sig u : Bytes} (hlow : ngxStrlow sig = sig)
    (hpercent : 37 ∉ sig) (hplus : 43 ∉ sig) (hu : 37 ∉ u) (v : Bytes) :
    sig <:+: U.normalise (u ++ sig ++ v) := by
  refine ⟨ngxStrlow (u.map plusToSpace), U.normalise v, ?_⟩
  rw [List.append_assoc, List.append_assoc, U.normalise_append hu, U.normalise_append hpercent,
    map_plusToSpace_eq hplus, hlow]

/-- **A signature that survives is a hit in every surrounding.** -/
theorem sig_detects (U : NgxUnescape) (A : Automata) (source : Bytes) {skip : Mask} {c : CatDef}
    (hc : c ∈ shieldCategories) {sig u : Bytes} (hsig : sig ∈ c.sigs) (hne : sig ≠ chmodX)
    (hu : 37 ∉ u) (v : Bytes) (hlive : skip.getLsbD c.cat = false) :
    Detects U A source skip (u ++ sig ++ v) := by
  have hlow := sig_lower c hc sig hsig
  rw [detects_iff]
  rcases sig_survives c hc sig hsig with hraw | ⟨hdecoded, hpercent, hplus⟩ | heq
  · exact .inl (.inl ⟨c, hc, hraw, hlive, sig, hsig, sig_infix_raw hlow u v⟩)
  · exact .inr (.inl ⟨c, hc, hdecoded, hlive, sig, hsig,
      sig_infix_decoded U hlow hpercent hplus hu v⟩)
  · exact absurd heq hne

/-- The decoded copy of a buffer with `chmodX` in it. -/
theorem normalise_chmodX (U : NgxUnescape) {u : Bytes} (hu : 37 ∉ u) (v : Bytes) :
    U.normalise (u ++ chmodX ++ v)
      = ngxStrlow (u.map plusToSpace) ++ chmodFolded ++ U.normalise v := by
  have hpercent : 37 ∉ chmodX := by decide
  have hfolded : ngxStrlow (chmodX.map plusToSpace) = chmodFolded := by decide
  rw [List.append_assoc, List.append_assoc, U.normalise_append hu, U.normalise_append hpercent,
    hfolded]

/-! ## §3. Effectiveness. -/

/-- **A buffer with a signature is a hit, unless the signature is `chmodX`** and
nothing else gives the buffer away: nothing live shows in its raw copy, nor in its
decoded copy with the folded signature. -/
theorem sig_effective_iff (U : NgxUnescape) (A : Automata) (source : Bytes) (skip : Mask)
    (c : CatDef) (hc : c ∈ shieldCategories) (sig u v : Bytes) (hsig : sig ∈ c.sigs) (hu : 37 ∉ u)
    (hlive : skip.getLsbD c.cat = false) :
    Detects U A source skip (u ++ sig ++ v)
      ↔ sig ≠ chmodX
        ∨ shieldTables.Shows matchRaw skip (ngxStrlow (u ++ sig ++ v))
        ∨ shieldTables.Shows matchDecoded skip
            (ngxStrlow (u.map plusToSpace) ++ chmodFolded ++ U.normalise v) := by
  by_cases hne : sig = chmodX
  · subst hne
    rw [detects_iff, normalise_chmodX U hu v]
    constructor
    · exact fun h => .inr h
    · rintro (h | h)
      · exact absurd rfl h
      · exact h
  · exact iff_of_true (sig_detects U A source hc hsig hne hu v hlive) (.inl hne)

/-- A traversal is a hit behind a literal `+` and in front of a broken escape. -/
theorem sig_effective_iff_traversal :
    ∃ A, shieldInit AcAllocs.granted AcAllocs.granted true = .ok (some A)
      ∧ Detects ngxUnescapeUri A (bytesOf "uri") 0 (bytesOf "/a+" ++ bytesOf "../" ++ bytesOf "%z") := by
  obtain ⟨A, hA⟩ := shieldInit_granted
  refine ⟨A, hA, ?_⟩
  exact (sig_effective_iff ngxUnescapeUri A (bytesOf "uri") 0
    (shieldTable .traversal "traversal" Signatures.traversal (matchDecoded ||| matchRaw ||| noBody))
    (by decide +kernel) (bytesOf "../") (bytesOf "/a+") (bytesOf "%z") (by decide) (by decide)
    (by decide)).mpr (.inl (by decide))

/-- On its own, `chmodX` shows in neither copy. -/
theorem chmodX_alone (U : NgxUnescape) (A : Automata) (source : Bytes) :
    ¬ Detects U A source 0 chmodX := by
  have hdecoded : U.normalise chmodX = chmodFolded := by
    have h := @normalise_chmodX U [] (by simp) []
    have hnil : U.normalise [] = [] := by
      unfold NgxUnescape.normalise
      rw [U.nil]
      rfl
    rw [hnil, List.append_nil, List.append_nil] at h
    exact h
  rw [detects_iff, hdecoded]
  decide +kernel

/-- **All signatures but one are effective everywhere.** -/
theorem sig_everywhere_iff (U : NgxUnescape) (A : Automata) (source : Bytes) {c : CatDef}
    (hc : c ∈ shieldCategories) {sig : Bytes} (hsig : sig ∈ c.sigs) :
    (∀ (skip : Mask) (u v : Bytes), 37 ∉ u → skip.getLsbD c.cat = false →
      Detects U A source skip (u ++ sig ++ v)) ↔ sig ≠ chmodX := by
  constructor
  · intro hall heq
    subst heq
    have hdetects := hall 0 [] [] (by simp) (by simp)
    rw [List.nil_append, List.append_nil] at hdetects
    exact chmodX_alone U A source hdetects
  · intro hne skip u v hu hlive
    exact sig_detects U A source hc hsig hne hu v hlive

/-- `chmodX` is a signature of the command injection row, and is not found. -/
theorem sig_effective_dead :
    ∃ A c, shieldInit AcAllocs.granted AcAllocs.granted true = .ok (some A)
      ∧ c ∈ shieldCategories ∧ c.cat = ShieldCat.cmdi.bit ∧ chmodX ∈ c.sigs
      ∧ (0 : Mask).getLsbD c.cat = false
      ∧ ¬ Detects ngxUnescapeUri A (bytesOf "uri") 0 ([] ++ chmodX ++ []) := by
  obtain ⟨A, hA⟩ := shieldInit_granted
  refine ⟨A, shieldTable .cmdi "cmdi" Signatures.cmdi (matchDecoded ||| noBody), hA,
    by decide +kernel, rfl, by decide, by decide, ?_⟩
  rw [List.nil_append, List.append_nil]
  exact chmodX_alone ngxUnescapeUri A (bytesOf "uri")

end HttpShield
