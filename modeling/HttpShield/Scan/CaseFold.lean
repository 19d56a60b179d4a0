/-
  HttpShield.Scan.CaseFold
  ────────────────────────
  The scan is blind to the case of letters, wherever they stand.

  The raw copy is lower-cased before it is scanned, the decoded copy after it was
  decoded: so the decoder sees letters of both cases.  It reads one as a hexadecimal
  digit, drops it or copies it, and does the same with its counterpart.

    • `NgxUnescape.caseBlind`  — buffers that differ in case decode to such buffers,
    • `scanInput_caseBlind`    — and the scan of both returns the same.
-/
import HttpShield.Scan.Encoding

namespace HttpShield

/-! ## §1. Letters that differ in case. -/

/-- Both cases of a letter have the same value as a digit. -/
theorem hexValue_ngxTolower (c : UInt8) : hexValue (ngxTolower c) = hexValue c := by
  unfold ngxTolower
  by_cases hupper : 65 ≤ c.toNat ∧ c.toNat ≤ 90
  · have hval : (UInt8.ofNat (c.toNat + 32)).toNat = c.toNat + 32 := by
      rw [UInt8.toNat_ofNat']
      omega
    rw [if_pos hupper]
    unfold hexValue
    simp only [hval]
    by_cases hdigit : c.toNat ≤ 70
    · -- one of `A` to `F`
      rw [if_neg (by omega), if_pos (by omega), if_neg (by omega), if_neg (by omega),
        if_pos (by omega)]
      exact congrArg some (by omega)
    · rw [if_neg (by omega), if_neg (by omega), if_neg (by omega), if_neg (by omega),
        if_neg (by omega), if_neg (by omega)]
  · rw [if_neg hupper]

theorem hexValue_caseBlind {c c' : UInt8} (h : ngxTolower c = ngxTolower c') :
    hexValue c = hexValue c' := by
  rw [← hexValue_ngxTolower c, h, hexValue_ngxTolower]

/-- A byte below the letters is its own only case-variant. -/
theorem ngxTolower_caseBlind {c c' b : UInt8} (hb : b.toNat < 65) (h : ngxTolower c = ngxTolower c')
    (hc : c = b) : c' = b := by
  subst hc
  have hself : ngxTolower c = c := by
    unfold ngxTolower
    rw [if_neg (by omega)]
  rw [hself] at h
  exact ngxTolower_eq (by omega) h.symm

theorem plusToSpace_caseBlind {c c' : UInt8} (h : ngxTolower c = ngxTolower c') :
    ngxTolower (plusToSpace c) = ngxTolower (plusToSpace c') := by
  unfold plusToSpace
  by_cases hplus : c = 43
  · rw [if_pos hplus, if_pos (ngxTolower_caseBlind (by decide) h hplus)]
  · have hplus' : ¬ c' = 43 := fun h' => hplus (ngxTolower_caseBlind (by decide) h.symm h')
    rw [if_neg hplus, if_neg hplus']
    exact h

/-! ## §2. The decoder. -/

theorem ngxStrlow_cons (b : UInt8) (d : Bytes) :
    ngxStrlow (b :: d) = ngxTolower b :: ngxStrlow d := rfl

/-- A buffer that differs from `b :: d` in case only. -/
theorem ngxStrlow_cons_eq {b : UInt8} {d d' : Bytes} (h : ngxStrlow (b :: d) = ngxStrlow d') :
    ∃ b' s', d' = b' :: s' ∧ ngxTolower b = ngxTolower b' ∧ ngxStrlow d = ngxStrlow s' := by
  cases d' with
  | nil => cases h
  | cons b' s' =>
      rw [ngxStrlow_cons, ngxStrlow_cons] at h
      obtain ⟨hb, hd⟩ := List.cons.inj h
      exact ⟨b', s', rfl, hb, hd⟩

/-- An escape that the end cuts off is dropped from both buffers, or kept in both. -/
theorem NgxUnescape.tail_caseBlind (U : NgxUnescape) {s s' : Bytes} (hlen : s.length < 2)
    (hhex : ∀ x ∈ s, hexValue x ≠ none) (h : ngxStrlow s = ngxStrlow s') :
    ngxStrlow (U.unescape (37 :: s)) = ngxStrlow (U.unescape (37 :: s')) := by
  have hlen' : s'.length = s.length := by
    have := congrArg List.length h
    rw [ngxStrlow_length, ngxStrlow_length] at this
    exact this.symm
  have hhex' : ∀ x ∈ s', hexValue x ≠ none := by
    intro x' hx'
    -- its counterpart is a digit
    have hin : ngxTolower x' ∈ ngxStrlow s := by
      rw [h]
      exact List.mem_map_of_mem hx'
    obtain ⟨x, hx, heq⟩ := List.mem_map.mp hin
    rw [← hexValue_caseBlind heq]
    exact hhex x hx
  rw [U.tail s hlen hhex, U.tail s' (by omega) hhex']
  by_cases hkeep : U.keepsTail = true
  · rw [if_pos hkeep, if_pos hkeep, ngxStrlow_cons, ngxStrlow_cons, h]
  · rw [if_neg hkeep, if_neg hkeep]

/-- **The decoder keeps buffers apart in case only.** -/
theorem NgxUnescape.caseBlind (U : NgxUnescape) {d d' : Bytes} (h : ngxStrlow d = ngxStrlow d') :
    ngxStrlow (U.unescape d) = ngxStrlow (U.unescape d') := by
  -- One step of the decoder takes up to three bytes, so the induction is on the length.
  induction hn : d.length using Nat.strong_induction_on generalizing d d' with
  | _ n ih =>
      subst hn
      cases d with
      | nil =>
          have hnil : d' = [] := List.map_eq_nil_iff.mp h.symm
          rw [hnil]
      | cons b d =>
          obtain ⟨b', s', rfl, hb, hs⟩ := ngxStrlow_cons_eq h
          by_cases hescape : b = 37
          · obtain rfl := ngxTolower_caseBlind (by decide) hb hescape
            subst hescape
            cases d with
            | nil => exact U.tail_caseBlind (by simp) (by simp) hs
            | cons x d =>
                obtain ⟨x', t', rfl, hx, ht⟩ := ngxStrlow_cons_eq hs
                have hvalue := hexValue_caseBlind hx
                cases hu : hexValue x with
                | none =>
                    rw [U.badFirst x d hu, U.badFirst x' t' (hvalue.symm.trans hu)]
                    rw [ngxStrlow_cons, ngxStrlow_cons, hx]
                    have hrest := ih d.length (by simp only [List.length_cons]; omega) ht rfl
                    rw [hrest]
                | some u =>
                    cases d with
                    | nil => exact U.tail_caseBlind (by simp) (by simp [hu]) hs
                    | cons y d =>
                        obtain ⟨y', v', rfl, hy, hv⟩ := ngxStrlow_cons_eq ht
                        have hvalue' := hexValue_caseBlind hy
                        have hrest := ih d.length (by simp only [List.length_cons]; omega) hv rfl
                        cases hw : hexValue y with
                        | none =>
                            rw [U.badSecond x y u d hu hw, U.badSecond x' y' u v'
                              (hvalue.symm.trans hu) (hvalue'.symm.trans hw)]
                            exact hrest
                        | some w =>
                            rw [U.decoded x y u w d hu hw, U.decoded x' y' u w v'
                              (hvalue.symm.trans hu) (hvalue'.symm.trans hw)]
                            rw [ngxStrlow_cons, ngxStrlow_cons, hrest]
          · have hescape' : b' ≠ 37 := fun h' =>
              hescape (ngxTolower_caseBlind (by decide) hb.symm h')
            rw [U.copied b d hescape, U.copied b' s' hescape', ngxStrlow_cons, ngxStrlow_cons, hb]
            have hrest := ih d.length (by simp) hs rfl
            rw [hrest]

theorem map_plusToSpace_caseBlind {d d' : Bytes} (h : ngxStrlow d = ngxStrlow d') :
    ngxStrlow (d.map plusToSpace) = ngxStrlow (d'.map plusToSpace) := by
  induction d generalizing d' with
  | nil =>
      have hnil : d' = [] := List.map_eq_nil_iff.mp h.symm
      rw [hnil]
  | cons b d ih =>
      obtain ⟨b', s', rfl, hb, hs⟩ := ngxStrlow_cons_eq h
      rw [List.map_cons, List.map_cons, ngxStrlow_cons, ngxStrlow_cons, plusToSpace_caseBlind hb,
        ih hs]

/-- The decoded copies of two case-variants are the same. -/
theorem NgxUnescape.normalise_caseBlind (U : NgxUnescape) {d d' : Bytes}
    (h : ngxStrlow d = ngxStrlow d') : U.normalise d = U.normalise d' :=
  map_plusToSpace_caseBlind (U.caseBlind h)

/-! ## §3. The scan. -/

/-- Room for one buffer is room for the other. -/
theorem fill_caseBlind {d d' : Bytes} (h : ngxStrlow d = ngxStrlow d') (size : Nat) :
    (∃ e, fill size d = .error e ∧ fill size d' = .error e)
      ∨ fill size d = .ok d ∧ fill size d' = .ok d' := by
  have hlen := congrArg List.length h
  rw [ngxStrlow_length, ngxStrlow_length] at hlen
  unfold fill
  by_cases hfits : d.length ≤ size
  · right
    rw [if_pos hfits, if_pos (hlen ▸ hfits)]
    exact ⟨rfl, rfl⟩
  · left
    rw [if_neg hfits, if_neg (hlen ▸ hfits)]
    exact ⟨_, rfl, rfl⟩

/-- **The scan is blind to case**, for every decoder and whatever the scratch buffers:
two buffers that are the same after lower-casing get the same result, and on a hit the
same category. -/
theorem scanInput_caseBlind (U : NgxUnescape) (A : Automata) (source : Bytes) (skip : Mask)
    (scratchLc scratchDec : Nat) {d d' : Bytes} (h : ngxStrlow d = ngxStrlow d') :
    scanInput U A d scratchLc scratchDec source skip
      = scanInput U A d' scratchLc scratchDec source skip := by
  have hlen := congrArg List.length h
  rw [ngxStrlow_length, ngxStrlow_length] at hlen
  have hdecoded := U.normalise_caseBlind h
  unfold NgxUnescape.normalise at hdecoded
  unfold scanInput
  rw [← hlen, ← h]
  rcases fill_caseBlind (U.caseBlind h) scratchDec with ⟨e, herr, herr'⟩ | ⟨hfill, hfill'⟩
  · rw [herr, herr']
  · rw [hfill, hfill']
    simp only [ok_bind, hdecoded]

/-- The letters of an escape, of a broken escape and of the payload differ in case. -/
theorem scanInput_caseBlind_script :
    ∃ A, shieldInit AcAllocs.granted AcAllocs.granted true = .ok (some A)
      ∧ scanInput ngxUnescapeUri A (bytesOf "%3cScRiPt%zZ") 12 12 (bytesOf "uri") 0
        = scanInput ngxUnescapeUri A (bytesOf "%3CsCrIpT%Zz") 12 12 (bytesOf "uri") 0 := by
  obtain ⟨A, hA⟩ := shieldInit_granted
  exact ⟨A, hA, scanInput_caseBlind ngxUnescapeUri A (bytesOf "uri") 0 12 12 (by decide)⟩

end HttpShield
