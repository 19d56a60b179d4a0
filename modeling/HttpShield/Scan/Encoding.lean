/-
  HttpShield.Scan.Encoding
  ────────────────────────
  What percent-encoding a payload does to the scan.

  Encoding any of the bytes of a buffer leaves its decoded copy as it was, so a
  payload that shows there shows however it is encoded.  The raw copy changes: what
  shows only there can be encoded away.  In the compiled-in tables that is one
  signature, `cscoe`, because the decoded copy has no `+`.

    • `Encodes.unescape`         — the decoded copy does not change,
    • `detects_hidden`           — what an encoding hides is `cscoe`,
    • `Detects.encoded`          — it hides nothing in a buffer without a `+`,
    • `scanInput_encoded_iff`    — exactly when a payload stays detected.
-/
import HttpShield.Scan.Input

namespace HttpShield

/-! ## §1. Percent-encoding some of the bytes. -/

/-- `d'` is `d` with some of its bytes written as `%XY`, in either letter case. -/
inductive Encodes : Bytes → Bytes → Prop
  | nil : Encodes [] []
  | kept (b : UInt8) {d d' : Bytes} : Encodes d d' → Encodes (b :: d) (b :: d')
  | encoded (b : UInt8) {x y : UInt8} {u v : Nat} {d d' : Bytes} :
      hexValue x = some u → hexValue y = some v → 16 * u + v = b.toNat →
      Encodes d d' → Encodes (b :: d) (37 :: x :: y :: d')

theorem Encodes.refl : ∀ d : Bytes, Encodes d d
  | [] => .nil
  | b :: d => .kept b (Encodes.refl d)

/-- Decoding an encoded payload gives the payload back. -/
theorem Encodes.unescape {d d' : Bytes} (h : Encodes d d') (U : NgxUnescape) (hd : 37 ∉ d) :
    U.unescape d' = d := by
  induction h with
  | nil => exact U.nil
  | kept b _ ih =>
      have hb : b ≠ 37 := fun hb => hd (by simp [hb])
      rw [U.copied b _ hb, ih (fun hin => hd (List.mem_cons_of_mem _ hin))]
  | encoded b hx hy hb _ ih =>
      rw [U.decoded _ _ _ _ _ hx hy, ih (fun hin => hd (List.mem_cons_of_mem _ hin)), hb]
      simp

/-- **The decoded copy of an encoded payload** is the payload, its plus signs as
spaces and in lower case. -/
theorem Encodes.normalise {d d' : Bytes} (h : Encodes d d') (U : NgxUnescape) (hd : 37 ∉ d) :
    U.normalise d' = ngxStrlow (d.map plusToSpace) := by
  unfold NgxUnescape.normalise
  rw [h.unescape U hd]

/-! ## §2. From the raw copy to the decoded copy. -/

/-- What is no lower-case letter after lower-casing was itself before. -/
theorem ngxTolower_eq {b c : UInt8} (hc : c.toNat < 97) (h : ngxTolower b = c) : b = c := by
  unfold ngxTolower at h
  by_cases hupper : 65 ≤ b.toNat ∧ b.toNat ≤ 90
  · rw [if_pos hupper] at h
    have hval : (UInt8.ofNat (b.toNat + 32)).toNat = b.toNat + 32 := by
      rw [UInt8.toNat_ofNat']
      omega
    rw [h] at hval
    omega
  · rwa [if_neg hupper] at h

theorem ngxTolower_plusToSpace {b : UInt8} (h : ngxTolower b ≠ 43) :
    ngxTolower (plusToSpace b) = ngxTolower b := by
  unfold plusToSpace
  by_cases hb : b = 43
  · subst hb
    exact absurd rfl h
  · rw [if_neg hb]

/-- What occurs in the raw copy and has no `+` occurs in the decoded one. -/
theorem infix_plusToSpace {sig d : Bytes} (hplus : 43 ∉ sig) (h : sig <:+: ngxStrlow d) :
    sig <:+: ngxStrlow (d.map plusToSpace) := by
  unfold ngxStrlow at h
  obtain ⟨e, he, rfl⟩ := List.infix_map_iff.mp h
  have hsame : e.map ngxTolower = (e.map plusToSpace).map ngxTolower := by
    rw [List.map_map]
    refine List.map_congr_left fun b hb => ?_
    have hne : ngxTolower b ≠ 43 := fun h43 => hplus (h43 ▸ List.mem_map_of_mem hb)
    exact (ngxTolower_plusToSpace hne).symm
  rw [hsame]
  exact (he.map plusToSpace).map ngxTolower

/-- Lower-casing brings no `%` and no `+`. -/
theorem notMem_ngxStrlow {c : UInt8} {d : Bytes} (hc : c.toNat < 97) (hd : c ∉ d) :
    c ∉ ngxStrlow d := by
  intro h
  obtain ⟨b, hb, heq⟩ := List.mem_map.mp h
  exact hd (ngxTolower_eq hc heq ▸ hb)

/-! ## §3. What an encoding hides. -/

/-- **What can be hidden**: a payload without a `%` that shows in its raw copy only is
`cscoe`. -/
theorem detects_hidden {skip : Mask} {d : Bytes} (hd : 37 ∉ d)
    (hraw : shieldTables.Shows matchRaw skip (ngxStrlow d))
    (hdec : ¬ shieldTables.Shows matchDecoded skip (ngxStrlow (d.map plusToSpace))) :
    skip.getLsbD ShieldCat.exploitPath.bit = false ∧ cscoe <:+: ngxStrlow d := by
  rcases hraw with ⟨c, hc, hin, hlive, sig, hsig, hshow⟩ | ⟨r, hr, hin, -, -⟩
  · rcases raw_sig_decoded c hc hin sig hsig with hpercent | ⟨hdecoded, hplus⟩ | ⟨hcat, rfl⟩
    · -- there is no percent sign to be seen
      exact absurd (hshow.subset hpercent) (notMem_ngxStrlow (by decide) hd)
    · -- it shows in the decoded copy, too
      exact absurd (.inl ⟨c, hc, hdecoded, hlive, sig, hsig, infix_plusToSpace hplus hshow⟩) hdec
    · exact ⟨hcat ▸ hlive, hshow⟩
  · rw [rules_not_raw r hr] at hin
    cases hin

/-- Where `cscoe` occurs in the raw copy, it shows. -/
theorem cscoe_shows {skip : Mask} {data : Bytes}
    (hlive : skip.getLsbD ShieldCat.exploitPath.bit = false) (h : cscoe <:+: data) :
    shieldTables.Shows matchRaw skip data := by
  obtain ⟨c, hc, hin, hcat, hmem⟩ := cscoe_mem
  exact .inl ⟨c, hc, hin, by rw [hcat]; exact hlive, cscoe, hmem, h⟩

/-- A buffer without a literal `+` stays detected however it is encoded. -/
theorem Detects.encoded {U : NgxUnescape} {A : Automata} {source : Bytes} {skip : Mask}
    {d d' : Bytes} (hdetects : Detects U A source skip d) (hd : 37 ∉ d) (hplus : 43 ∉ d)
    (h : Encodes d d') : Detects U A source skip d' := by
  rw [detects_iff, (Encodes.refl d).normalise U hd] at hdetects
  rw [detects_iff, h.normalise U hd]
  by_contra hmiss
  rw [not_or] at hmiss
  have hraw := hdetects.resolve_right hmiss.2
  obtain ⟨-, hcscoe⟩ := detects_hidden hd hraw hmiss.2
  have hmem : 43 ∈ cscoe := by decide
  exact notMem_ngxStrlow (by decide) hplus (hcscoe.subset hmem)

/-- **Percent-encoding hides one payload.**  A buffer without a `%` that is detected
stays detected however its bytes are encoded, unless `cscoe` is all there is to see:
it occurs in the buffer, nothing live shows once its `+` are spaces, and nothing live
shows in the encoded buffer as it stands. -/
theorem scanInput_encoded_iff (U : NgxUnescape) (A : Automata) (source : Bytes) (skip : Mask)
    {d d' : Bytes} (hd : 37 ∉ d) (h : Encodes d d') :
    (Detects U A source skip d → Detects U A source skip d')
      ↔ ¬ (skip.getLsbD ShieldCat.exploitPath.bit = false ∧ cscoe <:+: ngxStrlow d
        ∧ ¬ shieldTables.Shows matchDecoded skip (ngxStrlow (d.map plusToSpace))
        ∧ ¬ shieldTables.Shows matchRaw skip (ngxStrlow d')) := by
  rw [detects_iff, detects_iff, h.normalise U hd, (Encodes.refl d).normalise U hd]
  constructor
  · rintro himp ⟨hlive, hcscoe, hdec, hraw'⟩
    exact (himp (.inl (cscoe_shows hlive hcscoe))).elim hraw' hdec
  · intro hno hdetects
    by_contra hmiss
    rw [not_or] at hmiss
    obtain ⟨hraw', hdec⟩ := hmiss
    have hraw := hdetects.resolve_right hdec
    obtain ⟨hlive, hcscoe⟩ := detects_hidden hd hraw hdec
    exact hno ⟨hlive, hcscoe, hdec, hraw'⟩

/-- A traversal is found in any spelling. -/
theorem scanInput_encoded_iff_traversal :
    ∃ A, shieldInit AcAllocs.granted AcAllocs.granted true = .ok (some A)
      ∧ Detects ngxUnescapeUri A (bytesOf "uri") 0 (bytesOf "%2E./") := by
  obtain ⟨A, hA⟩ := shieldInit_granted
  have hplain : 37 ∉ bytesOf "../" := by decide
  have henc : Encodes (bytesOf "../") (bytesOf "%2E./") :=
    .encoded 46 (by rfl) (by rfl) (by rfl) (Encodes.refl _)
  have hkeep := (scanInput_encoded_iff ngxUnescapeUri A (bytesOf "uri") 0 hplain henc).mpr
    (fun hhidden => absurd hhidden.2.1 (by decide))
  refine ⟨A, hA, hkeep ?_⟩
  rw [detects_iff]
  exact .inl (by decide +kernel)

/-- With the category live, encoding one letter of the path hides it. -/
theorem scanInput_encoded_hides :
    ∃ A, shieldInit AcAllocs.granted AcAllocs.granted true = .ok (some A)
      ∧ 37 ∉ bytesOf "/+cscoe+/" ∧ Encodes (bytesOf "/+cscoe+/") (bytesOf "/+%63scoe+/")
      ∧ Detects ngxUnescapeUri A (bytesOf "uri") 0 (bytesOf "/+cscoe+/")
      ∧ ¬ Detects ngxUnescapeUri A (bytesOf "uri") 0 (bytesOf "/+%63scoe+/") := by
  obtain ⟨A, hA⟩ := shieldInit_granted
  have hplain : 37 ∉ bytesOf "/+cscoe+/" := by decide
  have henc : Encodes (bytesOf "/+cscoe+/") (bytesOf "/+%63scoe+/") :=
    .kept 47 (.kept 43 (.encoded 99 (by rfl) (by rfl) (by rfl) (Encodes.refl _)))
  refine ⟨A, hA, hplain, henc, ?_, ?_⟩
  · rw [detects_iff]
    exact .inl (cscoe_shows (by decide) (by decide))
  · rw [detects_iff, henc.normalise _ hplain]
    decide +kernel

end HttpShield
