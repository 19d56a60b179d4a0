/-
  HttpShield.Request.Headers
  ──────────────────────────
  Header inspection, one header at a time.

  nginx keeps the headers in a list and hands some of them out by name, too: what it
  calls `range` is the first `Range` of the list.  All the other checks walk the list,
  so that a header is flagged wherever it stands and whatever stands beside it.

    • `flagged_iff`                  — flagged headers, and the first `Range`,
    • `inspectPrebody_decoy_iff`     — a list is flagged when one of its headers is,
      unless a `Range` of few ranges stands before one of many.
-/
import HttpShield.Request.Flagged
import HttpShield.Request.Verdict

namespace HttpShield

/-! ## §1. A request with given headers. -/

/-- The header is named `Range`, in any letter case. -/
def isRange (h : Header) : Bool := headerNameIs h (bytesOf "Range")

/-- `ngx_http_process_request_headers`, as far as the module can tell: the headers in
arrival order, and those that are handed out by name. -/
def Request.withHeaders (r : Request) (l : HeaderList) : Request :=
  { r with
    headers := l
    range := l.all.find? isRange
    contentType := l.all.filter fun h => headerNameIs h (bytesOf "Content-Type")
    xForwardedFor := l.all.filter fun h => headerNameIs h (bytesOf "X-Forwarded-For") }

/-- The list of no header. -/
def HeaderList.empty : HeaderList where
  part := []
  next := []
  filled := noParts_filled

/-- The list of one header. -/
def HeaderList.single (h : Header) : HeaderList where
  part := [h]
  next := []
  filled := noParts_filled

@[simp] theorem HeaderList.all_empty : HeaderList.empty.all = [] := rfl

@[simp] theorem HeaderList.all_single (h : Header) : (HeaderList.single h).all = [h] := rfl

/-- The inspection before the body returns `NGX_OK`. -/
def Flagged (env : Env) (conf : LocConf) (r : Request) (w : World) : Prop :=
  ∃ hit w', inspectPrebody env conf r w = .ok (.ok hit, w')

theorem flagged_iff_carries {env : Env} (hgranted : env.Unfailing) (conf : LocConf) (r : Request)
    (w : World) : Flagged env conf r w
      ↔ ∃ c, conf.skip.getLsbD (ShieldCat.bit c) = false ∧ PrebodyCarries env r c := by
  obtain ⟨w', hinspect⟩ := inspectPrebody_total hgranted conf r w
  rw [← prebody_flagged_iff]
  unfold Flagged
  rw [hinspect]
  constructor
  · rintro ⟨hit, w'', h⟩
    exact ⟨hit, (Prod.ext_iff.mp (Except.ok.inj h)).1⟩
  · rintro ⟨hit, h⟩
    exact ⟨hit, w', by rw [h]⟩

/-! ## §2. One header at a time. -/

/-- A `Range` of too many ranges. -/
def TooManyRanges (h : Header) : Prop := maxRanges < 1 + h.value.count 44

/-- The header is flagged on its own, other than as a `Range`. -/
def HeaderFlagged (env : Env) (conf : LocConf) (h : Header) : Prop :=
  (conf.skip.getLsbD ShieldCat.httpoxy.bit = false ∧ headerNameIs h (bytesOf "Proxy") = true)
    ∨ ∃ c, conf.skip.getLsbD (ShieldCat.bit c) = false ∧ HeaderCarries env h c

/-- What nginx hands out as `range` has too many ranges. -/
def FirstRangeFlagged (conf : LocConf) (hs : List Header) : Prop :=
  conf.skip.getLsbD ShieldCat.rangeDos.bit = false
    ∧ ∃ h, hs.find? isRange = some h ∧ TooManyRanges h

/-- A request with a clean target is flagged for one of its headers, or for the first
`Range`. -/
theorem flagged_iff {env : Env} (hgranted : env.Unfailing) {conf : LocConf} {r : Request}
    {w : World} (hclean : ¬ Flagged env conf (r.withHeaders .empty) w) (l : HeaderList) :
    Flagged env conf (r.withHeaders l) w
      ↔ FirstRangeFlagged conf l.all ∨ ∃ h ∈ l.all, HeaderFlagged env conf h := by
  rw [flagged_iff_carries hgranted] at hclean ⊢
  constructor
  · rintro ⟨c, hlive, hcase | htarget | ⟨h, hh, hcarries⟩⟩
    · cases c with
      | httpoxy =>
          obtain ⟨h, hh, hname⟩ := hcase
          exact .inr ⟨h, hh, .inl ⟨hlive, hname⟩⟩
      | rangeDos => exact .inl ⟨hlive, hcase⟩
      | ctrlChar => exact absurd ⟨_, hlive, .inl hcase⟩ hclean
      | dotfile => exact absurd ⟨_, hlive, .inl hcase⟩ hclean
      | _ => exact hcase.elim
    · exact absurd ⟨c, hlive, .inr (.inl htarget)⟩ hclean
    · exact .inr ⟨h, hh, .inr ⟨c, hlive, hcarries⟩⟩
  · rintro (⟨hlive, hfirst⟩ | ⟨h, hh, ⟨hlive, hname⟩ | ⟨c, hlive, hcarries⟩⟩)
    · exact ⟨.rangeDos, hlive, .inl hfirst⟩
    · exact ⟨.httpoxy, hlive, .inl ⟨h, hh, hname⟩⟩
    · exact ⟨c, hlive, .inr (.inr ⟨h, hh, hcarries⟩)⟩

/-- The first `Range` of a single header is that header, if it is a `Range` at all. -/
theorem firstRangeFlagged_single (conf : LocConf) (h : Header) :
    FirstRangeFlagged conf [h] ↔ conf.skip.getLsbD ShieldCat.rangeDos.bit = false
      ∧ isRange h = true ∧ TooManyRanges h := by
  unfold FirstRangeFlagged
  by_cases hname : isRange h = true
  · rw [List.find?_cons_of_pos hname]
    simp [hname]
  · rw [List.find?_cons_of_neg hname]
    simp [hname]

/-- **What a decoy can hide**: a `Range` of too many ranges behind one of few, in a list
that is not flagged for anything else. -/
def RangeDecoyed (env : Env) (conf : LocConf) (l : HeaderList) : Prop :=
  conf.skip.getLsbD ShieldCat.rangeDos.bit = false
    ∧ (∃ h, l.all.find? isRange = some h ∧ ¬ TooManyRanges h)
    ∧ (∃ h ∈ l.all, isRange h = true ∧ TooManyRanges h)
    ∧ ∀ h ∈ l.all, ¬ HeaderFlagged env conf h

/-- In a list that decoys no `Range`, one of too many ranges is flagged,
or another header is. -/
theorem flagged_of_manyRanges {env : Env} {conf : LocConf} {l : HeaderList} {h : Header}
    (hfair : ¬ RangeDecoyed env conf l)
    (hlive : conf.skip.getLsbD ShieldCat.rangeDos.bit = false) (hin : h ∈ l.all)
    (hname : isRange h = true) (hmany : TooManyRanges h) :
    FirstRangeFlagged conf l.all ∨ ∃ h ∈ l.all, HeaderFlagged env conf h := by
  by_contra hmiss
  rw [not_or] at hmiss
  obtain ⟨hfirst, hnone⟩ := hmiss
  -- there is a first `Range`, and it has few ranges
  have hsome : (l.all.find? isRange).isSome = true := List.find?_isSome.mpr ⟨h, hin, hname⟩
  obtain ⟨h₁, hh₁⟩ := Option.isSome_iff_exists.mp hsome
  apply hfair
  exact ⟨hlive, ⟨h₁, hh₁, fun hmany₁ => hfirst ⟨hlive, h₁, hh₁, hmany₁⟩⟩,
    ⟨h, hin, hname, hmany⟩, fun h' hh' hf => hnone ⟨h', hh', hf⟩⟩

/-- **Header inspection is per instance, but for `Range`.**  Of a request with a clean
target, and whatever the list of its headers: it is flagged if and only if it is with
one of these headers alone, exactly when no `Range` is decoyed. -/
theorem inspectPrebody_decoy_iff (env : Env) (hgranted : env.Unfailing) (conf : LocConf)
    (r : Request) (w : World) (hclean : ¬ Flagged env conf (r.withHeaders .empty) w)
    (l : HeaderList) :
    (Flagged env conf (r.withHeaders l) w
        ↔ ∃ h ∈ l.all, Flagged env conf (r.withHeaders (.single h)) w)
      ↔ ¬ RangeDecoyed env conf l := by
  have hsingle : ∀ h, Flagged env conf (r.withHeaders (.single h)) w
      ↔ (conf.skip.getLsbD ShieldCat.rangeDos.bit = false
          ∧ isRange h = true ∧ TooManyRanges h)
        ∨ HeaderFlagged env conf h := by
    intro h
    rw [flagged_iff hgranted hclean, HeaderList.all_single, firstRangeFlagged_single]
    simp
  rw [flagged_iff hgranted hclean]
  simp only [hsingle]
  constructor
  · rintro hiff ⟨hlive, ⟨h₁, hfirst, hfew⟩, ⟨h, hh, hname, hmany⟩, hnone⟩
    -- the header alone is flagged, the list is not
    rcases hiff.mpr ⟨h, hh, .inl ⟨hlive, hname, hmany⟩⟩ with ⟨-, h₂, hsecond, hmany₂⟩ | ⟨h', hh', hf⟩
    · rw [hfirst] at hsecond
      obtain rfl := Option.some.inj hsecond
      exact hfew hmany₂
    · exact hnone h' hh' hf
  · intro hfair
    constructor
    · rintro (⟨hlive, h, hfirst, hmany⟩ | ⟨h, hh, hf⟩)
      · have hname : isRange h = true := List.find?_some hfirst
        exact ⟨h, List.mem_of_find?_eq_some hfirst, .inl ⟨hlive, hname, hmany⟩⟩
      · exact ⟨h, hh, .inr hf⟩
    · rintro ⟨h, hh, ⟨hlive, hname, hmany⟩ | hf⟩
      · exact flagged_of_manyRanges hfair hlive hh hname hmany
      · exact .inr ⟨h, hh, hf⟩

/-- **No decoy, no clearing**: headers that are added do not clear a flagged request
whose list has no decoyed `Range`. -/
theorem flagged_of_subset {env : Env} (hgranted : env.Unfailing) {conf : LocConf} {r : Request}
    {w : World} (hclean : ¬ Flagged env conf (r.withHeaders .empty) w) {l l' : HeaderList}
    (hsub : ∀ h ∈ l.all, h ∈ l'.all) (hfair : ¬ RangeDecoyed env conf l')
    (h : Flagged env conf (r.withHeaders l) w) : Flagged env conf (r.withHeaders l') w := by
  rw [flagged_iff hgranted hclean] at h ⊢
  rcases h with ⟨hlive, h, hfirst, hmany⟩ | ⟨h, hh, hf⟩
  · have hin := hsub h (List.mem_of_find?_eq_some hfirst)
    have hname : isRange h = true := List.find?_some hfirst
    exact flagged_of_manyRanges hfair hlive hin hname hmany
  · exact .inr ⟨h, hsub h hh, hf⟩

/-! ## §3. Two `Range` headers. -/

/-- A `Range` header of one range. -/
def fewRanges : Header where
  hash := 1
  key := bytesOf "Range"
  value := bytesOf "bytes=0-9"

/-- A `Range` header of eleven ranges. -/
def manyRanges : Header where
  hash := 1
  key := bytesOf "RANGE"
  value := bytesOf "bytes=0-0,1-1,2-2,3-3,4-4,5-5,6-6,7-7,8-8,9-9,10-10"

/-- Two headers, in list parts of their own. -/
def twoParts (h h' : Header) : HeaderList where
  part := [h]
  next := [[h']]
  filled := by simp

/-- The scan of the header values flags neither of the two `Range` headers. -/
theorem ranges_not_flagged (A : Automata) :
    ∀ h ∈ [fewRanges, manyRanges],
      ¬ HeaderFlagged (envGranting A fun _ => true) (loggingConf .block false) h := by
  have hnames : ∀ h ∈ [fewRanges, manyRanges], headerNameIs h (bytesOf "Proxy") = false := by
    decide
  have hvalues : ∀ h ∈ [fewRanges, manyRanges],
      ¬ ngxUnescapeUri.Shows (headerJob 0 h).skip (headerJob 0 h).data := by
    decide +kernel
  intro h hh
  rintro (⟨-, hproxy⟩ | ⟨c, hlive, -, hmask, hcarries⟩)
  · rw [hnames h hh] at hproxy
    cases hproxy
  · have hclean : ¬ (headerJob 0 h).Shows (envGranting A fun _ => true) := hvalues h hh
    apply hclean
    rw [ScanJob.shows_iff, headerJob_data, headerJob_skip]
    exact ⟨c, or_getLsbD_eq_false.mpr ⟨hlive, hmask⟩, hcarries⟩

/-- `POST /` without headers is clean. -/
theorem oneBytePost_empty_clean (A : Automata) :
    ¬ Flagged (envGranting A fun _ => true) (loggingConf .block false)
      (oneBytePost.withHeaders .empty) freshWorld := by
  have hverdict : prebodyVerdict (envGranting A fun _ => true) (loggingConf .block false)
      (oneBytePost.withHeaders .empty) = .declined :=
    prebodyVerdict_of_short (by decide +kernel) (by decide +kernel)
  rintro ⟨hit, w', h⟩
  obtain ⟨w'', hinspect⟩ := @inspectPrebody_total (envGranting A fun _ => true) (fun _ => rfl)
    (loggingConf .block false) (oneBytePost.withHeaders .empty) freshWorld
  rw [hinspect, hverdict] at h
  cases h

theorem manyRanges_flagged (A : Automata) :
    Flagged (envGranting A fun _ => true) (loggingConf .block false)
      (oneBytePost.withHeaders (.single manyRanges)) freshWorld := by
  rw [flagged_iff (fun _ => rfl) (oneBytePost_empty_clean A), HeaderList.all_single,
    firstRangeFlagged_single]
  exact .inl ⟨by decide, by decide, by unfold TooManyRanges; decide⟩

/-- A request whose `Range` of eleven ranges comes first is flagged. -/
theorem inspectPrebody_decoy_iff_seen :
    ∃ A, shieldInit AcAllocs.granted AcAllocs.granted true = .ok (some A)
      ∧ Flagged (envGranting A fun _ => true) (loggingConf .block false)
        (oneBytePost.withHeaders (twoParts manyRanges fewRanges)) freshWorld := by
  obtain ⟨A, hA⟩ := shieldInit_granted
  refine ⟨A, hA, ?_⟩
  have hfair : ¬ RangeDecoyed (envGranting A fun _ => true) (loggingConf .block false)
      (twoParts manyRanges fewRanges) := by
    rintro ⟨-, ⟨h, hfirst, hfew⟩, -, -⟩
    have heq : (twoParts manyRanges fewRanges).all.find? isRange = some manyRanges := by decide
    rw [heq] at hfirst
    obtain rfl := Option.some.inj hfirst
    exact hfew (by unfold TooManyRanges; decide)
  have hiff := (inspectPrebody_decoy_iff (envGranting A fun _ => true) (fun _ => rfl)
    (loggingConf .block false) oneBytePost freshWorld (oneBytePost_empty_clean A)
    (twoParts manyRanges fewRanges)).mpr hfair
  exact hiff.mpr ⟨manyRanges, by decide, manyRanges_flagged A⟩

/-- A `Range` of eleven ranges is flagged alone, and missed behind a `Range` of one. -/
theorem inspectPrebody_decoyed :
    ∃ A, shieldInit AcAllocs.granted AcAllocs.granted true = .ok (some A)
      ∧ ¬ Flagged (envGranting A fun _ => true) (loggingConf .block false)
        (oneBytePost.withHeaders .empty) freshWorld
      ∧ Flagged (envGranting A fun _ => true) (loggingConf .block false)
        (oneBytePost.withHeaders (.single manyRanges)) freshWorld
      ∧ ¬ Flagged (envGranting A fun _ => true) (loggingConf .block false)
        (oneBytePost.withHeaders (twoParts fewRanges manyRanges)) freshWorld := by
  obtain ⟨A, hA⟩ := shieldInit_granted
  refine ⟨A, hA, oneBytePost_empty_clean A, manyRanges_flagged A, ?_⟩
  rw [flagged_iff (fun _ => rfl) (oneBytePost_empty_clean A)]
  rintro (⟨-, h, hfirst, hmany⟩ | ⟨h, hh, hf⟩)
  · have heq : (twoParts fewRanges manyRanges).all.find? isRange = some fewRanges := by decide
    rw [heq] at hfirst
    obtain rfl := Option.some.inj hfirst
    exact absurd hmany (by unfold TooManyRanges; decide)
  · exact ranges_not_flagged A h hh hf

end HttpShield
