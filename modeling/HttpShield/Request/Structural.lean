/-
  HttpShield.Request.Structural
  ─────────────────────────────
  The walk over the request's headers, and the four structural checks: `httpoxy`,
  `range_dos`, `ctrl_char` and `dotfile`.

    • `HeaderList.walk_eq`   — the walk over the parts visits the elements in order,
    • `dotfileLoop_returns`  — the walk over the path stays inside it and ends,
    • `structural_answers`   — the checks answer hit or clean, never "could not scan".
-/
import HttpShield.Request.Types

namespace HttpShield

/-! ## §1. Walking the headers. -/

section Walk

variable {σ ρ : Type} (visit : σ → Header → Except Fault (Option ρ × σ))

/-- The elements of one part, then `rest`; a visit that answers ends the walk. -/
def partWalk (rest : σ → Except Fault (Option ρ × σ)) :
    List Header → σ → Except Fault (Option ρ × σ)
  | [], s => rest s
  | h :: hs, s => do
      match ← visit s h with
      | (some r, s) => return (some r, s)
      | (none, s) => partWalk rest hs s

/-- The parts after the first.  On entering a part its first element is read before
its length is looked at again. -/
def partsWalk : List (List Header) → σ → Except Fault (Option ρ × σ)
  | [], s => .ok (none, s)
  | [] :: _, _ => .error .outOfBounds
  | (h :: hs) :: ps, s => partWalk visit (partsWalk ps) (h :: hs) s

/-- The `for` loop over `r->headers_in.headers`. -/
def HeaderList.walk (l : HeaderList) (s : σ) : Except Fault (Option ρ × σ) :=
  partWalk visit (partsWalk visit l.next) l.part s

/-- The walk of the header list, over a plain list. -/
def visitAll : List Header → σ → Except Fault (Option ρ × σ)
  | [], s => .ok (none, s)
  | h :: hs, s => do
      match ← visit s h with
      | (some r, s) => return (some r, s)
      | (none, s) => visitAll hs s

theorem partWalk_eq {rest : σ → Except Fault (Option ρ × σ)} {tail : List Header}
    (hrest : ∀ s, rest s = visitAll visit tail s) (hs : List Header) (s : σ) :
    partWalk visit rest hs s = visitAll visit (hs ++ tail) s := by
  induction hs generalizing s with
  | nil => exact hrest s
  | cons h hs ih =>
      unfold partWalk
      rw [List.cons_append]
      unfold visitAll
      cases visit s h with
      | error e => rfl
      | ok a =>
          obtain ⟨answer, s'⟩ := a
          cases answer with
          | some r => rfl
          | none => exact ih s'

theorem partsWalk_eq (ps : List (List Header)) (hfilled : ∀ p ∈ ps, p ≠ []) (s : σ) :
    partsWalk visit ps s = visitAll visit ps.flatten s := by
  induction ps generalizing s with
  | nil => rfl
  | cons p ps ih =>
      cases p with
      | nil => exact absurd rfl (hfilled [] (by simp))
      | cons h hs =>
          unfold partsWalk
          rw [List.flatten_cons]
          exact partWalk_eq visit (ih fun p hp => hfilled p (by simp [hp])) (h :: hs) s

/-- **The walk visits the elements in order**, and stays inside the parts. -/
theorem HeaderList.walk_eq (l : HeaderList) (s : σ) :
    l.walk visit s = visitAll visit l.all s :=
  partWalk_eq visit (partsWalk_eq visit l.next l.filled) l.part s

end Walk

/-- `ngx_http_shield_header_name_is`. -/
def headerNameIs (h : Header) (name : Bytes) : Bool :=
  h.key.length == name.length && ngxStrncasecmp h.key name name.length == 0

/-! ## §2. `httpoxy`, `range_dos`, `ctrl_char`. -/

/-- `(uint64_t) 1 << NGX_HTTP_SHIELD_CAT_..`. -/
def ShieldCat.mask (c : ShieldCat) : Mask := BitVec.twoPow 64 c.bit

/-- The hit of a structural category. -/
def structuralHit (c : ShieldCat) (name source : String) : Hit :=
  { category := bytesOf name, cat := c.bit, source := bytesOf source }

/-- One header of the `httpoxy` walk. -/
def visitProxy (_ : Unit) (h : Header) : Except Fault (Option Unit × Unit) :=
  .ok (if headerNameIs h (bytesOf "Proxy") then some () else none, ())

/-- `ngx_http_shield_check_httpoxy`. -/
def checkHttpoxy (skip : Mask) (r : Request) : Except Fault Inspection := do
  if skip &&& ShieldCat.httpoxy.mask ≠ 0 then
    return .declined
  -- any such header, whatever it holds
  let (found, _) ← r.headers.walk visitProxy ()
  if found.isSome then
    return .ok (structuralHit .httpoxy "httpoxy" "header")
  return .declined

/-- `NGX_HTTP_SHIELD_MAX_RANGES`. -/
def maxRanges : Nat := 10

/-- `ngx_http_shield_check_range`. -/
def checkRange (skip : Mask) (r : Request) : Except Fault Inspection :=
  if skip &&& ShieldCat.rangeDos.mask ≠ 0 then .ok .declined
  else
    match r.range with
    | none => .ok .declined
    | some range =>
        -- a comma more than ranges is one range more here, empty ones included
        if 1 + range.value.count 44 > maxRanges then
          .ok (.ok (structuralHit .rangeDos "range_dos" "range"))
        else .ok .declined

/-- A C0 control byte that no other category is responsible for. -/
def isCtrlChar (c : UInt8) : Bool := c < 32 && !(c == 0 || c == 13 || c == 10)

/-- `ngx_http_shield_check_ctrl_char`. -/
def checkCtrlChar (skip : Mask) (r : Request) : Except Fault Inspection :=
  if skip &&& ShieldCat.ctrlChar.mask ≠ 0 then .ok .declined
  else if r.uri.any isCtrlChar then .ok (.ok (structuralHit .ctrlChar "ctrl_char" "uri"))
  else .ok .declined

/-! ## §3. `dotfile`. -/

/-- `NGX_HTTP_SHIELD_WELL_KNOWN`. -/
def wellKnown : Bytes := bytesOf ".well-known"

/-- At `i` stands the segment `.`. -/
def loneDotAt (uri : Bytes) (i rest : Nat) : Except Fault Bool := do
  -- at the end of the path, or in front of a slash
  if rest = 1 then return true
  if rest ≥ 2 then return (← byteAt uri (i + 1)) == 47
  return false

/-- At `i` stands the segment `..`. -/
def dotDotAt (uri : Bytes) (i rest : Nat) : Except Fault Bool := do
  if rest = 2 then return (← byteAt uri (i + 1)) == 46
  if rest ≥ 3 then
    if (← byteAt uri (i + 1)) == 46 then return (← byteAt uri (i + 2)) == 47
  return false

/-- At `i` stands the segment `.well-known`. -/
def wellKnownAt (uri : Bytes) (i rest : Nat) : Except Fault Bool := do
  if rest ≥ wellKnown.length ∧ (uri.drop i).take wellKnown.length = wellKnown then
    if rest = wellKnown.length then return true
    return (← byteAt uri (i + wellKnown.length)) == 47
  return false

/-- The loop of `ngx_http_shield_check_dotfile`, from position `i`. -/
def dotfileLoop (uri : Bytes) : Nat → Nat → Bool → Except Fault Bool
  | 0, _, _ => .error .outOfFuel
  | fuel + 1, i, atSegmentStart =>
      if i < uri.length then do
        let c ← byteAt uri i
        if c = 47 then
          dotfileLoop uri fuel (i + 1) true
        else if atSegmentStart ∧ c = 46 then
          let rest := uri.length - i
          if ← loneDotAt uri i rest then
            dotfileLoop uri fuel (i + 1) false
          else if ← dotDotAt uri i rest then
            dotfileLoop uri fuel (i + 1) false
          else if ← wellKnownAt uri i rest then
            dotfileLoop uri fuel (i + wellKnown.length) false
          else return true
        else
          dotfileLoop uri fuel (i + 1) false
      else return false

/-- `ngx_http_shield_check_dotfile`. -/
def checkDotfile (skip : Mask) (r : Request) : Except Fault Inspection := do
  if skip &&& ShieldCat.dotfile.mask ≠ 0 then
    return .declined
  if ← dotfileLoop r.uri (r.uri.length + 1) 0 true then
    return .ok (structuralHit .dotfile "dotfile" "uri")
  return .declined

theorem loneDotAt_returns {uri : Bytes} {i : Nat} (hi : i < uri.length) :
    ∃ b, loneDotAt uri i (uri.length - i) = .ok b := by
  unfold loneDotAt
  by_cases h1 : uri.length - i = 1
  · exact ⟨true, by rw [if_pos h1]; rfl⟩
  · have h2 : uri.length - i ≥ 2 := by omega
    rw [if_neg h1, if_pos h2, byteAt_eq (by omega)]
    exact ⟨_, rfl⟩

theorem dotDotAt_returns {uri : Bytes} {i : Nat} (hi : i < uri.length) :
    ∃ b, dotDotAt uri i (uri.length - i) = .ok b := by
  unfold dotDotAt
  by_cases h2 : uri.length - i = 2
  · rw [if_pos h2, byteAt_eq (by omega)]
    exact ⟨_, rfl⟩
  · rw [if_neg h2]
    by_cases h3 : uri.length - i ≥ 3
    · rw [if_pos h3, byteAt_eq (by omega), ok_bind]
      by_cases hdot : (uri[i + 1] == 46) = true
      · rw [if_pos hdot, byteAt_eq (by omega)]
        exact ⟨_, rfl⟩
      · rw [if_neg hdot]
        exact ⟨_, rfl⟩
    · rw [if_neg h3]
      exact ⟨_, rfl⟩

theorem wellKnownAt_returns {uri : Bytes} {i : Nat} (hi : i < uri.length) :
    ∃ b, wellKnownAt uri i (uri.length - i) = .ok b
      ∧ (b = true → i + wellKnown.length ≤ uri.length) := by
  unfold wellKnownAt
  by_cases hseg : uri.length - i ≥ wellKnown.length
      ∧ (uri.drop i).take wellKnown.length = wellKnown
  · have hfits : i + wellKnown.length ≤ uri.length := by omega
    rw [if_pos hseg]
    by_cases hend : uri.length - i = wellKnown.length
    · exact ⟨true, by rw [if_pos hend]; rfl, fun _ => hfits⟩
    · rw [if_neg hend, byteAt_eq (by omega)]
      exact ⟨_, rfl, fun _ => hfits⟩
  · rw [if_neg hseg]
    exact ⟨false, rfl, fun h => by cases h⟩

/-- The loop never reads outside the path, and ends. -/
theorem dotfileLoop_returns {uri : Bytes} (fuel i : Nat) (atSegmentStart : Bool)
    (hle : i ≤ uri.length) (hfuel : uri.length < fuel + i) :
    ∃ b, dotfileLoop uri fuel i atSegmentStart = .ok b := by
  induction fuel generalizing i atSegmentStart with
  | zero => omega
  | succ fuel ih =>
      unfold dotfileLoop
      by_cases hi : i < uri.length
      · rw [if_pos hi, byteAt_eq hi, ok_bind]
        by_cases hslash : uri[i] = 47
        · rw [if_pos hslash]
          exact ih (i + 1) true (by omega) (by omega)
        · rw [if_neg hslash]
          by_cases hdot : atSegmentStart = true ∧ uri[i] = 46
          · obtain ⟨lone, hlone⟩ := loneDotAt_returns hi
            obtain ⟨dots, hdots⟩ := dotDotAt_returns hi
            obtain ⟨known, hknown, hfits⟩ := wellKnownAt_returns hi
            rw [if_pos hdot]
            simp only [hlone, hdots, hknown, ok_bind]
            cases lone with
            | true => exact ih (i + 1) false (by omega) (by omega)
            | false =>
                cases dots with
                | true => exact ih (i + 1) false (by omega) (by omega)
                | false =>
                    cases known with
                    | true =>
                        have hlen : wellKnown.length = 11 := by decide
                        exact ih (i + wellKnown.length) false (hfits rfl) (by omega)
                    | false => exact ⟨true, rfl⟩
          · rw [if_neg hdot]
            exact ih (i + 1) false (by omega) (by omega)
      · rw [if_neg hi]
        exact ⟨false, rfl⟩

/-! ## §4. The checks together. -/

/-- The structural checks, in the order `ngx_http_shield_inspect_prebody` makes them. -/
def structural (skip : Mask) (r : Request) : Except Fault Inspection := do
  match ← checkHttpoxy skip r with
  | .ok hit => return .ok hit
  | _ =>
      match ← checkRange skip r with
      | .ok hit => return .ok hit
      | _ =>
          match ← checkCtrlChar skip r with
          | .ok hit => return .ok hit
          | _ => checkDotfile skip r

/-- The check answers, and does not fail to scan. -/
def Answers (x : Except Fault Inspection) : Prop :=
  x = .ok .declined ∨ ∃ hit, x = .ok (.ok hit)

/-- Visiting headers for the `Proxy` name cannot fail. -/
theorem visitAll_visitProxy (hs : List Header) :
    ∃ found, visitAll visitProxy hs () = .ok (found, ()) := by
  induction hs with
  | nil => exact ⟨none, rfl⟩
  | cons h hs ih =>
      unfold visitAll visitProxy
      by_cases hname : headerNameIs h (bytesOf "Proxy") = true
      · exact ⟨some (), by rw [if_pos hname]; rfl⟩
      · rw [if_neg hname]
        exact ih

theorem checkHttpoxy_answers (skip : Mask) (r : Request) : Answers (checkHttpoxy skip r) := by
  unfold checkHttpoxy
  by_cases hskip : skip &&& ShieldCat.httpoxy.mask ≠ 0
  · rw [if_pos hskip]
    exact .inl rfl
  · obtain ⟨found, hfound⟩ := visitAll_visitProxy r.headers.all
    rw [if_neg hskip, HeaderList.walk_eq, hfound]
    cases found with
    | none => exact .inl rfl
    | some u => exact .inr ⟨_, rfl⟩

theorem checkRange_answers (skip : Mask) (r : Request) : Answers (checkRange skip r) := by
  unfold checkRange
  split
  · exact .inl rfl
  · split
    · exact .inl rfl
    · split
      · exact .inr ⟨_, rfl⟩
      · exact .inl rfl

theorem checkCtrlChar_answers (skip : Mask) (r : Request) : Answers (checkCtrlChar skip r) := by
  unfold checkCtrlChar
  split
  · exact .inl rfl
  · split
    · exact .inr ⟨_, rfl⟩
    · exact .inl rfl

theorem checkDotfile_answers (skip : Mask) (r : Request) : Answers (checkDotfile skip r) := by
  unfold checkDotfile
  by_cases hskip : skip &&& ShieldCat.dotfile.mask ≠ 0
  · rw [if_pos hskip]
    exact .inl rfl
  · obtain ⟨b, hb⟩ := @dotfileLoop_returns r.uri (r.uri.length + 1) 0 true (by omega) (by omega)
    rw [if_neg hskip, hb]
    cases b with
    | false => exact .inl rfl
    | true => exact .inr ⟨_, rfl⟩

/-- **The structural checks answer hit or clean.** -/
theorem structural_answers (skip : Mask) (r : Request) : Answers (structural skip r) := by
  unfold structural
  rcases checkHttpoxy_answers skip r with h | ⟨hit, h⟩
  · rw [h, ok_bind]
    rcases checkRange_answers skip r with h | ⟨hit, h⟩
    · show Answers (checkRange skip r >>= _)
      rw [h, ok_bind]
      rcases checkCtrlChar_answers skip r with h | ⟨hit, h⟩
      · show Answers (checkCtrlChar skip r >>= _)
        rw [h, ok_bind]
        exact checkDotfile_answers skip r
      · show Answers (checkCtrlChar skip r >>= _)
        rw [h]
        exact .inr ⟨hit, rfl⟩
    · show Answers (checkRange skip r >>= _)
      rw [h]
      exact .inr ⟨hit, rfl⟩
  · rw [h]
    exact .inr ⟨hit, rfl⟩

end HttpShield
