/-
  HttpShield.Request.Body
  ───────────────────────
  Body inspection: which bodies are scanned, how one is collected from nginx's chain
  of buffers into one, and its scan.

    • `collectBody_spec` — what is collected is the first `shield_max_body` bytes,
      however the chain is cut and whatever reads are short; nothing is written past
      the allocation,
    • `inspectBody_spec` — a clean verdict means that just these bytes were scanned.
-/
import HttpShield.Request.Inspect
import HttpShield.Request.BanKey
import Mathlib.Data.List.DropRight

namespace HttpShield

/-! ## §1. Media types. -/

/-- `ngx_http_shield_content_type_is`. -/
def contentTypeIs (v type : Bytes) : Bool :=
  if v.length < type.length ∨ ngxStrncasecmp v type type.length ≠ 0 then false
  else
    match (v.drop type.length).dropWhile isBlank with
    -- the type alone, or its parameters behind a semicolon
    | [] => true
    | c :: _ => c == 59

/-- `ngx_http_shield_content_type_suffix`. -/
def contentTypeSuffix (v suffix : Bytes) : Bool :=
  let application := bytesOf "application/"
  if v.length < application.length + suffix.length
      ∨ ngxStrncasecmp v application application.length ≠ 0 then false
  else
    let essence := (v.takeWhile (· ≠ 59)).rdropWhile isBlank
    essence.length ≥ suffix.length
      && ngxStrncasecmp (essence.drop (essence.length - suffix.length)) suffix suffix.length == 0

/-- `ngx_http_shield_content_type_value_scannable`. -/
def contentTypeValueScannable (v : Bytes) : Bool :=
  contentTypeIs v (bytesOf "application/x-www-form-urlencoded")
    || contentTypeIs v (bytesOf "multipart/form-data")
    || contentTypeIs v (bytesOf "application/json")
    || (v.length ≥ (bytesOf "text/").length
        && ngxStrncasecmp v (bytesOf "text/") (bytesOf "text/").length == 0)
    || contentTypeIs v (bytesOf "application/xml")
    || (contentTypeSuffix v (bytesOf "+json")
        || contentTypeSuffix v (bytesOf "+xml")
        || contentTypeIs v (bytesOf "application/graphql")
        || contentTypeIs v (bytesOf "application/x-ndjson")
        || contentTypeIs v (bytesOf "application/json-seq")
        || contentTypeIs v (bytesOf "application/yaml")
        || contentTypeIs v (bytesOf "application/x-yaml"))

/-- `ngx_http_shield_scannable_body`. -/
def scannableBody (r : Request) : Bool :=
  if r.contentLengthN ≤ 0 ∧ ¬ r.chunked then false
  else if r.contentType = [] then true
  else r.contentType.any fun ct => contentTypeValueScannable ct.value

/-! ## §2. Collecting the body. -/

/-- One file read done. -/
def World.noteRead (w : World) : World := { w with reads := w.reads + 1 }

/-- The `while (done < len)` loop over a buffer in the temporary file.  `file` is what
the file holds from the offset on, `len` what is still to be read, and `out` the scan
buffer of `max` bytes so far; `none` is `NGX_ERROR`.  Each round reads something, so
`len` rounds are enough. -/
def readLoop (env : Env) (max : Nat) :
    Nat → Bytes → Nat → Bytes → World → Except Fault (Option Bytes × World)
  | _, _, 0, out, w => .ok (some out, w)
  | 0, _, _ + 1, _, _ => .error .outOfFuel
  | fuel + 1, file, len + 1, out, w => do
      let rn := min (env.readFile w.reads) (min (len + 1) file.length : Nat)
      let w := w.noteRead
      -- an error and the end of the file are the same here: the body was not scanned
      if rn ≤ 0 then return (none, w)
      let out ← fill max (out ++ file.take rn.toNat)
      readLoop env max fuel (file.drop rn.toNat) (len + 1 - rn.toNat) out w

/-- The loop over the chain. -/
def collectLoop (env : Env) (max : Nat) :
    List Buf → Bytes → World → Except Fault (Option Bytes × World)
  | [], out, w => .ok (some out, w)
  | b :: bufs, out, w =>
      if out.length < max then
        match b with
        | .memory bytes => do
            let len := min bytes.length (max - out.length)
            let out ← fill max (out ++ bytes.take len)
            collectLoop env max bufs out w
        | .file bytes => do
            let len := min bytes.length (max - out.length)
            match ← readLoop env max len bytes len out w with
            | (none, w) => return (none, w)
            | (some out, w) => collectLoop env max bufs out w
        -- neither in memory nor in a file: nothing to collect
        | .special => collectLoop env max bufs out w
      else .ok (some out, w)

/-- The size of the scan buffer: the cap, or the body's length if that is known and
less. -/
def scanBufferSize (max : Nat) (contentLengthN : Int) : Nat :=
  if contentLengthN > 0 ∧ (max : Int) > contentLengthN then contentLengthN.toNat else max

/-- `ngx_http_shield_collect_body`; `none` is `NGX_ERROR`. -/
def collectBody (env : Env) (max : Nat) (a : Arrival env.hash) (w : World) :
    Except Fault (Option Bytes × World) :=
  match a.bufs with
  | none => .ok (some [], w)
  | some bufs =>
      if max = 0 then .ok (some [], w)
      else
        -- from here on the cap is the size of the allocation
        let max := scanBufferSize max a.contentLengthN
        let (granted, w) := w.palloc env
        if granted then collectLoop env max bufs [] w else .ok (none, w)

/-! ## §3. What is collected. -/

theorem fill_eq {size : Nat} {bytes : Bytes} (h : bytes.length ≤ size) :
    fill size bytes = .ok bytes := if_pos h

theorem World.noteRead_quiet (w : World) : w.Quiet w.noteRead where
  zone := rfl
  now := rfl
  ctx := rfl
  acted := rfl
  scans := List.prefix_refl _

theorem World.palloc_quiet (env : Env) (w : World) : w.Quiet (w.palloc env).2 where
  zone := rfl
  now := rfl
  ctx := rfl
  acted := rfl
  scans := List.prefix_refl _

/-- **One round of the loop** fails, or adds what was read and goes on with the rest. -/
theorem readLoop_round (env : Env) {max : Nat} (fuel : Nat) (file : Bytes) {len : Nat}
    (out : Bytes) (w : World) (hlen : len + 1 ≤ file.length) (hfits : out.length + (len + 1) ≤ max) :
    (env.readFile w.reads ≤ 0
        ∧ readLoop env max (fuel + 1) file (len + 1) out w = .ok (none, w.noteRead))
      ∨ ∃ n, 0 < n ∧ n = min (env.readFile w.reads).toNat (len + 1)
        ∧ (out ++ file.take n).length = out.length + n
        ∧ readLoop env max (fuel + 1) file (len + 1) out w
          = readLoop env max fuel (file.drop n) (len + 1 - n) (out ++ file.take n) w.noteRead := by
  by_cases hfail : env.readFile w.reads ≤ 0
  · left
    refine ⟨hfail, ?_⟩
    have hnothing : min (env.readFile w.reads) (min (len + 1) file.length : Nat) ≤ 0 := by omega
    unfold readLoop
    simp only [if_pos hnothing]
    rfl
  · right
    obtain ⟨n, hn⟩ : ∃ n : Nat, n = min (env.readFile w.reads).toNat (len + 1) := ⟨_, rfl⟩
    have hbrought : min (env.readFile w.reads) (min (len + 1) file.length : Nat) = n := by omega
    have hpiece : (out ++ file.take n).length = out.length + n := by
      rw [List.length_append, List.length_take]
      omega
    refine ⟨n, by omega, hn, hpiece, ?_⟩
    conv_lhs => unfold readLoop
    simp only [hbrought, Int.toNat_natCast]
    rw [if_neg (by omega), fill_eq (by omega), ok_bind]

/-- Reading a buffer of the file ends with all of it, or with an error. -/
theorem readLoop_spec (env : Env) {max : Nat} (fuel : Nat) (file : Bytes) (len : Nat)
    (out : Bytes) (w : World) (hfuel : len ≤ fuel) (hlen : len ≤ file.length)
    (hfits : out.length + len ≤ max) :
    ∃ got w', readLoop env max fuel file len out w = .ok (got, w') ∧ w.Quiet w'
      ∧ (∀ out', got = some out' → out' = out ++ file.take len)
      ∧ ((∀ i, 0 < env.readFile i) → got ≠ none) := by
  induction fuel generalizing file len out w with
  | zero =>
      obtain rfl : len = 0 := by omega
      refine ⟨some out, w, by unfold readLoop; rfl, .refl w, ?_, by simp⟩
      intro out' h
      rw [List.take_zero, List.append_nil]
      exact (Option.some.inj h).symm
  | succ fuel ih =>
      cases len with
      | zero =>
          refine ⟨some out, w, by unfold readLoop; rfl, .refl w, ?_, by simp⟩
          intro out' h
          rw [List.take_zero, List.append_nil]
          exact (Option.some.inj h).symm
      | succ len =>
          rcases readLoop_round env fuel file out w hlen hfits with
            ⟨hfail, hround⟩ | ⟨n, hpos, hn, hpiece, hround⟩
          · refine ⟨none, w.noteRead, hround, w.noteRead_quiet, by simp, ?_⟩
            intro hreads
            have := hreads w.reads
            omega
          · have hn_le : n ≤ len + 1 := by omega
            obtain ⟨got, w', hrest, hquiet, hout, hsome⟩ := ih (file.drop n) (len + 1 - n)
              (out ++ file.take n) w.noteRead (by omega) (by rw [List.length_drop]; omega)
              (by omega)
            refine ⟨got, w', hround.trans hrest, w.noteRead_quiet.trans hquiet, ?_, hsome⟩
            intro out' h
            rw [hout out' h, List.append_assoc]
            congr 1
            rw [← List.take_append_drop n (file.take (len + 1)), List.take_take,
              Nat.min_eq_left hn_le, List.drop_take]

/-- Behind a buffer of these bytes the scan buffer holds as many as there were and as fit. -/
theorem append_take_length {max : Nat} {out : Bytes} (bytes : Bytes) (hfits : out.length ≤ max) :
    (out ++ bytes.take (min bytes.length (max - out.length))).length
      = min (out.length + bytes.length) max := by
  rw [List.length_append, List.length_take]
  omega

/-- Filling in two buffers one by one fills in both of them together, up to the cap. -/
theorem append_take_append {max : Nat} {out : Bytes} (bytes rest : Bytes)
    (hfits : out.length ≤ max) :
    (out ++ bytes.take (min bytes.length (max - out.length)))
        ++ rest.take (max - (out ++ bytes.take (min bytes.length (max - out.length))).length)
      = out ++ (bytes ++ rest).take (max - out.length) := by
  rw [append_take_length bytes hfits, List.append_assoc, List.take_append,
    Nat.min_comm bytes.length, ← List.take_eq_take_min]
  congr 3
  omega

/-- **The loop over the chain** collects the first bytes of the chain, or fails. -/
theorem collectLoop_spec (env : Env) {max : Nat} (bufs : List Buf) (out : Bytes) (w : World)
    (hfits : out.length ≤ max) :
    ∃ got w', collectLoop env max bufs out w = .ok (got, w') ∧ w.Quiet w'
      ∧ (∀ out', got = some out'
        → out' = out ++ (bufs.flatMap Buf.bytes).take (max - out.length))
      ∧ ((∀ i, 0 < env.readFile i) → got ≠ none) := by
  induction bufs generalizing out w with
  | nil =>
      refine ⟨some out, w, rfl, .refl w, ?_, by simp⟩
      intro out' h
      obtain rfl := Option.some.inj h
      simp
  | cons b bufs ih =>
      unfold collectLoop
      -- The buffer is never over its cap, and a full one ends the loop.
      by_cases hroom : out.length < max
      · rw [if_pos hroom]
        cases b with
        | memory bytes =>
            have hlen := (append_take_length bytes hfits).trans_le (Nat.min_le_right _ max)
            obtain ⟨got, w', hrest, hquiet, hout, hsome⟩ := ih _ w hlen
            refine ⟨got, w', ?_, hquiet, ?_, hsome⟩
            · simp only [fill_eq hlen, ok_bind]
              exact hrest
            · intro out' h
              rw [hout out' h]
              exact append_take_append bytes (bufs.flatMap Buf.bytes) hfits
        | file bytes =>
            have hlen := (append_take_length bytes hfits).trans_le (Nat.min_le_right _ max)
            obtain ⟨got, w', hread, hquiet, hout, hsome⟩ := @readLoop_spec env max
              (min bytes.length (max - out.length)) bytes (min bytes.length (max - out.length))
              out w (Nat.le_refl _) (Nat.min_le_left _ _) (by omega)
            -- A read that fails gives up the buffer, whatever was collected before.
            cases got with
            | none =>
                refine ⟨none, w', ?_, hquiet, by simp, hsome⟩
                simp only [hread, ok_bind]
                rfl
            | some out₁ =>
                obtain rfl := hout out₁ rfl
                obtain ⟨got, w'', hrest, hquiet', hout', hsome'⟩ := ih _ w' hlen
                refine ⟨got, w'', ?_, hquiet.trans hquiet', ?_, hsome'⟩
                · simp only [hread, ok_bind]
                  exact hrest
                · intro out' h
                  rw [hout' out' h]
                  exact append_take_append bytes (bufs.flatMap Buf.bytes) hfits
        | special =>
            obtain ⟨got, w', hrest, hquiet, hout, hsome⟩ := ih out w hfits
            exact ⟨got, w', hrest, hquiet, hout, hsome⟩
      · rw [if_neg hroom]
        refine ⟨some out, w, rfl, .refl w, ?_, by simp⟩
        intro out' h
        obtain rfl := Option.some.inj h
        rw [Nat.sub_eq_zero_of_le (by omega), List.take_zero, List.append_nil]

/-- Sizing the buffer to the known length cuts nothing off. -/
theorem Arrival.take_scanBufferSize {hash : Addr → Nat} (a : Arrival hash) (max : Nat) :
    a.content.take (scanBufferSize max a.contentLengthN) = a.content.take max := by
  unfold scanBufferSize
  by_cases hknown : a.contentLengthN > 0 ∧ (max : Int) > a.contentLengthN
  · have hlen : a.contentLengthN = (a.content.length : Nat) :=
      a.complete.resolve_left (by omega)
    rw [if_pos hknown, hlen, Int.toNat_natCast, List.take_length,
      List.take_of_length_le (by omega)]
  · rw [if_neg hknown]

/-- **Collecting the body** gives its first `max` bytes, or fails. -/
theorem collectBody_spec (env : Env) (max : Nat) (a : Arrival env.hash) (w : World) :
    ∃ got w', collectBody env max a w = .ok (got, w') ∧ w.Quiet w'
      ∧ (∀ out, got = some out → out = a.content.take max)
      ∧ ((∀ i, env.granted i = true) → (∀ i, 0 < env.readFile i) → got ≠ none) := by
  unfold collectBody
  have hcontent : a.content = (a.bufs.getD []).flatMap Buf.bytes := rfl
  cases hbufs : a.bufs with
  | none =>
      rw [hbufs] at hcontent
      refine ⟨some [], w, rfl, .refl w, ?_, by simp⟩
      intro out h
      rw [hcontent, ← Option.some.inj h]
      simp
  | some bufs =>
      rw [hbufs] at hcontent
      by_cases hmax : max = 0
      · refine ⟨some [], w, if_pos hmax, .refl w, ?_, by simp⟩
        intro out h
        rw [hmax, List.take_zero, ← Option.some.inj h]
      · simp only [if_neg hmax]
        by_cases hgranted : (w.palloc env).1 = true
        · obtain ⟨got, w', hcollect, hquiet, hout, hsome⟩ := @collectLoop_spec env
            (scanBufferSize max a.contentLengthN) bufs [] (w.palloc env).2 (Nat.zero_le _)
          refine ⟨got, w', ?_, (w.palloc_quiet env).trans hquiet, ?_, fun _ => hsome⟩
          · rw [if_pos hgranted]
            exact hcollect
          · intro out h
            rw [hout out h, List.nil_append, List.length_nil, Nat.sub_zero,
              ← a.take_scanBufferSize max, hcontent]
            rfl
        · refine ⟨none, _, if_neg hgranted, w.palloc_quiet env, by simp, ?_⟩
          intro hall
          exact absurd (hall w.allocs) hgranted

/-! ## §4. Inspecting the body. -/

/-- What `ngx_http_shield_no_body_mask` computes. -/
def bodyMask : Mask :=
  ShieldCat.xss.mask ||| ShieldCat.traversal.mask ||| ShieldCat.cmdi.mask
    ||| ShieldCat.lfiRfi.mask ||| ShieldCat.template.mask ||| ShieldCat.phpRce.mask
    ||| ShieldCat.javaRce.mask ||| ShieldCat.javaEval.mask ||| ShieldCat.sensitiveFile.mask
    ||| ShieldCat.exploitPath.mask

theorem noBodyMask_eq : noBodyMask = .ok bodyMask := by decide

/-- `ngx_http_shield_inspect_body`. -/
def inspectBody (env : Env) (conf : LocConf) (a : Arrival env.hash) (w : World) :
    Except Fault (Inspection × World) := do
  match ← collectBody env conf.maxBody a w with
  | (none, w) => return (.error, w)
  | (some body, w) =>
      -- no body is nothing to scan, and no reason to fail
      if body.length = 0 then return (.declined, w)
      let noBody ← noBodyMask
      scanR env w ⟨body, bytesOf "body", conf.skip ||| noBody⟩

/-- The scan of the body: its first `shield_max_body` bytes. -/
def bodyJob (conf : LocConf) (content : Bytes) : ScanJob :=
  ⟨content.take conf.maxBody, bytesOf "body", conf.skip ||| bodyMask⟩

/-- **A clean body** is one whose first bytes were all scanned. -/
theorem inspectBody_spec (env : Env) (conf : LocConf) (a : Arrival env.hash) (w : World) :
    ∃ rc w', inspectBody env conf a w = .ok (rc, w') ∧ w.Quiet w'
      ∧ (rc = .declined → a.content.take conf.maxBody ≠ [] → w'.Did [bodyJob conf a.content]) := by
  obtain ⟨got, w', hcollect, hquiet, hout, -⟩ := collectBody_spec env conf.maxBody a w
  unfold inspectBody
  rw [hcollect, ok_bind]
  cases got with
  | none => exact ⟨.error, w', rfl, hquiet, fun h => by cases h⟩
  | some body =>
      have hbody := hout body rfl
      by_cases hempty : body.length = 0
      · refine ⟨.declined, w', by simp only [if_pos hempty]; rfl, hquiet, ?_⟩
        intro _ hne
        rw [← hbody] at hne
        exact absurd (List.length_eq_zero_iff.mp hempty) hne
      · have hjob : (⟨body, bytesOf "body", conf.skip ||| bodyMask⟩ : ScanJob)
            = bodyJob conf a.content := by
          unfold bodyJob
          rw [← hbody]
        have hne : ∀ job ∈ [bodyJob conf a.content], job.data ≠ [] := by
          intro job hin
          rw [List.mem_singleton.mp hin, ← hjob]
          exact fun h => hempty (List.length_eq_zero_iff.mpr h)
        obtain ⟨rc, w'', hscan, hquiet', -, hdone⟩ := scanJobs_spec env _ hne w'
        rw [scanJobs_single] at hscan
        refine ⟨rc, w'', ?_, hquiet.trans hquiet', fun hrc _ => (hdone hrc).2⟩
        simp only [if_neg hempty, noBodyMask_eq, ok_bind, hjob]
        exact hscan

end HttpShield
