/-
  HttpShield.Request.HitLog
  ─────────────────────────
  The bytes of a hit-log record: the buffer `ngx_http_shield_write_log` fills, and what
  the reporter's `json.loads` makes of it.

  The record is rendered into a buffer of a computed capacity.  Every store checks that
  the buffer has room for it, and the loop over the request line stops six bytes before
  the end, so the proof shows three bounds to agree: of the request line, of an escape,
  and of the fixed part.

    • `writeReq_eq`       — with room for the worst case the loop escapes every byte,
    • `renderHit_eq`      — so it does in the buffer of the computed capacity,
    • `loads_renderHit`   — the line is one object, of the fields of the record,
    • `renderHit_decodes` — and one line of printable ASCII that fits.
-/
import HttpShield.Lib.Json
import HttpShield.Request.Verdict

namespace HttpShield

open JsonText (Text Value Spells Renders RendersMembers loads)

/-! ## §1. `ngx_slprintf`. -/

/-- A conversion with its argument, or what stands between two of them. -/
inductive Format where
  | lit (s : String)
  /-- `%V` and `%s`. -/
  | str (s : Bytes)
  /-- `%ui`. -/
  | ui (n : Nat)
  /-- `%04xd`. -/
  | xd04 (n : Nat)

/-- A lower-case hexadecimal digit. -/
def hexLower (d : Nat) : UInt8 := .ofNat (if d < 10 then 48 + d else 87 + d)

/-- What a conversion writes. -/
def Format.render : Format → Bytes
  | .lit s => bytesOf s
  | .str s => s
  | .ui n => (JsonText.decimal n).map .ofNat
  | .xd04 n =>
      let ds := (Nat.digits 16 n).reverse.map hexLower
      List.replicate (4 - ds.length) 48 ++ ds

/-- `p = ngx_slprintf(p, last, fmt, ..)`: it stops at `last`. -/
def ngxSlprintf (cap : Nat) (buf : Bytes) (fmt : List Format) : Bytes :=
  buf ++ (fmt.flatMap Format.render).take (cap - buf.length)

/-- `*p++ = c`. -/
def putByte (cap : Nat) (buf : Bytes) (c : UInt8) : Except Fault Bytes :=
  if buf.length < cap then .ok (buf ++ [c]) else .error .outOfBounds

theorem Format.render_str (s : Bytes) : (Format.str s).render = s := rfl

theorem ngxSlprintf_eq {cap : Nat} {buf : Bytes} {fmt : List Format}
    (h : buf.length + (fmt.flatMap Format.render).length ≤ cap) :
    ngxSlprintf cap buf fmt = buf ++ fmt.flatMap Format.render := by
  unfold ngxSlprintf
  rw [List.take_of_length_le (by omega)]

theorem putByte_eq {cap : Nat} {buf : Bytes} (h : buf.length < cap) (c : UInt8) :
    putByte cap buf c = .ok (buf ++ [c]) :=
  if_pos h

/-! ## §2. The record. -/

/-- The body of the loop over the request line. -/
def escapeByte (cap : Nat) (buf : Bytes) (c : UInt8) : Except Fault Bytes :=
  if c = 34 ∨ c = 92 then do
    let buf ← putByte cap buf 92
    putByte cap buf c
  else if c = 10 then do
    let buf ← putByte cap buf 92
    putByte cap buf 110
  else if c = 13 then do
    let buf ← putByte cap buf 92
    putByte cap buf 114
  else if c = 9 then do
    let buf ← putByte cap buf 92
    putByte cap buf 116
  else if c.toNat < 0x20 ∨ 0x80 ≤ c.toNat then
    -- byte by byte: what the log says is Latin-1, whatever the client meant
    .ok (ngxSlprintf cap buf [.lit "\\u", .xd04 c.toNat])
  else putByte cap buf c

/-- `for (i = 0; i < req.len && p < last - 6; i++)`. -/
def writeReq (cap : Nat) : Bytes → Bytes → Except Fault Bytes
  | buf, [] => .ok buf
  | buf, c :: req =>
      -- one escape is six bytes at most; what does not fit is cut off whole
      if buf.length < cap - 6 then do
        let buf ← escapeByte cap buf c
        writeReq cap buf req
      else .ok buf

/-- The request line, bounded before it is escaped. -/
def boundedReq (r : Request) : Bytes :=
  if r.requestLine.length > 600 then r.requestLine.take 600 else r.requestLine

/-- `cap`. -/
def hitCapacity (ts : Bytes) (r : Request) (hit : Hit) : Nat :=
  ts.length + r.addrText.length + hit.category.length + hit.source.length
    + (boundedReq r).length * 6 + 160

/-- `block ? "block" : "detect"`. -/
def LocConf.modeText (conf : LocConf) : String :=
  if conf.mode = .block then "block" else "detect"

/-- `block ? slcf->status : (ngx_uint_t) 0`. -/
def LocConf.loggedStatus (conf : LocConf) : Nat :=
  if conf.mode = .block then conf.status.toNat else 0

/-- The record up to the value of `req`. -/
def hitFormat (ts : Bytes) (conf : LocConf) (r : Request) (hit : Hit) : List Format :=
  [.lit "\x7b\"ts\":\"", .str ts, .lit "\",\"ip\":\"", .str r.addrText,
    .lit "\",\"cat\":\"", .str hit.category, .lit "\",\"src\":\"", .str hit.source,
    .lit "\",\"mode\":\"", .lit conf.modeText, .lit "\",\"status\":", .ui conf.loggedStatus,
    .lit ",\"req\":\""]

/-- The buffer of `ngx_http_shield_write_log`, without the newline. -/
def renderHit (ts : Bytes) (conf : LocConf) (r : Request) (hit : Hit) : Except Fault Bytes := do
  let cap := hitCapacity ts r hit
  let buf := ngxSlprintf cap [] (hitFormat ts conf r hit)
  let buf ← writeReq cap buf (boundedReq r)
  -- the 160 spare bytes of the capacity leave room for these
  let buf ← putByte cap buf 34
  putByte cap buf 125

/-- What the file sink writes: `*p = '\n'`, and `line.len + 1` bytes. -/
def fileLine (ts : Bytes) (conf : LocConf) (r : Request) (hit : Hit) : Except Fault Bytes := do
  let line ← renderHit ts conf r hit
  putByte (hitCapacity ts r hit) line 10

/-! ## §3. Escapes. -/

/-- The escape of a byte. -/
def escaped (c : UInt8) : Bytes :=
  if c = 34 ∨ c = 92 then [92, c]
  else if c = 10 then [92, 110]
  else if c = 13 then [92, 114]
  else if c = 9 then [92, 116]
  else if c.toNat < 0x20 ∨ 0x80 ≤ c.toNat then
    [92, 117, 48, 48, hexLower (c.toNat / 16), hexLower (c.toNat % 16)]
  else [c]

theorem escaped_length (c : UInt8) : (escaped c).length ≤ 6 := by
  unfold escaped
  split_ifs <;> simp

/-- A byte has two hexadecimal digits at most. -/
theorem render_xd04 : ∀ n < 256,
    (Format.xd04 n).render = [48, 48, hexLower (n / 16), hexLower (n % 16)] := by
  decide +kernel

theorem putTwo_eq {cap : Nat} {buf : Bytes} (h : buf.length + 2 ≤ cap) (c d : UInt8) :
    (putByte cap buf c >>= fun buf => putByte cap buf d) = .ok (buf ++ [c, d]) := by
  have hlen : (buf ++ [c]).length < cap := by
    rw [List.length_append, List.length_singleton]
    omega
  rw [putByte_eq (by omega) c, ok_bind, putByte_eq hlen d, List.append_assoc]
  rfl

/-- With room for six bytes the body of the loop stores the escape. -/
theorem escapeByte_eq {cap : Nat} {buf : Bytes} (h : buf.length + 6 ≤ cap) (c : UInt8) :
    escapeByte cap buf c = .ok (buf ++ escaped c) := by
  have htwo : buf.length + 2 ≤ cap := by omega
  have hu : ([.lit "\\u", .xd04 c.toNat] : List Format).flatMap Format.render
      = [92, 117, 48, 48, hexLower (c.toNat / 16), hexLower (c.toNat % 16)] := by
    have hlit : (Format.lit "\\u").render = [92, 117] := by decide
    rw [List.flatMap_cons, List.flatMap_cons, List.flatMap_nil, hlit,
      render_xd04 c.toNat c.toNat_lt]
    rfl
  -- two stores at most, or the six bytes of `ngx_slprintf`
  unfold escapeByte escaped
  split_ifs
  · exact putTwo_eq htwo 92 c
  · exact putTwo_eq htwo 92 110
  · exact putTwo_eq htwo 92 114
  · exact putTwo_eq htwo 92 116
  · rw [ngxSlprintf_eq (by rw [hu]; exact h), hu]
  · exact putByte_eq (by omega) c

/-- No escape of the bytes in front is longer than six. -/
theorem flatMap_escaped_length (req : Bytes) : (req.flatMap escaped).length ≤ req.length * 6 := by
  induction req with
  | nil => exact Nat.le_refl 0
  | cons c req ih =>
      have := escaped_length c
      rw [List.flatMap_cons, List.length_append, List.length_cons]
      omega

/-- **With room for the worst case the loop escapes every byte.** -/
theorem writeReq_eq {cap : Nat} (req : Bytes) : ∀ buf : Bytes,
    buf.length + req.length * 6 + 6 ≤ cap →
      writeReq cap buf req = .ok (buf ++ req.flatMap escaped) := by
  induction req with
  | nil =>
      intro buf _
      rw [List.flatMap_nil, List.append_nil]
      rfl
  | cons c req ih =>
      intro buf hroom
      have hlen := escaped_length c
      rw [List.length_cons] at hroom
      -- the guard holds: what is left has room for the worst case and six bytes
      unfold writeReq
      rw [if_pos (by omega), escapeByte_eq (by omega), ok_bind, ih (buf ++ escaped c)]
      · rw [List.flatMap_cons, List.append_assoc]
      · rw [List.length_append]
        omega

/-! ## §4. The capacity. -/

theorem boundedReq_eq (r : Request) : boundedReq r = r.requestLine.take 600 := by
  unfold boundedReq
  split_ifs with hlong
  · rfl
  · rw [List.take_of_length_le (by omega)]

theorem loggedStatus_mem (conf : LocConf) : conf.loggedStatus ∈ [0, 403, 404, 419, 429, 444] := by
  have h := conf.status_allowed
  unfold LocConf.loggedStatus
  split_ifs
  · simp only [List.mem_cons, List.not_mem_nil, or_false] at h ⊢
    omega
  · exact List.mem_cons_self

theorem render_ui_length : ∀ n ∈ [0, 403, 404, 419, 429, 444], (Format.ui n).render.length ≤ 3 := by
  decide

theorem render_modeText_length (conf : LocConf) : (Format.lit conf.modeText).render.length ≤ 6 := by
  unfold LocConf.modeText
  split_ifs <;> decide

/-- The fixed part is 71 bytes at most. -/
theorem hitFormat_length (ts : Bytes) (conf : LocConf) (r : Request) (hit : Hit) :
    ((hitFormat ts conf r hit).flatMap Format.render).length
      ≤ ts.length + r.addrText.length + hit.category.length + hit.source.length + 71 := by
  have hstatus := render_ui_length conf.loggedStatus (loggedStatus_mem conf)
  have hmode := render_modeText_length conf
  have hlits : ((Format.lit "\x7b\"ts\":\"").render.length = 7
      ∧ (Format.lit "\",\"ip\":\"").render.length = 8
      ∧ (Format.lit "\",\"cat\":\"").render.length = 9
      ∧ (Format.lit "\",\"src\":\"").render.length = 9)
      ∧ (Format.lit "\",\"mode\":\"").render.length = 10
      ∧ (Format.lit "\",\"status\":").render.length = 11
      ∧ (Format.lit ",\"req\":\"").render.length = 8 := by
    decide
  obtain ⟨⟨hts, hip, hcat, hsrc⟩, hmodeKey, hstatusKey, hreq⟩ := hlits
  unfold hitFormat
  simp only [List.flatMap_cons, List.flatMap_nil, List.length_append, List.length_nil,
    Format.render_str, hts, hip, hcat, hsrc, hmodeKey, hstatusKey, hreq]
  omega

/-- **The buffer holds the whole record**, whatever the request line. -/
theorem renderHit_eq (ts : Bytes) (conf : LocConf) (r : Request) (hit : Hit) :
    renderHit ts conf r hit
      = .ok ((hitFormat ts conf r hit).flatMap Format.render
          ++ (r.requestLine.take 600).flatMap escaped ++ [34, 125]) := by
  have hfixed := hitFormat_length ts conf r hit
  have hreq := flatMap_escaped_length (boundedReq r)
  have hcap : hitCapacity ts r hit = ts.length + r.addrText.length + hit.category.length
      + hit.source.length + (boundedReq r).length * 6 + 160 := rfl
  have hformat : ngxSlprintf (hitCapacity ts r hit) [] (hitFormat ts conf r hit)
      = (hitFormat ts conf r hit).flatMap Format.render := by
    apply ngxSlprintf_eq
    rw [List.length_nil]
    omega
  unfold renderHit
  dsimp only
  rw [hformat, writeReq_eq (boundedReq r) _ (by omega), ok_bind, putTwo_eq, boundedReq_eq]
  rw [List.length_append]
  omega

/-- The record leaves room for its newline in the buffer. -/
theorem renderHit_length {ts : Bytes} {conf : LocConf} {r : Request} {hit : Hit} {line : Bytes}
    (h : renderHit ts conf r hit = .ok line) : line.length + 1 ≤ hitCapacity ts r hit := by
  have hfixed := hitFormat_length ts conf r hit
  have hreq := flatMap_escaped_length (boundedReq r)
  have hcap : hitCapacity ts r hit = ts.length + r.addrText.length + hit.category.length
      + hit.source.length + (boundedReq r).length * 6 + 160 := rfl
  rw [renderHit_eq, ← boundedReq_eq] at h
  cases h
  simp only [List.length_append, List.length_cons, List.length_nil]
  omega

/-! ## §5. The reporter's reading. -/

/-- The code points of an ASCII text. -/
def codes (s : Bytes) : Text := s.map UInt8.toNat

theorem codes_append (s t : Bytes) : codes (s ++ t) = codes s ++ codes t := List.map_append

/-- Printable ASCII without quotes or backslashes. -/
def Plain (s : Bytes) : Prop := ∀ c ∈ s, 0x20 ≤ c.toNat ∧ c.toNat < 0x80 ∧ c ≠ 34 ∧ c ≠ 92

instance (s : Bytes) : Decidable (Plain s) :=
  List.decidableBAll (fun c : UInt8 => 0x20 ≤ c.toNat ∧ c.toNat < 0x80 ∧ c ≠ 34 ∧ c ≠ 92) s

theorem spells_of_plain {s : Bytes} (h : Plain s) : Spells (codes s) (codes s) := by
  apply JsonText.spells_plain
  intro n hn
  obtain ⟨c, hc, rfl⟩ := List.mem_map.mp hn
  obtain ⟨hlow, -, hquote, hback⟩ := h c hc
  refine ⟨hlow, ?_, ?_⟩
  · intro heq
    exact hquote (UInt8.toNat_inj.mp heq)
  · intro heq
    exact hback (UInt8.toNat_inj.mp heq)

theorem hexDigit_hexLower : ∀ d < 16, JsonText.hexDigit (hexLower d).toNat = some d := by
  decide

/-- The two digits of an escape name the byte. -/
theorem hex4_escaped {n : Nat} (h : n < 256) :
    JsonText.hex4 [48, 48, (hexLower (n / 16)).toNat, (hexLower (n % 16)).toNat]
      = some (n, []) := by
  have hzero : JsonText.hexDigit 48 = some 0 := rfl
  have hvalue : ((0 * 16 + 0) * 16 + n / 16) * 16 + n % 16 = n := by omega
  unfold JsonText.hex4
  dsimp only
  rw [hzero, hexDigit_hexLower (n / 16) (by omega), hexDigit_hexLower (n % 16) (by omega)]
  show some (((0 * 16 + 0) * 16 + n / 16) * 16 + n % 16, []) = some (n, [])
  rw [hvalue]

/-- **An escape spells its byte.** -/
theorem spells_escaped (c : UInt8) : Spells (codes (escaped c)) [c.toNat] := by
  unfold escaped
  -- the two bytes behind a backslash, the three letters, `\u`, and the byte itself
  split_ifs with hself hn hr ht hctrl
  · rcases hself with rfl | rfl
    · exact .short 34 34 rfl .nil
    · exact .short 92 92 rfl .nil
  · subst hn
    exact .short 110 10 rfl .nil
  · subst hr
    exact .short 114 13 rfl .nil
  · subst ht
    exact .short 116 9 rfl .nil
  · apply Spells.unicode 48 48 _ _ c.toNat (hex4_escaped c.toNat_lt) _ .nil
    have := c.toNat_lt
    unfold JsonText.isHigh
    simp only [Bool.and_eq_false_iff, decide_eq_false_iff_not]
    omega
  · refine .plain c.toNat (by omega) ?_ ?_ .nil
    · intro heq
      exact hself (.inl (UInt8.toNat_inj.mp heq))
    · intro heq
      exact hself (.inr (UInt8.toNat_inj.mp heq))

/-- The escaped request line spells the request line. -/
theorem spells_flatMap_escaped (req : Bytes) :
    Spells (codes (req.flatMap escaped)) (codes req) := by
  induction req with
  | nil => exact .nil
  | cons c req ih =>
      rw [List.flatMap_cons, codes_append]
      exact (spells_escaped c).append ih

/-- A number is rendered as its decimal form in ASCII. -/
theorem codes_ui (n : Nat) : codes (Format.ui n).render = JsonText.decimal n := by
  have hdigit : ∀ d ∈ JsonText.decimal n, (UInt8.ofNat d).toNat = d := by
    intro d hd
    have := JsonText.decimal_isDigit n d hd
    unfold JsonText.isDigit at this
    simp only [Bool.and_eq_true, decide_eq_true_eq] at this
    exact UInt8.toNat_ofNat_of_lt' (by simp [UInt8.size]; omega)
  show ((JsonText.decimal n).map UInt8.ofNat).map UInt8.toNat = _
  rw [List.map_map]
  calc (JsonText.decimal n).map (UInt8.toNat ∘ UInt8.ofNat)
      = (JsonText.decimal n).map id := List.map_congr_left hdigit
    _ = JsonText.decimal n := List.map_id _

/-! ## §6. The record as an object. -/

/-- The fields of a hit, under their keys. -/
def hitMembers (ts : Bytes) (conf : LocConf) (r : Request) (hit : Hit) : List (Text × Value) :=
  [(codes (bytesOf "ts"), .str (codes ts)),
    (codes (bytesOf "ip"), .str (codes r.addrText)),
    (codes (bytesOf "cat"), .str (codes hit.category)),
    (codes (bytesOf "src"), .str (codes hit.source)),
    (codes (bytesOf "mode"),
      .str (codes (bytesOf (if conf.mode = .block then "block" else "detect")))),
    (codes (bytesOf "status"), .num (if conf.mode = .block then conf.status else 0) 0),
    (codes (bytesOf "req"),
      .str (codes (r.requestLine.take (min 600 r.requestLine.length))))]

/-- A key spells itself. -/
theorem spells_key : ∀ k ∈ ["ts", "ip", "cat", "src", "mode", "status", "req", "block", "detect"],
    ∀ c ∈ codes (bytesOf k), 32 ≤ c ∧ c ≠ 34 ∧ c ≠ 92 := by
  decide

theorem loggedStatus_eq (conf : LocConf) :
    (conf.loggedStatus : Int) = if conf.mode = .block then conf.status else 0 := by
  have h := conf.status_allowed
  unfold LocConf.loggedStatus
  split_ifs
  · simp only [List.mem_cons, List.not_mem_nil, or_false] at h
    omega
  · rfl

/-- The part of the record in front of the request line, in code points. -/
theorem codes_hitFormat (ts : Bytes) (conf : LocConf) (r : Request) (hit : Hit) :
    codes ((hitFormat ts conf r hit).flatMap Format.render)
      = 123 :: 34 :: (codes (bytesOf "ts") ++ 34 :: 58 :: 34 :: (codes ts
        ++ 34 :: 44 :: 34 :: (codes (bytesOf "ip") ++ 34 :: 58 :: 34 :: (codes r.addrText
        ++ 34 :: 44 :: 34 :: (codes (bytesOf "cat") ++ 34 :: 58 :: 34 :: (codes hit.category
        ++ 34 :: 44 :: 34 :: (codes (bytesOf "src") ++ 34 :: 58 :: 34 :: (codes hit.source
        ++ 34 :: 44 :: 34 :: (codes (bytesOf "mode") ++ 34 :: 58 :: 34 ::
          (codes (bytesOf conf.modeText)
        ++ 34 :: 44 :: 34 :: (codes (bytesOf "status") ++ 34 :: 58 ::
          (JsonText.decimal conf.loggedStatus
        ++ 44 :: 34 :: (codes (bytesOf "req") ++ [34, 58, 34]))))))))))))) := by
  have hlits : codes (Format.lit "\x7b\"ts\":\"").render
          = 123 :: 34 :: (codes (bytesOf "ts") ++ [34, 58, 34])
      ∧ codes (Format.lit "\",\"ip\":\"").render
          = 34 :: 44 :: 34 :: (codes (bytesOf "ip") ++ [34, 58, 34])
      ∧ codes (Format.lit "\",\"cat\":\"").render
          = 34 :: 44 :: 34 :: (codes (bytesOf "cat") ++ [34, 58, 34])
      ∧ codes (Format.lit "\",\"src\":\"").render
          = 34 :: 44 :: 34 :: (codes (bytesOf "src") ++ [34, 58, 34])
      ∧ codes (Format.lit "\",\"mode\":\"").render
          = 34 :: 44 :: 34 :: (codes (bytesOf "mode") ++ [34, 58, 34])
      ∧ codes (Format.lit "\",\"status\":").render
          = 34 :: 44 :: 34 :: (codes (bytesOf "status") ++ [34, 58])
      ∧ codes (Format.lit ",\"req\":\"").render
          = 44 :: 34 :: (codes (bytesOf "req") ++ [34, 58, 34]) := by
    decide
  obtain ⟨hts, hip, hcat, hsrc, hmode, hstatus, hreq⟩ := hlits
  have hmodeText : (Format.lit conf.modeText).render = bytesOf conf.modeText := rfl
  unfold hitFormat
  simp only [List.flatMap_cons, List.flatMap_nil, List.append_nil, codes_append, codes_ui,
    Format.render_str, hmodeText, hts, hip, hcat, hsrc, hmode, hstatus, hreq, List.cons_append,
    List.append_assoc, List.nil_append]

/-- **The line is one object, of the fields of the hit**, with or without white space
behind it. -/
theorem loads_renderHit {ts : Bytes} {conf : LocConf} {r : Request} {hit : Hit} {line : Bytes}
    (hts : Plain ts) (hip : Plain r.addrText) (hcat : Plain hit.category) (hsrc : Plain hit.source)
    (hline : renderHit ts conf r hit = .ok line) {ws : Text}
    (hws : ∀ c ∈ ws, JsonText.isSpace c = true) :
    loads (codes line ++ ws) = some (.obj (hitMembers ts conf r hit)) := by
  have hkey : ∀ k ∈ ["ts", "ip", "cat", "src", "mode", "status", "req", "block", "detect"],
      Spells (codes (bytesOf k)) (codes (bytesOf k)) := fun k hk =>
    JsonText.spells_plain _ (spells_key k hk)
  have hmode : Spells (codes (bytesOf conf.modeText)) (codes (bytesOf conf.modeText)) := by
    apply hkey
    unfold LocConf.modeText
    split_ifs <;> simp
  have hmembers : hitMembers ts conf r hit
      = [(codes (bytesOf "ts"), .str (codes ts)),
        (codes (bytesOf "ip"), .str (codes r.addrText)),
        (codes (bytesOf "cat"), .str (codes hit.category)),
        (codes (bytesOf "src"), .str (codes hit.source)),
        (codes (bytesOf "mode"), .str (codes (bytesOf conf.modeText))),
        (codes (bytesOf "status"), .num conf.loggedStatus 0),
        (codes (bytesOf "req"), .str (codes (r.requestLine.take 600)))] := by
    rw [loggedStatus_eq, List.take_eq_take_min ]
    rfl
  -- the record is written member by member
  have hrendered := RendersMembers.more (hkey "ts" (by simp)) (.str (spells_of_plain hts))
    (.more (hkey "ip" (by simp)) (.str (spells_of_plain hip))
    (.more (hkey "cat" (by simp)) (.str (spells_of_plain hcat))
    (.more (hkey "src" (by simp)) (.str (spells_of_plain hsrc))
    (.more (hkey "mode" (by simp)) (.str hmode)
    (.more (hkey "status" (by simp)) (.nat conf.loggedStatus)
    (.last (hkey "req" (by simp)) (.str (spells_flatMap_escaped (r.requestLine.take 600)))))))))
  have hloads := JsonText.loads_fields hrendered hws
  rw [renderHit_eq] at hline
  cases hline
  rw [codes_append, codes_append, codes_hitFormat, hmembers, ← hloads]
  congr 1
  have hend : codes [34, 125] = [34, 125] := rfl
  simp only [hend, List.cons_append, List.append_assoc, List.nil_append]

/-! ## §7. Records are not forged. -/

/-- No byte below 0x20, and none from 0x80 on. -/
def Printable (s : Bytes) : Prop := ∀ c ∈ s, 0x20 ≤ c.toNat ∧ c.toNat < 0x80

instance (s : Bytes) : Decidable (Printable s) :=
  List.decidableBAll (fun c : UInt8 => 0x20 ≤ c.toNat ∧ c.toNat < 0x80) s

theorem Printable.append {s t : Bytes} (hs : Printable s) (ht : Printable t) :
    Printable (s ++ t) :=
  List.forall_mem_append.mpr ⟨hs, ht⟩

theorem Plain.printable {s : Bytes} (h : Plain s) : Printable s := by
  intro c hc
  obtain ⟨hlow, hhigh, -, -⟩ := h c hc
  exact ⟨hlow, hhigh⟩

/-- What is put together from printable pieces is printable. -/
theorem printable_flatMap {α : Type} {xs : List α} {f : α → Bytes}
    (h : ∀ x ∈ xs, Printable (f x)) : Printable (xs.flatMap f) := by
  intro c hc
  obtain ⟨x, hx, hc⟩ := List.mem_flatMap.mp hc
  exact h x hx c hc

theorem hexLower_printable : ∀ d < 16, Printable [hexLower d] := by decide

/-- An escape is printable. -/
theorem escaped_printable (c : UInt8) : Printable (escaped c) := by
  unfold escaped
  split_ifs with hself hn hr ht hctrl
  · rcases hself with rfl | rfl <;> decide
  · decide
  · decide
  · decide
  · have hfour : Printable [92, 117, 48, 48] := by decide
    have hbyte := c.toNat_lt
    have hhigh := hexLower_printable (c.toNat / 16) (by omega)
    have hlow := hexLower_printable (c.toNat % 16) (by omega)
    exact hfour.append (hhigh.append hlow)
  · intro d hd
    rw [List.mem_singleton] at hd
    subst hd
    omega

/-- The fixed part is printable, as its arguments are. -/
theorem hitFormat_printable {ts : Bytes} (conf : LocConf) {r : Request} {hit : Hit}
    (hts : Plain ts) (hip : Plain r.addrText) (hcat : Plain hit.category)
    (hsrc : Plain hit.source) : ∀ f ∈ hitFormat ts conf r hit, Printable f.render := by
  have hmode : Printable (Format.lit conf.modeText).render := by
    unfold LocConf.modeText
    split_ifs <;> decide
  have hstatus : ∀ n ∈ [0, 403, 404, 419, 429, 444], Printable (Format.ui n).render := by
    decide
  have hlits : ∀ s ∈ ["\x7b\"ts\":\"", "\",\"ip\":\"", "\",\"cat\":\"", "\",\"src\":\"",
      "\",\"mode\":\"", "\",\"status\":", ",\"req\":\""], Printable (Format.lit s).render := by
    decide
  intro f hf
  simp only [hitFormat, List.mem_cons, List.not_mem_nil, or_false] at hf
  rcases hf with rfl | rfl | rfl | rfl | rfl | rfl | rfl | rfl | rfl | rfl | rfl | rfl | rfl
  · exact hlits _ (by simp)
  · exact hts.printable
  · exact hlits _ (by simp)
  · exact hip.printable
  · exact hlits _ (by simp)
  · exact hcat.printable
  · exact hlits _ (by simp)
  · exact hsrc.printable
  · exact hlits _ (by simp)
  · exact hmode
  · exact hlits _ (by simp)
  · exact hstatus conf.loggedStatus (loggedStatus_mem conf)
  · exact hlits _ (by simp)

/-- A record of printable fields is printable throughout. -/
theorem renderHit_printable {ts : Bytes} {conf : LocConf} {r : Request} {hit : Hit} {line : Bytes}
    (hts : Plain ts) (hip : Plain r.addrText) (hcat : Plain hit.category) (hsrc : Plain hit.source)
    (hline : renderHit ts conf r hit = .ok line) : Printable line := by
  have hfixed := printable_flatMap (hitFormat_printable conf hts hip hcat hsrc)
  have hreq : Printable ((r.requestLine.take 600).flatMap escaped) :=
    printable_flatMap fun c _ => escaped_printable c
  have hend : Printable [34, 125] := by decide
  rw [renderHit_eq] at hline
  cases hline
  exact (hfixed.append hreq).append hend

/-- `str.isspace`, of one character. -/
def isPySpace (c : Nat) : Bool :=
  (9 ≤ c && c ≤ 13) || (28 ≤ c && c ≤ 32) || c == 0x85 || c == 0xA0 || c == 0x1680
    || (0x2000 ≤ c && c ≤ 0x200A) || c == 0x2028 || c == 0x2029 || c == 0x202F || c == 0x205F
    || c == 0x3000

/-- `str.strip`. -/
def strip (t : Text) : Text :=
  ((t.dropWhile isPySpace).reverse.dropWhile isPySpace).reverse

/-- What `process_line` strips off a record is the newline. -/
theorem strip_braces (t : Text) : strip (123 :: (t ++ [125, 10])) = 123 :: (t ++ [125]) := by
  have hend : (123 :: (t ++ [125, 10])).reverse = 10 :: 125 :: (123 :: t).reverse := by
    simp
  unfold strip
  rw [List.dropWhile_cons_of_neg (by decide), hend, List.dropWhile_cons_of_pos (by decide),
    List.dropWhile_cons_of_neg (by decide)]
  simp

theorem strip_renderHit {ts : Bytes} {conf : LocConf} {r : Request} {hit : Hit} {line : Bytes}
    (hline : renderHit ts conf r hit = .ok line) : strip (codes (line ++ [10])) = codes line := by
  obtain ⟨head, hhead⟩ : ∃ t, codes ((hitFormat ts conf r hit).flatMap Format.render) = 123 :: t :=
    ⟨_, codes_hitFormat ts conf r hit⟩
  have hstrip := strip_braces (head ++ codes ((r.requestLine.take 600).flatMap escaped) ++ [34])
  have hend : codes [34, 125] = [34, 125] := rfl
  have hnewline : codes [34, 125, 10] = [34, 125, 10] := rfl
  rw [renderHit_eq] at hline
  cases hline
  simpa only [codes_append, hhead, hend, hnewline, List.cons_append, List.append_assoc,
    List.nil_append] using hstrip

/-- **The hit log cannot be forged.**  Whatever the request line, the buffer takes the
whole record and the newline; the record is one line of printable ASCII, and `json.loads`
makes of it one object, whose `req` is the request line up to 600 bytes. -/
theorem renderHit_decodes (ts : Bytes) (conf : LocConf) (r : Request) (hit : Hit) (hts : Plain ts)
    (hip : Plain r.addrText) (hcat : Plain hit.category) (hsrc : Plain hit.source) :
    ∃ line, renderHit ts conf r hit = .ok line ∧ fileLine ts conf r hit = .ok (line ++ [10])
      ∧ Printable line
      ∧ (line ++ [10]).length ≤ hitCapacity ts r hit
      ∧ ∀ t ∈ [codes line, codes (line ++ [10]), strip (codes (line ++ [10]))],
        loads t = some (.obj (hitMembers ts conf r hit)) := by
  have hline := renderHit_eq ts conf r hit
  have hroom := renderHit_length hline
  have hloads : ∀ ws, (∀ c ∈ ws, JsonText.isSpace c = true) → loads (codes _ ++ ws) = _ := fun _ =>
    loads_renderHit hts hip hcat hsrc hline
  have hbare := hloads [] (by simp)
  rw [List.append_nil] at hbare
  refine ⟨_, hline, ?_, renderHit_printable hts hip hcat hsrc hline, ?_, ?_⟩
  · unfold fileLine
    rw [hline, ok_bind]
    exact putByte_eq (by omega) 10
  · rw [List.length_append]
    exact hroom
  · intro t ht
    simp only [List.mem_cons, List.not_mem_nil, or_false] at ht
    rcases ht with rfl | rfl | rfl
    · exact hbare
    · rw [codes_append]
      exact hloads (codes [10]) (by decide)
    · rw [strip_renderHit hline]
      exact hbare

/-- `GET /","ip":"192.0.2.1"}`, a newline and a byte of no encoding. -/
def forging : Request :=
  { oneBytePost with
    requestLine := bytesOf "GET /\",\"ip\":\"192.0.2.1\"\x7d\n" ++ [0xFF]
    addrText := bytesOf "203.0.113.7" }

theorem renderHit_decodes_forging :
    ∃ line, renderHit (bytesOf "2026-07-17T14:22:05+02:00") (loggingConf .block true) forging
        ⟨bytesOf "sqli", 0, bytesOf "uri"⟩ = .ok line
      ∧ loads (strip (codes (line ++ [10]))) = some (.obj
        [(codes (bytesOf "ts"), .str (codes (bytesOf "2026-07-17T14:22:05+02:00"))),
          (codes (bytesOf "ip"), .str (codes (bytesOf "203.0.113.7"))),
          (codes (bytesOf "cat"), .str (codes (bytesOf "sqli"))),
          (codes (bytesOf "src"), .str (codes (bytesOf "uri"))),
          (codes (bytesOf "mode"), .str (codes (bytesOf "block"))),
          (codes (bytesOf "status"), .num 403 0),
          (codes (bytesOf "req"), .str (codes forging.requestLine))]) := by
  obtain ⟨line, hline, -, -, -, hloads⟩ := renderHit_decodes (bytesOf "2026-07-17T14:22:05+02:00")
    (loggingConf .block true) forging ⟨bytesOf "sqli", 0, bytesOf "uri"⟩ (by decide)
    (by decide) (by decide) (by decide)
  refine ⟨line, hline, ?_⟩
  rw [hloads _ (by simp)]
  rfl

end HttpShield
