/-
  HttpShield.Request.BanKey
  ─────────────────────────
  The request-shaped side of `shield_ban`: which address a request is counted under,
  and the three calls the handler makes on the zone.

    • `xffLastToken_slice` — the forwarded token is read inside its value,
    • `banAddr_returns`    — the key is found or the client is not tracked,
    • `banIsBanned_eq`     — the check answers from the zone's map, which it keeps,
    • `banRecord_returns`  — recording keeps the zone well-formed.
-/
import HttpShield.Request.Types
import HttpShield.Ban.Interleaving
import Mathlib.Data.List.DropRight

namespace HttpShield

/-! ## §1. The last element of `X-Forwarded-For`. -/

/-- A space or a tab. -/
def isBlank (c : UInt8) : Bool := c == 32 || c == 9

/-- Backwards from `p` to just after the last comma, or to the start. -/
def lastComma (value : Bytes) : Nat → Except Fault Nat
  | 0 => .ok 0
  | p + 1 => do
      let c ← byteAt value p
      if c = 44 then return p + 1 else lastComma value p

/-- Forwards over the blanks, `n` bytes at most. -/
def skipBlanks (value : Bytes) : Nat → Nat → Except Fault Nat
  | start, 0 => .ok start
  | start, n + 1 => do
      let c ← byteAt value start
      if isBlank c then skipBlanks value (start + 1) n else return start

/-- The length that is left of `len` bytes without the blanks at the end. -/
def trimBlanks (value : Bytes) (start : Nat) : Nat → Except Fault Nat
  | 0 => .ok 0
  | n + 1 => do
      let c ← byteAt value (start + n)
      if isBlank c then trimBlanks value start n else return n + 1

/-- `ngx_http_shield_xff_last_token`: the offset and the length of the token. -/
def xffLastToken (value : Bytes) : Except Fault (Nat × Nat) := do
  -- the last element is the one that the nearest proxy wrote
  let start ← lastComma value value.length
  let start ← skipBlanks value start (value.length - start)
  let len ← trimBlanks value start (value.length - start)
  return (start, len)

/-- The text after the last comma, or all of it. -/
def afterLastComma (value : Bytes) : Bytes := value.rtakeWhile (· ≠ 44)

/-- The last element of the line, without the blanks around it. -/
def lastElement (value : Bytes) : Bytes :=
  ((afterLastComma value).dropWhile isBlank).rdropWhile isBlank

theorem lastComma_returns {value : Bytes} (p : Nat) (hp : p ≤ value.length) :
    ∃ start, lastComma value p = .ok start ∧ start ≤ p
      ∧ (value.take p).drop start = afterLastComma (value.take p) := by
  unfold afterLastComma
  induction p with
  | zero => exact ⟨0, rfl, Nat.le_refl _, by simp⟩
  | succ p ih =>
      have hlt : p < value.length := by omega
      have hlen : (value.take p).length = p := by
        rw [List.length_take]
        omega
      unfold lastComma
      rw [byteAt_eq hlt, ok_bind, List.take_succ_eq_append_getElem hlt, List.rtakeWhile_concat]
      by_cases hcomma : value[p] = 44
      · refine ⟨p + 1, by rw [if_pos hcomma]; rfl, Nat.le_refl _, ?_⟩
        rw [if_neg (by simp [hcomma])]
        apply List.drop_eq_nil_of_le
        simp
      · obtain ⟨start, hstart, hle, htext⟩ := ih (by omega)
        refine ⟨start, by rw [if_neg hcomma]; exact hstart, by omega, ?_⟩
        rw [if_pos (by simp [hcomma]), List.drop_append_of_le_length (by omega), htext]

theorem skipBlanks_returns {value : Bytes} (n start : Nat) (hn : start + n = value.length) :
    ∃ start', skipBlanks value start n = .ok start' ∧ start' ≤ value.length
      ∧ value.drop start' = (value.drop start).dropWhile isBlank := by
  induction n generalizing start with
  | zero =>
      refine ⟨start, rfl, by omega, ?_⟩
      rw [List.drop_eq_nil_of_le (by omega)]
      rfl
  | succ n ih =>
      have hlt : start < value.length := by omega
      unfold skipBlanks
      rw [byteAt_eq hlt, ok_bind, List.drop_eq_getElem_cons hlt]
      by_cases hblank : isBlank value[start] = true
      · obtain ⟨start', hstart, hle, htext⟩ := ih (start + 1) (by omega)
        refine ⟨start', by rw [if_pos hblank]; exact hstart, hle, ?_⟩
        rw [List.dropWhile_cons_of_pos hblank, htext]
      · refine ⟨start, by rw [if_neg hblank]; rfl, by omega, ?_⟩
        rw [List.dropWhile_cons_of_neg hblank, List.drop_eq_getElem_cons hlt]

theorem trimBlanks_returns {value : Bytes} {start : Nat} (n : Nat)
    (hn : start + n ≤ value.length) :
    ∃ len, trimBlanks value start n = .ok len ∧ len ≤ n
      ∧ (value.drop start).take len = ((value.drop start).take n).rdropWhile isBlank := by
  induction n with
  | zero => exact ⟨0, rfl, Nat.le_refl _, by simp⟩
  | succ n ih =>
      have hlt : n < (value.drop start).length := by
        rw [List.length_drop]
        omega
      have hbyte : (value.drop start)[n] = value[start + n] := List.getElem_drop
      unfold trimBlanks
      rw [byteAt_eq (by omega), ok_bind, List.take_succ_eq_append_getElem hlt,
        List.rdropWhile_concat, hbyte]
      by_cases hblank : isBlank value[start + n] = true
      · obtain ⟨len, hlen, hle, htext⟩ := ih (by omega)
        refine ⟨len, by rw [if_pos hblank]; exact hlen, by omega, ?_⟩
        rw [if_pos hblank, htext]
      · refine ⟨n + 1, by rw [if_neg hblank]; rfl, Nat.le_refl _, ?_⟩
        rw [if_neg hblank, List.take_succ_eq_append_getElem hlt, hbyte]

/-- **The token is a slice of the value**, its last element, and no byte outside the
value is read. -/
theorem xffLastToken_slice (value : Bytes) :
    ∃ start len, xffLastToken value = .ok (start, len) ∧ start + len ≤ value.length
      ∧ (value.drop start).take len = lastElement value := by
  obtain ⟨comma, hcomma, hle, htext⟩ := @lastComma_returns value value.length (Nat.le_refl _)
  obtain ⟨start, hstart, hle', htext'⟩ :=
    @skipBlanks_returns value (value.length - comma) comma (by omega)
  obtain ⟨len, hlen, hle'', htext''⟩ :=
    @trimBlanks_returns value start (value.length - start) (by omega)
  refine ⟨start, len, ?_, by omega, ?_⟩
  · unfold xffLastToken
    rw [hcomma, ok_bind, hstart, ok_bind, hlen]
    rfl
  · rw [List.take_length] at htext
    have hall : (value.drop start).take (value.length - start) = value.drop start := by
      apply List.take_of_length_le
      rw [List.length_drop]
    unfold lastElement
    rw [htext'', hall, htext', htext]

/-! ## §2. The key. -/

/-- `ngx_http_shield_ban_sockaddr_bytes`; `none` is `NGX_DECLINED`. -/
def banSockaddrBytes : Sockaddr → Option Addr
  | .inet addr => some ⟨addr.toList, by simp⟩
  | .inet6 addr => some ⟨addr.toList, by simp⟩
  | .other => none

/-- `ngx_http_shield_ban_peer_trusted`. -/
def banPeerTrusted (r : Request) (trusted : Option (Sockaddr → Bool)) : Bool :=
  match trusted with
  | none => false
  | some cidrs => cidrs r.sockaddr

/-- `ngx_http_shield_ban_addr`; `none` is `NGX_DECLINED`. -/
def banAddr (env : Env) (ban : BanConf) (r : Request) : Except Fault (Option Addr) :=
  if ban.key ≠ .forwarded ∨ ¬ banPeerTrusted r ban.trusted then
    .ok (banSockaddrBytes r.sockaddr)
  else
    -- the last header line of the chain
    match r.xForwardedFor.getLast? with
    | none => .ok (banSockaddrBytes r.sockaddr)
    | some h => do
        let (start, len) ← xffLastToken h.value
        let name := (h.value.drop start).take len
        if len = 0 then return banSockaddrBytes r.sockaddr
        match env.parseAddrPort name with
        | none => return banSockaddrBytes r.sockaddr
        | some sockaddr => return banSockaddrBytes sockaddr

theorem banAddr_returns (env : Env) (ban : BanConf) (r : Request) :
    ∃ a, banAddr env ban r = .ok a := by
  unfold banAddr
  by_cases hpeer : ban.key ≠ .forwarded ∨ ¬ banPeerTrusted r ban.trusted = true
  · exact ⟨_, if_pos hpeer⟩
  · rw [if_neg hpeer]
    cases r.xForwardedFor.getLast? with
    | none => exact ⟨_, rfl⟩
    | some h =>
        obtain ⟨start, len, htoken, -, -⟩ := xffLastToken_slice h.value
        simp only [htoken, ok_bind]
        by_cases hlen : len = 0
        · exact ⟨_, by rw [if_pos hlen]; rfl⟩
        · rw [if_neg hlen]
          cases env.parseAddrPort ((h.value.drop start).take len) with
          | none => exact ⟨_, rfl⟩
          | some sockaddr => exact ⟨_, rfl⟩

/-! ## §3. The calls on the zone. -/

/-- `ngx_http_shield_ban_is_banned`. -/
def banIsBanned (env : Env) (ban : BanConf) (r : Request) (w : World) :
    Except Fault (Bool × World) := do
  -- a client without an address of its own is never banned
  match ← banAddr env ban r with
  | none => return (false, w)
  | some a =>
      let (zone, banned) ← banIsBannedLocked w.zone (env.hash a) a.bytes w.now
      return (banned, w.setZone zone)

/-- `ngx_http_shield_ban_record`.  That the zone is full is only logged. -/
def banRecord (env : Env) (ban : BanConf) (r : Request) (w : World) : Except Fault World := do
  match ← banAddr env ban r with
  | none => return w
  | some a =>
      let (zone, _) ← banRecordLocked env.rbtree (env.slab w.acted) w.zone (env.hash a) a.bytes
        w.now ban.pol.count ban.pol.window ban.pol.banTime
      return w.setZone zone

/-- The client of the request has an active ban. -/
def ClientBanned (env : Env) (conf : LocConf) (r : Request) (w : World) : Prop :=
  ∃ ban a e, conf.ban = some ban ∧ banAddr env ban r = .ok (some a)
    ∧ w.zone.entryOf a = some e ∧ w.now < e.bannedUntil

/-- **The check answers from the map**, and only reorders the zone. -/
theorem banIsBanned_eq (env : Env) {conf : LocConf} {ban : BanConf} (hban : conf.ban = some ban)
    (r : Request) {w : World} (hzone : ∃ ps, w.zone.Wf env.hash ps) :
    ∃ banned zone, banIsBanned env ban r w = .ok (banned, w.setZone zone)
      ∧ (banned = true ↔ ClientBanned env conf r w)
      ∧ (∃ ps, zone.Wf env.hash ps) := by
  obtain ⟨ps, hwf⟩ := hzone
  obtain ⟨key, hkey⟩ := banAddr_returns env ban r
  unfold banIsBanned
  rw [hkey, ok_bind]
  cases key with
  | none =>
      refine ⟨false, w.zone, rfl, ?_, ps, hwf⟩
      constructor
      · intro h
        cases h
      · rintro ⟨ban', a, e, hban', haddr, -⟩
        obtain rfl : ban = ban' := Option.some.inj (hban.symm.trans hban')
        rw [hkey] at haddr
        cases haddr
  | some a =>
      obtain ⟨z, ps', b, hcall, hwf', -⟩ := hwf.isBanned a w.now
      obtain ⟨z', hcall', -⟩ := (hwf.refinesMap .plain).is_banned a w.now
      have hanswer : b = (w.zone.entryOf a).any (fun e => decide (e.bannedUntil > w.now)) := by
        rw [hcall] at hcall'
        exact (Prod.ext_iff.mp (Except.ok.inj hcall')).2
      refine ⟨b, z, by simp only [hcall]; rfl, ?_, ps', hwf'⟩
      rw [hanswer, Option.any_eq_true]
      constructor
      · rintro ⟨e, he, hnow⟩
        exact ⟨ban, a, e, hban, hkey, he, of_decide_eq_true hnow⟩
      · rintro ⟨ban', a', e, hban', haddr, he, hnow⟩
        obtain rfl : ban = ban' := Option.some.inj (hban.symm.trans hban')
        obtain rfl : a = a' := Option.some.inj (Except.ok.inj (hkey.symm.trans haddr))
        exact ⟨e, he, decide_eq_true hnow⟩

/-- Recording returns, whatever the slab does. -/
theorem banRecord_returns (env : Env) (ban : BanConf) (r : Request) {w : World}
    (hzone : ∃ ps, w.zone.Wf env.hash ps) :
    ∃ zone, banRecord env ban r w = .ok (w.setZone zone)
      ∧ ∃ ps, zone.Wf env.hash ps := by
  obtain ⟨ps, hwf⟩ := hzone
  obtain ⟨key, hkey⟩ := banAddr_returns env ban r
  unfold banRecord
  rw [hkey, ok_bind]
  cases key with
  | none => exact ⟨w.zone, rfl, ps, hwf⟩
  | some a =>
      obtain ⟨-, z, ps', rc, hcall, hwf', -⟩ := banRecordLocked_refines env.rbtree
        (env.slab w.acted) hwf a w.now ban.pol.count ban.pol.window ban.pol.banTime
      exact ⟨z, by simp only [hcall]; rfl, ps', hwf'⟩

end HttpShield
