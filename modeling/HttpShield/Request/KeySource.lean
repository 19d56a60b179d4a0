/-
  HttpShield.Request.KeySource
  ────────────────────────────
  Where the ban key comes from.

  The key is the peer's address, unless the peer is a trusted proxy and the policy says
  `key=forwarded`.  Then it is what follows the last comma of the last `X-Forwarded-For`
  line, which that proxy wrote.  The client writes the rest, and none of it counts.

    • `banAddr_forwarded`        — the key, when a trusted proxy forwards,
    • `banAddr_attacker_blind`   — two requests of one peer, whatever the client sends.
-/
import HttpShield.Request.Headers

namespace HttpShield

/-! ## §1. The source of the key. -/

/-- The peer is trusted to say whom it forwards for. -/
def BanConf.Forwards (ban : BanConf) (r : Request) : Prop :=
  ban.key = .forwarded ∧ banPeerTrusted r ban.trusted = true

/-- What follows the last comma of the last line, where there is a line. -/
def Request.forwardedText (r : Request) : Option Bytes :=
  r.xForwardedFor.getLast?.map fun h => afterLastComma h.value

/-- The address that an element names. -/
def elementAddr (env : Env) (name : Bytes) : Option Sockaddr :=
  if name = [] then none else env.parseAddrPort name

/-- The address in that text, without the blanks around it. -/
def forwardedAddr (env : Env) (r : Request) : Option Sockaddr :=
  r.forwardedText.bind fun t => elementAddr env ((t.dropWhile isBlank).rdropWhile isBlank)

theorem forwardedAddr_of_line (env : Env) {r : Request} {line : Header}
    (h : r.xForwardedFor.getLast? = some line) :
    forwardedAddr env r = elementAddr env (lastElement line.value) := by
  unfold forwardedAddr Request.forwardedText
  rw [h]
  rfl

theorem banAddr_peer (env : Env) {ban : BanConf} {r : Request} (h : ¬ ban.Forwards r) :
    banAddr env ban r = .ok (banSockaddrBytes r.sockaddr) := by
  unfold banAddr
  apply if_pos
  by_cases hkey : ban.key = .forwarded
  · right
    intro htrusted
    exact h ⟨hkey, htrusted⟩
  · exact .inl hkey

/-- **The key behind a trusted proxy**: the forwarded address, or the proxy's own. -/
theorem banAddr_forwarded (env : Env) {ban : BanConf} {r : Request} (h : ban.Forwards r) :
    banAddr env ban r
      = .ok (banSockaddrBytes ((forwardedAddr env r).getD r.sockaddr)) := by
  have hgate : ¬ (ban.key ≠ .forwarded ∨ ¬ banPeerTrusted r ban.trusted = true) := by
    rintro (hkey | htrusted)
    · exact hkey h.1
    · exact htrusted h.2
  unfold banAddr
  rw [if_neg hgate]
  cases hline : r.xForwardedFor.getLast? with
  | none =>
      unfold forwardedAddr Request.forwardedText
      rw [hline]
      rfl
  | some line =>
      obtain ⟨start, len, htoken, hslice, hname⟩ := xffLastToken_slice line.value
      have hlen : (lastElement line.value).length = len := by
        rw [← hname, List.length_take, List.length_drop]
        omega
      have hempty : len = 0 ↔ lastElement line.value = [] := by
        rw [← hlen, List.length_eq_zero_iff]
      rw [forwardedAddr_of_line env hline]
      unfold elementAddr
      simp only [htoken, ok_bind, hname, hempty]
      by_cases hel : lastElement line.value = []
      · rw [if_pos hel, if_pos hel]
        rfl
      · rw [if_neg hel, if_neg hel]
        cases env.parseAddrPort (lastElement line.value) with
        | none => rfl
        | some sockaddr => rfl

/-! ## §2. What the client can do about it. -/

/-- The last line names no address: there is none, its last element is empty, or it is
not an address. -/
def NamesNoAddress (env : Env) (r : Request) : Prop :=
  r.xForwardedFor = [] ∨ ∃ h, r.xForwardedFor.getLast? = some h
    ∧ (lastElement h.value = [] ∨ env.parseAddrPort (lastElement h.value) = none)

theorem forwardedAddr_eq_none {env : Env} {r : Request} (h : NamesNoAddress env r) :
    forwardedAddr env r = none := by
  rcases h with hnil | ⟨line, hline, hel⟩
  · unfold forwardedAddr Request.forwardedText
    rw [hnil]
    rfl
  · rw [forwardedAddr_of_line env hline]
    unfold elementAddr
    rcases hel with hnil | hparse
    · exact if_pos hnil
    · rw [hparse]
      exact ite_self none

/-- **The client cannot choose the key.**  Of two requests of one peer to one location:
without a trusted proxy both have the peer's address for their key.  Behind a trusted
proxy they have the same key when their last `X-Forwarded-For` lines agree after the last
comma, whatever else they contain; and the key is the proxy's address when that text
names none. -/
theorem banAddr_attacker_blind (env : Env) (ban : BanConf) (r₁ r₂ : Request)
    (hpeer : r₁.sockaddr = r₂.sockaddr) :
    (ban.key = .peer ∨ banPeerTrusted r₁ ban.trusted = false →
      banAddr env ban r₁ = .ok (banSockaddrBytes r₁.sockaddr)
        ∧ banAddr env ban r₂ = .ok (banSockaddrBytes r₁.sockaddr))
    ∧ (ban.key = .forwarded → banPeerTrusted r₁ ban.trusted = true →
      (∀ h₁ h₂, r₁.xForwardedFor.getLast? = some h₁ → r₂.xForwardedFor.getLast? = some h₂ →
        afterLastComma h₁.value = afterLastComma h₂.value →
        banAddr env ban r₁ = banAddr env ban r₂)
      ∧ (NamesNoAddress env r₁ → banAddr env ban r₁ = .ok (banSockaddrBytes r₁.sockaddr))
      ∧ (NamesNoAddress env r₂ → banAddr env ban r₂ = .ok (banSockaddrBytes r₁.sockaddr))) := by
  -- The gate depends on the peer, which is the same for both requests.
  have htrust : banPeerTrusted r₂ ban.trusted = banPeerTrusted r₁ ban.trusted := by
    unfold banPeerTrusted
    rw [hpeer]
  constructor
  · intro hgate
    have hdirect : ∀ r, banPeerTrusted r ban.trusted = banPeerTrusted r₁ ban.trusted →
        ¬ ban.Forwards r := by
      rintro r hsame ⟨hkey, htrusted⟩
      rcases hgate with hgate | hgate
      · rw [hkey] at hgate
        cases hgate
      · rw [hsame, hgate] at htrusted
        cases htrusted
    constructor
    · exact banAddr_peer env (hdirect r₁ rfl)
    · rw [banAddr_peer env (hdirect r₂ htrust), hpeer]
  · intro hkey htrusted
    have hforwards₁ : ban.Forwards r₁ := ⟨hkey, htrusted⟩
    have hforwards₂ : ban.Forwards r₂ := ⟨hkey, htrust.trans htrusted⟩
    refine ⟨?_, ?_, ?_⟩
    · intro h₁ h₂ hlast₁ hlast₂ htext
      have hsame : r₁.forwardedText = r₂.forwardedText := by
        unfold Request.forwardedText
        rw [hlast₁, hlast₂, Option.map_some, Option.map_some, htext]
      rw [banAddr_forwarded env hforwards₁, banAddr_forwarded env hforwards₂]
      unfold forwardedAddr
      rw [hsame, hpeer]
    · intro hnone
      rw [banAddr_forwarded env hforwards₁, forwardedAddr_eq_none hnone]
      rfl
    · intro hnone
      rw [banAddr_forwarded env hforwards₂, forwardedAddr_eq_none hnone, hpeer]
      rfl

/-- A request from 10.0.0.1 with these `X-Forwarded-For` lines. -/
def forwardedBy (values : List String) : Request :=
  { oneBytePost with sockaddr := .inet #v[10, 0, 0, 1] }.withHeaders
    { part := values.map fun v => ⟨1, bytesOf "X-Forwarded-For", bytesOf v⟩
      next := []
      filled := noParts_filled }

/-- nginx parses one address. -/
def parsing (A : Automata) : Env :=
  { envGranting A fun _ => true with
    parseAddrPort := fun name =>
      if name = bytesOf "192.0.2.7" then some (.inet #v[192, 0, 2, 7]) else none }

/-- Ban what a proxy at 10.0.0.1 forwards for. -/
def banForwarded : BanConf where
  pol := twoHits
  key := .forwarded
  trusted := some fun s => s == .inet #v[10, 0, 0, 1]

/-- A forged line and a forged element change nothing. -/
theorem banAddr_attacker_blind_forged :
    ∃ A, shieldInit AcAllocs.granted AcAllocs.granted true = .ok (some A)
      ∧ banAddr (parsing A) banForwarded (forwardedBy ["10.9.9.9", "x, 192.0.2.7"])
        = banAddr (parsing A) banForwarded (forwardedBy ["evil, 192.0.2.7"])
      ∧ banAddr (parsing A) banForwarded (forwardedBy ["192.0.2.7", "192.0.2.7,\t"])
        = .ok (banSockaddrBytes (.inet #v[10, 0, 0, 1])) := by
  obtain ⟨A, hA⟩ := shieldInit_granted
  obtain ⟨-, hforwarded⟩ := banAddr_attacker_blind (parsing A) banForwarded
    (forwardedBy ["10.9.9.9", "x, 192.0.2.7"]) (forwardedBy ["evil, 192.0.2.7"]) rfl
  obtain ⟨-, hother⟩ := banAddr_attacker_blind (parsing A) banForwarded
    (forwardedBy ["192.0.2.7", "192.0.2.7,\t"]) (forwardedBy []) rfl
  refine ⟨A, hA, ?_, ?_⟩
  · exact (hforwarded rfl (by decide)).1 _ _ rfl rfl (by decide)
  · exact (hother rfl (by decide)).2.1 (.inr ⟨_, rfl, .inl (by decide)⟩)

end HttpShield
