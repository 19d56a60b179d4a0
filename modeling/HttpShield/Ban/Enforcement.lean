/-
  HttpShield.Ban.Enforcement
  ──────────────────────────
  What the ban zone promises over time, under one policy and a clock that does
  not run backwards.

  Every statement is about one address `a`.  A run of the zone is, for `a`, a
  `Life`: a chain of `Change`s of its entry, whatever the calls for other
  addresses and the evictions they cause.  What is observed of it is
  `hitsOf a`, the successful records of `a` with their times, each marked with
  whether it armed a ban.

    • `banIsBanned_exact`  — `is_banned` is true exactly while some armed ban
      has not run out;
    • `banRecord_arms`     — bans are armed neither wrongly (each on `count`
      records of its own inside one window) nor too late (a burst of `count`
      records arms on its last).
-/
import HttpShield.Ban.Run
import Mathlib.Order.Interval.Finset.Nat

namespace HttpShield

/-! ## §1. Policies and runs under one policy. -/

/-- A `shield_ban` policy as the configuration accepts it. -/
structure Policy where
  count : Nat
  window : Int
  banTime : Int
  count_pos : 1 ≤ count
  count_lt : count < ngxUintModulus
  window_pos : 0 < window
  banTime_pos : 0 < banTime

/-- The clock a call is made at. -/
def Op.clock : Op → Option Int
  | .lookup _ => none
  | .isBanned _ now => some now
  | .expire now _ => some now
  | .record _ now _ _ _ _ => some now

/-- The call is made under the policy. -/
def Op.under (pol : Policy) : Op → Prop
  | .lookup _ | .isBanned _ _ => True
  | .expire _ window => window = pol.window
  | .record _ _ count window banTime _ =>
      count = pol.count ∧ window = pol.window ∧ banTime = pol.banTime

/-- The clock of the calls starts at `c` or later, never runs backwards, and has
not passed `c'` at the end. -/
def ClockRun : Int → List Op → Int → Prop
  | c, [], c' => c ≤ c'
  | c, op :: ops, c' => c ≤ op.clock.getD c ∧ ClockRun (op.clock.getD c) ops c'

/-- A sequence of calls under one policy, at a nondecreasing clock that starts at
`start` or later and has not passed `t` at the end. -/
structure PolicyRun (pol : Policy) (start : Int) (ops : List Op) (t : Int) : Prop where
  under : ∀ op ∈ ops, op.under pol
  clock : ClockRun start ops t

/-- A successful record of `a`: its time, and whether it armed a ban. -/
def hitOf (a : Addr) : Op × Reply → Option (Int × Bool)
  | (.record b now _ _ _ _, .recorded armed) => if b = a then some (now, armed) else none
  | _ => none

/-- The successful records of `a` in a run. -/
def hitsOf (a : Addr) (evs : List (Op × Reply)) : List (Int × Bool) := evs.filterMap (hitOf a)

/-- The life of the entry of `a` over a run. -/
inductive Life (a : Addr) : Option Entry → List (Op × Reply) → Option Entry → Prop where
  | nil (e : Option Entry) : Life a e [] e
  | cons {op : Op} {r : Reply} {e e₁ e' : Option Entry} {evs : List (Op × Reply)}
      (hchange : Change a op r e e₁) (hrest : Life a e₁ evs e') : Life a e ((op, r) :: evs) e'

theorem Lru.Runs.life {s s' : Lru} {evs : List (Op × Reply)} (h : Lru.Runs s evs s')
    (hs : s.Distinct) (a : Addr) : Life a (s.get a) evs (s'.get a) := by
  induction h with
  | nil s => exact .nil _
  | @cons s _ _ op _ _ room hstep hrest ih =>
      have hdistinct := hs.step op room
      have hchange := Lru.step_change hs op room a
      rw [hstep] at hdistinct hchange
      exact .cons hchange (ih hdistinct)

/-- A call that is not a record of `a` is not among the hits of `a`. -/
theorem hitOf_eq_none {a : Addr} {op : Op} (hop : op.records a = false) (r : Reply) :
    hitOf a (op, r) = none := by
  cases op with
  | record b now count window banTime alloc =>
      cases r <;> simp_all [hitOf, Op.records]
  | _ => cases r <;> rfl

theorem hitOf_eq_some {a : Addr} {ev : Op × Reply} {h : Int × Bool} (hh : hitOf a ev = some h) :
    ∃ count window banTime alloc,
      ev = (.record a h.1 count window banTime alloc, .recorded h.2) := by
  obtain ⟨op, r⟩ := ev
  cases op with
  | record b now count window banTime alloc =>
      cases r with
      | recorded armed =>
          by_cases hb : b = a
          · subst hb
            obtain rfl : (now, armed) = h := by simpa [hitOf] using hh
            exact ⟨count, window, banTime, alloc, rfl⟩
          · simp [hitOf, hb] at hh
      | _ => simp [hitOf] at hh
  | _ => cases r <;> simp [hitOf] at hh

/-! ## §2. One hit. -/

/-- The saturating addition is the capped sum. -/
theorem timeAddClamp_eq_min (now delta : Int) :
    timeAddClamp now delta = min (now + delta) timeMax := by
  unfold timeAddClamp
  split <;> omega

/-- The window of `e` is over at `now`, or lies in the future. -/
def Entry.rolls (e : Entry) (now window : Int) : Prop :=
  now < e.windowStart ∨ now - e.windowStart ≥ window

instance (e : Entry) (now window : Int) : Decidable (e.rolls now window) :=
  inferInstanceAs (Decidable (_ ∨ _))

/-- The hits a record at `now` brings the count to. -/
def Entry.nextHits (e : Entry) (now window : Int) : Nat :=
  (if e.rolls now window then 0 else e.hits) + 1

/-- The counters while no ban is armed by the hit. -/
def Entry.counting (e : Entry) (now window : Int) : Entry where
  windowStart := if e.rolls now window then now else e.windowStart
  bannedUntil := if e.bannedUntil ≠ 0 ∧ e.bannedUntil ≤ now then 0 else e.bannedUntil
  hits := e.nextHits now window

/-- The counters right after a ban was armed. -/
def Entry.armed (now banTime : Int) : Entry where
  windowStart := now
  bannedUntil := timeAddClamp now banTime
  hits := 0

/-- **What one hit does**, from counters below the threshold: the count never
overflows, and the ban is armed exactly when it reaches the threshold. -/
theorem Entry.hit_eq (pol : Policy) {e : Entry} (h : e.hits < pol.count) (now : Int) :
    e.hit now pol.count pol.window pol.banTime
      = if e.nextHits now pol.window = pol.count then (Entry.armed now pol.banTime, true)
        else (e.counting now pol.window, false) := by
  have hcount := pol.count_lt
  have hnext : e.nextHits now pol.window ≤ pol.count := by
    have := pol.count_pos
    unfold Entry.nextHits
    split <;> omega
  have hbump : ((e.retire now).roll now pol.window).bump = e.counting now pol.window := by
    have hmod : e.nextHits now pol.window % ngxUintModulus = e.nextHits now pol.window :=
      Nat.mod_eq_of_lt (by omega)
    rw [Entry.counting, ← hmod]
    by_cases hret : e.bannedUntil ≠ 0 ∧ e.bannedUntil ≤ now <;>
      by_cases hroll : now < e.windowStart ∨ now - e.windowStart ≥ pol.window <;>
        simp [Entry.retire, Entry.roll, Entry.bump, Entry.rolls, Entry.nextHits, hret, hroll]
  have hhits : (e.counting now pol.window).hits = e.nextHits now pol.window := rfl
  simp only [Entry.hit, hbump, hhits]
  by_cases heq : e.nextHits now pol.window = pol.count
  · rw [if_pos (by omega), if_pos heq]
    rfl
  · rw [if_neg (by omega), if_neg heq]

/-- A hit from counters below the threshold leaves them below it. -/
theorem Entry.hit_hits_lt (pol : Policy) {e : Entry} (h : e.hits < pol.count) (now : Int) :
    (e.hit now pol.count pol.window pol.banTime).1.hits < pol.count := by
  rw [Entry.hit_eq pol h]
  split
  · exact pol.count_pos
  · rename_i hne
    show e.nextHits now pol.window < pol.count
    have := pol.count_pos
    unfold Entry.nextHits at hne ⊢
    split at hne <;> split <;> omega

theorem Entry.fresh_hits_lt (pol : Policy) (now : Int) : (Entry.fresh now).hits < pol.count :=
  pol.count_pos

/-- A hit finds a counter below the threshold, or starts one. -/
theorem Entry.getD_hits_lt {pol : Policy} {e : Option Entry}
    (h : ∀ x, e = some x → x.hits < pol.count) (now : Int) :
    (e.getD (Entry.fresh now)).hits < pol.count := by
  cases e with
  | none => exact Entry.fresh_hits_lt pol now
  | some x => exact h x rfl

/-! ## §3. The timeline of one address. -/

/-- **The counting protocol of one address** between the clocks `c` and `c'`, with
the hits it takes on the way: time passes, a sweep (at a clock `sweeps` allows)
evicts the entry once it is stale, a record counts a hit. -/
inductive Timeline (pol : Policy) (sweeps : Int → Prop) :
    Int → Option Entry → List (Int × Bool) → Int → Option Entry → Prop where
  | done {c c' : Int} (e : Option Entry) (hle : c ≤ c') : Timeline pol sweeps c e [] c' e
  | tick {c c₁ c' : Int} {e e' : Option Entry} {H : List (Int × Bool)} (hle : c ≤ c₁)
      (rest : Timeline pol sweeps c₁ e H c' e') : Timeline pol sweeps c e H c' e'
  | evict {c c' : Int} {x : Entry} {e' : Option Entry} {H : List (Int × Bool)}
      (hsweep : sweeps c) (hstale : x.isLive c pol.window = false)
      (rest : Timeline pol sweeps c none H c' e') : Timeline pol sweeps c (some x) H c' e'
  | hit {c c' : Int} {e e' : Option Entry} {H : List (Int × Bool)}
      (rest : Timeline pol sweeps c
        (some ((e.getD (Entry.fresh c)).hit c pol.count pol.window pol.banTime).1) H c' e') :
      Timeline pol sweeps c e
        ((c, ((e.getD (Entry.fresh c)).hit c pol.count pol.window pol.banTime).2) :: H) c' e'

theorem Timeline.le {pol : Policy} {sweeps : Int → Prop} {c c' : Int} {e e' : Option Entry}
    {H : List (Int × Bool)} (h : Timeline pol sweeps c e H c' e') : c ≤ c' := by
  induction h with
  | done e hle => exact hle
  | tick hle rest ih => exact le_trans hle ih
  | evict hsweep hstale rest ih => exact ih
  | hit rest ih => exact ih

theorem Op.clock_of_sweep {op : Op} {now window : Int} (h : op.sweep = some (now, window)) :
    op.clock = some now := by
  cases op <;> simp_all [Op.sweep, Op.clock]

theorem Op.under.window_eq {pol : Policy} {op : Op} {now window : Int} (h : op.under pol)
    (hsweep : op.sweep = some (now, window)) : window = pol.window := by
  cases op <;> simp_all [Op.sweep, Op.under]

theorem hitsOf_cons_none {a : Addr} {ev : Op × Reply} {evs : List (Op × Reply)}
    (h : hitOf a ev = none) : hitsOf a (ev :: evs) = hitsOf a evs :=
  List.filterMap_cons_none h

theorem hitsOf_append (a : Addr) (evs evs' : List (Op × Reply)) :
    hitsOf a (evs ++ evs') = hitsOf a evs ++ hitsOf a evs' :=
  List.filterMap_append

/-- **A run under one policy is a timeline of each address.**  The sweeps that can
evict the entry of `a` are those of the calls that do not record `a`. -/
theorem Life.timeline {pol : Policy} {sweeps : Int → Prop} {a : Addr} {e e' : Option Entry}
    {evs : List (Op × Reply)} (h : Life a e evs e') :
    ∀ (c c' : Int), (∀ ev ∈ evs, ev.1.under pol) → ClockRun c (evs.map (fun ev => ev.1)) c' →
      (∀ ev ∈ evs, ev.1.records a = false → ∀ now w, ev.1.sweep = some (now, w) → sweeps now) →
      Timeline pol sweeps c e (hitsOf a evs) c' e' := by
  induction h with
  | nil e =>
      intro c c' _ hclock _
      exact .done e hclock
  | @cons op r e e₁ e' evs hchange hrest ih =>
      intro c c' hunder hclock hsweeps
      obtain ⟨hle, hclock'⟩ := hclock
      have hop := hunder (op, r) List.mem_cons_self
      have htail := ih _ c' (fun ev hev => hunder ev (List.mem_cons_of_mem _ hev)) hclock'
        (fun ev hev => hsweeps ev (List.mem_cons_of_mem _ hev))
      refine .tick hle ?_
      cases hchange with
      | keep _ _ _ hrec =>
          rwa [hitsOf_cons_none (hitOf_eq_none hrec r)]
      | evict _ _ x now window hrec hsweep hstale =>
          have hnow : op.clock.getD c = now := by rw [Op.clock_of_sweep hsweep]; rfl
          rw [hitsOf_cons_none (hitOf_eq_none hrec r)]
          rw [hnow] at htail ⊢
          refine .evict (hsweeps (op, r) List.mem_cons_self hrec now window hsweep) ?_ htail
          rw [← hop.window_eq hsweep]
          exact hstale
      | hit now count window banTime alloc =>
          obtain ⟨rfl, rfl, rfl⟩ := hop
          have hhits : ∀ b, hitsOf a ((Op.record a now pol.count pol.window pol.banTime alloc,
              Reply.recorded b) :: evs) = (now, b) :: hitsOf a evs := by
            intro b
            simp [hitsOf, hitOf]
          rw [hhits]
          exact .hit htail
      | drop now count window banTime alloc =>
          rwa [hitsOf_cons_none rfl]

/-! ## §4. Enforcement is exact.

The entry of an address stands for the bans armed for it, and is not evicted before they
are over.  So a check that reads the entry alone is exact. -/

/-- What holds of the entry of an address at clock `c`, after the hits `H`: for
every later clock, its ban is running exactly when some armed ban has not run
out. -/
structure Enforced (pol : Policy) (c : Int) (H : List (Int × Bool)) (e : Option Entry) : Prop where
  nonneg : 0 ≤ c
  past : ∀ h ∈ H, h.1 ≤ c
  below : ∀ x, e = some x → x.hits < pol.count
  exact : ∀ t, c ≤ t → ((∃ x, e = some x ∧ t < x.bannedUntil)
    ↔ ∃ t₀, (t₀, true) ∈ H ∧ t < timeAddClamp t₀ pol.banTime)

theorem Enforced.tick {pol : Policy} {c c₁ : Int} {H : List (Int × Bool)} {e : Option Entry}
    (h : Enforced pol c H e) (hle : c ≤ c₁) : Enforced pol c₁ H e where
  nonneg := le_trans h.nonneg hle
  past := fun x hx => le_trans (h.past x hx) hle
  below := h.below
  exact := fun t ht => h.exact t (le_trans hle ht)

/-- A stale entry carries no running ban, so its eviction ends none. -/
theorem Enforced.evict {pol : Policy} {c : Int} {H : List (Int × Bool)} {x : Entry}
    (h : Enforced pol c H (some x)) (hstale : x.isLive c pol.window = false) :
    Enforced pol c H none where
  nonneg := h.nonneg
  past := h.past
  below := by simp
  exact := by
    intro t ht
    have hover : ¬ c < x.bannedUntil := by
      intro hlt
      simp [Entry.isLive, hlt] at hstale
    rw [← h.exact t ht]
    constructor
    · rintro ⟨y, hy, -⟩
      cases hy
    · rintro ⟨y, hy, hlt⟩
      obtain rfl : x = y := by simpa using hy
      omega

/-- A hit starts a ban exactly when it arms one, and ends none. -/
theorem Enforced.hit {pol : Policy} {c : Int} {H : List (Int × Bool)} {e : Option Entry}
    (h : Enforced pol c H e) :
    Enforced pol c
      (H ++ [(c, ((e.getD (Entry.fresh c)).hit c pol.count pol.window pol.banTime).2)])
      (some ((e.getD (Entry.fresh c)).hit c pol.count pol.window pol.banTime).1) := by
  have hbelow : (e.getD (Entry.fresh c)).hits < pol.count := Entry.getD_hits_lt h.below c
  -- before the hit: a running ban of the entry, created with none if it is new
  have hbefore : ∀ t, c ≤ t → (t < (e.getD (Entry.fresh c)).bannedUntil
      ↔ ∃ t₀, (t₀, true) ∈ H ∧ t < timeAddClamp t₀ pol.banTime) := by
    intro t ht
    rw [← h.exact t ht]
    cases e with
    | none =>
        have := h.nonneg
        simp only [Option.getD_none, Entry.fresh, reduceCtorEq, false_and, exists_false, iff_false]
        omega
    | some x => simp
  refine ⟨h.nonneg, ?_, ?_, ?_⟩
  · intro x hx
    rcases List.mem_append.mp hx with hx | hx
    · exact h.past x hx
    · obtain rfl := List.mem_singleton.mp hx
      exact le_refl _
  · rintro x ⟨rfl⟩
    exact Entry.hit_hits_lt pol hbelow c
  · intro t ht
    rw [Entry.hit_eq pol hbelow]
    split
    · -- armed now: the new deadline is past every earlier one
      constructor
      · rintro ⟨x, ⟨rfl⟩, hlt⟩
        exact ⟨c, by simp, hlt⟩
      · rintro ⟨t₀, hmem, hlt⟩
        refine ⟨_, rfl, ?_⟩
        have hle : t₀ ≤ c := by
          rcases List.mem_append.mp hmem with hm | hm
          · exact h.past _ hm
          · exact le_of_eq (by simpa using hm)
        show t < timeAddClamp c pol.banTime
        rw [timeAddClamp_eq_min] at hlt ⊢
        omega
    · -- not armed: the deadline is kept, or retired after it ran out
      have hdeadline : t < ((e.getD (Entry.fresh c)).counting c pol.window).bannedUntil
          ↔ t < (e.getD (Entry.fresh c)).bannedUntil := by
        have := h.nonneg
        simp only [Entry.counting]
        split <;> omega
      have hmem : ∀ t₀, (t₀, true) ∈ H ++ [(c, false)] ↔ (t₀, true) ∈ H := by simp
      simp only [hmem, ← hbefore t ht, ← hdeadline]
      constructor
      · rintro ⟨x, ⟨rfl⟩, hlt⟩
        exact hlt
      · intro hlt
        exact ⟨_, rfl, hlt⟩

/-- **A timeline keeps the ban of an entry enforced**, its hits added to those before it. -/
theorem Timeline.enforced {pol : Policy} {sweeps : Int → Prop} {c c' : Int} {e e' : Option Entry}
    {H : List (Int × Bool)} (h : Timeline pol sweeps c e H c' e') :
    ∀ H₀, Enforced pol c H₀ e → Enforced pol c' (H₀ ++ H) e' := by
  induction h with
  | done e hle =>
      intro H₀ h₀
      rw [List.append_nil]
      exact h₀.tick hle
  | tick hle rest ih => exact fun H₀ h₀ => ih H₀ (h₀.tick hle)
  | evict hsweep hstale rest ih => exact fun H₀ h₀ => ih H₀ (h₀.evict hstale)
  | hit rest ih =>
      intro H₀ h₀
      rw [List.append_cons]
      exact ih _ h₀.hit

/-- A fresh segment knows no ban. -/
theorem enforced_empty (pol : Policy) : Enforced pol 0 [] none where
  nonneg := le_refl 0
  past := by simp
  below := by simp
  exact := by simp

/-- **Ban enforcement is exact in time.**  After every run under one policy, at a
clock that is never negative, `is_banned` for `a` at time `t` is true exactly if some earlier record for `a`
armed a ban that has not run out at `t`. -/
theorem banIsBanned_exact (pol : Policy) (T : NgxRbtree) (hash : Addr → Nat) (garbage : Shctx)
    (ops : List Op) (a : Addr) (t : Int) (hrun : PolicyRun pol 0 ops t) :
    ∃ z evs z' b, (banInitZone garbage).run T hash ops = .ok (z, evs)
      ∧ banIsBannedLocked z (hash a) a.bytes t = .ok (z', b)
      ∧ (b = true ↔ ∃ t₀, (t₀, true) ∈ hitsOf a evs ∧ t < min (t₀ + pol.banTime) timeMax) := by
  obtain ⟨z, ps, evs, hzone, hwf, hops, hruns⟩ := banInitZone_run T hash garbage ops
  have hlife : Life a none evs (z.entryOf a) := by
    rw [hwf.toShape.entryOf_eq]
    exact hruns.life List.nodupKeys_nil a
  have hline : Timeline pol (fun _ => True) 0 none (hitsOf a evs) t (z.entryOf a) := by
    refine hlife.timeline 0 t ?_ (hops ▸ hrun.clock) (fun _ _ _ _ _ _ => trivial)
    intro ev hev
    exact hrun.under ev.1 (hops ▸ List.mem_map_of_mem hev)
  have henf := hline.enforced [] (enforced_empty pol)
  obtain ⟨z', hban, -⟩ := (hwf.refinesMap T).is_banned a t
  refine ⟨z, evs, z', _, hzone, hban, ?_⟩
  simp only [← timeAddClamp_eq_min]
  rw [List.nil_append] at henf
  rw [← henf.exact t (le_refl t)]
  cases z.entryOf a <;> simp

/-! ## §5. Two clients, one of them banned. -/

/-- A hit of `a` under the policy, `p` being the block the slab would give. -/
def Policy.hit (pol : Policy) (a : Addr) (now : Int) (p : Ptr) : Op :=
  .record a now pol.count pol.window pol.banTime (.block p staleNode)

/-- Two hits within ten seconds ban for five. -/
def twoHits : Policy where
  count := 2
  window := 10
  banTime := 5
  count_pos := by decide
  count_lt := by decide
  window_pos := by decide
  banTime_pos := by decide

theorem hundred_pos : (0 : Int) < 100 := by decide

/-- Two hits within a hundred seconds ban for five, so the window outlasts the ban. -/
def longWindow : Policy :=
  { twoHits with window := 100, window_pos := hundred_pos }

/-- Two clients of one bucket, one of them hitting twice. -/
def twoClients : List Op :=
  [twoHits.hit (client 1) 0 0, twoHits.hit (client 2) 1 1, twoHits.hit (client 1) 2 2]

theorem twoClients_policyRun (t : Int) (ht : 2 ≤ t) : PolicyRun twoHits 0 twoClients t where
  under := by
    intro op hop
    simp only [twoClients, List.mem_cons, List.not_mem_nil, or_false] at hop
    rcases hop with rfl | rfl | rfl <;> exact ⟨rfl, rfl, rfl⟩
  clock := ⟨by decide, by decide, by decide, ht⟩

/-- The ban the second hit arms is running at time 4. -/
theorem banIsBanned_exact_twoClients :
    ∃ z evs z' b, (banInitZone staleShctx).run .plain oneBucket twoClients = .ok (z, evs)
      ∧ banIsBannedLocked z (oneBucket (client 1)) (client 1).bytes 4 = .ok (z', b)
      ∧ (b = true ↔ ∃ t₀, (t₀, true) ∈ hitsOf (client 1) evs
        ∧ (4 : Int) < min (t₀ + twoHits.banTime) timeMax) :=
  banIsBanned_exact twoHits .plain oneBucket staleShctx twoClients (client 1) 4
    (twoClients_policyRun 4 (by decide))

/-! ## §6. Bans are not armed wrongly. -/

/-- The arm at index `i` of the hits `H` has its own `count` hits inside one
window: itself and the ones right before it, none of which armed a ban. -/
def Justified (pol : Policy) (H : List (Int × Bool)) (i : Nat) : Prop :=
  ∃ n start, n + pol.count = i + 1
    ∧ (∀ j, n ≤ j → j < i → ∃ t, H[j]? = some (t, false))
    ∧ (∀ j, n ≤ j → j ≤ i → ∃ h, H[j]? = some h ∧ start ≤ h.1 ∧ h.1 < start + pol.window)

/-- What the counters of an address stand for, after the hits `H`: the last
`hits` of them, all inside the window and none of them an arm. -/
structure Counted (pol : Policy) (H : List (Int × Bool)) (e : Option Entry) : Prop where
  arms : ∀ i t, H[i]? = some (t, true) → Justified pol H i
  below : ∀ x, e = some x → x.hits < pol.count
  hits : ∀ x, e = some x → ∃ n, n + x.hits = H.length ∧ ∀ j, n ≤ j → j < H.length →
    ∃ t, H[j]? = some (t, false) ∧ x.windowStart ≤ t ∧ t < x.windowStart + pol.window
  start : ∀ x, e = some x → ∃ h, H.getLast? = some h ∧ x.windowStart ≤ h.1

theorem Justified.append {pol : Policy} {H : List (Int × Bool)} {i : Nat} (h : Justified pol H i)
    (H' : List (Int × Bool)) : Justified pol (H ++ H') i := by
  have hext : ∀ (j : Nat) (v : Int × Bool), H[j]? = some v → (H ++ H')[j]? = some v := by
    intro j v hj
    have hlt : j < H.length := (List.getElem?_eq_some_iff.mp hj).1
    rw [List.getElem?_append_left hlt]
    exact hj
  obtain ⟨n, start, hn, hno, hin⟩ := h
  refine ⟨n, start, hn, fun j h₁ h₂ => ?_, fun j h₁ h₂ => ?_⟩
  · obtain ⟨t, ht⟩ := hno j h₁ h₂
    exact ⟨t, hext j _ ht⟩
  · obtain ⟨v, hv, hv'⟩ := hin j h₁ h₂
    exact ⟨v, hext j _ hv, hv'⟩

theorem Counted.evict {pol : Policy} {H : List (Int × Bool)} {e : Option Entry}
    (h : Counted pol H e) : Counted pol H none where
  arms := h.arms
  below := by simp
  hits := by simp
  start := by simp

/-- **Counting a hit** keeps the count honest. -/
theorem Counted.hit {pol : Policy} {c : Int} {H : List (Int × Bool)} {e : Option Entry}
    (h : Counted pol H e) :
    Counted pol (H ++ [(c, ((e.getD (Entry.fresh c)).hit c pol.count pol.window pol.banTime).2)])
      (some ((e.getD (Entry.fresh c)).hit c pol.count pol.window pol.banTime).1) := by
  have hbelow : (e.getD (Entry.fresh c)).hits < pol.count := Entry.getD_hits_lt h.below c
  have hwindow := pol.window_pos
  have hcount := pol.count_pos
  generalize hx : e.getD (Entry.fresh c) = x at hbelow
  -- the hits counted so far, the window rolled if it has to be
  have hrun : ∃ n, n + x.nextHits c pol.window = H.length + 1 ∧ ∀ j, n ≤ j → j < H.length →
      ∃ t, H[j]? = some (t, false) ∧ (x.counting c pol.window).windowStart ≤ t
        ∧ t < (x.counting c pol.window).windowStart + pol.window := by
    by_cases hroll : x.rolls c pol.window
    · refine ⟨H.length, by simp [Entry.nextHits, hroll], fun j h₁ h₂ => by omega⟩
    · have hstart : (x.counting c pol.window).windowStart = x.windowStart := by
        simp [Entry.counting, hroll]
      have hnext : x.nextHits c pol.window = x.hits + 1 := by simp [Entry.nextHits, hroll]
      rw [hstart, hnext]
      cases e with
      | none =>
          obtain rfl : Entry.fresh c = x := hx
          exact ⟨H.length, rfl, fun j h₁ h₂ => by omega⟩
      | some y =>
          obtain rfl : y = x := hx
          obtain ⟨n, hn, hin⟩ := h.hits y rfl
          exact ⟨n, by omega, hin⟩
  -- the hit itself is inside that window
  have hnow : (x.counting c pol.window).windowStart ≤ c
      ∧ c < (x.counting c pol.window).windowStart + pol.window := by
    by_cases hroll : x.rolls c pol.window
    · simp [Entry.counting, hroll]; omega
    · have hroll' := hroll
      simp only [Entry.rolls, not_or, not_lt] at hroll'
      simp only [Entry.counting, hroll, if_false]
      omega
  have hlast : ∀ b : Bool, (H ++ [(c, b)])[H.length]? = some (c, b) := by simp
  have hold : ∀ (b : Bool) (j : Nat), j < H.length → (H ++ [(c, b)])[j]? = H[j]? :=
    fun b j hj => List.getElem?_append_left hj
  rw [Entry.hit_eq pol hbelow]
  obtain ⟨n, hn, hin⟩ := hrun
  split
  · -- the ban is armed on this hit
    rename_i harm
    refine ⟨?_, ?_, ?_, ?_⟩
    · intro i t hi
      rcases lt_trichotomy i H.length with hlt | rfl | hgt
      · exact (h.arms i t (by rwa [hold true i hlt] at hi)).append _
      · refine ⟨n, (x.counting c pol.window).windowStart, by omega, fun j h₁ h₂ => ?_,
          fun j h₁ h₂ => ?_⟩
        · obtain ⟨t', ht', -⟩ := hin j h₁ h₂
          exact ⟨t', by rw [hold true j h₂]; exact ht'⟩
        · rcases Nat.lt_or_ge j H.length with hj | hj
          · obtain ⟨t', ht', hin'⟩ := hin j h₁ hj
            exact ⟨(t', false), by rw [hold true j hj]; exact ht', hin'⟩
          · obtain rfl : j = H.length := by omega
            exact ⟨(c, true), hlast true, hnow⟩
      · simp [List.getElem?_eq_none_iff.mpr (show (H ++ [(c, true)]).length ≤ i by simp; omega)]
          at hi
    · rintro y ⟨rfl⟩
      exact pol.count_pos
    · rintro y ⟨rfl⟩
      exact ⟨H.length + 1, by simp [Entry.armed], fun j h₁ h₂ => by simp at h₂; omega⟩
    · rintro y ⟨rfl⟩
      exact ⟨(c, true), by simp, le_refl c⟩
  · -- the hit is only counted
    rename_i harm
    refine ⟨?_, ?_, ?_, ?_⟩
    · intro i t hi
      rcases lt_trichotomy i H.length with hlt | rfl | hgt
      · exact (h.arms i t (by rwa [hold false i hlt] at hi)).append _
      · simp at hi
      · simp [List.getElem?_eq_none_iff.mpr (show (H ++ [(c, false)]).length ≤ i by simp; omega)]
          at hi
    · rintro y ⟨rfl⟩
      have := Entry.hit_hits_lt pol hbelow c
      rwa [Entry.hit_eq pol hbelow, if_neg harm] at this
    · rintro y ⟨rfl⟩
      refine ⟨n, by rw [List.length_append]; exact hn, fun j h₁ h₂ => ?_⟩
      rcases Nat.lt_or_ge j H.length with hj | hj
      · obtain ⟨t', ht', hin'⟩ := hin j h₁ hj
        exact ⟨t', by rw [hold false j hj]; exact ht', hin'⟩
      · obtain rfl : j = H.length := by simp at h₂; omega
        exact ⟨c, hlast false, hnow⟩
    · rintro y ⟨rfl⟩
      exact ⟨(c, false), by simp, hnow.1⟩

/-- **A timeline keeps the counters of an entry right**, its hits added to those before it. -/
theorem Timeline.counted {pol : Policy} {sweeps : Int → Prop} {c c' : Int} {e e' : Option Entry}
    {H : List (Int × Bool)} (h : Timeline pol sweeps c e H c' e') :
    ∀ H₀, Counted pol H₀ e → Counted pol (H₀ ++ H) e' := by
  induction h with
  | done e hle =>
      intro H₀ h₀
      rwa [List.append_nil]
  | tick hle rest ih => exact ih
  | evict hsweep hstale rest ih => exact fun H₀ h₀ => ih H₀ h₀.evict
  | hit rest ih =>
      intro H₀ h₀
      rw [List.append_cons]
      exact ih _ h₀.hit

/-- **No ban is armed wrongly**: each arm among the hits `H` has a set of `count`
hits to itself — it is one of them, their times differ pairwise by less than
the window, and no earlier arm counted any of them. -/
def ArmsSound (pol : Policy) (H : List (Int × Bool)) : Prop :=
  ∃ counted : Nat → Finset Nat, ∀ i t, H[i]? = some (t, true) →
    (counted i).card = pol.count ∧ i ∈ counted i
    ∧ (∀ j ∈ counted i, ∀ k ∈ counted i, ∃ hj hk, H[j]? = some hj ∧ H[k]? = some hk
        ∧ hj.1 - hk.1 < pol.window)
    ∧ (∀ i' t', i' < i → H[i']? = some (t', true) → Disjoint (counted i') (counted i))

/-- Counted hits arm soundly. -/
theorem Counted.armsSound {pol : Policy} {H : List (Int × Bool)} {e : Option Entry}
    (h : Counted pol H e) : ArmsSound pol H := by
  refine ⟨fun i => Finset.Icc (i + 1 - pol.count) i, fun i t hi => ?_⟩
  obtain ⟨n, start, hn, hno, hin⟩ := h.arms i t hi
  have hcount := pol.count_pos
  have hn' : i + 1 - pol.count = n := by omega
  refine ⟨by simp; omega, by simp; omega, ?_, ?_⟩
  · intro j hj k hk
    simp only [hn', Finset.mem_Icc] at hj hk
    obtain ⟨vj, hvj, hj₁, hj₂⟩ := hin j hj.1 hj.2
    obtain ⟨vk, hvk, hk₁, hk₂⟩ := hin k hk.1 hk.2
    exact ⟨vj, vk, hvj, hvk, by omega⟩
  · intro i' t' hlt hi'
    -- an earlier arm comes before the first hit counted here
    have hbefore : i' < n := by
      by_contra hge
      obtain ⟨t'', ht''⟩ := hno i' (not_lt.mp hge) hlt
      rw [hi'] at ht''
      simp at ht''
    rw [Finset.disjoint_left]
    intro j hj hj'
    simp only [Finset.mem_Icc] at hj hj'
    omega

/-! ## §7. Bans are not armed too late. -/

/-- While a burst is being counted no sweep can evict it, except at the largest
clock value, where the saturated deadline is not in the future. -/
theorem Timeline.burst {pol : Policy} {t₁ c c' : Int} {e e' : Option Entry} {H : List (Int × Bool)}
    (h : Timeline pol (fun now => now < timeMax) c e H c' e') :
    ∀ x, e = some x → x.windowStart = t₁ → x.bannedUntil = 0 → t₁ ≤ c → c' < t₁ + pol.window →
      x.hits < pol.count → x.hits + H.length = pol.count →
      H.map (fun v => v.2) = List.replicate (H.length - 1) false ++ [true] := by
  -- The window of the entry is open throughout, so each hit counts on until the last one arms.
  induction h with
  | done e hle =>
      intro x heq _ _ _ _ hlt hlen
      subst heq
      simp at hlen
      omega
  | tick hle rest ih =>
      intro x hx hws hbu hc
      exact ih x hx hws hbu (le_trans hc hle)
  | @evict c c' y e' H hsweep hstale rest ih =>
      rintro x ⟨rfl⟩ hws hbu hc hc' _ _
      have hle := rest.le
      -- An entry with a live window is not stale, so it is not evicted in between.
      have hlive : y.isLive c pol.window = true := by
        simp only [Entry.isLive, hbu, hws, timeAddClamp_eq_min, Bool.or_eq_true, Bool.and_eq_true,
          decide_eq_true_eq, beq_self_eq_true, true_and]
        right
        omega
      rw [hlive] at hstale
      cases hstale
  | @hit c c' e e' H rest ih =>
      intro x heq hws hbu hc hc' hlt hlen
      subst heq
      have hle := rest.le
      have hroll : ¬ x.rolls c pol.window := by
        rw [Entry.rolls, hws]
        omega
      have hnext : x.nextHits c pol.window = x.hits + 1 := by simp [Entry.nextHits, hroll]
      rw [Option.getD_some, Entry.hit_eq pol hlt] at ih rest ⊢
      rw [List.length_cons] at hlen
      by_cases harm : x.nextHits c pol.window = pol.count
      · obtain rfl : H = [] := List.eq_nil_of_length_eq_zero (by omega)
        rw [if_pos harm]
        rfl
      · rw [if_neg harm] at ih ⊢
        have hcounting : (x.counting c pol.window).hits = x.hits + 1 := hnext
        have hrest := ih (x.counting c pol.window) rfl (by simp [Entry.counting, hroll, hws])
          (by simp [Entry.counting, hbu]) hc hc' (by omega) (by omega)
        obtain ⟨m, hm⟩ : ∃ m, H.length = m + 1 := ⟨H.length - 1, by omega⟩
        rw [List.map_cons, hrest, List.length_cons, hm]
        rfl

/-- The first hit of a burst starts a count of its own: no ban is running and
the window of the earlier hits, if there were any, is over. -/
theorem Timeline.burst_first {pol : Policy} {t₁ c' : Int} {e e' : Option Entry}
    {H : List (Int × Bool)} {b : Bool}
    (h : Timeline pol (fun now => now < timeMax) t₁
      (some ((e.getD (Entry.fresh t₁)).hit t₁ pol.count pol.window pol.banTime).1) H c' e')
    (hb : b = ((e.getD (Entry.fresh t₁)).hit t₁ pol.count pol.window pol.banTime).2)
    (hbelow : ∀ x, e = some x → x.hits < pol.count)
    (hfree : ∀ x, e = some x → x.bannedUntil ≤ t₁)
    (hover : ∀ x, e = some x → x.windowStart + pol.window ≤ t₁)
    (hc' : c' < t₁ + pol.window) (hlen : (b :: H.map (fun v => v.2)).length = pol.count) :
    b :: H.map (fun v => v.2) = List.replicate (pol.count - 1) false ++ [true] := by
  have hwindow := pol.window_pos
  have hcount := pol.count_pos
  generalize hx : e.getD (Entry.fresh t₁) = x at h hb
  have hlt : x.hits < pol.count := by
    rw [← hx]
    exact Entry.getD_hits_lt hbelow t₁
  -- whatever the entry was, it counts one hit from now on
  have hone : x.nextHits t₁ pol.window = 1 ∧ (x.counting t₁ pol.window).windowStart = t₁
      ∧ (x.counting t₁ pol.window).bannedUntil = 0 := by
    cases e with
    | none =>
        obtain rfl : Entry.fresh t₁ = x := hx
        have hroll : ¬ (Entry.fresh t₁).rolls t₁ pol.window := by
          simp only [Entry.rolls, Entry.fresh]
          omega
        refine ⟨by rw [Entry.nextHits, if_neg hroll]; rfl, ?_, ?_⟩
        · simp only [Entry.counting, if_neg hroll]
          rfl
        · simp only [Entry.counting]
          split <;> rfl
    | some y =>
        obtain rfl : y = x := hx
        have hroll : y.rolls t₁ pol.window := by
          have := hover y rfl
          simp only [Entry.rolls]
          omega
        have := hfree y rfl
        refine ⟨by simp [Entry.nextHits, hroll], by simp [Entry.counting, hroll], ?_⟩
        simp only [Entry.counting]
        split <;> omega
  obtain ⟨hnext, hstart, hbu⟩ := hone
  rw [List.length_cons, List.length_map] at hlen
  rw [Entry.hit_eq pol hlt, hnext] at h hb
  by_cases harm : 1 = pol.count
  · obtain rfl : H = [] := List.eq_nil_of_length_eq_zero (by omega)
    rw [if_pos harm] at hb
    rw [hb, ← harm]
    rfl
  · rw [if_neg harm] at h hb
    have hhits : (x.counting t₁ pol.window).hits = 1 := hnext
    have hflags := h.burst (x.counting t₁ pol.window) rfl hstart hbu (le_refl t₁) hc'
      (by omega) (by omega)
    rw [hb, hflags]
    obtain ⟨m, hm⟩ : ∃ m, H.length = m + 1 := ⟨H.length - 1, by omega⟩
    have hm' : pol.count - 1 = m + 1 := by omega
    rw [hm, hm']
    rfl

/-! ## §8. Bursts.

The last record of a burst arms: below the largest clock value an entry is not evicted
while its window is open, so each record counts on from the one before it. -/

/-- The calls of a run up to its last clocked call end at its clock. -/
theorem ClockRun.last {c c' : Int} {ops : List Op} (h : ClockRun c ops c') {op : Op} {t : Int}
    (hlast : ops.getLast? = some op) (ht : op.clock = some t) : ClockRun c ops t := by
  induction ops generalizing c with
  | nil => simp at hlast
  | cons o ops ih =>
      obtain ⟨hle, hrest⟩ := h
      refine ⟨hle, ?_⟩
      cases ops with
      | nil =>
          obtain rfl : o = op := by simpa using hlast
          rw [ht]
          exact le_refl t
      | cons o' ops => exact ih hrest (by simpa using hlast)

theorem ClockRun.append {c c' : Int} {ops ops' : List Op} (h : ClockRun c (ops ++ ops') c') :
    ∃ m, ClockRun c ops m ∧ ClockRun m ops' c' := by
  induction ops generalizing c with
  | nil => exact ⟨c, le_refl c, h⟩
  | cons o ops ih =>
      obtain ⟨hle, hrest⟩ := h
      obtain ⟨m, h₁, h₂⟩ := ih hrest
      exact ⟨m, ⟨hle, h₁⟩, h₂⟩

/-- A burst of `count` records of `a`, the first at `t₁` and all of them before
`t₁ + window`, with whatever calls for other addresses in between. -/
structure Burst (pol : Policy) (a : Addr) (t₁ : Int) (evs : List (Op × Reply)) : Prop where
  first : ∃ ev rest b, evs = ev :: rest ∧ hitOf a ev = some (t₁, b)
  last : ∃ ev h, evs.getLast? = some ev ∧ hitOf a ev = some h
  count : (hitsOf a evs).length = pol.count
  within : ∀ h ∈ hitsOf a evs, h.1 < t₁ + pol.window

/-- **No ban is armed too late**: a burst on an address that is not banned, and
was not recorded in the window before, arms on its last record and not before. -/
def ArmsOnTime (pol : Policy) (hash : Addr → Nat) (a : Addr) (z : Zone)
    (pre burst : List (Op × Reply)) : Prop :=
  ∀ t₁, Burst pol a t₁ burst →
    (∃ z', banIsBannedLocked z (hash a) a.bytes t₁ = .ok (z', false)) →
    (∀ h, (hitsOf a pre).getLast? = some h → h.1 + pol.window ≤ t₁) →
    (hitsOf a burst).map (fun h => h.2) = List.replicate (pol.count - 1) false ++ [true]

/-- **Bans are armed neither wrongly nor too late**, in every run under one
policy: every arm is sound, and every burst arms on time — unless a call for
another address sweeps during the burst at the largest clock value there is. -/
theorem banRecord_arms (pol : Policy) (T : NgxRbtree) (hash : Addr → Nat) (garbage : Shctx)
    (pre burst : List Op) (a : Addr) (start t : Int)
    (hrun : PolicyRun pol start (pre ++ burst) t) :
    ∃ z₁ evs₁ z₂ evs₂, (banInitZone garbage).run T hash pre = .ok (z₁, evs₁)
      ∧ z₁.run T hash burst = .ok (z₂, evs₂)
      ∧ ArmsSound pol (hitsOf a (evs₁ ++ evs₂))
      ∧ ((∀ op ∈ burst, op.records a = false → ∀ now w, op.sweep = some (now, w) → now < timeMax) →
        ArmsOnTime pol hash a z₁ evs₁ evs₂) := by
  obtain ⟨z₁, ps₁, evs₁, hzone₁, hwf₁, hops₁, hruns₁⟩ := banInitZone_run T hash garbage pre
  obtain ⟨z₂, ps₂, evs₂, hzone₂, hwf₂, hops₂, hruns₂⟩ := Zone.run_refines T burst z₁ ps₁ hwf₁
  obtain ⟨m, hclock₁, hclock₂⟩ := hrun.clock.append
  have hunder₁ : ∀ ev ∈ evs₁, ev.1.under pol := fun ev hev =>
    hrun.under ev.1 (List.mem_append_left _ (hops₁ ▸ List.mem_map_of_mem hev))
  have hunder₂ : ∀ ev ∈ evs₂, ev.1.under pol := fun ev hev =>
    hrun.under ev.1 (List.mem_append_right _ (hops₂ ▸ List.mem_map_of_mem hev))
  have hlife₁ : Life a none evs₁ (z₁.entryOf a) := by
    rw [hwf₁.toShape.entryOf_eq]
    exact hruns₁.life List.nodupKeys_nil a
  have hlife₂ : Life a (z₁.entryOf a) evs₂ (z₂.entryOf a) := by
    rw [hwf₁.toShape.entryOf_eq, hwf₂.toShape.entryOf_eq]
    exact hruns₂.life hwf₁.toShape.distinct a
  have hline₁ : Timeline pol (fun _ => True) start none (hitsOf a evs₁) m (z₁.entryOf a) :=
    hlife₁.timeline start m hunder₁ (hops₁ ▸ hclock₁) (fun _ _ _ _ _ _ => trivial)
  have hcounted₁ : Counted pol (hitsOf a evs₁) (z₁.entryOf a) := by
    have := hline₁.counted [] ⟨by simp, by simp, by simp, by simp⟩
    rwa [List.nil_append] at this
  refine ⟨z₁, evs₁, z₂, evs₂, hzone₁, hzone₂, ?_, ?_⟩
  · have hline₂ : Timeline pol (fun _ => True) m (z₁.entryOf a) (hitsOf a evs₂) t (z₂.entryOf a) :=
      hlife₂.timeline m t hunder₂ (hops₂ ▸ hclock₂) (fun _ _ _ _ _ _ => trivial)
    rw [hitsOf_append]
    exact (hline₂.counted _ hcounted₁).armsSound
  · intro hsweeps t₁ hburst hfree hquiet
    obtain ⟨ev, rest, b, rfl, hfirst⟩ := hburst.first
    obtain ⟨evLast, hLast, hlast, hhit⟩ := hburst.last
    obtain ⟨count, window, banTime, alloc, rfl⟩ := hitOf_eq_some hfirst
    have hunder := hunder₂ _ List.mem_cons_self
    obtain ⟨rfl, rfl, rfl⟩ := hunder
    -- the clock of the whole burst stays below the end of the window
    have hend : hLast.1 < t₁ + pol.window :=
      hburst.within hLast (List.mem_filterMap.mpr ⟨evLast, List.mem_of_getLast? hlast, hhit⟩)
    have hclock : ClockRun t₁ (rest.map (fun ev => ev.1)) hLast.1 := by
      obtain ⟨_, _, _, _, hev⟩ := hitOf_eq_some hhit
      have hopLast : burst.getLast? = some evLast.1 := by
        rw [← hops₂, List.getLast?_map, hlast]
        rfl
      have := hclock₂.last hopLast (t := hLast.1) (by rw [hev]; rfl)
      rw [← hops₂] at this
      exact this.2
    have hhits : hitsOf a ((Op.record a t₁ pol.count pol.window pol.banTime alloc,
        Reply.recorded b) :: rest) = (t₁, b) :: hitsOf a rest :=
      List.filterMap_cons_some hfirst
    obtain ⟨e₁, hchange, hrest⟩ : ∃ e₁, Change a (.record a t₁ pol.count pol.window pol.banTime alloc)
        (.recorded b) (z₁.entryOf a) e₁ ∧ Life a e₁ rest (z₂.entryOf a) := by
      cases hlife₂ with
      | cons hchange hrest => exact ⟨_, hchange, hrest⟩
    rcases hchange.record_self with ⟨hdrop, -, -⟩ | ⟨hb, rfl⟩
    · cases hdrop
    · have hline : Timeline pol (fun now => now < timeMax) t₁ _ (hitsOf a rest) hLast.1
          (z₂.entryOf a) :=
        hrest.timeline t₁ hLast.1 (fun ev hev => hunder₂ ev (List.mem_cons_of_mem _ hev)) hclock
          (fun ev hev => hsweeps ev.1 (by
            rw [← hops₂]
            exact List.mem_map_of_mem (List.mem_cons_of_mem _ hev)))
      have hcount := hburst.count
      rw [hhits] at hcount ⊢
      refine hline.burst_first (Reply.recorded.inj hb) hcounted₁.below ?_ ?_ hend (by simpa using hcount)
      · -- not banned at the start of the burst
        intro x hx
        obtain ⟨z', hban⟩ := hfree
        obtain ⟨z'', hban', -⟩ := (hwf₁.refinesMap T).is_banned a t₁
        rw [hban, hx] at hban'
        have := (Prod.ext_iff.mp (Except.ok.inj hban')).2
        simpa using this
      · -- the window of the earlier hits is over
        intro x hx
        obtain ⟨h, hh, hle⟩ := hcounted₁.start x hx
        have := hquiet h hh
        omega


/-- The events of `twoClients`: the second hit of the first client arms. -/
theorem twoClients_events :
    ((banInitZone staleShctx).run .plain oneBucket twoClients).map
        (fun r : Zone × List (Op × Reply) => r.2)
      = .ok (twoClients.zip [.recorded false, .recorded false, .recorded true]) := by
  rfl

/-- The two hits of the first client are a burst, and it arms on the second. -/
theorem banRecord_arms_twoClients :
    ∃ z₁ evs₁ z₂ evs₂, (banInitZone staleShctx).run .plain oneBucket [] = .ok (z₁, evs₁)
      ∧ z₁.run .plain oneBucket twoClients = .ok (z₂, evs₂)
      ∧ ArmsSound twoHits (hitsOf (client 1) (evs₁ ++ evs₂))
      ∧ (hitsOf (client 1) evs₂).map (fun h => h.2) = [false, true] := by
  obtain ⟨z₁, evs₁, z₂, evs₂, hrun₁, hrun₂, hsound, htime⟩ :=
    banRecord_arms twoHits .plain oneBucket staleShctx [] twoClients (client 1) 0 2
      (twoClients_policyRun 2 (by decide))
  obtain ⟨rfl, rfl⟩ : banInitZone staleShctx = z₁ ∧ [] = evs₁ := by simpa [Zone.run] using hrun₁
  have hevs := Zone.run_events hrun₂ twoClients_events
  refine ⟨_, _, z₂, evs₂, hrun₁, hrun₂, hsound, ?_⟩
  refine htime ?_ 0 ?_ ⟨_, rfl⟩ (by simp [hitsOf])
  · intro op hop hrec now w hsweep
    simp only [twoClients, List.mem_cons, List.not_mem_nil, or_false] at hop
    rcases hop with rfl | rfl | rfl <;> cases hsweep <;> decide
  · rw [hevs]
    exact ⟨⟨_, _, false, rfl, rfl⟩, ⟨_, (2, true), rfl, rfl⟩, rfl, by decide⟩

/-- The two hits of `twoClients` at the largest clock value, with the other
client's hit between them. -/
def lateClients : List Op :=
  [twoHits.hit (client 1) timeMax 0, twoHits.hit (client 2) timeMax 1,
    twoHits.hit (client 1) timeMax 2]

/-- **At the largest clock value a burst can go unnoticed**: the deadline of the
first hit saturates to the present, so the sweep of the other client evicts it. -/
theorem banRecord_late :
    ∃ z₁ evs₁ z₂ evs₂, PolicyRun twoHits 0 ([] ++ lateClients) timeMax
      ∧ (banInitZone staleShctx).run .plain oneBucket [] = .ok (z₁, evs₁)
      ∧ z₁.run .plain oneBucket lateClients = .ok (z₂, evs₂)
      ∧ ¬ ArmsOnTime twoHits oneBucket (client 1) z₁ evs₁ evs₂ := by
  obtain ⟨z₂, ps, evs₂, hrun, -, -, -⟩ :=
    banInitZone_run .plain oneBucket staleShctx lateClients
  have hevs : evs₂ = lateClients.zip [.recorded false, .recorded false, .recorded false] :=
    Zone.run_events hrun rfl
  refine ⟨banInitZone staleShctx, [], z₂, evs₂, ⟨?_, ?_⟩, rfl, hrun, ?_⟩
  · intro op hop
    simp only [lateClients, List.nil_append, List.mem_cons, List.not_mem_nil, or_false] at hop
    rcases hop with rfl | rfl | rfl <;> exact ⟨rfl, rfl, rfl⟩
  · exact ⟨by decide, le_refl timeMax, le_refl timeMax, le_refl timeMax⟩
  · intro htime
    have hburst : Burst twoHits (client 1) timeMax evs₂ := by
      rw [hevs]
      exact ⟨⟨_, _, false, rfl, rfl⟩, ⟨_, (timeMax, false), rfl, rfl⟩, rfl, by decide⟩
    have hflags := htime timeMax hburst ⟨_, rfl⟩ (by simp [hitsOf])
    rw [hevs] at hflags
    exact absurd hflags (by decide)

end HttpShield
