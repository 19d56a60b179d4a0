/-
  HttpShield.Config.Reload
  ────────────────────────
  The ban zone across reloads.

  A reload brings a new configuration with a policy of its own, and the workers of
  the old one go on until their requests are done.  `ngx_http_shield_ban_init_zone`
  points each configuration at a shared segment: at the one that is handed on, or
  at a fresh one that it lays out.  So calls under different policies meet in one
  zone, and a ban can be cut short by the next one armed for the same address.

    • `Governed.change`    — one call, under whatever policy: the ban of an address
      is the last one armed for it,
    • `Master.Sound.step`  — no load and no call leaves a context without a segment,
    • `reload_enforces`    — in every run every answer of `is_banned` is exact, and
      the counters of a segment count what was done on it, reloads or not.
-/
import HttpShield.Request.Handler
import HttpShield.Ban.Frame

namespace HttpShield

/-! ## §1. The last ban armed. -/

/-- A ban armed for `a`: when, and for how long. -/
def armOf (a : Addr) : Op × Reply → Option (Int × Int)
  | (.record b now _ _ banTime _, .recorded true) => if b = a then some (now, banTime) else none
  | _ => none

/-- The last of the armed bans has not run out at `t`. -/
def LastRuns (arms : List (Int × Int)) (t : Int) : Prop :=
  ∃ arm ∈ arms.getLast?, t < min (arm.1 + arm.2) timeMax

theorem not_lastRuns_nil (t : Int) : ¬ LastRuns [] t := by
  intro h
  obtain ⟨arm, harm, -⟩ := h
  cases harm

theorem lastRuns_snoc (arms : List (Int × Int)) (arm : Int × Int) (t : Int) :
    LastRuns (arms ++ [arm]) t ↔ t < min (arm.1 + arm.2) timeMax := by
  unfold LastRuns
  rw [List.getLast?_append, List.getLast?_singleton]
  simp

/-- A hit either arms a ban of its own length, or leaves the deadline, retired if it
has passed.  No policy is assumed. -/
theorem Entry.hit_bannedUntil (e : Entry) (now : Int) (count : Nat) (window banTime : Int) :
    (e.hit now count window banTime).1.bannedUntil
      = if (e.hit now count window banTime).2 then timeAddClamp now banTime
        else (e.retire now).bannedUntil := by
  have hcount : (((e.retire now).roll now window).bump).bannedUntil
      = (e.retire now).bannedUntil := by
    unfold Entry.roll Entry.bump
    split <;> rfl
  unfold Entry.hit
  by_cases harm : (((e.retire now).roll now window).bump).hits ≥ count
  · simp only [harm, if_true]
    rfl
  · simp only [harm, if_false, Bool.false_eq_true]
    exact hcount

theorem Entry.retire_bannedUntil (e : Entry) {now : Int} (hepoch : 0 ≤ now) {t : Int}
    (ht : now ≤ t) : t < (e.retire now).bannedUntil ↔ t < e.bannedUntil := by
  unfold Entry.retire
  split
  · show t < 0 ↔ _
    omega
  · exact Iff.rfl

/-- **What holds of the entry of an address** at clock `c`, after the bans armed for
it: it is banned at a later time exactly if the last of them has not run out. -/
structure Governed (c : Int) (arms : List (Int × Int)) (e : Option Entry) : Prop where
  nonneg : 0 ≤ c
  exact : ∀ t, c ≤ t → ((∃ x, e = some x ∧ t < x.bannedUntil) ↔ LastRuns arms t)

theorem Governed.tick {c c' : Int} {arms : List (Int × Int)} {e : Option Entry}
    (h : Governed c arms e) (hle : c ≤ c') : Governed c' arms e where
  nonneg := le_trans h.nonneg hle
  exact := fun t ht => h.exact t (le_trans hle ht)

theorem governed_none {c : Int} (hepoch : 0 ≤ c) : Governed c [] none where
  nonneg := hepoch
  exact := by
    intro t _
    constructor
    · intro h
      obtain ⟨x, hx, -⟩ := h
      cases hx
    · intro h
      exact absurd h (not_lastRuns_nil t)

/-- A stale entry carries no running ban. -/
theorem Governed.evict {c : Int} {arms : List (Int × Int)} {x : Entry}
    (h : Governed c arms (some x)) {window : Int} (hstale : x.isLive c window = false) :
    Governed c arms none where
  nonneg := h.nonneg
  exact := by
    intro t ht
    have hover : ¬ c < x.bannedUntil := by
      intro hlt
      simp [Entry.isLive, hlt] at hstale
    rw [← h.exact t ht]
    constructor
    · intro hnone
      obtain ⟨y, hy, -⟩ := hnone
      cases hy
    · intro hsome
      obtain ⟨y, hy, hlt⟩ := hsome
      obtain rfl : x = y := by simpa using hy
      omega

/-- The deadline a record finds, or starts with, is the one the address has. -/
theorem Governed.getD {c : Int} {arms : List (Int × Int)} {e : Option Entry}
    (h : Governed c arms e) {t : Int} (ht : c ≤ t) :
    t < (e.getD (Entry.fresh c)).bannedUntil ↔ LastRuns arms t := by
  rw [← h.exact t ht]
  have hepoch := h.nonneg
  cases e with
  | none =>
      show t < 0 ↔ _
      constructor
      · intro hlt
        omega
      · intro hnone
        obtain ⟨x, hx, -⟩ := hnone
        cases hx
  | some x => simp

/-- **A hit, under any policy**, leaves the last ban armed in force: its own if it
arms one, be that shorter or longer than the one that is running. -/
theorem Governed.hit {c : Int} {arms : List (Int × Int)} {e : Option Entry}
    (h : Governed c arms e) (count : Nat) (window banTime : Int) :
    Governed c
      (arms ++
        if ((e.getD (Entry.fresh c)).hit c count window banTime).2 then [(c, banTime)] else [])
      (some ((e.getD (Entry.fresh c)).hit c count window banTime).1) where
  nonneg := h.nonneg
  exact := by
    intro t ht
    have hdeadline := Entry.hit_bannedUntil (e.getD (Entry.fresh c)) c count window banTime
    have hone : (∃ x, some ((e.getD (Entry.fresh c)).hit c count window banTime).1 = some x
        ∧ t < x.bannedUntil)
        ↔ t < ((e.getD (Entry.fresh c)).hit c count window banTime).1.bannedUntil := by simp
    rw [hone, hdeadline]
    by_cases harm : ((e.getD (Entry.fresh c)).hit c count window banTime).2 = true
    · rw [if_pos harm, if_pos harm, lastRuns_snoc, timeAddClamp_eq_min]
    · rw [if_neg harm, if_neg harm, List.append_nil,
        Entry.retire_bannedUntil _ h.nonneg ht]
      exact h.getD ht

/-- **One call keeps an entry governed by its last ban**, whatever policy it is made under. -/
theorem Governed.change {a : Addr} {op : Op} {r : Reply} {e e' : Option Entry} {c : Int}
    {arms : List (Int × Int)} (h : Governed c arms e) (hchange : Change a op r e e')
    (hclock : c ≤ op.clock.getD c) :
    Governed (op.clock.getD c) (arms ++ (armOf a (op, r)).toList) e' := by
  have htick := h.tick hclock
  have hnone : op.records a = false → armOf a (op, r) = none := by
    intro hop
    cases op with
    | record b now count window banTime alloc =>
        have hb : b ≠ a := by simpa [Op.records] using hop
        cases r with
        | recorded armed => cases armed <;> simp [armOf, hb]
        | _ => rfl
    | _ => cases r <;> rfl
  -- Only a hit of `a` can arm, and only a stale entry, whose ban is over, is evicted.
  cases hchange with
  | keep _ _ _ hop =>
      rw [hnone hop]
      simpa using htick
  | evict _ _ x now window hop hsweep hstale =>
      have hnow : op.clock.getD c = now := by
        rw [Op.clock_of_sweep hsweep]
        rfl
      rw [hnone hop]
      rw [hnow] at htick ⊢
      simpa using htick.evict hstale
  | hit now count window banTime alloc _ =>
      have hhit := htick.hit count window banTime
      have harm : (armOf a (Op.record a now count window banTime alloc,
          Reply.recorded ((e.getD (Entry.fresh now)).hit now count window banTime).2)).toList
          = if ((e.getD (Entry.fresh now)).hit now count window banTime).2
            then [(now, banTime)] else [] := by
        cases ((e.getD (Entry.fresh now)).hit now count window banTime).2 with
        | true => simp [armOf]
        | false => rfl
      rw [harm]
      exact hhit
  | drop now count window banTime alloc =>
      show Governed now (arms ++ []) none
      rw [List.append_nil]
      exact htick

/-! ## §2. Segments and configurations.

nginx calls `ngx_http_shield_ban_init_zone` for every configuration that it loads, with
the context of the one before if the zone has the same name and size. -/

/-- A shared-memory segment, by where it is mapped. -/
abbrev Seg := Nat

/-- `ngx_http_shield_ban_ctx_t`: the segments its two pointers lead to. -/
structure BanCtx where
  sh : Option Seg
  shpool : Option Seg
  deriving Repr, DecidableEq

/-- A segment: `shpool->data`, `shpool->log_ctx`, and the zone in it. -/
structure ShmSegment where
  data : Option Seg
  logCtx : Option Bytes
  zone : Zone

/-- `ngx_shm_zone_t`, as `init` is called on it. -/
structure ShmZone where
  name : Bytes
  addr : Seg
  /-- `shm.exists`. -/
  preexisting : Bool
  data : BanCtx

/-- The text of `log_ctx`, with its NUL. -/
def logCtxText (name : Bytes) : Bytes :=
  bytesOf " in shield_ban_zone \"" ++ name ++ bytesOf "\"" ++ [0]

/-- `ngx_http_shield_ban_init_zone`: the return code, the context of `shm_zone`, and the
memory.  `octx` is the context of the zone that is handed on, `granted` answers the two
slab allocations, and fresh memory holds `garbage`. -/
def banInitZoneCall (granted : Nat → Bool) (garbage : Shctx) (shmZone : ShmZone)
    (octx : Option BanCtx) (mem : Seg → ShmSegment) : Int × BanCtx × (Seg → ShmSegment) :=
  match octx with
  -- reload: inherit the segment
  | some octx => (ngxOk, { sh := octx.sh, shpool := octx.shpool }, mem)
  | none =>
      let ctx : BanCtx := { shmZone.data with shpool := some shmZone.addr }
      if shmZone.preexisting then (ngxOk, { ctx with sh := (mem shmZone.addr).data }, mem)
      else if ¬ granted 0 then (ngxError, { ctx with sh := none }, mem)
      else
        let ctx : BanCtx := { ctx with sh := some shmZone.addr }
        let laid : ShmSegment :=
          { mem shmZone.addr with data := some shmZone.addr, zone := banInitZone garbage }
        if ¬ granted 1 then
          (ngxError, ctx, Function.update mem shmZone.addr { laid with logCtx := none })
        else
          (ngxOk, ctx,
            Function.update mem shmZone.addr { laid with logCtx := some (logCtxText shmZone.name) })

/-- A configuration whose workers run. -/
structure Generation where
  ctx : BanCtx
  pol : Policy

/-- The memory of the segments mapped so far, the configurations in use, the newest
first, and the clock. -/
structure Master where
  name : Bytes
  mem : Seg → ShmSegment
  mapped : Nat
  gens : List Generation
  clock : Int

/-! ## §3. Moves. -/

/-- The moves of the master and its workers. -/
inductive MasterMove where
  /-- A configuration is loaded.  `keep`: its zone has the name and the size of the one
  before, so that one's context and segment are handed on. -/
  | load (pol : Policy) (keep : Bool) (granted : Nat → Bool) (garbage : Shctx)
  /-- The last worker of an older configuration is gone. -/
  | retire (i : Nat)
  /-- Calls of a worker of the configuration at this place. -/
  | isBanned (i : Nat) (a : Addr) (now : Int)
  | record (i : Nat) (a : Addr) (now : Int) (alloc : SlabAlloc)
  | count (i : Nat) (cat : Nat) (blocked : Bool)

/-- What happened on a segment. -/
inductive Happened where
  | called (s : Seg) (op : Op) (r : Reply)
  | counted (s : Seg) (cat : Nat) (blocked : Bool)

/-- The clock behind a move: the time of a call, else the clock as it is. -/
def MasterMove.clock (m : Master) : MasterMove → Int
  | .isBanned _ _ now | .record _ _ now _ => now
  | _ => m.clock

/-- A move that can be made: the clock does not run backwards, and there is a worker. -/
def MasterMove.Enabled (m : Master) (move : MasterMove) : Prop :=
  m.clock ≤ move.clock m ∧
    match move with
    | .load _ _ _ _ => True
    | .retire i => i + 1 < m.gens.length
    | .isBanned i _ _ | .record i _ _ _ | .count i _ _ => i < m.gens.length

instance (m : Master) : (move : MasterMove) → Decidable (move.Enabled m)
  | .load _ _ _ _ => inferInstanceAs (Decidable (m.clock ≤ m.clock ∧ True))
  | .retire i => inferInstanceAs (Decidable (m.clock ≤ m.clock ∧ i + 1 < m.gens.length))
  | .isBanned i _ now => inferInstanceAs (Decidable (m.clock ≤ now ∧ i < m.gens.length))
  | .record i _ now _ => inferInstanceAs (Decidable (m.clock ≤ now ∧ i < m.gens.length))
  | .count i _ _ => inferInstanceAs (Decidable (m.clock ≤ m.clock ∧ i < m.gens.length))

/-- Reading a pointer of a context. -/
def seeks (p : Option Seg) : Except Fault Seg :=
  match p with
  | none => .error .useAfterFree
  | some s => .ok s

/-- The configuration at place `i` of those in use. -/
def Master.generation (m : Master) (i : Nat) : Except Fault Generation :=
  match m.gens[i]? with
  | none => .error .outOfBounds
  | some g => .ok g

theorem Master.generation_eq (m : Master) {i : Nat} (hi : i < m.gens.length) :
    m.generation i = .ok m.gens[i] := by
  unfold Master.generation
  rw [List.getElem?_eq_getElem hi]

/-- The segment that the context of configuration `i` points to. -/
def Master.segment (m : Master) (i : Nat) : Except Fault Seg := do
  let g ← m.generation i
  let _ ← seeks g.ctx.shpool
  seeks g.ctx.sh

/-- The memory after a change to one zone. -/
def Master.setZone (m : Master) (s : Seg) (z : Zone) : Master :=
  { m with mem := Function.update m.mem s { m.mem s with zone := z } }

/-- One call on the zone of a segment. -/
def Master.call (T : NgxRbtree) (hash : Addr → Nat) (m : Master) (i : Nat) (op : Op) (now : Int) :
    Except Fault (Master × List Happened) := do
  let s ← m.segment i
  let (z, r) ← (m.mem s).zone.step T hash op
  return ({ m.setZone s z with clock := now }, [.called s op r])

/-- A configuration taken into use.  One whose zone cannot be set up is refused, and the
old one stays. -/
def Master.take (m : Master) (pol : Policy) (mapped : Nat)
    (out : Int × BanCtx × (Seg → ShmSegment)) : Master :=
  { m with
    mem := out.2.2
    mapped := mapped
    gens := if out.1 = ngxOk then ⟨out.2.1, pol⟩ :: m.gens else m.gens }

/-- Make a move. -/
def Master.step (T : NgxRbtree) (hash : Addr → Nat) (m : Master) :
    MasterMove → Except Fault (Master × List Happened)
  | .load pol keep granted garbage =>
      let octx := if keep then m.gens.head?.map Generation.ctx else none
      let shmZone : ShmZone :=
        { name := m.name, addr := m.mapped, preexisting := false, data := ⟨none, none⟩ }
      let mapped := if octx.isSome then m.mapped else m.mapped + 1
      return (m.take pol mapped (banInitZoneCall granted garbage shmZone octx m.mem), [])
  | .retire i => return ({ m with gens := m.gens.eraseIdx (i + 1) }, [])
  | .isBanned i a now => m.call T hash i (.isBanned a now) now
  | .record i a now alloc => do
      let g ← m.generation i
      m.call T hash i (.record a now g.pol.count g.pol.window g.pol.banTime alloc) now
  | .count i cat blocked => do
      let s ← m.segment i
      return (m.setZone s (banCountHit (m.mem s).zone cat blocked), [.counted s cat blocked])

/-- No segment is mapped, and no configuration loaded. -/
def Master.start (name : Bytes) (mem : Seg → ShmSegment) : Master where
  name := name
  mem := mem
  mapped := 0
  gens := []
  clock := 0

/-- Runs, with what happened in them. -/
inductive Master.Run (T : NgxRbtree) (hash : Addr → Nat) (m₀ : Master) :
    Master → List Happened → Prop where
  | init : Master.Run T hash m₀ m₀ []
  | step {m m' : Master} {past more : List Happened} (run : Master.Run T hash m₀ m past)
      (move : MasterMove) (henabled : move.Enabled m)
      (hstep : m.step T hash move = .ok (m', more)) : Master.Run T hash m₀ m' (past ++ more)

/-- **Laying out a fresh segment** touches that one only, and where it succeeds the context
leads to an empty zone in it. -/
theorem banInitZoneCall_fresh {granted : Nat → Bool} {garbage : Shctx} {shmZone : ShmZone}
    {mem mem' : Seg → ShmSegment} {rc : Int} {ctx : BanCtx} (hfresh : shmZone.preexisting = false)
    (hcall : banInitZoneCall granted garbage shmZone none mem = (rc, ctx, mem')) :
    (∀ s, s ≠ shmZone.addr → mem' s = mem s)
      ∧ (rc = ngxOk → ctx = ⟨some shmZone.addr, some shmZone.addr⟩
          ∧ (mem' shmZone.addr).zone = banInitZone garbage) := by
  have hrefused : ngxError ≠ ngxOk := by decide
  simp only [banInitZoneCall, hfresh, Bool.false_eq_true, if_false] at hcall
  by_cases hzero : granted 0 = true
  · rw [if_neg (not_not.mpr hzero)] at hcall
    by_cases hone : granted 1 = true
    · rw [if_neg (not_not.mpr hone)] at hcall
      obtain ⟨rfl, rfl, rfl⟩ := by simpa only [Prod.mk.injEq] using hcall
      refine ⟨fun s hs => Function.update_of_ne hs _ _, fun _ => ⟨rfl, ?_⟩⟩
      rw [Function.update_self]
    · rw [if_pos hone] at hcall
      obtain ⟨rfl, rfl, rfl⟩ := by simpa only [Prod.mk.injEq] using hcall
      exact ⟨fun s hs => Function.update_of_ne hs _ _, fun hrc => absurd hrc hrefused⟩
  · rw [if_pos hzero] at hcall
    obtain ⟨rfl, rfl, rfl⟩ := by simpa only [Prod.mk.injEq] using hcall
    exact ⟨fun _ _ => rfl, fun hrc => absurd hrc hrefused⟩

/-! ## §4. What holds of a segment.

A segment outlives the configurations that use it, so what is known of it is said about
all that has happened on it, under whatever policy. -/

/-- The bans armed for `a` on a segment. -/
def armsOn (s : Seg) (a : Addr) (past : List Happened) : List (Int × Int) :=
  past.filterMap fun h =>
    match h with
    | .called s' op r => if s' = s then armOf a (op, r) else none
    | .counted _ _ _ => none

/-- The segment that an event happened on. -/
def Happened.seg : Happened → Seg
  | .called s _ _ => s
  | .counted s _ _ => s

/-- The event is a ban armed on the segment `s`. -/
def Happened.arms (s : Seg) : Happened → Bool
  | .called s' (.record _ _ _ _ _ _) (.recorded armed) => s' = s && armed
  | _ => false

/-- A hit of the category was counted on the segment. -/
def Happened.counts (s : Seg) (cat : Nat) : Happened → Bool
  | .counted s' cat' _ => s' = s && cat' = cat
  | _ => false

/-- The event is a denial counted on the segment `s`. -/
def Happened.denies (s : Seg) : Happened → Bool
  | .counted s' _ blocked => s' = s && blocked
  | _ => false

/-- **What holds of the zone of a segment** at clock `c`: its bans are those armed on
it last, and its counters count what was done on it. -/
structure ZoneKeeps (hash : Addr → Nat) (c : Int) (past : List Happened) (s : Seg) (z : Zone) :
    Prop where
  wf : ∃ ps, z.Wf hash ps
  bans : ∀ a, Governed c (armsOn s a past) (z.entryOf a)
  armed : z.sh.bans = UInt64.ofNat (past.countP (Happened.arms s))
  denied : z.sh.blocked = UInt64.ofNat (past.countP (Happened.denies s))
  hits : ∀ cat (h : cat < banNcounters),
    z.sh.catHits[cat] = UInt64.ofNat (past.countP (Happened.counts s cat))

/-! ## §5. Steps on a segment. -/

/-- The wrapped count of some events grows by one with one more event that is counted. -/
theorem ofNat_countP_snoc (p : Happened → Bool) (past : List Happened) (h : Happened) :
    UInt64.ofNat ((past ++ [h]).countP p)
      = UInt64.ofNat (past.countP p) + if p h then 1 else 0 := by
  rw [List.countP_append, List.countP_singleton, UInt64.ofNat_add]
  split <;> rfl

theorem armsOn_snoc (s : Seg) (a : Addr) (past : List Happened) (h : Happened) :
    armsOn s a (past ++ [h]) = armsOn s a past ++ armsOn s a [h] :=
  List.filterMap_append

variable {hash : Addr → Nat}

theorem ZoneKeeps.tick {c c' : Int} {past : List Happened} {s : Seg} {z : Zone}
    (h : ZoneKeeps hash c past s z) (hle : c ≤ c') : ZoneKeeps hash c' past s z :=
  { h with bans := fun a => (h.bans a).tick hle }

/-- An event on another segment keeps what the zone of this one is known to hold. -/
theorem ZoneKeeps.elsewhere {c : Int} {past : List Happened} {s : Seg} {z : Zone}
    (hkeeps : ZoneKeeps hash c past s z) {h : Happened} (hseg : h.seg ≠ s) :
    ZoneKeeps hash c (past ++ [h]) s z := by
  have harms : ∀ a, armsOn s a [h] = [] := by
    intro a
    cases h with
    | called s' op r =>
        have hne : s' ≠ s := hseg
        simp [armsOn, hne]
    | counted => rfl
  have hcount : h.arms s = false ∧ h.denies s = false ∧ ∀ cat, h.counts s cat = false := by
    cases h with
    | called s' op r =>
        have hne : s' ≠ s := hseg
        refine ⟨?_, rfl, fun _ => rfl⟩
        cases op <;> cases r <;> simp [Happened.arms, hne]
    | counted s' cat' blocked =>
        have hne : s' ≠ s := hseg
        simp [Happened.arms, Happened.denies, Happened.counts, hne]
  obtain ⟨hone, htwo, hthree⟩ := hcount
  refine ⟨hkeeps.wf, ?_, ?_, ?_, ?_⟩
  · intro a
    rw [armsOn_snoc, harms, List.append_nil]
    exact hkeeps.bans a
  · rw [ofNat_countP_snoc, hone, hkeeps.armed]
    simp
  · rw [ofNat_countP_snoc, htwo, hkeeps.denied]
    simp
  · intro cat hcat
    rw [ofNat_countP_snoc, hthree, hkeeps.hits cat hcat]
    simp

/-- The zone of a segment that no event happened on knows no ban and has counted nothing. -/
theorem zoneKeeps_fresh {c : Int} (hepoch : 0 ≤ c) {past : List Happened} {s : Seg}
    (hunused : ∀ h ∈ past, h.seg ≠ s) (garbage : Shctx) :
    ZoneKeeps hash c past s (banInitZone garbage) := by
  have hnone : ∀ past : List Happened, (∀ h ∈ past, h.seg ≠ s) →
      ZoneKeeps hash c past s (banInitZone garbage) := by
    intro past
    induction past using List.reverseRecOn with
    | nil =>
        intro _
        refine ⟨⟨[], banInitZone_wf garbage⟩, fun a => governed_none hepoch, rfl, rfl, ?_⟩
        intro cat hcat
        show (Vector.replicate banNcounters 0)[cat] = _
        rw [Vector.getElem_replicate]
        rfl
    | append_singleton past h ih =>
        intro hall
        refine (ih fun x hx => hall x (List.mem_append_left _ hx)).elsewhere ?_
        exact hall h (List.mem_append_right _ (List.mem_singleton_self h))
  exact hnone past hunused

/-- A call adds a ban to the counters if it arms one, and nothing else. -/
theorem Zone.Wf.step_counters {T : NgxRbtree} {z z' : Zone} {ps : List Ptr} (hwf : z.Wf hash ps)
    {op : Op} {r : Reply} (s : Seg) (hstep : z.step T hash op = .ok (z', r)) :
    z.SameHits z'
      ∧ z'.sh.bans = z.sh.bans + if (Happened.called s op r).arms s then 1 else 0 := by
  cases op with
  | lookup a =>
      obtain ⟨⟨z₁, p⟩, hlook, h⟩ := bind_eq_ok hstep
      obtain ⟨rfl, rfl⟩ : z₁ = z' ∧ Reply.found p.isSome = r := by simpa using h
      have htrims := banLookup_trims hlook
      exact ⟨htrims.toSameHits, by simp [Happened.arms, htrims.bans]⟩
  | isBanned a now =>
      obtain ⟨⟨z₁, b⟩, hban, h⟩ := bind_eq_ok hstep
      obtain ⟨rfl, rfl⟩ : z₁ = z' ∧ Reply.banned b = r := by simpa using h
      have htrims := banIsBannedLocked_trims hban
      exact ⟨htrims.toSameHits, by simp [Happened.arms, htrims.bans]⟩
  | expire now window =>
      obtain ⟨z₁, hexpire, h⟩ := bind_eq_ok hstep
      obtain ⟨rfl, rfl⟩ : z₁ = z' ∧ Reply.done = r := by simpa using h
      have htrims := banExpire_trims T hexpire
      exact ⟨htrims.toSameHits, by simp [Happened.arms, htrims.bans]⟩
  | record a now count window banTime alloc =>
      obtain ⟨⟨z₁, rc⟩, hrec, h⟩ := bind_eq_ok hstep
      obtain ⟨hsame, htotal⟩ := banRecordLocked_totals hrec
      obtain ⟨rfl, hr⟩ : z₁ = z'
          ∧ (if rc = ngxOk then Reply.recorded (z₁.sh.bans ≠ z.sh.bans) else .dropped) = r := by
        simpa using h
      obtain ⟨_, z₂, _, rc₂, hrec₂, -, -, -, hdropped⟩ :=
        banRecordLocked_refines T alloc hwf a now count window banTime
      obtain ⟨rfl, rfl⟩ : z₂ = z₁ ∧ rc₂ = rc := by simpa [hrec₂] using hrec
      refine ⟨hsame, ?_⟩
      by_cases hrc : rc₂ = ngxOk
      · rw [if_pos hrc] at hr
        rw [← hr]
        -- the reply says whether the total moved, and it moves by one at most
        rcases htotal with hsame | hmore
        · simp [Happened.arms, hsame]
        · have hmoved : z₂.sh.bans ≠ z.sh.bans := by
            rw [hmore]
            intro heq
            have hone : (1 : UInt64) = 0 := by
              have := UInt64.add_right_inj z.sh.bans |>.mp (heq.trans (UInt64.add_zero _).symm)
              exact this
            exact absurd hone (by decide)
          simp [Happened.arms, hmore]
      · rw [if_neg hrc] at hr
        rw [← hr, (hdropped hrc).2]
        simp [Happened.arms]

/-- **A call keeps it**, whatever policy it is made under. -/
theorem ZoneKeeps.call (T : NgxRbtree) {c : Int} {past : List Happened} {s : Seg} {z : Zone}
    (h : ZoneKeeps hash c past s z) (op : Op) (hclock : c ≤ op.clock.getD c) :
    ∃ z' r, z.step T hash op = .ok (z', r)
      ∧ ZoneKeeps hash (op.clock.getD c) (past ++ [.called s op r]) s z' := by
  obtain ⟨ps, hwf⟩ := h.wf
  obtain ⟨room, z', ps', r, hstep, hwf', habs⟩ := z.step_refines T hwf op
  obtain ⟨hsame, htotal⟩ := hwf.step_counters s hstep
  refine ⟨z', r, hstep, ⟨ps', hwf'⟩, ?_, ?_, ?_, ?_⟩
  · intro a
    obtain ⟨hchange, -⟩ := hwf.step_change hstep a
    have harms : armsOn s a [.called s op r] = (armOf a (op, r)).toList := by
      cases harm : armOf a (op, r) <;> simp [armsOn, harm]
    rw [armsOn_snoc, harms]
    exact (h.bans a).change hchange hclock
  · rw [htotal, h.armed, ofNat_countP_snoc]
  · rw [hsame.blocked, h.denied, ofNat_countP_snoc]
    simp [Happened.denies]
  · intro cat hcat
    rw [ofNat_countP_snoc]
    simp only [hsame.catHits, h.hits cat hcat, Happened.counts]
    simp

/-- Counting a hit keeps what the zone of the segment is known to hold. -/
theorem ZoneKeeps.count {c : Int} {past : List Happened} {s : Seg} {z : Zone}
    (h : ZoneKeeps hash c past s z) (cat : Nat) (blocked : Bool) :
    ZoneKeeps hash c (past ++ [.counted s cat blocked]) s (banCountHit z cat blocked) := by
  obtain ⟨ps, hwf⟩ := h.wf
  have hblocked : (banCountHit z cat blocked).sh.blocked
      = z.sh.blocked + if blocked then 1 else 0 := by
    unfold banCountHit
    cases blocked <;> split <;> simp
  refine ⟨⟨ps, hwf.countHit cat blocked⟩, ?_, ?_, ?_, ?_⟩
  · intro a
    rw [armsOn_snoc, hwf.countHit_entryOf]
    show Governed c (armsOn s a past ++ []) _
    rw [List.append_nil]
    exact h.bans a
  · rw [ofNat_countP_snoc, banCountHit_bans, h.armed]
    simp [Happened.arms]
  · rw [ofNat_countP_snoc, hblocked, h.denied]
    simp [Happened.denies]
  · intro cat' hcat'
    have hcell : (banCountHit z cat blocked).sh.catHits[cat']
        = z.sh.catHits[cat'] + if cat' = cat then 1 else 0 := by
      unfold banCountHit
      by_cases hcat : cat < banNcounters
      · rw [dif_pos hcat]
        by_cases heq : cat' = cat
        · subst heq
          cases blocked <;> simp
        · cases blocked <;> simp [heq, Ne.symm heq]
      · rw [dif_neg hcat]
        have hne : cat' ≠ cat := by
          intro heq
          exact hcat (heq ▸ hcat')
        cases blocked <;> simp [hne]
    rw [ofNat_countP_snoc, hcell, h.hits cat' hcat']
    have hflag : (Happened.counts s cat' (.counted s cat blocked) = true) ↔ cat' = cat := by
      simp [Happened.counts, eq_comm]
    simp only [hflag]

/-! ## §6. Runs. -/

/-- What holds of every reachable state: each configuration in use leads to a segment
that is laid out and keeps what was done on it. -/
structure Master.Sound (hash : Addr → Nat) (m : Master) (past : List Happened) : Prop where
  epoch : 0 ≤ m.clock
  attached : ∀ g ∈ m.gens, ∃ s, g.ctx = ⟨some s, some s⟩ ∧ s < m.mapped
    ∧ ZoneKeeps hash m.clock past s (m.mem s).zone
  mapped : ∀ h ∈ past, h.seg < m.mapped

theorem Master.start_sound (name : Bytes) (mem : Seg → ShmSegment) :
    (Master.start name mem).Sound hash [] where
  epoch := le_refl 0
  attached := by
    intro g hg
    cases hg
  mapped := by
    intro h hh
    cases hh

/-- The configuration at a place has a segment. -/
theorem Master.Sound.segment {m : Master} {past : List Happened} (h : m.Sound hash past) {i : Nat}
    (hi : i < m.gens.length) :
    ∃ s, m.segment i = .ok s ∧ m.gens[i].ctx = ⟨some s, some s⟩ ∧ s < m.mapped
      ∧ ZoneKeeps hash m.clock past s (m.mem s).zone := by
  obtain ⟨s, hctx, hlt, hkeeps⟩ := h.attached m.gens[i] (List.getElem_mem hi)
  refine ⟨s, ?_, hctx, hlt, hkeeps⟩
  unfold Master.segment
  rw [m.generation_eq hi]
  simp only [ok_bind, hctx, seeks]

/-- A change to the zone of one segment, with what happened on it. -/
theorem Master.Sound.setZone {m : Master} {past : List Happened} (h : m.Sound hash past) {s : Seg}
    (hs : s < m.mapped) {z : Zone} {ev : Happened} (hev : ev.seg = s) {c : Int} (hc : m.clock ≤ c)
    (hkeeps : ZoneKeeps hash c (past ++ [ev]) s z) :
    Master.Sound hash { m.setZone s z with clock := c } (past ++ [ev]) where
  epoch := le_trans h.epoch hc
  attached := by
    intro g hg
    obtain ⟨s', hctx, hlt, hold⟩ := h.attached g hg
    refine ⟨s', hctx, hlt, ?_⟩
    show ZoneKeeps hash c (past ++ [ev]) s'
      (Function.update m.mem s { m.mem s with zone := z } s').zone
    by_cases hsame : s' = s
    · subst hsame
      rw [Function.update_self]
      exact hkeeps
    · rw [Function.update_of_ne hsame]
      refine (hold.tick hc).elsewhere ?_
      rw [hev]
      exact Ne.symm hsame
  mapped := by
    intro h' hh'
    rcases List.mem_append.mp hh' with hold | hnew
    · exact h.mapped h' hold
    · obtain rfl := List.mem_singleton.mp hnew
      rw [hev]
      exact hs

/-- **A call of a worker** of any configuration in use. -/
theorem Master.Sound.call (T : NgxRbtree) {m : Master} {past : List Happened}
    (h : m.Sound hash past) {i : Nat} (hi : i < m.gens.length) (op : Op) {now : Int}
    (hnow : op.clock = some now) (hclock : m.clock ≤ now) :
    ∃ s z r, m.segment i = .ok s ∧ (m.mem s).zone.step T hash op = .ok (z, r)
      ∧ m.call T hash i op now = .ok ({ m.setZone s z with clock := now }, [.called s op r])
      ∧ Master.Sound hash { m.setZone s z with clock := now } (past ++ [.called s op r]) := by
  obtain ⟨s, hseg, -, hlt, hkeeps⟩ := h.segment hi
  have hto : op.clock.getD m.clock = now := by
    rw [hnow]
    rfl
  obtain ⟨z, r, hstep, hkeeps'⟩ := hkeeps.call T op (by rw [hto]; exact hclock)
  rw [hto] at hkeeps'
  refine ⟨s, z, r, hseg, hstep, ?_, h.setZone hlt rfl hclock hkeeps'⟩
  unfold Master.call
  rw [hseg, ok_bind, hstep]
  rfl

/-- **A load that hands the segment on** leads the new configuration to it and leaves the
memory alone. -/
theorem Master.load_keep (T : NgxRbtree) (m : Master) {g : Generation} {gens : List Generation}
    (hgens : m.gens = g :: gens) (pol : Policy) (granted : Nat → Bool) (garbage : Shctx) :
    m.step T hash (.load pol true granted garbage)
      = .ok ({ m with gens := ⟨g.ctx, pol⟩ :: m.gens }, []) := by
  show Except.ok _ = _
  simp only [hgens, List.head?_cons, Option.map_some, if_true, Option.isSome_some]
  simp only [banInitZoneCall, Master.take, if_true, hgens]

/-- **A load of a fresh segment**, laid out or refused. -/
theorem Master.Sound.load_fresh {m : Master} {past : List Happened} (h : m.Sound hash past)
    (pol : Policy) (granted : Nat → Bool) (garbage : Shctx) {shmZone : ShmZone}
    (haddr : shmZone.addr = m.mapped) (hfresh : shmZone.preexisting = false) {rc : Int}
    {ctx : BanCtx} {mem : Seg → ShmSegment}
    (hcall : banInitZoneCall granted garbage shmZone none m.mem = (rc, ctx, mem)) :
    (m.take pol (m.mapped + 1) (rc, ctx, mem)).Sound hash past := by
  obtain ⟨hother, hlaid⟩ := banInitZoneCall_fresh hfresh hcall
  have hold : ∀ g ∈ m.gens, ∃ s, g.ctx = ⟨some s, some s⟩ ∧ s < m.mapped + 1
      ∧ ZoneKeeps hash m.clock past s (mem s).zone := by
    intro g hg
    obtain ⟨s, hctx, hlt, hkeeps⟩ := h.attached g hg
    refine ⟨s, hctx, Nat.lt_succ_of_lt hlt, ?_⟩
    rw [hother s (by rw [haddr]; exact Nat.ne_of_lt hlt)]
    exact hkeeps
  refine ⟨h.epoch, ?_, fun ev hev => Nat.lt_succ_of_lt (h.mapped ev hev)⟩
  intro g hg
  by_cases hrc : rc = ngxOk
  · simp only [Master.take, hrc, if_true] at hg
    rcases List.mem_cons.mp hg with rfl | hg
    · -- nothing has happened yet on a segment that was never mapped
      obtain ⟨hctx, hzone⟩ := hlaid hrc
      rw [haddr] at hctx hzone
      refine ⟨m.mapped, hctx, Nat.lt_succ_self _, ?_⟩
      show ZoneKeeps hash m.clock past m.mapped (mem m.mapped).zone
      rw [hzone]
      exact zoneKeeps_fresh h.epoch (fun ev hev => Nat.ne_of_lt (h.mapped ev hev)) garbage
    · exact hold g hg
  · simp only [Master.take, hrc, if_false] at hg
    exact hold g hg

/-- **The step lemma**: every move that can be made returns, and leaves each
configuration in use with a segment that keeps what was done on it. -/
theorem Master.Sound.step (T : NgxRbtree) {m : Master} {past : List Happened}
    (h : m.Sound hash past) {move : MasterMove} (henabled : move.Enabled m) :
    ∃ m' more, m.step T hash move = .ok (m', more) ∧ m'.Sound hash (past ++ more) := by
  obtain ⟨hclock, hworker⟩ := henabled
  cases move with
  | load pol keep granted garbage =>
      -- The zone is handed on as it is, or a segment is mapped on which nothing has happened.
      by_cases hkeep : keep = true ∧ m.gens ≠ []
      · obtain ⟨rfl, hne⟩ := hkeep
        obtain ⟨g, gens, hgens⟩ := List.exists_cons_of_ne_nil hne
        refine ⟨_, _, m.load_keep T hgens pol granted garbage, ?_⟩
        rw [List.append_nil]
        refine ⟨h.epoch, ?_, h.mapped⟩
        intro g' hg'
        rcases List.mem_cons.mp hg' with rfl | hg'
        · exact h.attached g (by rw [hgens]; exact List.mem_cons_self)
        · exact h.attached g' hg'
      · have hnone : (if keep then m.gens.head?.map Generation.ctx else none) = none := by
          cases keep with
          | false => rfl
          | true =>
              have hnil : m.gens = [] := by
                by_contra hne
                exact hkeep ⟨rfl, hne⟩
              rw [hnil]
              rfl
        obtain ⟨rc, ctx, mem, hcall⟩ : ∃ rc ctx mem, banInitZoneCall granted garbage
            { name := m.name, addr := m.mapped, preexisting := false, data := ⟨none, none⟩ }
            none m.mem = (rc, ctx, mem) := ⟨_, _, _, rfl⟩
        refine ⟨m.take pol (m.mapped + 1) (rc, ctx, mem), [], ?_, ?_⟩
        · show Except.ok (m.take pol _ (banInitZoneCall granted garbage _ _ m.mem), _) = _
          rw [hnone, hcall]
          rfl
        · rw [List.append_nil]
          exact h.load_fresh pol granted garbage rfl rfl hcall
  | retire i =>
      refine ⟨_, [], rfl, ?_⟩
      rw [List.append_nil]
      refine ⟨h.epoch, ?_, h.mapped⟩
      intro g hg
      exact h.attached g (List.mem_of_mem_eraseIdx hg)
  | isBanned i a now =>
      obtain ⟨s, z, r, -, -, hcall, hsound⟩ := h.call T hworker (.isBanned a now) rfl hclock
      exact ⟨_, _, hcall, hsound⟩
  | record i a now alloc =>
      obtain ⟨s, z, r, -, -, hcall, hsound⟩ := h.call T hworker
        (.record a now m.gens[i].pol.count m.gens[i].pol.window m.gens[i].pol.banTime alloc) rfl
        hclock
      refine ⟨_, _, ?_, hsound⟩
      show (m.generation i >>= _) = _
      rw [m.generation_eq hworker]
      exact hcall
  | count i cat blocked =>
      obtain ⟨s, hseg, -, hlt, hkeeps⟩ := h.segment hworker
      refine ⟨_, _, ?_, h.setZone hlt rfl (le_refl _) (hkeeps.count cat blocked)⟩
      show (m.segment i >>= _) = _
      rw [hseg]
      rfl

/-- **Every run keeps the master sound**, by induction over its moves. -/
theorem Master.Run.sound {T : NgxRbtree} {m₀ m : Master} {past : List Happened}
    (hrun : Master.Run T hash m₀ m past) (h₀ : m₀.Sound hash []) : m.Sound hash past := by
  induction hrun with
  | init => exact h₀
  | step run move henabled hstep ih =>
      obtain ⟨m', more, hstep', hsound⟩ := ih.step T henabled
      obtain ⟨rfl, rfl⟩ : m' = _ ∧ more = _ := by simpa [hstep'] using hstep
      exact hsound

/-- **Bans and counters outlast reloads.**  Whatever is loaded, handed on, refused and
retired, and whichever worker makes which call, in every reachable state every move
that can be made returns; each configuration in use has a segment on which `is_banned`
is true exactly if the last ban that any of them armed there has not run out, by its
own length; the counters of the segment count what was done on it; and a load that hands
the segment on changes nothing in memory. -/
theorem reload_enforces (T : NgxRbtree) (hash : Addr → Nat) (name : Bytes) (mem : Seg → ShmSegment)
    (m : Master) (past : List Happened) (hrun : Master.Run T hash (.start name mem) m past) :
    (∀ move : MasterMove, move.Enabled m → ∃ out, m.step T hash move = .ok out)
      ∧ ∀ i, i < m.gens.length → ∃ s, m.segment i = .ok s
        ∧ (∀ a now, m.clock ≤ now → ∃ m' b, m.step T hash (.isBanned i a now)
              = .ok (m', [.called s (.isBanned a now) (.banned b)])
            ∧ (b = true ↔ LastRuns (armsOn s a past) now))
        ∧ (m.mem s).zone.sh.bans = UInt64.ofNat (past.countP (Happened.arms s))
        ∧ (m.mem s).zone.sh.blocked = UInt64.ofNat (past.countP (Happened.denies s))
        ∧ (∀ cat (hcat : cat < banNcounters), (m.mem s).zone.sh.catHits[cat]
            = UInt64.ofNat (past.countP (Happened.counts s cat)))
        ∧ (i = 0 → ∀ pol granted garbage, ∃ m',
            m.step T hash (.load pol true granted garbage) = .ok (m', []) ∧ m'.mem = m.mem
              ∧ m'.segment 0 = .ok s) := by
  have hsound := hrun.sound (Master.start_sound name mem)
  constructor
  · intro move henabled
    obtain ⟨m', more, hstep, -⟩ := hsound.step T henabled
    exact ⟨(m', more), hstep⟩
  · intro i hi
    obtain ⟨s, hseg, hctx, hlt, hkeeps⟩ := hsound.segment hi
    refine ⟨s, hseg, ?_, hkeeps.armed, hkeeps.denied, hkeeps.hits, ?_⟩
    · intro a now hnow
      obtain ⟨s', z, r, hseg', hstep, hcall, -⟩ := hsound.call T hi (.isBanned a now) rfl hnow
      obtain rfl : s' = s := by
        rw [hseg] at hseg'
        exact (Except.ok.inj hseg').symm
      obtain ⟨ps, hwf⟩ := hkeeps.wf
      -- A check answers what the entry says, and the entry follows the
      -- last ban of the segment.
      obtain ⟨z', hban, -⟩ := (hwf.refinesMap T).is_banned a now
      obtain ⟨rfl, rfl⟩ : z' = z
          ∧ Reply.banned (((m.mem s').zone.entryOf a).any (fun e => e.bannedUntil > now)) = r := by
        have hstep' := hstep
        simp only [Zone.step, hban, ok_bind, pure_eq_ok, Except.ok.injEq, Prod.mk.injEq] at hstep'
        exact hstep'
      refine ⟨_, _, hcall, ?_⟩
      rw [← (hkeeps.bans a).exact now hnow]
      cases (m.mem s').zone.entryOf a <;> simp
    · intro hzero pol granted garbage
      subst hzero
      obtain ⟨g, gens, hgens⟩ := List.exists_cons_of_ne_nil (List.ne_nil_of_length_pos hi)
      refine ⟨_, m.load_keep T hgens pol granted garbage, rfl, ?_⟩
      have hhead : m.gens[0].ctx = g.ctx := by simp [hgens]
      rw [hhead] at hctx
      show (seeks g.ctx.shpool >>= fun _ => seeks g.ctx.sh) = _
      rw [hctx]
      rfl

/-! ## §7. A reload in the middle of a ban. -/

/-- Memory that was never mapped. -/
def unmapped : Seg → ShmSegment := fun _ => ⟨none, none, banInitZone staleShctx⟩

/-- Two hits arm a ban of five seconds; a reload brings bans of a hundred, and a third hit
of a worker that is still on the old policy arms nothing. -/
theorem reload_midBan :
    ∃ m past, Master.Run .plain oneBucket (.start (bytesOf "shield") unmapped) m past
      ∧ m.gens.length = 2 ∧ m.clock = 3 ∧ m.segment 0 = .ok 0
      ∧ armsOn 0 (client 1) past = [(2, 5)] :=
  ⟨_, _, .step (.step (.step (.step (.step .init
      (.load twoHits false (fun _ => true) staleShctx) (by decide) rfl)
      (.record 0 (client 1) 0 (.block 0 staleNode)) (by decide) rfl)
      (.record 0 (client 1) 2 (.block 0 staleNode)) (by decide) rfl)
      (.load longBan true (fun _ => true) staleShctx) (by decide) rfl)
      (.record 1 (client 1) 3 (.block 0 staleNode)) (by decide) rfl,
    rfl, rfl, rfl, rfl⟩

/-- A worker of the new configuration finds the client banned. -/
theorem reload_enforces_midBan :
    ∃ m past, Master.Run .plain oneBucket (.start (bytesOf "shield") unmapped) m past
      ∧ m.gens.length = 2
      ∧ ∃ m', m.step .plain oneBucket (.isBanned 0 (client 1) 4)
        = .ok (m', [.called 0 (.isBanned (client 1) 4) (.banned true)]) := by
  obtain ⟨m, past, hrun, hlen, hclock, hzero, harms⟩ := reload_midBan
  obtain ⟨-, hall⟩ :=
    reload_enforces .plain oneBucket (bytesOf "shield") unmapped m past hrun
  obtain ⟨s, hseg, hban, -⟩ := hall 0 (by omega)
  obtain rfl : 0 = s := Except.ok.inj (hzero.symm.trans hseg)
  obtain ⟨m', b, hstep, hiff⟩ := hban (client 1) 4 (by omega)
  obtain rfl : b = true := by
    rw [hiff, harms]
    exact ⟨(2, 5), rfl, by decide⟩
  exact ⟨m, past, hrun, hlen, m', hstep⟩

end HttpShield
