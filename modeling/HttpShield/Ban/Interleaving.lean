/-
  HttpShield.Ban.Interleaving
  ───────────────────────────
  Requests against one ban zone.

  A request takes the zone lock twice: once for `is_banned`, when its headers
  are in, and once more — after its body was read, which the client can drag out
  — to record the hit, if it turned out to be one and the client was not banned
  at the check.  Between the two anything may happen, so a hit can be recorded
  while a ban armed by another request of the same client is running.

    • `banExpire_keepsLive`  — no live entry is evicted in any run whose records
      that land on a running ban leave no window open past its end;
    • `banExpire_freesLive`  — a run in which one does, and a live counting
      window is evicted.
-/
import HttpShield.Ban.Enforcement

namespace HttpShield

/-! ## §1. Requests. -/

/-- The zone, the clock, and the requests in flight: those that were checked, were
not banned, and have not recorded a hit — each with its client. -/
structure System where
  zone : Zone
  clock : Int
  pending : Nat → Option Addr

/-- One critical section, or the end, of request `r`. -/
inductive Act where
  /-- `is_banned` for the client `a` of a new request. -/
  | check (r : Nat) (a : Addr) (now : Int)
  /-- The one hit the request may record. -/
  | record (r : Nat) (now : Int) (alloc : SlabAlloc)
  /-- The request ends without a hit. -/
  | finish (r : Nat)

/-- The clock of the action. -/
def Act.clock (act : Act) (s : System) : Int :=
  match act with
  | .check _ _ now | .record _ now _ => now
  | .finish _ => s.clock

/-- The action is one the requests can take: the clock does not run backwards,
and only a request that was checked and not banned records. -/
def Act.Enabled (s : System) (act : Act) : Prop :=
  s.clock ≤ act.clock s ∧
    match act with
    | .check r _ _ => s.pending r = none
    | .record r _ _ => s.pending r ≠ none
    | .finish r => s.pending r ≠ none

instance (s : System) : (act : Act) → Decidable (act.Enabled s)
  | .check r _ now => inferInstanceAs (Decidable (s.clock ≤ now ∧ s.pending r = none))
  | .record r now _ => inferInstanceAs (Decidable (s.clock ≤ now ∧ s.pending r ≠ none))
  | .finish r => inferInstanceAs (Decidable (s.clock ≤ s.clock ∧ s.pending r ≠ none))

/-- Take one action, under the policy. -/
def System.step (T : NgxRbtree) (hash : Addr → Nat) (pol : Policy) (s : System) :
    Act → Except Fault System
  | .check r a now => do
      let (z, banned) ← banIsBannedLocked s.zone (hash a) a.bytes now
      -- a banned client is denied here and never gets to record
      let p := if banned then none else some a
      return { zone := z, clock := now, pending := Function.update s.pending r p }
  | .record r now alloc =>
      match s.pending r with
      | none => return s
      | some a => do
          let (z, _) ← banRecordLocked T alloc s.zone (hash a) a.bytes now pol.count pol.window
            pol.banTime
          return { zone := z, clock := now, pending := Function.update s.pending r none }
  | .finish r =>
      return { zone := s.zone, clock := s.clock, pending := Function.update s.pending r none }

/-- A fresh zone and no request. -/
def System.start (garbage : Shctx) (clock : Int) : System where
  zone := banInitZone garbage
  clock := clock
  pending := fun _ => none

/-- Runs of the system, each action allowed in the state it is taken in. -/
inductive System.Run (T : NgxRbtree) (hash : Addr → Nat) (pol : Policy)
    (allowed : System → Act → Prop) : System → List Act → System → Prop where
  | nil (s : System) : System.Run T hash pol allowed s [] s
  | cons {s s' s'' : System} {act : Act} {acts : List Act} (henabled : act.Enabled s)
      (hallowed : allowed s act) (hstep : s.step T hash pol act = .ok s')
      (hrest : System.Run T hash pol allowed s' acts s'') :
      System.Run T hash pol allowed s (act :: acts) s''

/-! ## §2. What stays live. -/

/-- The entry is in use at `now`: its ban is running, or it has hits in a window
that is not over. -/
def Entry.InUse (pol : Policy) (now : Int) (e : Entry) : Prop :=
  now < e.bannedUntil ∨ 1 ≤ e.hits ∧ now < e.windowStart + pol.window

/-- **No entry in use is freed** from one zone to the next. -/
def KeepsLive (pol : Policy) (now : Int) (z z' : Zone) : Prop :=
  ∀ a e, z.entryOf a = some e → e.InUse pol now → z'.entryOf a ≠ none

/-- A hit at `now` on the entry is covered by its ban, if one is running: it arms it
again, or counts in a window that is over when the ban is. -/
def Entry.Covers (pol : Policy) (now : Int) (e : Entry) : Prop :=
  now < e.bannedUntil → e.nextHits now pol.window = pol.count
    ∨ (e.counting now pol.window).windowStart + pol.window ≤ e.bannedUntil

instance (pol : Policy) (now : Int) (e : Entry) : Decidable (e.Covers pol now) :=
  inferInstanceAs (Decidable (_ → _))

/-- **The condition on a record**: a running ban of the address covers the hit, and
a record of a new address, which sweeps, is made below the largest clock value. -/
def Act.Careful (pol : Policy) (s : System) : Act → Prop
  | .check _ _ _ | .finish _ => True
  | .record r now _ =>
      match (s.pending r).bind s.zone.entryOf with
      | none => now < timeMax
      | some e => e.Covers pol now

instance (pol : Policy) (s : System) : (act : Act) → Decidable (act.Careful pol s)
  | .check _ _ _ | .finish _ => instDecidableTrue
  | .record r now _ =>
      match h : (s.pending r).bind s.zone.entryOf with
      | none => decidable_of_iff (now < timeMax) (by simp [Act.Careful, h])
      | some e => decidable_of_iff (e.Covers pol now) (by simp [Act.Careful, h])

/-- What holds of each entry at clock `c` in a careful run: the window of an
armed entry with hits is over when its ban is. -/
structure Entry.Settled (pol : Policy) (c : Int) (e : Entry) : Prop where
  below : e.hits < pol.count
  started : e.windowStart ≤ c
  covered : e.bannedUntil ≠ 0 → 1 ≤ e.hits → e.windowStart + pol.window ≤ e.bannedUntil

theorem Entry.Settled.tick {pol : Policy} {c c' : Int} {e : Entry} (h : e.Settled pol c)
    (hle : c ≤ c') : e.Settled pol c' where
  below := h.below
  started := le_trans h.started hle
  covered := h.covered

theorem Entry.settled_fresh (pol : Policy) (now : Int) : (Entry.fresh now).Settled pol now where
  below := Entry.fresh_hits_lt pol now
  started := le_refl now
  covered := by simp [Entry.fresh]

/-- The eviction test spares a settled entry in use. -/
theorem Entry.Settled.isLive {pol : Policy} {c : Int} {e : Entry} (h : e.Settled pol c)
    (hmax : c < timeMax) (huse : e.InUse pol c) : e.isLive c pol.window = true := by
  have hstarted := h.started
  simp only [Entry.isLive, timeAddClamp_eq_min, Bool.or_eq_true, Bool.and_eq_true,
    decide_eq_true_eq, beq_iff_eq]
  rcases huse with hban | ⟨hhits, hwindow⟩
  · exact .inl hban
  · by_cases harmed : e.bannedUntil = 0
    · exact .inr ⟨⟨harmed, hstarted⟩, by omega⟩
    · have := h.covered harmed hhits
      exact .inl (by omega)

/-- A careful hit leaves the entry settled. -/
theorem Entry.Settled.hit {pol : Policy} {now : Int} {e : Entry} (h : e.Settled pol now)
    (hcovers : e.bannedUntil ≠ 0 → e.Covers pol now) :
    (e.hit now pol.count pol.window pol.banTime).1.Settled pol now := by
  refine ⟨Entry.hit_hits_lt pol h.below now, ?_, ?_⟩ <;> rw [Entry.hit_eq pol h.below]
  · have hstarted := h.started
    split
    · exact le_refl now
    · simp only [Entry.counting]
      split <;> omega
  · split
    · -- armed: no hit is counted yet
      intro _ hhits
      exact absurd hhits (by simp [Entry.armed])
    · rename_i harm
      intro hban _
      -- the ban was not retired, so it is running
      have hrunning : e.bannedUntil ≠ 0 ∧ now < e.bannedUntil
          ∧ (e.counting now pol.window).bannedUntil = e.bannedUntil := by
        simp only [Entry.counting] at hban ⊢
        split at hban
        · exact absurd rfl hban
        · rename_i hretire
          exact ⟨hban, by omega, if_neg hretire⟩
      obtain ⟨hne, hlt, heq⟩ := hrunning
      rw [heq]
      exact (hcovers hne hlt).resolve_left harm

/-- A hit that the running ban does not cover leaves an entry that is in use, but
not live, when the ban runs out. -/
theorem Entry.hit_uncovered (pol : Policy) {now : Int} {e : Entry} (h : e.hits < pol.count)
    (hban : e.bannedUntil ≠ 0) (hcovers : ¬ e.Covers pol now) :
    (e.hit now pol.count pol.window pol.banTime).1.InUse pol e.bannedUntil
      ∧ (e.hit now pol.count pol.window pol.banTime).1.isLive e.bannedUntil pol.window = false := by
  simp only [Entry.Covers, Classical.not_imp, not_or, not_le] at hcovers
  obtain ⟨hrunning, harm, hopen⟩ := hcovers
  rw [Entry.hit_eq pol h, if_neg harm]
  have hkept : (e.counting now pol.window).bannedUntil = e.bannedUntil :=
    if_neg (by omega)
  have hhits : 1 ≤ (e.counting now pol.window).hits := Nat.le_add_left 1 _
  refine ⟨.inr ⟨hhits, hopen⟩, ?_⟩
  simp [Entry.isLive, hkept, hban]

/-! ## §3. Careful runs.

Requests interleave between their checks and their records, so records land on running
bans.  In a careful run such a record never leaves a window that outlasts the ban. -/

variable {hash : Addr → Nat}

/-- What holds of every state of a careful run. -/
structure System.Settled (hash : Addr → Nat) (pol : Policy) (s : System) : Prop where
  wf : ∃ ps, s.zone.Wf hash ps
  entries : ∀ a e, s.zone.entryOf a = some e → e.Settled pol s.clock

theorem System.start_settled (pol : Policy) (garbage : Shctx) (clock : Int) :
    (System.start garbage clock).Settled hash pol where
  wf := ⟨[], banInitZone_wf garbage⟩
  entries := by
    intro a e he
    simp [System.start, Zone.entryOf, banInitZone, banShctxInit] at he

/-- `is_banned` on a well-formed zone returns and leaves the map unchanged. -/
theorem Zone.Wf.isBanned {z : Zone} {ps : List Ptr} (h : z.Wf hash ps) (a : Addr) (now : Int) :
    ∃ z' ps' b, banIsBannedLocked z (hash a) a.bytes now = .ok (z', b) ∧ z'.Wf hash ps'
      ∧ z'.entryOf = z.entryOf := by
  obtain ⟨room, z', ps', r, hstep, hwf', -⟩ := z.step_refines .plain h (.isBanned a now)
  obtain ⟨z'', hban, hmap⟩ := (h.refinesMap .plain).is_banned a now
  obtain ⟨⟨z₁, b⟩, hban', hret⟩ := bind_eq_ok hstep
  obtain ⟨rfl, -⟩ : z₁ = z' ∧ Reply.banned b = r := by simpa using hret
  rw [hban'] at hban
  obtain ⟨rfl, -⟩ := Prod.ext_iff.mp (Except.ok.inj hban)
  exact ⟨z₁, ps', b, hban', hwf', hmap⟩

/-- Recording a hit of a tracked address leaves the other entries alone. -/
theorem Lru.get_record_other {s : Lru} (h : s.Distinct) {a b : Addr} {e : Entry}
    (ha : s.get a = some e) (hab : b ≠ a) (now : Int) (count : Nat) (window banTime : Int)
    (room : Bool) : (s.record a now count window banTime room).1.get b = s.get b := by
  rw [Lru.record_of_get_some ha, Lru.get_cons_other hab _ _ _ s.cursor, Lru.get_filter_other h hab]

/-! ## §4. What a record does to the entries. -/

/-- **What a record does**, entry by entry: the others stay or go stale, and stay if its
own is there; its own gets the hit, with a ban in the total if that arms one, or there is
no room for it. -/
structure Zone.Records (pol : Policy) (a : Addr) (now : Int) (z z' : Zone) : Prop where
  others : ∀ b, b ≠ a → KeptOrStale now pol.window (z.entryOf b) (z'.entryOf b)
  unswept : z.entryOf a ≠ none → ∀ b, b ≠ a → z'.entryOf b = z.entryOf b
  own : (z.entryOf a = none ∧ z'.entryOf a = none ∧ z'.sh.bans = z.sh.bans)
    ∨ z'.entryOf a = some (((z.entryOf a).getD (Entry.fresh now)).hit now pol.count pol.window
          pol.banTime).1
      ∧ decide (z'.sh.bans ≠ z.sh.bans) = (((z.entryOf a).getD (Entry.fresh now)).hit now pol.count
          pol.window pol.banTime).2

/-- A record on a well-formed zone returns, and does that. -/
theorem Zone.Wf.records (T : NgxRbtree) (alloc : SlabAlloc) {z : Zone} {ps : List Ptr}
    (h : z.Wf hash ps) (pol : Policy) (a : Addr) (now : Int) :
    ∃ z' ps' rc, banRecordLocked T alloc z (hash a) a.bytes now pol.count pol.window pol.banTime
        = .ok (z', rc)
      ∧ z'.Wf hash ps' ∧ z.Records pol a now z' := by
  obtain ⟨room, z', ps', rc, hrec, hwf', hlru, hout, -⟩ :=
    banRecordLocked_refines T alloc h a now pol.count pol.window pol.banTime
  obtain ⟨z'', rc', hrec', hothers, hok, hfail⟩ :=
    (h.refinesMap T).record alloc a now pol.count pol.window pol.banTime
  rw [hrec] at hrec'
  obtain ⟨rfl, rfl⟩ := Prod.ext_iff.mp (Except.ok.inj hrec')
  refine ⟨z', ps', rc, hrec, hwf', hothers, ?_, ?_⟩
  · intro hthere b hba
    obtain ⟨e, he⟩ := Option.ne_none_iff_exists'.mp hthere
    rw [h.toShape.entryOf_eq] at he ⊢
    rw [hwf'.toShape.entryOf_eq, hlru]
    exact Lru.get_record_other h.toShape.distinct he hba now _ _ _ _
  · by_cases hrc : rc = ngxOk
    · right
      refine ⟨hok hrc, ?_⟩
      rw [if_pos hrc] at hout
      rw [h.toShape.entryOf_eq]
      cases hget : (z.lru ps).get a with
      | some e =>
          rw [Lru.record_of_get_some hget] at hout
          exact (Option.some.inj hout).symm
      | none =>
          rw [Lru.record_of_get_none hget] at hout
          cases room with
          | true => exact (Option.some.inj hout).symm
          | false => cases hout
    · obtain ⟨-, hold, hnew, hbans⟩ := hfail hrc
      exact .inl ⟨hold, hnew, hbans⟩

/-- An entry that went with a careful record was swept while stale. -/
theorem Zone.Records.keepsLive {pol : Policy} {a : Addr} {now : Int} {z z' : Zone}
    (h : z.Records pol a now z') (hsettled : ∀ b e, z.entryOf b = some e → e.Settled pol now)
    (hcareful : z.entryOf a = none → now < timeMax) : KeepsLive pol now z z' := by
  intro b e he huse hgone
  by_cases hba : b = a
  · subst hba
    rcases h.own with ⟨hnone, -⟩ | ⟨hsome, -⟩
    · rw [hnone] at he
      cases he
    · rw [hsome] at hgone
      cases hgone
  · rcases h.others b hba with heq | ⟨-, x, hx, hstale⟩
    · rw [heq, he] at hgone
      cases hgone
    · obtain rfl : e = x := Option.some.inj (he.symm.trans hx)
      -- a sweep means that the recorded address is new
      have hnew : z.entryOf a = none := by
        by_contra hthere
        rw [h.unswept hthere b hba, he] at hgone
        cases hgone
      rw [(hsettled b e he).isLive (hcareful hnew) huse] at hstale
      cases hstale

/-- A property of all entries holds behind a record when the hit of its own entry has it. -/
theorem Zone.Records.entries {pol : Policy} {a : Addr} {now : Int} {z z' : Zone} {P : Entry → Prop}
    (h : z.Records pol a now z') (hold : ∀ b e, z.entryOf b = some e → P e)
    (hown : P (((z.entryOf a).getD (Entry.fresh now)).hit now pol.count pol.window pol.banTime).1) :
    ∀ b e, z'.entryOf b = some e → P e := by
  intro b e he
  by_cases hba : b = a
  · subst hba
    rcases h.own with ⟨-, hnone, -⟩ | ⟨hsome, -⟩
    · rw [hnone] at he
      cases he
    · rw [hsome] at he
      rw [← Option.some.inj he]
      exact hown
  · rcases h.others b hba with heq | ⟨hnone, -⟩
    · exact hold b e (by rw [← heq]; exact he)
    · rw [hnone] at he
      cases he

/-- What a careful record leaves is settled. -/
theorem Zone.Records.settled {pol : Policy} {a : Addr} {now : Int} {z z' : Zone}
    (h : z.Records pol a now z') (hsettled : ∀ b e, z.entryOf b = some e → e.Settled pol now)
    (hcareful : ∀ e, z.entryOf a = some e → e.Covers pol now) :
    ∀ b e, z'.entryOf b = some e → e.Settled pol now := by
  apply h.entries hsettled
  cases hentry : z.entryOf a with
  | none => exact (Entry.settled_fresh pol now).hit fun hban => absurd rfl hban
  | some x => exact (hsettled a x hentry).hit fun _ => hcareful x hentry

/-- **The step lemma**: an enabled, careful action returns, frees no entry in use,
and leaves the system settled. -/
theorem System.Settled.step (T : NgxRbtree) {pol : Policy} {s : System} (h : s.Settled hash pol)
    {act : Act} (henabled : act.Enabled s) (hcareful : act.Careful pol s) :
    ∃ s', s.step T hash pol act = .ok s' ∧ KeepsLive pol (act.clock s) s.zone s'.zone
      ∧ s'.Settled hash pol := by
  obtain ⟨ps, hwf⟩ := h.wf
  obtain ⟨hclock, henabled⟩ := henabled
  have hticked : ∀ a e, s.zone.entryOf a = some e → e.Settled pol (act.clock s) :=
    fun a e he => (h.entries a e he).tick hclock
  cases act with
  | check r a now =>
      obtain ⟨z', ps', b, hban, hwf', hmap⟩ := hwf.isBanned a now
      refine ⟨_, by simp only [System.step, hban, ok_bind, pure_eq_ok]; rfl, ?_, ⟨ps', hwf'⟩, ?_⟩
      · intro b e he _
        show z'.entryOf b ≠ none
        simp [hmap, he]
      · intro b e he
        exact hticked b e (by rw [← hmap]; exact he)
  | record r now alloc =>
      obtain ⟨a, ha⟩ := Option.ne_none_iff_exists'.mp henabled
      simp only [Act.Careful, ha, Option.bind_some] at hcareful
      obtain ⟨z', ps', rc, hrec, hwf', hrecords⟩ := hwf.records T alloc pol a now
      refine ⟨_, by simp only [System.step, ha, hrec, ok_bind, pure_eq_ok]; rfl, ?_, ⟨ps', hwf'⟩, ?_⟩
      · apply hrecords.keepsLive hticked
        intro hnew
        rw [hnew] at hcareful
        exact hcareful
      · apply hrecords.settled hticked
        intro e he
        rw [he] at hcareful
        exact hcareful
  | finish r =>
      refine ⟨_, rfl, ?_, ⟨ps, hwf⟩, h.entries⟩
      intro b e he _
      show s.zone.entryOf b ≠ none
      simp [he]

/-- **Every run of careful steps keeps the system settled**, by induction over its steps. -/
theorem System.Run.settled {T : NgxRbtree} {pol : Policy} {s s' : System} {acts : List Act}
    (h : System.Run T hash pol (fun s act => act.Careful pol s) s acts s')
    (hs : s.Settled hash pol) : s'.Settled hash pol := by
  induction h with
  | nil s => exact hs
  | cons henabled hallowed hstep hrest ih =>
      obtain ⟨s₁, hstep₁, -, hs₁⟩ := hs.step T henabled hallowed
      rw [hstep] at hstep₁
      obtain rfl := Except.ok.inj hstep₁
      exact ih hs₁

/-- **No live entry is evicted** by any action of a run of requests all of whose
records are careful; and no such action gets stuck. -/
theorem banExpire_keepsLive (pol : Policy) (T : NgxRbtree) (hash : Addr → Nat) (garbage : Shctx)
    (clock : Int) (acts : List Act) (s : System) (act : Act)
    (hrun : System.Run T hash pol (fun s act => act.Careful pol s) (System.start garbage clock)
      acts s)
    (henabled : act.Enabled s) (hcareful : act.Careful pol s) :
    ∃ s', s.step T hash pol act = .ok s' ∧ KeepsLive pol (act.clock s) s.zone s'.zone := by
  obtain ⟨s', hstep, hkeeps, -⟩ :=
    (hrun.settled (System.start_settled pol garbage clock)).step T henabled hcareful
  exact ⟨s', hstep, hkeeps⟩

/-! ## §5. Siblings, and a window that outlasts the ban. -/

/-- Two hits within ten seconds, and bans that outlast the window. -/
def longBan : Policy :=
  { twoHits with banTime := 100, banTime_pos := hundred_pos }

/-- Three requests of the first client pass the check together; the hits of two of
them arm a ban, that of the third lands on it.  A request of another client follows. -/
def siblings : List Act :=
  [.check 0 (client 1) 0, .check 1 (client 1) 0, .check 2 (client 1) 0,
    .record 0 0 (.block 0 staleNode), .record 1 0 (.block 0 staleNode),
    .record 2 1 (.block 0 staleNode), .check 3 (client 2) 20]

theorem siblings_longBan : ∃ s, System.Run .plain oneBucket longBan
    (fun s act => act.Careful longBan s) (System.start staleShctx 0) siblings s
    ∧ (Act.record 3 20 (.block 1 staleNode)).Enabled s
    ∧ (Act.record 3 20 (.block 1 staleNode)).Careful longBan s :=
  ⟨_, .cons (by decide) (by decide) rfl (.cons (by decide) (by decide) rfl
    (.cons (by decide) (by decide) rfl (.cons (by decide) (by decide) rfl
    (.cons (by decide) (by decide) rfl (.cons (by decide) (by decide) rfl
    (.cons (by decide) (by decide) rfl (.nil _))))))), by decide, by decide⟩

/-- The hit of the other client evicts no live entry. -/
theorem banExpire_keepsLive_siblings :
    ∃ s s', System.Run .plain oneBucket longBan (fun s act => act.Careful longBan s)
        (System.start staleShctx 0) siblings s
      ∧ s.step .plain oneBucket longBan (.record 3 20 (.block 1 staleNode)) = .ok s'
      ∧ KeepsLive longBan 20 s.zone s'.zone := by
  obtain ⟨s, hrun, henabled, hcareful⟩ := siblings_longBan
  obtain ⟨s', hstep, hkeeps⟩ :=
    banExpire_keepsLive longBan .plain oneBucket staleShctx 0 siblings s _ hrun henabled hcareful
  exact ⟨s, s', hrun, hstep, hkeeps⟩

/-- **A live counting window can be evicted**: the third hit counts in the window
of the arm, which runs until 100, but at 20 the lapsed ban alone decides. -/
theorem banExpire_freesLive :
    ∃ s s', System.Run .plain oneBucket longWindow (fun _ _ => True) (System.start staleShctx 0)
        siblings s
      ∧ (Act.record 3 20 (.block 1 staleNode)).Enabled s
      ∧ s.step .plain oneBucket longWindow (.record 3 20 (.block 1 staleNode)) = .ok s'
      ∧ ¬ KeepsLive longWindow 20 s.zone s'.zone := by
  refine ⟨_, _, .cons (by decide) trivial rfl (.cons (by decide) trivial rfl
    (.cons (by decide) trivial rfl (.cons (by decide) trivial rfl
    (.cons (by decide) trivial rfl (.cons (by decide) trivial rfl
    (.cons (by decide) trivial rfl (.nil _))))))), by decide, rfl, ?_⟩
  intro hkeeps
  exact hkeeps (client 1) { windowStart := 0, bannedUntil := 5, hits := 1 } rfl
    (.inr (by decide)) rfl

end HttpShield
