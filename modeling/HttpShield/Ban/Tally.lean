/-
  HttpShield.Ban.Tally
  ────────────────────
  Does the bans total count bans?

  A ban of an address begins with a record call before which the address is not
  banned, at the time of the call, and after which it is.  The total goes up when
  a hit completes the count, banned or not — the record takes it for granted that
  a banned client is turned away before.  But requests of one client can pass
  their checks together, and then one of them arms the ban and another arms it
  again:

    • `System.Sound.step_counts` — one action adds to the total what begins with
      it, exactly when it does not rearm a running ban,
    • `bans_counts_begun`        — the same of whole runs,
    • `bans_counts_rearmed`      — two bans counted where one began.
-/
import HttpShield.Ban.Interleaving
import HttpShield.Ban.Frame

namespace HttpShield

/-! ## §1. Bans that begin, and bans armed again. -/

/-- The address is banned at `now`. -/
def Zone.bannedAt (z : Zone) (a : Addr) (now : Int) : Bool :=
  (z.entryOf a).any (fun e => e.bannedUntil > now)

/-- One action of a run, with the states around it. -/
structure Taken where
  before : System
  act : Act
  after : System

/-- The actions of a run, in order. -/
def System.trace (T : NgxRbtree) (hash : Addr → Nat) (pol : Policy) :
    System → List Act → Except Fault (List Taken)
  | _, [] => .ok []
  | s, act :: acts => do
      let s' ← s.step T hash pol act
      let steps ← s'.trace T hash pol acts
      return { before := s, act := act, after := s' } :: steps

/-- **A ban begins**: a record call for an address that is not banned at the time of
the call before it, and is banned after it. -/
def Taken.begins (t : Taken) : Bool :=
  match t.act with
  | .record r now _ =>
      match t.before.pending r with
      | some a => !t.before.zone.bannedAt a now && t.after.zone.bannedAt a now
      | none => false
  | _ => false

/-- The bans total goes up by one when a ban begins, and otherwise not at all. -/
def Taken.Counts (t : Taken) : Prop :=
  t.after.zone.sh.bans = t.before.zone.sh.bans + if t.begins then 1 else 0

instance (t : Taken) : Decidable t.Counts := inferInstanceAs (Decidable (_ = _))

/-- **A running ban is armed again**: a hit of a banned address completes the count. -/
def Act.Rearms (pol : Policy) (s : System) : Act → Prop
  | .check _ _ _ | .finish _ => False
  | .record r now _ =>
      ∃ a e, s.pending r = some a ∧ s.zone.entryOf a = some e ∧ now < e.bannedUntil
        ∧ e.nextHits now pol.window = pol.count

/-- The clock of a record is one a ban can begin at: not before the epoch, where `0`
would read as a ban, and not the largest value. -/
def Act.InTime : Act → Prop
  | .check _ _ _ | .finish _ => True
  | .record _ now _ => 0 ≤ now ∧ now < timeMax

instance : (act : Act) → Decidable act.InTime
  | .check _ _ _ | .finish _ => instDecidableTrue
  | .record _ now _ => inferInstanceAs (Decidable (0 ≤ now ∧ now < timeMax))

/-! ## §2. What one record does to the ban of its address. -/

variable {hash : Addr → Nat}

/-- What holds of every reachable state. -/
structure System.Sound (hash : Addr → Nat) (pol : Policy) (s : System) : Prop where
  wf : ∃ ps, s.zone.Wf hash ps
  below : ∀ a e, s.zone.entryOf a = some e → e.hits < pol.count

theorem System.start_sound (pol : Policy) (garbage : Shctx) (clock : Int) :
    (System.start garbage clock).Sound hash pol where
  wf := ⟨[], banInitZone_wf garbage⟩
  below := by
    intro a e he
    simp [System.start, Zone.entryOf, banInitZone, banShctxInit] at he

/-- A hit that completes the count leaves the address banned. -/
theorem Entry.hit_bans (pol : Policy) {e : Entry} {now : Int} (hbelow : e.hits < pol.count)
    (hmax : now < timeMax) (harm : e.nextHits now pol.window = pol.count) :
    now < (e.hit now pol.count pol.window pol.banTime).1.bannedUntil := by
  have hpos := pol.banTime_pos
  rw [Entry.hit_eq pol hbelow, if_pos harm]
  show now < timeAddClamp now pol.banTime
  rw [timeAddClamp_eq_min]
  omega

/-- A hit that does not leaves the ban running or not, as it was. -/
theorem Entry.hit_keeps_ban (pol : Policy) {e : Entry} {now : Int} (hbelow : e.hits < pol.count)
    (hepoch : 0 ≤ now) (harm : e.nextHits now pol.window ≠ pol.count) :
    now < (e.hit now pol.count pol.window pol.banTime).1.bannedUntil ↔ now < e.bannedUntil := by
  rw [Entry.hit_eq pol hbelow, if_neg harm]
  show now < (if e.bannedUntil ≠ 0 ∧ e.bannedUntil ≤ now then 0 else e.bannedUntil) ↔ _
  split <;> omega

/-- Whether an address is banned, by the counters a record of it finds or starts. -/
theorem Zone.bannedAt_eq (z : Zone) (a : Addr) {now : Int} (hepoch : 0 ≤ now) :
    z.bannedAt a now = decide (now < ((z.entryOf a).getD (Entry.fresh now)).bannedUntil) := by
  unfold Zone.bannedAt
  cases z.entryOf a with
  | none =>
      symm
      exact decide_eq_false (not_lt.mpr hepoch)
  | some e => rfl

theorem Act.rearms_record_iff {pol : Policy} {s : System} {r : Nat} {now : Int} {alloc : SlabAlloc}
    {a : Addr} (ha : s.pending r = some a) (hepoch : 0 ≤ now) :
    (Act.record r now alloc).Rearms pol s ↔ s.zone.bannedAt a now = true
      ∧ ((s.zone.entryOf a).getD (Entry.fresh now)).nextHits now pol.window = pol.count := by
  rw [Zone.bannedAt_eq _ _ hepoch, decide_eq_true_eq]
  constructor
  · rintro ⟨a', e, ha', he, hban, harm⟩
    obtain rfl : a = a' := Option.some.inj (ha.symm.trans ha')
    rw [he]
    exact ⟨hban, harm⟩
  · rintro ⟨hban, harm⟩
    cases he : s.zone.entryOf a with
    | none =>
        rw [he] at hban
        exact absurd hban (not_lt.mpr hepoch)
    | some e =>
        rw [he] at hban harm
        exact ⟨a, e, ha, he, hban, harm⟩

/-- What a record adds to the total, by the entry it finds or starts. -/
theorem Zone.Records.tally {T : NgxRbtree} {alloc : SlabAlloc} {pol : Policy} {a : Addr} {now : Int}
    {z z' : Zone} {rc : Int} (h : z.Records pol a now z')
    (hrec : banRecordLocked T alloc z (hash a) a.bytes now pol.count pol.window pol.banTime
      = .ok (z', rc))
    (hbelow : ((z.entryOf a).getD (Entry.fresh now)).hits < pol.count) :
    (z.entryOf a = none ∧ z'.entryOf a = none ∧ z'.sh.bans = z.sh.bans)
      ∨ z'.entryOf a = some (((z.entryOf a).getD (Entry.fresh now)).hit now pol.count pol.window
            pol.banTime).1
        ∧ z'.sh.bans = z.sh.bans
            + if ((z.entryOf a).getD (Entry.fresh now)).nextHits now pol.window = pol.count
              then 1 else 0 := by
  rcases h.own with hdropped | ⟨hown, harmed⟩
  · exact .inl hdropped
  · right
    refine ⟨hown, ?_⟩
    rw [Entry.hit_eq pol hbelow] at harmed
    by_cases harm : ((z.entryOf a).getD (Entry.fresh now)).nextHits now pol.window = pol.count
    · rw [if_pos harm] at harmed ⊢
      exact (banRecordLocked_totals hrec).2.resolve_left (of_decide_eq_true harmed)
    · rw [if_neg harm] at harmed ⊢
      rw [UInt64.add_zero]
      exact not_not.mp (of_decide_eq_false harmed)

/-! ## §3. Runs. -/

/-- An action that leaves the total and begins no ban is counted right. -/
theorem Taken.counts_of_same {t : Taken} (hbegins : t.begins = false)
    (hbans : t.after.zone.sh.bans = t.before.zone.sh.bans) : t.Counts := by
  rw [Taken.Counts, hbegins, hbans]
  simp

/-- **The step lemma**: an enabled action returns, and adds to the bans total what
begins with it exactly when it does not arm a running ban again. -/
theorem System.Sound.step_counts (T : NgxRbtree) {pol : Policy} {s : System}
    (h : s.Sound hash pol) {act : Act} (henabled : act.Enabled s) (htime : act.InTime) :
    ∃ s', s.step T hash pol act = .ok s' ∧ s'.Sound hash pol
      ∧ ((Taken.mk s act s').Counts ↔ ¬ act.Rearms pol s) := by
  obtain ⟨ps, hwf⟩ := h.wf
  cases act with
  | check r a now =>
      obtain ⟨z', ps', b, hban, hwf', hmap⟩ := hwf.isBanned a now
      -- a check only moves and drops entries: it begins no ban and adds to no total
      refine ⟨_, by simp only [System.step, hban, ok_bind, pure_eq_ok]; rfl, ⟨⟨ps', hwf'⟩, ?_⟩, ?_⟩
      · intro b e he
        exact h.below b e (by rw [← hmap]; exact he)
      · exact iff_of_true (Taken.counts_of_same rfl (banIsBannedLocked_trims hban).bans) not_false
  | finish r =>
      exact ⟨_, rfl, ⟨⟨ps, hwf⟩, h.below⟩, iff_of_true (Taken.counts_of_same rfl rfl) not_false⟩
  | record r now alloc =>
      obtain ⟨a, ha⟩ := Option.ne_none_iff_exists'.mp henabled.2
      obtain ⟨hepoch, hmax⟩ := htime
      have hbelow : ((s.zone.entryOf a).getD (Entry.fresh now)).hits < pol.count :=
        Entry.getD_hits_lt (h.below a) now
      obtain ⟨z', ps', rc, hrec, hwf', hrecords⟩ := hwf.records T alloc pol a now
      have hself := hrecords.tally hrec hbelow
      refine ⟨{ zone := z', clock := now, pending := Function.update s.pending r none },
        by simp only [System.step, ha, hrec, ok_bind, pure_eq_ok], ⟨⟨ps', hwf'⟩, ?_⟩, ?_⟩
      · exact hrecords.entries h.below (Entry.hit_hits_lt pol hbelow now)
      · rw [Act.rearms_record_iff ha hepoch]
        have hbegins : (Taken.mk s (.record r now alloc)
            { zone := z', clock := now, pending := Function.update s.pending r none }).begins
            = (!s.zone.bannedAt a now && z'.bannedAt a now) := by
          simp only [Taken.begins, ha]
        rcases hself with ⟨hold, hnew, hbans⟩ | ⟨hnew, hbans⟩
        · -- the hit was dropped
          have hnot : s.zone.bannedAt a now = false := by rw [Zone.bannedAt, hold]; rfl
          have hnot' : z'.bannedAt a now = false := by rw [Zone.bannedAt, hnew]; rfl
          rw [hnot, hnot'] at hbegins
          rw [hnot]
          exact iff_of_true (Taken.counts_of_same hbegins hbans) (by simp)
        · rw [Zone.bannedAt_eq s.zone a hepoch, Zone.bannedAt_eq z' a hepoch, hnew,
            Option.getD_some] at hbegins
          rw [Taken.Counts, hbegins, Zone.bannedAt_eq s.zone a hepoch, decide_eq_true_eq]
          show z'.sh.bans = _ ↔ _
          rw [hbans]
          by_cases harm : ((s.zone.entryOf a).getD (Entry.fresh now)).nextHits now pol.window
              = pol.count
          · -- the total goes up, and the ban begins if it was not running
            have hafter := Entry.hit_bans pol hbelow hmax harm
            simp [harm, hafter]
          · have hafter := Entry.hit_keeps_ban pol hbelow hepoch harm
            simp [harm, hafter]

/-- **The run lemma**: a run counts each of its actions right exactly when none of
them arms a running ban again, and then adds the bans that begin in it. -/
theorem System.Run.counts {T : NgxRbtree} {pol : Policy} {s s' : System} {acts : List Act}
    (hrun : System.Run T hash pol (fun _ act => act.InTime) s acts s')
    (hs : s.Sound hash pol) :
    ∃ steps, s.trace T hash pol acts = .ok steps
      ∧ ((∀ t ∈ steps, t.Counts) ↔ ∀ t ∈ steps, ¬ t.act.Rearms pol t.before)
      ∧ ((∀ t ∈ steps, t.Counts) →
          s'.zone.sh.bans = s.zone.sh.bans + UInt64.ofNat (steps.countP Taken.begins)) := by
  induction hrun with
  | nil s =>
      refine ⟨[], rfl, by simp, fun _ => ?_⟩
      show s.zone.sh.bans = s.zone.sh.bans + 0
      simp
  | @cons s s₁ s' act acts henabled htime hstep hrest ih =>
      obtain ⟨s₂, hstep₂, hs₁, hcounts⟩ := hs.step_counts T henabled htime
      rw [hstep] at hstep₂
      obtain rfl := Except.ok.inj hstep₂
      obtain ⟨steps, htrace, hiff, htotal⟩ := ih hs₁
      refine ⟨{ before := s, act := act, after := s₁ } :: steps, ?_, ?_, ?_⟩
      · simp only [System.trace, hstep, ok_bind, htrace, pure_eq_ok]
      · rw [List.forall_mem_cons, List.forall_mem_cons, hcounts, hiff]
      · intro hall
        rw [List.forall_mem_cons] at hall
        -- what the first action adds, and what the rest adds to it
        have hfirst : s₁.zone.sh.bans = s.zone.sh.bans
            + if Taken.begins { before := s, act := act, after := s₁ } then 1 else 0 := hall.1
        rw [htotal hall.2, hfirst]
        exact add_countP_cons Taken.begins _ steps s.zone.sh.bans

/-- **The bans total counts bans** in a run of requests exactly as far as no record
arms a ban that is running: then each action adds the ban that begins with it and
nothing else, and the total is the number of bans begun. -/
theorem bans_counts_begun (pol : Policy) (T : NgxRbtree) (hash : Addr → Nat) (garbage : Shctx)
    (clock : Int) (acts : List Act) (s : System)
    (hrun : System.Run T hash pol (fun _ act => act.InTime) (System.start garbage clock) acts s) :
    ∃ steps, (System.start garbage clock).trace T hash pol acts = .ok steps
      ∧ ((∀ t ∈ steps, t.Counts) ↔ ∀ t ∈ steps, ¬ t.act.Rearms pol t.before)
      ∧ ((∀ t ∈ steps, t.Counts) →
          s.zone.sh.bans = UInt64.ofNat (steps.countP Taken.begins)) := by
  obtain ⟨steps, htrace, hiff, htotal⟩ := hrun.counts (System.start_sound pol garbage clock)
  refine ⟨steps, htrace, hiff, fun hall => ?_⟩
  rw [htotal hall]
  show 0 + UInt64.ofNat (steps.countP Taken.begins) = _
  rw [UInt64.zero_add]

/-! ## §4. Siblings that are counted once, and twice. -/

theorem siblings_count :
    (do
      let steps ← (System.start staleShctx 0).trace .plain oneBucket longBan siblings
      return ((∀ t ∈ steps, t.Counts) ∧ steps.countP Taken.begins = 1 : Bool))
      = (.ok true : Except Fault Bool) := by
  decide +kernel

/-- Two of three hits arm a ban, the third lands on it and arms nothing: one ban is counted. -/
theorem bans_counts_begun_siblings :
    ∃ s steps, System.Run .plain oneBucket longBan (fun _ act => act.InTime)
        (System.start staleShctx 0) siblings s
      ∧ (System.start staleShctx 0).trace .plain oneBucket longBan siblings = .ok steps
      ∧ (∀ t ∈ steps, ¬ t.act.Rearms longBan t.before)
      ∧ steps.countP Taken.begins = 1 ∧ s.zone.sh.bans = 1 := by
  have hrun : ∃ s, System.Run .plain oneBucket longBan (fun _ act => act.InTime)
      (System.start staleShctx 0) siblings s :=
    ⟨_, .cons (by decide) trivial rfl (.cons (by decide) trivial rfl
      (.cons (by decide) trivial rfl (.cons (by decide) (by decide) rfl
      (.cons (by decide) (by decide) rfl (.cons (by decide) (by decide) rfl
      (.cons (by decide) trivial rfl (.nil _)))))))⟩
  obtain ⟨s, hrun⟩ := hrun
  obtain ⟨steps, htrace, hiff, htotal⟩ :=
    bans_counts_begun longBan .plain oneBucket staleShctx 0 siblings s hrun
  have hcount := siblings_count
  simp only [htrace, ok_bind, pure_eq_ok, Except.ok.injEq, decide_eq_true_eq] at hcount
  obtain ⟨hcounts, hone⟩ := hcount
  have hbans := htotal hcounts
  rw [hone] at hbans
  exact ⟨s, steps, hrun, htrace, hiff.mp hcounts, hone, hbans⟩

/-- The first hit bans. -/
def firstHitBans : Policy :=
  { twoHits with count := 1, count_pos := by decide, count_lt := by decide }

/-- Two requests of one client pass the check together, and both record a hit. -/
def twoChecksTwoRecords : List Act :=
  [.check 0 (client 1) 0, .check 1 (client 1) 0, .record 0 0 (.block 0 staleNode),
    .record 1 0 (.block 0 staleNode)]

/-- **The total counts two bans, of which one was begun**: the second one was armed
while the first was running. -/
theorem bans_counts_rearmed :
    ∃ s steps, System.Run .plain oneBucket firstHitBans (fun _ act => act.InTime)
        (System.start staleShctx 0) twoChecksTwoRecords s
      ∧ (System.start staleShctx 0).trace .plain oneBucket firstHitBans twoChecksTwoRecords
        = .ok steps
      ∧ s.zone.sh.bans = 2 ∧ steps.countP Taken.begins = 1
      ∧ ∃ t ∈ steps, t.begins = false ∧ t.before.zone.bannedAt (client 1) 0 = true
          ∧ t.after.zone.sh.bans = t.before.zone.sh.bans + 1 := by
  refine ⟨_, _, .cons (by decide) trivial rfl (.cons (by decide) trivial rfl
    (.cons (by decide) (by decide) rfl (.cons (by decide) (by decide) rfl (.nil _)))),
    rfl, by decide, by decide, ?_⟩
  exact ⟨_, List.mem_of_getLast? rfl, by decide, by decide, by decide⟩

end HttpShield
