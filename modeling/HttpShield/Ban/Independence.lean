/-
  HttpShield.Ban.Independence
  ───────────────────────────
  What the calls for other addresses can do to the ban of an address.

  A new address sweeps the zone, and the sweep may take the entry of `a` if it is
  stale.  Whether that shows is a matter of what a stale entry still remembers: a
  window that is over is nothing to the next hit, but the window that an arming starts
  outlives the ban when `ban_time` is the shorter of the two.

  The entry in a run is compared with the one that the calls for `a` alone would leave:

    • `Shadows`                   — the two are equal, or the run's is gone and the other stale,
    • `banIsBanned_independent`   — two runs give `a` the same answers, if its records keep
      out of the windows and the bans that its earlier ones armed,
    • `banIsBanned_dependent`     — if they do not, a stranger's hit can decide.
-/
import HttpShield.Ban.Enforcement

namespace HttpShield

/-! ## §1. The calls for one address. -/

/-- A call for the address. -/
inductive Call where
  | check (now : Int)
  | record (now : Int)
  deriving Repr, DecidableEq

/-- The call for `a` that this is, if it is one. -/
def callOf (a : Addr) : Op → Option Call
  | .isBanned b now => if b = a then some (.check now) else none
  | .record b now _ _ _ _ => if b = a then some (.record now) else none
  | .lookup _ | .expire _ _ => none

/-- The checks and records of `a`, with their times. -/
def callsOf (a : Addr) (ops : List Op) : List Call := ops.filterMap (callOf a)

/-- What a check of `a` answers. -/
def answerOf (a : Addr) : Op × Reply → Option Bool
  | (.isBanned b _, .banned answer) => if b = a then some answer else none
  | _ => none

/-- The answers that `a` gets. -/
def answersOf (a : Addr) (evs : List (Op × Reply)) : List Bool := evs.filterMap (answerOf a)

/-- The answers to the calls of one address that nobody else disturbs. -/
def aloneAnswers (pol : Policy) : Option Entry → List Call → List Bool
  | _, [] => []
  | e, .check now :: calls =>
      e.any (fun x => x.bannedUntil > now) :: aloneAnswers pol e calls
  | e, .record now :: calls =>
      aloneAnswers pol
        (some ((e.getD (Entry.fresh now)).hit now pol.count pol.window pol.banTime).1) calls

/-- A call for `a`, and what came of it. -/
inductive Seen where
  | check (now : Int) (answer : Bool)
  | record (now : Int) (armed : Bool)

/-- The call that an observation is of. -/
def Seen.call : Seen → Call
  | .check now _ => .check now
  | .record now _ => .record now

/-- The answer of an observed check. -/
def Seen.answer : Seen → Option Bool
  | .check _ answer => some answer
  | .record _ _ => none

/-- The clock of an observed record, and whether it armed a ban. -/
def Seen.hit : Seen → Option (Int × Bool)
  | .check _ _ => none
  | .record now armed => some (now, armed)

/-- No record of `a` found the slab full. -/
def NoDrops (a : Addr) (evs : List (Op × Reply)) : Prop :=
  ∀ ev ∈ evs, ev.1.records a = true → ev.2 ≠ .dropped

instance (a : Addr) (evs : List (Op × Reply)) : Decidable (NoDrops a evs) :=
  inferInstanceAs (Decidable (∀ ev ∈ evs, _))

/-! ## §2. The life of one address. -/

/-- **What `a` lives through**: time passes, a sweep takes the entry once it is stale,
and the calls for `a` find what is left. -/
inductive Watched (pol : Policy) : Int → Option Entry → List Seen → Prop where
  | done (c : Int) (e : Option Entry) : Watched pol c e []
  | tick {c c₁ : Int} {e : Option Entry} {l : List Seen} (hle : c ≤ c₁)
      (rest : Watched pol c₁ e l) : Watched pol c e l
  | evict {c : Int} {x : Entry} {l : List Seen} (hstale : x.isLive c pol.window = false)
      (rest : Watched pol c none l) : Watched pol c (some x) l
  | check {c : Int} {e : Option Entry} {l : List Seen} (rest : Watched pol c e l) :
      Watched pol c e (.check c (e.any (fun x => x.bannedUntil > c)) :: l)
  | hit {c : Int} {e : Option Entry} {l : List Seen}
      (rest : Watched pol c
        (some ((e.getD (Entry.fresh c)).hit c pol.count pol.window pol.banTime).1) l) :
      Watched pol c e
        (.record c ((e.getD (Entry.fresh c)).hit c pol.count pol.window pol.banTime).2 :: l)

/-- The events of a run show no more of `a` than the list does. -/
structure Shows (a : Addr) (evs : List (Op × Reply)) (l : List Seen) : Prop where
  calls : callsOf a (evs.map fun ev => ev.1) = l.map Seen.call
  answers : answersOf a evs = l.filterMap Seen.answer
  hits : hitsOf a evs = l.filterMap Seen.hit

theorem shows_nil (a : Addr) : Shows a [] [] where
  calls := rfl
  answers := rfl
  hits := rfl

theorem Shows.other {a : Addr} {op : Op} {r : Reply} {evs : List (Op × Reply)} {l : List Seen}
    (h : Shows a evs l) (hop : callOf a op = none) : Shows a ((op, r) :: evs) l := by
  have hnone : answerOf a (op, r) = none ∧ hitOf a (op, r) = none := by
    cases op with
    | isBanned b now =>
        have hb : b ≠ a := by
          intro heq
          simp [callOf, heq] at hop
        cases r <;> simp [answerOf, hitOf, hb]
    | record b now count window banTime alloc =>
        have hb : b ≠ a := by
          intro heq
          simp [callOf, heq] at hop
        cases r <;> simp [answerOf, hitOf, hb]
    | lookup b => cases r <;> exact ⟨rfl, rfl⟩
    | expire now window => cases r <;> exact ⟨rfl, rfl⟩
  refine ⟨?_, ?_, ?_⟩
  · rw [← h.calls]
    exact List.filterMap_cons_none hop
  · rw [← h.answers]
    exact List.filterMap_cons_none hnone.1
  · rw [← h.hits]
    exact List.filterMap_cons_none hnone.2

theorem Shows.check {a : Addr} {now : Int} {answer : Bool} {evs : List (Op × Reply)}
    {l : List Seen} (h : Shows a evs l) :
    Shows a ((.isBanned a now, .banned answer) :: evs) (.check now answer :: l) where
  calls := by
    rw [List.map_cons, List.map_cons, ← h.calls]
    exact List.filterMap_cons_some (by simp [callOf, Seen.call])
  answers := by
    show _ = answer :: l.filterMap Seen.answer
    rw [← h.answers]
    exact List.filterMap_cons_some (by simp [answerOf])
  hits := by
    rw [List.filterMap_cons_none rfl, ← h.hits]
    exact List.filterMap_cons_none rfl

theorem Shows.record {a : Addr} {now : Int} {count : Nat} {window banTime : Int}
    {alloc : SlabAlloc} {armed : Bool} {evs : List (Op × Reply)} {l : List Seen}
    (h : Shows a evs l) :
    Shows a ((.record a now count window banTime alloc, .recorded armed) :: evs)
      (.record now armed :: l) where
  calls := by
    rw [List.map_cons, List.map_cons, ← h.calls]
    exact List.filterMap_cons_some (by simp [callOf, Seen.call])
  answers := by
    rw [List.filterMap_cons_none rfl, ← h.answers]
    exact List.filterMap_cons_none rfl
  hits := by
    show _ = (now, armed) :: l.filterMap Seen.hit
    rw [← h.hits]
    exact List.filterMap_cons_some (by simp [hitOf])

theorem Op.records_of_callOf_none {a : Addr} {op : Op} (h : callOf a op = none) :
    op.records a = false := by
  cases op with
  | record b now count window banTime alloc =>
      by_cases hb : b = a
      · simp [callOf, hb] at h
      · simp [Op.records, hb]
  | _ => rfl

/-- **A run under one policy, as one address sees it.** -/
theorem Lru.Runs.watched {pol : Policy} {a : Addr} {s s' : Lru} {evs : List (Op × Reply)}
    (h : Lru.Runs s evs s') (hs : s.Distinct) :
    ∀ c c' : Int, (∀ ev ∈ evs, ev.1.under pol) → ClockRun c (evs.map fun ev => ev.1) c' →
      NoDrops a evs → ∃ l, Shows a evs l ∧ Watched pol c (s.get a) l := by
  induction h with
  | nil s => exact fun c c' _ _ _ => ⟨[], shows_nil a, .done c _⟩
  | @cons s s₁ _ op r evs room hstep hrest ih =>
      intro c c' hunder hclock hdrops
      obtain ⟨hle, hclock'⟩ := hclock
      have hdistinct := hs.step op room
      have hchange := Lru.step_change hs op room a
      rw [hstep] at hdistinct hchange
      have hop : op.under pol := hunder (op, r) List.mem_cons_self
      obtain ⟨l, hshows, hwatched⟩ := ih hdistinct _ c'
        (fun ev hev => hunder ev (List.mem_cons_of_mem _ hev)) hclock'
        (fun ev hev => hdrops ev (List.mem_cons_of_mem _ hev))
      cases hcall : callOf a op with
      | none =>
          -- the call is for others: it may only sweep
          refine ⟨l, hshows.other hcall, .tick hle ?_⟩
          have hrec := Op.records_of_callOf_none hcall
          generalize s.get a = old at hchange ⊢
          generalize s₁.get a = new at hchange hwatched
          cases hchange with
          | keep => exact hwatched
          | evict _ _ x now window _ hsweep hstale =>
              have hnow : op.clock.getD c = now := by rw [Op.clock_of_sweep hsweep]; rfl
              rw [hnow] at hwatched ⊢
              rw [hop.window_eq hsweep] at hstale
              exact .evict hstale hwatched
          | hit => simp [Op.records] at hrec
          | drop => simp [Op.records] at hrec
      | some call =>
          cases op with
          | lookup b => cases hcall
          | expire now window => cases hcall
          | isBanned b now =>
              obtain rfl : b = a := by
                by_contra hb
                simp [callOf, hb] at hcall
              have hs₁ : s.touch b = s₁ := congrArg Prod.fst hstep
              have hr : .banned ((s.get b).any fun x => x.bannedUntil > now) = r :=
                congrArg Prod.snd hstep
              have hwatched' : Watched pol now (s.get b) l := by
                rw [← Lru.get_touch hs b b, hs₁]
                exact hwatched
              rw [← hr]
              exact ⟨_, hshows.check, .tick hle (.check hwatched')⟩
          | record b now count window banTime alloc =>
              obtain rfl : b = a := by
                by_contra hb
                simp [callOf, hb] at hcall
              obtain ⟨rfl, rfl, rfl⟩ := hop
              rcases hchange.record_self with ⟨hdropped, -, -⟩ | ⟨hr, hnew⟩
              · exact absurd hdropped (hdrops _ List.mem_cons_self (by simp [Op.records]))
              · have hnew' : s₁.get b = _ := hnew
                rw [hnew'] at hwatched
                obtain rfl : r = _ := hr
                exact ⟨_, hshows.record, .tick hle (.hit hwatched)⟩

/-! ## §3. The run's entry and the undisturbed one. -/

/-- What holds of every entry at clock `c`. -/
structure Entry.Tame (pol : Policy) (c : Int) (x : Entry) : Prop where
  below : x.hits < pol.count
  started : x.windowStart ≤ c
  ends : x.bannedUntil ≤ timeMax

theorem Entry.Tame.tick {pol : Policy} {c c₁ : Int} {x : Entry} (h : x.Tame pol c)
    (hle : c ≤ c₁) : x.Tame pol c₁ where
  below := h.below
  started := le_trans h.started hle
  ends := h.ends

theorem Entry.tame_fresh (pol : Policy) (now : Int) : (Entry.fresh now).Tame pol now where
  below := pol.count_pos
  started := le_refl now
  ends := by
    show (0 : Int) ≤ timeMax
    decide

theorem Entry.Tame.hit {pol : Policy} {c : Int} {x : Entry} (h : x.Tame pol c) :
    (x.hit c pol.count pol.window pol.banTime).1.Tame pol c := by
  refine ⟨Entry.hit_hits_lt pol h.below c, ?_, ?_⟩
  · rw [Entry.hit_eq pol h.below]
    split
    · exact le_refl c
    · show (if x.rolls c pol.window then c else x.windowStart) ≤ c
      have := h.started
      split <;> omega
  · rw [Entry.hit_eq pol h.below]
    split
    · show timeAddClamp c pol.banTime ≤ timeMax
      rw [timeAddClamp_eq_min]
      exact min_le_right _ _
    · show (if x.bannedUntil ≠ 0 ∧ x.bannedUntil ≤ c then 0 else x.bannedUntil) ≤ timeMax
      have := h.ends
      have hmax : (0 : Int) ≤ timeMax := by decide
      split <;> omega

/-- A stale entry: its ban is over, and its window too unless it armed that ban. -/
theorem Entry.Tame.stale_iff {pol : Policy} {c : Int} {x : Entry} (h : x.Tame pol c) :
    x.isLive c pol.window = false
      ↔ x.bannedUntil ≤ c ∧ (x.bannedUntil = 0 → timeAddClamp x.windowStart pol.window ≤ c) := by
  have hstarted := h.started
  unfold Entry.isLive
  simp only [Bool.or_eq_false_iff, Bool.and_eq_false_imp, decide_eq_false_iff_not, not_lt,
    gt_iff_lt, ge_iff_le, beq_iff_eq, decide_eq_true_eq, Bool.and_eq_true]
  constructor
  · rintro ⟨hban, hwindow⟩
    exact ⟨hban, fun hzero => hwindow ⟨hzero, hstarted⟩⟩
  · rintro ⟨hban, hwindow⟩
    exact ⟨hban, fun hzero => hwindow hzero.1⟩

/-- A hit on an entry that is over in every respect is a first hit. -/
theorem Entry.hit_of_over (pol : Policy) {x : Entry} (hbelow : x.hits < pol.count) {now : Int}
    (hroll : x.rolls now pol.window) (hban : x.bannedUntil ≤ now) :
    x.hit now pol.count pol.window pol.banTime
      = (Entry.fresh now).hit now pol.count pol.window pol.banTime := by
  have hnext : (Entry.fresh now).nextHits now pol.window = x.nextHits now pol.window := by
    unfold Entry.nextHits
    rw [if_pos hroll]
    show (if _ then 0 else 0) + 1 = 0 + 1
    rw [ite_self]
  have hcounting : (Entry.fresh now).counting now pol.window = x.counting now pol.window := by
    unfold Entry.counting
    rw [hnext, if_pos hroll]
    congr 1
    · exact ite_self now
    · have hzero : (Entry.fresh now).bannedUntil = 0 := rfl
      simp only [hzero]
      split <;> split <;> omega
  rw [Entry.hit_eq pol hbelow, Entry.hit_eq pol (Entry.fresh_hits_lt pol now), hnext, hcounting]

/-! ## §4. An entry and its shadow. -/

/-- **The entry in a run shadows the undisturbed one**: until the clock is at its end
they are equal, or a sweep took the one while the other is stale. -/
structure Shadows (pol : Policy) (c : Int) (e₁ e₀ : Option Entry) : Prop where
  tame₁ : ∀ x, e₁ = some x → x.Tame pol c
  tame₀ : ∀ x, e₀ = some x → x.Tame pol c
  same : c < timeMax → e₁ = e₀ ∨ e₁ = none ∧ ∃ x, e₀ = some x ∧ x.isLive c pol.window = false

/-- A record at `now` finds no ban of its address running, and the window over that armed
the last one. -/
def Ready (pol : Policy) (now : Int) (e : Option Entry) : Prop :=
  ∀ x, e = some x → x.bannedUntil ≠ 0 → x.bannedUntil ≤ now ∧ x.windowStart + pol.window ≤ now

theorem Shadows.tick {pol : Policy} {c c₁ : Int} {e₁ e₀ : Option Entry}
    (h : Shadows pol c e₁ e₀) (hle : c ≤ c₁) : Shadows pol c₁ e₁ e₀ where
  tame₁ := fun x hx => (h.tame₁ x hx).tick hle
  tame₀ := fun x hx => (h.tame₀ x hx).tick hle
  same := by
    intro hmax
    rcases h.same (by omega) with heq | ⟨hnone, x, hx, hstale⟩
    · exact .inl heq
    · right
      refine ⟨hnone, x, hx, ?_⟩
      have htame := h.tame₀ x hx
      rw [htame.stale_iff] at hstale
      rw [(htame.tick hle).stale_iff]
      exact ⟨by omega, fun hzero => by have := hstale.2 hzero; omega⟩

theorem Shadows.evict {pol : Policy} {c : Int} {x : Entry} {e₀ : Option Entry}
    (h : Shadows pol c (some x) e₀) (hstale : x.isLive c pol.window = false) :
    Shadows pol c none e₀ where
  tame₁ := by simp
  tame₀ := h.tame₀
  same := by
    intro hmax
    rcases h.same hmax with heq | ⟨hnone, -⟩
    · exact .inr ⟨rfl, x, heq.symm, hstale⟩
    · cases hnone

/-- An entry and the undisturbed entry that it shadows answer a check alike. -/
theorem Shadows.answer {pol : Policy} {c : Int} {e₁ e₀ : Option Entry}
    (h : Shadows pol c e₁ e₀) :
    e₁.any (fun x => x.bannedUntil > c) = e₀.any (fun x => x.bannedUntil > c) := by
  have hover : ∀ e : Option Entry, (∀ x, e = some x → x.bannedUntil ≤ c) →
      e.any (fun x => x.bannedUntil > c) = false := by
    intro e he
    cases e with
    | none => rfl
    | some x => exact decide_eq_false (not_lt.mpr (he x rfl))
  by_cases hmax : c < timeMax
  · rcases h.same hmax with heq | ⟨hnone, x, hx, hstale⟩
    · rw [heq]
    · rw [hover e₁ (by simp [hnone]), hover e₀]
      intro y hy
      obtain rfl : x = y := Option.some.inj (hx.symm.trans hy)
      exact ((h.tame₀ x hx).stale_iff.mp hstale).1
  · -- no ban reaches past the end of the clock
    rw [hover e₁ fun x hx => le_trans (h.tame₁ x hx).ends (by omega),
      hover e₀ fun x hx => le_trans (h.tame₀ x hx).ends (by omega)]

/-- A hit on either is the same hit, where the address is ready for it. -/
theorem Shadows.hit_eq {pol : Policy} {c : Int} {e₁ e₀ : Option Entry}
    (h : Shadows pol c e₁ e₀) (hmax : c < timeMax) (hready : Ready pol c e₀) :
    (e₁.getD (Entry.fresh c)).hit c pol.count pol.window pol.banTime
      = (e₀.getD (Entry.fresh c)).hit c pol.count pol.window pol.banTime := by
  rcases h.same hmax with heq | ⟨hnone, x, hx, hstale⟩
  · rw [heq]
  · have htame := h.tame₀ x hx
    have hover := htame.stale_iff.mp hstale
    rw [hnone, hx]
    refine (Entry.hit_of_over pol htame.below (.inr ?_) hover.1).symm
    by_cases hzero : x.bannedUntil = 0
    · have hwindow := hover.2 hzero
      rw [timeAddClamp_eq_min] at hwindow
      omega
    · have := (hready x hx hzero).2
      omega

theorem Shadows.hit {pol : Policy} {c : Int} {e₁ e₀ : Option Entry}
    (h : Shadows pol c e₁ e₀) (hready : c < timeMax → Ready pol c e₀) :
    Shadows pol c
      (some ((e₁.getD (Entry.fresh c)).hit c pol.count pol.window pol.banTime).1)
      (some ((e₀.getD (Entry.fresh c)).hit c pol.count pol.window pol.banTime).1) := by
  have htame : ∀ e : Option Entry, (∀ x, e = some x → x.Tame pol c) →
      ∀ x, some ((e.getD (Entry.fresh c)).hit c pol.count pol.window pol.banTime).1 = some x →
        x.Tame pol c := by
    rintro e he x ⟨rfl⟩
    cases e with
    | none => exact (Entry.tame_fresh pol c).hit
    | some y => exact (he y rfl).hit
  refine ⟨htame e₁ h.tame₁, htame e₀ h.tame₀, ?_⟩
  intro hmax
  left
  rw [h.hit_eq hmax (hready hmax)]

/-! ## §5. Whole runs. -/

/-- Every record finds the undisturbed entry ready, until the clock is at its end. -/
def Rested (pol : Policy) : Option Entry → List Call → Prop
  | _, [] => True
  | e, .check _ :: calls => Rested pol e calls
  | e, .record now :: calls =>
      (now < timeMax → Ready pol now e)
        ∧ Rested pol
          (some ((e.getD (Entry.fresh now)).hit now pol.count pol.window pol.banTime).1) calls

/-- **The answers are those that the calls for the address alone would get.** -/
theorem Watched.answers_alone {pol : Policy} {c : Int} {e₁ : Option Entry} {l : List Seen}
    (h : Watched pol c e₁ l) :
    ∀ e₀, Shadows pol c e₁ e₀ → Rested pol e₀ (l.map Seen.call) →
      l.filterMap Seen.answer = aloneAnswers pol e₀ (l.map Seen.call) := by
  induction h with
  | done => exact fun _ _ _ => rfl
  | tick hle rest ih => exact fun e₀ hshadows => ih e₀ (hshadows.tick hle)
  | evict hstale rest ih => exact fun e₀ hshadows => ih e₀ (hshadows.evict hstale)
  | @check c e l rest ih =>
      intro e₀ hshadows hrested
      show e.any (fun x => x.bannedUntil > c) :: l.filterMap Seen.answer
        = e₀.any (fun x => x.bannedUntil > c) :: aloneAnswers pol e₀ (l.map Seen.call)
      rw [hshadows.answer, ih e₀ hshadows hrested]
  | @hit c e l rest ih =>
      intro e₀ hshadows hrested
      exact ih _ (hshadows.hit hrested.1) hrested.2

/-- **The records keep apart from what they arm**: none comes before the ban of an
earlier one has run out, nor before the window that one started is over. -/
def Apart (pol : Policy) (H : List (Int × Bool)) : Prop :=
  H.Pairwise fun h h' => h.2 = true →
    timeAddClamp h.1 pol.banTime ≤ h'.1 ∧ h.1 + pol.window ≤ h'.1

instance (pol : Policy) (H : List (Int × Bool)) : Decidable (Apart pol H) :=
  inferInstanceAs (Decidable (List.Pairwise _ _))

/-- A marked entry bears the mark of the hit that armed it. -/
def Marked (pol : Policy) (c : Int) (H : List (Int × Bool)) (e : Option Entry) : Prop :=
  c < timeMax → ∀ x, e = some x → x.bannedUntil ≠ 0 →
    (x.windowStart, true) ∈ H ∧ x.bannedUntil = timeAddClamp x.windowStart pol.banTime

theorem Marked.ready {pol : Policy} {c : Int} {H H' : List (Int × Bool)} {armed : Bool}
    {e : Option Entry} (h : Marked pol c H e) (hapart : Apart pol (H ++ (c, armed) :: H'))
    (hmax : c < timeMax) : Ready pol c e := by
  intro x hx hban
  obtain ⟨hmem, hends⟩ := h hmax x hx hban
  have hpair := (List.pairwise_append.mp hapart).2.2 _ hmem _ List.mem_cons_self rfl
  rw [hends]
  exact hpair

/-- After a hit that found the entry ready only an arming leaves a mark. -/
theorem Marked.hit {pol : Policy} {c : Int} {H : List (Int × Bool)} {armed : Bool}
    {e : Option Entry} (hready : c < timeMax → Ready pol c e)
    (htame : ∀ x, e = some x → x.Tame pol c)
    (harmed : c < timeMax →
      ((e.getD (Entry.fresh c)).hit c pol.count pol.window pol.banTime).2 = armed) :
    Marked pol c (H ++ [(c, armed)])
      (some ((e.getD (Entry.fresh c)).hit c pol.count pol.window pol.banTime).1) := by
  intro hmax x hx hban
  have hbelow : (e.getD (Entry.fresh c)).hits < pol.count := by
    cases e with
    | none => exact Entry.fresh_hits_lt pol c
    | some y => exact (htame y rfl).below
  have harmed' := harmed hmax
  obtain rfl := Option.some.inj hx
  rw [Entry.hit_eq pol hbelow] at hban harmed' ⊢
  split at hban
  · rename_i hcount
    rw [if_pos hcount] at harmed' ⊢
    subst harmed'
    exact ⟨List.mem_append_right _ (List.mem_singleton.mpr rfl), rfl⟩
  · -- the mark of the ban before was taken off
    exfalso
    apply hban
    show (if _ ≠ _ ∧ _ then (0 : Int) else _) = 0
    cases e with
    | none => exact ite_self 0
    | some y =>
        by_cases hzero : y.bannedUntil = 0
        · rw [if_neg (by simp [hzero])]
          exact hzero
        · exact if_pos ⟨hzero, (hready hmax y rfl hzero).1⟩

/-- In a run whose records keep apart, every record finds the undisturbed entry ready. -/
theorem Watched.rested {pol : Policy} {c : Int} {e₁ : Option Entry} {l : List Seen}
    (h : Watched pol c e₁ l) :
    ∀ e₀ H, Shadows pol c e₁ e₀ → Marked pol c H e₀ → Apart pol (H ++ l.filterMap Seen.hit) →
      Rested pol e₀ (l.map Seen.call) := by
  induction h with
  | done => exact fun _ _ _ _ _ => trivial
  | tick hle rest ih =>
      intro e₀ H hshadows hmarked hapart
      exact ih e₀ H (hshadows.tick hle) (fun hmax => hmarked (lt_of_le_of_lt hle hmax)) hapart
  | evict hstale rest ih =>
      intro e₀ H hshadows hmarked hapart
      exact ih e₀ H (hshadows.evict hstale) hmarked hapart
  | check rest ih =>
      intro e₀ H hshadows hmarked hapart
      exact ih e₀ H hshadows hmarked hapart
  | @hit c e l rest ih =>
      intro e₀ H hshadows hmarked hapart
      have hready : c < timeMax → Ready pol c e₀ := hmarked.ready hapart
      have hmarked' := Marked.hit (H := H) hready hshadows.tame₀ fun hmax =>
        congrArg Prod.snd (hshadows.hit_eq hmax (hready hmax)).symm
      refine ⟨hready, ih _ _ (hshadows.hit hready) hmarked' ?_⟩
      rw [← List.append_cons]
      exact hapart

/-- At the beginning there is nothing to tell apart. -/
theorem shadows_none (pol : Policy) (c : Int) : Shadows pol c none none where
  tame₁ := by simp
  tame₀ := by simp
  same := fun _ => .inl rfl

/-- A run from the fresh segment, as one address sees it. -/
theorem banInitZone_watched (pol : Policy) (T : NgxRbtree) (hash : Addr → Nat) (garbage : Shctx)
    (a : Addr) {ops : List Op} {start t : Int} (hrun : PolicyRun pol start ops t) :
    ∃ z evs, (banInitZone garbage).run T hash ops = .ok (z, evs)
      ∧ evs.map (fun ev => ev.1) = ops
      ∧ (NoDrops a evs → ∃ l, Shows a evs l ∧ Watched pol start none l) := by
  obtain ⟨z, ps, evs, hzone, -, hops, hruns⟩ := banInitZone_run T hash garbage ops
  refine ⟨z, evs, hzone, hops, ?_⟩
  refine hruns.watched List.nodupKeys_nil start t ?_ (hops ▸ hrun.clock)
  intro ev hev
  exact hrun.under ev.1 (hops ▸ List.mem_map_of_mem hev)

/-- **Clients do not influence each other's bans**, if their own records keep apart from
what they arm.  Of two runs of a zone under one policy, at clocks that never run
backwards, with the same calls for `a` and whatever calls for others: when the slab drops
no record of `a`, every check of `a` gets the same answer in both. -/
theorem banIsBanned_independent (pol : Policy) (T : NgxRbtree) (hash : Addr → Nat)
    (garbage₁ garbage₂ : Shctx) (a : Addr) (ops₁ ops₂ : List Op)
    (start₁ start₂ t₁ t₂ : Int) (hrun₁ : PolicyRun pol start₁ ops₁ t₁)
    (hrun₂ : PolicyRun pol start₂ ops₂ t₂)
    (hcalls : callsOf a ops₁ = callsOf a ops₂) :
    ∃ z₁ evs₁ z₂ evs₂, (banInitZone garbage₁).run T hash ops₁ = .ok (z₁, evs₁)
      ∧ (banInitZone garbage₂).run T hash ops₂ = .ok (z₂, evs₂)
      ∧ (NoDrops a evs₁ → NoDrops a evs₂ → Apart pol (hitsOf a evs₁) →
        answersOf a evs₁ = answersOf a evs₂) := by
  obtain ⟨z₁, evs₁, hzone₁, hops₁, hwatch₁⟩ := banInitZone_watched pol T hash garbage₁ a hrun₁
  obtain ⟨z₂, evs₂, hzone₂, hops₂, hwatch₂⟩ := banInitZone_watched pol T hash garbage₂ a hrun₂
  refine ⟨z₁, evs₁, z₂, evs₂, hzone₁, hzone₂, ?_⟩
  intro hdrops₁ hdrops₂ hapart
  obtain ⟨l₁, hshows₁, hwatched₁⟩ := hwatch₁ hdrops₁
  obtain ⟨l₂, hshows₂, hwatched₂⟩ := hwatch₂ hdrops₂
  have hrested : Rested pol none (l₁.map Seen.call) := by
    refine hwatched₁.rested none [] (shadows_none pol _) (fun _ => by simp) ?_
    rw [← hshows₁.hits]
    exact hapart
  have hsame : l₁.map Seen.call = l₂.map Seen.call := by
    rw [← hshows₁.calls, ← hshows₂.calls, hops₁, hops₂, hcalls]
  rw [hshows₁.answers, hshows₂.answers, hwatched₁.answers_alone none (shadows_none pol _) hrested,
    hwatched₂.answers_alone none (shadows_none pol _) (hsame ▸ hrested), hsame]

/-! ## §6. Visits of one client, alone and beside another. -/

/-- Every record of `a` is its next call after a check that said not banned. -/
def checkedFirst (a : Addr) : Bool → List (Op × Reply) → Bool
  | _, [] => true
  | passed, ev :: evs =>
      match answerOf a ev with
      | some banned => checkedFirst a (!banned) evs
      | none =>
          if ev.1.records a then passed && checkedFirst a false evs else checkedFirst a passed evs

instance ClockRun.decidable : (c : Int) → (ops : List Op) → (c' : Int) → Decidable (ClockRun c ops c')
  | c, [], c' => inferInstanceAs (Decidable (c ≤ c'))
  | c, op :: ops, c' =>
      have : Decidable (ClockRun (op.clock.getD c) ops c') := ClockRun.decidable _ ops c'
      inferInstanceAs (Decidable (_ ∧ _))

/-- Clients that are checked and hit, at these times, and a last check of the first. -/
def visits (pol : Policy) (clients : List (Addr × Int × Ptr)) (last : Int) : List Op :=
  clients.flatMap (fun v => [.isBanned v.1 v.2.1, pol.hit v.1 v.2.1 v.2.2])
    ++ [.isBanned (client 1) last]

theorem visits_under (pol : Policy) (clients : List (Addr × Int × Ptr)) (last : Int) :
    ∀ op ∈ visits pol clients last, op.under pol := by
  intro op hop
  rcases List.mem_append.mp hop with hop | hop
  · obtain ⟨v, -, hv⟩ := List.mem_flatMap.mp hop
    rcases List.mem_pair.mp hv with rfl | rfl
    · trivial
    · exact ⟨rfl, rfl, rfl⟩
  · rw [List.mem_singleton.mp hop]
    trivial

/-- Two hits that arm a ban until 6, and two more when it is over. -/
def twoBans : List Op :=
  visits twoHits [(client 1, 0, 0), (client 1, 1, 1), (client 1, 12, 2), (client 1, 13, 3)] 14

/-- The calls of `twoBans`, with a stranger whose first hit takes the
entry between the two bans. -/
def twoBansBeside : List Op :=
  visits twoHits [(client 1, 0, 0), (client 1, 1, 1), (client 2, 8, 1), (client 1, 12, 2),
    (client 1, 13, 3)] 14

/-- The stranger does not show in the answers. -/
theorem banIsBanned_independent_twoBans :
    ∃ z₁ evs₁ z₂ evs₂, (banInitZone staleShctx).run .plain oneBucket twoBans = .ok (z₁, evs₁)
      ∧ (banInitZone staleShctx).run .plain oneBucket twoBansBeside = .ok (z₂, evs₂)
      ∧ answersOf (client 1) evs₁ = answersOf (client 1) evs₂ := by
  have hrun₁ : PolicyRun twoHits 0 twoBans 14 :=
    ⟨visits_under _ _ _, by decide⟩
  have hrun₂ : PolicyRun twoHits 0 twoBansBeside 14 :=
    ⟨visits_under _ _ _, by decide⟩
  obtain ⟨z₁, evs₁, z₂, evs₂, hzone₁, hzone₂, hsame⟩ :=
    banIsBanned_independent twoHits .plain oneBucket staleShctx staleShctx (client 1) twoBans
      twoBansBeside 0 0 14 14 hrun₁ hrun₂ rfl
  refine ⟨z₁, evs₁, z₂, evs₂, hzone₁, hzone₂, ?_⟩
  have hevs₁ : evs₁ = twoBans.zip [.banned false, .recorded false, .banned false, .recorded true,
      .banned false, .recorded false, .banned false, .recorded true, .banned true] :=
    Zone.run_events hzone₁ rfl
  have hevs₂ : evs₂ = twoBansBeside.zip [.banned false, .recorded false, .banned false,
      .recorded true, .banned false, .recorded false, .banned false, .recorded false,
      .banned false, .recorded true, .banned true] :=
    Zone.run_events hzone₂ rfl
  subst hevs₁
  subst hevs₂
  exact hsame (by decide) (by decide) (by decide)

/-- Two hits that arm a ban until 6, one when it is over, and one when the window of the
arming is over as well. -/
def straddling : List Op :=
  visits longWindow [(client 1, 0, 0), (client 1, 1, 1), (client 1, 30, 1), (client 1, 110, 2)]
    111

/-- The calls of `straddling`, with a stranger whose first hit takes the
entry before the third hit. -/
def straddlingBeside : List Op :=
  visits longWindow [(client 1, 0, 0), (client 1, 1, 1), (client 2, 20, 1), (client 1, 30, 2),
    (client 1, 110, 3)] 111

/-- **A stranger's hit can decide.**  Left alone, the third hit counts in what is left of
the window of the arming, and the fourth opens a new one.  With the entry gone the third
opens it, and the fourth is the second in it. -/
theorem banIsBanned_dependent :
    ∃ z₁ evs₁ z₂ evs₂, (banInitZone staleShctx).run .plain oneBucket straddling = .ok (z₁, evs₁)
      ∧ (banInitZone staleShctx).run .plain oneBucket straddlingBeside = .ok (z₂, evs₂)
      ∧ PolicyRun longWindow 0 straddling 111 ∧ PolicyRun longWindow 0 straddlingBeside 111
      ∧ callsOf (client 1) straddling = callsOf (client 1) straddlingBeside
      ∧ (∀ ev ∈ evs₁, ev.2 ≠ .dropped) ∧ (∀ ev ∈ evs₂, ev.2 ≠ .dropped)
      ∧ checkedFirst (client 1) false evs₁ = true ∧ checkedFirst (client 1) false evs₂ = true
      ∧ answersOf (client 1) evs₁ ≠ answersOf (client 1) evs₂ := by
  obtain ⟨z₁, evs₁, -, hzone₁, -⟩ := banZone_invariant .plain oneBucket staleShctx straddling
  obtain ⟨z₂, evs₂, -, hzone₂, -⟩ := banZone_invariant .plain oneBucket staleShctx straddlingBeside
  have hevs₁ : evs₁ = straddling.zip [.banned false, .recorded false, .banned false,
      .recorded true, .banned false, .recorded false, .banned false, .recorded false,
      .banned false] :=
    Zone.run_events hzone₁ rfl
  have hevs₂ : evs₂ = straddlingBeside.zip [.banned false, .recorded false, .banned false,
      .recorded true, .banned false, .recorded false, .banned false, .recorded false,
      .banned false, .recorded true, .banned true] :=
    Zone.run_events hzone₂ rfl
  subst hevs₁
  subst hevs₂
  exact ⟨z₁, _, z₂, _, hzone₁, hzone₂, ⟨visits_under _ _ _, by decide⟩,
    ⟨visits_under _ _ _, by decide⟩, rfl, by decide, by decide, by decide, by decide, by decide⟩

end HttpShield
