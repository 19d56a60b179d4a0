/-
  HttpShield.Ban.Overflow
  ───────────────────────
  The arithmetic of the ban engine, on the integers of the machine.

  Beside the engine stands a second one, in which every sum and difference of times
  is computed in a `time_t` and the counter in an `ngx_uint_t`: a result that does
  not fit ends the call with a trap.  What the entries hold is bounded at every call,
  whatever the clock does and whichever policy is current, and under these bounds the
  two engines are the same.

    • `timeAddClampChecked_eq` — the clamped sum is computed without a trap,
    • `Zone.stepChecked_eq`    — so is every call on a bounded zone,
    • `Zone.step_bounded`      — which leaves the zone bounded,
    • `banZone_neverOverflows` — no call of any run overflows.
-/
import HttpShield.Ban.Enforcement
import HttpShield.Ban.Frame

namespace HttpShield

/-! ## §1. The engine that traps. -/

/-- What ends a call of the engine that traps. -/
inductive Trap where
  | fault (f : Fault)
  /-- A result does not fit its type. -/
  | overflow
  deriving Repr, DecidableEq

/-- A step that computes with neither times nor hits. -/
def plain {α : Type} : Except Fault α → Except Trap α
  | .ok a => .ok a
  | .error f => .error (.fault f)

/-- A result of type `time_t`. -/
def asTime (t : Int) : Except Trap Int :=
  if -timeMax - 1 ≤ t ∧ t ≤ timeMax then .ok t else .error .overflow

/-- `ngx_http_shield_time_add_clamp`. -/
def timeAddClampChecked (now delta : Int) : Except Trap Int := do
  let room ← asTime (timeMax - now)
  if delta > room then return timeMax else asTime (now + delta)

/-- The test of `ngx_http_shield_ban_expire`: the deadline is derived only if it is
asked for. -/
def Entry.isLiveChecked (e : Entry) (now window : Int) : Except Trap Bool := do
  if e.bannedUntil > now then return true
  else if e.bannedUntil = 0 ∧ now ≥ e.windowStart then do
    let deadline ← timeAddClampChecked e.windowStart window
    return deadline > now
  else return false

/-- The `while` of `ngx_http_shield_ban_expire`. -/
def banExpireLoopChecked (T : NgxRbtree) (now window : Int) :
    Nat → Nat → Nat → Bool → QueuePtr → Zone → Except Trap (Zone × QueuePtr)
  | 0, _, _, _, _, _ => .error (.fault .outOfFuel)
  | fuel + 1, scanned, evicted, wrapped, q, z =>
      if scanned < banExpireScan ∧ evicted < banExpireEvict then
        match q with
        | none =>
            if wrapped then return (z, none)
            else do
              let q ← plain (ngxQueueLast z)
              banExpireLoopChecked T now window fuel scanned evicted true q z
        | some p => do
            let prev ← plain (ngxQueuePrev z (some p))
            let bn ← plain (z.deref p)
            if ← bn.isLiveChecked now window then
              banExpireLoopChecked T now window fuel (scanned + 1) evicted wrapped prev z
            else
              let z ← plain (banEvict T z p)
              banExpireLoopChecked T now window fuel (scanned + 1) (evicted + 1) wrapped prev z
      else return (z, q)

/-- `ngx_http_shield_ban_expire`. -/
def banExpireChecked (T : NgxRbtree) (z : Zone) (now window : Int) : Except Trap Zone := do
  let q ← plain (banExpireStart z)
  let (z, q) ← banExpireLoopChecked T now window (banExpireScan + 2) 0 0 (z.sh.cursor = none) q z
  return { z with sh := { z.sh with cursor := q } }

/-- The node that a hit is counted on, trapping where `time_t` would overflow. -/
def banFindOrCreateChecked (T : NgxRbtree) (alloc : SlabAlloc) (z : Zone) (hash : Nat)
    (addr : Bytes) (now window : Int) : Except Trap (Zone × Option Ptr) := do
  match ← plain (banLookup z hash addr) with
  | (z, some p) => return (z, some p)
  | (z, none) =>
      let z ← banExpireChecked T z now window
      match slabAlloc alloc z with
      | none => return (z, none)
      | some (z, p) => do
          let z ← plain (banCreate T z p hash addr now)
          return (z, some p)

/-- The window: the age is computed only if the window has begun. -/
def Entry.rollChecked (e : Entry) (now window : Int) : Except Trap Entry := do
  if now < e.windowStart then return { e with windowStart := now, hits := 0 }
  else do
    let age ← asTime (now - e.windowStart)
    if age ≥ window then return { e with windowStart := now, hits := 0 } else return e

/-- `bn->hits++`, trapping where the counter would wrap. -/
def Entry.bumpChecked (e : Entry) : Except Trap Entry :=
  if e.hits + 1 < ngxUintModulus then .ok { e with hits := e.hits + 1 } else .error .overflow

/-- Arm the ban, trapping where `time_t` would overflow. -/
def Entry.armChecked (e : Entry) (now banTime : Int) : Except Trap Entry := do
  let expiry ← timeAddClampChecked now banTime
  return { e with bannedUntil := expiry, hits := 0, windowStart := now }

/-- The counting half of `ngx_http_shield_ban_record_locked`. -/
def banCountChecked (z : Zone) (p : Ptr) (now : Int) (count : Nat) (window banTime : Int) :
    Except Trap Zone := do
  let bn ← plain (z.deref p)
  let e ← (bn.toEntry.retire now).rollChecked now window
  let e ← e.bumpChecked
  if e.hits ≥ count then do
    let e ← e.armChecked now banTime
    plain ({ z with sh := { z.sh with bans := z.sh.bans + 1 } }.store p { bn with toEntry := e })
  else plain (z.store p { bn with toEntry := e })

/-- `ngx_http_shield_ban_record_locked`. -/
def banRecordLockedChecked (T : NgxRbtree) (alloc : SlabAlloc) (z : Zone) (hash : Nat)
    (addr : Bytes) (now : Int) (count : Nat) (window banTime : Int) :
    Except Trap (Zone × Int) := do
  match ← banFindOrCreateChecked T alloc z hash addr now window with
  | (z, none) => return (z, ngxError)
  | (z, some p) => do
      let z ← banCountChecked z p now count window banTime
      return (z, ngxOk)

/-- One call, every `time_t` operation of which is checked for overflow. -/
def Zone.stepChecked (T : NgxRbtree) (hash : Addr → Nat) (z : Zone) :
    Op → Except Trap (Zone × Reply)
  | .expire now window => do
      let z ← banExpireChecked T z now window
      return (z, .done)
  | .record a now count window banTime alloc => do
      let (z', rc) ← banRecordLockedChecked T alloc z (hash a) a.bytes now count window banTime
      return (z', if rc = ngxOk then .recorded (z'.sh.bans ≠ z.sh.bans) else .dropped)
  -- the other calls compare times and compute none
  | op => plain (z.step T hash op)

/-- A sequence of calls, every `time_t` operation of which is checked for overflow. -/
def Zone.runChecked (T : NgxRbtree) (hash : Addr → Nat) :
    Zone → List Op → Except Trap (Zone × List (Op × Reply))
  | z, [] => .ok (z, [])
  | z, op :: ops => do
      let (z, r) ← z.stepChecked T hash op
      let (z, evs) ← z.runChecked T hash ops
      return (z, (op, r) :: evs)

/-! ## §2. What is bounded. -/

/-- `NGX_MAX_INT_T_VALUE`. -/
def ngxMaxIntTValue : Nat := 9223372036854775807

/-- A time that the clock can show. -/
def Clock (t : Int) : Prop := 0 ≤ t ∧ t ≤ timeMax

instance (t : Int) : Decidable (Clock t) := inferInstanceAs (Decidable (_ ∧ _))

/-- A length of time that a policy can give. -/
def Span (d : Int) : Prop := 1 ≤ d ∧ d ≤ timeMax

instance (d : Int) : Decidable (Span d) := inferInstanceAs (Decidable (_ ∧ _))

/-- The clock and the policy of a call are in the range of their types. -/
def Op.InRange : Op → Prop
  | .lookup _ => True
  | .isBanned _ now => Clock now
  | .expire now window => Clock now ∧ Span window
  | .record _ now count window banTime _ =>
      Clock now ∧ (1 ≤ count ∧ count ≤ ngxMaxIntTValue) ∧ Span window ∧ Span banTime

/-- **The bounds of an entry**, under whichever policies it was counted. -/
structure Entry.Bounded (e : Entry) : Prop where
  windowStart : Clock e.windowStart
  bannedUntil : Clock e.bannedUntil
  hits : e.hits < ngxMaxIntTValue

theorem clock_zero : Clock 0 := by decide

theorem ngxMaxIntTValue_pos : 0 < ngxMaxIntTValue := by decide

/-- Every block in use holds a bounded entry. -/
def Zone.Bounded (z : Zone) : Prop := ∀ p bn, z.slab p = some bn → bn.toEntry.Bounded

/-! ## §3. The two engines agree.

The engine that traps does what the other one does as long as clocks, spans and entries
are bounded.  They are compared function by function, from the sums up to the calls. -/

@[simp] theorem trap_ok_bind {α β : Type} (a : α) (f : α → Except Trap β) :
    (Except.ok a >>= f) = f a := rfl

/-- A step in front: what follows has to agree on what the step returns. -/
theorem plain_bind {α β : Type} {x : Except Fault α} {f : α → Except Trap β}
    {g : α → Except Fault β} (h : ∀ a, x = .ok a → f a = plain (g a)) :
    (plain x >>= f) = plain (x >>= g) := by
  cases x with
  | error e => rfl
  | ok a => exact h a rfl

theorem plain_eq_ok {α : Type} {x : Except Fault α} {y : Except Trap α} (h : y = plain x) {a : α}
    (hx : x = .ok a) : y = .ok a := by
  rw [h, hx]
  rfl

theorem asTime_eq {t : Int} (hlow : -timeMax - 1 ≤ t) (hhigh : t ≤ timeMax) : asTime t = .ok t :=
  if_pos ⟨hlow, hhigh⟩

/-- **The clamped sum is computed without a trap.** -/
theorem timeAddClampChecked_eq {now delta : Int} (hnow : Clock now) (hdelta : 0 ≤ delta) :
    timeAddClampChecked now delta = .ok (timeAddClamp now delta) := by
  obtain ⟨hpos, hmax⟩ := hnow
  unfold timeAddClampChecked timeAddClamp
  rw [asTime_eq (by omega) (by omega), trap_ok_bind]
  by_cases hover : delta > timeMax - now
  · rw [if_pos hover, if_pos hover]
    rfl
  · rw [if_neg hover, if_neg hover, asTime_eq (by omega) (by omega)]

theorem timeAddClamp_clock {now delta : Int} (hnow : Clock now) (hdelta : 0 ≤ delta) :
    Clock (timeAddClamp now delta) := by
  obtain ⟨hpos, hmax⟩ := hnow
  rw [timeAddClamp_eq_min]
  constructor
  · omega
  · omega

theorem Entry.Bounded.isLiveChecked {e : Entry} (h : e.Bounded) (now : Int) {window : Int}
    (hwindow : Span window) : e.isLiveChecked now window = .ok (e.isLive now window) := by
  unfold Entry.isLiveChecked Entry.isLive
  rw [timeAddClampChecked_eq h.windowStart (by unfold Span at hwindow; omega)]
  by_cases hbanned : e.bannedUntil > now
  · rw [if_pos hbanned, decide_eq_true hbanned]
    rfl
  · rw [if_neg hbanned, decide_eq_false hbanned]
    by_cases hwaits : e.bannedUntil = 0 ∧ now ≥ e.windowStart
    · rw [if_pos hwaits, hwaits.1, decide_eq_true hwaits.2]
      rfl
    · rw [if_neg hwaits]
      by_cases hunarmed : e.bannedUntil = 0
      · rw [decide_eq_false fun hstart => hwaits ⟨hunarmed, hstart⟩, Bool.and_false]
        rfl
      · rw [beq_false_of_ne hunarmed]
        rfl

/-- A bounded zone stays bounded when nodes of it are relinked or freed. -/
theorem Zone.Bounded.trims {z z' : Zone} (h : z.Bounded) (htrims : z.Trims z') : z'.Bounded := by
  intro p bn' hbn'
  obtain ⟨bn, hbn, heq⟩ := htrims.slab p bn' hbn'
  rw [heq]
  exact h p bn hbn

theorem banExpireLoopChecked_eq (T : NgxRbtree) (now : Int) {window : Int} (hwindow : Span window)
    (fuel scanned evicted : Nat) (wrapped : Bool) (q : QueuePtr) {z : Zone} (h : z.Bounded) :
    banExpireLoopChecked T now window fuel scanned evicted wrapped q z
      = plain (banExpireLoop T now window fuel scanned evicted wrapped q z) := by
  induction fuel generalizing scanned evicted wrapped q z with
  | zero => rfl
  | succ fuel ih =>
      unfold banExpireLoopChecked banExpireLoop
      by_cases hbudget : scanned < banExpireScan ∧ evicted < banExpireEvict
      · rw [if_pos hbudget, if_pos hbudget]
        cases q with
        | none =>
            cases wrapped with
            | true => rfl
            | false => exact plain_bind fun last _ => ih _ _ _ _ h
        | some p =>
            apply plain_bind
            intro prev _
            apply plain_bind
            intro bn hderef
            rw [(h p bn (Zone.deref_ok hderef)).isLiveChecked now hwindow, trap_ok_bind]
            by_cases hlive : bn.isLive now window = true
            · rw [if_pos hlive, if_pos hlive]
              exact ih _ _ _ _ h
            · rw [if_neg hlive, if_neg hlive]
              apply plain_bind
              intro z' hevict
              exact ih _ _ _ _ (h.trims (banEvict_trims T hevict))
      · rw [if_neg hbudget, if_neg hbudget]
        rfl

theorem banExpireChecked_eq (T : NgxRbtree) {z : Zone} (h : z.Bounded) (now : Int) {window : Int}
    (hwindow : Span window) :
    banExpireChecked T z now window = plain (banExpire T z now window) := by
  apply plain_bind
  intro q _
  rw [banExpireLoopChecked_eq T now hwindow _ _ _ _ _ h]
  exact plain_bind fun _ _ => rfl

theorem banFindOrCreateChecked_eq (T : NgxRbtree) (alloc : SlabAlloc) {z : Zone} (h : z.Bounded)
    (hash : Nat) (addr : Bytes) (now : Int) {window : Int} (hwindow : Span window) :
    banFindOrCreateChecked T alloc z hash addr now window
      = plain (banFindOrCreate T alloc z hash addr now window) := by
  apply plain_bind
  rintro ⟨z₁, found⟩ hlook
  cases found with
  | some p => rfl
  | none =>
      show (banExpireChecked T z₁ now window >>= _) = plain (banExpire T z₁ now window >>= _)
      rw [banExpireChecked_eq T (h.trims (banLookup_trims hlook)) now hwindow]
      apply plain_bind
      intro z₂ _
      show (match slabAlloc alloc z₂ with
        | none => _
        | some (z, p) => _) = plain (match slabAlloc alloc z₂ with
        | none => _
        | some (z, p) => _)
      cases slabAlloc alloc z₂ with
      | none => rfl
      | some zp => exact plain_bind fun _ _ => rfl

/-! ## §4. The counting of a hit. -/

/-- The counting: the age of a window that has begun, one hit more, the end of the ban. -/
theorem Entry.Bounded.rollChecked {e : Entry} (h : e.Bounded) {now : Int} (hnow : Clock now)
    (window : Int) :
    (e.retire now).rollChecked now window = .ok ((e.retire now).roll now window) := by
  obtain ⟨hpos, hmax⟩ := hnow
  have hstart : (e.retire now).windowStart = e.windowStart := by
    unfold Entry.retire
    split <;> rfl
  obtain ⟨hpos', hmax'⟩ := h.windowStart
  unfold Entry.rollChecked Entry.roll
  by_cases hback : now < (e.retire now).windowStart
  · rw [if_pos hback, if_pos (.inl hback)]
    rfl
  · rw [if_neg hback, asTime_eq (by omega) (by omega), trap_ok_bind]
    by_cases hover : now - (e.retire now).windowStart ≥ window
    · rw [if_pos hover, if_pos (.inr hover)]
      rfl
    · rw [if_neg hover, if_neg (by omega)]
      rfl

theorem Entry.Bounded.roll {e : Entry} (h : e.Bounded) {now : Int} (hnow : Clock now)
    (window : Int) : ((e.retire now).roll now window).Bounded := by
  have hretire : (e.retire now).Bounded := by
    unfold Entry.retire
    split
    · exact ⟨h.windowStart, clock_zero, h.hits⟩
    · exact h
  unfold Entry.roll
  split
  · exact ⟨hnow, hretire.bannedUntil, ngxMaxIntTValue_pos⟩
  · exact hretire

/-- The hit counter of a bounded entry is below its largest value, so the
increment does not trap. -/
theorem Entry.Bounded.bumpChecked {e : Entry} (h : e.Bounded) : e.bumpChecked = .ok e.bump := by
  have hroom : e.hits + 1 < ngxUintModulus := by
    have hlt := h.hits
    unfold ngxMaxIntTValue at hlt
    unfold ngxUintModulus UInt64.size
    omega
  unfold Entry.bumpChecked Entry.bump
  rw [if_pos hroom, Nat.mod_eq_of_lt hroom]

theorem Entry.armChecked_eq (e : Entry) {now banTime : Int} (hnow : Clock now)
    (hban : Span banTime) : e.armChecked now banTime = .ok (e.arm now banTime) := by
  unfold Entry.armChecked
  rw [timeAddClampChecked_eq hnow (by unfold Span at hban; omega)]
  rfl

theorem banCountChecked_eq {z : Zone} (h : z.Bounded) (p : Ptr) {now window banTime : Int}
    (hnow : Clock now) (count : Nat) (hban : Span banTime) :
    banCountChecked z p now count window banTime
      = plain (banCount z p now count window banTime) := by
  apply plain_bind
  intro bn hderef
  have hbn := h p bn (Zone.deref_ok hderef)
  rw [hbn.rollChecked hnow window, trap_ok_bind, (hbn.roll hnow window).bumpChecked, trap_ok_bind]
  by_cases harm : ((bn.toEntry.retire now).roll now window).bump.hits ≥ count
  · rw [if_pos harm, Entry.armChecked_eq _ hnow hban, trap_ok_bind]
    exact congrArg plain (if_pos harm).symm
  · rw [if_neg harm]
    exact congrArg plain (if_neg harm).symm

/-! ## §5. The bounds are kept. -/

/-- A zone whose other entries are bounded stays bounded when a bounded entry is written. -/
theorem Zone.store_bounded {z z' : Zone} {p : Ptr} {bn : BanNode}
    (h : ∀ p' bn', p' ≠ p → z.slab p' = some bn' → bn'.toEntry.Bounded) (hbn : bn.toEntry.Bounded)
    (hstore : z.store p bn = .ok z') : z'.Bounded := by
  obtain ⟨-, -, hstore⟩ := bind_eq_ok hstore
  obtain rfl := Except.ok.inj hstore
  intro p' bn' hbn'
  by_cases hp : p' = p
  · subst hp
    obtain rfl : bn = bn' := by simpa using hbn'
    exact hbn
  · exact h p' bn' hp ((Function.update_of_ne hp _ _).symm.trans hbn')

/-- A created node is bounded, whatever the block held that the slab hands out for it. -/
theorem banCreate_bounded {T : NgxRbtree} {z z' : Zone} {p : Ptr} {hash : Nat} {addr : Bytes}
    {now : Int} (h : ∀ p' bn', p' ≠ p → z.slab p' = some bn' → bn'.toEntry.Bounded)
    (hnow : Clock now) (hcreate : banCreate T z p hash addr now = .ok z') : z'.Bounded := by
  obtain ⟨bn, z₁, t, hstore, htrims⟩ := banCreate_ok hcreate
  have hfilled : z₁.Bounded :=
    Zone.store_bounded h ⟨hnow, clock_zero, ngxMaxIntTValue_pos⟩ hstore
  intro q bn' hbn'
  obtain ⟨bn₁, hbn₁, heq⟩ := htrims.slab q bn' hbn'
  rw [heq]
  exact hfilled q bn₁ hbn₁

theorem banFindOrCreate_bounded {T : NgxRbtree} {alloc : SlabAlloc} {z z' : Zone} (h : z.Bounded)
    {hash : Nat} {addr : Bytes} {now window : Int} (hnow : Clock now) {p : Option Ptr}
    (hfind : banFindOrCreate T alloc z hash addr now window = .ok (z', p)) : z'.Bounded := by
  obtain ⟨z₁, htrims, rfl | ⟨q, junk, hcreate⟩⟩ := banFindOrCreate_cases hfind
  · exact h.trims htrims
  · apply banCreate_bounded _ hnow hcreate
    intro p' bn' hp hbn'
    exact h.trims htrims p' bn' ((Function.update_of_ne hp _ _).symm.trans hbn')

/-- **Counting keeps the bounds**: the counter stays below the count, or starts again. -/
theorem banCount_bounded {z z' : Zone} (h : z.Bounded) {p : Ptr} {now window banTime : Int}
    (hnow : Clock now) {count : Nat} (hcount : count ≤ ngxMaxIntTValue) (hban : Span banTime)
    (hdone : banCount z p now count window banTime = .ok z') : z'.Bounded := by
  obtain ⟨bn, hderef, hdone⟩ := bind_eq_ok hdone
  have hroll := (h p bn (Zone.deref_ok hderef)).roll hnow window
  dsimp only at hdone
  by_cases harm : ((bn.toEntry.retire now).roll now window).bump.hits ≥ count
  · rw [if_pos harm] at hdone
    have hexpiry : Clock (timeAddClamp now banTime) :=
      timeAddClamp_clock hnow (by unfold Span at hban; omega)
    refine Zone.store_bounded ?_ ⟨hnow, hexpiry, ngxMaxIntTValue_pos⟩ hdone
    exact fun p' bn' _ hbn' => h p' bn' hbn'
  · rw [if_neg harm] at hdone
    have hbelow := Nat.lt_of_lt_of_le (Nat.lt_of_not_ge harm) hcount
    refine Zone.store_bounded ?_ ⟨hroll.windowStart, hroll.bannedUntil, hbelow⟩ hdone
    exact fun p' bn' _ hbn' => h p' bn' hbn'

theorem banRecordLocked_bounded {T : NgxRbtree} {alloc : SlabAlloc} {z z' : Zone} (h : z.Bounded)
    {hash : Nat} {addr : Bytes} {now window banTime : Int} (hnow : Clock now) {count : Nat}
    (hcount : count ≤ ngxMaxIntTValue) (hban : Span banTime) {rc : Int}
    (hrec : banRecordLocked T alloc z hash addr now count window banTime = .ok (z', rc)) :
    z'.Bounded := by
  obtain ⟨⟨z₁, found⟩, hfind, hrec⟩ := bind_eq_ok hrec
  have hbounded := banFindOrCreate_bounded h hnow hfind
  cases found with
  | none =>
      obtain ⟨rfl, -⟩ : z₁ = z' ∧ ngxError = rc := by simpa using hrec
      exact hbounded
  | some p =>
      obtain ⟨z₂, hdone, hrec⟩ := bind_eq_ok hrec
      obtain ⟨rfl, -⟩ : z₂ = z' ∧ ngxOk = rc := by simpa using hrec
      exact banCount_bounded hbounded hnow hcount hban hdone

/-! ## §6. Calls and runs. -/

/-- **A call on a bounded zone** computes what it does without a trap. -/
theorem Zone.stepChecked_eq (T : NgxRbtree) (hash : Addr → Nat) {z : Zone} (h : z.Bounded) {op : Op}
    (hop : op.InRange) : z.stepChecked T hash op = plain (z.step T hash op) := by
  cases op with
  | lookup a => rfl
  | isBanned a now => rfl
  | expire now window =>
      show (banExpireChecked T z now window >>= _) = plain (banExpire T z now window >>= _)
      rw [banExpireChecked_eq T h now hop.2]
      exact plain_bind fun _ _ => rfl
  | record a now count window banTime alloc =>
      obtain ⟨hnow, hcount, hwindow, hban⟩ := hop
      have hrec : banRecordLockedChecked T alloc z (hash a) a.bytes now count window banTime
          = plain (banRecordLocked T alloc z (hash a) a.bytes now count window banTime) := by
        unfold banRecordLockedChecked
        rw [banFindOrCreateChecked_eq T alloc h (hash a) a.bytes now hwindow]
        apply plain_bind
        rintro ⟨z₁, found⟩ hfind
        cases found with
        | none => rfl
        | some p =>
            show (banCountChecked z₁ p now count window banTime >>= _)
              = plain (banCount z₁ p now count window banTime >>= _)
            rw [banCountChecked_eq (banFindOrCreate_bounded h hnow hfind) p hnow count hban]
            exact plain_bind fun _ _ => rfl
      show (banRecordLockedChecked T alloc z (hash a) a.bytes now count window banTime >>= _)
        = plain (banRecordLocked T alloc z (hash a) a.bytes now count window banTime >>= _)
      rw [hrec]
      exact plain_bind fun _ _ => rfl

/-- **Every call keeps the bounds.** -/
theorem Zone.step_bounded {T : NgxRbtree} {hash : Addr → Nat} {z z' : Zone} (h : z.Bounded)
    {op : Op} (hop : op.InRange) {r : Reply} (hstep : z.step T hash op = .ok (z', r)) :
    z'.Bounded := by
  cases op with
  | lookup a =>
      obtain ⟨⟨z₁, p⟩, hlook, hstep⟩ := bind_eq_ok hstep
      obtain ⟨rfl, -⟩ : z₁ = z' ∧ Reply.found p.isSome = r := by simpa using hstep
      exact h.trims (banLookup_trims hlook)
  | isBanned a now =>
      obtain ⟨⟨z₁, b⟩, hban, hstep⟩ := bind_eq_ok hstep
      obtain ⟨rfl, -⟩ : z₁ = z' ∧ Reply.banned b = r := by simpa using hstep
      exact h.trims (banIsBannedLocked_trims hban)
  | expire now window =>
      obtain ⟨z₁, hexp, hstep⟩ := bind_eq_ok hstep
      obtain ⟨rfl, -⟩ : z₁ = z' ∧ Reply.done = r := by simpa using hstep
      exact h.trims (banExpire_trims T hexp)
  | record a now count window banTime alloc =>
      obtain ⟨hnow, hcount, -, hban⟩ := hop
      obtain ⟨⟨z₁, rc⟩, hrec, hstep⟩ := bind_eq_ok hstep
      have hz : z₁ = z' := (Prod.ext_iff.mp (Except.ok.inj hstep)).1
      rw [← hz]
      exact banRecordLocked_bounded h hnow hcount.2 hban hrec

/-- From a bounded zone on, both engines run alike, and the bounds hold at the end. -/
theorem Zone.runChecked_eq {T : NgxRbtree} {hash : Addr → Nat} {z z' : Zone} {ops : List Op}
    {evs : List (Op × Reply)} (h : z.Bounded) (hops : ∀ op ∈ ops, op.InRange)
    (hrun : z.run T hash ops = .ok (z', evs)) :
    z.runChecked T hash ops = .ok (z', evs) ∧ z'.Bounded := by
  induction ops generalizing z evs with
  | nil =>
      obtain ⟨rfl, rfl⟩ : z = z' ∧ [] = evs := by simpa [Zone.run] using hrun
      exact ⟨rfl, h⟩
  | cons op ops ih =>
      have hop := hops op List.mem_cons_self
      obtain ⟨⟨z₁, r⟩, hstep, hrun⟩ := bind_eq_ok hrun
      obtain ⟨⟨z₂, evs₂⟩, hrest, hrun⟩ := bind_eq_ok hrun
      obtain ⟨rfl, rfl⟩ : z₂ = z' ∧ (op, r) :: evs₂ = evs := by simpa using hrun
      obtain ⟨hchecked, hbounded⟩ :=
        ih (Zone.step_bounded h hop hstep)
          (fun op' hop' => hops op' (List.mem_cons_of_mem _ hop')) hrest
      refine ⟨?_, hbounded⟩
      unfold Zone.runChecked
      rw [plain_eq_ok (Zone.stepChecked_eq T hash h hop) hstep, trap_ok_bind]
      simp only [hchecked, trap_ok_bind]
      rfl

/-- **Ban arithmetic never overflows.**  In every run from a fresh zone, whose clocks and
policies are in range and otherwise arbitrary, no call traps: the engine that computes
in the types of the machine does what the engine over the integers does, and the
entries are bounded after it.  A clamped sum is exact or the largest `time_t`, and
that is later than every clock before it. -/
theorem banZone_neverOverflows (T : NgxRbtree) (hash : Addr → Nat) (garbage : Shctx)
    (ops : List Op) (hops : ∀ op ∈ ops, op.InRange) :
    (∃ z evs, (banInitZone garbage).run T hash ops = .ok (z, evs)
        ∧ (banInitZone garbage).runChecked T hash ops = .ok (z, evs) ∧ z.Bounded)
      ∧ (∀ now delta, Clock now → Span delta →
        timeAddClampChecked now delta = .ok (min (now + delta) timeMax))
      ∧ ∀ now delta t, timeMax ≤ now + delta → t < timeMax → t < timeAddClamp now delta := by
  refine ⟨?_, ?_, ?_⟩
  · obtain ⟨z, -, evs, hrun, -⟩ := banInitZone_run T hash garbage ops
    have hempty : (banInitZone garbage).Bounded := fun p bn hbn => by cases hbn
    obtain ⟨hchecked, hbounded⟩ := Zone.runChecked_eq hempty hops hrun
    exact ⟨z, evs, hrun, hchecked, hbounded⟩
  · intro now delta hnow hdelta
    unfold Span at hdelta
    rw [timeAddClampChecked_eq hnow (by omega), timeAddClamp_eq_min]
  · intro now delta t hsaturated ht
    rw [timeAddClamp_eq_min]
    omega

/-- A ban that is armed near the last second, a clock that steps back to the first, and a
policy that changes in between. -/
def lastSeconds : List Op :=
  [.record (client 1) (timeMax - 5) 1 60 1000000 (.block 0 staleNode),
    .isBanned (client 1) (timeMax - 1),
    .record (client 2) 0 ngxMaxIntTValue timeMax timeMax (.block 1 staleNode),
    .expire timeMax timeMax]

theorem banZone_neverOverflows_lastSeconds :
    (∃ z evs, (banInitZone staleShctx).run .plain oneBucket lastSeconds = .ok (z, evs)
        ∧ (banInitZone staleShctx).runChecked .plain oneBucket lastSeconds = .ok (z, evs)
        ∧ z.Bounded)
      ∧ (∀ now delta, Clock now → Span delta →
        timeAddClampChecked now delta = .ok (min (now + delta) timeMax))
      ∧ ∀ now delta t, timeMax ≤ now + delta → t < timeMax → t < timeAddClamp now delta :=
  banZone_neverOverflows .plain oneBucket staleShctx lastSeconds (by
    intro op hop
    simp only [lastSeconds, List.mem_cons, List.not_mem_nil, or_false] at hop
    rcases hop with rfl | rfl | rfl | rfl
    · exact ⟨by decide, by decide, by decide, by decide⟩
    · exact (show Clock (timeMax - 1) by decide)
    · exact ⟨by decide, by decide, by decide, by decide⟩
    · exact ⟨by decide, by decide⟩)

end HttpShield
