/-
  HttpShield.Lib.Backoff
  ──────────────────────
  Attempts at something that may fail, and the pauses between them.

  A failure is followed by a pause: the one the other side asks for, or else one that
  depends on how many failures there were in a row.

    • `Keeps.spaced` — an attempt comes after the pause of the one before,
    • `Keeps.due_le` — and none of them waits longer than the longest pause,
    • `Keeps.outage` — while all fail, the pauses add up.
-/
import Mathlib.Data.List.Basic
import Mathlib.Tactic.Common

namespace Backoff

/-! ## §1. Attempts. -/

/-- How an attempt ends. -/
inductive Ending where
  | success
  /-- The attempt may be repeated, after the pause asked for if there is one. -/
  | failure (asked : Option Int)
  /-- The attempt is not to be repeated, but others may be made at once. -/
  | refused
  deriving Repr, DecidableEq

structure Attempt where
  time : Int
  ending : Ending
  deriving Repr, DecidableEq

/-- When the next attempt is due, and the failures in a row. -/
structure State where
  due : Int
  streak : Nat
  deriving Repr, DecidableEq

/-- The failures in a row behind an attempt. -/
def Ending.streak (n : Nat) : Ending → Nat
  | .success => 0
  | .failure _ => n + 1
  | .refused => n

/-- The failures in a row behind some attempts, where there were `n` before them. -/
def streakAfter (n : Nat) (l : List Attempt) : Nat := l.foldl (fun n x => x.ending.streak n) n

variable (delay : Nat → Int)

/-- The pause behind a failure, where there were `n` in a row before it. -/
def pauseOf (n : Nat) (asked : Option Int) : Int := asked.getD (delay n)

/-- The state behind an attempt: reset by a success, delayed by a
failure, as it was by a refusal. -/
def State.after (b : State) (x : Attempt) : State :=
  match x.ending with
  | .success => ⟨0, 0⟩
  | .failure asked => ⟨x.time + pauseOf delay b.streak asked, b.streak + 1⟩
  | .refused => b

/-- Attempts, each of them when it is due. -/
inductive Keeps : State → List Attempt → State → Prop where
  | nil (b : State) : Keeps b [] b
  | cons {b b' : State} {x : Attempt} {l : List Attempt} (hdue : b.due ≤ x.time)
      (hrest : Keeps (b.after delay x) l b') : Keeps b (x :: l) b'

/-- The pauses of `n` failures, where there were `s` in a row before them. -/
def waits (s : Nat) : Nat → Int
  | 0 => 0
  | n + 1 => delay s + waits (s + 1) n

variable {delay}

/-! ## §2. The pauses. -/

theorem State.after_streak (b : State) (x : Attempt) :
    (b.after delay x).streak = x.ending.streak b.streak := by
  unfold State.after
  cases x.ending with
  | success => rfl
  | failure asked => rfl
  | refused => rfl

theorem Keeps.split {l l' : List Attempt} : ∀ {b b' : State}, Keeps delay b (l ++ l') b' →
    ∃ b₁, Keeps delay b l b₁ ∧ b₁.streak = streakAfter b.streak l ∧ Keeps delay b₁ l' b' := by
  induction l with
  | nil =>
      intro b b' h
      exact ⟨b, .nil b, rfl, h⟩
  | cons x l ih =>
      intro b b' h
      cases h with
      | cons hdue hrest =>
          obtain ⟨b₁, hfirst, hstreak, hlast⟩ := ih hrest
          refine ⟨b₁, .cons hdue hfirst, ?_, hlast⟩
          rw [hstreak, b.after_streak]
          rfl

/-- **Apart by the pause**: behind a failure the next attempt waits for its pause. -/
theorem Keeps.spaced {b b' : State} {pre post : List Attempt} {x y : Attempt}
    (h : Keeps delay b (pre ++ x :: y :: post) b') {asked : Option Int}
    (hx : x.ending = .failure asked) :
    x.time + pauseOf delay (streakAfter b.streak pre) asked ≤ y.time := by
  obtain ⟨b₁, -, hstreak, hlast⟩ := h.split
  cases hlast with
  | cons hdue hrest =>
      cases hrest with
      | cons hdue' hrest' =>
          unfold State.after at hdue'
          rw [hx] at hdue'
          rw [← hstreak]
          exact hdue'

/-- The next attempt is due within the longest pause. -/
theorem Keeps.due_le {t m : Int} (hm : 0 ≤ t + m) {l : List Attempt} : ∀ {b b' : State},
    Keeps delay b l b' → b.due ≤ t + m →
    (∀ x ∈ l, x.time ≤ t ∧ ∀ asked n, x.ending = .failure asked → pauseOf delay n asked ≤ m) →
    b'.due ≤ t + m := by
  induction l with
  | nil =>
      intro b b' h hb hall
      cases h with
      | nil => exact hb
  | cons x l ih =>
      intro b b' h hb hall
      cases h with
      | cons hdue hrest =>
          obtain ⟨htime, hpause⟩ := hall x List.mem_cons_self
          refine ih hrest ?_ fun y hy => hall y (List.mem_cons_of_mem x hy)
          unfold State.after
          cases hx : x.ending with
          | success => exact hm
          | failure asked =>
              have hle := hpause asked b.streak hx
              show x.time + pauseOf delay b.streak asked ≤ t + m
              omega
          | refused => exact hb

/-- **In an outage** the attempts are spread over the pauses of all but the last. -/
theorem Keeps.outage {l : List Attempt} : ∀ {b b' : State} {x : Attempt},
    Keeps delay b (x :: l) b' → (∀ y ∈ x :: l, y.ending = .failure none) →
    ∀ y ∈ (x :: l).getLast?, x.time + waits delay b.streak l.length ≤ y.time := by
  induction l with
  | nil =>
      intro b b' x h hall y hy
      obtain rfl : x = y := by simpa using hy
      show x.time + 0 ≤ x.time
      omega
  | cons z l ih =>
      intro b b' x h hall y hy
      cases h with
      | cons hdue hrest =>
          have hafter : b.after delay x = ⟨x.time + delay b.streak, b.streak + 1⟩ := by
            unfold State.after
            rw [hall x List.mem_cons_self]
            rfl
          have hnext := ih hrest (fun w hw => hall w (List.mem_cons_of_mem x hw)) y (by
            rw [List.getLast?_cons_cons] at hy
            exact hy)
          rw [hafter] at hrest hnext
          cases hrest with
          | cons hdue' hrest' =>
              have hfirst : x.time + delay b.streak ≤ z.time := hdue'
              show x.time + (delay b.streak + waits delay (b.streak + 1) l.length) ≤ y.time
              have hlater : z.time + waits delay (b.streak + 1) l.length ≤ y.time := hnext
              omega

/-- Later in the streak the pauses are no shorter. -/
theorem waits_mono (hmono : ∀ s t, s ≤ t → delay s ≤ delay t) (n : Nat) :
    ∀ {s t : Nat}, s ≤ t → waits delay s n ≤ waits delay t n := by
  induction n with
  | zero =>
      intro s t _
      exact Int.le_refl 0
  | succ n ih =>
      intro s t hle
      have hfirst := hmono s t hle
      have hrest : waits delay (s + 1) n ≤ waits delay (t + 1) n := ih (Nat.succ_le_succ hle)
      show delay s + waits delay (s + 1) n ≤ delay t + waits delay (t + 1) n
      omega

theorem waits_nonneg (hnonneg : ∀ s, 0 ≤ delay s) (n : Nat) : ∀ s : Nat, 0 ≤ waits delay s n := by
  induction n with
  | zero =>
      intro s
      exact Int.le_refl 0
  | succ n ih =>
      intro s
      have hfirst := hnonneg s
      have hrest := ih (s + 1)
      show 0 ≤ delay s + waits delay (s + 1) n
      omega

/-- The sum of `m + n` pauses is that of the first `m` and of the `n` behind them. -/
theorem waits_add (m n : Nat) : ∀ (s : Nat),
    waits delay s (m + n) = waits delay s m + waits delay (s + m) n := by
  induction m with
  | zero =>
      intro s
      rw [Nat.zero_add]
      show waits delay s n = 0 + waits delay (s + 0) n
      rw [Int.zero_add, Nat.add_zero]
  | succ m ih =>
      intro s
      rw [Nat.succ_add]
      show delay s + waits delay (s + 1) (m + n)
        = delay s + waits delay (s + 1) m + waits delay (s + (m + 1)) n
      rw [ih (s + 1), Int.add_assoc, Nat.add_right_comm s 1 m, Nat.add_assoc s m 1]

end Backoff
