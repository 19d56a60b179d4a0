/-
  HttpShield.Lib.Lockstep
  ───────────────────────
  Two fallible computations that run in lockstep: they fail with the same error, or
  both return, and what they return is related.

    • `Together.bind`  — the rule for one computation behind another,
    • `Together.ite`   — the rule for a branch both take,
    • `Together.of_ok` — where the first returns, so does the second.
-/
import Mathlib.Logic.Basic

namespace Lockstep

/-- The computations fail alike, or return related results. -/
inductive Together {ε α β : Type} (R : α → β → Prop) : Except ε α → Except ε β → Prop where
  | error (e : ε) : Together R (.error e) (.error e)
  | ok {a : α} {b : β} (h : R a b) : Together R (.ok a) (.ok b)

variable {ε α β γ δ : Type} {R : α → β → Prop} {S : γ → δ → Prop}

/-- **Sequential composition**: continuations that run together on
related results run together. -/
theorem Together.bind {x : Except ε α} {y : Except ε β} {f : α → Except ε γ} {g : β → Except ε δ}
    (h : Together R x y) (hnext : ∀ a b, R a b → Together S (f a) (g b)) :
    Together S (x >>= f) (y >>= g) := by
  cases h with
  | error e => exact .error e
  | ok hab => exact hnext _ _ hab

/-- Computations with related results have weakly related ones. -/
theorem Together.mono {R' : α → β → Prop} {x : Except ε α} {y : Except ε β} (h : Together R x y)
    (hle : ∀ a b, R a b → R' a b) : Together R' x y := by
  cases h with
  | error e => exact .error e
  | ok hab => exact .ok (hle _ _ hab)

/-- Where the first computation returns, the second returns a related result. -/
theorem Together.of_ok {a : α} {x : Except ε α} {y : Except ε β} (h : Together R x y)
    (hx : x = .ok a) : ∃ b, y = .ok b ∧ R a b := by
  cases h with
  | error e => cases hx
  | ok hab =>
      obtain rfl := Except.ok.inj hx
      exact ⟨_, rfl, hab⟩

/-- A fact about the results of the first computation may be added to the relation. -/
theorem Together.with_left {P : α → Prop} {x : Except ε α} {y : Except ε β} (h : Together R x y)
    (hleft : ∀ a, x = .ok a → P a) : Together (fun a b => R a b ∧ P a) x y := by
  cases h with
  | error e => exact .error e
  | ok hab => exact .ok ⟨hab, hleft _ rfl⟩

/-- A computation runs together with itself, and the results are equal. -/
theorem together_self (x : Except ε α) : Together (fun a b => a = b) x x := by
  cases x with
  | error e => exact .error e
  | ok a => exact .ok rfl

/-- Two conditionals on one condition run together when both branches do. -/
theorem Together.ite {c : Prop} [Decidable c] {x x' : Except ε α} {y y' : Except ε β}
    (hthen : c → Together R x y) (helse : ¬ c → Together R x' y') :
    Together R (if c then x else x') (if c then y else y') := by
  by_cases h : c
  · rw [if_pos h, if_pos h]
    exact hthen h
  · rw [if_neg h, if_neg h]
    exact helse h

end Lockstep
