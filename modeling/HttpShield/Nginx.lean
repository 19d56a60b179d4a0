/-
  HttpShield.Nginx
  ────────────────
  The nginx vocabulary the shield module is written in: byte strings, the
  `ngx_int_t` return codes, the machine bounds, and the handful of core string
  helpers the module calls.  Everything above this file is translated from
  `src/`; what stands here is the documented behaviour of `<ngx_core.h>`.

  Undefined behaviour of the C code is never silently defined away: every
  operation that could read freed memory, leave an array or shift too far
  returns a `Fault`, and the safety theorems say that no fault is reachable.
-/
import Mathlib.Data.List.Basic
import Mathlib.Data.List.Lex
import Mathlib.Order.Basic
import Mathlib.Tactic.Common

namespace HttpShield

/-! ## §1. Byte strings and machine bounds. -/

/-- A counted byte buffer (`u_char *data, size_t len`, or `ngx_str_t`). -/
abbrev Bytes := List UInt8

/-- The bytes of a C string literal (the source file is UTF-8). -/
def bytesOf (s : String) : Bytes := s.toUTF8.data.toList

/-- `ngx_uint_t` arithmetic is modulo this. -/
def ngxUintModulus : Nat := UInt64.size

/-- The largest `time_t`: `((uint64_t) 1 << (sizeof(time_t) * 8 - 1)) - 1`. -/
def timeMax : Int := Int64.maxValue.toInt

/-! ## §2. Return codes. -/

/-- `NGX_OK`. -/
def ngxOk : Int := 0
/-- `NGX_ERROR`. -/
def ngxError : Int := -1
/-- `NGX_DONE`. -/
def ngxDone : Int := -4
/-- `NGX_DECLINED`. -/
def ngxDeclined : Int := -5
/-- `NGX_HTTP_SPECIAL_RESPONSE`. -/
def ngxHttpSpecialResponse : Int := 300
/-- `NGX_HTTP_INTERNAL_SERVER_ERROR`. -/
def ngxHttpInternalServerError : Int := 500

/-! ## §3. Faults. -/

/-- What the C code would do that has no defined result, plus the one failure
the model itself can have (a loop that outlives its fuel). -/
inductive Fault where
  /-- A freed (or never allocated) block is dereferenced. -/
  | useAfterFree
  /-- A queue element is unlinked or stepped from while not in the queue. -/
  | notInQueue
  /-- An array access at or past the allocated length. -/
  | outOfBounds
  /-- `1 << n` with `n` at least the width of the type. -/
  | shiftTooWide
  /-- A modelled loop ran out of fuel. -/
  | outOfFuel
  deriving Repr, DecidableEq

@[simp] theorem ok_bind {α β : Type} (a : α) (f : α → Except Fault β) :
    (Except.ok a >>= f) = f a := rfl

@[simp] theorem pure_eq_ok {α : Type} (a : α) : (pure a : Except Fault α) = .ok a := rfl

/-- A call that returned had each of its steps return. -/
theorem bind_eq_ok {α β : Type} {x : Except Fault α} {f : α → Except Fault β} {b : β}
    (h : (x >>= f) = .ok b) : ∃ a, x = .ok a ∧ f a = .ok b := by
  cases x with
  | error e => cases h
  | ok a => exact ⟨a, rfl, h⟩

/-! ## §4. Core string helpers. -/

/-- Read one byte. -/
def byteAt (s : Bytes) (i : Nat) : Except Fault UInt8 :=
  match s[i]? with
  | some c => .ok c
  | none => .error .outOfBounds

theorem byteAt_eq {s : Bytes} {i : Nat} (h : i < s.length) : byteAt s i = .ok s[i] := by
  unfold byteAt
  rw [List.getElem?_eq_getElem h]

/-- `ngx_tolower`. -/
def ngxTolower (c : UInt8) : UInt8 :=
  if 65 ≤ c.toNat ∧ c.toNat ≤ 90 then UInt8.ofNat (c.toNat + 32) else c

/-- `ngx_strlow`. -/
def ngxStrlow (s : Bytes) : Bytes := s.map ngxTolower

@[simp] theorem ngxStrlow_length (s : Bytes) : (ngxStrlow s).length = s.length := by
  simp [ngxStrlow]

/-- `ngx_memcmp` over the first `n` bytes: the difference at the first byte
where the two buffers differ, `0` when they agree. -/
def ngxMemcmp : Bytes → Bytes → Nat → Int
  | a :: as, b :: bs, n + 1 =>
      if a = b then ngxMemcmp as bs n else (a.toNat : Int) - (b.toNat : Int)
  | _, _, _ => 0

/-- `ngx_strncasecmp` over at most `n` bytes: it stops at a NUL in both. -/
def ngxStrncasecmp : Bytes → Bytes → Nat → Int
  | a :: as, b :: bs, n + 1 =>
      if ngxTolower a = ngxTolower b then
        if ngxTolower a = 0 then 0 else ngxStrncasecmp as bs n
      else ((ngxTolower a).toNat : Int) - ((ngxTolower b).toNat : Int)
  | _, _, _ => 0

/-- `ngx_memcpy` of `src` to the start of the buffer `dst`. -/
def ngxMemcpy (dst src : Bytes) : Bytes := src ++ dst.drop src.length

/-- What was copied can be read back, whatever the buffer held before. -/
theorem ngxMemcpy_take (dst src : Bytes) : (ngxMemcpy dst src).take src.length = src := by
  simp [ngxMemcpy]

/-- `ngx_memcmp` sees only the first `n` bytes of its second buffer. -/
theorem ngxMemcmp_take_right (a b : Bytes) (n : Nat) :
    ngxMemcmp a (b.take n) n = ngxMemcmp a b n := by
  induction n generalizing a b with
  | zero => cases a <;> cases b <;> rfl
  | succ n ih =>
      cases a with
      | nil => rfl
      | cons x xs =>
          cases b with
          | nil => rfl
          | cons y ys => simp only [List.take_succ_cons, ngxMemcmp, ih]

/-- `ngx_memcmp` sees only the first `n` bytes of its first buffer. -/
theorem ngxMemcmp_take_left (a b : Bytes) (n : Nat) :
    ngxMemcmp (a.take n) b n = ngxMemcmp a b n := by
  induction n generalizing a b with
  | zero => cases a <;> cases b <;> rfl
  | succ n ih =>
      cases a with
      | nil => rfl
      | cons x xs =>
          cases b with
          | nil => rfl
          | cons y ys => simp only [List.take_succ_cons, ngxMemcmp, ih]

/-- On buffers of one length, a zero `ngx_memcmp` is equality. -/
theorem ngxMemcmp_eq_zero_iff (a b : Bytes) (h : a.length = b.length) :
    ngxMemcmp a b a.length = 0 ↔ a = b := by
  induction a generalizing b with
  | nil => cases b with
    | nil => simp [ngxMemcmp]
    | cons y ys => simp at h
  | cons x xs ih =>
      cases b with
      | nil => simp at h
      | cons y ys =>
          simp only [List.length_cons, ngxMemcmp]
          by_cases hxy : x = y
          · subst hxy
            simp only [if_true, List.cons.injEq, true_and]
            exact ih ys (by simpa using h)
          · have hne : x.toNat ≠ y.toNat := fun h' => hxy (UInt8.toNat_inj.mp h')
            simp only [hxy, if_false, List.cons.injEq, false_and, iff_false]
            omega

/-- On buffers of one length, a negative `ngx_memcmp` is the lexicographic
order of the byte values. -/
theorem ngxMemcmp_neg_iff (a b : Bytes) (h : a.length = b.length) :
    ngxMemcmp a b a.length < 0 ↔ a.map UInt8.toNat < b.map UInt8.toNat := by
  induction a generalizing b with
  | nil => cases b with
    | nil => simp [ngxMemcmp]
    | cons y ys => simp at h
  | cons x xs ih =>
      cases b with
      | nil => simp at h
      | cons y ys =>
          simp only [List.length_cons, ngxMemcmp, List.map_cons, List.cons_lt_cons_iff]
          by_cases hxy : x = y
          · subst hxy
            simp only [if_true, lt_irrefl, true_and, false_or]
            exact ih ys (by simpa using h)
          · have hne : x.toNat ≠ y.toNat := fun h' => hxy (UInt8.toNat_inj.mp h')
            simp only [hxy, if_false, hne, false_and, or_false]
            omega

/-- On buffers of one length, a positive `ngx_memcmp` is the same order the
other way round. -/
theorem ngxMemcmp_pos_iff (a b : Bytes) (h : a.length = b.length) :
    0 < ngxMemcmp a b a.length ↔ b.map UInt8.toNat < a.map UInt8.toNat := by
  have hinj : a.map UInt8.toNat = b.map UInt8.toNat → a = b := fun he =>
    List.map_injective_iff.mpr (fun _ _ => UInt8.toNat_inj.mp) he
  have hneg := ngxMemcmp_neg_iff a b h
  have hzero := ngxMemcmp_eq_zero_iff a b h
  rcases lt_trichotomy (a.map UInt8.toNat) (b.map UInt8.toNat) with hlt | heq | hgt
  · have := hneg.mpr hlt
    simp only [not_lt_of_gt hlt, iff_false]
    omega
  · have := hzero.mpr (hinj heq)
    simp [heq, this]
  · have hnn := mt hneg.mp (not_lt_of_gt hgt)
    have hnz := mt hzero.mp (fun he => ne_of_gt hgt (by rw [he]))
    simp only [hgt, iff_true]
    omega

end HttpShield
