/-
  HttpShield.Ban.Order
  ────────────────────
  The order the ban tree is kept in: by hash, then by address length, then by
  address bytes.

  The search of `banFind` and the comparator of `banRbtreeInsert` are written
  separately, and disagreeing on one collision would lose a node for good.
  Both are compared here with one linear order, `Addr.rank`:

    • `BanNode.Holds.probe_lt_iff` / `probe_gt_iff` — the search goes left
      (right) exactly below (above) the node's rank,
    • `BanNode.Holds.goesLeft_eq` — the comparator goes left exactly below,
    • `Addr.rank_injective` — no two addresses share a rank, whatever the hash.
-/
import HttpShield.Ban.Zone
import Mathlib.Data.Prod.Lex

namespace HttpShield

open SearchTree

/-! ## §1. The order of the tree: hash, then length, then bytes. -/

/-- The key the tree is searched by. -/
abbrev Rank := ℕ ×ₗ (ℕ ×ₗ List ℕ)

/-- Where an address stands in the tree. -/
def Addr.rank (hash : Addr → Nat) (a : Addr) : Rank :=
  toLex (hash a, toLex (a.bytes.length, a.bytes.map UInt8.toNat))

theorem Addr.rank_lt_iff (hash : Addr → Nat) (a b : Addr) :
    a.rank hash < b.rank hash ↔
      hash a < hash b ∨ hash a = hash b ∧ (a.bytes.length < b.bytes.length
        ∨ a.bytes.length = b.bytes.length ∧ a.bytes.map UInt8.toNat < b.bytes.map UInt8.toNat) := by
  simp only [Addr.rank, Prod.Lex.toLex_lt_toLex]

/-- The rank determines the address: no two addresses share a place. -/
theorem Addr.rank_injective (hash : Addr → Nat) : Function.Injective (Addr.rank hash) := by
  rintro ⟨a, ha⟩ ⟨b, hb⟩ h
  have hbytes : a.map UInt8.toNat = b.map UInt8.toNat := by
    simp only [Addr.rank, toLex_inj, Prod.mk.injEq] at h
    exact h.2.2
  have hab : a = b := List.map_injective_iff.mpr (fun _ _ => UInt8.toNat_inj.mp) hbytes
  subst hab
  rfl

/-- The address a node stores. -/
def BanNode.address (bn : BanNode) : Addr where
  bytes := (bn.addr.take bn.len).take 16
  fits := by simp

/-- A node that was filled in for the address it stores. -/
structure BanNode.Holds (hash : Addr → Nat) (bn : BanNode) : Prop where
  key : bn.key = hash bn.address
  len : bn.address.bytes.length = bn.len

theorem BanNode.Holds.take_addr {hash : Addr → Nat} {bn : BanNode} (h : bn.Holds hash) :
    bn.addr.take bn.len = bn.address.bytes := by
  have hlen : bn.len ≤ 16 := by rw [← h.len]; exact bn.address.fits
  simp [BanNode.address, List.take_take, Nat.min_eq_right hlen]

/-- The three branches a C comparison result is split into. -/
def signOrdering (rc : Int) : Ordering := if rc = 0 then .eq else if rc < 0 then .lt else .gt

theorem signOrdering_lt_iff (rc : Int) : signOrdering rc = .lt ↔ rc < 0 := by
  unfold signOrdering
  split
  · simp_all
  · split <;> simp_all

theorem signOrdering_gt_iff (rc : Int) : signOrdering rc = .gt ↔ 0 < rc := by
  unfold signOrdering
  split
  · simp_all
  · split
    · simp only [reduceCtorEq, false_iff]; omega
    · simp only [true_iff]; omega

/-- The comparison `banFind` makes at one node. -/
def BanNode.probe (bn : BanNode) (hash : Nat) (addr : Bytes) : Ordering :=
  if hash < bn.key then .lt
  else if hash > bn.key then .gt
  else signOrdering (if (addr.length : Int) - (bn.len : Int) = 0
    then ngxMemcmp addr bn.addr addr.length else (addr.length : Int) - (bn.len : Int))

/-- The comparison `banRbtreeInsert` makes between the new node and one of the
tree: does the new node go left? -/
def BanNode.goesLeft (bn bnt : BanNode) : Bool :=
  if bn.key < bnt.key then true
  else if bn.key > bnt.key then false
  else bn.len < bnt.len ∨ (bn.len = bnt.len ∧ ngxMemcmp bn.addr bnt.addr bn.len < 0)

/-- The sign `banFind` decides on among nodes of one hash. -/
private theorem collision_sign {hash : Addr → Nat} {bn : BanNode} (h : bn.Holds hash) (a : Addr)
    (rc : Int) (hrc : rc = if (a.bytes.length : Int) - (bn.len : Int) = 0
      then ngxMemcmp a.bytes bn.addr a.bytes.length else (a.bytes.length : Int) - (bn.len : Int)) :
    (rc < 0 ↔ a.bytes.length < bn.address.bytes.length ∨ a.bytes.length = bn.address.bytes.length
        ∧ a.bytes.map UInt8.toNat < bn.address.bytes.map UInt8.toNat)
      ∧ (0 < rc ↔ bn.address.bytes.length < a.bytes.length
        ∨ bn.address.bytes.length = a.bytes.length
          ∧ bn.address.bytes.map UInt8.toNat < a.bytes.map UInt8.toNat) := by
  have hmem : ngxMemcmp a.bytes bn.addr bn.len = ngxMemcmp a.bytes bn.address.bytes bn.len := by
    rw [← h.take_addr, ngxMemcmp_take_right]
  rw [← h.len] at hrc hmem
  by_cases hl : a.bytes.length = bn.address.bytes.length
  · have hrc' : rc = ngxMemcmp a.bytes bn.address.bytes a.bytes.length := by
      rw [hrc, if_pos (by omega), hl, hmem]
    rw [hrc', ngxMemcmp_neg_iff _ _ hl, ngxMemcmp_pos_iff _ _ hl]
    simp [hl]
  · rw [if_neg (by omega)] at hrc
    simp only [hl, Ne.symm hl, false_and, or_false]
    omega

theorem BanNode.Holds.probe_lt_iff {hash : Addr → Nat} {bn : BanNode} (h : bn.Holds hash)
    (a : Addr) : bn.probe (hash a) a.bytes = .lt ↔ a.rank hash < bn.address.rank hash := by
  rw [Addr.rank_lt_iff, BanNode.probe, h.key]
  rcases lt_trichotomy (hash a) (hash bn.address) with hk | hk | hk
  · simp [hk]
  · rw [if_neg (by omega), if_neg (by omega), signOrdering_lt_iff, (collision_sign h a _ rfl).1]
    simp [hk]
  · simp [hk, not_lt_of_gt hk, ne_of_gt hk]

theorem BanNode.Holds.probe_gt_iff {hash : Addr → Nat} {bn : BanNode} (h : bn.Holds hash)
    (a : Addr) : bn.probe (hash a) a.bytes = .gt ↔ bn.address.rank hash < a.rank hash := by
  rw [Addr.rank_lt_iff, BanNode.probe, h.key]
  rcases lt_trichotomy (hash a) (hash bn.address) with hk | hk | hk
  · simp [hk, not_lt_of_gt hk, ne_of_gt hk]
  · rw [if_neg (by omega), if_neg (by omega), signOrdering_gt_iff, (collision_sign h a _ rfl).2]
    simp [hk]
  · simp [hk, not_lt_of_gt hk]

/-- **Search order and insertion order agree.**  The comparator of the insert,
written separately from the one of the lookup, goes left exactly below. -/
theorem BanNode.Holds.goesLeft_eq {hash : Addr → Nat} {bn bnt : BanNode} (h : bn.Holds hash)
    (ht : bnt.Holds hash) :
    bn.goesLeft bnt = decide (bn.address.rank hash < bnt.address.rank hash) := by
  have hmem : ngxMemcmp bn.addr bnt.addr bn.len
      = ngxMemcmp bn.address.bytes bnt.addr bn.len := by
    rw [← h.take_addr, ngxMemcmp_take_left]
  rw [Bool.eq_iff_iff, decide_eq_true_iff, Addr.rank_lt_iff, BanNode.goesLeft, h.key, ht.key]
  rcases lt_trichotomy (hash bn.address) (hash bnt.address) with hk | hk | hk
  · simp [hk]
  · rw [if_neg (by omega), if_neg (by omega), decide_eq_true_iff, h.len, ht.len]
    simp only [hk, lt_irrefl, true_and, false_or]
    refine or_congr_right (and_congr_right fun hl => ?_)
    have hl' : bn.address.bytes.length = bnt.address.bytes.length := by rw [h.len, ht.len, hl]
    have hmem' : ngxMemcmp bn.address.bytes bnt.addr bn.len
        = ngxMemcmp bn.address.bytes bnt.address.bytes bn.len := by
      rw [← ht.take_addr, ← hl, ngxMemcmp_take_right]
    rw [hmem, hmem', ← h.len, ngxMemcmp_neg_iff _ _ hl']
  · simp [hk, not_lt_of_gt hk, ne_of_gt hk]

end HttpShield
