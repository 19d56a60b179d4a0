/-
  HttpShield.Ban.Blind
  ────────────────────
  The ban engine never reads the counter of denials.

  Two zones that differ in that counter alone run in lockstep through every call:
  each fails where the other does, answers the same, and leaves zones that again
  differ in the counter alone.  So nothing that is only counted, and not enforced,
  can change whom the zone bans.

    • `banIsBannedLocked_alike`, `banRecordLocked_alike` — the calls of a request,
    • `banCountHit_alike` — the counter itself.
-/
import HttpShield.Ban.Zone
import HttpShield.Lib.Lockstep

namespace HttpShield

open SearchTree Lockstep

/-! ## §1. Zones that differ in one counter. -/

/-- The zone with another number of denials. -/
def Zone.withBlocked (z : Zone) (n : UInt64) : Zone := { z with sh := { z.sh with blocked := n } }

/-- The zones are the same but for the number of denials. -/
def Zone.Alike (z z' : Zone) : Prop := ∃ n, z' = z.withBlocked n

/-- Two results of a call are alike: equal answers, and zones that differ only
in the number of denials. -/
def AlikeWith {α : Type} (x y : Zone × α) : Prop := x.1.Alike y.1 ∧ x.2 = y.2

theorem Zone.Alike.refl (z : Zone) : z.Alike z := ⟨z.sh.blocked, rfl⟩

variable {z z' : Zone}

theorem Zone.Alike.slab (h : z.Alike z') : z'.slab = z.slab := by
  obtain ⟨n, rfl⟩ := h
  rfl

theorem Zone.Alike.sh (h : z.Alike z') : z'.sh = { z.sh with blocked := z'.sh.blocked } := by
  obtain ⟨n, rfl⟩ := h
  rfl

theorem Zone.Alike.deref (h : z.Alike z') (p : Ptr) : z'.deref p = z.deref p := by
  obtain ⟨n, rfl⟩ := h
  rfl

/-- Reading one block of two alike zones gives the same node, so alike
continuations stay alike. -/
theorem Zone.Alike.read {γ δ : Type} {S : γ → δ → Prop} (h : z.Alike z') (p : Ptr)
    {f : BanNode → Except Fault γ} {g : BanNode → Except Fault δ}
    (hnext : ∀ bn, z.slab p = some bn → Together S (f bn) (g bn)) :
    Together S (z.deref p >>= f) (z'.deref p >>= g) := by
  rw [h.deref]
  unfold Zone.deref
  cases hbn : z.slab p with
  | none => exact .error _
  | some bn => exact hnext bn hbn

/-- Replacing the slab of both zones keeps them alike. -/
theorem Zone.Alike.setSlab (h : z.Alike z') (slab : Ptr → Option BanNode) :
    Zone.Alike { z with slab := slab } { z' with slab := slab } := by
  obtain ⟨n, rfl⟩ := h
  exact ⟨n, rfl⟩

theorem Zone.Alike.store (h : z.Alike z') (p : Ptr) (bn : BanNode) :
    Together Zone.Alike (z.store p bn) (z'.store p bn) := by
  unfold Zone.store
  apply h.read p
  intro _ _
  rw [h.slab]
  exact .ok (h.setSlab _)

theorem slabFree_alike (h : z.Alike z') (p : Ptr) :
    Together Zone.Alike (slabFree z p) (slabFree z' p) := by
  unfold slabFree
  apply h.read p
  intro _ _
  rw [h.slab]
  exact .ok (h.setSlab _)

/-! ## §2. The queue and the tree. -/

theorem ngxQueueNext_alike (h : z.Alike z') (q : QueuePtr) :
    ngxQueueNext z' q = ngxQueueNext z q := by
  obtain ⟨n, rfl⟩ := h
  cases q <;> rfl

theorem ngxQueuePrev_alike (h : z.Alike z') (q : QueuePtr) :
    ngxQueuePrev z' q = ngxQueuePrev z q := by
  obtain ⟨n, rfl⟩ := h
  cases q <;> rfl

theorem ngxQueueSetNext_alike (h : z.Alike z') (q v : QueuePtr) :
    Together Zone.Alike (ngxQueueSetNext z q v) (ngxQueueSetNext z' q v) := by
  cases q with
  | none =>
      obtain ⟨n, rfl⟩ := h
      exact .ok ⟨n, rfl⟩
  | some p => exact h.read p fun bn _ => h.store p _

theorem ngxQueueSetPrev_alike (h : z.Alike z') (q v : QueuePtr) :
    Together Zone.Alike (ngxQueueSetPrev z q v) (ngxQueueSetPrev z' q v) := by
  cases q with
  | none =>
      obtain ⟨n, rfl⟩ := h
      exact .ok ⟨n, rfl⟩
  | some p => exact h.read p fun bn _ => h.store p _

theorem ngxQueueRemove_alike (h : z.Alike z') (p : Ptr) :
    Together Zone.Alike (ngxQueueRemove z p) (ngxQueueRemove z' p) := by
  unfold ngxQueueRemove
  rw [ngxQueueNext_alike h, ngxQueuePrev_alike h]
  apply (together_self _).bind
  intro next _ hnext
  subst hnext
  apply (together_self _).bind
  intro prev _ hprev
  subst hprev
  apply (ngxQueueSetPrev_alike h next prev).bind
  intro _ _ h₁
  exact ngxQueueSetNext_alike h₁ prev next

theorem ngxQueueInsertHead_alike (h : z.Alike z') (p : Ptr) :
    Together Zone.Alike (ngxQueueInsertHead z p) (ngxQueueInsertHead z' p) := by
  unfold ngxQueueInsertHead
  rw [ngxQueueNext_alike h]
  apply (together_self _).bind
  intro first _ hfirst
  subst hfirst
  apply (ngxQueueSetNext_alike h (some p) first).bind
  intro _ _ h₁
  apply (ngxQueueSetPrev_alike h₁ first (some p)).bind
  intro _ _ h₂
  apply (ngxQueueSetPrev_alike h₂ (some p) none).bind
  intro _ _ h₃
  exact ngxQueueSetNext_alike h₃ none (some p)

theorem banRbtreeInsert_alike (h : z.Alike z') (p : Ptr) (t : RbTree Ptr) :
    banRbtreeInsert z' p t = banRbtreeInsert z p t := by
  induction t with
  | sentinel => rfl
  | node left color temp right ihl ihr =>
      unfold banRbtreeInsert
      rw [h.deref, h.deref, ihl, ihr]

theorem banFind_alike (h : z.Alike z') (hash : Nat) (addr : Bytes) (t : RbTree Ptr) :
    banFind z' hash addr t = banFind z hash addr t := by
  induction t with
  | sentinel => rfl
  | node left color temp right ihl ihr =>
      unfold banFind
      rw [h.deref, ihl, ihr]

/-- Replacing the tree of both zones keeps them alike. -/
theorem Zone.Alike.setTree (h : z.Alike z') (t : RbTree Ptr) :
    Zone.Alike { z with sh := { z.sh with rbtree := t } }
      { z' with sh := { z'.sh with rbtree := t } } := by
  obtain ⟨n, rfl⟩ := h
  exact ⟨n, rfl⟩

theorem ngxRbtreeInsert_alike (T : NgxRbtree) (h : z.Alike z') (p : Ptr) :
    Together Zone.Alike (ngxRbtreeInsert T z p) (ngxRbtreeInsert T z' p) := by
  have htree : z'.sh.rbtree = z.sh.rbtree := by rw [h.sh]
  unfold ngxRbtreeInsert
  rw [banRbtreeInsert_alike h, htree]
  apply (together_self _).bind
  intro t _ ht
  subst ht
  exact .ok (h.setTree _)

theorem ngxRbtreeDelete_alike (T : NgxRbtree) (h : z.Alike z') (p : Ptr) :
    Together Zone.Alike (ngxRbtreeDelete T z p) (ngxRbtreeDelete T z' p) := by
  have htree : z'.sh.rbtree = z.sh.rbtree := by rw [h.sh]
  unfold ngxRbtreeDelete
  apply h.read p
  intro _ _
  rw [htree]
  exact .ok (h.setTree _)

/-! ## §3. The engine. -/

/-- `banLookup` finds the same node in alike zones, and leaves alike zones. -/
theorem banLookup_alike (h : z.Alike z') (hash : Nat) (addr : Bytes) :
    Together AlikeWith (banLookup z hash addr) (banLookup z' hash addr) := by
  have htree : z'.sh.rbtree = z.sh.rbtree := by rw [h.sh]
  unfold banLookup
  rw [htree, banFind_alike h]
  apply (together_self _).bind
  intro found _ hfound
  subst hfound
  cases found with
  | none => exact .ok ⟨h, rfl⟩
  | some p =>
      apply (ngxQueueRemove_alike h p).bind
      intro _ _ h₁
      apply (ngxQueueInsertHead_alike h₁ p).bind
      intro _ _ h₂
      exact .ok ⟨h₂, rfl⟩

theorem banEvict_alike (T : NgxRbtree) (h : z.Alike z') (p : Ptr) :
    Together Zone.Alike (banEvict T z p) (banEvict T z' p) := by
  unfold banEvict
  apply (ngxQueueRemove_alike h p).bind
  intro _ _ h₁
  apply (ngxRbtreeDelete_alike T h₁ p).bind
  intro _ _ h₂
  exact slabFree_alike h₂ p

theorem banExpireLoop_alike (T : NgxRbtree) (now window : Int) :
    ∀ (fuel scanned evicted : Nat) (wrapped : Bool) (q : QueuePtr) {z z' : Zone}, z.Alike z' →
      Together AlikeWith (banExpireLoop T now window fuel scanned evicted wrapped q z)
        (banExpireLoop T now window fuel scanned evicted wrapped q z')
  | 0, _, _, _, _, _, _, _ => .error _
  | fuel + 1, scanned, evicted, wrapped, q, z, z', h => by
      unfold banExpireLoop
      apply Together.ite
      · intro _
        cases q with
        | none =>
            apply Together.ite
            · exact fun _ => .ok ⟨h, rfl⟩
            · intro _
              unfold ngxQueueLast
              rw [ngxQueuePrev_alike h]
              apply (together_self _).bind
              intro q _ hq
              subst hq
              exact banExpireLoop_alike T now window fuel scanned evicted true q h
        | some p =>
            show Together _ (ngxQueuePrev z (some p) >>= _) (ngxQueuePrev z' (some p) >>= _)
            rw [ngxQueuePrev_alike h]
            apply (together_self _).bind
            intro prev _ hprev
            subst hprev
            apply h.read p
            intro bn _
            apply Together.ite
            · intro _
              exact banExpireLoop_alike T now window fuel (scanned + 1) evicted wrapped prev h
            · intro _
              apply (banEvict_alike T h p).bind
              intro _ _ h₁
              exact banExpireLoop_alike T now window fuel (scanned + 1) (evicted + 1) wrapped prev
                h₁
      · exact fun _ => .ok ⟨h, rfl⟩

theorem banExpire_alike (T : NgxRbtree) (h : z.Alike z') (now window : Int) :
    Together Zone.Alike (banExpire T z now window) (banExpire T z' now window) := by
  have hcursor : z'.sh.cursor = z.sh.cursor := by rw [h.sh]
  have hstart : banExpireStart z' = banExpireStart z := by
    unfold banExpireStart ngxQueueLast
    rw [hcursor, ngxQueuePrev_alike h]
  unfold banExpire
  rw [hstart, hcursor]
  apply (together_self _).bind
  intro q _ hq
  subst hq
  apply (banExpireLoop_alike T now window _ _ _ _ q h).bind
  intro x y hxy
  obtain ⟨⟨n, hz⟩, hq⟩ := hxy
  refine .ok ⟨n, ?_⟩
  rw [hz, hq]
  rfl

/-- **A check answers the same in alike zones**, and leaves alike zones. -/
theorem banIsBannedLocked_alike (h : z.Alike z') (hash : Nat) (addr : Bytes) (now : Int) :
    Together AlikeWith (banIsBannedLocked z hash addr now)
      (banIsBannedLocked z' hash addr now) := by
  unfold banIsBannedLocked
  apply (banLookup_alike h hash addr).bind
  intro x y hxy
  obtain ⟨z₁, p⟩ := x
  obtain ⟨z₁', p'⟩ := y
  obtain ⟨h₁, hp⟩ := hxy
  obtain rfl : p = p' := hp
  cases p with
  | none => exact .ok ⟨h₁, rfl⟩
  | some p => exact Zone.Alike.read h₁ p fun bn _ => .ok ⟨h₁, rfl⟩

theorem banCreate_alike (T : NgxRbtree) (h : z.Alike z') (p : Ptr) (hash : Nat) (addr : Bytes)
    (now : Int) : Together Zone.Alike (banCreate T z p hash addr now)
      (banCreate T z' p hash addr now) := by
  unfold banCreate
  apply h.read p
  intro bn _
  apply (h.store p _).bind
  intro _ _ h₁
  apply (ngxRbtreeInsert_alike T h₁ p).bind
  intro _ _ h₂
  exact ngxQueueInsertHead_alike h₂ p

theorem banFindOrCreate_alike (T : NgxRbtree) (alloc : SlabAlloc) (h : z.Alike z') (hash : Nat)
    (addr : Bytes) (now window : Int) :
    Together AlikeWith (banFindOrCreate T alloc z hash addr now window)
      (banFindOrCreate T alloc z' hash addr now window) := by
  unfold banFindOrCreate
  apply (banLookup_alike h hash addr).bind
  intro x y hxy
  obtain ⟨z₁, p⟩ := x
  obtain ⟨z₁', p'⟩ := y
  obtain ⟨h₁, hp⟩ := hxy
  obtain rfl : p = p' := hp
  cases p with
  | some p => exact .ok ⟨h₁, rfl⟩
  | none =>
      apply (banExpire_alike T h₁ now window).bind
      intro z₂ z₂' h₂
      unfold slabAlloc
      rw [h₂.slab]
      cases hpick : alloc.pick z₂.slab with
      | none => exact .ok ⟨h₂, rfl⟩
      | some given =>
          obtain ⟨p, junk⟩ := given
          apply (banCreate_alike T (h₂.setSlab _) p hash addr now).bind
          intro _ _ h₃
          exact .ok ⟨h₃, rfl⟩

theorem banCount_alike (h : z.Alike z') (p : Ptr) (now : Int) (count : Nat) (window banTime : Int) :
    Together Zone.Alike (banCount z p now count window banTime)
      (banCount z' p now count window banTime) := by
  unfold banCount
  apply h.read p
  intro bn _
  apply Together.ite
  · intro _
    obtain ⟨n, rfl⟩ := h
    exact Zone.Alike.store ⟨n, rfl⟩ p _
  · exact fun _ => h.store p _

/-- **A record answers the same in alike zones**, and leaves alike zones. -/
theorem banRecordLocked_alike (T : NgxRbtree) (alloc : SlabAlloc) (h : z.Alike z') (hash : Nat)
    (addr : Bytes) (now : Int) (count : Nat) (window banTime : Int) :
    Together AlikeWith (banRecordLocked T alloc z hash addr now count window banTime)
      (banRecordLocked T alloc z' hash addr now count window banTime) := by
  unfold banRecordLocked
  apply (banFindOrCreate_alike T alloc h hash addr now window).bind
  intro x y hxy
  obtain ⟨z₁, p⟩ := x
  obtain ⟨z₁', p'⟩ := y
  obtain ⟨h₁, hp⟩ := hxy
  obtain rfl : p = p' := hp
  cases p with
  | none => exact .ok ⟨h₁, rfl⟩
  | some p =>
      apply (banCount_alike h₁ p now count window banTime).bind
      intro _ _ h₂
      exact .ok ⟨h₂, rfl⟩

/-- **The counters of a hit**, counted as a denial or not. -/
theorem banCountHit_alike (h : z.Alike z') (cat : Nat) (blocked blocked' : Bool) :
    (banCountHit z cat blocked).Alike (banCountHit z' cat blocked') := by
  obtain ⟨n, rfl⟩ := h
  unfold banCountHit
  by_cases hcat : cat < banNcounters
  · cases blocked <;> cases blocked' <;> simp only [dif_pos hcat] <;> exact ⟨_, rfl⟩
  · cases blocked <;> cases blocked' <;> simp only [dif_neg hcat] <;> exact ⟨_, rfl⟩

end HttpShield
