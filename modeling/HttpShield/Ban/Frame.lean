/-
  HttpShield.Ban.Frame
  ────────────────────
  What the calls on the ban zone leave alone, read off their steps.

  Whatever state a call is made in, if it returns:

    • `banLookup_trims`, `banIsBannedLocked_trims`, `banExpire_trims` — it frees
      blocks and rewrites queue links at most; a block still in use keeps its
      fields, and every counter is what it was,
    • `banRecordLocked_totals` — a record keeps the hit counters and adds at most
      one to the bans total.
-/
import HttpShield.Ban.Queue

namespace HttpShield

/-! ## §1. Frames. -/

/-- The status counters are what they were, the bans total apart. -/
structure Zone.SameHits (z z' : Zone) : Prop where
  catHits : z'.sh.catHits = z.sh.catHits
  blocked : z'.sh.blocked = z.sh.blocked

theorem Zone.SameHits.refl (z : Zone) : z.SameHits z := ⟨rfl, rfl⟩

theorem Zone.SameHits.trans {z₀ z₁ z₂ : Zone} (h₁ : z₀.SameHits z₁) (h₂ : z₁.SameHits z₂) :
    z₀.SameHits z₂ := ⟨h₂.catHits.trans h₁.catHits, h₂.blocked.trans h₁.blocked⟩

/-- Every block in use was in use before and holds what it held, its queue links
apart; the counters of the zone are what they were. -/
structure Zone.Trims (z z' : Zone) : Prop extends Zone.SameHits z z' where
  slab : ∀ p bn', z'.slab p = some bn' →
    ∃ bn, z.slab p = some bn ∧ bn' = { bn with queue := bn'.queue }
  bans : z'.sh.bans = z.sh.bans

theorem Zone.Trims.refl (z : Zone) : z.Trims z where
  toSameHits := .refl z
  slab _ bn' h := ⟨bn', h, rfl⟩
  bans := rfl

theorem Zone.Trims.trans {z₀ z₁ z₂ : Zone} (h₁ : z₀.Trims z₁) (h₂ : z₁.Trims z₂) :
    z₀.Trims z₂ where
  toSameHits := h₁.toSameHits.trans h₂.toSameHits
  slab p bn₂ h := by
    obtain ⟨bn₁, hbn₁, heq₂⟩ := h₂.slab p bn₂ h
    obtain ⟨bn₀, hbn₀, heq₁⟩ := h₁.slab p bn₁ hbn₁
    refine ⟨bn₀, hbn₀, ?_⟩
    rw [heq₁] at heq₂
    exact heq₂
  bans := h₂.bans.trans h₁.bans

theorem Zone.deref_ok {z : Zone} {p : Ptr} {bn : BanNode} (h : z.deref p = .ok bn) :
    z.slab p = some bn := by
  unfold Zone.deref at h
  split at h
  · rename_i bn' hbn
    obtain rfl : bn' = bn := by simpa using h
    exact hbn
  · cases h

/-- Rewriting the queue links of a node changes neither its entry nor any counter. -/
theorem Zone.store_trims {z z' : Zone} {p : Ptr} {bn : BanNode} (hbn : z.slab p = some bn)
    (q : NgxQueue) (h : z.store p { bn with queue := q } = .ok z') : z.Trims z' := by
  rw [Zone.store_eq (by simp [hbn])] at h
  obtain rfl := Except.ok.inj h
  refine ⟨⟨rfl, rfl⟩, fun p' bn' h' => ?_, rfl⟩
  by_cases hp : p' = p
  · subst hp
    obtain rfl : { bn with queue := q } = bn' := by simpa using h'
    exact ⟨bn, hbn, rfl⟩
  · exact ⟨bn', (Function.update_of_ne hp _ _).symm.trans h', rfl⟩

theorem ngxQueueSetNext_trims {z z' : Zone} {q v : QueuePtr}
    (h : ngxQueueSetNext z q v = .ok z') : z.Trims z' := by
  cases q with
  | none =>
      obtain rfl := Except.ok.inj h
      exact ⟨⟨rfl, rfl⟩, fun _ bn' hbn' => ⟨bn', hbn', rfl⟩, rfl⟩
  | some p =>
      obtain ⟨bn, hderef, hstore⟩ := bind_eq_ok h
      exact Zone.store_trims (Zone.deref_ok hderef) _ hstore

theorem ngxQueueSetPrev_trims {z z' : Zone} {q v : QueuePtr}
    (h : ngxQueueSetPrev z q v = .ok z') : z.Trims z' := by
  cases q with
  | none =>
      obtain rfl := Except.ok.inj h
      exact ⟨⟨rfl, rfl⟩, fun _ bn' hbn' => ⟨bn', hbn', rfl⟩, rfl⟩
  | some p =>
      obtain ⟨bn, hderef, hstore⟩ := bind_eq_ok h
      exact Zone.store_trims (Zone.deref_ok hderef) _ hstore

/-! ## §2. Unlinking, relinking, evicting. -/

theorem ngxQueueRemove_trims {z z' : Zone} {p : Ptr} (h : ngxQueueRemove z p = .ok z') :
    z.Trims z' := by
  obtain ⟨next, -, h⟩ := bind_eq_ok h
  obtain ⟨prev, -, h⟩ := bind_eq_ok h
  obtain ⟨z₁, hsetPrev, hsetNext⟩ := bind_eq_ok h
  exact (ngxQueueSetPrev_trims hsetPrev).trans (ngxQueueSetNext_trims hsetNext)

theorem ngxQueueInsertHead_trims {z z' : Zone} {p : Ptr}
    (h : ngxQueueInsertHead z p = .ok z') : z.Trims z' := by
  obtain ⟨first, -, h⟩ := bind_eq_ok h
  obtain ⟨z₁, h₁, h⟩ := bind_eq_ok h
  obtain ⟨z₂, h₂, h⟩ := bind_eq_ok h
  obtain ⟨z₃, h₃, h₄⟩ := bind_eq_ok h
  exact (((ngxQueueSetNext_trims h₁).trans (ngxQueueSetPrev_trims h₂)).trans
    (ngxQueueSetPrev_trims h₃)).trans (ngxQueueSetNext_trims h₄)

theorem banEvict_trims (T : NgxRbtree) {z z' : Zone} {p : Ptr} (h : banEvict T z p = .ok z') :
    z.Trims z' := by
  obtain ⟨z₁, hremove, h⟩ := bind_eq_ok h
  obtain ⟨z₂, hdelete, hfree⟩ := bind_eq_ok h
  -- take it out of the tree
  obtain ⟨-, -, hdelete⟩ := bind_eq_ok hdelete
  obtain rfl := Except.ok.inj hdelete
  -- free it
  obtain ⟨-, -, hfree⟩ := bind_eq_ok hfree
  obtain rfl := Except.ok.inj hfree
  refine (ngxQueueRemove_trims hremove).trans ⟨⟨rfl, rfl⟩, fun p' bn' h' => ?_, rfl⟩
  by_cases hp : p' = p
  · subst hp
    simp at h'
  · exact ⟨bn', (Function.update_of_ne hp _ _).symm.trans h', rfl⟩

theorem banExpireLoop_trims (T : NgxRbtree) (now window : Int) {z' : Zone} {q' : QueuePtr} :
    ∀ (fuel scanned evicted : Nat) (wrapped : Bool) (q : QueuePtr) (z : Zone),
      banExpireLoop T now window fuel scanned evicted wrapped q z = .ok (z', q') → z.Trims z' := by
  intro fuel
  induction fuel with
  | zero => intro _ _ _ _ _ h; simp [banExpireLoop] at h
  | succ fuel ih =>
      intro scanned evicted wrapped q z h
      cases q with
      | none =>
          simp only [banExpireLoop] at h
          split at h
          · split at h
            · obtain ⟨rfl, -⟩ : z = z' ∧ none = q' := by simpa using h
              exact .refl z
            · obtain ⟨last, -, h⟩ := bind_eq_ok h
              exact ih _ _ _ _ _ h
          · obtain ⟨rfl, -⟩ : z = z' ∧ none = q' := by simpa using h
            exact .refl z
      | some p =>
          simp only [banExpireLoop] at h
          split at h
          · obtain ⟨prev, -, h⟩ := bind_eq_ok h
            obtain ⟨bn, -, h⟩ := bind_eq_ok h
            split at h
            · exact ih _ _ _ _ _ h
            · obtain ⟨z₁, hevict, h⟩ := bind_eq_ok h
              exact (banEvict_trims T hevict).trans (ih _ _ _ _ _ h)
          · obtain ⟨rfl, -⟩ : z = z' ∧ some p = q' := by simpa using h
            exact .refl z

/-- **An eviction call frees blocks and rewrites queue links**, and changes nothing
else in a block. -/
theorem banExpire_trims (T : NgxRbtree) {z z' : Zone} {now window : Int}
    (h : banExpire T z now window = .ok z') : z.Trims z' := by
  obtain ⟨q, -, h⟩ := bind_eq_ok h
  obtain ⟨⟨z₁, q₁⟩, hloop, h⟩ := bind_eq_ok h
  obtain rfl := Except.ok.inj h
  have htrims := banExpireLoop_trims T now window _ _ _ _ _ _ hloop
  exact ⟨⟨htrims.catHits, htrims.blocked⟩, htrims.slab, htrims.bans⟩

theorem banLookup_trims {z z' : Zone} {h : Nat} {addr : Bytes} {p : Option Ptr}
    (hlook : banLookup z h addr = .ok (z', p)) : z.Trims z' := by
  obtain ⟨found, -, hlook⟩ := bind_eq_ok hlook
  cases found with
  | none =>
      obtain ⟨rfl, -⟩ : z = z' ∧ none = p := by simpa using hlook
      exact .refl z
  | some q =>
      obtain ⟨z₁, hremove, hlook⟩ := bind_eq_ok hlook
      obtain ⟨z₂, hinsert, hlook⟩ := bind_eq_ok hlook
      obtain ⟨rfl, -⟩ : z₂ = z' ∧ some q = p := by simpa using hlook
      exact (ngxQueueRemove_trims hremove).trans (ngxQueueInsertHead_trims hinsert)

/-- **A check changes no counter.** -/
theorem banIsBannedLocked_trims {z z' : Zone} {h : Nat} {addr : Bytes} {now : Int} {b : Bool}
    (hban : banIsBannedLocked z h addr now = .ok (z', b)) : z.Trims z' := by
  obtain ⟨⟨z₁, found⟩, hlook, hban⟩ := bind_eq_ok hban
  cases found with
  | none =>
      obtain ⟨rfl, -⟩ : z₁ = z' ∧ false = b := by simpa using hban
      exact banLookup_trims hlook
  | some q =>
      obtain ⟨bn, -, hban⟩ := bind_eq_ok hban
      obtain ⟨rfl, -⟩ : z₁ = z' ∧ decide (bn.bannedUntil > now) = b := by simpa using hban
      exact banLookup_trims hlook

/-! ## §3. Recording a hit. -/

/-- Writing a block changes no counter. -/
theorem Zone.store_sh {z z' : Zone} {p : Ptr} {bn : BanNode} (h : z.store p bn = .ok z') :
    z'.sh = z.sh := by
  obtain ⟨-, -, h⟩ := bind_eq_ok h
  obtain rfl := Except.ok.inj h
  rfl

/-- Creating a node: the block is filled, and then the tree takes it in and the queue
links it. -/
theorem banCreate_ok {T : NgxRbtree} {z z' : Zone} {p : Ptr} {h : Nat} {addr : Bytes} {now : Int}
    (hcreate : banCreate T z p h addr now = .ok z') :
    ∃ (bn : BanNode) (z₁ : Zone) (t : SearchTree.RbTree Ptr),
      z.store p { bn with
        key := h
        len := addr.length
        addr := ngxMemcpy bn.addr addr
        hits := 0
        bannedUntil := 0
        windowStart := now } = .ok z₁
      ∧ Zone.Trims { z₁ with sh := { z₁.sh with rbtree := t } } z' := by
  obtain ⟨bn, -, hcreate⟩ := bind_eq_ok hcreate
  obtain ⟨z₁, hstore, hcreate⟩ := bind_eq_ok hcreate
  obtain ⟨z₂, hinsert, hhead⟩ := bind_eq_ok hcreate
  obtain ⟨t, -, hinsert⟩ := bind_eq_ok hinsert
  obtain rfl := Except.ok.inj hinsert
  exact ⟨bn, z₁, _, hstore, ngxQueueInsertHead_trims hhead⟩

/-- Creating a node changes no counter. -/
theorem banCreate_totals {T : NgxRbtree} {z z' : Zone} {p : Ptr} {h : Nat} {addr : Bytes}
    {now : Int} (hcreate : banCreate T z p h addr now = .ok z') :
    z.SameHits z' ∧ z'.sh.bans = z.sh.bans := by
  obtain ⟨bn, z₁, t, hstore, htrims⟩ := banCreate_ok hcreate
  have hsh := Zone.store_sh hstore
  refine ⟨⟨?_, ?_⟩, ?_⟩
  · rw [htrims.catHits, ← hsh]
  · rw [htrims.blocked, ← hsh]
  · rw [htrims.bans, ← hsh]

/-- The node that is counted on was there, or there is none, and only the sweep changed the
zone; or a node was created, in a block of the slab. -/
theorem banFindOrCreate_cases {T : NgxRbtree} {alloc : SlabAlloc} {z z' : Zone} {h : Nat}
    {addr : Bytes} {now window : Int} {p : Option Ptr}
    (hfind : banFindOrCreate T alloc z h addr now window = .ok (z', p)) :
    ∃ z₁, z.Trims z₁ ∧ (z' = z₁ ∨ ∃ q junk,
      banCreate T { z₁ with slab := Function.update z₁.slab q (some junk) } q h addr now
        = .ok z') := by
  obtain ⟨⟨z₁, found⟩, hlook, hfind⟩ := bind_eq_ok hfind
  have htrims := banLookup_trims hlook
  cases found with
  | some q =>
      obtain ⟨rfl, -⟩ : z₁ = z' ∧ some q = p := by simpa using hfind
      exact ⟨z₁, htrims, .inl rfl⟩
  | none =>
      obtain ⟨z₂, hexp, hfind⟩ := bind_eq_ok hfind
      have hswept := htrims.trans (banExpire_trims T hexp)
      simp only [slabAlloc] at hfind
      cases hpick : alloc.pick z₂.slab with
      | none =>
          obtain ⟨rfl, -⟩ : z₂ = z' ∧ none = p := by simpa [hpick] using hfind
          exact ⟨z₂, hswept, .inl rfl⟩
      | some pj =>
          simp only [hpick] at hfind
          obtain ⟨z₃, hcreate, hfind⟩ := bind_eq_ok hfind
          obtain ⟨rfl, -⟩ : z₃ = z' ∧ some pj.1 = p := by simpa using hfind
          exact ⟨z₂, hswept, .inr ⟨pj.1, pj.2, hcreate⟩⟩

theorem banFindOrCreate_totals {T : NgxRbtree} {alloc : SlabAlloc} {z z' : Zone} {h : Nat}
    {addr : Bytes} {now window : Int} {p : Option Ptr}
    (hfind : banFindOrCreate T alloc z h addr now window = .ok (z', p)) :
    z.SameHits z' ∧ z'.sh.bans = z.sh.bans := by
  obtain ⟨z₁, htrims, rfl | ⟨q, junk, hcreate⟩⟩ := banFindOrCreate_cases hfind
  · exact ⟨htrims.toSameHits, htrims.bans⟩
  · obtain ⟨hhits, hbans⟩ := banCreate_totals hcreate
    exact ⟨htrims.toSameHits.trans ⟨hhits.catHits, hhits.blocked⟩, hbans.trans htrims.bans⟩

/-- **Recording a hit** leaves the hit counters, and adds at most one to the bans
total. -/
theorem banRecordLocked_totals {T : NgxRbtree} {alloc : SlabAlloc} {z z' : Zone} {h : Nat}
    {addr : Bytes} {now : Int} {count : Nat} {window banTime : Int} {rc : Int}
    (hrec : banRecordLocked T alloc z h addr now count window banTime = .ok (z', rc)) :
    z.SameHits z' ∧ (z'.sh.bans = z.sh.bans ∨ z'.sh.bans = z.sh.bans + 1) := by
  obtain ⟨⟨z₁, found⟩, hfind, hrec⟩ := bind_eq_ok hrec
  obtain ⟨hhits, hbans⟩ := banFindOrCreate_totals hfind
  cases found with
  | none =>
      obtain ⟨rfl, -⟩ : z₁ = z' ∧ ngxError = rc := by simpa using hrec
      exact ⟨hhits, .inl hbans⟩
  | some p =>
      obtain ⟨z₂, hcount, hrec⟩ := bind_eq_ok hrec
      obtain ⟨rfl, -⟩ : z₂ = z' ∧ ngxOk = rc := by simpa using hrec
      obtain ⟨bn, -, hcount⟩ := bind_eq_ok hcount
      dsimp only at hcount
      split at hcount
      · have hsh := Zone.store_sh hcount
        refine ⟨hhits.trans ⟨?_, ?_⟩, .inr ?_⟩
        · rw [hsh]
        · rw [hsh]
        · rw [hsh, ← hbans]
      · have hsh := Zone.store_sh hcount
        refine ⟨hhits.trans ⟨?_, ?_⟩, .inl ?_⟩
        · rw [hsh]
        · rw [hsh]
        · rw [hsh, hbans]

/-- A counter that goes up with each of some events goes up by their number. -/
theorem add_countP_cons {α : Type} (p : α → Bool) (a : α) (l : List α) (n : UInt64) :
    n + (if p a then 1 else 0) + UInt64.ofNat (l.countP p)
      = n + UInt64.ofNat ((a :: l).countP p) := by
  rw [List.countP_cons, Nat.add_comm, UInt64.ofNat_add, UInt64.add_assoc]
  congr 2
  split <;> rfl

end HttpShield
