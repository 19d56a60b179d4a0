/-
  HttpShield.Ban.Queue
  ────────────────────
  The LRU queue operations of the zone are the pointer updates of
  `LinkedQueue`.

  `Zone.links` is the pointer picture a zone holds, `Zone.relink` overwrites
  all links of the live nodes at once and touches nothing else.  Every
  `ngx_queue_*` call on readable pointers is one `relink`, so what it leaves
  alone (tree, cursor, counters, node contents) is read off `relink` and never
  argued again:

    • `ngxQueueRemove_eq`, `ngxQueueInsertHead_eq` — the two calls as `relink`s,
    • `Zone.moveToHead_ok` — remove followed by insert-head on a member: what
      `banLookup` does to the node it found.
-/
import HttpShield.Ban.Zone

namespace HttpShield

open SearchTree LinkedQueue

/-! ## §1. The pointer picture of a zone. -/

/-- The links as they stand in memory; a block that is not live has none. -/
def Zone.links (z : Zone) : Links Ptr where
  next
    | none => z.sh.queue.next
    | some p => (z.slab p).bind (fun bn => bn.queue.next)
  prev
    | none => z.sh.queue.prev
    | some p => (z.slab p).bind (fun bn => bn.queue.prev)

/-- Overwrite the links of the head and of every live node. -/
def Zone.relink (z : Zone) (L : Links Ptr) : Zone where
  sh := { z.sh with queue := { prev := L.prev none, next := L.next none } }
  slab := fun p => (z.slab p).map fun bn =>
    { bn with queue := { prev := L.prev (some p), next := L.next (some p) } }

/-- A queue pointer that may be dereferenced: the head, or a live node. -/
def Zone.Readable (z : Zone) (q : QueuePtr) : Prop := ∀ p, q = some p → (z.slab p).isSome

@[simp] theorem Zone.relink_rbtree (z : Zone) (L : Links Ptr) :
    (z.relink L).sh.rbtree = z.sh.rbtree := rfl

@[simp] theorem Zone.relink_cursor (z : Zone) (L : Links Ptr) :
    (z.relink L).sh.cursor = z.sh.cursor := rfl

@[simp] theorem Zone.relink_bans (z : Zone) (L : Links Ptr) :
    (z.relink L).sh.bans = z.sh.bans := rfl

@[simp] theorem Zone.relink_isSome (z : Zone) (L : Links Ptr) (p : Ptr) :
    ((z.relink L).slab p).isSome = (z.slab p).isSome := by
  simp [Zone.relink]

/-- Overwriting twice keeps only the second picture. -/
@[simp] theorem Zone.relink_relink (z : Zone) (L L' : Links Ptr) :
    (z.relink L).relink L' = z.relink L' := by
  simp [Zone.relink, Function.comp_def]

theorem Zone.relink_readable (z : Zone) (L : Links Ptr) (q : QueuePtr) :
    (z.relink L).Readable q ↔ z.Readable q := by
  simp [Zone.Readable]

/-- A pointer picture that says nothing about blocks that are not live. -/
def Zone.Covers (z : Zone) (L : Links Ptr) : Prop :=
  ∀ p, z.slab p = none → L.next (some p) = none ∧ L.prev (some p) = none

theorem Zone.covers_links (z : Zone) : z.Covers z.links := by
  intro p hp
  simp [Zone.links, hp]

theorem Zone.Readable.ne_some {z : Zone} {q : QueuePtr} (h : z.Readable q) {p : Ptr}
    (hp : z.slab p = none) : some p ≠ q := by
  intro heq
  subst heq
  have := h p rfl
  simp [hp] at this

theorem Zone.Covers.setNext {z : Zone} {L : Links Ptr} (hc : z.Covers L) {q : QueuePtr}
    (hq : z.Readable q) (v : QueuePtr) : z.Covers (L.setNext q v) := by
  intro p hp
  refine ⟨?_, (hc p hp).2⟩
  rw [L.setNext_next_of_ne v (hq.ne_some hp)]
  exact (hc p hp).1

theorem Zone.Covers.setPrev {z : Zone} {L : Links Ptr} (hc : z.Covers L) {q : QueuePtr}
    (hq : z.Readable q) (v : QueuePtr) : z.Covers (L.setPrev q v) := by
  intro p hp
  refine ⟨(hc p hp).1, ?_⟩
  rw [L.setPrev_prev_of_ne v (hq.ne_some hp)]
  exact (hc p hp).2

/-- The links of a zone whose links were overwritten with `L` are `L`. -/
theorem Zone.links_relink {z : Zone} {L : Links Ptr} (hc : z.Covers L) :
    (z.relink L).links = L := by
  have hnext : (z.relink L).links.next = L.next := by
    funext q
    cases q with
    | none => rfl
    | some p =>
        show ((z.slab p).map _).bind _ = _
        cases hp : z.slab p with
        | none => simp [(hc p hp).1]
        | some bn => simp
  have hprev : (z.relink L).links.prev = L.prev := by
    funext q
    cases q with
    | none => rfl
    | some p =>
        show ((z.slab p).map _).bind _ = _
        cases hp : z.slab p with
        | none => simp [(hc p hp).2]
        | some bn => simp
  calc (z.relink L).links = ⟨(z.relink L).links.next, (z.relink L).links.prev⟩ := rfl
    _ = ⟨L.next, L.prev⟩ := by rw [hnext, hprev]
    _ = L := rfl

/-! ## §2. One pointer read, one pointer write. -/

theorem Zone.deref_eq {z : Zone} {p : Ptr} {bn : BanNode} (h : z.slab p = some bn) :
    z.deref p = .ok bn := by
  simp [Zone.deref, h]

theorem Zone.store_eq {z : Zone} {p : Ptr} (h : (z.slab p).isSome) (bn : BanNode) :
    z.store p bn = .ok { z with slab := Function.update z.slab p (some bn) } := by
  obtain ⟨old, hold⟩ := Option.isSome_iff_exists.mp h
  simp [Zone.store, Zone.deref_eq hold]

theorem slabFree_eq {z : Zone} {p : Ptr} (h : (z.slab p).isSome) :
    slabFree z p = .ok { z with slab := Function.update z.slab p none } := by
  obtain ⟨old, hold⟩ := Option.isSome_iff_exists.mp h
  simp [slabFree, Zone.deref_eq hold]

theorem ngxRbtreeDelete_eq (T : NgxRbtree) {z : Zone} {p : Ptr} (h : (z.slab p).isSome) :
    ngxRbtreeDelete T z p
      = .ok { z with sh := { z.sh with rbtree := T.delete z.sh.rbtree p } } := by
  obtain ⟨old, hold⟩ := Option.isSome_iff_exists.mp h
  simp [ngxRbtreeDelete, Zone.deref_eq hold]

theorem ngxQueueNext_eq {z : Zone} {q : QueuePtr} (h : z.Readable q) :
    ngxQueueNext z q = .ok (z.links.next q) := by
  cases q with
  | none => rfl
  | some p =>
      obtain ⟨bn, hbn⟩ := Option.isSome_iff_exists.mp (h p rfl)
      simp [ngxQueueNext, Zone.deref_eq hbn, Zone.links, hbn]

theorem ngxQueuePrev_eq {z : Zone} {q : QueuePtr} (h : z.Readable q) :
    ngxQueuePrev z q = .ok (z.links.prev q) := by
  cases q with
  | none => rfl
  | some p =>
      obtain ⟨bn, hbn⟩ := Option.isSome_iff_exists.mp (h p rfl)
      simp [ngxQueuePrev, Zone.deref_eq hbn, Zone.links, hbn]

/-- Writing back the links a node already has changes nothing, apart from the
one node and field that differ. -/
private theorem relink_slab_of_agree {z : Zone} {L : Links Ptr} {p : Ptr}
    (hn : L.next (some p) = z.links.next (some p)) (hp : L.prev (some p) = z.links.prev (some p)) :
    (z.relink L).slab p = z.slab p := by
  show (z.slab p).map _ = _
  cases hs : z.slab p with
  | none => rfl
  | some bn =>
      have hn' : L.next (some p) = bn.queue.next := by rw [hn]; simp [Zone.links, hs]
      have hp' : L.prev (some p) = bn.queue.prev := by rw [hp]; simp [Zone.links, hs]
      simp [hn', hp']

theorem ngxQueueSetNext_eq {z : Zone} {q : QueuePtr} (h : z.Readable q) (v : QueuePtr) :
    ngxQueueSetNext z q v = .ok (z.relink (z.links.setNext q v)) := by
  cases q with
  | none =>
      have hslab : (z.relink (z.links.setNext none v)).slab = z.slab := by
        funext p
        exact relink_slab_of_agree (z.links.setNext_next_of_ne v (Option.some_ne_none p)) rfl
      show Except.ok _ = Except.ok (Zone.mk _ (z.relink (z.links.setNext none v)).slab)
      rw [hslab]
      simp [Links.setNext, Zone.links]
  | some p =>
      obtain ⟨bn, hbn⟩ := Option.isSome_iff_exists.mp (h p rfl)
      have hslab : (z.relink (z.links.setNext (some p) v)).slab
          = Function.update z.slab p (some { bn with queue := { bn.queue with next := v } }) := by
        funext p'
        by_cases hp : p' = p
        · subst hp
          simp [Zone.relink, Links.setNext, Zone.links, hbn]
        · rw [Function.update_of_ne hp]
          exact relink_slab_of_agree (z.links.setNext_next_of_ne v (by simpa using hp)) rfl
      show (do let bn ← z.deref p; z.store p { bn with queue := { bn.queue with next := v } }) = _
      rw [Zone.deref_eq hbn, ok_bind, Zone.store_eq (h p rfl), ← hslab]
      rfl

theorem ngxQueueSetPrev_eq {z : Zone} {q : QueuePtr} (h : z.Readable q) (v : QueuePtr) :
    ngxQueueSetPrev z q v = .ok (z.relink (z.links.setPrev q v)) := by
  cases q with
  | none =>
      have hslab : (z.relink (z.links.setPrev none v)).slab = z.slab := by
        funext p
        exact relink_slab_of_agree rfl (z.links.setPrev_prev_of_ne v (Option.some_ne_none p))
      show Except.ok _ = Except.ok (Zone.mk _ (z.relink (z.links.setPrev none v)).slab)
      rw [hslab]
      simp [Links.setPrev, Zone.links]
  | some p =>
      obtain ⟨bn, hbn⟩ := Option.isSome_iff_exists.mp (h p rfl)
      have hslab : (z.relink (z.links.setPrev (some p) v)).slab
          = Function.update z.slab p (some { bn with queue := { bn.queue with prev := v } }) := by
        funext p'
        by_cases hp : p' = p
        · subst hp
          simp [Zone.relink, Links.setPrev, Zone.links, hbn]
        · rw [Function.update_of_ne hp]
          exact relink_slab_of_agree rfl (z.links.setPrev_prev_of_ne v (by simpa using hp))
      show (do let bn ← z.deref p; z.store p { bn with queue := { bn.queue with prev := v } }) = _
      rw [Zone.deref_eq hbn, ok_bind, Zone.store_eq (h p rfl), ← hslab]
      rfl

/-! ## §3. The queue calls. -/

/-- **`ngx_queue_remove` is `Links.unlink`**, on a live element with readable
neighbours. -/
theorem ngxQueueRemove_eq {z : Zone} {x : Ptr} (hx : (z.slab x).isSome)
    (hnext : z.Readable (z.links.next (some x))) (hprev : z.Readable (z.links.prev (some x))) :
    ngxQueueRemove z x = .ok (z.relink (z.links.unlink x)) := by
  have hxr : z.Readable (some x) := by rintro p ⟨rfl⟩; exact hx
  have hc : z.Covers (z.links.setPrev (z.links.next (some x)) (z.links.prev (some x))) :=
    z.covers_links.setPrev hnext _
  simp only [ngxQueueRemove, ngxQueueNext_eq hxr, ngxQueuePrev_eq hxr, ok_bind,
    ngxQueueSetPrev_eq hnext]
  rw [ngxQueueSetNext_eq ((z.relink_readable _ _).mpr hprev), Zone.links_relink hc,
    Zone.relink_relink]
  rfl

/-- **`ngx_queue_insert_head` is `Links.linkHead`**, on a live element while the
current first element is readable. -/
theorem ngxQueueInsertHead_eq {z : Zone} {x : Ptr} (hx : (z.slab x).isSome)
    (hfirst : z.Readable (z.links.next none)) :
    ngxQueueInsertHead z x = .ok (z.relink (z.links.linkHead x)) := by
  have hhead : z.Readable none := by rintro p ⟨⟩
  have hxr : z.Readable (some x) := by rintro p ⟨rfl⟩; exact hx
  have hc₁ := z.covers_links.setNext hxr (z.links.next none)
  have hc₂ := hc₁.setPrev hfirst (some x)
  have hc₃ := hc₂.setPrev hxr none
  simp only [ngxQueueInsertHead, ngxQueueNext_eq hhead, ok_bind, ngxQueueSetNext_eq hxr]
  rw [ngxQueueSetPrev_eq ((z.relink_readable _ _).mpr hfirst), ok_bind, Zone.links_relink hc₁,
    Zone.relink_relink, ngxQueueSetPrev_eq ((z.relink_readable _ _).mpr hxr), ok_bind,
    Zone.links_relink hc₂, Zone.relink_relink,
    ngxQueueSetNext_eq ((z.relink_readable _ _).mpr hhead), Zone.links_relink hc₃,
    Zone.relink_relink]
  rfl

end HttpShield
