/-
  HttpShield.Ban.Refinement
  ─────────────────────────
  The pointer-level zone refines the abstract `Lru`.

  `Zone.Shape hash z ps` is the structural invariant: the queue links spell the
  list `ps`, the tree holds exactly `ps` in search order, and the live blocks
  are exactly `ps`, each a node for the address it stores.  `Zone.Wf` adds that
  the eviction cursor is the sentinel or one of them.

  Every call on a well-formed zone returns (so it follows no freed pointer),
  keeps the zone well-formed, and does to `Zone.lru` what the abstract
  operation does:

    • `banLookup_refines`, `banExpire_refines`, `banRecordLocked_refines`,
    • `Zone.step_refines` — the four calls together.
-/
import HttpShield.Ban.Queue
import HttpShield.Ban.Order
import HttpShield.Ban.Lru

namespace HttpShield

open SearchTree LinkedQueue

/-! ## §1. What the zone holds at a block. -/

/-- The address stored at a block. -/
def Zone.addrAt (z : Zone) (p : Ptr) : Addr :=
  match z.slab p with
  | some bn => bn.address
  | none => { bytes := [], fits := by simp }

/-- The counters stored at a block. -/
def Zone.entryAt (z : Zone) (p : Ptr) : Entry :=
  match z.slab p with
  | some bn => bn.toEntry
  | none => Entry.fresh 0

/-- The tracked address a block stands for. -/
def Zone.nodeAt (z : Zone) (p : Ptr) : LruNode := ⟨z.addrAt p, z.entryAt p⟩

/-- The abstract zone behind the blocks `ps`, in queue order. -/
def Zone.lru (z : Zone) (ps : List Ptr) : Lru where
  nodes := ps.map z.nodeAt
  cursor := z.sh.cursor.map z.addrAt

theorem Zone.addrAt_eq {z : Zone} {p : Ptr} {bn : BanNode} (h : z.slab p = some bn) :
    z.addrAt p = bn.address := by
  simp [Zone.addrAt, h]

theorem Zone.entryAt_eq {z : Zone} {p : Ptr} {bn : BanNode} (h : z.slab p = some bn) :
    z.entryAt p = bn.toEntry := by
  simp [Zone.entryAt, h]

theorem Zone.nodeAt_congr {z z' : Zone} {p : Ptr} (h : z'.slab p = z.slab p) :
    z'.nodeAt p = z.nodeAt p := by
  simp only [Zone.nodeAt, Zone.addrAt, Zone.entryAt, h]

theorem Zone.addrAt_of_nodeAt {z z' : Zone} {p : Ptr} (h : z'.nodeAt p = z.nodeAt p) :
    z'.addrAt p = z.addrAt p := congrArg Sigma.fst h

@[simp] theorem Zone.addrAt_relink (z : Zone) (L : Links Ptr) : (z.relink L).addrAt = z.addrAt := by
  funext p
  simp only [Zone.addrAt, Zone.relink]
  cases z.slab p <;> rfl

@[simp] theorem Zone.nodeAt_relink (z : Zone) (L : Links Ptr) : (z.relink L).nodeAt = z.nodeAt := by
  funext p
  simp only [Zone.nodeAt, Zone.addrAt, Zone.entryAt, Zone.relink]
  cases z.slab p <;> rfl

/-! ## §2. The structural invariant. -/

/-- **The structural invariant**: queue, tree and slab hold the same blocks. -/
structure Zone.Shape (hash : Addr → Nat) (z : Zone) (ps : List Ptr) : Prop where
  spells : z.links.Spells ps
  nodup : ps.Nodup
  tree : z.sh.rbtree.inorder.Perm ps
  live : ∀ p, (z.slab p).isSome ↔ p ∈ ps
  holds : ∀ p bn, z.slab p = some bn → bn.Holds hash
  sorted : z.sh.rbtree.SortedBy (fun p => (z.addrAt p).rank hash)

/-- A well-formed zone: besides, the cursor is the sentinel or a queued node. -/
structure Zone.Wf (hash : Addr → Nat) (z : Zone) (ps : List Ptr) : Prop
    extends Zone.Shape hash z ps where
  cursor : ∀ p, z.sh.cursor = some p → p ∈ ps

variable {hash : Addr → Nat}

/-- A fresh segment is well-formed and empty, whatever memory it was set up on. -/
theorem banInitZone_wf (garbage : Shctx) : (banInitZone garbage).Wf hash [] where
  spells := Links.spells_nil rfl rfl
  nodup := List.nodup_nil
  tree := List.Perm.nil
  live := by simp [banInitZone]
  holds := by simp [banInitZone]
  sorted := List.Pairwise.nil
  cursor := by simp [banInitZone, banShctxInit]

theorem Zone.Shape.deref {z : Zone} {ps : List Ptr} (h : z.Shape hash ps) {p : Ptr} (hp : p ∈ ps) :
    ∃ bn, z.slab p = some bn ∧ bn.Holds hash := by
  obtain ⟨bn, hbn⟩ := Option.isSome_iff_exists.mp ((h.live p).mpr hp)
  exact ⟨bn, hbn, h.holds p bn hbn⟩

theorem Zone.Shape.readable {z : Zone} {ps : List Ptr} (h : z.Shape hash ps) {q : QueuePtr}
    (hq : ∀ p, q = some p → p ∈ ps) : z.Readable q :=
  fun p hp => (h.live p).mpr (hq p hp)

theorem Zone.Shape.readable_next {z : Zone} {xs ys : List Ptr} {p : Ptr}
    (h : z.Shape hash (xs ++ p :: ys)) : z.Readable (z.links.next (some p)) := by
  refine h.readable fun q hq => ?_
  rw [h.spells.next_mem] at hq
  exact List.mem_append_right _ (List.mem_cons_of_mem _ (List.mem_of_head? hq))

theorem Zone.Shape.readable_prev {z : Zone} {xs ys : List Ptr} {p : Ptr}
    (h : z.Shape hash (xs ++ p :: ys)) : z.Readable (z.links.prev (some p)) := by
  refine h.readable fun q hq => ?_
  rw [h.spells.prev_mem] at hq
  exact List.mem_append_left _ (List.mem_of_getLast? hq)

/-- Two queued nodes never hold one address. -/
theorem Zone.Shape.addrAt_inj {z : Zone} {ps : List Ptr} (h : z.Shape hash ps) {p q : Ptr}
    (hp : p ∈ ps) (hq : q ∈ ps) (heq : z.addrAt p = z.addrAt q) : p = q :=
  RbTree.SortedBy.key_inj _ h.sorted (h.tree.mem_iff.mpr hp) (h.tree.mem_iff.mpr hq)
    (congrArg (Addr.rank hash) heq)

/-- The other queued nodes hold other addresses. -/
theorem Zone.Shape.addrAt_ne {z : Zone} {xs ys : List Ptr} {p q : Ptr}
    (h : z.Shape hash (xs ++ p :: ys)) (hq : q ∈ xs ++ ys) : z.addrAt q ≠ z.addrAt p := by
  intro heq
  have hq' : q ∈ xs ++ p :: ys := List.perm_middle.mem_iff.mpr (List.mem_cons_of_mem p hq)
  obtain rfl := h.addrAt_inj hq' (by simp) heq
  exact (List.nodup_cons.mp (List.perm_middle.nodup_iff.mp h.nodup)).1 hq

/-- The abstract zone behind a well-shaped one tracks no address twice. -/
theorem Zone.Shape.distinct {z : Zone} {ps : List Ptr} (h : z.Shape hash ps) :
    (z.lru ps).Distinct := by
  show (ps.map z.nodeAt).NodupKeys
  rw [List.NodupKeys, List.keys, List.map_map]
  refine (List.nodup_map_iff_inj_on h.nodup).mpr ?_
  intro p hp q hq heq
  exact h.addrAt_inj hp hq heq

/-- The shape survives any relinking that spells a permutation of the blocks. -/
theorem Zone.Shape.relink {z : Zone} {ps ps' : List Ptr} (h : z.Shape hash ps) {L : Links Ptr}
    (hc : z.Covers L) (hL : L.Spells ps') (hperm : ps'.Perm ps) : (z.relink L).Shape hash ps' where
  spells := by rw [Zone.links_relink hc]; exact hL
  nodup := hperm.nodup_iff.mpr h.nodup
  tree := h.tree.trans hperm.symm
  live := by
    intro p
    rw [Zone.relink_isSome, h.live p, hperm.mem_iff]
  holds := by
    intro p bn hbn
    obtain ⟨bn₀, hbn₀, rfl⟩ := Option.map_eq_some_iff.mp hbn
    exact ⟨(h.holds p bn₀ hbn₀).key, (h.holds p bn₀ hbn₀).len⟩
  sorted := by
    rw [Zone.addrAt_relink]
    exact h.sorted

/-! ## §3. Lookup. -/

/-- The three-way comparison of `banFind`, at a block. -/
def Zone.probeAt (hash : Addr → Nat) (z : Zone) (a : Addr) (p : Ptr) : Ordering :=
  match z.slab p with
  | some bn => bn.probe (hash a) a.bytes
  | none => .eq

/-- The tree walk follows no freed pointer when it stays among live nodes, and
is a search by `probeAt`. -/
theorem banFind_eq (z : Zone) (a : Addr) (t : RbTree Ptr)
    (hlive : ∀ p ∈ t.inorder, (z.slab p).isSome) :
    banFind z (hash a) a.bytes t = .ok (t.find? (z.probeAt hash a)) := by
  induction t with
  | sentinel => rfl
  | node l c p r ihl ihr =>
      have hl := ihl (fun q hq => hlive q (RbTree.mem_inorder_node.mpr (.inl hq)))
      have hr := ihr (fun q hq => hlive q (RbTree.mem_inorder_node.mpr (.inr (.inr hq))))
      obtain ⟨bn, hbn⟩ := Option.isSome_iff_exists.mp
        (hlive p (RbTree.mem_inorder_node.mpr (.inr (.inl rfl))))
      have hprobe : z.probeAt hash a p = bn.probe (hash a) a.bytes := by
        simp [Zone.probeAt, hbn]
      simp only [banFind, Zone.deref_eq hbn, ok_bind, pure_eq_ok, RbTree.find?, hprobe, BanNode.probe,
        signOrdering, hl, hr]
      split
      · rfl
      · split
        · rfl
        · generalize (if (a.bytes.length : Int) - (bn.len : Int) = 0
            then ngxMemcmp a.bytes bn.addr a.bytes.length
            else (a.bytes.length : Int) - (bn.len : Int)) = rc
          by_cases hrc : rc = 0
          · simp [hrc]
          · by_cases hneg : rc < 0 <;> simp [hrc, hneg]

theorem Zone.Shape.compares {z : Zone} {ps : List Ptr} (h : z.Shape hash ps) (a : Addr) :
    Compares (fun p => (z.addrAt p).rank hash) (z.probeAt hash a) (a.rank hash)
      z.sh.rbtree.inorder := by
  intro p hp
  obtain ⟨bn, hbn, hholds⟩ := h.deref (h.tree.mem_iff.mp hp)
  simp only [Zone.probeAt, hbn, Zone.addrAt_eq hbn]
  exact ⟨hholds.probe_lt_iff a, hholds.probe_gt_iff a⟩

theorem Zone.Shape.find_some {z : Zone} {ps : List Ptr} (h : z.Shape hash ps) {p : Ptr}
    (hp : p ∈ ps) : banFind z (hash (z.addrAt p)) (z.addrAt p).bytes z.sh.rbtree = .ok (some p) := by
  rw [banFind_eq z _ _ (fun q hq => (h.live q).mpr (h.tree.mem_iff.mp hq))]
  congr 1
  exact (RbTree.find?_eq_some_iff _ _ _ h.sorted (h.compares _) p).mpr ⟨h.tree.mem_iff.mpr hp, rfl⟩

theorem Zone.Shape.find_none {z : Zone} {ps : List Ptr} (h : z.Shape hash ps) {a : Addr}
    (ha : ∀ p ∈ ps, z.addrAt p ≠ a) : banFind z (hash a) a.bytes z.sh.rbtree = .ok none := by
  rw [banFind_eq z _ _ (fun q hq => (h.live q).mpr (h.tree.mem_iff.mp hq))]
  congr 1
  refine (RbTree.find?_eq_none_iff _ _ _ h.sorted (h.compares a)).mpr ?_
  intro p hp heq
  exact ha p (h.tree.mem_iff.mp hp) (Addr.rank_injective hash heq)

/-- **Moving a queued node to the head** keeps the shape. -/
theorem Zone.Shape.moveToHead {z : Zone} {xs ys : List Ptr} {p : Ptr}
    (h : z.Shape hash (xs ++ p :: ys)) :
    ∃ L, (do let z ← ngxQueueRemove z p; ngxQueueInsertHead z p) = .ok (z.relink L)
      ∧ (z.relink L).Shape hash (p :: (xs ++ ys)) := by
  have hnext := h.readable_next
  have hprev := h.readable_prev
  have hp : (z.slab p).isSome := (h.live p).mpr (by simp)
  have hpr : z.Readable (some p) := by rintro q ⟨rfl⟩; exact hp
  have hc₁ : z.Covers (z.links.unlink p) :=
    (z.covers_links.setPrev hnext _).setNext hprev _
  have hsp₁ : (z.links.unlink p).Spells (xs ++ ys) := h.spells.unlink h.nodup
  have hperm : (p :: (xs ++ ys)).Perm (xs ++ p :: ys) := List.perm_middle.symm
  have hnd : (p :: (xs ++ ys)).Nodup := hperm.nodup_iff.mpr h.nodup
  have hfirst : z.Readable ((z.links.unlink p).next none) := by
    refine h.readable fun q hq => ?_
    rw [hsp₁.next_none] at hq
    exact hperm.subset (List.mem_cons_of_mem _ (List.mem_of_head? hq))
  have hsp₂ : ((z.links.unlink p).linkHead p).Spells (p :: (xs ++ ys)) :=
    hsp₁.linkHead (List.nodup_cons.mp hnd).2 (List.nodup_cons.mp hnd).1
  have hhead : z.Readable none := by rintro q ⟨⟩
  have hc₂ : z.Covers ((z.links.unlink p).linkHead p) :=
    (((hc₁.setNext hpr _).setPrev hfirst _).setPrev hpr _).setNext hhead _
  refine ⟨(z.links.unlink p).linkHead p, ?_, h.relink hc₂ hsp₂ hperm⟩
  rw [ngxQueueRemove_eq hp hnext hprev, ok_bind,
    ngxQueueInsertHead_eq (by rw [Zone.relink_isSome]; exact hp)
      (by rw [Zone.links_relink hc₁]; exact (z.relink_readable _ _).mpr hfirst),
    Zone.links_relink hc₁, Zone.relink_relink]

/-- The map behind the zone, read off the blocks. -/
theorem Zone.Shape.get_lru {z : Zone} {ps : List Ptr} (h : z.Shape hash ps) (a : Addr) (e : Entry) :
    (z.lru ps).get a = some e ↔ ∃ p ∈ ps, z.addrAt p = a ∧ z.entryAt p = e := by
  rw [Lru.get_eq_some_iff h.distinct]
  simp [Zone.lru, Zone.nodeAt]

theorem Zone.Shape.get_lru_none {z : Zone} {ps : List Ptr} (a : Addr) :
    (z.lru ps).get a = none ↔ ∀ p ∈ ps, z.addrAt p ≠ a := by
  rw [Lru.get_eq_none_iff]
  simp [Zone.lru, Zone.nodeAt]

/-- **Lookup of a tracked address** answers its node and moves it to the head. -/
theorem banLookup_found {z : Zone} {ps : List Ptr} (h : z.Wf hash ps) {p : Ptr} (hp : p ∈ ps) :
    ∃ L ps', banLookup z (hash (z.addrAt p)) (z.addrAt p).bytes = .ok (z.relink L, some p)
      ∧ (z.relink L).Wf hash (p :: ps')
      ∧ (z.relink L).lru (p :: ps') = (z.lru ps).touch (z.addrAt p)
      ∧ ps'.map z.nodeAt = (z.lru ps).nodes.filter (fun x => ¬ x.1 = z.addrAt p) := by
  obtain ⟨xs, ys, rfl⟩ := List.append_of_mem hp
  obtain ⟨L, heq, hshape⟩ := h.toShape.moveToHead
  have hne : ∀ x ∈ xs.map z.nodeAt ++ ys.map z.nodeAt, x.1 ≠ z.addrAt p := by
    rw [← List.map_append]
    intro x hx
    obtain ⟨q, hq, rfl⟩ := List.mem_map.mp hx
    exact h.toShape.addrAt_ne hq
  have hnodes : (xs ++ p :: ys).map z.nodeAt
      = xs.map z.nodeAt ++ ⟨z.addrAt p, z.entryAt p⟩ :: ys.map z.nodeAt := by
    simp [Zone.nodeAt]
  refine ⟨L, xs ++ ys, ?_, ⟨hshape, ?_⟩, ?_, ?_⟩
  · simp only [banLookup, h.toShape.find_some hp, ok_bind]
    rw [← bind_assoc, heq]
    rfl
  · intro q hq
    exact List.perm_middle.symm.mem_iff.mpr (h.cursor q hq)
  · have hnodes' : (p :: (xs ++ ys)).map (z.relink L).nodeAt
        = ⟨z.addrAt p, z.entryAt p⟩ :: (xs.map z.nodeAt ++ ys.map z.nodeAt) := by
      simp only [List.map_cons, List.map_append, Zone.nodeAt_relink]
      simp [Zone.nodeAt]
    have hcursor : (z.relink L).sh.cursor.map (z.relink L).addrAt = z.sh.cursor.map z.addrAt := by
      simp only [Zone.relink_cursor, Zone.addrAt_relink]
    simp only [Zone.lru, hnodes, hnodes', hcursor]
    exact (Lru.touch_split _ _ hne).symm
  · show _ = ((xs ++ p :: ys).map z.nodeAt).filter _
    rw [hnodes, filter_other_split _ hne, List.map_append]

/-- Lookup of an unknown address changes nothing. -/
theorem banLookup_absent {z : Zone} {ps : List Ptr} (h : z.Wf hash ps) {a : Addr}
    (ha : ∀ p ∈ ps, z.addrAt p ≠ a) : banLookup z (hash a) a.bytes = .ok (z, none) := by
  simp [banLookup, h.toShape.find_none ha]

/-! ## §4. Eviction. -/

/-- **Evicting a queued node** keeps the shape, without the node, and every
other node as it was. -/
theorem Zone.Shape.evict {z : Zone} {xs ys : List Ptr} {p : Ptr} (T : NgxRbtree)
    (h : z.Shape hash (xs ++ p :: ys)) :
    ∃ z', banEvict T z p = .ok z' ∧ z'.Shape hash (xs ++ ys)
      ∧ (∀ q ∈ xs ++ ys, z'.nodeAt q = z.nodeAt q) ∧ z'.sh.bans = z.sh.bans := by
  have hp : (z.slab p).isSome := (h.live p).mpr (by simp)
  have hc : z.Covers (z.links.unlink p) :=
    (z.covers_links.setPrev h.readable_next _).setNext h.readable_prev _
  obtain ⟨hpn, -⟩ := List.nodup_cons.mp (List.perm_middle.nodup_iff.mp h.nodup)
  -- The block leaves the queue, then the tree, and last the slab.
  let z₁ := z.relink (z.links.unlink p)
  have hp₁ : (z₁.slab p).isSome := by rw [Zone.relink_isSome]; exact hp
  let z' : Zone := { sh := { z₁.sh with rbtree := T.delete z₁.sh.rbtree p },
                     slab := Function.update z₁.slab p none }
  have hslab : ∀ q ∈ xs ++ ys, z'.slab q = z₁.slab q := fun q hq =>
    Function.update_of_ne (by rintro rfl; exact hpn hq) _ _
  have hnode : ∀ q ∈ xs ++ ys, z'.nodeAt q = z.nodeAt q := fun q hq =>
    (Zone.nodeAt_congr (hslab q hq)).trans (congrFun (Zone.nodeAt_relink z _) q)
  have htree : z'.sh.rbtree.inorder.Perm (xs ++ ys) := by
    show (T.delete z.sh.rbtree p).inorder.Perm (xs ++ ys)
    rw [T.inorder_delete]
    have := (h.tree.trans List.perm_middle).erase p
    rwa [List.erase_cons_head] at this
  refine ⟨z', ?_, ?_, hnode, rfl⟩
  · rw [banEvict, ngxQueueRemove_eq hp h.readable_next h.readable_prev, ok_bind,
      ngxRbtreeDelete_eq T hp₁, ok_bind]
    exact slabFree_eq (by exact hp₁)
  · refine { spells := ?_, nodup := ?_, tree := htree, live := ?_, holds := ?_, sorted := ?_ }
    · have hsp : z₁.links.Spells (xs ++ ys) := by
        rw [Zone.links_relink hc]
        exact h.spells.unlink h.nodup
      refine hsp.agree ⟨rfl, rfl⟩ fun q hq => ?_
      simp only [Zone.links, hslab q hq, and_self]
    · exact (List.nodup_cons.mp (List.perm_middle.nodup_iff.mp h.nodup)).2
    · intro q
      by_cases hqp : q = p
      · subst hqp
        simp [z', hpn]
      · have hq : z'.slab q = z₁.slab q := Function.update_of_ne hqp _ _
        rw [hq, Zone.relink_isSome, h.live q]
        simp [hqp]
    · intro q bn hbn
      by_cases hqp : q = p
      · subst hqp
        simp [z'] at hbn
      · have hq : z'.slab q = z₁.slab q := Function.update_of_ne hqp _ _
        rw [hq] at hbn
        obtain ⟨bn₀, hbn₀, rfl⟩ := Option.map_eq_some_iff.mp hbn
        exact ⟨(h.holds q bn₀ hbn₀).key, (h.holds q bn₀ hbn₀).len⟩
    · refine h.sorted.of_sublist _ ?_ ?_
      · show (T.delete z.sh.rbtree p).inorder.Sublist _
        rw [T.inorder_delete]
        exact List.erase_sublist
      · intro q hq
        show (z'.addrAt q).rank hash = (z.addrAt q).rank hash
        rw [Zone.addrAt_of_nodeAt (hnode q (htree.mem_iff.mp hq))]

/-! ## §5. The eviction walk.

The pointer walk is refined lap by lap.  The first lap leads from the cursor to the
head, and the second one, behind the wrap, from the tail to where the first one began. -/

/-- A walk that has wrapped ends when it reaches the sentinel again. -/
theorem banExpireLoop_wrapped (T : NgxRbtree) (now window : Int) (fuel scanned evicted : Nat)
    (z : Zone) : banExpireLoop T now window (fuel + 1) scanned evicted true none z
      = .ok (z, none) := by
  rw [banExpireLoop]
  split <;> rfl

/-- A spent budget stops the walk where it is. -/
theorem banExpireLoop_spent (T : NgxRbtree) (now window : Int) (fuel scanned evicted : Nat)
    (wrapped : Bool) (q : QueuePtr) (z : Zone)
    (h : ¬ (scanned < banExpireScan ∧ evicted < banExpireEvict)) :
    banExpireLoop T now window (fuel + 1) scanned evicted wrapped q z = .ok (z, q) := by
  cases q <;> simp only [banExpireLoop, if_neg h, pure_eq_ok]

/-- Where one lap of the pointer walk arrives: the zone `z'` holding the
`kept` and the `rest`, with the budgets that are left. -/
structure LapEnd (hash : Addr → Nat) (now window : Int) (z : Zone) (passed todo : List Ptr)
    (scan evict : Nat) (z' : Zone) (kept rest : List Ptr) (scan' evict' : Nat) : Prop where
  shape : z'.Shape hash (passed ++ kept ++ rest).reverse
  sub : (kept ++ rest).Sublist todo
  nodes : ∀ q ∈ passed ++ kept ++ rest, z'.nodeAt q = z.nodeAt q
  bans : z'.sh.bans = z.sh.bans
  lap : lap now window scan evict (todo.map z.nodeAt)
    = { kept := kept.map z.nodeAt, rest := rest.map z.nodeAt, scan := scan', evict := evict' }
  scan_le : scan' ≤ scan
  evict_le : evict' ≤ evict
  stopped : rest = [] ∨ scan' = 0 ∨ evict' = 0

/-- **One lap of the pointer walk is one abstract lap.** -/
theorem banExpireLoop_lap (T : NgxRbtree) (now window : Int) (wrapped : Bool) (fuel : Nat) :
    ∀ (todo passed : List Ptr) (z : Zone) (scan evict : Nat),
      z.Shape hash (passed ++ todo).reverse → scan ≤ banExpireScan → evict ≤ banExpireEvict →
      ∃ z' kept rest scan' evict',
        LapEnd hash now window z passed todo scan evict z' kept rest scan' evict'
        ∧ banExpireLoop T now window (scan + fuel) (banExpireScan - scan) (banExpireEvict - evict)
              wrapped todo.head? z
            = banExpireLoop T now window (scan' + fuel) (banExpireScan - scan')
              (banExpireEvict - evict') wrapped rest.head? z' := by
  intro todo
  induction todo with
  | nil =>
      intro passed z scan evict hz hs he
      refine ⟨z, [], [], scan, evict, ⟨by simpa using hz, List.Sublist.refl _, fun _ _ => rfl,
        rfl, ?_, le_refl _, le_refl _, .inl rfl⟩, rfl⟩
      cases scan <;> cases evict <;> rfl
  | cons p todo ih =>
      intro passed z scan evict hz hs he
      by_cases hspent : scan = 0 ∨ evict = 0
      · -- a budget is spent before `p` is looked at
        refine ⟨z, [], p :: todo, scan, evict, ⟨by simpa using hz, List.Sublist.refl _,
          fun _ _ => rfl, rfl, ?_, le_refl _, le_refl _, .inr hspent⟩, rfl⟩
        rcases hspent with rfl | rfl
        · rfl
        · cases scan <;> rfl
      · obtain ⟨scan, rfl⟩ : ∃ n, scan = n + 1 := ⟨scan - 1, by omega⟩
        obtain ⟨evict, rfl⟩ : ∃ n, evict = n + 1 := ⟨evict - 1, by omega⟩
        -- in queue order `p` has `todo` before it and `passed` after it
        have hsplit : (passed ++ p :: todo).reverse = todo.reverse ++ p :: passed.reverse := by
          simp
        rw [hsplit] at hz
        obtain ⟨bn, hbn, -⟩ := hz.deref (p := p) (by simp)
        have hpr : z.Readable (some p) := by
          rintro q ⟨rfl⟩
          simp [hbn]
        have hprev : ngxQueuePrev z (some p) = .ok todo.head? := by
          rw [ngxQueuePrev_eq hpr, hz.spells.prev_mem, List.getLast?_reverse]
        have hentry : (z.nodeAt p).2 = bn.toEntry := Zone.entryAt_eq hbn
        have hbudget : banExpireScan - (scan + 1) < banExpireScan
            ∧ banExpireEvict - (evict + 1) < banExpireEvict := by
          constructor <;> omega
        have hscan : banExpireScan - (scan + 1) + 1 = banExpireScan - scan := by omega
        have hevict : banExpireEvict - (evict + 1) + 1 = banExpireEvict - evict := by omega
        by_cases hlive : bn.isLive now window = true
        · obtain ⟨z', kept, rest, scan', evict', hend, hloop⟩ :=
            ih (passed ++ [p]) z scan (evict + 1) (by simpa using hz) (by omega) he
          refine ⟨z', p :: kept, rest, scan', evict', ?_, ?_⟩
          · refine ⟨by simpa using hend.shape, hend.sub.cons_cons p, by simpa using hend.nodes,
              hend.bans, ?_, ?_, hend.evict_le, hend.stopped⟩
            · simp only [List.map_cons, lap, hentry, hlive, if_true, hend.lap, Lap.keep]
            · exact Nat.le_succ_of_le hend.scan_le
          · rw [← hloop, Nat.add_right_comm]
            simp only [List.head?_cons, banExpireLoop, if_pos hbudget, hprev, ok_bind,
              Zone.deref_eq hbn, hlive, if_true, hscan]
        · obtain ⟨z₁, hev, hshape₁, hnodes₁, hbans₁⟩ := hz.evict T
          have hmap : todo.map z₁.nodeAt = todo.map z.nodeAt :=
            List.map_congr_left fun q hq => hnodes₁ q (by simp [hq])
          obtain ⟨z', kept, rest, scan', evict', hend, hloop⟩ :=
            ih passed z₁ scan evict (by simpa using hshape₁) (by omega) (by omega)
          have hsub : ∀ q ∈ passed ++ kept ++ rest, q ∈ todo.reverse ++ passed.reverse := by
            intro q hq
            rw [List.append_assoc, List.mem_append] at hq
            rcases hq with hq | hq
            · simp [hq]
            · simp [hend.sub.subset hq]
          have hback : ∀ l : List Ptr, (∀ q ∈ l, q ∈ passed ++ kept ++ rest) →
              l.map z₁.nodeAt = l.map z.nodeAt :=
            fun l hl => List.map_congr_left fun q hq => hnodes₁ q (hsub q (hl q hq))
          refine ⟨z', kept, rest, scan', evict', ?_, ?_⟩
          · refine ⟨hend.shape, hend.sub.cons p, ?_, hend.bans.trans hbans₁, ?_,
              Nat.le_succ_of_le hend.scan_le, Nat.le_succ_of_le hend.evict_le, hend.stopped⟩
            · exact fun q hq => (hend.nodes q hq).trans (hnodes₁ q (hsub q hq))
            · simp only [List.map_cons, lap, hentry, hlive, Bool.false_eq_true, if_false]
              rw [← hmap, hend.lap, hback kept (by simp +contextual),
                hback rest (by simp +contextual)]
          · rw [← hloop, Nat.add_right_comm]
            simp only [List.head?_cons, banExpireLoop, if_pos hbudget, hprev, ok_bind,
              Zone.deref_eq hbn, hlive, Bool.false_eq_true, if_false, hev, hscan, hevict]

/-! ## §6. Both laps together. -/

/-- The abstract cut at the cursor is the cut of the pointers. -/
theorem Zone.Wf.cut_lru {z : Zone} {ps : List Ptr} (h : z.Wf hash ps) :
    ∃ passed todo, ps.reverse = passed ++ todo
      ∧ (z.lru ps).cut = (passed.map z.nodeAt, todo.map z.nodeAt)
      ∧ todo.head? = (if z.sh.cursor = none then ps.reverse.head? else z.sh.cursor)
      ∧ (z.sh.cursor = none → passed = []) := by
  have hrev : (z.lru ps).nodes.reverse = ps.reverse.map z.nodeAt := by simp [Zone.lru]
  cases hc : z.sh.cursor with
  | none =>
      refine ⟨[], ps.reverse, rfl, ?_, by simp, fun _ => rfl⟩
      have hcursor : (z.lru ps).cursor = none := by simp [Zone.lru, hc]
      simp only [Lru.cut, hcursor, hrev, List.map_nil]
  | some p =>
      have hp : p ∈ ps.reverse := List.mem_reverse.mpr (h.cursor p hc)
      obtain ⟨xs, ys, hps⟩ := List.append_of_mem hp
      refine ⟨xs, p :: ys, hps, ?_, by simp, by simp⟩
      have hcursor : (z.lru ps).cursor = some (z.addrAt p) := by simp [Zone.lru, hc]
      have hne : ∀ q ∈ xs, z.addrAt q ≠ z.addrAt p := by
        intro q hq heq
        have hq' : q ∈ ps := List.mem_reverse.mp (by rw [hps]; simp [hq])
        obtain rfl := h.toShape.addrAt_inj hq' (List.mem_reverse.mp hp) heq
        have hnd : (xs ++ q :: ys).Nodup := hps ▸ List.nodup_reverse.mpr h.nodup
        exact (List.nodup_append.mp hnd).2.2 q hq q (by simp) rfl
      simp only [Lru.cut, hcursor, hrev, hps, List.map_append, List.map_cons]
      have hall : ∀ x ∈ xs.map z.nodeAt, decide (¬ x.1 = z.addrAt p) = true := by
        intro x hx
        obtain ⟨q, hq, rfl⟩ := List.mem_map.mp hx
        exact decide_eq_true (hne q hq)
      have hstop : decide (¬ (z.nodeAt p).1 = z.addrAt p) = false := by simp [Zone.nodeAt]
      rw [List.takeWhile_append_of_pos hall, List.dropWhile_append_of_pos hall,
        List.takeWhile_cons_of_neg (by simp [hstop]), List.dropWhile_cons_of_neg (by simp [hstop]),
        List.append_nil]

/-- Parking the cursor on one of the nodes, or on the sentinel. -/
theorem Zone.Shape.park {z z₀ : Zone} {tailFirst rest : List Ptr}
    (h : z.Shape hash (tailFirst ++ rest).reverse)
    (hnodes : ∀ q ∈ tailFirst ++ rest, z.nodeAt q = z₀.nodeAt q) :
    Zone.Wf hash { z with sh := { z.sh with cursor := rest.head? } } (tailFirst ++ rest).reverse
      ∧ Zone.lru { z with sh := { z.sh with cursor := rest.head? } } (tailFirst ++ rest).reverse
        = Lru.park (tailFirst.map z₀.nodeAt) (rest.map z₀.nodeAt) := by
  refine ⟨⟨⟨h.spells, h.nodup, h.tree, h.live, h.holds, h.sorted⟩, ?_⟩, ?_⟩
  · intro p hp
    have : p ∈ rest := List.mem_of_head? hp
    simp [this]
  · have hmap : (tailFirst ++ rest).map z.nodeAt = (tailFirst ++ rest).map z₀.nodeAt :=
      List.map_congr_left hnodes
    have hhead : rest.head?.map z.addrAt = (rest.map z₀.nodeAt).head?.map (fun x => x.1) := by
      cases rest with
      | nil => rfl
      | cons p rest =>
          simp only [List.head?_cons, Option.map_some, List.map_cons]
          rw [Zone.addrAt_of_nodeAt (hnodes p (by simp))]
          rfl
    show Lru.mk ((tailFirst ++ rest).reverse.map z.nodeAt) (rest.head?.map z.addrAt) = _
    rw [List.map_reverse, hmap, hhead, List.map_append]
    rfl

/-- **`banExpire` is the abstract eviction.** -/
theorem banExpire_refines (T : NgxRbtree) {z : Zone} {ps : List Ptr} (h : z.Wf hash ps)
    (now window : Int) :
    ∃ z' ps', banExpire T z now window = .ok z' ∧ z'.Wf hash ps'
      ∧ z'.lru ps' = (z.lru ps).expire now window ∧ z'.sh.bans = z.sh.bans := by
  obtain ⟨passed, todo, hrev, hcut, hhead, hnone⟩ := h.cut_lru
  have hps : ps = (passed ++ todo).reverse := by rw [← hrev, List.reverse_reverse]
  have hstart : banExpireStart z = .ok todo.head? := by
    rw [hhead, banExpireStart]
    split
    · have hr : z.Readable none := by rintro p ⟨⟩
      rw [ngxQueueLast, ngxQueuePrev_eq hr, h.spells.prev_none, List.head?_reverse]
    · rfl
  -- the first lap
  obtain ⟨z₁, kept, rest, scan, evict, hend, hloop⟩ :=
    banExpireLoop_lap T now window (decide (z.sh.cursor = none)) 2 todo passed z
      banExpireScan banExpireEvict (hps ▸ h.toShape) (le_refl _) (le_refl _)
  have hlap : (z.lru ps).firstLap now window
      = { kept := kept.map z.nodeAt, rest := rest.map z.nodeAt, scan := scan, evict := evict } := by
    rw [Lru.firstLap, hcut]
    exact hend.lap
  have hcursor : (z.lru ps).cursor ≠ none ↔ z.sh.cursor ≠ none := by
    simp [Zone.lru]
  -- the run is decided by where the pointer walk stops
  have hrun : ∀ (z' : Zone) (q : QueuePtr),
      banExpireLoop T now window (scan + 2) (banExpireScan - scan) (banExpireEvict - evict)
        (decide (z.sh.cursor = none)) rest.head? z₁ = .ok (z', q) →
      banExpire T z now window = .ok { z' with sh := { z'.sh with cursor := q } } := by
    intro z' q hq
    rw [← hloop] at hq
    rw [banExpire, hstart, ok_bind]
    simp only [Nat.sub_self] at hq
    rw [hq]
    rfl
  have hscan := hend.scan_le
  have hevict := hend.evict_le
  by_cases hwrap : z.sh.cursor ≠ none ∧ rest = [] ∧ 0 < scan ∧ 0 < evict
  · -- ran off the head with budget to spare: the second lap, from the tail
    obtain ⟨hcur, rfl, hs, he⟩ := hwrap
    have hshape₁ : z₁.Shape hash ([] ++ (passed ++ kept)).reverse := by simpa using hend.shape
    obtain ⟨z₂, kept₂, rest₂, scan₂, evict₂, hend₂, hloop₂⟩ :=
      banExpireLoop_lap T now window true 1 (passed ++ kept) [] z₁ scan evict
        hshape₁ hscan hevict
    have hlast : ngxQueueLast z₁ = .ok (passed ++ kept).head? := by
      have hr : z₁.Readable none := by rintro p ⟨⟩
      rw [ngxQueueLast, ngxQueuePrev_eq hr, hshape₁.spells.prev_none, List.getLast?_reverse,
        List.nil_append]
    have hbudget : banExpireScan - scan < banExpireScan
        ∧ banExpireEvict - evict < banExpireEvict := by constructor <;> omega
    have hnodes₁ : ∀ q ∈ passed ++ kept, z₁.nodeAt q = z.nodeAt q := by
      simpa using hend.nodes
    have hnodes : ∀ q ∈ kept₂ ++ rest₂, z₂.nodeAt q = z.nodeAt q := fun q hq =>
      (hend₂.nodes q (by simpa using hq)).trans (hnodes₁ q (hend₂.sub.subset hq))
    have hshape₂ : z₂.Shape hash (kept₂ ++ rest₂).reverse := by simpa using hend₂.shape
    obtain ⟨hwf, hlru⟩ := Zone.Shape.park hshape₂ hnodes
    refine ⟨_, _, hrun z₂ rest₂.head? ?_, hwf, ?_, hend₂.bans.trans hend.bans⟩
    · have hstep : banExpireLoop T now window (scan + 2) (banExpireScan - scan)
          (banExpireEvict - evict) (decide (z.sh.cursor = none)) ([] : List Ptr).head? z₁
          = banExpireLoop T now window (scan + 1) (banExpireScan - scan) (banExpireEvict - evict)
            true (passed ++ kept).head? z₁ := by
        simp only [List.head?_nil, banExpireLoop, if_pos hbudget, hcur, decide_false,
          Bool.false_eq_true, if_false, hlast, ok_bind]
      rw [hstep, hloop₂]
      rcases hend₂.stopped with rfl | hspent
      · exact banExpireLoop_wrapped T now window _ _ _ z₂
      · exact banExpireLoop_spent T now window _ _ _ _ _ z₂ (by omega)
    · have hmap : (passed.map z.nodeAt ++ kept.map z.nodeAt) = (passed ++ kept).map z₁.nodeAt := by
        rw [← List.map_append]
        exact (List.map_congr_left hnodes₁).symm
      have hmap₂ : ∀ l : List Ptr, (∀ q ∈ l, q ∈ kept₂ ++ rest₂) →
          l.map z₁.nodeAt = l.map z.nodeAt :=
        fun l hl => List.map_congr_left fun q hq => hnodes₁ q (hend₂.sub.subset (hl q hq))
      rw [hlru, Lru.expire, hlap, hcut]
      simp only [hcursor, hcur, ne_eq, not_false_eq_true, List.map_nil, hs, he, and_self, if_true]
      rw [hmap, hend₂.lap]
      simp only [hmap₂ kept₂ (by simp +contextual), hmap₂ rest₂ (by simp +contextual)]
  · -- the walk stops after the first lap
    obtain ⟨hwf, hlru⟩ := Zone.Shape.park hend.shape hend.nodes
    refine ⟨_, _, hrun z₁ rest.head? ?_, hwf, ?_, hend.bans⟩
    · by_cases hspent : scan = 0 ∨ evict = 0
      · exact banExpireLoop_spent T now window _ _ _ _ _ z₁ (by omega)
      · obtain rfl : rest = [] := hend.stopped.resolve_right hspent
        have hcur : z.sh.cursor = none := by
          by_contra hcur
          exact hwrap ⟨hcur, rfl, by omega, by omega⟩
        rw [hcur]
        exact banExpireLoop_wrapped T now window _ _ _ z₁
    · rw [hlru, Lru.expire, hlap, hcut, List.map_append, if_neg]
      simpa [hcursor] using hwrap

/-! ## §7. Recording a hit.

A record finds the node of its address, or evicts and then links a new one.  The tree
insert, the queue and the slab are each shown to keep the shape, then the counters. -/

/-- The tree insert is an insertion by rank. -/
theorem banRbtreeInsert_eq {z : Zone} {p : Ptr} (t : RbTree Ptr) (hp : (z.slab p).isSome)
    (hlive : ∀ q ∈ t.inorder, (z.slab q).isSome)
    (hholds : ∀ q bn, z.slab q = some bn → bn.Holds hash) :
    banRbtreeInsert z p t = .ok (t.insertLeaf
      (fun q => decide ((z.addrAt p).rank hash < (z.addrAt q).rank hash)) p) := by
  obtain ⟨bn, hbn⟩ := Option.isSome_iff_exists.mp hp
  induction t with
  | sentinel => rfl
  | node l c q r ihl ihr =>
      have hl := ihl (fun q hq => hlive q (RbTree.mem_inorder_node.mpr (.inl hq)))
      have hr := ihr (fun q hq => hlive q (RbTree.mem_inorder_node.mpr (.inr (.inr hq))))
      obtain ⟨bnt, hbnt⟩ := Option.isSome_iff_exists.mp
        (hlive q (RbTree.mem_inorder_node.mpr (.inr (.inl rfl))))
      have hleft : bn.goesLeft bnt
          = decide ((z.addrAt p).rank hash < (z.addrAt q).rank hash) := by
        rw [Zone.addrAt_eq hbn, Zone.addrAt_eq hbnt]
        exact (hholds p bn hbn).goesLeft_eq (hholds q bnt hbnt)
      simp only [banRbtreeInsert, Zone.deref_eq hbn, Zone.deref_eq hbnt, ok_bind, hl, hr,
        pure_eq_ok, RbTree.insertLeaf, ← hleft, BanNode.goesLeft]
      split
      · rfl
      · split
        · rfl
        · split <;> rename_i hcmp <;> simp [hcmp]

/-- The node a fresh block is filled with. -/
def BanNode.filled (junk : BanNode) (hash : Addr → Nat) (a : Addr) (now : Int) : BanNode :=
  { junk with
    key := hash a
    len := a.bytes.length
    addr := ngxMemcpy junk.addr a.bytes
    hits := 0
    bannedUntil := 0
    windowStart := now }

theorem BanNode.filled_address (junk : BanNode) (a : Addr) (now : Int) :
    (junk.filled hash a now).address = a := by
  have hbytes : (junk.filled hash a now).address.bytes = a.bytes := by
    simp only [BanNode.address, BanNode.filled, ngxMemcpy_take]
    exact List.take_of_length_le a.fits
  obtain ⟨bytes, fits⟩ := a
  simpa [BanNode.address] using hbytes

theorem BanNode.filled_holds (junk : BanNode) (a : Addr) (now : Int) :
    (junk.filled hash a now).Holds hash := by
  refine ⟨?_, ?_⟩ <;> rw [BanNode.filled_address] <;> rfl

/-- The zone with a block filled in. -/
def Zone.fillBlock (z : Zone) (p : Ptr) (bn : BanNode) : Zone :=
  { z with slab := Function.update z.slab p (some bn) }

theorem Zone.fillBlock_self (z : Zone) (p : Ptr) (bn : BanNode) :
    (z.fillBlock p bn).slab p = some bn := Function.update_self ..

theorem Zone.fillBlock_other (z : Zone) {p q : Ptr} (h : q ≠ p) (bn : BanNode) :
    (z.fillBlock p bn).slab q = z.slab q := Function.update_of_ne h _ _

/-- **A new address in a free block**: the rest of the zone is as it was, and the block
finds its place in the tree. -/
theorem Zone.Wf.insert_block {z : Zone} {ps : List Ptr} (h : z.Wf hash ps) {a : Addr}
    (ha : ∀ q ∈ ps, z.addrAt q ≠ a) {p : Ptr} (hfree : z.slab p = none) {bn : BanNode}
    (haddress : bn.address = a) (hholds : bn.Holds hash) :
    p ∉ ps ∧ (z.fillBlock p bn).addrAt p = a ∧ (∀ q ∈ ps, (z.fillBlock p bn).slab q = z.slab q)
      ∧ (∀ q bn', (z.fillBlock p bn).slab q = some bn' → bn'.Holds hash)
      ∧ ∃ t, banRbtreeInsert (z.fillBlock p bn) p z.sh.rbtree = .ok t
        ∧ t.SortedBy (fun q => ((z.fillBlock p bn).addrAt q).rank hash)
        ∧ t.inorder.Perm (p :: ps) := by
  have hpn : p ∉ ps := by
    intro hp
    have := (h.live p).mpr hp
    simp [hfree] at this
  have hself := z.fillBlock_self p bn
  have hmem : ∀ q ∈ ps, (z.fillBlock p bn).slab q = z.slab q := by
    intro q hq
    apply z.fillBlock_other
    intro heq
    subst heq
    exact hpn hq
  have haddr : (z.fillBlock p bn).addrAt p = a := (Zone.addrAt_eq hself).trans haddress
  have haddrs : ∀ q ∈ ps, (z.fillBlock p bn).addrAt q = z.addrAt q := fun q hq =>
    Zone.addrAt_of_nodeAt (Zone.nodeAt_congr (hmem q hq))
  have hall : ∀ q bn', (z.fillBlock p bn).slab q = some bn' → bn'.Holds hash := by
    intro q bn' hq
    by_cases hqp : q = p
    · subst hqp
      rw [hself] at hq
      exact Option.some.inj hq ▸ hholds
    · rw [z.fillBlock_other hqp] at hq
      exact h.holds q bn' hq
  have htree : ∀ q ∈ z.sh.rbtree.inorder, q ∈ ps := fun q hq => h.tree.mem_iff.mp hq
  have hlive : ∀ q ∈ z.sh.rbtree.inorder, ((z.fillBlock p bn).slab q).isSome := by
    intro q hq
    rw [hmem q (htree q hq)]
    exact (h.live q).mpr (htree q hq)
  refine ⟨hpn, haddr, hmem, hall, _,
    banRbtreeInsert_eq z.sh.rbtree (by rw [hself]; rfl) hlive hall, ?_, ?_⟩
  · refine RbTree.insertLeaf_sortedBy _ _ p ?_ (fun _ _ => rfl) ?_
    · refine h.sorted.of_sublist _ (List.Sublist.refl _) fun q hq => ?_
      rw [haddrs q (htree q hq)]
    · -- no other node has the address
      intro q hq heq
      have := Addr.rank_injective hash heq
      rw [haddr, haddrs q (htree q hq)] at this
      exact ha q (htree q hq) this
  · exact (RbTree.insertLeaf_perm _ p z.sh.rbtree).trans (h.tree.cons p)

/-- **Creating a node for a new address** adds it at the head. -/
theorem Zone.Wf.create (T : NgxRbtree) {z : Zone} {ps : List Ptr} (h : z.Wf hash ps) {a : Addr}
    (ha : ∀ q ∈ ps, z.addrAt q ≠ a) {p : Ptr} (hfree : z.slab p = none) (junk : BanNode)
    (now : Int) :
    ∃ z', banCreate T { z with slab := Function.update z.slab p (some junk) } p (hash a) a.bytes now
        = .ok z' ∧ z'.Wf hash (p :: ps)
      ∧ z'.lru (p :: ps)
        = { nodes := ⟨a, Entry.fresh now⟩ :: (z.lru ps).nodes, cursor := (z.lru ps).cursor }
      ∧ z'.sh.bans = z.sh.bans := by
  -- `z₁` has the block filled in, and `z₂` the block in the tree as well; then it is queued.
  let bn := junk.filled hash a now
  let z₁ : Zone := z.fillBlock p bn
  obtain ⟨hpn, haddr, hmem₁, hholds₁, t, hinsert, hsorted, hperm⟩ :=
    h.insert_block ha hfree (junk.filled_address a now) (junk.filled_holds a now)
  have hp₁ : z₁.slab p = some bn := z.fillBlock_self p bn
  let z₂ : Zone := { z₁ with sh := { z₁.sh with rbtree := T.rebalance t } }
  have hspells : z₂.links.Spells ps := by
    refine h.spells.agree ⟨rfl, rfl⟩ fun q hq => ?_
    show (z₁.slab q).bind _ = _ ∧ (z₁.slab q).bind _ = _
    rw [hmem₁ q hq]
    exact ⟨rfl, rfl⟩
  have hpr : z₂.Readable (some p) := by
    rintro q ⟨rfl⟩
    show (z₁.slab p).isSome
    simp [hp₁]
  have hfirst : z₂.Readable (z₂.links.next none) := by
    intro q hq
    rw [hspells.next_none] at hq
    have hq' := List.mem_of_head? hq
    show (z₁.slab q).isSome
    rw [hmem₁ q hq']
    exact (h.live q).mpr hq'
  have hhead : z₂.Readable none := by rintro q ⟨⟩
  -- The four link writes of `ngx_queue_insert_head`, each to a block that can be written.
  have hc : z₂.Covers (z₂.links.linkHead p) :=
    (((z₂.covers_links.setNext hpr _).setPrev hfirst _).setPrev hpr _).setNext hhead _
  have hnode : ∀ q ∈ ps, (z₂.relink (z₂.links.linkHead p)).nodeAt q = z.nodeAt q := by
    intro q hq
    rw [Zone.nodeAt_relink]
    exact Zone.nodeAt_congr (hmem₁ q hq)
  have hnodep : (z₂.relink (z₂.links.linkHead p)).nodeAt p = ⟨a, Entry.fresh now⟩ := by
    rw [Zone.nodeAt_relink]
    show (⟨z₁.addrAt p, z₁.entryAt p⟩ : LruNode) = _
    rw [haddr, Zone.entryAt_eq hp₁]
    rfl
  refine ⟨z₂.relink (z₂.links.linkHead p), ?_, ⟨⟨?_, ?_, ?_, ?_, ?_, ?_⟩, ?_⟩, ?_, rfl⟩
  · have hd : ∀ bn', Zone.store { z with slab := Function.update z.slab p (some junk) } p bn'
        = .ok { z with slab := Function.update z.slab p (some bn') } := by
      intro bn'
      rw [Zone.store_eq (by simp)]
      simp
    have hins : ngxRbtreeInsert T z₁ p = .ok z₂ := by
      rw [ngxRbtreeInsert, show z₁.sh.rbtree = z.sh.rbtree from rfl, hinsert]
      rfl
    rw [banCreate, Zone.deref_eq (Function.update_self ..), ok_bind, hd, ok_bind]
    show (do let z ← ngxRbtreeInsert T z₁ p; ngxQueueInsertHead z p) = _
    rw [hins, ok_bind]
    exact ngxQueueInsertHead_eq (hpr p rfl) hfirst
  · rw [Zone.links_relink hc]
    exact hspells.linkHead h.nodup hpn
  · exact List.nodup_cons.mpr ⟨hpn, h.nodup⟩
  · show (T.rebalance t).inorder.Perm (p :: ps)
    rw [T.inorder_rebalance]
    exact hperm
  · intro q
    rw [Zone.relink_isSome, List.mem_cons]
    show (z₁.slab q).isSome ↔ _
    by_cases hqp : q = p
    · simp [hqp, hp₁]
    · rw [z.fillBlock_other hqp, h.live q]
      simp [hqp]
  · intro q bn' hq
    obtain ⟨bn₀, hbn₀, rfl⟩ := Option.map_eq_some_iff.mp hq
    exact ⟨(hholds₁ q bn₀ hbn₀).key, (hholds₁ q bn₀ hbn₀).len⟩
  · rw [Zone.addrAt_relink]
    refine RbTree.SortedBy.of_sublist (t := t) _ hsorted ?_ (fun _ _ => rfl)
    show (T.rebalance t).inorder.Sublist _
    rw [T.inorder_rebalance]
  · intro q hq
    exact List.mem_cons_of_mem p (h.cursor q hq)
  · have hcursor : z.sh.cursor.map (z₂.relink (z₂.links.linkHead p)).addrAt
        = z.sh.cursor.map z.addrAt := by
      refine Option.map_congr fun q hq => ?_
      exact Zone.addrAt_of_nodeAt (hnode q (h.cursor q hq))
    show Lru.mk ((p :: ps).map _) (z.sh.cursor.map _) = _
    rw [hcursor, List.map_cons, hnodep, List.map_congr_left hnode]
    rfl

/-! ## §8. A hit of a tracked address. -/

/-- Overwriting the counters of a block leaves every address. -/
theorem Zone.addrAt_store {z : Zone} {p : Ptr} {bn : BanNode} (hp : z.slab p = some bn) (e : Entry) :
    Zone.addrAt { z with slab := Function.update z.slab p (some { bn with toEntry := e }) }
      = z.addrAt := by
  funext q
  by_cases hq : q = p
  · subst hq
    rw [Zone.addrAt_eq (Function.update_self ..), Zone.addrAt_eq hp]
    rfl
  · exact Zone.addrAt_of_nodeAt (Zone.nodeAt_congr (Function.update_of_ne hq _ _))

/-- Overwriting the counters of a queued node keeps the zone well-formed. -/
theorem Zone.Wf.store {z : Zone} {ps : List Ptr} (h : z.Wf hash ps) {p : Ptr} {bn : BanNode}
    (hp : z.slab p = some bn) (e : Entry) :
    Zone.Wf hash { z with slab := Function.update z.slab p (some { bn with toEntry := e }) } ps := by
  let z' : Zone := { z with slab := Function.update z.slab p (some { bn with toEntry := e }) }
  have hself : z'.slab p = some { bn with toEntry := e } := Function.update_self ..
  have hslab : ∀ q, q ≠ p → z'.slab q = z.slab q := fun q hq => Function.update_of_ne hq _ _
  have haddr : z'.addrAt = z.addrAt := Zone.addrAt_store hp e
  refine ⟨⟨?_, h.nodup, h.tree, ?_, ?_, ?_⟩, h.cursor⟩
  · refine h.spells.agree ⟨rfl, rfl⟩ fun q _ => ?_
    show (z'.slab q).bind _ = (z.slab q).bind _ ∧ (z'.slab q).bind _ = (z.slab q).bind _
    by_cases hq : q = p
    · subst hq
      rw [hself, hp]
      exact ⟨rfl, rfl⟩
    · rw [hslab q hq]
      exact ⟨rfl, rfl⟩
  · intro q
    show (z'.slab q).isSome ↔ _
    rw [← h.live q]
    by_cases hq : q = p
    · subst hq
      simp [hself, hp]
    · rw [hslab q hq]
  · intro q bn' hq'
    by_cases hq : q = p
    · subst hq
      obtain rfl : { bn with toEntry := e } = bn' := by simpa using hself.symm.trans hq'
      exact ⟨(h.holds q bn hp).key, (h.holds q bn hp).len⟩
    · exact h.holds q bn' (by rw [← hslab q hq]; exact hq')
  · show z.sh.rbtree.SortedBy (fun q => (z'.addrAt q).rank hash)
    rw [haddr]
    exact h.sorted

/-- The abstract zone after the counters of the first queued node are
overwritten. -/
theorem Zone.lru_store {z : Zone} {p : Ptr} {ps : List Ptr} {bn : BanNode}
    (hp : z.slab p = some bn) (hpn : p ∉ ps) (e : Entry) :
    Zone.lru { z with slab := Function.update z.slab p (some { bn with toEntry := e }) } (p :: ps)
      = { nodes := ⟨z.addrAt p, e⟩ :: ps.map z.nodeAt, cursor := (z.lru (p :: ps)).cursor } := by
  let z' : Zone := { z with slab := Function.update z.slab p (some { bn with toEntry := e }) }
  have hself : z'.slab p = some { bn with toEntry := e } := Function.update_self ..
  have hnodes : ∀ q ∈ ps, z'.nodeAt q = z.nodeAt q := fun q hq =>
    Zone.nodeAt_congr (Function.update_of_ne (by rintro rfl; exact hpn hq) _ _)
  have haddr : z'.addrAt = z.addrAt := Zone.addrAt_store hp e
  have hnodep : z'.nodeAt p = ⟨z.addrAt p, e⟩ := by
    rw [Zone.nodeAt, haddr, Zone.entryAt_eq hself]
  show Lru.mk ((p :: ps).map z'.nodeAt) (z.sh.cursor.map z'.addrAt) = _
  rw [List.map_cons, hnodep, List.map_congr_left hnodes, haddr]
  rfl

/-- **Counting a hit** on the node at the head of the queue. -/
theorem banCount_refines {z : Zone} {p : Ptr} {ps : List Ptr} (h : z.Wf hash (p :: ps))
    (now : Int) (count : Nat) (window banTime : Int) :
    ∃ z', banCount z p now count window banTime = .ok z' ∧ z'.Wf hash (p :: ps)
      ∧ z'.lru (p :: ps) = {
          nodes := ⟨z.addrAt p, ((z.entryAt p).hit now count window banTime).1⟩ :: ps.map z.nodeAt
          cursor := (z.lru (p :: ps)).cursor }
      ∧ decide (z'.sh.bans ≠ z.sh.bans) = ((z.entryAt p).hit now count window banTime).2 := by
  obtain ⟨bn, hbn, -⟩ := h.toShape.deref (p := p) (by simp)
  have hpn : p ∉ ps := (List.nodup_cons.mp h.nodup).1
  rw [Zone.entryAt_eq hbn]
  simp only [banCount, Zone.deref_eq hbn, ok_bind, Entry.hit]
  split
  · -- the hit arms a ban: one more in the total
    let z₁ : Zone := { z with sh := { z.sh with bans := z.sh.bans + 1 } }
    have hwf₁ : z₁.Wf hash (p :: ps) :=
      ⟨⟨h.spells, h.nodup, h.tree, h.live, h.holds, h.sorted⟩, h.cursor⟩
    have hbn₁ : z₁.slab p = some bn := hbn
    refine ⟨_, Zone.store_eq (z := z₁) (by simp [hbn₁]) _, hwf₁.store hbn₁ _,
      Zone.lru_store hbn₁ hpn _, ?_⟩
    show decide (z.sh.bans + 1 ≠ z.sh.bans) = true
    simp
  · exact ⟨_, Zone.store_eq (by simp [hbn]) _, h.store hbn _, Zone.lru_store hbn hpn _, by simp⟩

/-- **`banRecordLocked` is the abstract record**, the slab's answer being the
room; the bans total goes up exactly when a ban is armed. -/
theorem banRecordLocked_refines (T : NgxRbtree) (alloc : SlabAlloc) {z : Zone} {ps : List Ptr}
    (h : z.Wf hash ps) (a : Addr) (now : Int) (count : Nat) (window banTime : Int) :
    ∃ room z' ps' rc,
      banRecordLocked T alloc z (hash a) a.bytes now count window banTime = .ok (z', rc)
      ∧ z'.Wf hash ps'
      ∧ z'.lru ps' = ((z.lru ps).record a now count window banTime room).1
      ∧ ((z.lru ps).record a now count window banTime room).2
          = (if rc = ngxOk then some (decide (z'.sh.bans ≠ z.sh.bans)) else none)
      ∧ (rc ≠ ngxOk → rc = ngxError ∧ z'.sh.bans = z.sh.bans) := by
  by_cases ha : ∃ p ∈ ps, z.addrAt p = a
  · -- a tracked address: count on the node lookup moved to the head
    obtain ⟨p, hp, rfl⟩ := ha
    obtain ⟨L, ps', hlook, hwf, -, hrest⟩ := banLookup_found h hp
    obtain ⟨z', hcount, hwf', hlru', hbans⟩ := banCount_refines hwf now count window banTime
    have hget : (z.lru ps).get (z.addrAt p) = some (z.entryAt p) :=
      (h.toShape.get_lru _ _).mpr ⟨p, hp, rfl, rfl⟩
    rw [Zone.relink_bans] at hbans
    have hentry : (z.relink L).entryAt p = z.entryAt p := by
      have := congrFun (Zone.nodeAt_relink z L) p
      simpa [Zone.nodeAt] using this
    rw [hentry, Zone.addrAt_relink, Zone.nodeAt_relink, hrest] at hlru'
    rw [hentry] at hbans
    refine ⟨true, z', p :: ps', ngxOk, ?_, hwf', ?_, ?_, by simp⟩
    · simp only [banRecordLocked, banFindOrCreate, hlook, ok_bind, pure_eq_ok, hcount]
    · rw [hlru', Lru.record_of_get_some hget]
      simp [Zone.lru]
    · rw [Lru.record_of_get_some hget, if_pos rfl, hbans]
  · -- a new address: sweep, then a fresh node if the slab has room
    have ha' : ∀ p ∈ ps, z.addrAt p ≠ a := fun p hp heq => ha ⟨p, hp, heq⟩
    have hget : (z.lru ps).get a = none := (Zone.Shape.get_lru_none a).mpr ha'
    obtain ⟨z₁, ps₁, hexp, hwf₁, hlru₁, hbans₁⟩ := banExpire_refines T h now window
    have ha₁ : ∀ p ∈ ps₁, z₁.addrAt p ≠ a := by
      refine (Zone.Shape.get_lru_none a).mp ?_
      rw [hlru₁]
      exact Lru.get_expire_none hget now window
    cases hpick : alloc.pick z₁.slab with
    | none =>
        refine ⟨false, z₁, ps₁, ngxError, ?_, hwf₁, ?_, ?_, fun _ => ⟨rfl, hbans₁⟩⟩
        · simp only [banRecordLocked, banFindOrCreate, banLookup_absent h ha', ok_bind, hexp,
            slabAlloc, hpick, pure_eq_ok]
        · rw [Lru.record_of_get_none hget, hlru₁]
          rfl
        · rw [Lru.record_of_get_none hget]
          rfl
    | some pj =>
        obtain ⟨p, junk⟩ := pj
        have hfree := alloc.fresh z₁.slab p junk hpick
        obtain ⟨z₂, hcreate, hwf₂, hlru₂, hbans₂⟩ := hwf₁.create T ha₁ hfree junk now
        obtain ⟨z', hcount, hwf', hlru', hbans⟩ := banCount_refines hwf₂ now count window banTime
        obtain ⟨hnodep, hnodes⟩ := List.cons.inj (congrArg Lru.nodes hlru₂)
        have haddr : z₂.addrAt p = a := congrArg Sigma.fst hnodep
        have hentry : z₂.entryAt p = Entry.fresh now := congrArg (fun x : LruNode => x.2) hnodep
        have hnodes' : ps₁.map z₂.nodeAt = (z₁.lru ps₁).nodes := hnodes
        have hcursor : (z₂.lru (p :: ps₁)).cursor = (z₁.lru ps₁).cursor := by rw [hlru₂]
        rw [haddr, hentry, hnodes', hlru₁] at hlru'
        rw [hentry, hbans₂, hbans₁] at hbans
        refine ⟨true, z', p :: ps₁, ngxOk, ?_, hwf', ?_, ?_, by simp⟩
        · simp only [banRecordLocked, banFindOrCreate, banLookup_absent h ha', ok_bind, hexp,
            slabAlloc, hpick, pure_eq_ok, hcreate, hcount]
        · rw [hlru', Lru.record_of_get_none hget, if_pos rfl, hcursor, hlru₁]
        · rw [Lru.record_of_get_none hget, if_pos rfl, if_pos rfl, hbans]

/-! ## §9. The four calls together. -/

/-- A call that looks an address up and does nothing else. -/
theorem banLookup_refines {z : Zone} {ps : List Ptr} (h : z.Wf hash ps) (a : Addr) :
    ∃ z' ps' r, banLookup z (hash a) a.bytes = .ok (z', r) ∧ z'.Wf hash ps'
      ∧ z'.lru ps' = (z.lru ps).touch a
      ∧ (z.lru ps).get a = r.map z'.entryAt
      ∧ (∀ p, r = some p → z'.addrAt p = a ∧ (z'.slab p).isSome)
      ∧ z'.sh.bans = z.sh.bans := by
  by_cases ha : ∃ p ∈ ps, z.addrAt p = a
  · obtain ⟨p, hp, rfl⟩ := ha
    obtain ⟨L, ps', hlook, hwf, hlru, -⟩ := banLookup_found h hp
    have hentry : (z.relink L).entryAt p = z.entryAt p := by
      have := congrFun (Zone.nodeAt_relink z L) p
      simpa [Zone.nodeAt] using this
    refine ⟨_, _, some p, hlook, hwf, hlru, ?_, ?_, rfl⟩
    · rw [Option.map_some, hentry]
      exact (h.toShape.get_lru _ _).mpr ⟨p, hp, rfl, rfl⟩
    · rintro q ⟨rfl⟩
      exact ⟨by rw [Zone.addrAt_relink], (hwf.live p).mpr (by simp)⟩
  · have ha' : ∀ p ∈ ps, z.addrAt p ≠ a := fun p hp heq => ha ⟨p, hp, heq⟩
    have hget : (z.lru ps).get a = none := (Zone.Shape.get_lru_none a).mpr ha'
    exact ⟨z, ps, none, banLookup_absent h ha', h, (Lru.touch_of_get_none hget).symm, hget,
      by simp, rfl⟩

/-- **The step refinement**: every call on a well-formed zone returns, keeps it
well-formed, and is a call of the abstract zone with the same answer. -/
theorem Zone.step_refines (T : NgxRbtree) {z : Zone} {ps : List Ptr} (h : z.Wf hash ps) (op : Op) :
    ∃ room z' ps' r, z.step T hash op = .ok (z', r) ∧ z'.Wf hash ps'
      ∧ (z.lru ps).step op room = (z'.lru ps', r) := by
  cases op with
  | lookup a =>
      obtain ⟨z', ps', r, hlook, hwf, hlru, hget, -, -⟩ := banLookup_refines h a
      refine ⟨true, z', ps', .found r.isSome, ?_, hwf, ?_⟩
      · simp only [Zone.step, hlook, ok_bind, pure_eq_ok]
      · rw [Lru.step, hlru, hget, Option.isSome_map]
  | isBanned a now =>
      obtain ⟨z', ps', r, hlook, hwf, hlru, hget, hr, -⟩ := banLookup_refines h a
      cases r with
      | none =>
          refine ⟨true, z', ps', .banned false, ?_, hwf, ?_⟩
          · simp only [Zone.step, banIsBannedLocked, hlook, ok_bind, pure_eq_ok]
          · rw [Lru.step, hlru, hget]
            rfl
      | some p =>
          obtain ⟨bn, hbn⟩ := Option.isSome_iff_exists.mp (hr p rfl).2
          refine ⟨true, z', ps', .banned (bn.bannedUntil > now), ?_, hwf, ?_⟩
          · simp only [Zone.step, banIsBannedLocked, hlook, ok_bind, pure_eq_ok,
              Zone.deref_eq hbn]
          · rw [Lru.step, hlru, hget, Option.map_some, Zone.entryAt_eq hbn]
            rfl
  | expire now window =>
      obtain ⟨z', ps', hexp, hwf, hlru, -⟩ := banExpire_refines T h now window
      refine ⟨true, z', ps', .done, ?_, hwf, ?_⟩
      · simp only [Zone.step, hexp, ok_bind, pure_eq_ok]
      · rw [Lru.step, hlru]
  | record a now count window banTime alloc =>
      obtain ⟨room, z', ps', rc, hrec, hwf, hlru, hout, -⟩ :=
        banRecordLocked_refines T alloc h a now count window banTime
      refine ⟨room, z', ps', _, by simp only [Zone.step, hrec, ok_bind, pure_eq_ok]; rfl, hwf, ?_⟩
      simp only [Lru.step]
      rw [show (z.lru ps).record a now count window banTime room
        = (z'.lru ps', if rc = ngxOk then some (decide (z'.sh.bans ≠ z.sh.bans)) else none)
        from Prod.ext hlru.symm hout]
      by_cases hrc : rc = ngxOk <;> simp [hrc]

end HttpShield
