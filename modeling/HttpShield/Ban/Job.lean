/-
  HttpShield.Ban.Job
  ──────────────────
  What exactly one eviction call does.

  A call walks from the cursor toward the head and, unless it began at the tail,
  once more from the tail: `Zone.visiting` is the whole of that path, and the
  call is one budgeted walk along it.

    • `Lru.expire_eq` — the abstract eviction is the cyclic walk of
      `BudgetedWalk`,
    • `Zone.Trims.job` — a call that only frees blocks and relinks the queue does
      to the blocks what the abstract eviction does to its nodes,
    • `banExpire_job` — the nodes it frees, what it leaves, where it parks the
      cursor.
-/
import HttpShield.Lib.BudgetedWalk
import HttpShield.Ban.Eviction
import HttpShield.Ban.Frame

namespace HttpShield

open BudgetedWalk LinkedQueue

/-! ## §1. The abstract eviction is a cyclic walk. -/

/-- The node may be evicted. -/
def LruNode.stale (now window : Int) (x : LruNode) : Bool := !x.2.isLive now window

/-- A lap is one budgeted walk. -/
theorem lap_eq (now window : Int) (scan evict : Nat) (todo : List LruNode) :
    lap now window scan evict todo = {
      kept := kept (LruNode.stale now window) scan evict todo
      rest := unreached (LruNode.stale now window) scan evict todo
      scan := scan - (judged (LruNode.stale now window) scan evict todo).length
      evict := evict - (taken (LruNode.stale now window) scan evict todo).length } := by
  fun_induction lap now window scan evict todo with
  | case1 => simp [kept, unreached, taken]
  | case2 => simp [kept, unreached, taken]
  | case3 => simp [kept, unreached, taken]
  | case4 scan evict x todo hlive ih =>
      rw [ih]
      simp [Lap.keep, kept, unreached, taken, judged, LruNode.stale, hlive]
  | case5 scan evict x todo hstale ih =>
      rw [ih]
      simp [kept, unreached, taken, judged, LruNode.stale, hstale]

/-- **The abstract eviction is the cyclic walk** from the cursor. -/
theorem Lru.expire_eq (s : Lru) (now window : Int) :
    s.expire now window
      = Lru.park
          (cyclic (LruNode.stale now window) (s.cursor ≠ none) banExpireScan banExpireEvict
            s.cut.1 s.cut.2).1
          (cyclic (LruNode.stale now window) (s.cursor ≠ none) banExpireScan banExpireEvict
            s.cut.1 s.cut.2).2 := by
  simp only [Lru.expire, Lru.firstLap, lap_eq, cyclic, decide_eq_true_eq]
  split <;> rfl

/-! ## §2. The job of one call. -/

variable {hash : Addr → Nat}

/-- The node at a block may be evicted. -/
def Zone.staleAt (z : Zone) (now window : Int) (p : Ptr) : Bool :=
  !(z.entryAt p).isLive now window

/-- **The visiting sequence** over a queue: from the cursor toward the head, or
from the tail when the cursor is the sentinel; from a cursor in the queue once
more from the tail to the head, without what the first lap has freed. -/
def Zone.visiting (z : Zone) (now window : Int) (queue : List Ptr) : List Ptr :=
  match z.sh.cursor with
  | none => queue.reverse
  | some c =>
      let ahead := queue.reverse.dropWhile (fun p => p ≠ c)
      ahead ++ queue.reverse.filter (fun p =>
        p ∉ ((ahead.take banExpireScan).filter (z.staleAt now window)).take banExpireEvict)

/-- The first `banExpireEvict` stale nodes among the first `banExpireScan`
positions of the visiting sequence. -/
def Zone.freedBy (z : Zone) (now window : Int) (queue : List Ptr) : List Ptr :=
  (((z.visiting now window queue).take banExpireScan).filter
    (z.staleAt now window)).take banExpireEvict

/-- The node a call looks at last. -/
def Zone.lastJudged (z : Zone) (now window : Int) (queue : List Ptr) : Option Ptr :=
  (judged (z.staleAt now window) banExpireScan banExpireEvict
    (z.visiting now window queue)).getLast?

/-- **The job of an eviction call** that takes `z` to `z'`. -/
structure Zone.Job (hash : Addr → Nat) (z z' : Zone) (queue : List Ptr) (now window : Int) :
    Prop where
  /-- Queue and tree hold the nodes that are not freed, the queue in its order. -/
  wf : z'.Wf hash (queue.filter (fun p => p ∉ z.freedBy now window queue))
  freed : ∀ p ∈ z.freedBy now window queue, z'.slab p = none ∧ p ∉ z'.sh.rbtree.inorder
  /-- Every other node keeps its fields. -/
  kept : ∀ p ∈ queue, p ∉ z.freedBy now window queue →
    ∃ bn links, z.slab p = some bn ∧ z'.slab p = some { bn with queue := links }
  /-- The cursor is the neighbour toward the head of the node looked at last. -/
  cursor : z'.sh.cursor = (z.lastJudged now window queue).bind
    (fun p => follower (z.freedBy now window queue) p queue.reverse)
  counters : z'.sh.catHits = z.sh.catHits ∧ z'.sh.blocked = z.sh.blocked
    ∧ z'.sh.bans = z.sh.bans

/-! ## §3. The walk in the visiting order. -/

/-- The abstract stale test is the one at the block. -/
theorem Zone.stale_nodeAt (z : Zone) (now window : Int) :
    (fun p => LruNode.stale now window (z.nodeAt p)) = z.staleAt now window := rfl

/-- The path a call walks, cut where it starts. -/
theorem Zone.Wf.visiting_eq {z : Zone} {queue passed todo : List Ptr} (h : z.Wf hash queue)
    (now window : Int) (hrev : queue.reverse = passed ++ todo)
    (hhead : todo.head? = if z.sh.cursor = none then queue.reverse.head? else z.sh.cursor)
    (hnone : z.sh.cursor = none → passed = []) :
    z.visiting now window queue
      = tour (z.staleAt now window) (z.sh.cursor ≠ none) banExpireScan banExpireEvict passed todo := by
  cases hc : z.sh.cursor with
  | none =>
      obtain rfl := hnone hc
      simp only [Zone.visiting, hc, tour, hrev]
      simp
  | some c =>
      rw [hc, if_neg (by simp)] at hhead
      obtain ⟨ys, rfl⟩ := List.head?_eq_some_iff.mp hhead
      have hnd : (passed ++ c :: ys).Nodup := hrev ▸ List.nodup_reverse.mpr h.nodup
      have hahead : queue.reverse.dropWhile (fun p => p ≠ c) = c :: ys := by
        rw [hrev, dropWhile_ne_of_nodup hnd]
      simp only [Zone.visiting, hc, hahead]
      rw [tour, if_pos (by simp), taken_eq, hrev]

/-- A call parks the cursor where the cyclic walk over the blocks stops, and leaves
the blocks that walk leaves. -/
theorem Zone.Wf.expire_cyclic {z : Zone} {queue passed todo : List Ptr}
    (hcut : (z.lru queue).cut = (passed.map z.nodeAt, todo.map z.nodeAt)) (now window : Int) :
    (z.lru queue).expire now window
      = Lru.park
          ((cyclic (z.staleAt now window) (z.sh.cursor ≠ none) banExpireScan banExpireEvict
            passed todo).1.map z.nodeAt)
          ((cyclic (z.staleAt now window) (z.sh.cursor ≠ none) banExpireScan banExpireEvict
            passed todo).2.map z.nodeAt) := by
  have hcursor : (decide ((z.lru queue).cursor ≠ none)) = decide (z.sh.cursor ≠ none) := by
    simp [Zone.lru]
  rw [Lru.expire_eq, hcut, hcursor, cyclic_map, z.stale_nodeAt]
  rfl

/-- Two lists of queued blocks with the same nodes are the same. -/
theorem Zone.Shape.eq_of_map_nodeAt {z : Zone} {queue : List Ptr} (h : z.Shape hash queue) :
    ∀ {xs ys : List Ptr}, xs ⊆ queue → ys ⊆ queue → xs.map z.nodeAt = ys.map z.nodeAt → xs = ys := by
  intro xs
  induction xs with
  | nil =>
      intro ys _ _ heq
      exact (List.map_eq_nil_iff.mp heq.symm).symm
  | cons x xs ih =>
      intro ys hxs hys heq
      cases ys with
      | nil => simp at heq
      | cons y ys =>
          rw [List.map_cons, List.map_cons, List.cons.injEq] at heq
          obtain ⟨hxq, hxs⟩ := List.cons_subset.mp hxs
          obtain ⟨hyq, hys⟩ := List.cons_subset.mp hys
          rw [h.addrAt_inj hxq hyq (congrArg Sigma.fst heq.1), ih hxs hys heq.2]

/-- **The job, read off the abstract eviction**: a zone that only had blocks freed
and stands for what the abstract eviction leaves. -/
theorem Zone.Trims.job {z z' : Zone} {queue queue' : List Ptr} {now window : Int}
    (htrims : z.Trims z') (h : z.Wf hash queue) (h' : z'.Wf hash queue')
    (hlru : z'.lru queue' = (z.lru queue).expire now window) :
    z.Job hash z' queue now window := by
  obtain ⟨passed, todo, hrev, hcut, hhead, hnone⟩ := h.cut_lru
  have hnd : (passed ++ todo).Nodup := hrev ▸ List.nodup_reverse.mpr h.nodup
  have hvisiting := h.visiting_eq now window hrev hhead hnone
  have hfreed : z.freedBy now window queue = taken (z.staleAt now window) banExpireScan
      banExpireEvict (z.visiting now window queue) := (taken_eq _ _ _ _).symm
  -- what the walk over the blocks leaves, and where it stops
  have hleft := cyclic_left (z.staleAt now window) (z.sh.cursor ≠ none) banExpireScan
    banExpireEvict hnd
  have hnext := cyclic_next (z.staleAt now window) (z.sh.cursor ≠ none) hnd
    (show 0 < banExpireScan by decide) (show 0 < banExpireEvict by decide)
  rw [← hvisiting, ← hfreed, ← hrev] at hleft hnext
  rw [Zone.Wf.expire_cyclic hcut] at hlru
  generalize cyclic (z.staleAt now window) (z.sh.cursor ≠ none) banExpireScan banExpireEvict
    passed todo = walk at hleft hnext hlru
  -- every block in use was in use, for the same address
  have hsub : queue' ⊆ queue := by
    intro p hp
    obtain ⟨bn', hbn', -⟩ := h'.toShape.deref hp
    obtain ⟨bn, hbn, -⟩ := htrims.slab p bn' hbn'
    exact (h.live p).mp (by simp [hbn])
  have hnode : ∀ p ∈ queue', z'.nodeAt p = z.nodeAt p := by
    intro p hp
    obtain ⟨bn', hbn', -⟩ := h'.toShape.deref hp
    obtain ⟨bn, hbn, heq⟩ := htrims.slab p bn' hbn'
    rw [Zone.nodeAt, Zone.nodeAt, Zone.addrAt_eq hbn', Zone.addrAt_eq hbn, Zone.entryAt_eq hbn',
      Zone.entryAt_eq hbn, heq]
    rfl
  have hwalk : walk.1 ++ walk.2 ⊆ queue := by
    intro p hp
    rw [hleft, List.mem_filter, List.mem_reverse] at hp
    exact hp.1
  have hqueue : queue' = queue.filter (fun p => p ∉ z.freedBy now window queue) := by
    refine h.toShape.eq_of_map_nodeAt hsub (List.filter_subset_self _) ?_
    calc queue'.map z.nodeAt
        = queue'.map z'.nodeAt := (List.map_congr_left hnode).symm
      _ = ((walk.1 ++ walk.2).map z.nodeAt).reverse := by
          rw [List.map_append]
          exact congrArg Lru.nodes hlru
      _ = (queue.filter (fun p => p ∉ z.freedBy now window queue)).map z.nodeAt := by
          rw [hleft, ← List.map_reverse, ← List.filter_reverse, List.reverse_reverse]
  have hcursor : z'.sh.cursor = walk.2.head? := by
    have hparked : z'.sh.cursor.map z'.addrAt = walk.2.head?.map z.addrAt := by
      refine (congrArg Lru.cursor hlru).trans ?_
      rw [Lru.park, List.head?_map, Option.map_map]
      rfl
    cases hc : z'.sh.cursor with
    | none =>
        rw [hc, Option.map_none, eq_comm, Option.map_eq_none_iff] at hparked
        exact hparked.symm
    | some c =>
        have hcq := h'.cursor c hc
        rw [hc, Option.map_some, eq_comm, Option.map_eq_some_iff] at hparked
        obtain ⟨p, hp, heq⟩ := hparked
        rw [Zone.addrAt_of_nodeAt (hnode c hcq)] at heq
        have hpq : p ∈ queue := hwalk (List.mem_append_right _ (List.mem_of_head? hp))
        rw [hp, h.toShape.addrAt_inj hpq (hsub hcq) heq]
  subst hqueue
  refine ⟨h', ?_, ?_, hcursor.trans hnext, htrims.catHits, htrims.blocked, htrims.bans⟩
  · intro p hp
    have hout : p ∉ queue.filter (fun p => p ∉ z.freedBy now window queue) := by simp [hp]
    refine ⟨?_, fun htree => hout (h'.tree.mem_iff.mp htree)⟩
    by_contra hsome
    exact hout ((h'.live p).mp (Option.isSome_iff_ne_none.mpr hsome))
  · intro p hp hkept
    have hin : p ∈ queue.filter (fun p => p ∉ z.freedBy now window queue) := by simp [hp, hkept]
    obtain ⟨bn', hbn', -⟩ := h'.toShape.deref hin
    obtain ⟨bn, hbn, heq⟩ := htrims.slab p bn' hbn'
    exact ⟨bn, bn'.queue, hbn, hbn'.trans (congrArg some heq)⟩

/-- **One eviction call does exactly its bounded job**: whatever the queue, the
cursor, the nodes, the clock and the window, it returns, frees the first stale
nodes of its visiting sequence within its two budgets, and parks the cursor
behind the last node it looked at. -/
theorem banExpire_job (T : NgxRbtree) (hash : Addr → Nat) (z : Zone) (queue : List Ptr)
    (h : z.Wf hash queue) (now window : Int) :
    ∃ z', banExpire T z now window = .ok z' ∧ z.Job hash z' queue now window := by
  obtain ⟨z', queue', hexp, hwf', hlru, -⟩ := banExpire_refines T h now window
  exact ⟨z', hexp, (banExpire_trims T hexp).job h hwf' hlru⟩

/-- A sweep over 34 entries, the first of which is stale, does its job. -/
theorem banExpire_job_of34 :
    ∃ z evs queue z', (banInitZone staleShctx).run .plain oneBucket oneLapsedOf34 = .ok (z, evs)
      ∧ queue.length = 34 ∧ banExpire .plain z 120 1 = .ok z'
      ∧ z.Job oneBucket z' queue 120 1 := by
  obtain ⟨z, queue, evs, hfilled, hwf, -, -⟩ :=
    banInitZone_run .plain oneBucket staleShctx oneLapsedOf34
  obtain ⟨z₁, queue₁, evs₁, hcalls, -, -, -⟩ :=
    Zone.run_refines .plain lookupsAndSweeps z queue hwf
  have heval := oneLapsedOf34_eval
  simp only [hfilled, hcalls, ok_bind, pure_eq_ok, Except.ok.injEq, decide_eq_true_eq] at heval
  obtain ⟨z', hexp, hjob⟩ := banExpire_job .plain oneBucket z queue hwf 120 1
  exact ⟨z, evs, queue, z', hfilled, by rw [← hwf.tree.length_eq, heval.1], hexp, hjob⟩

end HttpShield
