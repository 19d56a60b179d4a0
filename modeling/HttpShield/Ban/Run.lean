/-
  HttpShield.Ban.Run
  ──────────────────
  Whole runs of the ban zone, from the fresh segment on.

  Every sequence of calls — any clock, also stepping backwards, any policy, any
  hash, any slab behaviour — returns, and what it leaves is

    • `banZone_invariant`: a queue, a tree and a slab that hold the same nodes,
      each once, with a cursor that is never left on freed memory;
    • `banZone_refinesMap`: a finite map from addresses to counters, which each
      further call changes only as a map operation may.

  Both are read off one run refinement, `Zone.run_refines`.
-/
import HttpShield.Ban.Refinement

namespace HttpShield

open SearchTree LinkedQueue

/-! ## §1. Run refinement. -/

/-- Runs of the abstract zone: calls with their answers, the slab having room or
not as it pleases. -/
inductive Lru.Runs : Lru → List (Op × Reply) → Lru → Prop where
  | nil (s : Lru) : Lru.Runs s [] s
  | cons {s s' s'' : Lru} {op : Op} {r : Reply} {evs : List (Op × Reply)} (room : Bool)
      (hstep : s.step op room = (s', r)) (hrest : Lru.Runs s' evs s'') :
      Lru.Runs s ((op, r) :: evs) s''

/-- An abstract run keeps the addresses distinct. -/
theorem Lru.Runs.distinct {s s' : Lru} {evs : List (Op × Reply)} (h : Lru.Runs s evs s')
    (hs : s.Distinct) : s'.Distinct := by
  induction h with
  | nil s => exact hs
  | @cons s _ _ op _ _ room hstep hrest ih =>
      have hdistinct := hs.step op room
      rw [hstep] at hdistinct
      exact ih hdistinct

variable {hash : Addr → Nat}

/-- **The run refinement**: from a well-formed zone every sequence of calls
returns, and is a run of the abstract zone. -/
theorem Zone.run_refines (T : NgxRbtree) :
    ∀ (ops : List Op) (z : Zone) (ps : List Ptr), z.Wf hash ps →
      ∃ z' ps' evs, z.run T hash ops = .ok (z', evs) ∧ z'.Wf hash ps'
        ∧ evs.map (fun ev => ev.1) = ops ∧ Lru.Runs (z.lru ps) evs (z'.lru ps')
  | [], z, ps, h => ⟨z, ps, [], rfl, h, rfl, .nil _⟩
  | op :: ops, z, ps, h => by
      obtain ⟨room, z₁, ps₁, r, hstep, hwf₁, habs⟩ := z.step_refines T h op
      obtain ⟨z', ps', evs, hrun, hwf', hops, hruns⟩ := Zone.run_refines T ops z₁ ps₁ hwf₁
      refine ⟨z', ps', (op, r) :: evs, ?_, hwf', ?_, .cons room habs hruns⟩
      · simp only [Zone.run, hstep, ok_bind, hrun, pure_eq_ok]
      · simp only [List.map_cons, hops]

/-- Every run from the fresh segment returns, and leaves a well-formed zone. -/
theorem banInitZone_run (T : NgxRbtree) (hash : Addr → Nat) (garbage : Shctx) (ops : List Op) :
    ∃ z ps evs, (banInitZone garbage).run T hash ops = .ok (z, evs) ∧ z.Wf hash ps
      ∧ evs.map (fun ev => ev.1) = ops
      ∧ Lru.Runs { nodes := [], cursor := none } evs (z.lru ps) :=
  Zone.run_refines T ops (banInitZone garbage) [] (banInitZone_wf garbage)

/-- **The structural invariant of the ban zone.**  Every sequence of calls
returns — no freed node is ever followed — and leaves a queue that holds each
node of the tree exactly once and nothing else, all of them allocated, and a
cursor that is the sentinel or in that queue. -/
theorem banZone_invariant (T : NgxRbtree) (hash : Addr → Nat) (garbage : Shctx) (ops : List Op) :
    ∃ z evs ps, (banInitZone garbage).run T hash ops = .ok (z, evs)
      ∧ z.links.Spells ps ∧ ps.Nodup ∧ z.sh.rbtree.inorder.Perm ps
      ∧ (∀ p ∈ ps, (z.slab p).isSome)
      ∧ (∀ p, z.sh.cursor = some p → p ∈ ps) := by
  obtain ⟨z, ps, evs, hrun, hwf, -, -⟩ := banInitZone_run T hash garbage ops
  exact ⟨z, evs, ps, hrun, hwf.spells, hwf.nodup, hwf.tree, fun p hp => (hwf.live p).mpr hp,
    hwf.cursor⟩

/-! ## §2. The map. -/

/-- **The map the zone stands for**: the counters of the node of the tree that
stores the address, searched without regard to the order of the tree. -/
def Zone.entryOf (z : Zone) (a : Addr) : Option Entry :=
  ((z.sh.rbtree.inorder.filterMap z.slab).find? (fun bn => bn.address = a)).map
    (fun bn => bn.toEntry)

/-- The map of the zone is the map of the abstract zone. -/
theorem Zone.Shape.entryOf_eq {z : Zone} {ps : List Ptr} (h : z.Shape hash ps) (a : Addr) :
    z.entryOf a = (z.lru ps).get a := by
  cases hfind : (z.sh.rbtree.inorder.filterMap z.slab).find? (fun bn => bn.address = a) with
  | none =>
      rw [Zone.entryOf, hfind, Option.map_none, eq_comm, Zone.Shape.get_lru_none]
      intro p hp heq
      obtain ⟨bn, hbn, -⟩ := h.deref hp
      have hmem : bn ∈ z.sh.rbtree.inorder.filterMap z.slab :=
        List.mem_filterMap.mpr ⟨p, h.tree.mem_iff.mpr hp, hbn⟩
      have := List.find?_eq_none.mp hfind bn hmem
      rw [Zone.addrAt_eq hbn] at heq
      simp [heq] at this
  | some bn =>
      rw [Zone.entryOf, hfind, Option.map_some, eq_comm, h.get_lru]
      obtain ⟨p, hp, hbn⟩ := List.mem_filterMap.mp (List.mem_of_find?_eq_some hfind)
      refine ⟨p, h.tree.mem_iff.mp hp, ?_, Zone.entryAt_eq hbn⟩
      rw [Zone.addrAt_eq hbn]
      simpa using List.find?_some hfind

/-- A call changes each entry of the map as a call may. -/
theorem Zone.Wf.step_change {T : NgxRbtree} {z z' : Zone} {ps : List Ptr} (h : z.Wf hash ps)
    {op : Op} {r : Reply} (hstep : z.step T hash op = .ok (z', r)) (a : Addr) :
    Change a op r (z.entryOf a) (z'.entryOf a) ∧ ∃ ps', z'.Wf hash ps' := by
  obtain ⟨room, z₁, ps', r₁, hstep₁, hwf', habs⟩ := z.step_refines T h op
  obtain ⟨rfl, rfl⟩ : z₁ = z' ∧ r₁ = r :=
    Prod.ext_iff.mp (Except.ok.inj (hstep₁.symm.trans hstep))
  have hchange := Lru.step_change h.toShape.distinct op room a
  rw [habs, ← h.toShape.entryOf_eq, ← hwf'.toShape.entryOf_eq] at hchange
  exact ⟨hchange, ps', hwf'⟩

/-- An entry is left alone, or removed while stale at this clock and window. -/
def KeptOrStale (now window : Int) (old new : Option Entry) : Prop :=
  new = old ∨ new = none ∧ ∃ e, old = some e ∧ e.isLive now window = false

/-- **What it means for the zone to refine its map** under each of the calls. -/
structure RefinesMap (T : NgxRbtree) (hash : Addr → Nat) (z : Zone) : Prop where
  /-- The tree never holds two nodes for one address. -/
  one_node : (z.sh.rbtree.inorder.map z.addrAt).Nodup
  /-- Lookup finds a node exactly when the map has the address, and that
  address's own; the map is unchanged. -/
  lookup : ∀ a, ∃ z' r, banLookup z (hash a) a.bytes = .ok (z', r)
    ∧ r.map z'.entryAt = z.entryOf a ∧ (∀ p, r = some p → (z'.slab p).isSome ∧ z'.addrAt p = a)
    ∧ z'.entryOf = z.entryOf
  /-- `is_banned` answers from the map and leaves it unchanged. -/
  is_banned : ∀ a now, ∃ z', banIsBannedLocked z (hash a) a.bytes now
      = .ok (z', (z.entryOf a).any (fun e => e.bannedUntil > now))
    ∧ z'.entryOf = z.entryOf
  /-- Expire only removes entries that are stale at its clock and window. -/
  expire : ∀ now window, ∃ z', banExpire T z now window = .ok z'
    ∧ ∀ a, KeptOrStale now window (z.entryOf a) (z'.entryOf a)
  /-- Record changes only its own address's entry besides such removals, and
  when it fails it adds nothing and leaves the bans total. -/
  record : ∀ alloc a now count window banTime, ∃ z' rc,
    banRecordLocked T alloc z (hash a) a.bytes now count window banTime = .ok (z', rc)
    ∧ (∀ b, b ≠ a → KeptOrStale now window (z.entryOf b) (z'.entryOf b))
    ∧ (rc = ngxOk → z'.entryOf a
        = some (((z.entryOf a).getD (Entry.fresh now)).hit now count window banTime).1)
    ∧ (rc ≠ ngxOk → rc = ngxError ∧ z.entryOf a = none ∧ z'.entryOf a = none
        ∧ z'.sh.bans = z.sh.bans)

/-- A call that does not record `b` keeps its entry or removes it stale. -/
theorem Change.keptOrStale {b : Addr} {op : Op} {r : Reply} {old new : Option Entry}
    {now window : Int} (h : Change b op r old new) (hop : op.records b = false)
    (hsweep : op.sweep = some (now, window)) : KeptOrStale now window old new := by
  cases h with
  | keep => exact .inl rfl
  | evict _ _ x now' window' _ hsweep' hstale =>
      obtain ⟨rfl, rfl⟩ : now' = now ∧ window' = window := by
        simpa [hsweep'] using hsweep
      exact .inr ⟨rfl, x, rfl, hstale⟩
  | hit => simp [Op.records] at hop
  | drop => simp [Op.records] at hop

/-- A well-formed zone refines its map. -/
theorem Zone.Wf.refinesMap (T : NgxRbtree) {z : Zone} {ps : List Ptr} (h : z.Wf hash ps) :
    RefinesMap T hash z where
  one_node := by
    refine (List.nodup_map_iff_inj_on (h.tree.nodup_iff.mpr h.nodup)).mpr ?_
    intro p hp q hq heq
    exact h.toShape.addrAt_inj (h.tree.mem_iff.mp hp) (h.tree.mem_iff.mp hq) heq
  lookup := by
    intro a
    obtain ⟨z', ps', r, hlook, hwf', hlru', hget, hr, -⟩ := banLookup_refines h a
    refine ⟨z', r, hlook, ?_, fun p hp => (hr p hp).symm, ?_⟩
    · rw [h.toShape.entryOf_eq, hget]
    · funext b
      rw [h.toShape.entryOf_eq, hwf'.toShape.entryOf_eq, hlru', Lru.get_touch h.toShape.distinct]
  is_banned := by
    intro a now
    obtain ⟨room, z', ps', r, hstep, hwf', habs⟩ := z.step_refines T h (.isBanned a now)
    obtain ⟨hlru', rfl⟩ := Prod.ext_iff.mp habs
    obtain ⟨⟨z₁, b⟩, hban, hret⟩ := bind_eq_ok hstep
    obtain ⟨rfl, hb⟩ : z₁ = z' ∧ Reply.banned b = _ := by simpa using hret
    refine ⟨z₁, ?_, ?_⟩
    · rw [hban, h.toShape.entryOf_eq]
      simpa [Lru.step] using hb
    · funext b
      rw [h.toShape.entryOf_eq, hwf'.toShape.entryOf_eq,
        show z₁.lru ps' = (z.lru ps).touch a from hlru'.symm, Lru.get_touch h.toShape.distinct]
  expire := by
    intro now window
    obtain ⟨z', ps', hexp, hwf', hlru', -⟩ := banExpire_refines T h now window
    refine ⟨z', hexp, fun a => ?_⟩
    rw [h.toShape.entryOf_eq, hwf'.toShape.entryOf_eq, hlru']
    exact Lru.get_expire h.toShape.distinct now window a
  record := by
    intro alloc a now count window banTime
    obtain ⟨room, z', ps', rc, hrec, hwf', hlru', hout, hfail⟩ :=
      banRecordLocked_refines T alloc h a now count window banTime
    -- The address itself changes by the hit, every other one by the
    -- eviction for room, if at all.
    have hchange : ∀ b, Change b (.record a now count window banTime alloc)
        (if rc = ngxOk then .recorded (decide (z'.sh.bans ≠ z.sh.bans)) else .dropped)
        (z.entryOf b) (z'.entryOf b) := by
      intro b
      have hstep := Lru.step_change h.toShape.distinct
        (.record a now count window banTime alloc) room b
      rw [Lru.step_record, hout, ← hlru', ← h.toShape.entryOf_eq, ← hwf'.toShape.entryOf_eq] at hstep
      by_cases hrc : rc = ngxOk <;> simpa [hrc] using hstep
    refine ⟨z', rc, hrec, fun b hb => ?_, fun hrc => ?_, fun hrc => ?_⟩
    · exact (hchange b).keptOrStale (by simp [Op.records, Ne.symm hb]) rfl
    · have hc := hchange a
      rw [if_pos hrc] at hc
      rcases hc.record_self with ⟨hdrop, -, -⟩ | ⟨-, hnew⟩
      · exact absurd hdrop (by simp)
      · exact hnew
    · have hc := hchange a
      rw [if_neg hrc] at hc
      obtain ⟨herr, hbans⟩ := hfail hrc
      rcases hc.record_self with ⟨-, hold, hnew⟩ | ⟨hrec', -⟩
      · exact ⟨herr, hold, hnew, hbans⟩
      · exact absurd hrec' (by simp)

/-- **The ban zone refines a finite map**, after every run. -/
theorem banZone_refinesMap (T : NgxRbtree) (hash : Addr → Nat) (garbage : Shctx) (ops : List Op) :
    ∃ z evs, (banInitZone garbage).run T hash ops = .ok (z, evs) ∧ RefinesMap T hash z := by
  obtain ⟨z, ps, evs, hrun, hwf, -, -⟩ := banInitZone_run T hash garbage ops
  exact ⟨z, evs, hrun, hwf.refinesMap T⟩

/-! ## §3. Concrete calls. -/

/-- What a block of the slab may hold before it is filled. -/
def staleNode : BanNode where
  windowStart := -3
  bannedUntil := 77
  hits := 9
  key := 5
  len := 200
  addr := [1, 2, 3]
  queue := { prev := some 40, next := some 41 }

/-- What a segment may hold before it is set up. -/
def staleShctx : Shctx where
  rbtree := .node .sentinel .black 12 .sentinel
  queue := { prev := some 3, next := some 4 }
  catHits := Vector.replicate banNcounters 7
  blocked := 3
  bans := 4
  cursor := some 12

/-- An IPv4 client `192.0.2.n`. -/
def client (n : UInt8) : Addr where
  bytes := [192, 0, 2, n]
  fits := by simp

/-- Every client in one bucket: the worst hash there is. -/
def oneBucket : Addr → Nat := fun _ => 0

/-- A run determines its events. -/
theorem Zone.run_events {T : NgxRbtree} {hash : Addr → Nat} {z z' : Zone} {ops : List Op}
    {evs evs' : List (Op × Reply)} (h : z.run T hash ops = .ok (z', evs))
    (heval : (z.run T hash ops).map (fun r : Zone × List (Op × Reply) => r.2) = .ok evs') :
    evs = evs' := by
  rw [h] at heval
  exact Except.ok.inj heval

end HttpShield
