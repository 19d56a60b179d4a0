/-
  HttpShield.Ban.Eviction
  ───────────────────────
  Does eviction make progress?

  A sweep looks at `banExpireScan` nodes at most, in the order of its walk: from
  the cursor toward the head of the queue, then on from the tail.  Sweeps that
  see nothing stale change no more than the cursor.  But a lookup between two
  sweeps reorders the queue, and can keep a stale node out of every one of
  them:

    • `Lru.expire_of_not_sees`, `Lru.expire_of_sees` — what a sweep does, by
      what it sees,
    • `banExpire_frees_of_few` — a zone that one walk covers is never starved,
    • `banExpire_progress_iff` — sweeps and lookups free a stale node exactly
      when one of the sweeps sees one,
    • `banExpire_starves` — 35 sweeps over 34 nodes that never do.
-/
import HttpShield.Ban.Run

namespace HttpShield

/-! ## §1. What a sweep sees.

A walk starts at the cursor and has a budget of nodes to look at.  It frees a node
exactly if there is a stale one among those that it looks at. -/

/-- The nodes in the order an eviction walk comes to them. -/
def Lru.walk (s : Lru) : List LruNode := s.cut.2 ++ s.cut.1

/-- A stale node is among those the walk has the budget to look at. -/
def Lru.Sees (s : Lru) (now window : Int) : Prop :=
  ∃ x ∈ s.walk.take banExpireScan, x.2.isLive now window = false

/-- A lap past live nodes only keeps all of them. -/
theorem lap_of_live {now window : Int} {scan evict : Nat} {todo : List LruNode} (hevict : 0 < evict)
    (hlive : ∀ x ∈ todo.take scan, x.2.isLive now window = true) :
    lap now window scan evict todo
      = { kept := todo.take scan, rest := todo.drop scan, scan := scan - todo.length,
          evict := evict } := by
  fun_induction lap now window scan evict todo with
  | case1 evict todo => simp
  | case2 scan todo => omega
  | case3 scan evict => simp
  | case4 scan evict x todo hx ih =>
      rw [ih hevict fun y hy => hlive y (by simp [hy])]
      simp [Lap.keep]
  | case5 scan evict x todo hx ih =>
      exact absurd (hlive x (by simp)) hx

/-- A lap past a stale node leaves fewer nodes. -/
theorem lap_of_stale {now window : Int} {scan evict : Nat} {todo : List LruNode} (hevict : 0 < evict)
    (hstale : ∃ x ∈ todo.take scan, x.2.isLive now window = false) :
    ((lap now window scan evict todo).kept ++ (lap now window scan evict todo).rest).length
      < todo.length := by
  fun_induction lap now window scan evict todo with
  | case1 evict todo => simp at hstale
  | case2 scan todo => omega
  | case3 scan evict => simp at hstale
  | case4 scan evict x todo hx ih =>
      obtain ⟨y, hy, hystale⟩ := hstale
      rw [List.take_succ_cons, List.mem_cons] at hy
      have hy' := hy.resolve_left (by rintro rfl; simp [hx] at hystale)
      have hlt := ih hevict ⟨y, hy', hystale⟩
      simpa [Lap.keep] using hlt
  | case5 scan evict x todo hx ih =>
      have hle := (lap_sublist now window scan evict todo).length_le
      rw [List.length_cons]
      omega

/-- **A sweep that sees nothing stale leaves the nodes alone.** -/
theorem Lru.expire_of_not_sees {s : Lru} {now window : Int} (h : ¬ s.Sees now window) :
    (s.expire now window).nodes = s.nodes := by
  have hlive : ∀ x ∈ s.walk.take banExpireScan, x.2.isLive now window = true := by
    intro x hx
    by_contra hx'
    exact h ⟨x, hx, by simpa using hx'⟩
  rw [Lru.walk, List.take_append] at hlive
  have hfirst : s.firstLap now window = _ :=
    lap_of_live (by decide) fun x hx => hlive x (List.mem_append_left _ hx)
  simp only [Lru.expire, hfirst]
  split
  · -- the walk wraps: what it comes to again it has seen before
    rename_i hwrap
    obtain ⟨-, hrest, -, -⟩ := hwrap
    rw [List.drop_eq_nil_iff] at hrest
    rw [List.take_of_length_le hrest] at hlive ⊢
    have hsecond : ∀ x ∈ (s.cut.1 ++ s.cut.2).take (banExpireScan - s.cut.2.length),
        x.2.isLive now window = true := by
      intro x hx
      rw [List.take_append, List.mem_append] at hx
      rcases hx with hx | hx
      · exact hlive x (List.mem_append_right _ hx)
      · exact hlive x (List.mem_append_left _ (List.mem_of_mem_take hx))
    rw [lap_of_live (by decide) hsecond]
    simp only [Lru.park, List.take_append_drop, s.cut_append, List.reverse_reverse]
  · simp only [Lru.park, List.append_assoc, List.take_append_drop, s.cut_append,
      List.reverse_reverse]

/-- **A sweep that sees a stale node leaves fewer nodes.** -/
theorem Lru.expire_of_sees {s : Lru} {now window : Int} (h : s.Sees now window) :
    (s.expire now window).nodes.length < s.nodes.length := by
  have hcut : s.cut.1.length + s.cut.2.length = s.nodes.length := by
    rw [← List.length_append, s.cut_append, List.length_reverse]
  have hle := (lap_sublist now window banExpireScan banExpireEvict s.cut.2).length_le
  rw [List.length_append] at hle
  by_cases hfirst : ∃ x ∈ s.cut.2.take banExpireScan, x.2.isLive now window = false
  · -- seen in the first lap; a second one adds nothing
    have hlt := lap_of_stale (show 0 < banExpireEvict by decide) hfirst
    rw [List.length_append] at hlt
    simp only [Lru.expire]
    split
    · have hle₂ := (lap_sublist now window (s.firstLap now window).scan
        (s.firstLap now window).evict (s.cut.1 ++ (s.firstLap now window).kept)).length_le
      simp only [List.length_append] at hle₂
      simp only [Lru.park, List.length_reverse, List.length_append, Lru.firstLap] at hle₂ ⊢
      omega
    · simp only [Lru.park, List.length_reverse, List.length_append, Lru.firstLap]
      omega
  · -- seen in the second lap: the first was short and went past live nodes only
    have hlive : ∀ x ∈ s.cut.2.take banExpireScan, x.2.isLive now window = true := by
      intro x hx
      by_contra hx'
      exact hfirst ⟨x, hx, by simpa using hx'⟩
    obtain ⟨x, hx, hstale⟩ := h
    rw [Lru.walk, List.take_append, List.mem_append] at hx
    have hx' := hx.resolve_left fun hx => by simp [hlive x hx] at hstale
    have hshort : s.cut.2.length < banExpireScan := by
      by_contra hge
      rw [Nat.sub_eq_zero_of_le (not_lt.mp hge)] at hx'
      simp at hx'
    have hcursor : s.cursor ≠ none := by
      intro hnone
      rw [Lru.cut, hnone] at hx'
      simp at hx'
    have heq : s.firstLap now window = _ := lap_of_live (by decide) hlive
    have hkept : s.cut.2.take banExpireScan = s.cut.2 := List.take_of_length_le hshort.le
    have hwrap : s.cursor ≠ none ∧ s.cut.2.drop banExpireScan = []
        ∧ 0 < banExpireScan - s.cut.2.length ∧ 0 < banExpireEvict :=
      ⟨hcursor, List.drop_eq_nil_of_le hshort.le, Nat.sub_pos_of_lt hshort, by decide⟩
    simp only [Lru.expire, heq, hkept, if_pos hwrap]
    have hseen : ∃ x ∈ (s.cut.1 ++ s.cut.2).take (banExpireScan - s.cut.2.length),
        x.2.isLive now window = false :=
      ⟨x, by rw [List.take_append]; exact List.mem_append_left _ hx', hstale⟩
    have hlt := lap_of_stale (show 0 < banExpireEvict by decide) hseen
    simp only [List.length_append] at hlt
    simp only [Lru.park, List.length_reverse, List.length_append]
    omega

/-- A sweep that sees a stale node removes a stale entry. -/
theorem Lru.expire_frees {s : Lru} (h : s.Distinct) {now window : Int} (hsees : s.Sees now window) :
    ∃ a e, s.get a = some e ∧ e.isLive now window = false
      ∧ (s.expire now window).get a = none := by
  obtain ⟨⟨a, e⟩, hx, hgone⟩ : ∃ x ∈ s.nodes, x ∉ (s.expire now window).nodes := by
    by_contra hall
    push Not at hall
    have hnd : s.nodes.Nodup := h.nodup
    have hle := (List.subperm_of_subset hnd hall).length_le
    have hlt := Lru.expire_of_sees hsees
    omega
  have he := (Lru.get_eq_some_iff h a e).mpr hx
  refine ⟨a, e, he, s.expire_removed now window hx hgone, ?_⟩
  rcases Lru.get_expire h now window a with heq | ⟨hnone, -⟩
  · rw [he, Lru.get_eq_some_iff (h.expire now window)] at heq
    exact absurd heq hgone
  · exact hnone

/-- With no more nodes than one walk looks at, a sweep sees every stale one. -/
theorem Lru.sees_of_length_le {s : Lru} {now window : Int} (hlen : s.nodes.length ≤ banExpireScan)
    {x : LruNode} (hx : x ∈ s.nodes) (hstale : x.2.isLive now window = false) :
    s.Sees now window := by
  have hperm : s.walk.Perm s.nodes := by
    rw [Lru.walk]
    refine List.perm_append_comm.trans ?_
    rw [s.cut_append]
    exact s.nodes.reverse_perm
  refine ⟨x, ?_, hstale⟩
  rw [List.take_of_length_le (hperm.length_eq ▸ hlen)]
  exact hperm.mem_iff.mpr hx

/-! ## §2. What a sweep of the zone sees. -/

variable {hash : Addr → Nat}

/-- The queue in the order an eviction walk comes to it: from the cursor toward
the head, then on from the tail. -/
def walkOrder (queue : List Ptr) : QueuePtr → List Ptr
  | none => queue.reverse
  | some c => queue.reverse.dropWhile (· ≠ c) ++ queue.reverse.takeWhile (· ≠ c)

/-- **A sweep at this clock and window comes to a stale node** before it has
looked at `banExpireScan` nodes. -/
def Zone.Sees (z : Zone) (now window : Int) : Prop :=
  ∃ queue, z.links.Spells queue
    ∧ ∃ p ∈ (walkOrder queue z.sh.cursor).take banExpireScan,
        (z.entryAt p).isLive now window = false

/-- The walk of a well-formed zone is that of the abstract one. -/
theorem Zone.Wf.walk_lru {z : Zone} {ps : List Ptr} (h : z.Wf hash ps) :
    (z.lru ps).walk = (walkOrder ps z.sh.cursor).map z.nodeAt := by
  obtain ⟨passed, todo, hrev, hcut, hhead, hnone⟩ := h.cut_lru
  have horder : walkOrder ps z.sh.cursor = todo ++ passed := by
    cases hc : z.sh.cursor with
    | none => rw [walkOrder, hrev, hnone hc, List.nil_append, List.append_nil]
    | some c =>
        rw [hc, if_neg (by simp)] at hhead
        obtain ⟨ys, rfl⟩ := List.head?_eq_some_iff.mp hhead
        have hnd : (passed ++ c :: ys).Nodup := hrev ▸ List.nodup_reverse.mpr h.nodup
        have hne : ∀ q ∈ passed, decide (q ≠ c) = true := fun q hq =>
          decide_eq_true ((List.nodup_append.mp hnd).2.2 q hq c (by simp))
        rw [walkOrder, hrev, List.takeWhile_append_of_pos hne, List.dropWhile_append_of_pos hne,
          List.takeWhile_cons_of_neg (by simp), List.dropWhile_cons_of_neg (by simp),
          List.append_nil]
  rw [Lru.walk, hcut, horder, List.map_append]

theorem Zone.Wf.sees_iff {z : Zone} {ps : List Ptr} (h : z.Wf hash ps) (now window : Int) :
    z.Sees now window ↔ (z.lru ps).Sees now window := by
  rw [Lru.Sees, h.walk_lru, ← List.map_take]
  constructor
  · rintro ⟨queue, hspells, p, hp, hstale⟩
    obtain rfl := hspells.unique h.spells
    exact ⟨z.nodeAt p, List.mem_map_of_mem hp, hstale⟩
  · rintro ⟨x, hx, hstale⟩
    obtain ⟨p, hp, rfl⟩ := List.mem_map.mp hx
    exact ⟨ps, h.spells, p, hp, hstale⟩

/-! ## §3. Runs of sweeps and lookups.

A lookup moves the node it finds to the head, and may take it out of the way of the
walks.  Progress depends on what the sweeps see, then, and not on how many there are. -/

/-- The call looks an address up, or sweeps at this clock and window. -/
def Op.sweepsAt (now window : Int) : Op → Prop
  | .lookup _ | .isBanned _ _ => True
  | .expire now' window' => now' = now ∧ window' = window
  | .record _ _ _ _ _ _ => False

/-- **Between the two states a stale entry was freed.** -/
def Zone.Frees (z z' : Zone) (now window : Int) : Prop :=
  ∃ a e, z.entryOf a = some e ∧ e.isLive now window = false ∧ z'.entryOf a = none

/-- **One of the sweeps among the calls sees a stale node**, in the state it is
called in. -/
def Zone.SeesDuring (T : NgxRbtree) (hash : Addr → Nat) (z : Zone) (calls : List Op)
    (now window : Int) : Prop :=
  ∃ before after z₁ evs₁, calls = before ++ .expire now window :: after
    ∧ z.run T hash before = .ok (z₁, evs₁) ∧ z₁.Sees now window

theorem KeptOrStale.trans {now window : Int} {e₀ e₁ e₂ : Option Entry}
    (h₁ : KeptOrStale now window e₀ e₁) (h₂ : KeptOrStale now window e₁ e₂) :
    KeptOrStale now window e₀ e₂ := by
  rcases h₁ with rfl | ⟨rfl, hstale⟩
  · exact h₂
  · rcases h₂ with rfl | ⟨rfl, -⟩ <;> exact .inr ⟨rfl, hstale⟩

/-- A stale entry freed over two stretches is freed over one of them. -/
theorem Zone.frees_trans {z₀ z₁ z₂ : Zone} {now window : Int}
    (h₁ : ∀ a, KeptOrStale now window (z₀.entryOf a) (z₁.entryOf a))
    (h₂ : ∀ a, KeptOrStale now window (z₁.entryOf a) (z₂.entryOf a)) :
    z₀.Frees z₂ now window ↔ z₀.Frees z₁ now window ∨ z₁.Frees z₂ now window := by
  constructor
  · rintro ⟨a, e, he, hstale, hgone⟩
    rcases h₁ a with heq | ⟨hnone, -⟩
    · exact .inr ⟨a, e, heq.trans he, hstale, hgone⟩
    · exact .inl ⟨a, e, he, hstale, hnone⟩
  · rintro (⟨a, e, he, hstale, hgone⟩ | ⟨a, e, he, hstale, hgone⟩)
    · refine ⟨a, e, he, hstale, ?_⟩
      rcases h₂ a with heq | ⟨hnone, -⟩
      · rw [heq, hgone]
      · exact hnone
    · refine ⟨a, e, ?_, hstale, hgone⟩
      rcases h₁ a with heq | ⟨hnone, -⟩
      · rw [← heq, he]
      · rw [hnone] at he
        cases he

/-- A state that keeps every entry frees none. -/
theorem Zone.not_frees {z z' : Zone} {now window : Int} (h : z'.entryOf = z.entryOf) :
    ¬ z.Frees z' now window := by
  rintro ⟨a, e, he, -, hgone⟩
  rw [h, he] at hgone
  cases hgone

/-- **The step lemma**: a lookup frees nothing, a sweep frees a stale node exactly
when it sees one. -/
theorem Zone.Wf.step_sweepsAt (T : NgxRbtree) {z : Zone} {ps : List Ptr} (h : z.Wf hash ps)
    {now window : Int} {op : Op} (hop : op.sweepsAt now window) :
    ∃ z' ps' r, z.step T hash op = .ok (z', r) ∧ z'.Wf hash ps'
      ∧ (∀ a, KeptOrStale now window (z.entryOf a) (z'.entryOf a))
      ∧ (z.Frees z' now window ↔ op = .expire now window ∧ z.Sees now window) := by
  obtain ⟨room, z', ps', r, hstep, hwf', habs⟩ := z.step_refines T h op
  have hz := h.toShape.entryOf_eq
  have hz' := hwf'.toShape.entryOf_eq
  -- a call that only touches keeps the map
  have htouch : ∀ b, z'.lru ps' = (z.lru ps).touch b → op ≠ .expire now window →
      (∀ a, KeptOrStale now window (z.entryOf a) (z'.entryOf a))
      ∧ (z.Frees z' now window ↔ op = .expire now window ∧ z.Sees now window) := by
    intro b heq hne
    have hmap : z'.entryOf = z.entryOf := by
      funext a
      rw [hz, hz', heq, Lru.get_touch h.toShape.distinct]
    refine ⟨fun a => .inl (congrFun hmap a), ?_⟩
    simp only [hne, false_and, iff_false]
    exact Zone.not_frees hmap
  refine ⟨z', ps', r, hstep, hwf', ?_⟩
  cases op with
  | lookup b => exact htouch b (congrArg Prod.fst habs).symm (by simp)
  | isBanned b now' => exact htouch b (congrArg Prod.fst habs).symm (by simp)
  | record => exact hop.elim
  | expire now' window' =>
      obtain ⟨rfl, rfl⟩ := hop
      have hlru : z'.lru ps' = (z.lru ps).expire now' window' := (congrArg Prod.fst habs).symm
      have hmap : ∀ a, KeptOrStale now' window' (z.entryOf a) (z'.entryOf a) := by
        intro a
        rw [hz, hz', hlru]
        exact Lru.get_expire h.toShape.distinct now' window' a
      refine ⟨hmap, ?_⟩
      rw [h.sees_iff]
      simp only [true_and]
      by_cases hsees : (z.lru ps).Sees now' window'
      · obtain ⟨a, e, he, hstale, hgone⟩ := Lru.expire_frees h.toShape.distinct hsees
        exact iff_of_true ⟨a, e, (hz a).trans he, hstale, by rw [hz', hlru, hgone]⟩ hsees
      · refine iff_of_false (Zone.not_frees ?_) hsees
        funext a
        rw [hz, hz', hlru, Lru.get, Lru.get, Lru.expire_of_not_sees hsees]

theorem Zone.seesDuring_nil (T : NgxRbtree) (z : Zone) (now window : Int) :
    ¬ z.SeesDuring T hash [] now window := by
  rintro ⟨before, after, z₁, evs₁, heq, -⟩
  simp at heq

theorem Zone.seesDuring_cons {T : NgxRbtree} {z z' : Zone} {op : Op} {r : Reply} {calls : List Op}
    {now window : Int} (hstep : z.step T hash op = .ok (z', r)) :
    z.SeesDuring T hash (op :: calls) now window
      ↔ (op = .expire now window ∧ z.Sees now window) ∨ z'.SeesDuring T hash calls now window := by
  constructor
  · rintro ⟨before, after, z₁, evs₁, heq, hrun, hsees⟩
    cases before with
    | nil =>
        obtain ⟨rfl, -⟩ := List.cons.inj heq
        obtain ⟨rfl, -⟩ : z = z₁ ∧ [] = evs₁ := by simpa [Zone.run] using hrun
        exact .inl ⟨rfl, hsees⟩
    | cons op' before =>
        obtain ⟨rfl, hcalls⟩ := List.cons.inj heq
        simp only [Zone.run, hstep, ok_bind] at hrun
        obtain ⟨⟨z₂, evs₂⟩, hrun₂, hret⟩ := bind_eq_ok hrun
        obtain ⟨rfl, -⟩ : z₂ = z₁ ∧ (op, r) :: evs₂ = evs₁ := by simpa using hret
        exact .inr ⟨before, after, z₂, evs₂, hcalls, hrun₂, hsees⟩
  · rintro (⟨rfl, hsees⟩ | ⟨before, after, z₁, evs₁, rfl, hrun, hsees⟩)
    · exact ⟨[], calls, z, [], rfl, rfl, hsees⟩
    · refine ⟨op :: before, after, z₁, (op, r) :: evs₁, rfl, ?_, hsees⟩
      simp only [Zone.run, hstep, ok_bind, hrun, pure_eq_ok]

/-- **The run lemma**: sweeps and lookups free a stale node exactly when one of the
sweeps sees one. -/
theorem Zone.Wf.run_sweepsAt (T : NgxRbtree) {now window : Int} :
    ∀ (calls : List Op) (z : Zone) (ps : List Ptr), z.Wf hash ps →
      (∀ op ∈ calls, op.sweepsAt now window) →
      ∃ z' evs, z.run T hash calls = .ok (z', evs)
        ∧ (∀ a, KeptOrStale now window (z.entryOf a) (z'.entryOf a))
        ∧ (z.Frees z' now window ↔ z.SeesDuring T hash calls now window)
  | [], z, ps, h, _ =>
      ⟨z, [], rfl, fun _ => .inl rfl,
        iff_of_false (Zone.not_frees rfl) (Zone.seesDuring_nil T z now window)⟩
  | op :: calls, z, ps, h, hcalls => by
      obtain ⟨z₁, ps₁, r, hstep, hwf₁, hmap₁, hfrees₁⟩ :=
        h.step_sweepsAt T (hcalls op List.mem_cons_self)
      obtain ⟨z', evs, hrun, hmap, hfrees⟩ := Zone.Wf.run_sweepsAt T calls z₁ ps₁ hwf₁
        fun o ho => hcalls o (List.mem_cons_of_mem _ ho)
      refine ⟨z', (op, r) :: evs, ?_, fun a => (hmap₁ a).trans (hmap a), ?_⟩
      · simp only [Zone.run, hstep, ok_bind, hrun, pure_eq_ok]
      · rw [Zone.frees_trans hmap₁ hmap, hfrees₁, hfrees, Zone.seesDuring_cons hstep]

/-- **A small zone is never starved**: from every reachable state with no more nodes
than one walk looks at, a sweep frees a stale entry as soon as there is one. -/
theorem banExpire_frees_of_few (T : NgxRbtree) (hash : Addr → Nat) (garbage : Shctx)
    (ops : List Op) (now window : Int) :
    ∃ z evs z' r, (banInitZone garbage).run T hash ops = .ok (z, evs)
      ∧ z.step T hash (.expire now window) = .ok (z', r)
      ∧ (z.sh.rbtree.inorder.length ≤ banExpireScan →
          (∃ a e, z.entryOf a = some e ∧ e.isLive now window = false) → z.Frees z' now window) := by
  obtain ⟨z, ps, evs, hzone, hwf, -, -⟩ := banInitZone_run T hash garbage ops
  obtain ⟨z', ps', r, hstep, -, -, hfrees⟩ :=
    hwf.step_sweepsAt T (show Op.sweepsAt now window (.expire now window) from ⟨rfl, rfl⟩)
  refine ⟨z, evs, z', r, hzone, hstep, ?_⟩
  rintro hfew ⟨a, e, he, hstale⟩
  have hlen : (z.lru ps).nodes.length ≤ banExpireScan := by
    show (ps.map z.nodeAt).length ≤ banExpireScan
    rw [List.length_map, ← hwf.tree.length_eq]
    exact hfew
  rw [hwf.toShape.entryOf_eq, Lru.get_eq_some_iff hwf.toShape.distinct] at he
  have hsees := Lru.sees_of_length_le hlen he hstale
  exact hfrees.mpr ⟨rfl, (hwf.sees_iff now window).mpr hsees⟩

/-- **When eviction makes progress.**  From every reachable state, lookups and
sweeps at one clock and window free a stale node exactly when one of the sweeps
comes to one within its walk. -/
theorem banExpire_progress_iff (T : NgxRbtree) (hash : Addr → Nat) (garbage : Shctx)
    (ops calls : List Op) (now window : Int) (hcalls : ∀ op ∈ calls, op.sweepsAt now window) :
    ∃ z evs z' evs', (banInitZone garbage).run T hash ops = .ok (z, evs)
      ∧ z.run T hash calls = .ok (z', evs')
      ∧ (z.Frees z' now window ↔ z.SeesDuring T hash calls now window) := by
  obtain ⟨z, ps, evs, hzone, hwf, -, -⟩ := banInitZone_run T hash garbage ops
  obtain ⟨z', evs', hrun, -, hfrees⟩ := hwf.run_sweepsAt T calls z ps hcalls
  exact ⟨z, evs, z', evs', hzone, hrun, hfrees⟩

/-! ## §4. A run in which no sweep sees the stale node. -/

/-- A client whose ban ran out at time 100, and 33 whose bans run until 150. -/
def oneLapsedOf34 : List Op :=
  (List.range 34).map fun i =>
    .record (client (UInt8.ofNat i)) (if i = 0 then 0 else 50) 1 1 100 (.block i staleNode)

/-- Before each of 35 sweeps the first client is looked up, and one of the last two. -/
def lookupsAndSweeps : List Op :=
  (List.range 35).flatMap fun i =>
    [.lookup (client 0), .lookup (client (if i % 2 = 0 then 32 else 33)), .expire 120 1]

theorem lookupsAndSweeps_sweepsAt : ∀ op ∈ lookupsAndSweeps, op.sweepsAt 120 1 := by
  intro op hop
  obtain ⟨i, -, hi⟩ := List.mem_flatMap.mp hop
  simp only [List.mem_cons, List.not_mem_nil, or_false] at hi
  rcases hi with rfl | rfl | rfl
  · trivial
  · trivial
  · exact ⟨rfl, rfl⟩

/-- Every node of `z` that is stale at this clock and window is still in `z'`. -/
def Zone.keepsStale (z z' : Zone) (now window : Int) : Bool :=
  (z.sh.rbtree.inorder.filterMap z.slab).all fun bn =>
    bn.toEntry.isLive now window || (z'.entryOf bn.address).isSome

theorem Zone.not_frees_of_keepsStale {z z' : Zone} {now window : Int}
    (h : z.keepsStale z' now window = true) : ¬ z.Frees z' now window := by
  rintro ⟨a, e, he, hstale, hgone⟩
  obtain ⟨bn, hbn, rfl⟩ := Option.map_eq_some_iff.mp he
  have haddr : bn.address = a := by simpa using List.find?_some hbn
  have := List.all_eq_true.mp h bn (List.mem_of_find?_eq_some hbn)
  rw [haddr, hgone, hstale] at this
  cases this

/-- The zone has 34 nodes, the first one stale, and the lookups and sweeps keep it. -/
theorem oneLapsedOf34_eval :
    (do
      let (z, _) ← (banInitZone staleShctx).run .plain oneBucket oneLapsedOf34
      let (z', _) ← z.run .plain oneBucket lookupsAndSweeps
      return (z.sh.rbtree.inorder.length = 34
        ∧ z.entryOf (client 0) = some { windowStart := 0, bannedUntil := 100, hits := 0 }
        ∧ (z.entryOf (client 32)).isSome ∧ (z.entryOf (client 33)).isSome
        ∧ z.keepsStale z' 120 1 : Bool))
      = (.ok true : Except Fault Bool) := by
  decide +kernel

/-- No sweep between the lookups sees the stale node, so none frees it. -/
theorem banExpire_progress_iff_lookups :
    ∃ z evs z' evs', (banInitZone staleShctx).run .plain oneBucket oneLapsedOf34 = .ok (z, evs)
      ∧ z.run .plain oneBucket lookupsAndSweeps = .ok (z', evs')
      ∧ ¬ z.Frees z' 120 1 ∧ ¬ z.SeesDuring .plain oneBucket lookupsAndSweeps 120 1 := by
  obtain ⟨z, evs, z', evs', hfilled, hcalls, hiff⟩ :=
    banExpire_progress_iff .plain oneBucket staleShctx oneLapsedOf34 lookupsAndSweeps 120 1
      lookupsAndSweeps_sweepsAt
  have heval := oneLapsedOf34_eval
  simp only [hfilled, hcalls, ok_bind, pure_eq_ok, Except.ok.injEq, decide_eq_true_eq] at heval
  have hkept := Zone.not_frees_of_keepsStale heval.2.2.2.2
  exact ⟨z, evs, z', evs', hfilled, hcalls, hkept, mt hiff.mpr hkept⟩

/-- **A stale node can be starved.**  Of 34 nodes one is stale, and 35 sweeps with
lookups of existing addresses between them do not free it. -/
theorem banExpire_starves :
    ∃ z evs z' evs', (banInitZone staleShctx).run .plain oneBucket oneLapsedOf34 = .ok (z, evs)
      ∧ z.run .plain oneBucket lookupsAndSweeps = .ok (z', evs')
      ∧ z.sh.rbtree.inorder.length = 34
      ∧ lookupsAndSweeps.countP (fun op => op.sweep.isSome) = 34 + 1
      ∧ (∀ op ∈ lookupsAndSweeps, op.sweepsAt 120 1 ∧ ∀ a, op = .lookup a → (z.entryOf a).isSome)
      ∧ (∃ a e, z.entryOf a = some e ∧ e.isLive 120 1 = false)
      ∧ ¬ z.Frees z' 120 1 := by
  obtain ⟨z, ps, evs, hfilled, hwf, -, -⟩ :=
    banInitZone_run .plain oneBucket staleShctx oneLapsedOf34
  obtain ⟨z', ps', evs', hcalls, -, -, -⟩ := Zone.run_refines .plain lookupsAndSweeps z ps hwf
  have heval := oneLapsedOf34_eval
  simp only [hfilled, hcalls, ok_bind, pure_eq_ok, Except.ok.injEq, decide_eq_true_eq] at heval
  obtain ⟨hlen, hstale, h32, h33, hkeeps⟩ := heval
  refine ⟨z, evs, z', evs', hfilled, hcalls, hlen, by decide, ?_, ⟨_, _, hstale, by decide⟩,
    Zone.not_frees_of_keepsStale hkeeps⟩
  intro op hop
  refine ⟨lookupsAndSweeps_sweepsAt op hop, ?_⟩
  intro a heq
  subst heq
  obtain ⟨i, -, hi⟩ := List.mem_flatMap.mp hop
  simp only [List.mem_cons, List.not_mem_nil, or_false, Op.lookup.injEq, reduceCtorEq] at hi
  rcases hi with rfl | rfl
  · simp [hstale]
  · split
    · exact h32
    · exact h33

end HttpShield
