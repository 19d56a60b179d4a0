/-
  HttpShield.Ban.Lru
  ──────────────────
  What the ban zone is for, with the memory abstracted away: a finite map from
  addresses to counters, kept in the order the addresses were last touched,
  plus the address the eviction walk resumes at.

  The eviction walk of `banExpire` is split into its at most two laps — from the
  cursor to the head, then once more from the tail — each a structural
  recursion over the nodes in tail-first order (`lap`).

  Main results:
    • `Lru.expire_sublist` / `Lru.expire_removed` — eviction only removes, and
      only what is stale,
    • `Lru.get_touch`, `Lru.get_expire`, `Lru.get_record_self`,
      `Lru.get_record_other` — what each operation does to the map.
-/
import HttpShield.Ban.Zone
import Mathlib.Data.List.Sigma

namespace HttpShield

/-! ## §1. The abstract zone and its operations. -/

/-- One tracked address with its counters. -/
abbrev LruNode := Σ _ : Addr, Entry

/-- The tracked addresses, most recently touched first, and the eviction cursor. -/
structure Lru where
  nodes : List LruNode
  cursor : Option Addr
  deriving DecidableEq

/-- **The map**: the counters of an address. -/
def Lru.get (s : Lru) (a : Addr) : Option Entry := s.nodes.dlookup a

/-- Move an address to the front; nothing happens when it is not tracked. -/
def Lru.touch (s : Lru) (a : Addr) : Lru :=
  { nodes := s.nodes.filter (fun x => x.1 = a) ++ s.nodes.filter (fun x => ¬ x.1 = a)
    cursor := s.cursor }

/-- What one lap of the eviction walk leaves: the nodes it passed and kept, the
nodes it did not reach, and the budgets it did not spend. -/
structure Lap where
  kept : List LruNode
  rest : List LruNode
  scan : Nat
  evict : Nat

/-- The lap `r` when the node `x` was judged and kept before it. -/
def Lap.keep (r : Lap) (x : LruNode) : Lap := { r with kept := x :: r.kept }

/-- One lap over `todo`: keep the live, drop the stale, stop when a budget is
spent or the nodes are. -/
def lap (now window : Int) : Nat → Nat → List LruNode → Lap
  | 0, evict, todo => { kept := [], rest := todo, scan := 0, evict := evict }
  | scan + 1, 0, todo => { kept := [], rest := todo, scan := scan + 1, evict := 0 }
  | scan + 1, evict + 1, [] => { kept := [], rest := [], scan := scan + 1, evict := evict + 1 }
  | scan + 1, evict + 1, x :: todo =>
      if x.2.isLive now window then (lap now window scan (evict + 1) todo).keep x
      else lap now window scan evict todo

/-- Cut the tail-first order at the cursor: what the first lap has behind it and
what it has ahead. -/
def Lru.cut (s : Lru) : List LruNode × List LruNode :=
  match s.cursor with
  | none => ([], s.nodes.reverse)
  | some c =>
      (s.nodes.reverse.takeWhile (fun x => ¬ x.1 = c), s.nodes.reverse.dropWhile (fun x => ¬ x.1 = c))

/-- The first lap of an eviction walk: from the cursor toward the head. -/
def Lru.firstLap (s : Lru) (now window : Int) : Lap :=
  lap now window banExpireScan banExpireEvict s.cut.2

/-- Put the nodes back in touch order and park the cursor on the first node the
walk did not reach. -/
def Lru.park (tailFirst rest : List LruNode) : Lru where
  nodes := (tailFirst ++ rest).reverse
  cursor := rest.head?.map (fun x => x.1)

/-- **Eviction**: one lap from the cursor, and a second one from the tail when
the first ran off the head with budget to spare. -/
def Lru.expire (s : Lru) (now window : Int) : Lru :=
  let r := s.firstLap now window
  if s.cursor ≠ none ∧ r.rest = [] ∧ 0 < r.scan ∧ 0 < r.evict then
    let r₂ := lap now window r.scan r.evict (s.cut.1 ++ r.kept)
    Lru.park r₂.kept r₂.rest
  else Lru.park (s.cut.1 ++ r.kept) r.rest

/-- The counters of a new address. -/
def Entry.fresh (now : Int) : Entry := { windowStart := now, bannedUntil := 0, hits := 0 }

/-- Count one hit: the new counters, and whether the hit armed a ban. -/
def Entry.hit (e : Entry) (now : Int) (count : Nat) (window banTime : Int) : Entry × Bool :=
  let e := ((e.retire now).roll now window).bump
  if e.hits ≥ count then (e.arm now banTime, true) else (e, false)

/-- **Recording a hit.**  `room` says whether the slab has room should a new
address need it; the result is `none` when it had not, else whether a ban was
armed. -/
def Lru.record (s : Lru) (a : Addr) (now : Int) (count : Nat) (window banTime : Int)
    (room : Bool) : Lru × Option Bool :=
  match s.get a with
  | some e =>
      let h := e.hit now count window banTime
      ({ nodes := ⟨a, h.1⟩ :: s.nodes.filter (fun x => ¬ x.1 = a), cursor := s.cursor }, some h.2)
  | none =>
      let s := s.expire now window
      if room then
        let h := (Entry.fresh now).hit now count window banTime
        ({ nodes := ⟨a, h.1⟩ :: s.nodes, cursor := s.cursor }, some h.2)
      else (s, none)

/-- One call, `room` being the slab's answer should the call ask for a node. -/
def Lru.step (s : Lru) (op : Op) (room : Bool) : Lru × Reply :=
  match op with
  | .lookup a => (s.touch a, .found (s.get a).isSome)
  | .isBanned a now => (s.touch a, .banned ((s.get a).any (fun e => e.bannedUntil > now)))
  | .expire now window => (s.expire now window, .done)
  | .record a now count window banTime _ =>
      match s.record a now count window banTime room with
      | (s, some armed) => (s, .recorded armed)
      | (s, none) => (s, .dropped)

/-! ## §2. A lap keeps the live and removes only the stale. -/

theorem lap_sublist (now window : Int) (scan evict : Nat) (todo : List LruNode) :
    ((lap now window scan evict todo).kept ++ (lap now window scan evict todo).rest).Sublist
      todo := by
  fun_induction lap now window scan evict todo with
  | case1 | case2 | case3 => simp
  | case4 scan evict x todo hlive ih => simpa [Lap.keep] using ih
  | case5 scan evict x todo hstale ih => exact ih.cons x

theorem lap_removed (now window : Int) (scan evict : Nat) (todo : List LruNode) {x : LruNode}
    (hx : x ∈ todo)
    (hgone : x ∉ (lap now window scan evict todo).kept ++ (lap now window scan evict todo).rest) :
    x.2.isLive now window = false := by
  fun_induction lap now window scan evict todo with
  | case1 | case2 | case3 => simp_all
  | case4 scan evict y todo hlive ih =>
      simp only [Lap.keep, List.cons_append, List.mem_cons, not_or] at hgone
      exact ih ((List.mem_cons.mp hx).resolve_left hgone.1) hgone.2
  | case5 scan evict y todo hstale ih =>
      rcases List.mem_cons.mp hx with rfl | hx
      · simpa using hstale
      · exact ih hx hgone

/-! ## §3. Eviction as a whole. -/

theorem Lru.cut_append (s : Lru) : s.cut.1 ++ s.cut.2 = s.nodes.reverse := by
  unfold Lru.cut
  cases s.cursor with
  | none => rfl
  | some c => exact List.takeWhile_append_dropWhile

/-- The nodes an eviction walk leaves, tail first. -/
theorem Lru.expire_reverse_sublist (s : Lru) (now window : Int) :
    (s.expire now window).nodes.reverse.Sublist s.nodes.reverse := by
  have h₁ : (s.cut.1 ++ ((s.firstLap now window).kept ++ (s.firstLap now window).rest)).Sublist
      s.nodes.reverse := by
    rw [← s.cut_append]
    exact (lap_sublist now window _ _ s.cut.2).append_left s.cut.1
  simp only [Lru.expire]
  split
  · rename_i h
    have h₂ := lap_sublist now window (s.firstLap now window).scan (s.firstLap now window).evict
      (s.cut.1 ++ (s.firstLap now window).kept)
    rw [h.2.1, List.append_nil] at h₁
    simpa [Lru.park] using h₂.trans h₁
  · simpa [Lru.park] using h₁

/-- **Eviction only removes**, and keeps the order of what stays. -/
theorem Lru.expire_sublist (s : Lru) (now window : Int) :
    (s.expire now window).nodes.Sublist s.nodes :=
  List.reverse_sublist.mp (s.expire_reverse_sublist now window)

/-- **Eviction removes only the stale.** -/
theorem Lru.expire_removed (s : Lru) (now window : Int) {x : LruNode} (hx : x ∈ s.nodes)
    (hgone : x ∉ (s.expire now window).nodes) : x.2.isLive now window = false := by
  have hcut : x ∈ s.cut.1 ++ s.cut.2 := by rw [s.cut_append]; simpa using hx
  rw [List.mem_append] at hcut
  simp only [Lru.expire] at hgone
  split at hgone
  · rename_i h
    simp only [Lru.park, List.mem_reverse] at hgone
    by_cases hk : x ∈ s.cut.1 ++ (s.firstLap now window).kept
    · exact lap_removed now window _ _ _ hk hgone
    · simp only [List.mem_append, not_or] at hk
      refine lap_removed now window banExpireScan banExpireEvict _ (hcut.resolve_left hk.1) ?_
      show x ∉ (s.firstLap now window).kept ++ (s.firstLap now window).rest
      rw [h.2.1, List.append_nil]
      exact hk.2
  · simp only [Lru.park, List.mem_reverse, List.append_assoc, List.mem_append, not_or] at hgone
    refine lap_removed now window banExpireScan banExpireEvict _ (hcut.resolve_left hgone.1) ?_
    simp only [List.mem_append, not_or]
    exact hgone.2

/-! ## §4. Distinct addresses. -/

/-- No address is tracked twice. -/
def Lru.Distinct (s : Lru) : Prop := s.nodes.NodupKeys

theorem Lru.touch_perm (s : Lru) (a : Addr) : (s.touch a).nodes.Perm s.nodes := by
  have h := List.filter_append_perm (fun x : LruNode => decide (x.1 = a)) s.nodes
  simpa [Lru.touch] using h

/-- Taking an address out of a list it is in once. -/
theorem filter_other_split {xs ys : List LruNode} {a : Addr} (e : Entry)
    (hne : ∀ x ∈ xs ++ ys, x.1 ≠ a) :
    (xs ++ ⟨a, e⟩ :: ys).filter (fun x => ¬ x.1 = a) = xs ++ ys := by
  have hkeep : (xs ++ ys).filter (fun x => ¬ x.1 = a) = xs ++ ys := by
    refine List.filter_eq_self.mpr fun x hx => ?_
    simpa using hne x hx
  rw [← hkeep]
  simp

/-- Touching an address brings its node to the front. -/
theorem Lru.touch_split {xs ys : List LruNode} {a : Addr} (e : Entry) (c : Option Addr)
    (hne : ∀ x ∈ xs ++ ys, x.1 ≠ a) :
    Lru.touch { nodes := xs ++ ⟨a, e⟩ :: ys, cursor := c } a
      = { nodes := ⟨a, e⟩ :: (xs ++ ys), cursor := c } := by
  have hgone : (xs ++ ys).filter (fun x => x.1 = a) = [] := by
    refine List.filter_eq_nil_iff.mpr fun x hx => ?_
    simpa using hne x hx
  obtain ⟨hx, hy⟩ : xs.filter (fun x => decide (x.1 = a)) = []
      ∧ ys.filter (fun x => decide (x.1 = a)) = [] := by
    rwa [List.filter_append, List.append_eq_nil_iff] at hgone
  simp only [Lru.touch, filter_other_split e hne]
  simp [hx, hy]

theorem Lru.Distinct.touch {s : Lru} (h : s.Distinct) (a : Addr) : (s.touch a).Distinct :=
  (List.perm_nodupKeys (s.touch_perm a)).mpr h

theorem Lru.Distinct.expire {s : Lru} (h : s.Distinct) (now window : Int) :
    (s.expire now window).Distinct :=
  List.NodupKeys.sublist (s.expire_sublist now window) h

theorem Lru.get_eq_none_iff (s : Lru) (a : Addr) : s.get a = none ↔ ∀ x ∈ s.nodes, x.1 ≠ a := by
  rw [Lru.get, List.dlookup_eq_none]
  simp only [List.keys, List.mem_map, not_exists, not_and, ne_eq]

theorem Lru.get_eq_some_iff {s : Lru} (h : s.Distinct) (a : Addr) (e : Entry) :
    s.get a = some e ↔ (⟨a, e⟩ : LruNode) ∈ s.nodes := by
  have := List.mem_dlookup_iff (a := a) (b := e) h
  simpa [Lru.get] using this

/-! ## §5. What each operation does to the map. -/

/-- Touching an address that is not tracked does nothing. -/
theorem Lru.touch_of_get_none {s : Lru} {a : Addr} (h : s.get a = none) : s.touch a = s := by
  rw [Lru.get_eq_none_iff] at h
  have hgone : s.nodes.filter (fun x => x.1 = a) = [] := by
    refine List.filter_eq_nil_iff.mpr fun x hx => ?_
    simpa using h x hx
  have hkeep : s.nodes.filter (fun x => ¬ x.1 = a) = s.nodes := by
    refine List.filter_eq_self.mpr fun x hx => ?_
    simpa using h x hx
  rw [Lru.touch, hgone, hkeep, List.nil_append]

/-- Touching an address does not change the map. -/
theorem Lru.get_touch {s : Lru} (h : s.Distinct) (a b : Addr) : (s.touch a).get b = s.get b :=
  List.perm_dlookup b (h.touch a) (s.touch_perm a)

/-- **Eviction leaves an entry alone or removes it, and then it was stale.** -/
theorem Lru.get_expire {s : Lru} (h : s.Distinct) (now window : Int) (b : Addr) :
    (s.expire now window).get b = s.get b
      ∨ ((s.expire now window).get b = none
        ∧ ∃ e, s.get b = some e ∧ e.isLive now window = false) := by
  have hsub := s.expire_sublist now window
  cases hb : s.get b with
  | none =>
      left
      rw [Lru.get_eq_none_iff] at hb ⊢
      exact fun x hx => hb x (hsub.subset hx)
  | some e =>
      have hmem := (Lru.get_eq_some_iff h b e).mp hb
      by_cases hin : (⟨b, e⟩ : LruNode) ∈ (s.expire now window).nodes
      · left
        exact (Lru.get_eq_some_iff (h.expire now window) b e).mpr hin
      · right
        refine ⟨?_, e, rfl, s.expire_removed now window hmem hin⟩
        rw [Lru.get_eq_none_iff]
        rintro ⟨b', e'⟩ hx rfl
        have he' := (Lru.get_eq_some_iff h b' e').mpr (hsub.subset hx)
        obtain rfl : e = e' := by simpa [hb] using he'
        exact hin hx

theorem Lru.get_cons_self (a : Addr) (e : Entry) (l : List LruNode) (c : Option Addr) :
    Lru.get { nodes := ⟨a, e⟩ :: l, cursor := c } a = some e := by
  simp [Lru.get]

theorem Lru.get_cons_other {a b : Addr} (hab : b ≠ a) (e : Entry) (l : List LruNode)
    (c c' : Option Addr) :
    Lru.get { nodes := ⟨a, e⟩ :: l, cursor := c } b = Lru.get { nodes := l, cursor := c' } b := by
  simp [Lru.get, hab]

theorem Lru.step_record (s : Lru) (a : Addr) (now : Int) (count : Nat) (window banTime : Int)
    (alloc : SlabAlloc) (room : Bool) :
    s.step (.record a now count window banTime alloc) room
      = ((s.record a now count window banTime room).1,
          match (s.record a now count window banTime room).2 with
          | some armed => .recorded armed
          | none => .dropped) := by
  rcases h : s.record a now count window banTime room with ⟨s', _ | armed⟩ <;>
    simp only [Lru.step, h]

/-- Recording a hit of a tracked address changes its own entry only. -/
theorem Lru.record_of_get_some {s : Lru} {a : Addr} {e : Entry} (h : s.get a = some e) (now : Int)
    (count : Nat) (window banTime : Int) (room : Bool) :
    s.record a now count window banTime room
      = ({ nodes := ⟨a, (e.hit now count window banTime).1⟩
              :: s.nodes.filter (fun x => ¬ x.1 = a)
           cursor := s.cursor },
          some (e.hit now count window banTime).2) := by
  simp only [Lru.record, h]

/-- Recording a hit of a new address sweeps first, then adds it if there is room. -/
theorem Lru.record_of_get_none {s : Lru} {a : Addr} (h : s.get a = none) (now : Int)
    (count : Nat) (window banTime : Int) (room : Bool) :
    s.record a now count window banTime room
      = if room then
          ({ nodes := ⟨a, ((Entry.fresh now).hit now count window banTime).1⟩
                :: (s.expire now window).nodes
             cursor := (s.expire now window).cursor },
            some ((Entry.fresh now).hit now count window banTime).2)
        else (s.expire now window, none) := by
  simp only [Lru.record, h]

theorem Lru.Distinct.cons {s : Lru} (h : s.Distinct) {a : Addr} (ha : s.get a = none)
    (e : Entry) (c : Option Addr) : Lru.Distinct { nodes := ⟨a, e⟩ :: s.nodes, cursor := c } := by
  refine List.nodupKeys_cons.mpr ⟨?_, h⟩
  rwa [Lru.get, List.dlookup_eq_none] at ha

/-- An address that is not tracked is not tracked after a sweep. -/
theorem Lru.get_expire_none {s : Lru} {a : Addr} (h : s.get a = none) (now window : Int) :
    (s.expire now window).get a = none := by
  rw [Lru.get_eq_none_iff] at h ⊢
  exact fun x hx => h x ((s.expire_sublist now window).subset hx)

theorem Lru.get_filter_self (s : Lru) (a : Addr) (c : Option Addr) :
    Lru.get { nodes := s.nodes.filter (fun x => ¬ x.1 = a), cursor := c } a = none := by
  rw [Lru.get_eq_none_iff]
  intro x hx
  simpa using (List.mem_filter.mp hx).2

theorem Lru.Distinct.filter {s : Lru} (h : s.Distinct) (a : Addr) (c : Option Addr) :
    Lru.Distinct { nodes := s.nodes.filter (fun x => ¬ x.1 = a), cursor := c } :=
  List.NodupKeys.sublist List.filter_sublist h

theorem Lru.get_filter_other {s : Lru} (h : s.Distinct) {a b : Addr} (hab : b ≠ a)
    (c : Option Addr) :
    Lru.get { nodes := s.nodes.filter (fun x => ¬ x.1 = a), cursor := c } b = s.get b := by
  ext e
  rw [Lru.get_eq_some_iff (h.filter a c), Lru.get_eq_some_iff h]
  simp [List.mem_filter, hab]

/-- **Every call keeps the addresses distinct.** -/
theorem Lru.Distinct.step {s : Lru} (h : s.Distinct) (op : Op) (room : Bool) :
    (s.step op room).1.Distinct := by
  cases op with
  | lookup a => exact h.touch a
  | isBanned a now => exact h.touch a
  | expire now window => exact h.expire now window
  | record a now count window banTime alloc =>
      cases hget : s.get a with
      | some e =>
          simp only [Lru.step, Lru.record_of_get_some hget]
          exact (h.filter a s.cursor).cons (s.get_filter_self a s.cursor) _ _
      | none =>
          simp only [Lru.step, Lru.record_of_get_none hget]
          cases room with
          | false => exact h.expire now window
          | true => exact (h.expire now window).cons (Lru.get_expire_none hget now window) _ _

/-! ## §6. The life of one address. -/

/-- The clock and window a call may evict under. -/
def Op.sweep : Op → Option (Int × Int)
  | .lookup _ | .isBanned _ _ => none
  | .expire now window => some (now, window)
  | .record _ now _ window _ _ => some (now, window)

/-- **What one call can do to the entry of address `a`.** -/
inductive Change (a : Addr) : Op → Reply → Option Entry → Option Entry → Prop where
  /-- A call that does not record `a` may leave the entry alone. -/
  | keep (op : Op) (r : Reply) (e : Option Entry) (hop : op.records a = false) : Change a op r e e
  /-- A call that sweeps may remove the entry, and then it was stale. -/
  | evict (op : Op) (r : Reply) (x : Entry) (now window : Int) (hop : op.records a = false)
      (hsweep : op.sweep = some (now, window)) (hstale : x.isLive now window = false) :
      Change a op r (some x) none
  /-- A successful record counts a hit, in a new entry if there was none. -/
  | hit (now : Int) (count : Nat) (window banTime : Int) (alloc : SlabAlloc) (e : Option Entry) :
      Change a (.record a now count window banTime alloc)
        (.recorded ((e.getD (Entry.fresh now)).hit now count window banTime).2) e
        (some ((e.getD (Entry.fresh now)).hit now count window banTime).1)
  /-- A record the slab has no room for adds nothing. -/
  | drop (now : Int) (count : Nat) (window banTime : Int) (alloc : SlabAlloc) :
      Change a (.record a now count window banTime alloc) .dropped none none

/-- A record of `a` either counts a hit or drops it with no entry on either side. -/
theorem Change.record_self {a : Addr} {now : Int} {count : Nat} {window banTime : Int}
    {alloc : SlabAlloc} {r : Reply} {old new : Option Entry}
    (h : Change a (.record a now count window banTime alloc) r old new) :
    (r = .dropped ∧ old = none ∧ new = none)
      ∨ (r = .recorded ((old.getD (Entry.fresh now)).hit now count window banTime).2
        ∧ new = some ((old.getD (Entry.fresh now)).hit now count window banTime).1) := by
  cases h with
  | keep _ _ _ hop => simp [Op.records] at hop
  | evict _ _ _ _ _ hop => simp [Op.records] at hop
  | hit => exact .inr ⟨rfl, rfl⟩
  | drop => exact .inl ⟨rfl, rfl, rfl⟩

/-- **The step lemma**: every call changes every address as `Change` says. -/
theorem Lru.step_change {s : Lru} (h : s.Distinct) (op : Op) (room : Bool) (a : Addr) :
    Change a op (s.step op room).2 (s.get a) ((s.step op room).1.get a) := by
  -- A sweep keeps the entry of `a` or drops it as stale, and only a record of `a` does more.
  have hsweep : ∀ (r : Reply) (now window : Int), op.records a = false →
      op.sweep = some (now, window) →
      Change a op r (s.get a) ((s.expire now window).get a) := by
    intro r now window hop hsw
    rcases Lru.get_expire h now window a with heq | ⟨hnone, x, hx, hstale⟩
    · rw [heq]
      exact .keep op r _ hop
    · rw [hnone, hx]
      exact .evict op r x now window hop hsw hstale
  cases op with
  | lookup b =>
      simp only [Lru.step, Lru.get_touch h]
      exact .keep _ _ _ rfl
  | isBanned b now =>
      simp only [Lru.step, Lru.get_touch h]
      exact .keep _ _ _ rfl
  | expire now window => exact hsweep _ now window rfl rfl
  | record b now count window banTime alloc =>
      cases hget : s.get b with
      | some e =>
          simp only [Lru.step, Lru.record_of_get_some hget]
          by_cases hab : a = b
          · subst hab
            rw [Lru.get_cons_self, hget]
            exact .hit now count window banTime alloc (some e)
          · rw [Lru.get_cons_other hab _ _ _ s.cursor, Lru.get_filter_other h hab]
            exact .keep _ _ _ (by simp [Op.records, Ne.symm hab])
      | none =>
          simp only [Lru.step, Lru.record_of_get_none hget]
          by_cases hab : a = b
          · subst hab
            cases room with
            | false =>
                simp only [Bool.false_eq_true, if_false]
                rw [Lru.get_expire_none hget now window, hget]
                exact .drop now count window banTime alloc
            | true =>
                simp only [if_true]
                rw [Lru.get_cons_self, hget]
                exact .hit now count window banTime alloc none
          · have hop : Op.records a (.record b now count window banTime alloc) = false := by
              simp [Op.records, Ne.symm hab]
            cases room with
            | false => exact hsweep _ now window hop rfl
            | true =>
                simp only [if_true]
                rw [Lru.get_cons_other hab _ _ _ (s.expire now window).cursor]
                exact hsweep _ now window hop rfl

end HttpShield
