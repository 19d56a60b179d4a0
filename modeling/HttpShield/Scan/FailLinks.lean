/-
  HttpShield.Scan.FailLinks
  ─────────────────────────
  Pass 2 of the builder: the breadth-first search that resolves the fail links
  and flattens them into the goto table.

  The search finalises one transition after the other.  `Bfs.Links` says what
  holds once the transitions in `done` are final: those lead to the longest
  suffix, the others still are the trie's; a state is queued when the transition
  into it is done, and from then on its fail link and its masks are final, too.

    • `acLink_links`  — one transition: the depth argument,
    • `acLinks_links` — one dequeued state,
    • `acDrain_links` — the whole search: every transition is final.
-/
import HttpShield.Scan.Trie
import Mathlib.Data.List.Perm.Subperm

namespace HttpShield

open LongestSuffix

/-! ## §1. What a finished automaton holds. -/

/-- The words of a trie, by state number. -/
structure IsTrie (cap : Nat) (words : List Bytes) : Prop where
  root : words[0]? = some []
  nodup : words.Nodup
  closed : PrefixClosed (· ∈ words)
  fits : words.length ≤ cap

theorem Trie.Holds.isTrie {cap : Nat} {t : Trie} {words : List Bytes}
    {marks terms : Bytes → Nat → Prop} (h : t.Holds cap words marks terms) :
    IsTrie cap words where
  root := h.root
  nodup := h.nodup
  closed := h.closed
  fits := h.count ▸ h.fits

/-- The word of a state reached is the longest suffix. -/
theorem IsTrie.getElem?_stateOf {cap : Nat} {words : List Bytes} (hw : IsTrie cap words)
    (w : Bytes) : words[stateOf words w]? = some (longest (· ∈ words) w) :=
  getElem?_idxOf_of_mem (longest_mem hw.closed w)

theorem IsTrie.stateOf_of_mem {cap : Nat} {words : List Bytes} (hw : IsTrie cap words) {s : Nat}
    {w : Bytes} (hs : words[s]? = some w) : stateOf words w = s := by
  unfold stateOf
  rw [longest_eq_self (P := (· ∈ words)) (List.mem_of_getElem? hs)]
  exact idxOf_of_getElem? hw.nodup hs

theorem IsTrie.lt_cap {cap : Nat} {words : List Bytes} (hw : IsTrie cap words) {s : Nat} {w : Bytes}
    (hs : words[s]? = some w) : s < cap :=
  Nat.lt_of_lt_of_le (List.getElem?_eq_some_iff.mp hs).1 hw.fits

/-- Two states of one word are one state. -/
theorem IsTrie.inj {cap : Nat} {words : List Bytes} (hw : IsTrie cap words) {s s' : Nat} {w : Bytes}
    (hs : words[s]? = some w) (hs' : words[s']? = some w) : s = s' := by
  rw [← hw.stateOf_of_mem hs, hw.stateOf_of_mem hs']

/-- The masks of the states in `final` hold every mark on a suffix of the state's
word, those of the others only the marks on the word itself. -/
def MasksOf (words : List Bytes) (final : Nat → Prop) (marks : Bytes → Nat → Prop)
    (a : Array Mask) : Prop :=
  ∀ v w k, words[v]? = some w →
    (final v → ((a.getD v 0).getLsbD k = true ↔ ∃ p, p <:+ w ∧ marks p k))
    ∧ (¬ final v → ((a.getD v 0).getLsbD k = true ↔ marks w k))

/-- **What holds during the search**, the transitions in `done` being final. -/
structure Bfs.Links (cap : Nat) (words : List Bytes) (marks terms : Bytes → Nat → Prop) (g : Bfs)
    (done : Nat → UInt8 → Prop) : Prop where
  next_size : g.next.size = cap * acAlphabet
  out_size : g.out.size = cap
  rout_size : g.rout.size = cap
  fail_size : g.fail.size = cap
  goto_done : ∀ s w b, words[s]? = some w → done s b →
    g.next.getD (acCell s b) 0 = stateOf words (w ++ [b])
  goto_todo : ∀ s w b, words[s]? = some w → ¬ done s b →
    g.next.getD (acCell s b) 0 = child words w b
  queued : ∀ v, v ∈ g.queue.toList
    ↔ ∃ s w b, words[s]? = some w ∧ done s b ∧ words[v]? = some (w ++ [b])
  nodup : g.queue.toList.Nodup
  fail : ∀ v w, v = 0 ∨ v ∈ g.queue.toList → words[v]? = some w →
    g.fail.getD v 0 = stateOf words w.tail
  out : MasksOf words (fun v => v = 0 ∨ v ∈ g.queue.toList) marks g.out
  rout : MasksOf words (fun v => v = 0 ∨ v ∈ g.queue.toList) terms g.rout

/-! ## §2. One transition.

An absent transition becomes that of the fail state.  A present one leads to a state
that gets its fail link, takes over the masks of this link, and is queued. -/

/-- A queued state is not the root. -/
theorem Bfs.Links.ne_zero {cap : Nat} {words : List Bytes} {marks terms : Bytes → Nat → Prop}
    {g : Bfs} {done : Nat → UInt8 → Prop} (hw : IsTrie cap words)
    (h : g.Links cap words marks terms done) {v : Nat} (hv : v ∈ g.queue.toList) : v ≠ 0 := by
  intro heq
  subst heq
  obtain ⟨s, w, b, -, -, hword⟩ := (h.queued 0).mp hv
  rw [hw.root] at hword
  simp at hword

/-- There is room in the queue for a state that is not in it. -/
theorem Bfs.Links.room {cap : Nat} {words : List Bytes} {marks terms : Bytes → Nat → Prop}
    {g : Bfs} {done : Nat → UInt8 → Prop}
    (h : g.Links cap words marks terms done) {v : Nat} {w : Bytes} (hv : words[v]? = some w)
    (hnew : v ∉ g.queue.toList) : g.queue.size < words.length := by
  have hnd : (v :: g.queue.toList).Nodup := List.nodup_cons.mpr ⟨hnew, h.nodup⟩
  have hsub : ∀ u ∈ v :: g.queue.toList, u ∈ List.range words.length := by
    intro u hu
    rw [List.mem_range]
    rcases List.mem_cons.mp hu with rfl | hu
    · exact (List.getElem?_eq_some_iff.mp hv).1
    · obtain ⟨s, w, b, -, -, hword⟩ := (h.queued u).mp hu
      exact (List.getElem?_eq_some_iff.mp hword).1
  have hle := (List.subperm_of_subset hnd hsub).length_le
  rw [List.length_cons, List.length_range, Array.length_toList] at hle
  omega

/-- The masks stay right when one more state `v` becomes final with the right mask. -/
theorem MasksOf.push {words : List Bytes} {queue : Array Nat} {v : Nat} {w : Bytes}
    {marks : Bytes → Nat → Prop} {old new : Array Mask} (hw : words[v]? = some w)
    (h : MasksOf words (fun u => u = 0 ∨ u ∈ queue.toList) marks old)
    (hother : ∀ u, u ≠ v → new.getD u 0 = old.getD u 0)
    (hself : ∀ k, (new.getD v 0).getLsbD k = true ↔ ∃ p, p <:+ w ∧ marks p k) :
    MasksOf words (fun u => u = 0 ∨ u ∈ (queue.push v).toList) marks new := by
  intro u x k hu
  have hiff : u ∈ (queue.push v).toList ↔ u ∈ queue.toList ∨ u = v := by simp
  by_cases huv : u = v
  · subst huv
    obtain rfl : w = x := by rw [hw] at hu; exact Option.some.inj hu
    exact ⟨fun _ => hself k, fun hn => absurd (.inr (hiff.mpr (.inr rfl))) hn⟩
  · rw [hother u huv]
    have hu' := h u x k hu
    simp only [hiff, huv, or_false]
    exact hu'

/-- A state is not queued before the transition into it is final. -/
theorem Bfs.Links.not_queued {cap : Nat} {words : List Bytes} {marks terms : Bytes → Nat → Prop}
    {g : Bfs} {done : Nat → UInt8 → Prop} (hw : IsTrie cap words)
    (h : g.Links cap words marks terms done) {s v : Nat} {w : Bytes} {b : UInt8}
    (hs : words[s]? = some w) (hv : words[v]? = some (w ++ [b])) (hb : ¬ done s b) :
    v ∉ g.queue.toList := by
  intro hin
  obtain ⟨s', w', b', hs', hdone, hv'⟩ := (h.queued v).mp hin
  rw [hv] at hv'
  obtain ⟨rfl, hbb⟩ := List.append_inj' (Option.some.inj hv') rfl
  obtain rfl : b = b' := by simpa using hbb
  obtain rfl := hw.inj hs hs'
  exact hb hdone

/-- **Finalising a transition into a state of the trie**: the state is queued, with
its fail link and its masks. -/
theorem Bfs.Links.enqueue {cap : Nat} {words : List Bytes} {marks terms : Bytes → Nat → Prop}
    {g : Bfs} {done : Nat → UInt8 → Prop} (hw : IsTrie cap words)
    (h : g.Links cap words marks terms done) {s v : Nat} {w : Bytes} {b : UInt8}
    (hs : words[s]? = some w) (hv : words[v]? = some (w ++ [b])) (hb : ¬ done s b)
    {fail : Array Nat} {out rout : Array Mask} (hfsize : fail.size = cap)
    (hosize : out.size = cap) (hrsize : rout.size = cap)
    (hfail : ∀ u, fail.getD u 0 = if u = v then stateOf words (w ++ [b]).tail else g.fail.getD u 0)
    (hout : ∀ u, u ≠ v → out.getD u 0 = g.out.getD u 0)
    (houtv : ∀ k, (out.getD v 0).getLsbD k = true ↔ ∃ p, p <:+ w ++ [b] ∧ marks p k)
    (hrout : ∀ u, u ≠ v → rout.getD u 0 = g.rout.getD u 0)
    (hroutv : ∀ k, (rout.getD v 0).getLsbD k = true ↔ ∃ p, p <:+ w ++ [b] ∧ terms p k) :
    Bfs.Links cap words marks terms
      { next := g.next, out := out, rout := rout, fail := fail, queue := g.queue.push v }
      (fun s' b' => done s' b' ∨ (s' = s ∧ b' = b)) := by
  have hnew : v ∉ g.queue.toList := h.not_queued hw hs hv hb
  refine
    { next_size := h.next_size
      out_size := hosize
      rout_size := hrsize
      fail_size := hfsize
      goto_done := ?_
      goto_todo := ?_
      queued := ?_
      nodup := ?_
      fail := ?_
      out := h.out.push hv hout houtv
      rout := h.rout.push hv hrout hroutv }
  · intro s' w' b' hs' hdone
    rcases hdone with hdone | ⟨rfl, rfl⟩
    · exact h.goto_done s' w' b' hs' hdone
    · -- the trie's transition is final as it is
      obtain rfl : w = w' := by rw [hs] at hs'; exact Option.some.inj hs'
      show g.next.getD _ 0 = _
      rw [h.goto_todo _ _ _ hs hb, hw.stateOf_of_mem hv]
      unfold child
      rw [if_pos (List.mem_of_getElem? hv)]
      exact idxOf_of_getElem? hw.nodup hv
  · intro s' w' b' hs' hdone
    exact h.goto_todo s' w' b' hs' (fun hd => hdone (.inl hd))
  · intro u
    have hiff : u ∈ (g.queue.push v).toList ↔ u ∈ g.queue.toList ∨ u = v := by simp
    rw [hiff, h.queued]
    constructor
    · rintro (⟨s', w', b', hs', hdone, hu⟩ | rfl)
      · exact ⟨s', w', b', hs', .inl hdone, hu⟩
      · exact ⟨s, w, b, hs, .inr ⟨rfl, rfl⟩, hv⟩
    · rintro ⟨s', w', b', hs', hdone | ⟨rfl, rfl⟩, hu⟩
      · exact .inl ⟨s', w', b', hs', hdone, hu⟩
      · obtain rfl : w = w' := by rw [hs] at hs'; exact Option.some.inj hs'
        exact .inr (hw.inj hu hv)
  · rw [Array.toList_push, List.nodup_append]
    refine ⟨h.nodup, by simp, ?_⟩
    intro x hx y hy heq
    obtain rfl := List.mem_singleton.mp hy
    exact hnew (heq ▸ hx)
  · intro u x hu hx
    show fail.getD u 0 = _
    rw [hfail]
    by_cases huv : u = v
    · subst huv
      obtain rfl : w ++ [b] = x := by rw [hv] at hx; exact Option.some.inj hx
      exact if_pos rfl
    · rw [if_neg huv]
      refine h.fail u x ?_ hx
      have hu' : u = 0 ∨ u ∈ (g.queue.push v).toList := hu
      simpa [huv] using hu'

/-- **Finalising a transition out of the trie**: it is flattened to the longest
suffix. -/
theorem Bfs.Links.flatten {cap : Nat} {words : List Bytes} {marks terms : Bytes → Nat → Prop}
    {g : Bfs} {done : Nat → UInt8 → Prop}
    (h : g.Links cap words marks terms done) {s : Nat} {w : Bytes} {b : UInt8}
    (hs : words[s]? = some w) (hout : w ++ [b] ∉ words) {next : Array Nat}
    (hsize : next.size = g.next.size)
    (hnext : ∀ j, next.getD j 0
      = if j = acCell s b then stateOf words (w ++ [b]) else g.next.getD j 0) :
    Bfs.Links cap words marks terms
      { next := next, out := g.out, rout := g.rout, fail := g.fail, queue := g.queue }
      (fun s' b' => done s' b' ∨ (s' = s ∧ b' = b)) := by
  refine
    { next_size := hsize.trans h.next_size
      out_size := h.out_size
      rout_size := h.rout_size
      fail_size := h.fail_size
      goto_done := ?_
      goto_todo := ?_
      queued := ?_
      nodup := h.nodup
      fail := h.fail
      out := h.out
      rout := h.rout }
  -- Only the transition of `s` at `b` is written, and it is now a done one.
  · intro s' w' b' hs' hdone
    show next.getD _ 0 = _
    rw [hnext]
    by_cases hcell : acCell s' b' = acCell s b
    · obtain ⟨rfl, rfl⟩ := acCell_inj hcell
      obtain rfl : w = w' := by rw [hs] at hs'; exact Option.some.inj hs'
      exact if_pos rfl
    · rw [if_neg hcell]
      rcases hdone with hdone | ⟨rfl, rfl⟩
      · exact h.goto_done s' w' b' hs' hdone
      · exact absurd rfl hcell
  · intro s' w' b' hs' hdone
    show next.getD _ 0 = _
    rw [hnext, if_neg]
    · exact h.goto_todo s' w' b' hs' (fun hd => hdone (.inl hd))
    · intro hcell
      exact hdone (.inr (acCell_inj hcell))
  -- Nothing is queued for it: `w ++ [b]` is no word of the trie.
  · intro u
    rw [h.queued]
    constructor
    · rintro ⟨s', w', b', hs', hdone, hu⟩
      exact ⟨s', w', b', hs', .inl hdone, hu⟩
    · rintro ⟨s', w', b', hs', hdone | ⟨rfl, rfl⟩, hu⟩
      · exact ⟨s', w', b', hs', hdone, hu⟩
      · obtain rfl : w = w' := by rw [hs] at hs'; exact Option.some.inj hs'
        exact absurd (List.mem_of_getElem? hu) hout

/-! ## §3. The masks of a linked state. -/

/-- A mark on a suffix of a word is a mark on the word, or on a suffix of its
longest proper suffix. -/
theorem exists_suffix_iff {words : List Bytes} {marks : Bytes → Nat → Prop}
    (hmarked : ∀ p k, marks p k → p ∈ words) {w : Bytes} (hne : w ≠ []) (k : Nat) :
    (∃ p, p <:+ w ∧ marks p k)
      ↔ marks w k ∨ ∃ p, p <:+ longest (· ∈ words) w.tail ∧ marks p k := by
  constructor
  · rintro ⟨p, hp, hk⟩
    rcases (suffix_iff_eq_or_tail (P := (· ∈ words)) (hmarked p k hk) hne).mp hp with rfl | hp
    · exact .inl hk
    · exact .inr ⟨p, hp, hk⟩
  · rintro (hk | ⟨p, hp, hk⟩)
    · exact ⟨w, List.suffix_refl w, hk⟩
    · exact ⟨p, (suffix_iff_eq_or_tail (P := (· ∈ words)) (hmarked p k hk) hne).mpr (.inr hp), hk⟩

/-- The union along a fail link completes the mask of the state. -/
theorem MasksOf.union {words : List Bytes} {final : Nat → Prop} {marks : Bytes → Nat → Prop}
    (hmarked : ∀ p k, marks p k → p ∈ words) {old new : Array Mask}
    (h : MasksOf words final marks old) {v f : Nat} {w : Bytes} (hne : w ≠ [])
    (hv : words[v]? = some w) (hvnew : ¬ final v)
    (hf : words[f]? = some (longest (· ∈ words) w.tail)) (hffinal : final f)
    (hnew : new.getD v 0 = old.getD v 0 ||| old.getD f 0) (k : Nat) :
    (new.getD v 0).getLsbD k = true ↔ ∃ p, p <:+ w ∧ marks p k := by
  rw [hnew, BitVec.getLsbD_or, Bool.or_eq_true, (h v w k hv).2 hvnew, (h f _ k hf).1 hffinal,
    exists_suffix_iff hmarked hne]

/-- **One transition** of a state `s` that is queued, while every transition of its
fail state is final and every state no deeper than `s` is queued. -/
theorem acLink_links {cap : Nat} {words : List Bytes} {marks terms : Bytes → Nat → Prop}
    (hmarks : ∀ p k, marks p k → p ∈ words) (hterms : ∀ p k, terms p k → p ∈ words)
    {g : Bfs} {done : Nat → UInt8 → Prop} (hw : IsTrie cap words)
    (h : g.Links cap words marks terms done) {s : Nat} {w : Bytes} {b : UInt8}
    (hs : words[s]? = some w) (hne : w ≠ []) (hqueued : s ∈ g.queue.toList) (hb : ¬ done s b)
    (hfail : ∀ b', done (stateOf words w.tail) b')
    (hshort : ∀ u x, words[u]? = some x → x.length ≤ w.length → u = 0 ∨ u ∈ g.queue.toList) :
    ∃ g', acLink cap s b g = .ok g'
      ∧ g'.Links cap words marks terms (fun s' b' => done s' b' ∨ (s' = s ∧ b' = b))
      ∧ g'.queue.toList
        = g.queue.toList ++ (if w ++ [b] ∈ words then [words.idxOf (w ++ [b])] else []) := by
  have hscap := hw.lt_cap hs
  -- the word of the fail state, and of where it goes
  have hu := hw.getElem?_stateOf w.tail
  have hf := hw.getElem?_stateOf (w ++ [b]).tail
  have htail : longest (· ∈ words) (w ++ [b]).tail
      = longest (· ∈ words) (longest (· ∈ words) w.tail ++ [b]) :=
    longest_tail_concat hw.closed hne b
  have hload₁ : load g.next (acCell s b) = .ok (child words w b) := by
    rw [load_eq (by rw [h.next_size]; exact acCell_lt hscap b) 0, h.goto_todo s w b hs hb]
  have hload₂ : load g.fail s = .ok (stateOf words w.tail) := by
    rw [load_eq (by rw [h.fail_size]; exact hscap) 0, h.fail s w (.inr hqueued) hs]
  have hload₃ : load g.next (acCell (stateOf words w.tail) b)
      = .ok (stateOf words (w ++ [b]).tail) := by
    rw [load_eq (by rw [h.next_size]; exact acCell_lt (hw.lt_cap hu) b) 0,
      h.goto_done _ _ b hu (hfail b)]
    unfold stateOf
    rw [htail]
  unfold acLink
  rw [hload₁, ok_bind, hload₂, ok_bind, hload₃, ok_bind]
  by_cases hin : w ++ [b] ∈ words
  · -- a state of the trie: the fail state is queued, since it is no deeper than `s`
    have hv : words[words.idxOf (w ++ [b])]? = some (w ++ [b]) := getElem?_idxOf_of_mem hin
    have hchild : child words w b = words.idxOf (w ++ [b]) := if_pos hin
    have hne0 : child words w b ≠ 0 := (child_ne_zero_iff hw.root).mpr hin
    rw [if_neg hne0, if_pos hin, hchild]
    have hnew : words.idxOf (w ++ [b]) ∉ g.queue.toList := h.not_queued hw hs hv hb
    have hvnew : ¬ (words.idxOf (w ++ [b]) = 0 ∨ words.idxOf (w ++ [b]) ∈ g.queue.toList) := by
      rintro (hz | hq)
      · exact hne0 (hchild.trans hz)
      · exact hnew hq
    have hflen : (longest (· ∈ words) (w ++ [b]).tail).length ≤ w.length := by
      refine Nat.le_trans (longest_length_le _ _) ?_
      rw [List.length_tail, List.length_append, List.length_singleton]
      omega
    have hffinal := hshort _ _ hf hflen
    have hvcap := hw.lt_cap hv
    have hfcap := hw.lt_cap hf
    obtain ⟨fail, hstore, hfsize, hfget⟩ :=
      store_eq (show _ < g.fail.size by rw [h.fail_size]; exact hvcap)
        (stateOf words (w ++ [b]).tail) 0
    obtain ⟨out, hout, hosize, hoget⟩ :=
      orInto_eq (show _ < g.out.size by rw [h.out_size]; exact hvcap)
        (g.out.getD (stateOf words (w ++ [b]).tail) 0)
    obtain ⟨rout, hrout, hrsize, hrget⟩ :=
      orInto_eq (show _ < g.rout.size by rw [h.rout_size]; exact hvcap)
        (g.rout.getD (stateOf words (w ++ [b]).tail) 0)
    have hroom := h.room hv hnew
    have hfits := hw.fits
    have hloadout : load g.out (stateOf words (w ++ [b]).tail)
        = .ok (g.out.getD (stateOf words (w ++ [b]).tail) 0) :=
      load_eq (by rw [h.out_size]; exact hfcap) 0
    have hloadrout : load g.rout (stateOf words (w ++ [b]).tail)
        = .ok (g.rout.getD (stateOf words (w ++ [b]).tail) 0) :=
      load_eq (by rw [h.rout_size]; exact hfcap) 0
    have henq : acEnqueue cap g.queue (words.idxOf (w ++ [b]))
        = .ok (g.queue.push (words.idxOf (w ++ [b]))) := if_pos (by omega)
    rw [hstore, ok_bind, hloadout, ok_bind, hout, ok_bind, hloadrout, ok_bind, hrout, ok_bind, henq]
    refine ⟨_, rfl, ?_, by simp⟩
    refine h.enqueue hw hs hv hb (hfsize.trans h.fail_size) (hosize.trans h.out_size)
      (hrsize.trans h.rout_size) hfget ?_ ?_ ?_ ?_
    · intro u hu
      rw [hoget, if_neg hu]
    · exact h.out.union hmarks (by simp) hv hvnew hf hffinal (by rw [hoget, if_pos rfl])
    · intro u hu
      rw [hrget, if_neg hu]
    · exact h.rout.union hterms (by simp) hv hvnew hf hffinal (by rw [hrget, if_pos rfl])
  · -- out of the trie: go where the fail state goes
    have hzero : child words w b = 0 := if_neg hin
    have hstate : stateOf words (w ++ [b]) = stateOf words (w ++ [b]).tail := by
      unfold stateOf
      rw [htail, longest_concat_of_notMem hw.closed hne hin]
    obtain ⟨next, hstore, hsize, hget⟩ :=
      store_eq (show acCell s b < g.next.size by rw [h.next_size]; exact acCell_lt hscap b)
        (stateOf words (w ++ [b]).tail) 0
    rw [if_pos hzero, hstore, ok_bind, if_neg hin, List.append_nil]
    refine ⟨_, rfl, h.flatten hs hin hsize ?_, rfl⟩
    intro j
    rw [hget, hstate]

/-! ## §4. One dequeued state. -/

theorem Bfs.Links.congr {cap : Nat} {words : List Bytes} {marks terms : Bytes → Nat → Prop}
    {g : Bfs} {done done' : Nat → UInt8 → Prop} (h : g.Links cap words marks terms done)
    (hiff : ∀ s b, done s b ↔ done' s b) : g.Links cap words marks terms done' := by
  obtain rfl : done = done' := by
    funext s b
    exact propext (hiff s b)
  exact h

/-- **All transitions of a dequeued state** `s`, one by one: what is queued for them
is one deeper than `s`. -/
theorem acLinks_links {cap : Nat} {words : List Bytes} {marks terms : Bytes → Nat → Prop}
    (hmarks : ∀ p k, marks p k → p ∈ words) (hterms : ∀ p k, terms p k → p ∈ words)
    (hw : IsTrie cap words) {s : Nat} {w : Bytes} (hs : words[s]? = some w) (hne : w ≠ []) :
    ∀ (bytes : List UInt8) (g : Bfs) (done : Nat → UInt8 → Prop),
      g.Links cap words marks terms done → bytes.Nodup → s ∈ g.queue.toList →
      (∀ b ∈ bytes, ¬ done s b) → (∀ b, done (stateOf words w.tail) b) →
      (∀ u x, words[u]? = some x → x.length ≤ w.length → u = 0 ∨ u ∈ g.queue.toList) →
      ∃ g' kids, acLinks cap s bytes g = .ok g'
        ∧ g'.Links cap words marks terms (fun s' b' => done s' b' ∨ (s' = s ∧ b' ∈ bytes))
        ∧ g'.queue.toList = g.queue.toList ++ kids
        ∧ ∀ v ∈ kids, ∃ x, words[v]? = some x ∧ x.length = w.length + 1 := by
  intro bytes
  induction bytes with
  | nil =>
      intro g done h _ _ _ _ _
      exact ⟨g, [], rfl, h.congr (by simp), by simp, by simp⟩
  | cons b bytes ih =>
      intro g done h hnd hqueued hb hfail hshort
      obtain ⟨hbnew, hnd'⟩ := List.nodup_cons.mp hnd
      obtain ⟨g₁, hlink, h₁, hq₁⟩ :=
        acLink_links hmarks hterms hw h hs hne hqueued (hb b (by simp)) hfail hshort
      -- what was queued stays queued
      have hmono : ∀ u, u ∈ g.queue.toList → u ∈ g₁.queue.toList := by
        intro u hu
        rw [hq₁]
        exact List.mem_append_left _ hu
      have hb₁ : ∀ b' ∈ bytes, ¬ (done s b' ∨ (s = s ∧ b' = b)) := by
        rintro b' hb' (hdone | ⟨-, rfl⟩)
        · exact hb b' (List.mem_cons_of_mem _ hb') hdone
        · exact hbnew hb'
      obtain ⟨g', kids, hlinks, h', hq', hkids⟩ :=
        ih g₁ _ h₁ hnd' (hmono s hqueued) hb₁ (fun b' => .inl (hfail b'))
          (fun u x hu hx => (hshort u x hu hx).imp_right (hmono u))
      refine ⟨g', (if w ++ [b] ∈ words then [words.idxOf (w ++ [b])] else []) ++ kids, ?_, ?_, ?_, ?_⟩
      · unfold acLinks
        rw [hlink, ok_bind, hlinks]
      · refine h'.congr fun s' b' => ?_
        rw [or_assoc, ← and_or_left, List.mem_cons]
      · rw [hq', hq₁, List.append_assoc]
      · intro v hv
        rcases List.mem_append.mp hv with hv | hv
        · split at hv
          · rename_i hin
            obtain rfl := List.mem_singleton.mp hv
            exact ⟨w ++ [b], getElem?_idxOf_of_mem hin, by simp⟩
          · simp at hv
        · exact hkids v hv

/-! ## §5. The root. -/

/-- The search before its first round, with this queue. -/
def Trie.seeded (t : Trie) (cap : Nat) (queue : Array Nat) : Bfs where
  next := t.next
  out := t.out
  rout := t.rout
  fail := Array.replicate cap 0
  queue := queue

@[simp] theorem Trie.seeded_queue (t : Trie) (cap : Nat) (queue : Array Nat) :
    (t.seeded cap queue).queue = queue := rfl

/-- The suffixes of a word of one byte are the word itself and the empty word. -/
theorem suffix_single_iff {marks : Bytes → Nat → Prop} {k : Nat} (hnil : ¬ marks [] k) (b : UInt8) :
    marks [b] k ↔ ∃ p, p <:+ [] ++ [b] ∧ marks p k := by
  constructor
  · intro hk
    exact ⟨[b], List.suffix_refl _, hk⟩
  · rintro ⟨p, hp, hk⟩
    rcases List.suffix_cons_iff.mp hp with rfl | hp
    · exact hk
    · obtain rfl := List.suffix_nil.mp hp
      exact absurd hk hnil

theorem getD_replicate_zero (n u : Nat) : (Array.replicate n 0).getD u 0 = 0 := by
  simp [Array.getD_eq_getD_getElem?, Array.getElem?_replicate]
  split <;> rfl

/-- **A child of the root** is queued as it is, its fail link being the root. -/
theorem Trie.Holds.seed_child {cap : Nat} {words : List Bytes} {marks terms : Bytes → Nat → Prop}
    {t : Trie} (ht : t.Holds cap words marks terms) (hempty : ∀ k, ¬ marks [] k ∧ ¬ terms [] k)
    {queue : Array Nat} {seen : UInt8 → Prop}
    (h : (t.seeded cap queue).Links cap words marks terms (fun s b => s = 0 ∧ seen b)) {b : UInt8}
    (hb : ¬ seen b) (hin : [b] ∈ words) :
    acEnqueue cap queue (words.idxOf [b]) = .ok (queue.push (words.idxOf [b]))
      ∧ (t.seeded cap (queue.push (words.idxOf [b]))).Links cap words marks terms
        (fun s' b' => (s' = 0 ∧ seen b') ∨ (s' = 0 ∧ b' = b)) := by
  have hw := ht.isTrie
  have hroot := hw.root
  have hv : words[words.idxOf [b]]? = some [b] := getElem?_idxOf_of_mem hin
  have hchild : child words [] b = words.idxOf [b] := if_pos hin
  have hne : child words [] b ≠ 0 := (child_ne_zero_iff hroot).mpr hin
  -- The child was not queued before: what is queued came of another byte.
  have hnew : words.idxOf [b] ∉ queue.toList := by
    intro hq
    obtain ⟨s', w', b', hs', ⟨rfl, hseen⟩, hv'⟩ := (h.queued _).mp hq
    obtain rfl : [] = w' := by rw [hroot] at hs'; exact Option.some.inj hs'
    rw [hv] at hv'
    obtain rfl : b = b' := by simpa using hv'
    exact hb hseen
  have hvnew : ¬ (words.idxOf [b] = 0 ∨ words.idxOf [b] ∈ queue.toList) := by
    rintro (hz | hq)
    · exact hne (hchild.trans hz)
    · exact hnew hq
  constructor
  · have hroom : queue.size < words.length := h.room hv hnew
    have hfits := hw.fits
    exact if_pos (by omega)
  · refine h.enqueue hw hroot hv (fun hd => hb hd.2) Array.size_replicate ht.out_size ht.rout_size
      ?_ (fun _ _ => rfl) ?_ (fun _ _ => rfl) ?_
    · intro u
      have hzero : stateOf words ([] ++ [b]).tail = 0 := hw.stateOf_of_mem hroot
      show (Array.replicate cap 0).getD u 0
        = if u = words.idxOf [b] then _ else (Array.replicate cap 0).getD u 0
      rw [hzero, getD_replicate_zero, ite_self]
    · intro k
      exact ((h.out _ _ k hv).2 hvnew).trans (suffix_single_iff (hempty k).1 b)
    · intro k
      exact ((h.rout _ _ k hv).2 hvnew).trans (suffix_single_iff (hempty k).2 b)

/-- A byte without a child leads back to the root, as it does in the trie. -/
theorem Trie.Holds.seed_flat {cap : Nat} {words : List Bytes} {marks terms : Bytes → Nat → Prop}
    {t : Trie} (ht : t.Holds cap words marks terms) {queue : Array Nat} {seen : UInt8 → Prop}
    (h : (t.seeded cap queue).Links cap words marks terms (fun s b => s = 0 ∧ seen b)) {b : UInt8}
    (hin : [b] ∉ words) :
    (t.seeded cap queue).Links cap words marks terms
      (fun s' b' => (s' = 0 ∧ seen b') ∨ (s' = 0 ∧ b' = b)) := by
  have hw := ht.isTrie
  have hroot := hw.root
  refine h.flatten hroot hin rfl ?_
  intro j
  split
  · rename_i hj
    have hlong : longest (· ∈ words) [b] = [] := by
      show (if [b] ∈ words then [b] else []) = []
      exact if_neg hin
    have hstate : stateOf words ([] ++ [b]) = 0 := by
      unfold stateOf
      rw [List.nil_append, hlong]
      exact idxOf_of_getElem? hw.nodup hroot
    have hzero : child words [] b = 0 := if_neg hin
    show t.next.getD j 0 = _
    rw [hj, hstate, ht.goto 0 [] b hroot, hzero]
  · rfl

/-- Before the search, with the children of the root for some bytes in the queue. -/
theorem acSeed_links {cap : Nat} {words : List Bytes} {marks terms : Bytes → Nat → Prop} {t : Trie}
    (ht : t.Holds cap words marks terms) (hempty : ∀ k, ¬ marks [] k ∧ ¬ terms [] k) :
    ∀ (bytes : List UInt8) (queue : Array Nat) (seen : UInt8 → Prop),
      (t.seeded cap queue).Links cap words marks terms (fun s b => s = 0 ∧ seen b) →
      bytes.Nodup → (∀ b ∈ bytes, ¬ seen b) →
      (∀ v ∈ queue.toList, ∃ x, words[v]? = some x ∧ x.length = 1) →
      ∃ queue', acSeed cap t.next bytes queue = .ok queue'
        ∧ (t.seeded cap queue').Links cap words marks terms
          (fun s b => s = 0 ∧ (seen b ∨ b ∈ bytes))
        ∧ ∀ v ∈ queue'.toList, ∃ x, words[v]? = some x ∧ x.length = 1 := by
  have hroot := ht.isTrie.root
  intro bytes
  induction bytes with
  | nil =>
      intro queue seen h _ _ hone
      exact ⟨queue, rfl, h.congr (by simp), hone⟩
  | cons b bytes ih =>
      intro queue seen h hnd hb hone
      obtain ⟨hbnew, hnd'⟩ := List.nodup_cons.mp hnd
      have hb' : ∀ b' ∈ bytes, ¬ (seen b' ∨ b' = b) := by
        rintro b' hb' (hseen | rfl)
        · exact hb b' (List.mem_cons_of_mem _ hb') hseen
        · exact hbnew hb'
      have hload : load t.next (acCell 0 b) = .ok (child words [] b) := by
        rw [load_eq (by rw [ht.next_size]; exact acCell_lt (ht.isTrie.lt_cap hroot) b) 0,
          ht.goto 0 [] b hroot]
      -- with one more byte seen, the rest is the induction hypothesis
      have hrest : ∀ queue', (t.seeded cap queue').Links cap words marks terms
          (fun s' b' => (s' = 0 ∧ seen b') ∨ (s' = 0 ∧ b' = b)) →
          (∀ v ∈ queue'.toList, ∃ x, words[v]? = some x ∧ x.length = 1) →
          ∃ queue'', acSeed cap t.next bytes queue' = .ok queue''
            ∧ (t.seeded cap queue'').Links cap words marks terms
              (fun s b' => s = 0 ∧ (seen b' ∨ b' ∈ b :: bytes))
            ∧ ∀ v ∈ queue''.toList, ∃ x, words[v]? = some x ∧ x.length = 1 := by
        intro queue' h' hone'
        obtain ⟨queue'', hseed, h'', hone''⟩ :=
          ih queue' (fun b' => seen b' ∨ b' = b) (h'.congr fun s' b' => and_or_left.symm) hnd' hb'
            hone'
        refine ⟨queue'', hseed, h''.congr fun s' b' => ?_, hone''⟩
        rw [or_assoc, List.mem_cons]
      unfold acSeed
      rw [hload, ok_bind]
      by_cases hin : [b] ∈ words
      · obtain ⟨henq, hlinks⟩ := ht.seed_child hempty h (hb b List.mem_cons_self) hin
        have hchild : child words [] b = words.idxOf [b] := if_pos hin
        rw [if_pos ((child_ne_zero_iff hroot).mpr hin), hchild, henq, ok_bind]
        apply hrest _ hlinks
        intro v hv
        rw [Array.toList_push, List.mem_append, List.mem_singleton] at hv
        rcases hv with hv | rfl
        · exact hone v hv
        · exact ⟨[b], getElem?_idxOf_of_mem hin, rfl⟩
      · have hzero : child words [] b = 0 := if_neg hin
        rw [if_neg (not_not.mpr hzero), pure_eq_ok, ok_bind]
        exact hrest queue (ht.seed_flat h hin) hone

/-- Before anything is done the masks are those of the trie. -/
theorem MasksOf.trie {words : List Bytes} (hroot : words[0]? = some [])
    {marks : Bytes → Nat → Prop} {a : Array Mask}
    (h : ∀ s k, (a.getD s 0).getLsbD k = true ↔ ∃ w, words[s]? = some w ∧ marks w k) :
    MasksOf words (fun v => v = 0 ∨ v ∈ (#[] : Array Nat).toList) marks a := by
  intro v w k hv
  have hown : (a.getD v 0).getLsbD k = true ↔ marks w k := by
    rw [h, hv]
    simp
  refine ⟨fun hfinal => ?_, fun _ => hown⟩
  obtain rfl : v = 0 := by simpa using hfinal
  obtain rfl : [] = w := by rw [hroot] at hv; exact Option.some.inj hv
  rw [hown]
  constructor
  · intro hk
    exact ⟨[], List.suffix_refl _, hk⟩
  · rintro ⟨p, hp, hk⟩
    obtain rfl := List.suffix_nil.mp hp
    exact hk

/-- The search starts with the whole trie to do. -/
theorem Trie.Holds.links {cap : Nat} {words : List Bytes} {marks terms : Bytes → Nat → Prop}
    {t : Trie} (ht : t.Holds cap words marks terms) :
    (t.seeded cap #[]).Links cap words marks terms (fun s _ => s = 0 ∧ False) where
  next_size := ht.next_size
  out_size := ht.out_size
  rout_size := ht.rout_size
  fail_size := Array.size_replicate
  goto_done := by simp
  goto_todo := fun s w b hs _ => ht.goto s w b hs
  queued := by simp
  nodup := by simp
  fail := by
    intro v w hv hword
    obtain rfl : v = 0 := by simpa using hv
    obtain rfl : [] = w := by rw [ht.root] at hword; exact Option.some.inj hword
    show (Array.replicate cap 0).getD 0 0 = stateOf words []
    rw [ht.isTrie.stateOf_of_mem ht.root, getD_replicate_zero]
  out := MasksOf.trie ht.root ht.out
  rout := MasksOf.trie ht.root ht.rout

/-! ## §6. The whole search.

The search is breadth-first: when a state is dequeued, all transitions of the states
less deep are final, and so are those of its fail state. -/

/-- The depth of a state: the length of its word. -/
def depth (words : List Bytes) (v : Nat) : Nat := (words[v]?.getD []).length

theorem depth_eq {words : List Bytes} {v : Nat} {w : Bytes} (h : words[v]? = some w) :
    depth words v = w.length := by
  unfold depth
  rw [h]
  rfl

/-- **Between two rounds of the search**: the transitions of the root and of the
states dequeued are final, and the queue is sorted by depth. -/
structure Bfs.Round (cap : Nat) (words : List Bytes) (marks terms : Bytes → Nat → Prop) (g : Bfs)
    (head : Nat) : Prop where
  links : g.Links cap words marks terms (fun s _ => s = 0 ∨ s ∈ g.queue.toList.take head)
  sorted : g.queue.toList.Pairwise (fun u v => depth words u ≤ depth words v)
  head_le : head ≤ g.queue.size

/-- The search begins with the children of the root: each of them is one byte deep. -/
theorem Bfs.Round.begin {cap : Nat} {words : List Bytes} {marks terms : Bytes → Nat → Prop}
    {g : Bfs} {seen : UInt8 → Prop} (hlinks : g.Links cap words marks terms (fun s b => s = 0 ∧ seen b))
    (hseen : ∀ b, seen b) (hone : ∀ v ∈ g.queue.toList, ∃ x, words[v]? = some x ∧ x.length = 1) :
    g.Round cap words marks terms 0 := by
  refine ⟨hlinks.congr fun s b => by simp [hseen b], ?_, Nat.zero_le _⟩
  apply List.pairwise_of_forall_mem_list
  intro u hu v hv
  obtain ⟨x, hx, hxlen⟩ := hone u hu
  obtain ⟨y, hy, hylen⟩ := hone v hv
  rw [depth_eq hx, depth_eq hy, hxlen, hylen]

/-- **The depth argument**: a state less deep than the one at the head of the queue
has been dequeued. -/
theorem Bfs.Round.dequeued {cap : Nat} {words : List Bytes} {marks terms : Bytes → Nat → Prop}
    {g : Bfs} {head : Nat} (hw : IsTrie cap words) (h : g.Round cap words marks terms head) {s : Nat}
    (hs : g.queue.toList[head]? = some s) :
    ∀ (x : Bytes) (u : Nat), words[u]? = some x → x.length < depth words s →
      u = 0 ∨ u ∈ g.queue.toList.take head := by
  intro x
  -- by induction on the word: its state is queued once its parent's is dequeued
  induction x using List.reverseRecOn with
  | nil =>
      intro u hu _
      exact .inl (hw.inj hu hw.root)
  | append_singleton x a ih =>
      intro u hu hlt
      rw [List.length_append, List.length_singleton] at hlt
      have hx : x ∈ words := hw.closed.init x a (List.mem_of_getElem? hu)
      have hparent := ih _ (getElem?_idxOf_of_mem hx) (by omega)
      have hqueued : u ∈ g.queue.toList :=
        (h.links.queued u).mpr ⟨_, x, a, getElem?_idxOf_of_mem hx, hparent, hu⟩
      right
      -- at the head or behind it, it would be at least as deep as `s`
      by_contra hbehind
      rw [← List.take_append_drop head g.queue.toList, List.mem_append] at hqueued
      have hdrop := hqueued.resolve_left hbehind
      have hcons : g.queue.toList.drop head = s :: g.queue.toList.drop (head + 1) := by
        obtain ⟨hlt', rfl⟩ := List.getElem?_eq_some_iff.mp hs
        exact List.drop_eq_getElem_cons hlt'
      have hsorted := h.sorted.sublist (List.drop_sublist head g.queue.toList)
      rw [hcons] at hsorted hdrop
      have hle : depth words s ≤ depth words u := by
        rcases List.mem_cons.mp hdrop with rfl | hin
        · exact Nat.le_refl _
        · exact (List.pairwise_cons.mp hsorted).1 u hin
      rw [depth_eq hu, List.length_append, List.length_singleton] at hle
      omega

/-- A state no deeper than the one at the head of the queue is queued. -/
theorem Bfs.Round.queued_of_le {cap : Nat} {words : List Bytes} {marks terms : Bytes → Nat → Prop}
    {g : Bfs} {head : Nat} (hw : IsTrie cap words) (h : g.Round cap words marks terms head) {s : Nat}
    (hs : g.queue.toList[head]? = some s) {x : Bytes} {u : Nat} (hu : words[u]? = some x)
    (hle : x.length ≤ depth words s) : u = 0 ∨ u ∈ g.queue.toList := by
  cases x using List.reverseRecOn with
  | nil => exact .inl (hw.inj hu hw.root)
  | append_singleton x a =>
      right
      rw [List.length_append, List.length_singleton] at hle
      have hx : x ∈ words := hw.closed.init x a (List.mem_of_getElem? hu)
      have hparent := h.dequeued hw hs x _ (getElem?_idxOf_of_mem hx) (by omega)
      exact (h.links.queued u).mpr ⟨_, x, a, getElem?_idxOf_of_mem hx, hparent, hu⟩

/-- A queued state is at most one deeper than the one at the head. -/
theorem Bfs.Round.depth_le {cap : Nat} {words : List Bytes} {marks terms : Bytes → Nat → Prop}
    {g : Bfs} {head : Nat} (hw : IsTrie cap words) (h : g.Round cap words marks terms head) {s : Nat}
    (hs : g.queue.toList[head]? = some s) {u : Nat} (hu : u ∈ g.queue.toList) :
    depth words u ≤ depth words s + 1 := by
  obtain ⟨p, w, b, hp, hdone, hword⟩ := (h.links.queued u).mp hu
  rw [depth_eq hword, List.length_append, List.length_singleton]
  rcases hdone with rfl | htake
  · obtain rfl : [] = w := by rw [hw.root] at hp; exact Option.some.inj hp
    exact Nat.succ_le_succ (Nat.zero_le _)
  · -- the parent is before the head in the sorted queue
    have hsorted := h.sorted
    rw [← List.take_append_drop head g.queue.toList, List.pairwise_append] at hsorted
    have hin : s ∈ g.queue.toList.drop head := by
      obtain ⟨hlt, rfl⟩ := List.getElem?_eq_some_iff.mp hs
      rw [List.drop_eq_getElem_cons hlt]
      exact List.mem_cons_self
    have hle := hsorted.2.2 p htake s hin
    rw [depth_eq hp] at hle
    omega

/-- **One round**: the state at the head is dequeued, and all its transitions done. -/
theorem Bfs.Round.step {cap : Nat} {words : List Bytes} {marks terms : Bytes → Nat → Prop}
    (hmarks : ∀ p k, marks p k → p ∈ words) (hterms : ∀ p k, terms p k → p ∈ words) {g : Bfs}
    {head : Nat} (hw : IsTrie cap words) (h : g.Round cap words marks terms head) {s : Nat}
    (hs : g.queue.toList[head]? = some s) :
    ∃ g', acLinks cap s acBytes g = .ok g' ∧ g'.Round cap words marks terms (head + 1) := by
  have hqueued : s ∈ g.queue.toList := List.mem_of_getElem? hs
  obtain ⟨p, w, b, -, -, hword⟩ := (h.links.queued s).mp hqueued
  have hdepth := depth_eq hword
  obtain ⟨hlt, hget⟩ := List.getElem?_eq_some_iff.mp hs
  have hsnew : ∀ c ∈ acBytes, ¬ (s = 0 ∨ s ∈ g.queue.toList.take head) := by
    rintro c - (hz | htake)
    · exact h.links.ne_zero hw hqueued hz
    · -- the queue holds no state twice
      have hnd := h.links.nodup
      rw [← List.take_append_drop head g.queue.toList, List.nodup_append] at hnd
      have hin : s ∈ g.queue.toList.drop head := by
        rw [List.drop_eq_getElem_cons hlt, hget]
        exact List.mem_cons_self
      exact hnd.2.2 s htake s hin rfl
  have hfail : ∀ c : UInt8, stateOf words (w ++ [b]).tail = 0
      ∨ stateOf words (w ++ [b]).tail ∈ g.queue.toList.take head := by
    intro c
    refine h.dequeued hw hs _ _ (hw.getElem?_stateOf _) ?_
    have hle := longest_length_le (· ∈ words) (w ++ [b]).tail
    rw [List.length_tail, ← hdepth] at hle
    rw [List.length_append, List.length_singleton] at hdepth
    omega
  obtain ⟨g', kids, hlinks, h', hq', hkids⟩ :=
    acLinks_links hmarks hterms hw hword (by simp) acBytes g _ h.links acBytes_nodup hqueued hsnew hfail
      (fun u x hu hx => h.queued_of_le hw hs hu (hdepth ▸ hx))
  have htake : g'.queue.toList.take (head + 1) = g.queue.toList.take head ++ [s] := by
    rw [hq', List.take_append_of_le_length hlt, List.take_succ_eq_append_getElem hlt, hget]
  refine ⟨g', hlinks, ?_, ?_, ?_⟩
  · refine h'.congr fun s' b' => ?_
    rw [htake, List.mem_append, List.mem_singleton, or_assoc]
    simp only [mem_acBytes, and_true]
  · rw [hq', List.pairwise_append]
    refine ⟨h.sorted, ?_, ?_⟩
    · refine List.pairwise_of_forall_mem_list fun u hu v hv => ?_
      obtain ⟨x, hx, hxlen⟩ := hkids u hu
      obtain ⟨y, hy, hylen⟩ := hkids v hv
      rw [depth_eq hx, depth_eq hy, hxlen, hylen]
    · intro u hu v hv
      obtain ⟨y, hy, hylen⟩ := hkids v hv
      rw [depth_eq hy, hylen, ← hdepth]
      exact h.depth_le hw hs hu
  · have hlen := congrArg List.length hq'
    rw [List.length_append, Array.length_toList, Array.length_toList] at hlen
    rw [Array.length_toList] at hlt
    omega

/-- **The whole search** ends with the queue, and by then it has dequeued every state. -/
theorem acDrain_links {cap : Nat} {words : List Bytes} {marks terms : Bytes → Nat → Prop}
    (hmarks : ∀ p k, marks p k → p ∈ words) (hterms : ∀ p k, terms p k → p ∈ words)
    (hw : IsTrie cap words) :
    ∀ (fuel head : Nat) (g : Bfs), g.Round cap words marks terms head →
      words.length ≤ fuel + head →
      ∃ g', acDrain cap fuel head g = .ok g' ∧ g'.Round cap words marks terms g'.queue.size := by
  intro fuel
  induction fuel with
  | zero =>
      intro head g h hfuel
      -- the queue never holds the root, so it is shorter than the trie
      exfalso
      have hroom := h.links.room hw.root (fun h0 => h.links.ne_zero hw h0 rfl)
      have hle := h.head_le
      omega
  | succ fuel ih =>
      intro head g h hfuel
      unfold acDrain
      by_cases hlt : head < g.queue.size
      · have hs : g.queue.toList[head]? = some (g.queue.getD head 0) := by
          rw [Array.getElem?_toList, Array.getElem?_eq_getElem hlt]
          simp [Array.getD, hlt]
        obtain ⟨g₁, hlinks, h₁⟩ := h.step hmarks hterms hw hs
        obtain ⟨g', hdrain, h'⟩ := ih (head + 1) g₁ h₁ (by omega)
        refine ⟨g', ?_, h'⟩
        rw [if_pos hlt, load_eq hlt 0, ok_bind, hlinks, ok_bind, hdrain]
      · refine ⟨g, if_neg hlt, ?_⟩
        have heq : head = g.queue.size := Nat.le_antisymm h.head_le (not_lt.mp hlt)
        rw [← heq]
        exact h

/-- **Every transition is final** when the search is over. -/
theorem Bfs.Round.final {cap : Nat} {words : List Bytes} {marks terms : Bytes → Nat → Prop}
    {g : Bfs} (hw : IsTrie cap words) (h : g.Round cap words marks terms g.queue.size) :
    ∀ (w : Bytes) (s : Nat), words[s]? = some w → s = 0 ∨ s ∈ g.queue.toList := by
  have hall : g.queue.toList.take g.queue.size = g.queue.toList := by
    rw [← Array.length_toList, List.take_length]
  have hlinks := h.links
  rw [hall] at hlinks
  intro w
  induction w using List.reverseRecOn with
  | nil =>
      intro s hs
      exact .inl (hw.inj hs hw.root)
  | append_singleton w a ih =>
      intro s hs
      have hmem : w ∈ words := hw.closed.init w a (List.mem_of_getElem? hs)
      have hparent := ih _ (getElem?_idxOf_of_mem hmem)
      exact .inr ((hlinks.queued s).mpr ⟨_, w, a, getElem?_idxOf_of_mem hmem, hparent, hs⟩)

end HttpShield
