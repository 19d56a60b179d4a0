/-
  HttpShield.Scan.Trie
  ────────────────────
  Pass 1 of the builder: what the goto trie holds.

  The states of the trie stand for words: `words` lists them by state number,
  the root being the empty word, and the set is closed under prefixes.  Beside
  the words, `marks` and `terms` say which categories and which rule terms end
  at a word.

    • `acWalk_holds` — following a signature adds its prefixes and ends at it,
    • `acAddCategories_holds`, `acAddRules_holds` — pass 1 as a whole.
-/
import HttpShield.Scan.Automaton
import HttpShield.Lib.LongestSuffix
import Mathlib.Data.List.Nodup

namespace HttpShield

open LongestSuffix

/-! ## §1. Checked arrays. -/

theorem load_eq {α : Type} {a : Array α} {i : Nat} (h : i < a.size) (d : α) :
    load a i = .ok (a.getD i d) := by
  unfold load
  rw [Array.getElem?_eq_getElem h]
  simp [Array.getD, h]

/-- A store in bounds changes one place. -/
theorem store_eq {α : Type} {a : Array α} {i : Nat} (h : i < a.size) (v d : α) :
    ∃ a', store a i v = .ok a' ∧ a'.size = a.size
      ∧ ∀ j, a'.getD j d = if j = i then v else a.getD j d := by
  refine ⟨a.set i v h, by unfold store; rw [dif_pos h], Array.size_set h, ?_⟩
  intro j
  simp only [Array.getD_eq_getD_getElem?, Array.getElem?_set]
  by_cases hij : i = j
  · subst hij
    simp
  · rw [if_neg hij, if_neg (Ne.symm hij)]

theorem orInto_eq {a : Array Mask} {i : Nat} (h : i < a.size) (m : Mask) :
    ∃ a', orInto a i m = .ok a' ∧ a'.size = a.size
      ∧ ∀ j, a'.getD j 0 = if j = i then a.getD i 0 ||| m else a.getD j 0 := by
  obtain ⟨a', hstore, hsize, hget⟩ := store_eq h (a.getD i 0 ||| m) 0
  refine ⟨a', ?_, hsize, hget⟩
  unfold orInto
  rw [load_eq h 0, ok_bind, hstore]

theorem acCell_lt {cap s : Nat} (h : s < cap) (b : UInt8) : acCell s b < cap * acAlphabet := by
  have hb : b.toNat < acAlphabet := b.toNat_lt
  unfold acCell
  calc s * acAlphabet + b.toNat < (s + 1) * acAlphabet := by rw [Nat.succ_mul]; omega
    _ ≤ cap * acAlphabet := Nat.mul_le_mul_right _ h

theorem acCell_inj {s s' : Nat} {b b' : UInt8} (h : acCell s b = acCell s' b') :
    s = s' ∧ b = b' := by
  have hb : b.toNat < 256 := b.toNat_lt
  have hb' : b'.toNat < 256 := b'.toNat_lt
  unfold acCell acAlphabet at h
  exact ⟨by omega, UInt8.toNat_inj.mp (by omega)⟩

theorem mem_acBytes (b : UInt8) : b ∈ acBytes := by
  unfold acBytes
  rw [List.mem_map]
  exact ⟨b.toNat, List.mem_range.mpr b.toNat_lt, UInt8.ofNat_toNat⟩

/-- The walk over the bytes comes to none of them twice. -/
theorem acBytes_nodup : acBytes.Nodup := by
  unfold acBytes
  refine List.Nodup.map_on (fun a ha b hb hab => ?_) List.nodup_range
  rw [List.mem_range] at ha hb
  have hnat := congrArg UInt8.toNat hab
  rwa [UInt8.toNat_ofNat_of_lt' ha, UInt8.toNat_ofNat_of_lt' hb] at hnat

/-! ## §2. What the trie holds.

The states of the trie are the words added so far, in the order of their numbers; a
transition leads to the word with one byte more. -/

/-- The state a letter leads to in the trie of `words`, `0` if it leads out of it. -/
def child (words : List Bytes) (w : Bytes) (b : UInt8) : Nat :=
  if w ++ [b] ∈ words then words.idxOf (w ++ [b]) else 0

/-- The state of the longest suffix of a word. -/
def stateOf (words : List Bytes) (w : Bytes) : Nat := words.idxOf (longest (· ∈ words) w)

/-- **The trie of `words`**, with the categories `marks` and the rule terms `terms`
accepted at them; nothing is stored yet past the last state. -/
structure Trie.Holds (cap : Nat) (t : Trie) (words : List Bytes)
    (marks terms : Bytes → Nat → Prop) : Prop where
  count : words.length = t.nstates
  root : words[0]? = some []
  nodup : words.Nodup
  closed : PrefixClosed (· ∈ words)
  fits : t.nstates ≤ cap
  next_size : t.next.size = cap * acAlphabet
  out_size : t.out.size = cap
  rout_size : t.rout.size = cap
  goto : ∀ s w b, words[s]? = some w → t.next.getD (acCell s b) 0 = child words w b
  blank : ∀ s b, words.length ≤ s → t.next.getD (acCell s b) 0 = 0
  out : ∀ s k, (t.out.getD s 0).getLsbD k = true ↔ ∃ w, words[s]? = some w ∧ marks w k
  rout : ∀ s k, (t.rout.getD s 0).getLsbD k = true ↔ ∃ w, words[s]? = some w ∧ terms w k
  marked : ∀ w k, marks w k ∨ terms w k → w ∈ words

/-- A state is the index of its word. -/
theorem idxOf_of_getElem? {words : List Bytes} (hnd : words.Nodup) {s : Nat} {w : Bytes}
    (h : words[s]? = some w) : words.idxOf w = s := by
  obtain ⟨hlt, rfl⟩ := List.getElem?_eq_some_iff.mp h
  exact hnd.idxOf_getElem s hlt

theorem getElem?_idxOf_of_mem {words : List Bytes} {w : Bytes} (h : w ∈ words) :
    words[words.idxOf w]? = some w := by
  rw [List.getElem?_eq_getElem (List.idxOf_lt_length_of_mem h), List.getElem_idxOf]

theorem Trie.Holds.lt_cap {cap : Nat} {t : Trie} {words : List Bytes}
    {marks terms : Bytes → Nat → Prop} (h : t.Holds cap words marks terms) {s : Nat} {w : Bytes}
    (hs : words[s]? = some w) : s < cap := by
  have hlt := (List.getElem?_eq_some_iff.mp hs).1
  have hcount := h.count
  have hfits := h.fits
  omega

/-- A letter in the trie leads to the state of the longer word, which is not the
root; a letter out of it leads nowhere. -/
theorem child_ne_zero_iff {words : List Bytes} (hroot : words[0]? = some []) {w : Bytes}
    {b : UInt8} : child words w b ≠ 0 ↔ w ++ [b] ∈ words := by
  unfold child
  constructor
  · intro h
    by_contra hout
    exact h (if_neg hout)
  · intro h
    rw [if_pos h]
    intro hzero
    have hword := getElem?_idxOf_of_mem h
    rw [hzero, hroot] at hword
    simp at hword

/-! ## §3. Adding one state. -/

theorem getElem?_concat_cases {words : List Bytes} {x w : Bytes} {s : Nat}
    (h : (words ++ [x])[s]? = some w) : words[s]? = some w ∨ (s = words.length ∧ w = x) := by
  rcases Nat.lt_or_ge s words.length with hlt | hge
  · left
    rwa [List.getElem?_append_left hlt] at h
  · right
    rw [List.getElem?_append_right hge] at h
    obtain ⟨hlt, rfl⟩ := List.getElem?_eq_some_iff.mp h
    simp at hlt
    exact ⟨by omega, by simp⟩

theorem getElem?_concat_of {words : List Bytes} {w : Bytes} {s : Nat} (h : words[s]? = some w)
    (x : Bytes) : (words ++ [x])[s]? = some w := by
  rw [List.getElem?_append_left (List.getElem?_eq_some_iff.mp h).1]
  exact h

/-- One more word is one more child, of the word that it continues. -/
theorem child_concat {words : List Bytes} {w : Bytes} {b : UInt8} (hnew : w ++ [b] ∉ words)
    (w' : Bytes) (b' : UInt8) :
    child (words ++ [w ++ [b]]) w' b'
      = if w' = w ∧ b' = b then words.length else child words w' b' := by
  unfold child
  by_cases hsame : w' = w ∧ b' = b
  · obtain ⟨rfl, rfl⟩ := hsame
    rw [if_pos (by simp), if_pos ⟨rfl, rfl⟩, List.idxOf_append_of_notMem hnew]
    simp
  · rw [if_neg hsame]
    have hne : w' ++ [b'] ≠ w ++ [b] := by
      intro heq
      obtain ⟨rfl, hb⟩ := List.append_inj' heq rfl
      exact hsame ⟨rfl, by simpa using hb⟩
    by_cases hin : w' ++ [b'] ∈ words
    · rw [if_pos hin, if_pos (List.mem_append_left _ hin), List.idxOf_append_of_mem hin]
    · rw [if_neg hin, if_neg (by simp [hin, hne])]

/-- Words with one more that is not marked are marked as they were. -/
theorem marked_concat_iff {words : List Bytes} {x : Bytes} (hnew : x ∉ words)
    {marks : Bytes → Nat → Prop} (hmarked : ∀ v k, marks v k → v ∈ words) (s k : Nat) :
    (∃ v, words[s]? = some v ∧ marks v k) ↔ ∃ v, (words ++ [x])[s]? = some v ∧ marks v k := by
  constructor
  · rintro ⟨v, hv, hk⟩
    exact ⟨v, getElem?_concat_of hv x, hk⟩
  · rintro ⟨v, hv, hk⟩
    rcases getElem?_concat_cases hv with hv | ⟨-, rfl⟩
    · exact ⟨v, hv, hk⟩
    · exact absurd (hmarked _ _ hk) hnew

/-- The trie with the word `w ++ [b]` added. -/
theorem Trie.Holds.grow {cap : Nat} {t : Trie} {words : List Bytes}
    {marks terms : Bytes → Nat → Prop} (h : t.Holds cap words marks terms) {s : Nat} {w : Bytes}
    (hs : words[s]? = some w) {b : UInt8} (hnew : w ++ [b] ∉ words) (hroom : t.nstates < cap)
    {next : Array Nat} (hsize : next.size = t.next.size)
    (hnext : ∀ j, next.getD j 0 = if j = acCell s b then t.nstates else t.next.getD j 0) :
    Trie.Holds cap { next := next, out := t.out, rout := t.rout, nstates := t.nstates + 1 }
      (words ++ [w ++ [b]]) marks terms := by
  have hcount := h.count
  -- the row of a state that is not there yet is not the one that changes
  have hpast : ∀ (s' : Nat) (b' : UInt8), words.length ≤ s' → acCell s' b' ≠ acCell s b := by
    intro s' b' hs' heq
    have hlt := (List.getElem?_eq_some_iff.mp hs).1
    have := (acCell_inj heq).1
    omega
  refine
    { count := by simp [hcount]
      root := getElem?_concat_of h.root _
      nodup := ?_
      closed := ?_
      fits := hroom
      next_size := hsize.trans h.next_size
      out_size := h.out_size
      rout_size := h.rout_size
      goto := ?_
      blank := ?_
      out := ?_
      rout := ?_
      marked := fun v k hv => List.mem_append_left _ (h.marked v k hv) }
  · rw [List.nodup_append]
    refine ⟨h.nodup, by simp, ?_⟩
    intro v hv v' hv' heq
    rw [List.mem_singleton] at hv'
    exact hnew (hv' ▸ heq ▸ hv)
  · refine ⟨List.mem_append_left _ h.closed.nil, ?_⟩
    intro v a hv
    rcases List.mem_append.mp hv with hv | hv
    · exact List.mem_append_left _ (h.closed.init v a hv)
    · obtain ⟨rfl, -⟩ := List.append_inj' (List.mem_singleton.mp hv) rfl
      exact List.mem_append_left _ (List.mem_of_getElem? hs)
  · intro s' w' b' hs'
    show next.getD (acCell s' b') 0 = _
    rw [hnext, child_concat hnew]
    rcases getElem?_concat_cases hs' with hw' | ⟨rfl, rfl⟩
    · -- the cell that changes is that of the new transition
      have hcell : acCell s' b' = acCell s b ↔ w' = w ∧ b' = b := by
        constructor
        · intro heq
          obtain ⟨rfl, rfl⟩ := acCell_inj heq
          exact ⟨Option.some.inj (hw'.symm.trans hs), rfl⟩
        · rintro ⟨rfl, rfl⟩
          rw [← idxOf_of_getElem? h.nodup hs, idxOf_of_getElem? h.nodup hw']
      simp only [hcell, hcount, h.goto s' w' b' hw']
    · -- the new state has no transition
      have hlonger : ¬ (w ++ [b] = w ∧ b' = b) := by
        rintro ⟨heq, -⟩
        have := congrArg List.length heq
        simp at this
      rw [if_neg (hpast _ b' (Nat.le_refl _)), h.blank _ _ (Nat.le_refl _), if_neg hlonger]
      unfold child
      rw [if_neg fun hin => hnew (h.closed.init _ _ hin)]
  · intro s' b' hs'
    show next.getD (acCell s' b') 0 = 0
    rw [List.length_append, List.length_singleton] at hs'
    rw [hnext, if_neg (hpast s' b' (by omega))]
    exact h.blank s' b' (by omega)
  · intro s' k
    rw [h.out s' k]
    exact marked_concat_iff hnew (fun v k' hv => h.marked v k' (.inl hv)) s' k
  · intro s' k
    rw [h.rout s' k]
    exact marked_concat_iff hnew (fun v k' hv => h.marked v k' (.inr hv)) s' k

/-! ## §4. Following a signature. -/

/-- **Following a signature** from the state of `w` ends at the state of `w ++ sig`;
it adds a state per byte at most, and accepts nothing new. -/
theorem acWalk_holds {cap : Nat} (hcap : cap ≤ acMaxStates) {marks terms : Bytes → Nat → Prop} :
    ∀ (sig : Bytes) (t : Trie) (words : List Bytes) (s : Nat) (w : Bytes),
      t.Holds cap words marks terms → words[s]? = some w → t.nstates + sig.length ≤ cap →
      ∃ t' s' words', acWalk t s sig = .ok (t', s') ∧ t'.Holds cap words' marks terms
        ∧ words'[s']? = some (w ++ sig) ∧ t'.nstates ≤ t.nstates + sig.length := by
  intro sig
  induction sig with
  | nil =>
      intro t words s w h hs _
      exact ⟨t, s, words, rfl, h, by rwa [List.append_nil], Nat.le_refl _⟩
  | cons b sig ih =>
      intro t words s w h hs hroom
      rw [List.length_cons] at hroom
      have hcell : acCell s b < t.next.size := by
        rw [h.next_size]
        exact acCell_lt (h.lt_cap hs) b
      unfold acWalk
      rw [load_eq hcell 0, ok_bind, h.goto s w b hs]
      by_cases hin : w ++ [b] ∈ words
      · -- the transition is there
        have hne := (child_ne_zero_iff h.root).mpr hin
        have hchild : child words w b = words.idxOf (w ++ [b]) := if_pos hin
        rw [if_neg hne, pure_eq_ok, ok_bind]
        beta_reduce
        rw [load_eq hcell 0, ok_bind, h.goto s w b hs, hchild]
        obtain ⟨t', s', words', hwalk, hholds, hword, hle⟩ :=
          ih t words _ _ h (getElem?_idxOf_of_mem hin) (by omega)
        refine ⟨t', s', words', hwalk, hholds, ?_, by rw [List.length_cons]; omega⟩
        rwa [List.append_assoc] at hword
      · -- the transition is missing: one more state
        have hzero : child words w b = 0 := if_neg hin
        have hstate : acState t.nstates = t.nstates := by
          have hmax : acMaxStates < UInt16.size := by decide
          exact Nat.mod_eq_of_lt (by omega)
        obtain ⟨next, hstore, hsize, hnext⟩ := store_eq hcell (acState t.nstates) 0
        rw [hstate] at hnext
        rw [if_pos hzero, hstore, ok_bind, pure_eq_ok, ok_bind]
        beta_reduce
        have hgrow := h.grow hs hin (by omega) hsize hnext
        have hload : load next (acCell s b) = .ok t.nstates := by
          rw [load_eq (hsize ▸ hcell) 0, hnext, if_pos rfl]
        have hlast : (words ++ [w ++ [b]])[t.nstates]? = some (w ++ [b]) := by
          rw [← h.count]
          simp
        rw [hload, ok_bind]
        obtain ⟨t', s', words', hwalk, hholds, hword, hle⟩ :=
          ih _ _ t.nstates (w ++ [b]) hgrow hlast (by show t.nstates + 1 + _ ≤ _; omega)
        refine ⟨t', s', words', hwalk, hholds, ?_, ?_⟩
        · rwa [List.append_assoc] at hword
        · rw [List.length_cons]
          have : t'.nstates ≤ t.nstates + 1 + sig.length := hle
          omega

/-- Setting a bit at a state adds one mark. -/
theorem getLsbD_or_twoPow (m : Mask) {n : Nat} (hn : n < 64) (k : Nat) :
    (m ||| BitVec.twoPow 64 n).getLsbD k = true ↔ m.getLsbD k = true ∨ k = n := by
  rw [BitVec.getLsbD_or, BitVec.getLsbD_twoPow]
  simp only [Bool.or_eq_true, Bool.and_eq_true, decide_eq_true_eq]
  constructor
  · rintro (h | ⟨-, h⟩)
    · exact .inl h
    · exact .inr h.symm
  · rintro (h | rfl)
    · exact .inl h
    · exact .inr ⟨hn, rfl⟩

/-- What the masks say after one bit was set at the state of `w`. -/
theorem marked_iff_of_orInto {words : List Bytes} (hnd : words.Nodup) {s : Nat} {w : Bytes}
    (hs : words[s]? = some w) {old new : Array Mask} {n : Nat} (hn : n < 64)
    (hget : ∀ j, new.getD j 0 = if j = s then old.getD s 0 ||| BitVec.twoPow 64 n else old.getD j 0)
    {marks : Bytes → Nat → Prop}
    (hold : ∀ s k, (old.getD s 0).getLsbD k = true ↔ ∃ w, words[s]? = some w ∧ marks w k)
    (s' k : Nat) :
    (new.getD s' 0).getLsbD k = true
      ↔ ∃ v, words[s']? = some v ∧ (marks v k ∨ (v = w ∧ k = n)) := by
  rw [hget]
  by_cases hss : s' = s
  · subst hss
    rw [if_pos rfl, getLsbD_or_twoPow _ hn, hold]
    constructor
    · rintro (⟨v, hv, hk⟩ | rfl)
      · exact ⟨v, hv, .inl hk⟩
      · exact ⟨w, hs, .inr ⟨rfl, rfl⟩⟩
    · rintro ⟨v, hv, hk | ⟨-, hk⟩⟩
      · exact .inl ⟨v, hv, hk⟩
      · exact .inr hk
  · rw [if_neg hss, hold]
    constructor
    · rintro ⟨v, hv, hk⟩
      exact ⟨v, hv, .inl hk⟩
    · rintro ⟨v, hv, hk | ⟨rfl, -⟩⟩
      · exact ⟨v, hv, hk⟩
      · have := idxOf_of_getElem? hnd hv
        rw [idxOf_of_getElem? hnd hs] at this
        exact absurd this.symm hss

/-- Accepting category `n` at the state of `w`. -/
theorem Trie.Holds.mark {cap : Nat} {t : Trie} {words : List Bytes}
    {marks terms : Bytes → Nat → Prop} (h : t.Holds cap words marks terms) {s : Nat} {w : Bytes}
    (hs : words[s]? = some w) {n : Nat} (hn : n < 64) :
    ∃ out, orInto t.out s (BitVec.twoPow 64 n) = .ok out
      ∧ Trie.Holds cap { next := t.next, out := out, rout := t.rout, nstates := t.nstates } words
        (fun v k => marks v k ∨ (v = w ∧ k = n)) terms := by
  obtain ⟨out, hor, hsize, hget⟩ :=
    orInto_eq (show s < t.out.size by rw [h.out_size]; exact h.lt_cap hs) (BitVec.twoPow 64 n)
  refine ⟨out, hor, ⟨h.count, h.root, h.nodup, h.closed, h.fits, h.next_size,
    hsize.trans h.out_size, h.rout_size, h.goto, h.blank,
    marked_iff_of_orInto h.nodup hs hn hget h.out, h.rout, ?_⟩⟩
  rintro v k ((hv | ⟨rfl, -⟩) | hv)
  · exact h.marked v k (.inl hv)
  · exact List.mem_of_getElem? hs
  · exact h.marked v k (.inr hv)

/-- Accepting rule term `n` at the state of `w`. -/
theorem Trie.Holds.markTerm {cap : Nat} {t : Trie} {words : List Bytes}
    {marks terms : Bytes → Nat → Prop} (h : t.Holds cap words marks terms) {s : Nat} {w : Bytes}
    (hs : words[s]? = some w) {n : Nat} (hn : n < 64) :
    ∃ rout, orInto t.rout s (BitVec.twoPow 64 n) = .ok rout
      ∧ Trie.Holds cap { next := t.next, out := t.out, rout := rout, nstates := t.nstates } words
        marks (fun v k => terms v k ∨ (v = w ∧ k = n)) := by
  obtain ⟨rout, hor, hsize, hget⟩ :=
    orInto_eq (show s < t.rout.size by rw [h.rout_size]; exact h.lt_cap hs) (BitVec.twoPow 64 n)
  refine ⟨rout, hor, ⟨h.count, h.root, h.nodup, h.closed, h.fits, h.next_size, h.out_size,
    hsize.trans h.rout_size, h.goto, h.blank, h.out,
    marked_iff_of_orInto h.nodup hs hn hget h.rout, ?_⟩⟩
  rintro v k (hv | (hv | ⟨rfl, -⟩))
  · exact h.marked v k (.inl hv)
  · exact h.marked v k (.inr hv)
  · exact List.mem_of_getElem? hs

/-! ## §5. Pass 1 as a whole. -/

theorem Trie.Holds.congr {cap : Nat} {t : Trie} {words : List Bytes}
    {marks marks' terms terms' : Bytes → Nat → Prop} (h : t.Holds cap words marks terms)
    (hm : ∀ v k, marks v k ↔ marks' v k) (ht : ∀ v k, terms v k ↔ terms' v k) :
    t.Holds cap words marks' terms' := by
  obtain rfl : marks = marks' := by
    funext v k
    exact propext (hm v k)
  obtain rfl : terms = terms' := by
    funext v k
    exact propext (ht v k)
  exact h

theorem acAddSigs_holds {cap : Nat} (hcap : cap ≤ acMaxStates) {cat : Nat} (hcat : cat < 64)
    {terms : Bytes → Nat → Prop} :
    ∀ (sigs : List Bytes) (t : Trie) (words : List Bytes) (marks : Bytes → Nat → Prop),
      t.Holds cap words marks terms → t.nstates + sigsLength sigs ≤ cap →
      ∃ t' words', acAddSigs cat t sigs = .ok t'
        ∧ t'.Holds cap words' (fun v k => marks v k ∨ (v ∈ sigs ∧ k = cat)) terms
        ∧ t'.nstates ≤ t.nstates + sigsLength sigs := by
  intro sigs
  induction sigs with
  | nil =>
      intro t words marks h _
      exact ⟨t, words, rfl, h.congr (by simp) (by simp), Nat.le_add_right _ _⟩
  | cons sig sigs ih =>
      intro t words marks h hroom
      have hlen : sigsLength (sig :: sigs) = sig.length + sigsLength sigs := rfl
      rw [hlen] at hroom ⊢
      obtain ⟨t₁, s, words₁, hwalk, h₁, hs, hle₁⟩ :=
        acWalk_holds hcap sig t words 0 [] h h.root (by omega)
      obtain ⟨out, hor, hmark⟩ := h₁.mark hs hcat
      obtain ⟨t', words', hrest, h', hle'⟩ :=
        ih _ words₁ _ hmark (by show t₁.nstates + _ ≤ _; omega)
      refine ⟨t', words', ?_, h'.congr ?_ (fun v k => Iff.rfl), ?_⟩
      · unfold acAddSigs maskBit
        simp only [hwalk, ok_bind, if_pos hcat, hor, hrest]
      · intro v k
        rw [List.nil_append, List.mem_cons]
        tauto
      · have : t'.nstates ≤ t₁.nstates + sigsLength sigs := hle'
        omega

/-- The categories of the automaton that a word is a signature of. -/
def Marks (flavour : Nat) (cats : List CatDef) (v : Bytes) (k : Nat) : Prop :=
  ∃ c ∈ cats, c.isIn flavour = true ∧ c.cat = k ∧ v ∈ c.sigs

/-- The states some category rows may add. -/
def catsLength (flavour : Nat) (cats : List CatDef) : Nat :=
  ((cats.filter (fun c => c.isIn flavour)).map (fun c => sigsLength c.sigs)).sum

/-- **Pass 1** stores the signatures of the flavour. -/
theorem acAddCategories_holds {cap flavour : Nat} (hcap : cap ≤ acMaxStates)
    {terms : Bytes → Nat → Prop} :
    ∀ (cats : List CatDef) (t : Trie) (words : List Bytes) (marks : Bytes → Nat → Prop),
      (∀ c ∈ cats, c.cat < 64) → t.Holds cap words marks terms →
      t.nstates + catsLength flavour cats ≤ cap →
      ∃ t' words', acAddCategories flavour t cats = .ok t'
        ∧ t'.Holds cap words' (fun v k => marks v k ∨ Marks flavour cats v k) terms
        ∧ t'.nstates ≤ t.nstates + catsLength flavour cats := by
  intro cats
  induction cats with
  | nil =>
      intro t words marks _ h _
      exact ⟨t, words, rfl, h.congr (by simp [Marks]) (by simp), Nat.le_add_right _ _⟩
  | cons c cats ih =>
      intro t words marks hids h hroom
      unfold acAddCategories
      -- A row of the other flavour is passed over, and takes no room.
      by_cases hin : c.isIn flavour = true
      · have hlen : catsLength flavour (c :: cats) = sigsLength c.sigs + catsLength flavour cats := by
          unfold catsLength
          rw [List.filter_cons_of_pos (p := fun c : CatDef => c.isIn flavour) hin, List.map_cons,
            List.sum_cons]
        rw [hlen] at hroom ⊢
        rw [if_pos hin]
        obtain ⟨t₁, words₁, hsigs, h₁, hle₁⟩ :=
          acAddSigs_holds hcap (hids c (by simp)) c.sigs t words marks h (by omega)
        obtain ⟨t', words', hrest, h', hle'⟩ :=
          ih t₁ words₁ _ (fun d hd => hids d (List.mem_cons_of_mem _ hd)) h₁ (by omega)
        refine ⟨t', words', ?_, h'.congr ?_ (fun v k => Iff.rfl), by omega⟩
        · rw [hsigs, ok_bind, hrest]
        · intro v k
          have hcons : Marks flavour (c :: cats) v k
              ↔ (v ∈ c.sigs ∧ k = c.cat) ∨ Marks flavour cats v k := by
            simp only [Marks, List.mem_cons, exists_eq_or_imp, hin, true_and]
            tauto
          rw [hcons]
          tauto
      · have hlen : catsLength flavour (c :: cats) = catsLength flavour cats := by
          unfold catsLength
          rw [List.filter_cons_of_neg (p := fun c : CatDef => c.isIn flavour) hin]
        rw [hlen] at hroom ⊢
        rw [if_neg hin]
        obtain ⟨t', words', hrest, h', hle'⟩ :=
          ih t words marks (fun d hd => hids d (List.mem_cons_of_mem _ hd)) h hroom
        refine ⟨t', words', hrest, h'.congr ?_ (fun v k => Iff.rfl), hle'⟩
        intro v k
        simp only [Marks, List.mem_cons, exists_eq_or_imp, hin]
        tauto

/-! ## §6. The terms of the rules. -/

/-- Rule term number `k` is the word `v`, the terms of the rules of the automaton
being numbered from `term` on, across all rules. -/
def TermAt (flavour : Nat) : Nat → List RuleDef → Bytes → Nat → Prop
  | _, [], _, _ => False
  | term, r :: rules, v, k =>
      (r.isIn flavour = true ∧ ∃ j, r.terms[j]? = some v ∧ k = term + j)
        ∨ TermAt flavour (term + r.terms.length) rules v k

/-- Each rule needs its own terms, if it is in the automaton, and else none. -/
def NeedsOf (flavour : Nat) : Nat → List RuleDef → List Mask → Prop
  | _, [], needs => needs = []
  | term, r :: rules, needs => ∃ need rest, needs = need :: rest
      ∧ (∀ k, need.getLsbD k = true
          ↔ r.isIn flavour = true ∧ term ≤ k ∧ k < term + r.terms.length)
      ∧ NeedsOf flavour (term + r.terms.length) rules rest

/-- A rule of the other flavour adds nothing. -/
theorem acAddTerms_out (t : Trie) (need : Mask) (sigs : List Bytes) :
    ∀ term, acAddTerms false t term need sigs = .ok (t, need) := by
  induction sigs with
  | nil =>
      intro term
      rfl
  | cons sig sigs ih =>
      intro term
      unfold acAddTerms
      rw [if_neg Bool.false_ne_true]
      exact ih (term + 1)

theorem acAddTerms_holds {cap : Nat} (hcap : cap ≤ acMaxStates) {marks : Bytes → Nat → Prop} :
    ∀ (sigs : List Bytes) (t : Trie) (words : List Bytes) (terms : Bytes → Nat → Prop)
      (term : Nat) (need : Mask),
      t.Holds cap words marks terms → t.nstates + sigsLength sigs ≤ cap →
      term + sigs.length ≤ 64 →
      ∃ t' words' need', acAddTerms true t term need sigs = .ok (t', need')
        ∧ t'.Holds cap words' marks
            (fun v k => terms v k ∨ ∃ j, sigs[j]? = some v ∧ k = term + j)
        ∧ t'.nstates ≤ t.nstates + sigsLength sigs
        ∧ ∀ k, need'.getLsbD k = true
            ↔ need.getLsbD k = true ∨ (term ≤ k ∧ k < term + sigs.length) := by
  intro sigs
  induction sigs with
  | nil =>
      intro t words terms term need h _ _
      refine ⟨t, words, need, rfl, h.congr (by simp) (by simp), Nat.le_add_right _ _, ?_⟩
      intro k
      rw [List.length_nil]
      constructor
      · exact .inl
      · rintro (hk | hk)
        · exact hk
        · omega
  | cons sig sigs ih =>
      intro t words terms term need h hroom hmax
      have hlen : sigsLength (sig :: sigs) = sig.length + sigsLength sigs := rfl
      rw [List.length_cons] at hmax ⊢
      rw [hlen] at hroom ⊢
      have hterm : term < 64 := by omega
      obtain ⟨t₁, s, words₁, hwalk, h₁, hs, hle₁⟩ :=
        acWalk_holds hcap sig t words 0 [] h h.root (by omega)
      obtain ⟨rout, hor, hmark⟩ := h₁.markTerm hs hterm
      obtain ⟨t', words', need', hrest, h', hle', hneed⟩ :=
        ih _ words₁ _ (term + 1) (need ||| BitVec.twoPow 64 term) hmark
          (by show t₁.nstates + _ ≤ _; omega) (by omega)
      refine ⟨t', words', need', ?_, h'.congr (fun v k => Iff.rfl) ?_, ?_, ?_⟩
      · unfold acAddTerms maskBit
        rw [if_pos rfl, if_pos hterm]
        simp only [ok_bind, hwalk, hor, hrest]
      · intro v k
        rw [List.nil_append, or_assoc]
        refine or_congr Iff.rfl ?_
        -- the first term is at place 0, the others one place on
        constructor
        · rintro (⟨rfl, rfl⟩ | ⟨j, hj, rfl⟩)
          · exact ⟨0, rfl, rfl⟩
          · exact ⟨j + 1, hj, by omega⟩
        · rintro ⟨j, hj, rfl⟩
          cases j with
          | zero => exact .inl ⟨(Option.some.inj hj).symm, rfl⟩
          | succ j => exact .inr ⟨j, hj, by omega⟩
      · have : t'.nstates ≤ t₁.nstates + sigsLength sigs := hle'
        omega
      · intro k
        rw [hneed, getLsbD_or_twoPow need hterm, or_assoc]
        refine or_congr Iff.rfl ?_
        omega

/-- The states some rules may add. -/
def rulesLength (flavour : Nat) (rules : List RuleDef) : Nat :=
  ((rules.filter (fun r => r.isIn flavour)).map (fun r => sigsLength r.terms)).sum

/-- **Pass 1b** stores the terms of the rules of the flavour. -/
theorem acAddRules_holds {cap flavour : Nat} (hcap : cap ≤ acMaxStates)
    {marks : Bytes → Nat → Prop} :
    ∀ (rules : List RuleDef) (t : Trie) (words : List Bytes) (terms : Bytes → Nat → Prop)
      (term : Nat),
      t.Holds cap words marks terms → t.nstates + rulesLength flavour rules ≤ cap →
      term + (rules.map (fun r => r.terms.length)).sum ≤ 64 →
      ∃ t' words' needs, acAddRules flavour t term rules = .ok (t', needs)
        ∧ t'.Holds cap words' marks (fun v k => terms v k ∨ TermAt flavour term rules v k)
        ∧ t'.nstates ≤ t.nstates + rulesLength flavour rules
        ∧ NeedsOf flavour term rules needs := by
  intro rules
  induction rules with
  | nil =>
      intro t words terms term h _ _
      exact ⟨t, words, [], rfl, h.congr (by simp) (by simp [TermAt]), Nat.le_add_right _ _, rfl⟩
  | cons r rules ih =>
      intro t words terms term h hroom hmax
      rw [List.map_cons, List.sum_cons] at hmax
      unfold acAddRules
      -- A rule of the other flavour adds no term, but its terms keep their numbers.
      by_cases hin : r.isIn flavour = true
      · have hlen : rulesLength flavour (r :: rules)
            = sigsLength r.terms + rulesLength flavour rules := by
          unfold rulesLength
          rw [List.filter_cons_of_pos (p := fun r : RuleDef => r.isIn flavour) hin, List.map_cons,
            List.sum_cons]
        rw [hlen] at hroom ⊢
        obtain ⟨t₁, words₁, need, hterms, h₁, hle₁, hneed⟩ :=
          acAddTerms_holds hcap r.terms t words terms term 0 h (by omega) (by omega)
        obtain ⟨t', words', needs, hrest, h', hle', hneeds⟩ :=
          ih t₁ words₁ _ (term + r.terms.length) h₁ (by omega) (by omega)
        refine ⟨t', words', need :: needs, ?_, h'.congr (fun v k => Iff.rfl) ?_, by omega,
          need, needs, rfl, ?_, hneeds⟩
        · rw [hin]
          simp only [hterms, ok_bind, hrest, pure_eq_ok]
        · intro v k
          simp only [TermAt, hin, true_and, or_assoc]
        · intro k
          rw [hneed]
          simp [hin]
      · have hlen : rulesLength flavour (r :: rules) = rulesLength flavour rules := by
          unfold rulesLength
          rw [List.filter_cons_of_neg (p := fun r : RuleDef => r.isIn flavour) hin]
        rw [hlen] at hroom ⊢
        have hout : r.isIn flavour = false := by simpa using hin
        obtain ⟨t', words', needs, hrest, h', hle', hneeds⟩ :=
          ih t words terms (term + r.terms.length) h hroom (by omega)
        refine ⟨t', words', 0 :: needs, ?_, h'.congr (fun v k => Iff.rfl) ?_, hle',
          0, needs, rfl, ?_, hneeds⟩
        · rw [hout, acAddTerms_out]
          simp only [ok_bind, hrest, pure_eq_ok]
        · intro v k
          simp only [TermAt, hout, Bool.false_eq_true, false_and, false_or]
        · intro k
          simp [hout]

end HttpShield
