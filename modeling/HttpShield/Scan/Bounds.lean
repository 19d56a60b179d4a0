/-
  HttpShield.Scan.Bounds
  ──────────────────────
  The builder and the scan stay inside their arrays, whatever the tables: empty
  signatures and terms, categories that share a bit and rules without a row
  included.

  The functions of the model read, write and shift under a check, so most of it
  is the statement that they return `.ok`.  Two things a result does not show:

    • that storing a state number loses nothing: the builder is written once
      more over a type of state numbers that is a parameter, and over `uint16_t`
      and over the naturals it computes the same (`acConstructAs_agree`),
    • that the search comes to each state once: the copy hands out its queue.

  What the search does to `next`, `fail` and the queue does not depend on the
  masks (`acDrain_alike`), so the invariant of the fail links is used on the trie
  without its masks, where it holds for empty signatures, too.
-/
import HttpShield.Scan.Search

namespace HttpShield

/-! ## §1. The builder over a type of state numbers. -/

/-- `acWalk`, where storing the state number `n` leaves `st n`. -/
def acWalkAs (st : Nat → Nat) : Trie → Nat → Bytes → Except Fault (Trie × Nat)
  | t, s, [] => .ok (t, s)
  | t, s, b :: sig => do
      let v ← load t.next (acCell s b)
      let t ← if v = 0 then do
          let next ← store t.next (acCell s b) (st t.nstates)
          pure { t with next := next, nstates := t.nstates + 1 }
        else pure t
      let s ← load t.next (acCell s b)
      acWalkAs st t s sig

/-- `acAddSigs` over such a type. -/
def acAddSigsAs (st : Nat → Nat) (cat : Nat) : Trie → List Bytes → Except Fault Trie
  | t, [] => .ok t
  | t, sig :: sigs => do
      let (t, s) ← acWalkAs st t 0 sig
      let bit ← maskBit cat
      let out ← orInto t.out s bit
      acAddSigsAs st cat { t with out := out } sigs

/-- `acAddCategories` over such a type. -/
def acAddCategoriesAs (st : Nat → Nat) (flavour : Nat) : Trie → List CatDef → Except Fault Trie
  | t, [] => .ok t
  | t, c :: cats =>
      if c.isIn flavour then do
        let t ← acAddSigsAs st c.cat t c.sigs
        acAddCategoriesAs st flavour t cats
      else acAddCategoriesAs st flavour t cats

/-- `acAddTerms` over such a type. -/
def acAddTermsAs (st : Nat → Nat) (isIn : Bool) :
    Trie → Nat → Mask → List Bytes → Except Fault (Trie × Mask)
  | t, _, need, [] => .ok (t, need)
  | t, term, need, sig :: sigs =>
      if isIn then do
        let bit ← maskBit term
        let (t, s) ← acWalkAs st t 0 sig
        let rout ← orInto t.rout s bit
        acAddTermsAs st isIn { t with rout := rout } (term + 1) (need ||| bit) sigs
      else acAddTermsAs st isIn t (term + 1) need sigs

/-- `acAddRules` over such a type. -/
def acAddRulesAs (st : Nat → Nat) (flavour : Nat) :
    Trie → Nat → List RuleDef → Except Fault (Trie × List Mask)
  | t, _, [] => .ok (t, [])
  | t, term, r :: rules => do
      let (t, need) ← acAddTermsAs st (r.isIn flavour) t term 0 r.terms
      let (t, needs) ← acAddRulesAs st flavour t (term + r.terms.length) rules
      return (t, need :: needs)

/-- The trie of the root alone, in tables for `cap` states. -/
def Trie.root (cap : Nat) : Trie where
  next := Array.replicate (cap * acAlphabet) 0
  out := Array.replicate cap 0
  rout := Array.replicate cap 0
  nstates := 1

/-- Pass 2: the root's children are queued, and the queue is worked off. -/
def acSearch (cap : Nat) (t : Trie) : Except Fault Bfs := do
  let queue ← acSeed cap t.next acBytes #[]
  acDrain cap cap 0 (t.seeded cap queue)

/-- `acConstruct` over such a type: the automaton, and the queue of the search. -/
def acConstructAs (st : Nat → Nat) (T : Tables) (flavour : Nat) :
    Except Fault (Ac × Array Nat) := do
  let row ← acRows flavour 0 (Array.replicate 64 T.ncategories) T.categories
  let row ← acRuleRows T flavour row T.rules
  let t ← acAddCategoriesAs st flavour (Trie.root (T.cap flavour)) T.categories
  let (t, need) ← acAddRulesAs st flavour t 0 T.rules
  let g ← acSearch (T.cap flavour) t
  return ({ next := g.next, out := g.out, nstates := t.nstates, rout := g.rout, need := need,
            row := row }, g.queue)

theorem acWalkAs_acState : acWalkAs acState = acWalk := by
  funext t s sig
  induction sig generalizing t s with
  | nil => rfl
  | cons b sig ih => simp only [acWalkAs, acWalk, ih]

theorem acAddSigsAs_acState : acAddSigsAs acState = acAddSigs := by
  funext cat t sigs
  induction sigs generalizing t with
  | nil => rfl
  | cons sig sigs ih => simp only [acAddSigsAs, acAddSigs, acWalkAs_acState, ih]

theorem acAddCategoriesAs_acState : acAddCategoriesAs acState = acAddCategories := by
  funext flavour t cats
  induction cats generalizing t with
  | nil => rfl
  | cons c cats ih => simp only [acAddCategoriesAs, acAddCategories, acAddSigsAs_acState, ih]

theorem acAddTermsAs_acState : acAddTermsAs acState = acAddTerms := by
  funext isIn t term need sigs
  induction sigs generalizing t term need with
  | nil => rfl
  | cons sig sigs ih => simp only [acAddTermsAs, acAddTerms, acWalkAs_acState, ih]

theorem acAddRulesAs_acState : acAddRulesAs acState = acAddRules := by
  funext flavour t term rules
  induction rules generalizing t term with
  | nil => rfl
  | cons r rules ih => simp only [acAddRulesAs, acAddRules, acAddTermsAs_acState, ih]

/-- **The builder is the copy over `ngx_http_shield_ac_state_t`.** -/
theorem acConstruct_eq_as (T : Tables) (flavour : Nat) :
    acConstruct T flavour = Prod.fst <$> acConstructAs acState T flavour := by
  unfold acConstruct acConstructAs acSearch
  rw [acAddCategoriesAs_acState, acAddRulesAs_acState]
  simp only [map_bind, bind_assoc, map_pure]
  rfl

/-! ## §2. No state number is truncated.

The arrays hold state numbers of a fixed width.  A builder over wider numbers does the
same, as there are never more states than the width can count. -/

section Agree

variable {st st' : Nat → Nat} {bound : Nat} (hagree : ∀ n, n < bound → st n = st' n)
include hagree

/-- **Types that agree on the numbers given out are as good as each other**: following
a signature counts states up, so every number stored is below the final count. -/
theorem acWalkAs_agree :
    ∀ (sig : Bytes) (t t' : Trie) (s s' : Nat), acWalkAs st t s sig = .ok (t', s') →
      t.nstates ≤ t'.nstates ∧ (t'.nstates ≤ bound → acWalkAs st' t s sig = .ok (t', s')) := by
  intro sig
  induction sig with
  | nil =>
      intro t t' s s' h
      cases h
      exact ⟨Nat.le_refl _, fun _ => rfl⟩
  | cons b sig ih =>
      intro t t' s s' h
      unfold acWalkAs at h
      obtain ⟨v, hv, h⟩ := bind_eq_ok h
      by_cases hzero : v = 0
      · -- a state is added
        rw [if_pos hzero] at h
        obtain ⟨next, hstore, h⟩ := bind_eq_ok h
        obtain ⟨t₁, ht₁, h⟩ := bind_eq_ok h
        obtain ⟨s₁, hs₁, h⟩ := bind_eq_ok h
        cases ht₁
        obtain ⟨hmono, hrest⟩ := ih _ t' s₁ s' h
        have hmono' : t.nstates + 1 ≤ t'.nstates := hmono
        refine ⟨by omega, ?_⟩
        intro hle
        have hsame : st t.nstates = st' t.nstates := hagree t.nstates (by omega)
        unfold acWalkAs
        rw [hv, ok_bind, if_pos hzero, ← hsame, hstore, ok_bind, pure_eq_ok, ok_bind]
        beta_reduce
        rw [hs₁, ok_bind]
        exact hrest hle
      · rw [if_neg hzero] at h
        obtain ⟨t₁, ht₁, h⟩ := bind_eq_ok h
        obtain ⟨s₁, hs₁, h⟩ := bind_eq_ok h
        cases ht₁
        obtain ⟨hmono, hrest⟩ := ih t t' s₁ s' h
        refine ⟨hmono, ?_⟩
        intro hle
        unfold acWalkAs
        rw [hv, ok_bind, if_neg hzero, pure_eq_ok, ok_bind]
        beta_reduce
        rw [hs₁, ok_bind]
        exact hrest hle

theorem acAddSigsAs_agree (cat : Nat) :
    ∀ (sigs : List Bytes) (t t' : Trie), acAddSigsAs st cat t sigs = .ok t' →
      t.nstates ≤ t'.nstates ∧ (t'.nstates ≤ bound → acAddSigsAs st' cat t sigs = .ok t') := by
  intro sigs
  induction sigs with
  | nil =>
      intro t t' h
      cases h
      exact ⟨Nat.le_refl _, fun _ => rfl⟩
  | cons sig sigs ih =>
      intro t t' h
      unfold acAddSigsAs at h
      obtain ⟨⟨t₁, s⟩, hwalk, h⟩ := bind_eq_ok h
      obtain ⟨bit, hbit, h⟩ := bind_eq_ok h
      obtain ⟨out, hout, h⟩ := bind_eq_ok h
      obtain ⟨hmono₁, hwalk'⟩ := acWalkAs_agree hagree sig t t₁ 0 s hwalk
      obtain ⟨hmono, hrest⟩ := ih _ t' h
      have hmono' : t₁.nstates ≤ t'.nstates := hmono
      refine ⟨by omega, ?_⟩
      intro hle
      unfold acAddSigsAs
      rw [hwalk' (by omega), ok_bind]
      dsimp only
      rw [hbit, ok_bind, hout, ok_bind]
      exact hrest hle

theorem acAddCategoriesAs_agree (flavour : Nat) :
    ∀ (cats : List CatDef) (t t' : Trie), acAddCategoriesAs st flavour t cats = .ok t' →
      t.nstates ≤ t'.nstates
        ∧ (t'.nstates ≤ bound → acAddCategoriesAs st' flavour t cats = .ok t') := by
  intro cats
  induction cats with
  | nil =>
      intro t t' h
      cases h
      exact ⟨Nat.le_refl _, fun _ => rfl⟩
  | cons c cats ih =>
      intro t t' h
      unfold acAddCategoriesAs at h ⊢
      by_cases hin : c.isIn flavour = true
      · rw [if_pos hin] at h ⊢
        obtain ⟨t₁, hsigs, h⟩ := bind_eq_ok h
        obtain ⟨hmono₁, hsigs'⟩ := acAddSigsAs_agree hagree c.cat c.sigs t t₁ hsigs
        obtain ⟨hmono, hrest⟩ := ih t₁ t' h
        refine ⟨by omega, ?_⟩
        intro hle
        rw [hsigs' (by omega), ok_bind]
        exact hrest hle
      · rw [if_neg hin] at h ⊢
        exact ih t t' h

theorem acAddTermsAs_agree (isIn : Bool) :
    ∀ (sigs : List Bytes) (t t' : Trie) (term : Nat) (need need' : Mask),
      acAddTermsAs st isIn t term need sigs = .ok (t', need') →
      t.nstates ≤ t'.nstates
        ∧ (t'.nstates ≤ bound → acAddTermsAs st' isIn t term need sigs = .ok (t', need')) := by
  intro sigs
  induction sigs with
  | nil =>
      intro t t' term need need' h
      cases h
      exact ⟨Nat.le_refl _, fun _ => rfl⟩
  | cons sig sigs ih =>
      intro t t' term need need' h
      unfold acAddTermsAs at h ⊢
      by_cases hin : isIn = true
      · rw [if_pos hin] at h ⊢
        obtain ⟨bit, hbit, h⟩ := bind_eq_ok h
        obtain ⟨⟨t₁, s⟩, hwalk, h⟩ := bind_eq_ok h
        obtain ⟨rout, hrout, h⟩ := bind_eq_ok h
        obtain ⟨hmono₁, hwalk'⟩ := acWalkAs_agree hagree sig t t₁ 0 s hwalk
        obtain ⟨hmono, hrest⟩ := ih _ t' _ _ _ h
        have hmono' : t₁.nstates ≤ t'.nstates := hmono
        refine ⟨by omega, ?_⟩
        intro hle
        rw [hbit, ok_bind, hwalk' (by omega), ok_bind]
        dsimp only
        rw [hrout, ok_bind]
        exact hrest hle
      · rw [if_neg hin] at h ⊢
        exact ih t t' _ _ _ h

theorem acAddRulesAs_agree (flavour : Nat) :
    ∀ (rules : List RuleDef) (t t' : Trie) (term : Nat) (needs : List Mask),
      acAddRulesAs st flavour t term rules = .ok (t', needs) →
      t.nstates ≤ t'.nstates
        ∧ (t'.nstates ≤ bound → acAddRulesAs st' flavour t term rules = .ok (t', needs)) := by
  intro rules
  induction rules with
  | nil =>
      intro t t' term needs h
      cases h
      exact ⟨Nat.le_refl _, fun _ => rfl⟩
  | cons r rules ih =>
      intro t t' term needs h
      unfold acAddRulesAs at h
      obtain ⟨⟨t₁, need⟩, hterms, h⟩ := bind_eq_ok h
      obtain ⟨⟨t₂, rest⟩, hrules, h⟩ := bind_eq_ok h
      cases h
      obtain ⟨hmono₁, hterms'⟩ := acAddTermsAs_agree hagree _ r.terms t t₁ term 0 need hterms
      obtain ⟨hmono, hrest⟩ := ih t₁ t' _ rest hrules
      refine ⟨by omega, ?_⟩
      intro hle
      unfold acAddRulesAs
      rw [hterms' (by omega), ok_bind]
      dsimp only
      rw [hrest hle, ok_bind]
      rfl

/-- **Over either type the same automaton is built**, in the same order of states. -/
theorem acConstructAs_agree {T : Tables} {flavour : Nat} {ac : Ac} {queue : Array Nat}
    (h : acConstructAs st T flavour = .ok (ac, queue)) (hle : ac.nstates ≤ bound) :
    acConstructAs st' T flavour = .ok (ac, queue) := by
  unfold acConstructAs at h ⊢
  obtain ⟨row₁, hrow₁, h⟩ := bind_eq_ok h
  obtain ⟨row, hrow, h⟩ := bind_eq_ok h
  obtain ⟨t₁, hcats, h⟩ := bind_eq_ok h
  obtain ⟨⟨t, need⟩, hrules, h⟩ := bind_eq_ok h
  obtain ⟨g, hsearch, h⟩ := bind_eq_ok h
  cases h
  have hle' : t.nstates ≤ bound := hle
  obtain ⟨-, hcats'⟩ := acAddCategoriesAs_agree hagree flavour T.categories _ t₁ hcats
  obtain ⟨hmono, hrules'⟩ := acAddRulesAs_agree hagree flavour T.rules t₁ t 0 need hrules
  rw [hrow₁, ok_bind, hrow, ok_bind, hcats' (by omega), ok_bind, hrules' hle', ok_bind]
  dsimp only
  rw [hsearch, ok_bind]
  rfl

end Agree

/-! ## §3. The masks play no part in the search. -/

theorem lt_of_load {α : Type} {a : Array α} {i : Nat} {v : α} (h : load a i = .ok v) :
    i < a.size := by
  by_contra hge
  unfold load at h
  rw [Array.getElem?_eq_none (not_lt.mp hge)] at h
  cases h

theorem lt_of_store {α : Type} {a a' : Array α} {i : Nat} {v : α} (h : store a i v = .ok a') :
    i < a.size ∧ a'.size = a.size := by
  by_cases hlt : i < a.size
  · obtain ⟨a₁, hstore, hsize, -⟩ := store_eq hlt v v
    rw [hstore] at h
    cases h
    exact ⟨hlt, hsize⟩
  · unfold store at h
    rw [dif_neg hlt] at h
    cases h

theorem lt_of_orInto {a a' : Array Mask} {i : Nat} {m : Mask} (h : orInto a i m = .ok a') :
    i < a.size ∧ a'.size = a.size := by
  obtain ⟨v, -, hstore⟩ := bind_eq_ok h
  exact lt_of_store hstore

/-- Two searches that differ in nothing but what their masks hold. -/
structure Bfs.Alike (g g' : Bfs) : Prop where
  next : g'.next = g.next
  fail : g'.fail = g.fail
  queue : g'.queue = g.queue
  out_size : g'.out.size = g.out.size
  rout_size : g'.rout.size = g.rout.size

theorem acLink_alike {cap s : Nat} {b : UInt8} {g g' g₁ : Bfs} (h : g.Alike g')
    (hlink : acLink cap s b g = .ok g₁) : ∃ g₁', acLink cap s b g' = .ok g₁' ∧ g₁.Alike g₁' := by
  unfold acLink at hlink ⊢
  rw [h.next, h.fail]
  obtain ⟨v, hv, hlink⟩ := bind_eq_ok hlink
  obtain ⟨fs, hfs, hlink⟩ := bind_eq_ok hlink
  obtain ⟨f, hf, hlink⟩ := bind_eq_ok hlink
  rw [hv, ok_bind, hfs, ok_bind, hf, ok_bind]
  by_cases hzero : v = 0
  · rw [if_pos hzero] at hlink ⊢
    obtain ⟨next, hnext, hlink⟩ := bind_eq_ok hlink
    cases hlink
    rw [hnext, ok_bind]
    exact ⟨_, rfl, rfl, rfl, h.queue, h.out_size, h.rout_size⟩
  · rw [if_neg hzero] at hlink ⊢
    obtain ⟨fail, hfail, hlink⟩ := bind_eq_ok hlink
    obtain ⟨fout, hfout, hlink⟩ := bind_eq_ok hlink
    obtain ⟨out, hout, hlink⟩ := bind_eq_ok hlink
    obtain ⟨frout, hfrout, hlink⟩ := bind_eq_ok hlink
    obtain ⟨rout, hrout, hlink⟩ := bind_eq_ok hlink
    obtain ⟨queue, hqueue, hlink⟩ := bind_eq_ok hlink
    cases hlink
    -- the masks of the other search are read and written at the same places
    obtain ⟨hvout, hosize⟩ := lt_of_orInto hout
    obtain ⟨hvrout, hrsize⟩ := lt_of_orInto hrout
    have hload := load_eq (h.out_size ▸ lt_of_load hfout : f < g'.out.size) 0
    have hloadr := load_eq (h.rout_size ▸ lt_of_load hfrout : f < g'.rout.size) 0
    obtain ⟨out', hout', hosize', -⟩ :=
      orInto_eq (h.out_size ▸ hvout : v < g'.out.size) (g'.out.getD f 0)
    obtain ⟨rout', hrout', hrsize', -⟩ :=
      orInto_eq (h.rout_size ▸ hvrout : v < g'.rout.size) (g'.rout.getD f 0)
    rw [hfail, ok_bind, hload, ok_bind, hout', ok_bind, hloadr, ok_bind, hrout', ok_bind, h.queue,
      hqueue, ok_bind]
    refine ⟨_, rfl, rfl, rfl, rfl, ?_, ?_⟩
    · show out'.size = out.size
      rw [hosize', hosize, h.out_size]
    · show rout'.size = rout.size
      rw [hrsize', hrsize, h.rout_size]

theorem acLinks_alike {cap s : Nat} :
    ∀ (bytes : List UInt8) (g g' g₁ : Bfs), g.Alike g' → acLinks cap s bytes g = .ok g₁ →
      ∃ g₁', acLinks cap s bytes g' = .ok g₁' ∧ g₁.Alike g₁' := by
  intro bytes
  induction bytes with
  | nil =>
      intro g g' g₁ h hlinks
      cases hlinks
      exact ⟨g', rfl, h⟩
  | cons b bytes ih =>
      intro g g' g₁ h hlinks
      unfold acLinks at hlinks ⊢
      obtain ⟨g₂, hlink, hlinks⟩ := bind_eq_ok hlinks
      obtain ⟨g₂', hlink', h₂⟩ := acLink_alike h hlink
      rw [hlink', ok_bind]
      exact ih g₂ g₂' g₁ h₂ hlinks

/-- **A search goes as it would with other masks.** -/
theorem acDrain_alike {cap : Nat} :
    ∀ (fuel head : Nat) (g g' g₁ : Bfs), g.Alike g' → acDrain cap fuel head g = .ok g₁ →
      ∃ g₁', acDrain cap fuel head g' = .ok g₁' ∧ g₁.Alike g₁' := by
  intro fuel
  induction fuel with
  | zero =>
      intro head g g' g₁ _ hdrain
      cases hdrain
  | succ fuel ih =>
      intro head g g' g₁ h hdrain
      unfold acDrain at hdrain ⊢
      rw [h.queue]
      by_cases hlt : head < g.queue.size
      · rw [if_pos hlt] at hdrain ⊢
        obtain ⟨s, hs, hdrain⟩ := bind_eq_ok hdrain
        obtain ⟨g₂, hlinks, hdrain⟩ := bind_eq_ok hdrain
        obtain ⟨g₂', hlinks', h₂⟩ := acLinks_alike acBytes g g' g₂ h hlinks
        rw [hs, ok_bind, hlinks', ok_bind]
        exact ih (head + 1) g₂ g₂' g₁ h₂ hdrain
      · rw [if_neg hlt] at hdrain ⊢
        cases hdrain
        exact ⟨g', rfl, h⟩

/-! ## §4. The search stays in its arrays. -/

/-- The trie without its masks. -/
def Trie.unmarked (t : Trie) (cap : Nat) : Trie where
  next := t.next
  out := Array.replicate cap 0
  rout := Array.replicate cap 0
  nstates := t.nstates

/-- The trie without its masks holds the same words, and accepts nothing at them. -/
theorem Trie.Holds.unmarked {cap : Nat} {t : Trie} {words : List Bytes}
    {marks terms : Bytes → Nat → Prop} (h : t.Holds cap words marks terms) :
    (t.unmarked cap).Holds cap words (fun _ _ => False) (fun _ _ => False) where
  count := h.count
  root := h.root
  nodup := h.nodup
  closed := h.closed
  fits := h.fits
  next_size := h.next_size
  out_size := Array.size_replicate
  rout_size := Array.size_replicate
  goto := h.goto
  blank := h.blank
  out := by
    intro s k
    show ((Array.replicate cap 0).getD s (0 : Mask)).getLsbD k = true ↔ _
    rw [getD_replicate]
    simp
  rout := by
    intro s k
    show ((Array.replicate cap 0).getD s (0 : Mask)).getLsbD k = true ↔ _
    rw [getD_replicate]
    simp
  marked := by simp

/-- **The search of any trie ends**, in its arrays: every transition of a state leads
to a state, and every state but the root was queued once. -/
theorem acSearch_holds {cap : Nat} {t : Trie} {words : List Bytes}
    {marks terms : Bytes → Nat → Prop} (ht : t.Holds cap words marks terms) :
    ∃ g, acSearch cap t = .ok g ∧ g.next.size = cap * acAlphabet ∧ g.out.size = cap
      ∧ g.rout.size = cap
      ∧ (∀ s b, s < t.nstates → g.next.getD (acCell s b) 0 < t.nstates)
      ∧ g.queue.toList.Perm (List.range' 1 (t.nstates - 1)) := by
  have hw := ht.isTrie
  have hcount := ht.count
  have hbare := ht.unmarked
  -- the trie without its masks
  obtain ⟨queue, hseed, hlinks, hone⟩ := acSeed_links hbare (by simp) acBytes #[] (fun _ => False)
    hbare.links acBytes_nodup (by simp) (by simp)
  have hround : Bfs.Round cap words (fun _ _ => False) (fun _ _ => False)
      ((t.unmarked cap).seeded cap queue) 0 :=
    Bfs.Round.begin hlinks (fun b => .inr (mem_acBytes b)) hone
  obtain ⟨g₀, hdrain₀, h₀⟩ := acDrain_links (by simp) (by simp) hw cap 0 _ hround hw.fits
  -- and the trie as it is
  have halike : ((t.unmarked cap).seeded cap queue).Alike (t.seeded cap queue) :=
    ⟨rfl, rfl, rfl, ht.out_size.trans Array.size_replicate.symm,
      ht.rout_size.trans Array.size_replicate.symm⟩
  obtain ⟨g, hdrain, h⟩ := acDrain_alike cap 0 _ _ g₀ halike hdrain₀
  have hfinal := h₀.final hw
  have hlinks₀ := h₀.links
  have hall : g₀.queue.toList.take g₀.queue.size = g₀.queue.toList := by
    rw [← Array.length_toList, List.take_length]
  rw [hall] at hlinks₀
  have hseed' : acSeed cap t.next acBytes #[] = .ok queue := hseed
  refine ⟨g, ?_, ?_, ?_, ?_, ?_, ?_⟩
  · unfold acSearch
    rw [hseed', ok_bind, hdrain]
  · rw [h.next, hlinks₀.next_size]
  · rw [h.out_size, hlinks₀.out_size]
  · rw [h.rout_size, hlinks₀.rout_size]
  · intro s b hs
    have hword : words[s]? = some words[s] := List.getElem?_eq_getElem (by omega)
    have hstate := hw.getElem?_stateOf (words[s] ++ [b])
    rw [h.next, hlinks₀.goto_done s _ b hword (hfinal _ s hword), ← hcount]
    exact (List.getElem?_eq_some_iff.mp hstate).1
  · -- neither list has a state twice, and both have all but the root
    rw [h.queue]
    apply (List.perm_ext_iff_of_nodup hlinks₀.nodup List.nodup_range').mpr
    intro v
    rw [List.mem_range'_1]
    constructor
    · intro hv
      obtain ⟨s, w, b, -, -, hword⟩ := (hlinks₀.queued v).mp hv
      have hlt := (List.getElem?_eq_some_iff.mp hword).1
      have hne := hlinks₀.ne_zero hw hv
      omega
    · intro hv
      have hword : words[v]? = some words[v] := List.getElem?_eq_getElem (by omega)
      rcases hfinal _ v hword with hzero | hqueued
      · omega
      · exact hqueued

/-! ## §5. The builder stays in its arrays. -/

/-- **An automaton within tables for `cap` states**: what the scan relies on. -/
structure Ac.InBounds (ac : Ac) (cap : Nat) : Prop where
  nstates_pos : 0 < ac.nstates
  fits : ac.nstates ≤ cap
  next_size : ac.next.size = cap * acAlphabet
  out_size : ac.out.size = cap
  rout_size : ac.rout.size = cap
  row_size : ac.row.size = 64
  closed : ∀ i, i < ac.nstates * acAlphabet → ac.next.getD i 0 < ac.nstates

/-- Each place of the first rows of the goto table is the transition of a state. -/
theorem eq_acCell {n i : Nat} (h : i < n * acAlphabet) : ∃ s b, s < n ∧ i = acCell s b := by
  have hpos : 0 < acAlphabet := by decide
  have hmod : i % acAlphabet < 256 := Nat.mod_lt i hpos
  refine ⟨i / acAlphabet, UInt8.ofNat (i % acAlphabet), (Nat.div_lt_iff_lt_mul hpos).mpr h, ?_⟩
  unfold acCell
  rw [UInt8.toNat_ofNat_of_lt' hmod, Nat.mul_comm]
  exact (Nat.div_add_mod i acAlphabet).symm

theorem acRows_size {flavour : Nat} :
    ∀ (cats : List CatDef) (i : Nat) (row : Array Nat), (∀ c ∈ cats, c.cat < 64) →
      row.size = 64 → ∃ row', acRows flavour i row cats = .ok row' ∧ row'.size = 64 := by
  intro cats
  induction cats with
  | nil =>
      intro i row _ hsize
      exact ⟨row, rfl, hsize⟩
  | cons c cats ih =>
      intro i row hids hsize
      have hids' : ∀ d ∈ cats, d.cat < 64 := fun d hd => hids d (List.mem_cons_of_mem _ hd)
      unfold acRows
      by_cases hin : c.isIn flavour = true
      · obtain ⟨row₁, hstore, hsize₁, -⟩ :=
          store_eq (show c.cat < row.size by rw [hsize]; exact hids c List.mem_cons_self) i 0
        rw [if_pos hin, hstore, ok_bind]
        exact ih (i + 1) row₁ hids' (hsize₁.trans hsize)
      · rw [if_neg hin]
        exact ih (i + 1) row hids' hsize

theorem acRuleRows_size {T : Tables} {flavour : Nat} :
    ∀ (rules : List RuleDef) (row : Array Nat), (∀ r ∈ rules, r.cat < 64) →
      row.size = 64 → ∃ row', acRuleRows T flavour row rules = .ok row' ∧ row'.size = 64 := by
  intro rules
  induction rules with
  | nil =>
      intro row _ hsize
      exact ⟨row, rfl, hsize⟩
  | cons r rules ih =>
      intro row hids hsize
      have hids' : ∀ d ∈ rules, d.cat < 64 := fun d hd => hids d (List.mem_cons_of_mem _ hd)
      unfold acRuleRows
      by_cases hin : r.isIn flavour = true
      · rw [if_pos hin]
        cases T.categories.findIdx? (fun c => c.cat = r.cat) with
        | some j =>
            obtain ⟨row₁, hstore, hsize₁, -⟩ :=
              store_eq (show r.cat < row.size by rw [hsize]; exact hids r List.mem_cons_self) j 0
            dsimp only
            rw [hstore, ok_bind]
            exact ih row₁ hids' (hsize₁.trans hsize)
        | none => exact ih row hids' hsize
      · rw [if_neg hin]
        exact ih row hids' hsize

/-- **The builder stays in its arrays**, once it has them. -/
theorem acConstructAs_inBounds {T : Tables} (hcats : ∀ c ∈ T.categories, c.cat < 64)
    (hrules : ∀ r ∈ T.rules, r.cat < 64) {flavour : Nat} (hterms : T.nterms ≤ 64)
    (hmax : T.cap flavour ≤ acMaxStates) :
    ∃ ac queue, acConstructAs acState T flavour = .ok (ac, queue)
      ∧ ac.InBounds (T.cap flavour)
      ∧ queue.toList.Perm (List.range' 1 (ac.nstates - 1)) := by
  have hcap : T.cap flavour
      = 1 + catsLength flavour T.categories + rulesLength flavour T.rules := rfl
  obtain ⟨row₁, hrow₁, hsize₁⟩ := @acRows_size flavour T.categories 0
    (Array.replicate 64 T.ncategories) hcats Array.size_replicate
  obtain ⟨row, hrow, hsize⟩ := @acRuleRows_size T flavour T.rules row₁ hrules hsize₁
  -- pass 1 and pass 1b
  have hroot : (Trie.root (T.cap flavour)).Holds (T.cap flavour) [[]] (fun _ _ => False)
      (fun _ _ => False) := Trie.holds_root (by omega)
  obtain ⟨t₁, words₁, hadd₁, h₁, hle₁⟩ := @acAddCategories_holds _ flavour hmax _
    T.categories _ _ _ hcats hroot (by show 1 + _ ≤ _; omega)
  have hle₁' : t₁.nstates ≤ 1 + catsLength flavour T.categories := hle₁
  obtain ⟨t, words, needs, hadd, ht, -, -⟩ := @acAddRules_holds _ flavour hmax _ T.rules
    t₁ words₁ _ 0 h₁ (by omega) (by show 0 + T.nterms ≤ 64; omega)
  -- pass 2
  obtain ⟨g, hsearch, hnext, hout, hrout, hclosed, hqueue⟩ := acSearch_holds ht
  refine ⟨{ next := g.next, out := g.out, nstates := t.nstates, rout := g.rout, need := needs,
            row := row }, g.queue, ?_, ?_, hqueue⟩
  · unfold acConstructAs
    rw [acAddCategoriesAs_acState, acAddRulesAs_acState, hrow₁, ok_bind, hrow, ok_bind, hadd₁,
      ok_bind, hadd, ok_bind]
    dsimp only
    rw [hsearch, ok_bind, pure_eq_ok]
  · exact
      { nstates_pos := by
          have hpos : 0 < words.length := (List.getElem?_eq_some_iff.mp ht.root).1
          rw [ht.count] at hpos
          exact hpos
        fits := ht.fits
        next_size := hnext
        out_size := hout
        rout_size := hrout
        row_size := hsize
        closed := by
          intro i hi
          obtain ⟨s, b, hs, rfl⟩ := eq_acCell hi
          exact hclosed s b hs }

/-! ## §6. The scan stays in the arrays. -/

/-- **The pass over a buffer** goes from state to state. -/
theorem acPass_ok {T : Tables} {ac : Ac} {cap : Nat} (h : ac.InBounds cap) (skip : Mask) :
    ∀ (data : Bytes) (s : Nat) (seen : Mask), s < ac.nstates →
      ∃ r, acPass T ac skip s seen data = .ok r := by
  have hfits := h.fits
  intro data
  induction data with
  | nil =>
      intro s seen _
      exact ⟨.inr seen, rfl⟩
  | cons b data ih =>
      intro s seen hs
      have hload := load_eq (show acCell s b < ac.next.size by
        rw [h.next_size]; exact acCell_lt (by omega) b) 0
      have hs' : ac.next.getD (acCell s b) 0 < ac.nstates := h.closed _ (acCell_lt hs b)
      have hloadr := load_eq (show ac.next.getD (acCell s b) 0 < ac.rout.size by
        rw [h.rout_size]; omega) 0
      have hloado := load_eq (show ac.next.getD (acCell s b) 0 < ac.out.size by
        rw [h.out_size]; omega) 0
      unfold acPass
      rw [hload, ok_bind, hloadr, ok_bind, hloado, ok_bind]
      dsimp only
      by_cases hlive : ac.out.getD (ac.next.getD (acCell s b) 0) 0 &&& ~~~skip = 0
      · rw [if_pos hlive]
        exact ih _ _ hs'
      · obtain ⟨best, hbest, -⟩ :=
          acBest_min h.row_size 64 T.ncategories _ hlive (fun k _ => Nat.le_add_right 64 k)
        rw [if_neg hlive, hbest, ok_bind]
        by_cases hrow : best < T.ncategories
        · exact ⟨.inl best, if_pos hrow⟩
        · rw [if_neg hrow]
          exact ih _ _ hs'

theorem acRules_ok {T : Tables} {ac : Ac} (hrow : ac.row.size = 64) (skip seen : Mask) :
    ∀ (rules : List (RuleDef × Mask)), (∀ p ∈ rules, p.1.cat < 64) →
      ∃ r, acRules T ac skip seen rules = .ok r := by
  intro rules
  induction rules with
  | nil =>
      intro _
      exact ⟨none, rfl⟩
  | cons p rules ih =>
      obtain ⟨r, need⟩ := p
      intro hids
      have hcat : r.cat < 64 := hids (r, need) List.mem_cons_self
      have hrest := ih fun q hq => hids q (List.mem_cons_of_mem _ hq)
      have hbit : maskBit r.cat = .ok (BitVec.twoPow 64 r.cat) := if_pos hcat
      unfold acRules
      by_cases hneed : need = 0
      · rw [if_pos hneed]
        exact hrest
      rw [if_neg hneed]
      by_cases hmissing : seen &&& need ≠ need
      · rw [if_pos hmissing]
        exact hrest
      rw [if_neg hmissing, hbit, ok_bind]
      by_cases hskip : skip &&& BitVec.twoPow 64 r.cat ≠ 0
      · rw [if_pos hskip]
        exact hrest
      rw [if_neg hskip, load_eq (by rw [hrow]; exact hcat) 0, ok_bind]
      cases T.categories[ac.row.getD r.cat 0]? with
      | some c => exact ⟨some c, rfl⟩
      | none => exact hrest

/-- **The scan stays in the arrays**, on every buffer and under every skip mask. -/
theorem acScan_ok {T : Tables} (hrules : ∀ r ∈ T.rules, r.cat < 64) {ac : Ac} {cap : Nat}
    (h : ac.InBounds cap) (data : Bytes) (skip : Mask) : ∃ r, acScan T ac data skip = .ok r := by
  have hpos := h.nstates_pos
  obtain ⟨p, hpass⟩ := @acPass_ok T ac cap h skip data 0 0 hpos
  unfold acScan
  rw [if_neg (by omega), hpass, ok_bind]
  cases p with
  | inl best => exact ⟨T.categories[best]?, rfl⟩
  | inr seen =>
      dsimp only
      by_cases hseen : seen = 0
      · exact ⟨none, if_pos hseen⟩
      · rw [if_neg hseen]
        apply acRules_ok h.row_size
        intro q hq
        exact hrules q.1 (List.of_mem_zip hq).1

/-! ## §7. The builder and the scan. -/

/-- **Automaton construction stays in bounds**: for all tables whose categories fit a
mask, each flavour and whatever allocations fail, the builder refuses, exactly when
the tables are too large or an allocation fails; or it finishes within the `cap`
states it has memory for, without a fault, having queued every state but the root
once, with the automaton it would build over unbounded state numbers; and then the
scan of any buffer is without a fault. -/
theorem acBuild_inBounds (T : Tables) (hcats : ∀ c ∈ T.categories, c.cat < 64)
    (hrules : ∀ r ∈ T.rules, r.cat < 64) (m : AcAllocs) (flavour : Nat) :
    (acBuild T m flavour = .ok none
        ∧ (64 < T.nterms ∨ acMaxStates < T.cap flavour ∨ m.all = false))
      ∨ ∃ ac queue, acBuild T m flavour = .ok (some ac)
        ∧ acConstructAs acState T flavour = .ok (ac, queue)
        ∧ acConstructAs id T flavour = .ok (ac, queue)
        ∧ ac.InBounds (T.cap flavour) ∧ T.cap flavour ≤ acMaxStates
        ∧ queue.toList.Perm (List.range' 1 (ac.nstates - 1))
        ∧ ∀ data skip, ∃ r, acScan T ac data skip = .ok r := by
  have hall : m.all = true
      ↔ (m.next ∧ m.out ∧ m.rout) ∧ m.temp ∧ (m.queue ∧ m.fail) := by
    simp [AcAllocs.all, and_assoc]
  unfold acBuild
  by_cases hterms : T.nterms > 64
  · exact .inl ⟨if_pos hterms, .inl hterms⟩
  rw [if_neg hterms]
  -- Either every allocation succeeds, or the first that fails ends the build.
  by_cases hmax : T.cap flavour > acMaxStates
  · exact .inl ⟨if_pos hmax, .inr (.inl hmax)⟩
  rw [if_neg hmax]
  by_cases hm : m.all = true
  · right
    obtain ⟨htables, htemp, hscratch⟩ := hall.mp hm
    obtain ⟨ac, queue, hac, hbounds, hqueue⟩ :=
      acConstructAs_inBounds hcats hrules (not_lt.mp hterms) (not_lt.mp hmax)
    have hconstruct : acConstruct T flavour = .ok ac := by
      rw [acConstruct_eq_as, hac]
      rfl
    have hwide : acConstructAs id T flavour = .ok (ac, queue) := by
      have hfits := hbounds.fits
      have hlt : acMaxStates < UInt16.size := by decide
      have hagree : ∀ n, n < UInt16.size → acState n = id n := fun n hn => Nat.mod_eq_of_lt hn
      exact acConstructAs_agree hagree hac (by omega)
    refine ⟨ac, queue, ?_, hac, hwide, hbounds, not_lt.mp hmax, hqueue, acScan_ok hrules hbounds⟩
    rw [if_neg (not_not.mpr htables), if_neg (not_not.mpr htemp), if_neg (not_not.mpr hscratch),
      hconstruct, ok_bind, pure_eq_ok]
  · left
    refine ⟨?_, .inr (.inr ((Bool.not_eq_true _).mp hm))⟩
    by_cases htables : ¬ (m.next ∧ m.out ∧ m.rout)
    · exact if_pos htables
    rw [if_neg htables]
    by_cases htemp : ¬ (m.temp = true)
    · exact if_pos htemp
    rw [if_neg htemp]
    by_cases hscratch : ¬ (m.queue ∧ m.fail)
    · exact if_pos hscratch
    exact absurd (hall.mpr ⟨not_not.mp htables, not_not.mp htemp, not_not.mp hscratch⟩) hm

/-- Tables that are not as they should be: a signature and a term are empty, two rows
share a category, and the rule reports one that has no row. -/
def ragged : Tables where
  categories :=
    [{ cat := 3, name := bytesOf "first", sigs := [[], bytesOf "ab"], flags := matchDecoded },
      { cat := 3, name := bytesOf "second", sigs := [bytesOf "b"], flags := matchDecoded }]
  rules := [{ cat := 9, terms := [[], bytesOf "bc"], flags := matchDecoded }]

/-- The builder takes them, in six places of the tables. -/
theorem acBuild_inBounds_ragged :
    ∃ ac, acBuild ragged AcAllocs.granted matchDecoded = .ok (some ac) ∧ ac.InBounds 6
      ∧ ∀ data skip, ∃ r, acScan ragged ac data skip = .ok r := by
  rcases acBuild_inBounds ragged (by decide) (by decide) AcAllocs.granted matchDecoded with
    ⟨-, hrefused⟩ | ⟨ac, queue, hbuild, -, -, hbounds, -, -, hscan⟩
  · exact absurd hrefused (by decide)
  · have hcap : ragged.cap matchDecoded = 6 := by decide
    exact ⟨ac, hbuild, hcap ▸ hbounds, hscan⟩

end HttpShield
