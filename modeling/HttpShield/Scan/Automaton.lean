/-
  HttpShield.Scan.Automaton
  ─────────────────────────
  `ngx_http_shield_scan.c`: the signature tables' types, the builder of the
  Aho–Corasick automaton over them, and the scan.

  Arrays are read and written at checked indices and shifts are checked against
  the width of the mask, so that "the builder stays inside its allocations" is
  the statement that it returns `.ok`.  A state is an `ngx_http_shield_ac_state_t`:
  storing a state number truncates it to 16 bits.
-/
import HttpShield.Nginx
import Mathlib.Algebra.GroupWithZero.Nat

namespace HttpShield

/-! ## §1. Signature tables. -/

/-- A set of at most 64 categories, or of rule terms (`uint64_t`). -/
abbrev Mask := BitVec 64

/-- `NGX_HTTP_SHIELD_MATCH_DECODED`. -/
def matchDecoded : Nat := 1
/-- `NGX_HTTP_SHIELD_MATCH_RAW`. -/
def matchRaw : Nat := 2
/-- `NGX_HTTP_SHIELD_NO_BODY`. -/
def noBody : Nat := 4
/-- `NGX_HTTP_SHIELD_NO_QUERY`. -/
def noQuery : Nat := 8

/-- `ngx_http_shield_catdef_t`: one row of the category table. -/
structure CatDef where
  /-- `ngx_http_shield_cat_e`: the bit of the category in a mask. -/
  cat : Nat
  name : Bytes
  sigs : List Bytes
  /-- The copies it applies to, and the positions it does not. -/
  flags : Nat
  deriving Repr, DecidableEq

/-- `ngx_http_shield_ruledef_t`: a category reported when all terms are seen. -/
structure RuleDef where
  cat : Nat
  terms : List Bytes
  flags : Nat
  deriving Repr, DecidableEq

/-- `ngx_http_shield_categories[]` and `ngx_http_shield_rules[]`. -/
structure Tables where
  categories : List CatDef
  rules : List RuleDef

/-- `NGX_HTTP_SHIELD_NCATEGORIES`. -/
def Tables.ncategories (T : Tables) : Nat := T.categories.length

/-- The row is in the automaton built for this flavour. -/
def CatDef.isIn (c : CatDef) (flavour : Nat) : Bool := c.flags &&& flavour != 0

/-- The rule is in the automaton built for this flavour. -/
def RuleDef.isIn (r : RuleDef) (flavour : Nat) : Bool := r.flags &&& flavour != 0

/-! ## §2. Memory and masks. -/

/-- `a[i]`. -/
def load {α : Type} (a : Array α) (i : Nat) : Except Fault α :=
  match a[i]? with
  | some v => .ok v
  | none => .error .outOfBounds

/-- `a[i] = v`. -/
def store {α : Type} (a : Array α) (i : Nat) (v : α) : Except Fault (Array α) :=
  if h : i < a.size then .ok (a.set i v h) else .error .outOfBounds

/-- `a[i] |= m`. -/
def orInto (a : Array Mask) (i : Nat) (m : Mask) : Except Fault (Array Mask) := do
  let v ← load a i
  store a i (v ||| m)

/-- `(uint64_t) 1 << n`. -/
def maskBit (n : Nat) : Except Fault Mask :=
  if n < 64 then .ok (BitVec.twoPow 64 n) else .error .shiftTooWide

/-- `NGX_HTTP_SHIELD_AC_ALPHABET`. -/
def acAlphabet : Nat := 256
/-- `NGX_HTTP_SHIELD_AC_MAX_STATES`. -/
def acMaxStates : Nat := 65535

/-- The cast to `ngx_http_shield_ac_state_t`. -/
def acState (n : Nat) : Nat := n % UInt16.size

/-- `for (b = 0; b < NGX_HTTP_SHIELD_AC_ALPHABET; b++)`. -/
def acBytes : List UInt8 := (List.range acAlphabet).map UInt8.ofNat

/-- The place of the transition of state `s` on byte `b` in the goto table. -/
def acCell (s : Nat) (b : UInt8) : Nat := s * acAlphabet + b.toNat

/-! ## §3. Pass 1: the goto trie. -/

/-- `ngx_http_shield_ac_t` while it is being built. -/
structure Trie where
  next : Array Nat
  out : Array Mask
  rout : Array Mask
  nstates : Nat

/-- Follow a signature from state `s`, adding the states that are missing; the
state it ends in.  `0` in `next` means "absent". -/
def acWalk : Trie → Nat → Bytes → Except Fault (Trie × Nat)
  | t, s, [] => .ok (t, s)
  | t, s, b :: sig => do
      let v ← load t.next (acCell s b)
      -- the root is no child, so `0` can stand for a state that is not there yet
      let t ← if v = 0 then do
          let next ← store t.next (acCell s b) (acState t.nstates)
          pure { t with next := next, nstates := t.nstates + 1 }
        else pure t
      let s ← load t.next (acCell s b)
      acWalk t s sig

/-- The signatures of one category row. -/
def acAddSigs (cat : Nat) : Trie → List Bytes → Except Fault Trie
  | t, [] => .ok t
  | t, sig :: sigs => do
      let (t, s) ← acWalk t 0 sig
      let bit ← maskBit cat
      let out ← orInto t.out s bit
      acAddSigs cat { t with out := out } sigs

/-- Pass 1. -/
def acAddCategories (flavour : Nat) : Trie → List CatDef → Except Fault Trie
  | t, [] => .ok t
  | t, c :: cats =>
      if c.isIn flavour then do
        let t ← acAddSigs c.cat t c.sigs
        acAddCategories flavour t cats
      else acAddCategories flavour t cats

/-- The terms of one rule, `term` being the number of the first one: the trie with
them, and the rule's `need` mask. -/
def acAddTerms (isIn : Bool) : Trie → Nat → Mask → List Bytes → Except Fault (Trie × Mask)
  | t, _, need, [] => .ok (t, need)
  | t, term, need, sig :: sigs =>
      if isIn then do
        let bit ← maskBit term
        let (t, s) ← acWalk t 0 sig
        let rout ← orInto t.rout s bit
        acAddTerms isIn { t with rout := rout } (term + 1) (need ||| bit) sigs
      else acAddTerms isIn t (term + 1) need sigs

/-- Pass 1b: rule terms into the same trie, numbered across all rules in
declaration order. -/
def acAddRules (flavour : Nat) : Trie → Nat → List RuleDef → Except Fault (Trie × List Mask)
  | t, _, [] => .ok (t, [])
  | t, term, r :: rules => do
      let (t, need) ← acAddTerms (r.isIn flavour) t term 0 r.terms
      let (t, needs) ← acAddRules flavour t (term + r.terms.length) rules
      return (t, need :: needs)

/-! ## §4. Pass 2: fail links. -/

/-- The tables of the BFS, and the queue as far as it is filled. -/
structure Bfs where
  next : Array Nat
  out : Array Mask
  rout : Array Mask
  fail : Array Nat
  queue : Array Nat

/-- `queue[tail++] = v`. -/
def acEnqueue (cap : Nat) (queue : Array Nat) (v : Nat) : Except Fault (Array Nat) :=
  if queue.size < cap then .ok (queue.push v) else .error .outOfBounds

/-- The children of the root, whose fail state is the root. -/
def acSeed (cap : Nat) (next : Array Nat) : List UInt8 → Array Nat → Except Fault (Array Nat)
  | [], queue => .ok queue
  | b :: bytes, queue => do
      let v ← load next (acCell 0 b)
      -- an absent transition of the root stays `0`, which is the root
      let queue ← if v ≠ 0 then acEnqueue cap queue v else pure queue
      acSeed cap next bytes queue

/-- One transition of a dequeued state: flatten an absent one to the fail state's,
or resolve the fail link of the state it leads to. -/
def acLink (cap : Nat) (s : Nat) (b : UInt8) (g : Bfs) : Except Fault Bfs := do
  let v ← load g.next (acCell s b)
  let fs ← load g.fail s
  let f ← load g.next (acCell fs b)
  if v = 0 then
    let next ← store g.next (acCell s b) f
    return { g with next := next }
  else
    let fail ← store g.fail v f
    -- union: `v` may accept one category and its fail state another
    let fout ← load g.out f
    let out ← orInto g.out v fout
    let frout ← load g.rout f
    let rout ← orInto g.rout v frout
    let queue ← acEnqueue cap g.queue v
    return { g with fail := fail, out := out, rout := rout, queue := queue }

/-- All transitions of a dequeued state. -/
def acLinks (cap : Nat) (s : Nat) : List UInt8 → Bfs → Except Fault Bfs
  | [], g => .ok g
  | b :: bytes, g => do
      let g ← acLink cap s b g
      acLinks cap s bytes g

/-- `while (head < tail)`. -/
def acDrain (cap : Nat) : Nat → Nat → Bfs → Except Fault Bfs
  | 0, _, _ => .error .outOfFuel
  | fuel + 1, head, g =>
      if head < g.queue.size then do
        let s ← load g.queue head
        let g ← acLinks cap s acBytes g
        acDrain cap fuel (head + 1) g
      else return g

/-! ## §5. `ngx_http_shield_ac_build`. -/

/-- `ngx_http_shield_ac_t`. -/
structure Ac where
  /-- `[nstates][256]` goto table. -/
  next : Array Nat
  /-- `[nstates]` accepting-category mask. -/
  out : Array Mask
  nstates : Nat
  /-- `[nstates]` accepting-term mask. -/
  rout : Array Mask
  /-- Per rule, the terms it requires. -/
  need : List Mask
  /-- Mask bit to row of the category table. -/
  row : Array Nat

/-- The total length of some signatures. -/
def sigsLength (sigs : List Bytes) : Nat := (sigs.map List.length).sum

/-- The bound on the size of the trie: the root, and a state per byte. -/
def Tables.cap (T : Tables) (flavour : Nat) : Nat :=
  1 + ((T.categories.filter (fun c => c.isIn flavour)).map (fun c => sigsLength c.sigs)).sum
    + ((T.rules.filter (fun r => r.isIn flavour)).map (fun r => sigsLength r.terms)).sum

/-- The number of rule terms, in whichever automaton. -/
def Tables.nterms (T : Tables) : Nat := (T.rules.map (fun r => r.terms.length)).sum

/-- Map the bits of the rows of this automaton, `i` being the first row. -/
def acRows (flavour : Nat) : Nat → Array Nat → List CatDef → Except Fault (Array Nat)
  | _, row, [] => .ok row
  | i, row, c :: cats =>
      if c.isIn flavour then do
        let row ← store row c.cat i
        acRows flavour (i + 1) row cats
      else acRows flavour (i + 1) row cats

/-- Map the bits of the categories that rules of this automaton report. -/
def acRuleRows (T : Tables) (flavour : Nat) : Array Nat → List RuleDef → Except Fault (Array Nat)
  | row, [] => .ok row
  | row, r :: rules =>
      if r.isIn flavour then
        match T.categories.findIdx? (fun c => c.cat = r.cat) with
        | some j => do
            let row ← store row r.cat j
            acRuleRows T flavour row rules
        -- a rule whose category has no row keeps the default
        | none => acRuleRows T flavour row rules
      else acRuleRows T flavour row rules

/-- Which of the allocations of the builder succeed. -/
structure AcAllocs where
  next : Bool
  out : Bool
  rout : Bool
  temp : Bool
  queue : Bool
  fail : Bool

/-- Every allocation succeeds. -/
def AcAllocs.all (m : AcAllocs) : Bool :=
  m.next && m.out && m.rout && m.temp && m.queue && m.fail

/-- As in a configuration with memory to spare. -/
def AcAllocs.granted : AcAllocs := ⟨true, true, true, true, true, true⟩

/-- The builder once its memory is there: the rows, pass 1, pass 1b and pass 2. -/
def acConstruct (T : Tables) (flavour : Nat) : Except Fault Ac := do
  let cap := T.cap flavour
  let row ← acRows flavour 0 (Array.replicate 64 T.ncategories) T.categories
  let row ← acRuleRows T flavour row T.rules
  let root : Trie :=
    { next := Array.replicate (cap * acAlphabet) 0
      out := Array.replicate cap 0
      rout := Array.replicate cap 0
      nstates := 1 }
  let t ← acAddCategories flavour root T.categories
  let (t, need) ← acAddRules flavour t 0 T.rules
  let queue ← acSeed cap t.next acBytes #[]
  let g ← acDrain cap cap 0
    { next := t.next, out := t.out, rout := t.rout, fail := Array.replicate cap 0, queue := queue }
  return { next := g.next, out := g.out, nstates := t.nstates, rout := g.rout, need := need,
           row := row }

/-- `ngx_http_shield_ac_build`; `none` is `NGX_ERROR`. -/
def acBuild (T : Tables) (m : AcAllocs) (flavour : Nat) : Except Fault (Option Ac) :=
  if T.nterms > 64 then return none
  else if T.cap flavour > acMaxStates then return none
  else if ¬ (m.next ∧ m.out ∧ m.rout) then return none
  else if ¬ m.temp then return none
  else if ¬ (m.queue ∧ m.fail) then return none
  else do
    let ac ← acConstruct T flavour
    return some ac

/-! ## §6. `ngx_http_shield_ac_scan`. -/

/-- `ngx_http_shield_ac_lowest_bit`, only called on a mask that is not empty. -/
def acLowestBit (m : Mask) : Nat := m.ctz.toNat

/-- The lowest category row among the bits of `live`: take the lowest bit, clear it
(`live &= live - 1`), while there is one. -/
def acBest (row : Array Nat) : Nat → Nat → Mask → Except Fault Nat
  | 0, _, _ => .error .outOfFuel
  | fuel + 1, best, live => do
      let r ← load row (acLowestBit live)
      let best := if r < best then r else best
      let live := live &&& (live - 1)
      if live = 0 then return best else acBest row fuel best live

/-- The pass over the buffer: the row a signature reports, or the terms seen. -/
def acPass (T : Tables) (ac : Ac) (skip : Mask) : Nat → Mask → Bytes → Except Fault (Nat ⊕ Mask)
  | _, seen, [] => .ok (.inr seen)
  | s, seen, b :: data => do
      let s ← load ac.next (acCell s b)
      let r ← load ac.rout s
      let seen := seen ||| r
      let o ← load ac.out s
      let live := o &&& ~~~skip
      if live = 0 then acPass T ac skip s seen data
      else do
        let best ← acBest ac.row 64 T.ncategories live
        if best < T.ncategories then return .inl best else acPass T ac skip s seen data

/-- The rules, in declaration order, against the terms seen. -/
def acRules (T : Tables) (ac : Ac) (skip seen : Mask) :
    List (RuleDef × Mask) → Except Fault (Option CatDef)
  | [] => .ok none
  | (r, need) :: rules =>
      if need = 0 then acRules T ac skip seen rules
      else if seen &&& need ≠ need then acRules T ac skip seen rules
      else do
        let bit ← maskBit r.cat
        if skip &&& bit ≠ 0 then acRules T ac skip seen rules
        else do
          let row ← load ac.row r.cat
          match T.categories[row]? with
          | some c => return some c
          | none => acRules T ac skip seen rules

/-- `ngx_http_shield_ac_scan`. -/
def acScan (T : Tables) (ac : Ac) (data : Bytes) (skip : Mask) : Except Fault (Option CatDef) := do
  if ac.nstates = 0 then return none
  match ← acPass T ac skip 0 0 data with
  | .inl best => return T.categories[best]?
  | .inr seen =>
      -- no signature fired: the rules
      if seen = 0 then return none
      acRules T ac skip seen (T.rules.zip ac.need)

end HttpShield
