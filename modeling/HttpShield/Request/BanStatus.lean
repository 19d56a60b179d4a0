/-
  HttpShield.Request.BanStatus
  ────────────────────────────
  `ngx_http_shield_ban_status_handler`: the state of a ban zone as a JSON document.

  The buffer is sized under one lock and filled under another, and the zone may be a
  different one by then.  Each entry of the ban list is only begun with 96 bytes left,
  and is 94 bytes at most, so that the two bytes behind the list always fit; and an
  entry counted under the first lock finds its 96 bytes under the second.

    • `statusEntry_eq`        — what one entry writes, and how much of it,
    • `statusBanned_lists`    — the walk lists the banned nodes up to some point,
    • `renderStatus_complete` — the document is complete JSON, of these nodes.
-/
import HttpShield.Lib.JsonTree
import HttpShield.Request.HitLog

namespace HttpShield

open JsonText (Text Value Member Spells Written commas loads decimal)

/-! ## §1. What the handler calls. -/

/-- `AF_INET` and `AF_INET6`. -/
inductive AddrFamily where
  | inet | inet6
  deriving Repr, DecidableEq

/-- The characters that an address text is made of. -/
def isAddrChar (c : UInt8) : Bool :=
  (48 ≤ c.toNat && c.toNat ≤ 57) || (97 ≤ c.toNat && c.toNat ≤ 102) || c == 58 || c == 46

/-- `ngx_inet_ntop`, given the bytes there are for the text: where they are enough for
the longest form, it writes the text of the address, and that is 39 bytes at most. -/
structure NgxInetNtop where
  ntop : AddrFamily → Bytes → Nat → Bytes
  text : AddrFamily → Bytes → Bytes
  ntop_eq : ∀ family addr room, 45 ≤ room → ntop family addr room = text family addr
  text_length : ∀ family addr, (text family addr).length ≤ 39
  text_chars : ∀ family addr, ∀ c ∈ text family addr, isAddrChar c = true

/-- `%T`. -/
def timeText (t : Int) : Bytes :=
  (if t < 0 then [45] else []) ++ (decimal t.natAbs).map .ofNat

/-- `first ? "" : ","`. -/
def separator (first : Bool) : Bytes := if first then [] else [44]

/-- `NGX_HTTP_SHIELD_CAT_N`. -/
def shieldCatN : Nat := ShieldCat.dotfile.bit + 1

/-- `ngx_http_shield_cat_name`. -/
def catName (cat : Nat) : Bytes :=
  match shieldCategories.find? (fun c => c.cat = cat) with
  | some c => c.name
  | none =>
      -- the checks that have no row
      if cat = ShieldCat.httpoxy.bit then bytesOf "httpoxy"
      else if cat = ShieldCat.rangeDos.bit then bytesOf "range_dos"
      else if cat = ShieldCat.ctrlChar.bit then bytesOf "ctrl_char"
      else if cat = ShieldCat.dotfile.bit then bytesOf "dotfile"
      else bytesOf "unknown"

/-! ## §2. Pass one: the counters. -/

/-- What is copied out under the first lock. -/
structure Snapshot where
  catHits : Vector UInt64 banNcounters
  blocked : UInt64
  bans : UInt64
  nodes : Nat

/-- The loop that counts the nodes. -/
def countNodes (z : Zone) : Nat → QueuePtr → Nat → Except Fault Nat
  | 0, _, _ => .error .outOfFuel
  | _ + 1, none, nodes => .ok nodes
  | fuel + 1, some p, nodes => do
      let q ← ngxQueueNext z (some p)
      countNodes z fuel q (nodes + 1)

/-- Pass one under the lock. -/
def banSnapshot (z : Zone) (fuel : Nat) : Except Fault Snapshot := do
  let q ← ngxQueueNext z none
  let nodes ← countNodes z fuel q 0
  return { catHits := z.sh.catHits, blocked := z.sh.blocked, bans := z.sh.bans, nodes := nodes }

/-- `NGX_INT64_LEN`. -/
def ngxInt64Len : Nat := 20

/-- The document without its values. -/
def statusLiteral : String :=
  "\x7b\"zone\":\"\",\"nodes\":,\"blocked\":,\"bans\":,"
    ++ "\"categories\":\x7b\x7d,\"banned\":[]\x7d"

/-- `size`: the literal with its final zero, the name, three counters, the categories
and the nodes. -/
def statusSize (name : Bytes) (nodes : Nat) : Nat :=
  (bytesOf statusLiteral).length + 1 + name.length + 3 * ngxInt64Len
    + shieldCatN * (64 + ngxInt64Len) + nodes * 96

/-! ## §3. The document. -/

/-- The document up to the first category. -/
def statusHead (name : Bytes) (s : Snapshot) : List Format :=
  [.lit "\x7b\"zone\":\"", .str name, .lit "\",\"nodes\":", .ui s.nodes, .lit ",\"blocked\":",
    .ui s.blocked.toNat, .lit ",\"bans\":", .ui s.bans.toNat, .lit ",\"categories\":\x7b"]

/-- A category, behind the separator. -/
def categoryFormat (cat hits : Nat) : List Format :=
  [.lit "\"", .str (catName cat), .lit "\":", .ui hits]

/-- The loop over the categories: all of them, zeroes included. -/
def statusCategories (cap : Nat) (catHits : Vector UInt64 banNcounters) :
    List Nat → Bool → Bytes → Except Fault Bytes
  | [], _, buf => .ok buf
  | i :: is, first, buf =>
      if h : i < banNcounters then
        statusCategories cap catHits is false (ngxSlprintf cap buf
          (.str (separator first) :: categoryFormat i catHits[i].toNat))
      else .error .outOfBounds

/-- `bn->len == 4 ? AF_INET : AF_INET6`. -/
def BanNode.family (bn : BanNode) : AddrFamily := if bn.len = 4 then .inet else .inet6

/-- What stands behind the address of an entry. -/
def entryFormat (now : Int) (bn : BanNode) : List Format :=
  [.lit "\",\"hits\":", .ui bn.hits, .lit ",\"expires\":",
    .str (timeText (bn.bannedUntil - now)), .lit "\x7d"]

/-- One entry of the ban list. -/
def statusEntry (N : NgxInetNtop) (cap : Nat) (now : Int) (bn : BanNode) (first : Bool)
    (buf : Bytes) : Except Fault Bytes :=
  let buf := ngxSlprintf cap buf [.str (separator first), .lit "\x7b\"addr\":\""]
  let text := N.ntop bn.family bn.addr (cap - buf.length)
  -- `p += ngx_inet_ntop(..)` stores the text itself
  if cap < buf.length + text.length then .error .outOfBounds
  else .ok (ngxSlprintf cap (buf ++ text) (entryFormat now bn))

/-- Pass two: the ban list. -/
def statusBanned (N : NgxInetNtop) (cap : Nat) (now : Int) (z : Zone) :
    Nat → QueuePtr → Bool → Bytes → Except Fault Bytes
  | 0, _, _, _ => .error .outOfFuel
  | _ + 1, none, _, buf => .ok buf
  | fuel + 1, some p, first, buf => do
      let bn ← z.deref p
      if bn.bannedUntil ≤ now then
        let q ← ngxQueueNext z (some p)
        statusBanned N cap now z fuel q first buf
      -- the zone outgrew the buffer between the two locks
      else if cap - buf.length < 96 then return buf
      else
        let buf ← statusEntry N cap now bn first buf
        let q ← ngxQueueNext z (some p)
        statusBanned N cap now z fuel q false buf

/-- The document in its buffer, the zone being what it is under the second lock. -/
def renderStatus (N : NgxInetNtop) (fuel : Nat) (name : Bytes) (now : Int) (s : Snapshot)
    (z : Zone) : Except Fault Bytes := do
  let cap := statusSize name s.nodes
  let buf := ngxSlprintf cap [] (statusHead name s)
  let buf ← statusCategories cap s.catHits (List.range shieldCatN) true buf
  let buf := ngxSlprintf cap buf [.lit "\x7d,\"banned\":["]
  let q ← ngxQueueNext z none
  let buf ← statusBanned N cap now z fuel q true buf
  return ngxSlprintf cap buf [.lit "]\x7d"]

/-! ## §4. The handler. -/

/-- `NGX_HTTP_NOT_ALLOWED`. -/
def ngxHttpNotAllowed : Int := 405
/-- `NGX_HTTP_SERVICE_UNAVAILABLE`. -/
def ngxHttpServiceUnavailable : Int := 503

/-- What the handler reads of the request, and what nginx answers it. -/
structure StatusRequest where
  /-- `r->method & (NGX_HTTP_GET|NGX_HTTP_HEAD)`. -/
  getOrHead : Bool
  /-- `ngx_http_discard_request_body`. -/
  discarded : Int
  /-- The zone as it is under the two locks, once a worker has set it up. -/
  zones : Option (Zone × Zone)
  now : Int
  /-- Whether `ngx_pnalloc` and `ngx_calloc_buf` are granted. -/
  pnalloc : Bool
  callocBuf : Bool
  /-- `ngx_http_send_header`, and `r->header_only` after it. -/
  sendHeader : Int
  headerOnly : Bool
  /-- `ngx_http_output_filter`. -/
  outputFilter : Int

/-- What the handler returns, and what it has handed on by then. -/
structure StatusReply where
  rc : Int
  contentLength : Option Nat
  body : Option Bytes

/-- A reply before the document is there. -/
def StatusReply.code (rc : Int) : StatusReply := { rc := rc, contentLength := none, body := none }

/-- `ngx_http_shield_ban_status_handler`. -/
def banStatusHandler (N : NgxInetNtop) (fuel : Nat) (name : Bytes) (r : StatusRequest) :
    Except Fault StatusReply :=
  if ¬ r.getOrHead then return .code ngxHttpNotAllowed
  else if r.discarded ≠ ngxOk then return .code r.discarded
  else
    match r.zones with
    | none => return .code ngxHttpServiceUnavailable
    | some (z₁, z₂) => do
        let s ← banSnapshot z₁ fuel
        -- the buffer is allocated outside the lock
        if ¬ r.pnalloc then return .code ngxHttpInternalServerError
        let doc ← renderStatus N fuel name r.now s z₂
        if r.sendHeader = ngxError ∨ r.sendHeader > ngxOk ∨ r.headerOnly then
          return { rc := r.sendHeader, contentLength := some doc.length, body := none }
        let sent := some doc.length
        if ¬ r.callocBuf then
          return { rc := ngxHttpInternalServerError, contentLength := sent, body := none }
        return { rc := r.outputFilter, contentLength := sent, body := some doc }

/-! ## §5. What the document says. -/

/-- What pass one copies out of a zone with the nodes `ps`. -/
def Zone.snapshot (z : Zone) (ps : List Ptr) : Snapshot :=
  { catHits := z.sh.catHits, blocked := z.sh.blocked, bans := z.sh.bans, nodes := ps.length }

/-- The banned ones among the nodes, in the order of the queue. -/
def Zone.bannedNodes (z : Zone) (now : Int) (ps : List Ptr) : List BanNode :=
  (ps.filterMap z.slab).filter (fun bn => now < bn.bannedUntil)

/-- The counter of a category. -/
def Snapshot.hitsOf (s : Snapshot) (cat : Nat) : Nat := (s.catHits[cat]?.getD 0).toNat

/-- An entry of the ban list. -/
def BanNode.statusValue (N : NgxInetNtop) (now : Int) (bn : BanNode) : Value :=
  .obj [(codes (bytesOf "addr"), .str (codes (N.text bn.family bn.addr))),
    (codes (bytesOf "hits"), .num bn.hits 0),
    (codes (bytesOf "expires"), .num (bn.bannedUntil - now) 0)]

/-- **The document**: the zone, its counters, every category, and the nodes listed. -/
def Snapshot.statusValue (N : NgxInetNtop) (name : Bytes) (now : Int) (s : Snapshot)
    (listed : List BanNode) : Value :=
  .obj [(codes (bytesOf "zone"), .str (codes name)),
    (codes (bytesOf "nodes"), .num s.nodes 0),
    (codes (bytesOf "blocked"), .num s.blocked.toNat 0),
    (codes (bytesOf "bans"), .num s.bans.toNat 0),
    (codes (bytesOf "categories"),
      .obj ((List.range shieldCatN).map fun cat => (codes (catName cat), .num (s.hitsOf cat) 0))),
    (codes (bytesOf "banned"), .arr (listed.map (BanNode.statusValue N now)))]

/-- The text holds nothing that JSON would escape; a byte that is not
ASCII stands for itself. -/
def JsonPlain (s : Bytes) : Prop := ∀ c ∈ s, 0x20 ≤ c.toNat ∧ c ≠ 34 ∧ c ≠ 92

instance (s : Bytes) : Decidable (JsonPlain s) :=
  List.decidableBAll (fun c : UInt8 => 0x20 ≤ c.toNat ∧ c ≠ 34 ∧ c ≠ 92) s

/-- Hits and remaining seconds print in at most 24 digits. -/
def BanNode.PrintsShort (now : Int) (bn : BanNode) : Prop :=
  (decimal bn.hits).length + (decimal (bn.bannedUntil - now).toNat).length ≤ 24

theorem spells_of_jsonPlain {s : Bytes} (h : JsonPlain s) : Spells (codes s) (codes s) := by
  apply JsonText.spells_plain
  intro n hn
  obtain ⟨c, hc, rfl⟩ := List.mem_map.mp hn
  obtain ⟨hlow, hquote, hback⟩ := h c hc
  refine ⟨hlow, ?_, ?_⟩
  · intro heq
    exact hquote (UInt8.toNat_inj.mp heq)
  · intro heq
    exact hback (UInt8.toNat_inj.mp heq)

theorem jsonPlain_of_addrChar {c : UInt8} (h : isAddrChar c = true) :
    0x20 ≤ c.toNat ∧ c ≠ 34 ∧ c ≠ 92 := by
  refine ⟨?_, ?_, ?_⟩
  · unfold isAddrChar at h
    simp only [Bool.or_eq_true, Bool.and_eq_true, decide_eq_true_eq, beq_iff_eq] at h
    rcases h with ((h | h) | rfl) | rfl
    · omega
    · omega
    · decide
    · decide
  · intro heq
    subst heq
    revert h
    decide
  · intro heq
    subst heq
    revert h
    decide

/-- An address text needs no escape. -/
theorem NgxInetNtop.text_plain (N : NgxInetNtop) (family : AddrFamily) (addr : Bytes) :
    JsonPlain (N.text family addr) :=
  fun c hc => jsonPlain_of_addrChar (N.text_chars family addr c hc)

/-- No category name is long, and none needs an escape. -/
theorem catName_short : ∀ cat ∈ List.range shieldCatN,
    (catName cat).length ≤ 60 ∧ JsonPlain (catName cat) := by
  decide +kernel

/-! ## §6. The walks. -/

/-- The node behind the sentinel is the first one of the queue. -/
theorem Zone.Shape.queueHead {hash : Addr → Nat} {z : Zone} {ps : List Ptr} (h : z.Shape hash ps) :
    ngxQueueNext z none = .ok ps.head? := by
  have hread : z.Readable none := by
    intro q hq
    cases hq
  rw [ngxQueueNext_eq hread, h.spells.next_none]

/-- The node behind a queued node is the next one of the queue. -/
theorem Zone.Shape.queueNext {hash : Addr → Nat} {z : Zone} {xs ys : List Ptr} {p : Ptr}
    (h : z.Shape hash (xs ++ p :: ys)) : ngxQueueNext z (some p) = .ok ys.head? := by
  have hread : z.Readable (some p) := by
    apply h.readable
    intro q hq
    cases hq
    simp
  rw [ngxQueueNext_eq hread, h.spells.next_mem]

theorem countNodes_eq {hash : Addr → Nat} {z : Zone} {ys xs : List Ptr}
    (h : z.Shape hash (xs ++ ys)) {fuel : Nat} (hfuel : ys.length < fuel) (nodes : Nat) :
    countNodes z fuel ys.head? nodes = .ok (nodes + ys.length) := by
  induction ys generalizing xs fuel nodes with
  | nil =>
      obtain ⟨fuel, rfl⟩ := Nat.exists_eq_add_of_lt hfuel
      rfl
  | cons p ys ih =>
      rw [List.length_cons] at hfuel
      obtain ⟨fuel, rfl⟩ := Nat.exists_eq_add_one_of_ne_zero (show fuel ≠ 0 by omega)
      have hrest : z.Shape hash ((xs ++ [p]) ++ ys) := by
        rw [List.append_assoc]
        exact h
      show (do let q ← ngxQueueNext z (some p); countNodes z fuel q (nodes + 1)) = _
      rw [h.queueNext, ok_bind, ih hrest (by omega), List.length_cons]
      congr 1
      omega

/-- **Pass one** counts the nodes of the queue. -/
theorem banSnapshot_eq {hash : Addr → Nat} {z : Zone} {ps : List Ptr} (h : z.Shape hash ps)
    {fuel : Nat} (hfuel : ps.length < fuel) : banSnapshot z fuel = .ok (z.snapshot ps) := by
  have hcount := countNodes_eq (show z.Shape hash ([] ++ ps) from h) hfuel 0
  unfold banSnapshot
  rw [h.queueHead, ok_bind, hcount, ok_bind, Nat.zero_add]
  rfl

/-! ## §7. What is written. -/

/-- Rows with a comma in front of each, the first one aside. -/
def rows : Bool → List Bytes → Bytes
  | _, [] => []
  | first, row :: rs => separator first ++ row ++ rows false rs

/-- The row of a category. -/
def Snapshot.categoryRow (s : Snapshot) (cat : Nat) : Bytes :=
  (categoryFormat cat (s.hitsOf cat)).flatMap Format.render

/-- The row of a banned node. -/
def BanNode.row (N : NgxInetNtop) (now : Int) (bn : BanNode) : Bytes :=
  (Format.lit "\x7b\"addr\":\"").render ++ (N.text bn.family bn.addr
    ++ (entryFormat now bn).flatMap Format.render)

theorem rows_cons (first : Bool) (r : Bytes) (rs : List Bytes) :
    rows first (r :: rs) = separator first ++ r ++ rows false rs := rfl

theorem separator_length (first : Bool) : (separator first).length ≤ 1 := by
  cases first <;> decide

theorem rows_length_le {k : Nat} (rs : List Bytes) (h : ∀ r ∈ rs, r.length + 1 ≤ k) :
    ∀ first, (rows first rs).length ≤ rs.length * k := by
  induction rs with
  | nil =>
      intro first
      exact Nat.zero_le _
  | cons r rs ih =>
      intro first
      have hsep := separator_length first
      have hrow := h r List.mem_cons_self
      have hrest := ih (fun r' hr' => h r' (List.mem_cons_of_mem _ hr')) false
      rw [rows_cons, List.length_append, List.length_append, List.length_cons, Nat.succ_mul]
      omega

/-- A row behind other rows follows a comma. -/
theorem rows_false_cons (r : Bytes) (rs : List Bytes) :
    rows false (r :: rs) = 44 :: rows true (r :: rs) := rfl

theorem codes_rows (rs : List Bytes) : codes (rows true rs) = commas (rs.map codes) := by
  induction rs with
  | nil => rfl
  | cons r rs ih =>
      have hfirst : rows true (r :: rs) = r ++ rows false rs := rfl
      rw [hfirst, codes_append]
      cases rs with
      | nil =>
          rw [List.map_cons, List.map_nil]
          exact (List.append_nil _).trans List.intercalate_singleton.symm
      | cons r' rs =>
          rw [rows_false_cons, List.map_cons, List.map_cons, JsonText.commas_cons, ← List.map_cons,
            ← ih]
          rfl

/-- A format behind a separator renders as the separator and what the format renders as. -/
theorem flatMap_separator (first : Bool) (fmt : List Format) :
    (Format.str (separator first) :: fmt).flatMap Format.render
      = separator first ++ fmt.flatMap Format.render := rfl

/-- **The loop over the categories** writes their rows, where there is room. -/
theorem statusCategories_eq {cap : Nat} (s : Snapshot) (is : List Nat) :
    ∀ (first : Bool) (buf : Bytes), (∀ i ∈ is, i < banNcounters) →
    buf.length + (rows first (is.map s.categoryRow)).length ≤ cap →
      statusCategories cap s.catHits is first buf
        = .ok (buf ++ rows first (is.map s.categoryRow)) := by
  induction is with
  | nil =>
      intro first buf _ _
      exact congrArg Except.ok (List.append_nil buf).symm
  | cons i is ih =>
      intro first buf hbound hroom
      have hi : i < banNcounters := hbound i List.mem_cons_self
      have hhits : s.catHits[i].toNat = s.hitsOf i := by
        unfold Snapshot.hitsOf
        rw [Vector.getElem?_eq_getElem hi]
        rfl
      have hrow : (categoryFormat i (s.hitsOf i)).flatMap Format.render = s.categoryRow i := rfl
      rw [List.map_cons, rows_cons] at hroom ⊢
      rw [List.length_append, List.length_append] at hroom
      unfold statusCategories
      rw [dif_pos hi, hhits, ngxSlprintf_eq, flatMap_separator, hrow, ih]
      · simp only [List.append_assoc]
      · exact fun j hj => hbound j (List.mem_cons_of_mem _ hj)
      · rw [List.length_append, List.length_append]
        omega
      · rw [flatMap_separator, hrow, List.length_append]
        omega

theorem timeText_pos {t : Int} (h : 0 < t) : timeText t = (Format.ui t.toNat).render := by
  have habs : t.natAbs = t.toNat := by omega
  unfold timeText
  rw [if_neg (by omega), List.nil_append, habs]
  rfl

theorem render_ui_length_eq (n : Nat) : (Format.ui n).render.length = (decimal n).length :=
  List.length_map _

/-- **An entry is 94 bytes at most**, with the comma in front of it. -/
theorem BanNode.row_length {N : NgxInetNtop} {now : Int} {bn : BanNode}
    (hbanned : now < bn.bannedUntil) (hshort : bn.PrintsShort now) :
    (bn.row N now).length ≤ 93 := by
  have hlits : (Format.lit "\x7b\"addr\":\"").render.length = 9
      ∧ (Format.lit "\",\"hits\":").render.length = 9
      ∧ (Format.lit ",\"expires\":").render.length = 11
      ∧ (Format.lit "\x7d").render.length = 1 := by
    decide
  obtain ⟨haddr, hhits, hexpires, hend⟩ := hlits
  have htext := N.text_length bn.family bn.addr
  unfold BanNode.PrintsShort at hshort
  unfold BanNode.row entryFormat
  simp only [List.flatMap_cons, List.flatMap_nil, List.length_append, List.length_nil,
    Format.render_str, haddr, hhits, hexpires, hend, timeText_pos (Int.sub_pos_of_lt hbanned),
    render_ui_length_eq]
  omega

/-- **With 96 bytes left an entry is written whole.** -/
theorem statusEntry_eq {N : NgxInetNtop} {cap : Nat} {now : Int} {bn : BanNode}
    (hbanned : now < bn.bannedUntil) (hshort : bn.PrintsShort now) (first : Bool) {buf : Bytes}
    (hroom : buf.length + 96 ≤ cap) :
    statusEntry N cap now bn first buf = .ok (buf ++ separator first ++ bn.row N now) := by
  have hsep := separator_length first
  have hrow := BanNode.row_length (N := N) hbanned hshort
  have htext := N.text_length bn.family bn.addr
  have haddr : (Format.lit "\x7b\"addr\":\"").render.length = 9 := by decide
  have hopen : [.str (separator first), .lit "\x7b\"addr\":\""].flatMap Format.render
      = separator first ++ (Format.lit "\x7b\"addr\":\"").render := by
    rw [flatMap_separator, List.flatMap_singleton]
  unfold BanNode.row at hrow ⊢
  rw [List.length_append, List.length_append] at hrow
  unfold statusEntry
  rw [ngxSlprintf_eq (by rw [hopen, List.length_append]; omega), hopen]
  dsimp only
  rw [N.ntop_eq _ _ _ (by rw [List.length_append, List.length_append]; omega), if_neg,
    ngxSlprintf_eq]
  · simp only [List.append_assoc]
  · simp only [List.length_append]
    omega
  · simp only [List.length_append]
    omega

/-! ## §8. The ban list. -/

theorem Zone.bannedNodes_cons_banned {z : Zone} {now : Int} {p : Ptr} {bn : BanNode}
    (hbn : z.slab p = some bn) (hbanned : now < bn.bannedUntil) (ps : List Ptr) :
    z.bannedNodes now (p :: ps) = bn :: z.bannedNodes now ps := by
  unfold Zone.bannedNodes
  rw [List.filterMap_cons_some hbn, List.filter_cons, if_pos (decide_eq_true hbanned)]

theorem Zone.bannedNodes_cons_free {z : Zone} {now : Int} {p : Ptr} {bn : BanNode}
    (hbn : z.slab p = some bn) (hfree : bn.bannedUntil ≤ now) (ps : List Ptr) :
    z.bannedNodes now (p :: ps) = z.bannedNodes now ps := by
  have hnot : ¬ now < bn.bannedUntil := by omega
  unfold Zone.bannedNodes
  rw [List.filterMap_cons_some hbn, List.filter_cons, if_neg (by simpa using hnot)]

theorem Zone.bannedNodes_length_le (z : Zone) (now : Int) (ps : List Ptr) :
    (z.bannedNodes now ps).length ≤ ps.length :=
  Nat.le_trans (List.length_filter_le _ _) (List.length_filterMap_le _ _)

/-- What a walk over the nodes `ys` has to make of the buffer: it lists the first ones
that are banned, leaves two bytes, and lists them all where the buffer has 94 bytes for
each and these two. -/
def Lists (N : NgxInetNtop) (cap : Nat) (now : Int) (z : Zone) (ys : List Ptr) (first : Bool)
    (buf : Bytes) (x : Except Fault Bytes) : Prop :=
  ∃ listed, x = .ok (buf ++ rows first (listed.map (BanNode.row N now)))
    ∧ listed <+: z.bannedNodes now ys
    ∧ (buf ++ rows first (listed.map (BanNode.row N now))).length + 2 ≤ cap
    ∧ (buf.length + 94 * (z.bannedNodes now ys).length + 2 ≤ cap →
      listed = z.bannedNodes now ys)

section Lists

variable {N : NgxInetNtop} {cap : Nat} {now : Int} {z : Zone} {first : Bool} {buf : Bytes}

/-- The walk may stop where no node is banned, and where the buffer is full. -/
theorem Lists.stop {ys : List Ptr} (hroom : buf.length + 2 ≤ cap)
    (hstop : z.bannedNodes now ys ≠ [] → cap - buf.length < 96) :
    Lists N cap now z ys first buf (.ok buf) := by
  have hnone : buf ++ rows first [] = buf := List.append_nil buf
  refine ⟨[], congrArg Except.ok hnone.symm, List.nil_prefix, ?_, ?_⟩
  · rw [List.map_nil, hnone]
    exact hroom
  · intro hall
    by_contra hsome
    have hfull := hstop (Ne.symm hsome)
    have hpos := List.length_pos_iff.mpr (Ne.symm hsome)
    omega

/-- A node that is only counted is passed over. -/
theorem Lists.free {ys : List Ptr} {p : Ptr} {bn : BanNode} (hbn : z.slab p = some bn)
    (hfree : bn.bannedUntil ≤ now) {x : Except Fault Bytes} (h : Lists N cap now z ys first buf x) :
    Lists N cap now z (p :: ys) first buf x := by
  unfold Lists
  rw [Zone.bannedNodes_cons_free hbn hfree]
  exact h

/-- An entry, and then the walk over the nodes behind it. -/
theorem Lists.entry {ys : List Ptr} {p : Ptr} {bn : BanNode} (hbn : z.slab p = some bn)
    (hbanned : now < bn.bannedUntil) (hshort : bn.PrintsShort now) {x : Except Fault Bytes}
    (h : Lists N cap now z ys false (buf ++ separator first ++ bn.row N now) x) :
    Lists N cap now z (p :: ys) first buf x := by
  obtain ⟨listed, hwalk, hlisted, hleft, hall⟩ := h
  have hsep := separator_length first
  have hrow := BanNode.row_length (N := N) hbanned hshort
  have hrows : buf ++ rows first ((bn :: listed).map (BanNode.row N now))
      = buf ++ separator first ++ bn.row N now ++ rows false (listed.map (BanNode.row N now)) := by
    rw [List.map_cons, rows_cons]
    simp only [List.append_assoc]
  refine ⟨bn :: listed, ?_, ?_, ?_, ?_⟩
  · rw [hrows]
    exact hwalk
  · rw [Zone.bannedNodes_cons_banned hbn hbanned]
    exact List.cons_prefix_cons.mpr ⟨rfl, hlisted⟩
  · rw [hrows]
    exact hleft
  · rw [Zone.bannedNodes_cons_banned hbn hbanned, List.length_cons]
    intro hroom
    rw [hall (by simp only [List.length_append]; omega)]

end Lists

/-- **The walk lists the banned nodes up to some point.** -/
theorem statusBanned_lists {N : NgxInetNtop} {cap : Nat} {now : Int} {hash : Addr → Nat} {z : Zone}
    {ys xs : List Ptr} (h : z.Shape hash (xs ++ ys))
    (hshort : ∀ bn ∈ z.bannedNodes now ys, bn.PrintsShort now) {fuel : Nat}
    (hfuel : ys.length < fuel) (first : Bool) {buf : Bytes} (hroom : buf.length + 2 ≤ cap) :
    Lists N cap now z ys first buf (statusBanned N cap now z fuel ys.head? first buf) := by
  induction ys generalizing xs fuel first buf with
  | nil =>
      obtain ⟨fuel, rfl⟩ := Nat.exists_eq_add_of_lt hfuel
      apply Lists.stop hroom
      intro hsome
      exact absurd rfl hsome
  | cons p ys ih =>
      rw [List.length_cons] at hfuel
      obtain ⟨fuel, rfl⟩ := Nat.exists_eq_add_one_of_ne_zero (show fuel ≠ 0 by omega)
      have hrest : z.Shape hash ((xs ++ [p]) ++ ys) := by
        rw [List.append_assoc]
        exact h
      obtain ⟨bn, hbn, -⟩ := h.deref (show p ∈ xs ++ p :: ys by simp)
      rw [List.head?_cons]
      unfold statusBanned
      rw [Zone.deref_eq hbn, ok_bind]
      by_cases hfree : bn.bannedUntil ≤ now
      · -- counting, not banned
        rw [Zone.bannedNodes_cons_free hbn hfree] at hshort
        rw [if_pos hfree, h.queueNext, ok_bind]
        exact Lists.free hbn hfree (ih hrest hshort (by omega) first hroom)
      · have hbanned : now < bn.bannedUntil := by omega
        rw [Zone.bannedNodes_cons_banned hbn hbanned, List.forall_mem_cons] at hshort
        rw [if_neg hfree]
        by_cases hfull : cap - buf.length < 96
        · rw [if_pos hfull]
          exact Lists.stop hroom fun _ => hfull
        · have hsep := separator_length first
          have hrow := BanNode.row_length (N := N) hbanned hshort.1
          rw [if_neg hfull, statusEntry_eq hbanned hshort.1 first (by omega), ok_bind, h.queueNext,
            ok_bind]
          apply Lists.entry hbn hbanned hshort.1
          apply ih hrest hshort.2 (by omega) false
          simp only [List.length_append]
          omega

/-! ## §9. The document. -/

/-- A field of an object: its key, its value, and how the value is written. -/
abbrev Field := String × Value × Text

/-- How an object with these fields is written. -/
def fieldsText (fields : List Field) : Text :=
  123 :: (commas (fields.map fun f => 34 :: (codes (bytesOf f.1) ++ 34 :: 58 :: f.2.2)) ++ [125])

theorem written_fields (fields : List Field) (hkeys : ∀ f ∈ fields, JsonPlain (bytesOf f.1))
    (hvalues : ∀ f ∈ fields, Written f.2.1 f.2.2) :
    Written (.obj (fields.map fun f => (codes (bytesOf f.1), f.2.1))) (fieldsText fields) :=
  JsonText.written_object fields
    (fun f => ⟨codes (bytesOf f.1), codes (bytesOf f.1), f.2.1, f.2.2⟩)
    (fun f hf => spells_of_jsonPlain (hkeys f hf)) hvalues

/-- The fields of an entry. -/
def BanNode.fields (N : NgxInetNtop) (now : Int) (bn : BanNode) : List Field :=
  [("addr", .str (codes (N.text bn.family bn.addr)),
      34 :: (codes (N.text bn.family bn.addr) ++ [34])),
    ("hits", .num bn.hits 0, decimal bn.hits),
    ("expires", .num (bn.bannedUntil - now).toNat 0, decimal (bn.bannedUntil - now).toNat)]

theorem BanNode.codes_row {N : NgxInetNtop} {now : Int} {bn : BanNode}
    (hbanned : now < bn.bannedUntil) : codes (bn.row N now) = fieldsText (bn.fields N now) := by
  have hlits : codes (Format.lit "\x7b\"addr\":\"").render
        = 123 :: 34 :: (codes (bytesOf "addr") ++ [34, 58, 34])
      ∧ codes (Format.lit "\",\"hits\":").render
        = 34 :: 44 :: 34 :: (codes (bytesOf "hits") ++ [34, 58])
      ∧ codes (Format.lit ",\"expires\":").render
        = 44 :: 34 :: (codes (bytesOf "expires") ++ [34, 58])
      ∧ codes (Format.lit "\x7d").render = [125] := by
    decide
  obtain ⟨haddr, hhits, hexpires, hend⟩ := hlits
  unfold BanNode.row entryFormat fieldsText BanNode.fields
  simp only [List.flatMap_cons, List.flatMap_nil, List.append_nil, codes_append, codes_ui,
    Format.render_str, timeText_pos (Int.sub_pos_of_lt hbanned), haddr, hhits, hexpires, hend,
    List.map_cons, List.map_nil, JsonText.commas_cons, JsonText.commas_singleton, List.cons_append,
    List.append_assoc, List.nil_append]

/-- **A row of the ban list is its entry.** -/
theorem BanNode.written {N : NgxInetNtop} {now : Int} {bn : BanNode}
    (hbanned : now < bn.bannedUntil) : Written (bn.statusValue N now) (codes (bn.row N now)) := by
  have h := written_fields (bn.fields N now) (by
      simp only [BanNode.fields, List.forall_mem_cons, List.not_mem_nil, false_implies,
        implies_true, and_true]
      decide) (by
      simp only [BanNode.fields, List.forall_mem_cons, List.not_mem_nil, false_implies,
        implies_true, and_true]
      exact ⟨.str (spells_of_jsonPlain (N.text_plain _ _)), .nat _, .nat _⟩)
  have hpos : ((bn.bannedUntil - now).toNat : Int) = bn.bannedUntil - now :=
    Int.toNat_of_nonneg (by omega)
  have hvalue : bn.statusValue N now
      = .obj ((bn.fields N now).map fun f => (codes (bytesOf f.1), f.2.1)) := by
    unfold BanNode.statusValue BanNode.fields
    simp only [List.map_cons, List.map_nil, hpos]
  rw [BanNode.codes_row hbanned, hvalue]
  exact h

/-- A category in the document. -/
def Snapshot.categoryMember (s : Snapshot) (cat : Nat) : Member where
  key := codes (catName cat)
  keyText := codes (catName cat)
  value := .num (s.hitsOf cat) 0
  valueText := decimal (s.hitsOf cat)

theorem Snapshot.codes_categoryRow (s : Snapshot) (cat : Nat) :
    codes (s.categoryRow cat) = (s.categoryMember cat).text := by
  have hquote : codes (Format.lit "\"").render = [34] := by decide
  have hcolon : codes (Format.lit "\":").render = [34, 58] := by decide
  unfold Snapshot.categoryRow categoryFormat Member.text Snapshot.categoryMember
  simp only [List.flatMap_cons, List.flatMap_nil, List.append_nil, codes_append, codes_ui,
    Format.render_str, hquote, hcolon, List.cons_append, List.nil_append]

/-- The categories, with their counters. -/
def Snapshot.categories (s : Snapshot) : List (Text × Value) :=
  (List.range shieldCatN).map fun cat => (codes (catName cat), .num (s.hitsOf cat) 0)

/-- The rows of the categories are the members of their object. -/
theorem Snapshot.written_categories (s : Snapshot) : Written (.obj s.categories)
    (123 :: (codes (rows true ((List.range shieldCatN).map s.categoryRow)) ++ [125])) := by
  have hrows : ((List.range shieldCatN).map s.categoryRow).map codes
      = (List.range shieldCatN).map fun cat => (s.categoryMember cat).text := by
    rw [List.map_map]
    exact List.map_congr_left fun cat _ => s.codes_categoryRow cat
  rw [codes_rows, hrows]
  exact JsonText.written_object (List.range shieldCatN) s.categoryMember
    (fun cat hcat => spells_of_jsonPlain (catName_short cat hcat).2) (fun cat _ => .nat _)

/-- The rows of the ban list are the elements of its array. -/
theorem written_banned {N : NgxInetNtop} {now : Int} (listed : List BanNode)
    (hbanned : ∀ bn ∈ listed, now < bn.bannedUntil) :
    Written (.arr (listed.map (BanNode.statusValue N now)))
      (91 :: (codes (rows true (listed.map (BanNode.row N now))) ++ [93])) := by
  rw [codes_rows, List.map_map]
  exact JsonText.written_array listed (BanNode.statusValue N now)
    (fun bn => codes (bn.row N now)) (fun bn hbn => BanNode.written (hbanned bn hbn))

/-- The fields of the document. -/
def Snapshot.fields (N : NgxInetNtop) (name : Bytes) (now : Int) (s : Snapshot)
    (listed : List BanNode) : List Field :=
  [("zone", .str (codes name), 34 :: (codes name ++ [34])),
    ("nodes", .num s.nodes 0, decimal s.nodes),
    ("blocked", .num s.blocked.toNat 0, decimal s.blocked.toNat),
    ("bans", .num s.bans.toNat 0, decimal s.bans.toNat),
    ("categories", .obj s.categories,
      123 :: (codes (rows true ((List.range shieldCatN).map s.categoryRow)) ++ [125])),
    ("banned", .arr (listed.map (BanNode.statusValue N now)),
      91 :: (codes (rows true (listed.map (BanNode.row N now))) ++ [93]))]

/-- The document up to the ban list. -/
def Snapshot.front (name : Bytes) (s : Snapshot) : Bytes :=
  (statusHead name s).flatMap Format.render
    ++ rows true ((List.range shieldCatN).map s.categoryRow)
    ++ (Format.lit "\x7d,\"banned\":[").render

theorem Snapshot.codes_document {N : NgxInetNtop} (name : Bytes) (now : Int) (s : Snapshot)
    (listed : List BanNode) :
    codes (s.front name ++ rows true (listed.map (BanNode.row N now))
        ++ (Format.lit "]\x7d").render)
      = fieldsText (s.fields N name now listed) := by
  have hlits : codes (Format.lit "\x7b\"zone\":\"").render
        = 123 :: 34 :: (codes (bytesOf "zone") ++ [34, 58, 34])
      ∧ codes (Format.lit "\",\"nodes\":").render
        = 34 :: 44 :: 34 :: (codes (bytesOf "nodes") ++ [34, 58])
      ∧ codes (Format.lit ",\"blocked\":").render
        = 44 :: 34 :: (codes (bytesOf "blocked") ++ [34, 58])
      ∧ codes (Format.lit ",\"bans\":").render = 44 :: 34 :: (codes (bytesOf "bans") ++ [34, 58])
      ∧ codes (Format.lit ",\"categories\":\x7b").render
        = 44 :: 34 :: (codes (bytesOf "categories") ++ [34, 58, 123])
      ∧ codes (Format.lit "\x7d,\"banned\":[").render
        = 125 :: 44 :: 34 :: (codes (bytesOf "banned") ++ [34, 58, 91])
      ∧ codes (Format.lit "]\x7d").render = [93, 125] := by
    decide
  obtain ⟨hzone, hnodes, hblocked, hbans, hcategories, hbanned, hend⟩ := hlits
  unfold Snapshot.front statusHead fieldsText Snapshot.fields
  simp only [List.flatMap_cons, List.flatMap_nil, List.append_nil, codes_append, codes_ui,
    Format.render_str, hzone, hnodes, hblocked, hbans, hcategories, hbanned, hend, List.map_cons,
    List.map_nil, JsonText.commas_cons, JsonText.commas_singleton, List.cons_append,
    List.append_assoc, List.nil_append]

/-- **The document is its value.** -/
theorem Snapshot.loads_document {N : NgxInetNtop} {name : Bytes} (hname : JsonPlain name)
    {now : Int} (s : Snapshot) (listed : List BanNode)
    (hbanned : ∀ bn ∈ listed, now < bn.bannedUntil) :
    loads (codes (s.front name ++ rows true (listed.map (BanNode.row N now))
      ++ (Format.lit "]\x7d").render)) = some (s.statusValue N name now listed) := by
  have h := written_fields (s.fields N name now listed) (by
      simp only [Snapshot.fields, List.forall_mem_cons, List.not_mem_nil, false_implies,
        implies_true, and_true]
      decide) (by
      simp only [Snapshot.fields, List.forall_mem_cons, List.not_mem_nil, false_implies,
        implies_true, and_true]
      exact ⟨.str (spells_of_jsonPlain hname), .nat _, .nat _, .nat _, s.written_categories,
        written_banned listed hbanned⟩)
  have hloads := @Written.loads _ _ [] h (by simp)
  rw [List.append_nil] at hloads
  rw [s.codes_document name now listed, hloads]
  rfl

/-! ## §10. The size of the document. -/

/-- **The fixed part and 95 bytes a node fit the buffer**, with two to spare. -/
theorem Snapshot.front_length (name : Bytes) (s : Snapshot) :
    (s.front name).length + 95 * s.nodes + 2 ≤ statusSize name s.nodes := by
  have hnodes := JsonText.decimal_length_le_succ s.nodes
  have hblocked := @JsonText.decimal_length_le s.blocked.toNat 20
    (Nat.lt_trans s.blocked.toNat_lt (by decide)) (by decide)
  have hbans := @JsonText.decimal_length_le s.bans.toNat 20
    (Nat.lt_trans s.bans.toNat_lt (by decide)) (by decide)
  have hlits : (Format.lit "\x7b\"zone\":\"").render.length = 9
      ∧ (Format.lit "\",\"nodes\":").render.length = 10
      ∧ (Format.lit ",\"blocked\":").render.length = 11
      ∧ (Format.lit ",\"bans\":").render.length = 8
      ∧ (Format.lit ",\"categories\":\x7b").render.length = 15
      ∧ (Format.lit "\x7d,\"banned\":[").render.length = 12 := by
    decide
  obtain ⟨hzone, hnode, hblock, hban, hcategories, hbanned⟩ := hlits
  have hsize : statusSize name s.nodes
      = 67 + 1 + name.length + 3 * 20 + 30 * (64 + 20) + s.nodes * 96 := rfl
  -- a category is 84 bytes at most: its name, its count, and four bytes around them
  have hrow : ∀ r ∈ (List.range shieldCatN).map s.categoryRow, r.length + 1 ≤ 84 := by
    intro r hr
    obtain ⟨cat, hcat, rfl⟩ := List.mem_map.mp hr
    have hquote : (Format.lit "\"").render.length = 1 := by decide
    have hcolon : (Format.lit "\":").render.length = 2 := by decide
    have hname := (catName_short cat hcat).1
    have hhits := @JsonText.decimal_length_le (s.hitsOf cat) 20
      (Nat.lt_trans (UInt64.toNat_lt _) (by decide)) (by decide)
    unfold Snapshot.categoryRow categoryFormat
    simp only [List.flatMap_cons, List.flatMap_nil, List.length_append, List.length_nil,
      Format.render_str, hquote, hcolon, render_ui_length_eq]
    omega
  have hrows := rows_length_le _ hrow true
  have hcount : ((List.range shieldCatN).map s.categoryRow).length = 30 := by
    rw [List.length_map, List.length_range]
    rfl
  rw [hcount] at hrows
  rw [hsize]
  unfold Snapshot.front statusHead
  simp only [List.flatMap_cons, List.flatMap_nil, List.length_append, List.length_nil,
    Format.render_str, hzone, hnode, hblock, hban, hcategories, hbanned, render_ui_length_eq]
  omega

/-- **The document is rendered** around what the walk writes. -/
theorem renderStatus_eq {N : NgxInetNtop} {fuel : Nat} {name : Bytes} {now : Int}
    {hash : Addr → Nat} (s : Snapshot) {z : Zone} {ps : List Ptr} (h : z.Shape hash ps) {buf : Bytes}
    (hwalk : statusBanned N (statusSize name s.nodes) now z fuel ps.head? true (s.front name)
      = .ok buf) (hleft : buf.length + 2 ≤ statusSize name s.nodes) :
    renderStatus N fuel name now s z = .ok (buf ++ bytesOf "]\x7d") := by
  have hroom := s.front_length name
  have hmid : ([.lit "\x7d,\"banned\":["] : List Format).flatMap Format.render
      = (Format.lit "\x7d,\"banned\":[").render := List.flatMap_singleton _ _
  have hend : ([.lit "]\x7d"] : List Format).flatMap Format.render = bytesOf "]\x7d" := rfl
  have hendlen : (bytesOf "]\x7d").length = 2 := by decide
  have hfront : s.front name
      = (statusHead name s).flatMap Format.render
      ++ rows true ((List.range shieldCatN).map s.categoryRow)
      ++ (Format.lit "\x7d,\"banned\":[").render := rfl
  have hlen := congrArg List.length hfront
  simp only [List.length_append] at hlen
  have hbound : ∀ i ∈ List.range shieldCatN, i < banNcounters := by decide
  unfold renderStatus
  dsimp only
  rw [ngxSlprintf_eq (by rw [List.length_nil]; omega), List.nil_append,
    statusCategories_eq _ _ true _ hbound (by omega), ok_bind,
    ngxSlprintf_eq (by rw [hmid]; simp only [List.length_append]; omega), hmid, ← hfront,
    h.queueHead, ok_bind, hwalk, ok_bind, ngxSlprintf_eq (by rw [hend, hendlen]; exact hleft), hend,
    pure_eq_ok]

/-- **The status document is always complete JSON.**  Whatever the zone is under the
first lock and under the second, and whatever its counters: with banned nodes that
print in 24 digits the document is rendered without a fault, in the buffer allocated for
it; it is one JSON value and ends in `]}`; it lists the first banned nodes of the
second state, in the order of the queue, and all of them where that state has no more
nodes than the first had.  The handler sends this document or none. -/
theorem renderStatus_complete (N : NgxInetNtop) {name : Bytes} (hname : JsonPlain name) (now : Int)
    {hash : Addr → Nat} {z₁ z₂ : Zone} {ps₁ ps₂ : List Ptr} (h₁ : z₁.Shape hash ps₁)
    (h₂ : z₂.Shape hash ps₂) (hshort : ∀ bn ∈ z₂.bannedNodes now ps₂, bn.PrintsShort now)
    {fuel : Nat} (hfuel₁ : ps₁.length < fuel) (hfuel₂ : ps₂.length < fuel) :
    ∃ doc listed front, banSnapshot z₁ fuel = .ok (z₁.snapshot ps₁)
      ∧ renderStatus N fuel name now (z₁.snapshot ps₁) z₂ = .ok doc
      ∧ doc.length ≤ statusSize name ps₁.length
      ∧ loads (codes doc) = some ((z₁.snapshot ps₁).statusValue N name now listed)
      ∧ doc = front ++ bytesOf "]\x7d"
      ∧ listed <+: z₂.bannedNodes now ps₂
      ∧ (ps₂.length ≤ ps₁.length → listed = z₂.bannedNodes now ps₂)
      ∧ ∀ r : StatusRequest, r.zones = some (z₁, z₂) → r.now = now →
        ∃ reply, banStatusHandler N fuel name r = .ok reply ∧ ∀ body, reply.body = some body →
          body = doc ∧ reply.contentLength = some doc.length := by
  have hsnapshot := banSnapshot_eq h₁ hfuel₁
  have hroom := (z₁.snapshot ps₁).front_length name
  have hnodes : (z₁.snapshot ps₁).nodes = ps₁.length := rfl
  obtain ⟨listed, hwalk, hlisted, hleft, hall⟩ :=
    statusBanned_lists (N := N) (show z₂.Shape hash ([] ++ ps₂) from h₂) hshort hfuel₂ true
      (show ((z₁.snapshot ps₁).front name).length + 2
        ≤ statusSize name (z₁.snapshot ps₁).nodes by omega)
  -- The buffer is sized for all nodes of the snapshot; nodes that came since may not fit.
  have hdoc := renderStatus_eq _ h₂ hwalk hleft
  have hbanned : ∀ bn ∈ listed, now < bn.bannedUntil := by
    intro bn hbn
    have hmem := hlisted.subset hbn
    unfold Zone.bannedNodes at hmem
    exact of_decide_eq_true (List.mem_filter.mp hmem).2
  have hbannedLe := z₂.bannedNodes_length_le now ps₂
  refine ⟨_, listed, _, hsnapshot, hdoc, ?_, ?_, rfl, hlisted, ?_, ?_⟩
  · have hendlen : (bytesOf "]\x7d").length = 2 := by decide
    rw [List.length_append, hendlen]
    exact hleft
  · exact (z₁.snapshot ps₁).loads_document hname listed hbanned
  · intro hle
    apply hall
    have hmul : 94 * (z₂.bannedNodes now ps₂).length ≤ 94 * ps₁.length :=
      Nat.mul_le_mul_left 94 (Nat.le_trans hbannedLe hle)
    omega
  · intro r hzones hnow
    subst hnow
    unfold banStatusHandler
    rw [hzones]
    dsimp only
    rw [hsnapshot, ok_bind, hdoc]
    split_ifs
    all_goals exact ⟨_, rfl, by simp [StatusReply.code]⟩

/-! ## §11. A zone with one client. -/

/-- A byte in decimal. -/
def decimalByte (b : UInt8) : Bytes := (decimal b.toNat).map .ofNat

theorem decimalByte_digits (b : UInt8) : (decimalByte b).length ≤ 3
    ∧ ∀ c ∈ decimalByte b, isAddrChar c = true := by
  have hlt := b.toNat_lt
  constructor
  · unfold decimalByte
    rw [List.length_map]
    exact JsonText.decimal_length_le (by omega) (by omega)
  · intro c hc
    obtain ⟨d, hd, rfl⟩ := List.mem_map.mp hc
    have hdigit := JsonText.decimal_isDigit b.toNat d hd
    unfold JsonText.isDigit at hdigit
    have hrange : 48 ≤ d ∧ d ≤ 57 := by simpa using hdigit
    -- a digit is one byte
    have hval : (UInt8.ofNat d).toNat = d := by
      rw [UInt8.toNat_ofNat']
      omega
    show isAddrChar (.ofNat d) = true
    unfold isAddrChar
    rw [hval]
    simp [hrange]

/-- The dotted form of an IPv4 address. -/
def dottedText : AddrFamily → Bytes → Bytes
  | .inet, [a, b, c, d] =>
      decimalByte a ++ 46 :: (decimalByte b ++ 46 :: (decimalByte c ++ 46 :: decimalByte d))
  | _, _ => []

/-- The dotted form of an address has at most 39 characters, all of them digits and points. -/
theorem dottedText_bounds (family : AddrFamily) (addr : Bytes) :
    (dottedText family addr).length ≤ 39 ∧ ∀ c ∈ dottedText family addr, isAddrChar c = true := by
  have hpoint : isAddrChar 46 = true := rfl
  unfold dottedText
  split
  · rename_i a b c d
    have ha := decimalByte_digits a
    have hb := decimalByte_digits b
    have hc := decimalByte_digits c
    have hd := decimalByte_digits d
    constructor
    · simp only [List.length_append, List.length_cons]
      omega
    · simp only [List.forall_mem_append, List.forall_mem_cons]
      exact ⟨ha.2, hpoint, hb.2, hpoint, hc.2, hpoint, hd.2⟩
  · exact ⟨Nat.zero_le _, by simp⟩

/-- `ngx_inet_ntop` on IPv4 addresses. -/
def NgxInetNtop.dotted : NgxInetNtop where
  ntop family addr room := (dottedText family addr).take room
  text := dottedText
  ntop_eq := by
    intro family addr room hroom
    have hlen := (dottedText_bounds family addr).1
    exact List.take_of_length_le (by omega)
  text_length := fun family addr => (dottedText_bounds family addr).1
  text_chars := fun family addr => (dottedText_bounds family addr).2

/-- The node of `127.0.0.1`. -/
def localClient (bannedUntil : Int) (hits : Nat) : BanNode where
  windowStart := 90
  bannedUntil := bannedUntil
  hits := hits
  key := 0
  len := 4
  addr := [127, 0, 0, 1]
  queue := { prev := none, next := none }

/-- A zone that tracks this client alone. -/
def oneClient (bannedUntil : Int) (hits : Nat) : Zone where
  sh :=
    { rbtree := .node .sentinel .black 1 .sentinel
      queue := { prev := some 1, next := some 1 }
      catHits := Vector.replicate banNcounters 0
      blocked := 2
      bans := 1
      cursor := none }
  slab := fun p => if p = 1 then some (localClient bannedUntil hits) else none

theorem oneClient_shape (bannedUntil : Int) (hits : Nat) :
    (oneClient bannedUntil hits).Shape oneBucket [1] where
  spells := by
    intro xs ys hsplit
    cases xs with
    | nil =>
        obtain rfl : ys = [1] := hsplit.symm
        exact ⟨rfl, rfl⟩
    | cons x xs =>
        obtain ⟨rfl, hrest⟩ := List.cons.inj hsplit
        obtain ⟨rfl, rfl⟩ := List.append_eq_nil_iff.mp hrest.symm
        exact ⟨rfl, rfl⟩
  nodup := by simp
  tree := List.Perm.refl [1]
  live := by simp [oneClient]
  holds := by
    intro p bn hbn
    obtain ⟨-, rfl⟩ : p = 1 ∧ localClient bannedUntil hits = bn := by simpa [oneClient] using hbn
    exact ⟨rfl, rfl⟩
  sorted := List.pairwise_singleton _ _

/-- The client is banned between the two locks, and listed. -/
theorem renderStatus_complete_banned :
    ∃ doc, renderStatus .dotted 9 (bytesOf "shield20") 100 ((oneClient 0 1).snapshot [1])
        (oneClient 130 2) = .ok doc
      ∧ loads (codes doc) = some (((oneClient 0 1).snapshot [1]).statusValue .dotted
        (bytesOf "shield20") 100 [localClient 130 2])
      ∧ (localClient 130 2).statusValue .dotted 100
        = .obj [(codes (bytesOf "addr"), .str (codes (bytesOf "127.0.0.1"))),
          (codes (bytesOf "hits"), .num 2 0), (codes (bytesOf "expires"), .num 30 0)] := by
  have hlist : (oneClient 130 2).bannedNodes 100 [1] = [localClient 130 2] := by decide
  have hshort : ∀ bn ∈ (oneClient 130 2).bannedNodes 100 [1], bn.PrintsShort 100 := by
    rw [hlist]
    intro bn hbn
    obtain rfl := List.mem_singleton.mp hbn
    show (decimal 2).length + (decimal 30).length ≤ 24
    decide
  obtain ⟨doc, listed, front, -, hrender, -, hloads, -, -, hall, -⟩ :=
    @renderStatus_complete .dotted (bytesOf "shield20") (by decide) 100 oneBucket _ _ [1] [1]
      (oneClient_shape 0 1) (oneClient_shape 130 2) hshort 9 (by decide) (by decide)
  rw [hall (Nat.le_refl _), hlist] at hloads
  have htext : dottedText (localClient 130 2).family [127, 0, 0, 1] = bytesOf "127.0.0.1" := by
    decide
  refine ⟨doc, hrender, hloads, ?_⟩
  show Value.obj
    [(_, .str (codes (dottedText (localClient 130 2).family [127, 0, 0, 1]))), _, _] = _
  rw [htext]
  rfl

end HttpShield
