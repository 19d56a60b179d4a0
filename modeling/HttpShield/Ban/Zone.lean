/-
  HttpShield.Ban.Zone
  ───────────────────
  `ngx_http_shield_ban.c`: the shared-memory ban zone at pointer level.

  A zone is a slab of ban nodes, the red-black tree over them, and the LRU
  queue threaded through the nodes by raw `prev`/`next` links.  Freed memory
  keeps nothing: reading through a freed pointer is `Fault.useAfterFree`, so
  "never follows a freed node" is the statement that a call returns `.ok`.
  Fresh slab memory is NOT zeroed — the allocator hands out arbitrary contents,
  links included.

  What is nginx's own code comes in as a parameter: `NgxRbtree` (rebalancing
  and deletion, known only to keep the in-order sequence) and `SlabAlloc` (the
  choice of a free block, or failure).
-/
import HttpShield.Nginx
import HttpShield.Lib.SearchTree
import HttpShield.Lib.LinkedQueue

namespace HttpShield

open SearchTree LinkedQueue

/-! ## §1. Data layout. -/

/-- A slab block, and with it the rbtree node that starts there. -/
abbrev Ptr := Nat

/-- An `ngx_queue_t *`; `none` is `&sh->queue`, the head embedded in shctx. -/
abbrev QueuePtr := Option Ptr

/-- `ngx_queue_t`. -/
structure NgxQueue where
  prev : QueuePtr
  next : QueuePtr
  deriving Repr, DecidableEq

/-- A client address: 4 bytes for IPv4, 16 for IPv6, never more than the node's
`addr[16]` holds. -/
structure Addr where
  bytes : Bytes
  fits : bytes.length ≤ 16
  deriving Repr, DecidableEq

/-- The counting state of one address. -/
structure Entry where
  /-- Start of the current hit-counting window. -/
  windowStart : Int
  /-- `0` = not banned; else the ban's expiry. -/
  bannedUntil : Int
  /-- Hits seen in the current window. -/
  hits : Nat
  deriving Repr, DecidableEq

/-- `ngx_http_shield_ban_node_t` with the `key` of the rbtree node it overlays
(the `color` byte it aliases is kept in the tree). -/
structure BanNode extends Entry where
  /-- `ngx_rbtree_node_t.key`: the hash of the address. -/
  key : Nat
  len : Nat
  addr : Bytes
  queue : NgxQueue
  deriving Repr, DecidableEq

/-- `NGX_HTTP_SHIELD_BAN_NCOUNTERS`. -/
def banNcounters : Nat := 64

/-- `ngx_http_shield_ban_shctx_t`. -/
structure Shctx where
  rbtree : RbTree Ptr
  /-- The LRU list head over all ban nodes. -/
  queue : NgxQueue
  catHits : Vector UInt64 banNcounters
  blocked : UInt64
  bans : UInt64
  /-- Where the next `banExpire` starts its walk. -/
  cursor : QueuePtr
  deriving Repr, DecidableEq

/-- The shared segment: the context and the live blocks of its slab pool. -/
structure Zone where
  sh : Shctx
  slab : Ptr → Option BanNode

/-! ## §2. Memory.

Blocks are read and written through the slab only.  Touching one that is not in use is a
fault, so that a use after free would show. -/

/-- Read a node. -/
def Zone.deref (z : Zone) (p : Ptr) : Except Fault BanNode :=
  match z.slab p with
  | some bn => .ok bn
  | none => .error .useAfterFree

/-- Write a node. -/
def Zone.store (z : Zone) (p : Ptr) (bn : BanNode) : Except Fault Zone := do
  let _ ← z.deref p
  return { z with slab := Function.update z.slab p (some bn) }

/-- `ngx_slab_free_locked`. -/
def slabFree (z : Zone) (p : Ptr) : Except Fault Zone := do
  let _ ← z.deref p
  return { z with slab := Function.update z.slab p none }

/-- One `ngx_slab_alloc_locked` call, as the pool behaves on it: it fails, or
it hands out a block that is not in use, with whatever the block last held. -/
structure SlabAlloc where
  pick : (Ptr → Option BanNode) → Option (Ptr × BanNode)
  fresh : ∀ slab p bn, pick slab = some (p, bn) → slab p = none

/-- A pool with one particular block to give, while it is free. -/
def SlabAlloc.block (p : Ptr) (junk : BanNode) : SlabAlloc where
  pick slab := if slab p = none then some (p, junk) else none
  fresh := by
    intro slab p' bn h
    split at h
    · rename_i hfree
      obtain ⟨rfl, rfl⟩ : p = p' ∧ junk = bn := by simpa using h
      exact hfree
    · cases h

/-- `ngx_slab_alloc_locked`. -/
def slabAlloc (alloc : SlabAlloc) (z : Zone) : Option (Zone × Ptr) :=
  match alloc.pick z.slab with
  | none => none
  | some (p, junk) => some ({ z with slab := Function.update z.slab p (some junk) }, p)

/-! ## §3. `ngx_queue_t`. -/

/-- `ngx_queue_next`. -/
def ngxQueueNext (z : Zone) : QueuePtr → Except Fault QueuePtr
  | none => .ok z.sh.queue.next
  | some p => do return (← z.deref p).queue.next

/-- `ngx_queue_prev`. -/
def ngxQueuePrev (z : Zone) : QueuePtr → Except Fault QueuePtr
  | none => .ok z.sh.queue.prev
  | some p => do return (← z.deref p).queue.prev

/-- `q->next = v`. -/
def ngxQueueSetNext (z : Zone) : QueuePtr → QueuePtr → Except Fault Zone
  | none, v => .ok { z with sh := { z.sh with queue := { z.sh.queue with next := v } } }
  | some p, v => do
      let bn ← z.deref p
      z.store p { bn with queue := { bn.queue with next := v } }

/-- `q->prev = v`. -/
def ngxQueueSetPrev (z : Zone) : QueuePtr → QueuePtr → Except Fault Zone
  | none, v => .ok { z with sh := { z.sh with queue := { z.sh.queue with prev := v } } }
  | some p, v => do
      let bn ← z.deref p
      z.store p { bn with queue := { bn.queue with prev := v } }

/-- `ngx_queue_remove(x)`: `x->next->prev = x->prev; x->prev->next = x->next`. -/
def ngxQueueRemove (z : Zone) (x : Ptr) : Except Fault Zone := do
  let next ← ngxQueueNext z (some x)
  let prev ← ngxQueuePrev z (some x)
  let z ← ngxQueueSetPrev z next prev
  ngxQueueSetNext z prev next

/-- `ngx_queue_insert_head(&sh->queue, x)`: `x->next = h->next;
x->next->prev = x; x->prev = h; h->next = x`. -/
def ngxQueueInsertHead (z : Zone) (x : Ptr) : Except Fault Zone := do
  let first ← ngxQueueNext z none
  let z ← ngxQueueSetNext z (some x) first
  let z ← ngxQueueSetPrev z first (some x)
  let z ← ngxQueueSetPrev z (some x) none
  ngxQueueSetNext z none (some x)

/-- `ngx_queue_last(&sh->queue)`. -/
def ngxQueueLast (z : Zone) : Except Fault QueuePtr := ngxQueuePrev z none

/-! ## §4. `ngx_rbtree_t`. -/

/-- The part of nginx's red-black tree this module relies on: rebalancing keeps
the in-order sequence, deletion takes exactly the given node out of it. -/
structure NgxRbtree where
  rebalance : RbTree Ptr → RbTree Ptr
  inorder_rebalance : ∀ t, (rebalance t).inorder = t.inorder
  delete : RbTree Ptr → Ptr → RbTree Ptr
  inorder_delete : ∀ t p, (delete t p).inorder = t.inorder.erase p

/-- A tree that never rebalances keeps the in-order sequence, too. -/
def NgxRbtree.plain : NgxRbtree where
  rebalance t := t
  inorder_rebalance _ := rfl
  delete := RbTree.remove
  inorder_delete := RbTree.inorder_remove

/-- `ngx_http_shield_ban_rbtree_insert`: walk down from `temp` comparing the
hash, then the length, then the address bytes, and hang `node` there in red. -/
def banRbtreeInsert (z : Zone) (node : Ptr) : RbTree Ptr → Except Fault (RbTree Ptr)
  | .sentinel => .ok (.node .sentinel .red node .sentinel)
  | .node left color temp right => do
      let bn ← z.deref node
      let bnt ← z.deref temp
      if bn.key < bnt.key then
        return .node (← banRbtreeInsert z node left) color temp right
      else if bn.key > bnt.key then
        return .node left color temp (← banRbtreeInsert z node right)
      -- hash collision: order by the stored address bytes
      else if bn.len < bnt.len
          ∨ (bn.len = bnt.len ∧ ngxMemcmp bn.addr bnt.addr bn.len < 0) then
        return .node (← banRbtreeInsert z node left) color temp right
      else
        return .node left color temp (← banRbtreeInsert z node right)

/-- `ngx_rbtree_insert`. -/
def ngxRbtreeInsert (T : NgxRbtree) (z : Zone) (node : Ptr) : Except Fault Zone := do
  let t ← banRbtreeInsert z node z.sh.rbtree
  return { z with sh := { z.sh with rbtree := T.rebalance t } }

/-- `ngx_rbtree_delete`. -/
def ngxRbtreeDelete (T : NgxRbtree) (z : Zone) (node : Ptr) : Except Fault Zone := do
  let _ ← z.deref node
  return { z with sh := { z.sh with rbtree := T.delete z.sh.rbtree node } }

/-! ## §5. The ban engine. -/

/-- `ngx_http_shield_time_add_clamp`: `now + delta`, saturating at the largest
`time_t`. -/
def timeAddClamp (now delta : Int) : Int :=
  if delta > timeMax - now then timeMax else now + delta

/-- The tree walk of `ngx_http_shield_ban_lookup`. -/
def banFind (z : Zone) (hash : Nat) (addr : Bytes) : RbTree Ptr → Except Fault (Option Ptr)
  | .sentinel => .ok none
  | .node left _ node right => do
      let bn ← z.deref node
      if hash < bn.key then banFind z hash addr left
      else if hash > bn.key then banFind z hash addr right
      else
        -- hash == node->key: resolve exactly on the stored address
        let rc : Int := (addr.length : Int) - (bn.len : Int)
        let rc : Int := if rc = 0 then ngxMemcmp addr bn.addr addr.length else rc
        if rc = 0 then return some node
        else if rc < 0 then banFind z hash addr left
        else banFind z hash addr right

/-- `ngx_http_shield_ban_lookup`: find the node of this address and move it to
the LRU head. -/
def banLookup (z : Zone) (hash : Nat) (addr : Bytes) : Except Fault (Zone × Option Ptr) := do
  match ← banFind z hash addr z.sh.rbtree with
  | none => return (z, none)
  | some p =>
      -- the client is the one seen last now
      let z ← ngxQueueRemove z p
      let z ← ngxQueueInsertHead z p
      return (z, some p)

/-- `ngx_http_shield_ban_shctx_init`. -/
def banShctxInit (sh : Shctx) : Shctx :=
  { sh with
    queue := { prev := none, next := none }
    cursor := none
    catHits := Vector.replicate banNcounters 0
    blocked := 0
    bans := 0 }

/-- The fresh-segment path of `ngx_http_shield_ban_init_zone`: nothing is
allocated yet and the context holds whatever the segment last held. -/
def banInitZone (garbage : Shctx) : Zone where
  sh := banShctxInit { garbage with rbtree := .sentinel }
  slab := fun _ => none

/-- `ngx_http_shield_ban_count_hit`. -/
def banCountHit (z : Zone) (cat : Nat) (blocked : Bool) : Zone :=
  let sh := if h : cat < banNcounters then
      { z.sh with catHits := z.sh.catHits.set cat (z.sh.catHits[cat] + 1) }
    else z.sh
  -- a denial is counted even where the category is not
  { z with sh := if blocked then { sh with blocked := sh.blocked + 1 } else sh }

/-- `NGX_HTTP_SHIELD_BAN_EXPIRE_SCAN`. -/
def banExpireScan : Nat := 32
/-- `NGX_HTTP_SHIELD_BAN_EXPIRE_EVICT`. -/
def banExpireEvict : Nat := 4

/-! ## §6. Eviction. -/

/-- The test `ngx_http_shield_ban_expire` skips a node on: an armed node is
governed by `banned_until` alone, an unarmed one by its derived window. -/
def Entry.isLive (e : Entry) (now window : Int) : Bool :=
  e.bannedUntil > now
    || (e.bannedUntil == 0 && now ≥ e.windowStart && timeAddClamp e.windowStart window > now)

/-- The eviction of one node: unlink it, take it out of the tree, free it. -/
def banEvict (T : NgxRbtree) (z : Zone) (p : Ptr) : Except Fault Zone := do
  let z ← ngxQueueRemove z p
  let z ← ngxRbtreeDelete T z p
  slabFree z p

/-- The `while` of `ngx_http_shield_ban_expire`; returns where the walk stopped. -/
def banExpireLoop (T : NgxRbtree) (now window : Int) :
    Nat → Nat → Nat → Bool → QueuePtr → Zone → Except Fault (Zone × QueuePtr)
  | 0, _, _, _, _, _ => .error .outOfFuel
  | fuel + 1, scanned, evicted, wrapped, q, z =>
      if scanned < banExpireScan ∧ evicted < banExpireEvict then
        match q with
        | none =>
            -- ran off the head: wrap to the tail once, stop the second time
            if wrapped then return (z, none)
            else do
              let q ← ngxQueueLast z
              banExpireLoop T now window fuel scanned evicted true q z
        | some p => do
            -- the link is read before the node can go
            let prev ← ngxQueuePrev z (some p)
            let bn ← z.deref p
            if bn.isLive now window then
              banExpireLoop T now window fuel (scanned + 1) evicted wrapped prev z
            else
              let z ← banEvict T z p
              banExpireLoop T now window fuel (scanned + 1) (evicted + 1) wrapped prev z
      else return (z, q)

/-- Where the walk starts: at the cursor, or at the tail when it is parked on the
sentinel. -/
def banExpireStart (z : Zone) : Except Fault QueuePtr :=
  if z.sh.cursor = none then ngxQueueLast z else .ok z.sh.cursor

/-- `ngx_http_shield_ban_expire`: resume at the cursor, evict stale nodes on a
bounded walk toward the head, park the cursor where the walk stopped. -/
def banExpire (T : NgxRbtree) (z : Zone) (now window : Int) : Except Fault Zone := do
  let q ← banExpireStart z
  -- starting from the tail there is nothing left to wrap
  let (z, q) ← banExpireLoop T now window (banExpireScan + 2) 0 0 (z.sh.cursor = none) q z
  return { z with sh := { z.sh with cursor := q } }

/-! ## §7. Checking and recording. -/

/-- `ngx_http_shield_ban_is_banned_locked`. -/
def banIsBannedLocked (z : Zone) (hash : Nat) (addr : Bytes) (now : Int) :
    Except Fault (Zone × Bool) := do
  match ← banLookup z hash addr with
  | (z, none) => return (z, false)
  | (z, some p) => return (z, (← z.deref p).bannedUntil > now)

/-- Fill a fresh block for an address, insert it in the tree and link it at the
LRU head. -/
def banCreate (T : NgxRbtree) (z : Zone) (p : Ptr) (hash : Nat) (addr : Bytes) (now : Int) :
    Except Fault Zone := do
  let bn ← z.deref p
  -- the block is as the slab gave it; its queue links are set at the end
  let z ← z.store p { bn with
    key := hash
    len := addr.length
    addr := ngxMemcpy bn.addr addr
    hits := 0
    bannedUntil := 0
    windowStart := now }
  let z ← ngxRbtreeInsert T z p
  ngxQueueInsertHead z p

/-- The node `ngx_http_shield_ban_record_locked` counts on: the one lookup
found, or — after an `expire` — a new one; `none` when the slab is full. -/
def banFindOrCreate (T : NgxRbtree) (alloc : SlabAlloc) (z : Zone) (hash : Nat) (addr : Bytes)
    (now window : Int) : Except Fault (Zone × Option Ptr) := do
  match ← banLookup z hash addr with
  | (z, some p) => return (z, some p)
  | (z, none) =>
      -- sweep for room first; the slab can still be full
      let z ← banExpire T z now window
      match slabAlloc alloc z with
      | none => return (z, none)
      | some (z, p) => return (← banCreate T z p hash addr now, some p)

/-- Retire a ban that has lapsed. -/
def Entry.retire (e : Entry) (now : Int) : Entry :=
  if e.bannedUntil ≠ 0 ∧ e.bannedUntil ≤ now then { e with bannedUntil := 0 } else e

/-- Start a fresh window when the current one has elapsed, or lies in the
future after a backward clock step. -/
def Entry.roll (e : Entry) (now window : Int) : Entry :=
  if now < e.windowStart ∨ now - e.windowStart ≥ window then
    { e with windowStart := now, hits := 0 }
  else e

/-- `bn->hits++`. -/
def Entry.bump (e : Entry) : Entry := { e with hits := (e.hits + 1) % ngxUintModulus }

/-- Arm the ban and reset the counter. -/
def Entry.arm (e : Entry) (now banTime : Int) : Entry :=
  { e with bannedUntil := timeAddClamp now banTime, hits := 0, windowStart := now }

/-- The counting half of `ngx_http_shield_ban_record_locked`: retire, roll, count,
and arm the ban once the hits reach `count`. -/
def banCount (z : Zone) (p : Ptr) (now : Int) (count : Nat) (window banTime : Int) :
    Except Fault Zone := do
  let bn ← z.deref p
  let e := ((bn.toEntry.retire now).roll now window).bump
  if e.hits ≥ count then
    -- no look at the ban itself: this is also reached when one is running
    let z := { z with sh := { z.sh with bans := z.sh.bans + 1 } }
    z.store p { bn with toEntry := e.arm now banTime }
  else z.store p { bn with toEntry := e }

/-- `ngx_http_shield_ban_record_locked`. -/
def banRecordLocked (T : NgxRbtree) (alloc : SlabAlloc) (z : Zone) (hash : Nat) (addr : Bytes)
    (now : Int) (count : Nat) (window banTime : Int) : Except Fault (Zone × Int) := do
  match ← banFindOrCreate T alloc z hash addr now window with
  | (z, none) => return (z, ngxError)
  | (z, some p) => return (← banCount z p now count window banTime, ngxOk)

/-! ## §8. Calls and runs. -/

/-- One call on the zone, as a worker makes it under the lock: the policy and
the clock are arguments of the call, and so is the slab's behaviour on it. -/
inductive Op where
  | lookup (a : Addr)
  | isBanned (a : Addr) (now : Int)
  | expire (now window : Int)
  | record (a : Addr) (now : Int) (count : Nat) (window banTime : Int) (alloc : SlabAlloc)

/-- What a call answers. -/
inductive Reply where
  | found (hit : Bool)
  | banned (b : Bool)
  | done
  /-- `NGX_OK`; `armed` when the bans total went up. -/
  | recorded (armed : Bool)
  /-- `NGX_ERROR`. -/
  | dropped
  deriving Repr, DecidableEq

/-- The call records a hit of `a`. -/
def Op.records (a : Addr) : Op → Bool
  | .record b _ _ _ _ _ => b = a
  | _ => false

/-- Make one call.  `hash` is what the module hashes addresses with. -/
def Zone.step (T : NgxRbtree) (hash : Addr → Nat) (z : Zone) : Op → Except Fault (Zone × Reply)
  | .lookup a => do
      let (z, p) ← banLookup z (hash a) a.bytes
      return (z, .found p.isSome)
  | .isBanned a now => do
      let (z, b) ← banIsBannedLocked z (hash a) a.bytes now
      return (z, .banned b)
  | .expire now window => do
      let z ← banExpire T z now window
      return (z, .done)
  | .record a now count window banTime alloc => do
      let (z', rc) ← banRecordLocked T alloc z (hash a) a.bytes now count window banTime
      return (z', if rc = ngxOk then .recorded (z'.sh.bans ≠ z.sh.bans) else .dropped)

/-- Make a sequence of calls, noting the answers. -/
def Zone.run (T : NgxRbtree) (hash : Addr → Nat) :
    Zone → List Op → Except Fault (Zone × List (Op × Reply))
  | z, [] => .ok (z, [])
  | z, op :: ops => do
      let (z, r) ← z.step T hash op
      let (z, evs) ← z.run T hash ops
      return (z, (op, r) :: evs)

end HttpShield
