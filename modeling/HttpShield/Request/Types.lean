/-
  HttpShield.Request.Types
  ────────────────────────
  What a request is to the module: the fields of `ngx_http_request_t` it reads, the
  location's configuration, and the world it runs in.

  The world keeps the state that lives longer than a call (the ban zone, the request's
  module context) and counts the calls whose outcome is not the module's to decide:
  the pool allocations and the file reads, which `Env` answers by number.  It also
  notes which buffers were scanned and which hits were logged; nothing reads these
  notes but the theorems.
-/
import HttpShield.Scan.Input
import HttpShield.Ban.Enforcement

namespace HttpShield

/-! ## §1. The request. -/

/-- `ngx_table_elt_t`. -/
structure Header where
  /-- `0` marks a deleted entry. -/
  hash : Nat
  key : Bytes
  value : Bytes
  deriving Repr, DecidableEq

/-- `ngx_list_t` of headers.  A part is only added to receive an element, so no part
but the first is empty. -/
structure HeaderList where
  part : List Header
  next : List (List Header)
  filled : ∀ p ∈ next, p ≠ []

/-- A list of no further parts holds no empty one. -/
theorem noParts_filled : ∀ p ∈ ([] : List (List Header)), p ≠ [] := by simp

/-- The elements of the list. -/
def HeaderList.all (l : HeaderList) : List Header := l.part ++ l.next.flatten

/-- `struct sockaddr`. -/
inductive Sockaddr where
  | inet (addr : Vector UInt8 4)
  | inet6 (addr : Vector UInt8 16)
  | other
  deriving Repr, DecidableEq

/-- `ngx_http_request_t`, as far as the module reads it before the body is there. -/
structure Request where
  /-- `r == r->main`. -/
  isMain : Bool
  requestLine : Bytes
  /-- The target as the client sent it. -/
  unparsedUri : Bytes
  /-- The decoded and normalised path. -/
  uri : Bytes
  headers : HeaderList
  range : Option Header
  /-- The chains that `next` makes of a repeated header. -/
  contentType : List Header
  xForwardedFor : List Header
  contentLengthN : Int
  chunked : Bool
  sockaddr : Sockaddr
  addrText : Bytes

/-- `ngx_buf_t`: its bytes in memory or in the temporary file, or neither. -/
inductive Buf where
  | memory (bytes : Bytes)
  | file (bytes : Bytes)
  | special
  deriving Repr, DecidableEq

/-- The bytes a buffer stands for. -/
def Buf.bytes : Buf → Bytes
  | .memory bytes => bytes
  | .file bytes => bytes
  | .special => []

/-! ## §2. The configuration of a location. -/

/-- The modes of `shield`. -/
inductive ShieldMode where
  | off | detect | block
  deriving Repr, DecidableEq

/-- `NGX_HTTP_SHIELD_BAN_KEY_PEER` and `_FORWARDED`. -/
inductive BanKey where
  | peer | forwarded
  deriving Repr, DecidableEq

/-- What `shield_ban` configures. -/
structure BanConf where
  pol : Policy
  key : BanKey
  /-- The trusted proxies, as `ngx_cidr_match` tests a peer against them. -/
  trusted : Option (Sockaddr → Bool)

/-- `ngx_http_shield_loc_conf_t` after the merge. -/
structure LocConf where
  mode : ShieldMode
  body : Bool
  maxBody : Nat
  status : Int
  skip : Mask
  /-- Whether there is a log file, and a syslog peer. -/
  log : Bool
  syslogPeer : Bool
  ban : Option BanConf
  /-- `ngx_http_shield_status` accepts these only. -/
  status_allowed : status ∈ [403, 404, 419, 429, 444]

theorem LocConf.status_ne_declined (conf : LocConf) : conf.status ≠ ngxDeclined := by
  have h := conf.status_allowed
  intro heq
  rw [heq] at h
  revert h
  decide

theorem LocConf.status_ne_done (conf : LocConf) : conf.status ≠ ngxDone := by
  have h := conf.status_allowed
  intro heq
  rw [heq] at h
  revert h
  decide

/-! ## §3. The world. -/

/-- The request as it is resumed once its body has been read: other requests may have
used the zone since, the clock went on, and `content_length_n` is the body's length
where it is known at all. -/
structure Arrival (hash : Addr → Nat) where
  zone : Zone
  now : Int
  contentLengthN : Int
  bufs : Option (List Buf)
  zone_wf : ∃ ps, zone.Wf hash ps
  complete : contentLengthN ≤ 0
    ∨ contentLengthN = (((bufs.getD []).flatMap Buf.bytes).length : Nat)

/-- The body. -/
def Arrival.content {hash : Addr → Nat} (a : Arrival hash) : Bytes :=
  (a.bufs.getD []).flatMap Buf.bytes

/-- `ngx_http_read_client_request_body`: its return code, and the arrival its post
handler is called at.  Unless it returns an error status the handler is called. -/
structure ReadBody (hash : Addr → Nat) where
  rc : Int
  arrival : Option (Arrival hash)
  called : ngxHttpSpecialResponse ≤ rc ∨ arrival.isSome = true

/-- What the module relies on, and what it has no say in. -/
structure Env where
  unescape : NgxUnescape
  automata : Automata
  rbtree : NgxRbtree
  /-- `ngx_crc32_short`. -/
  hash : Addr → Nat
  /-- `ngx_parse_addr_port`. -/
  parseAddrPort : Bytes → Option Sockaddr
  /-- Whether the pool allocation with this number is granted. -/
  granted : Nat → Bool
  /-- What the `ngx_read_file` call with this number returns, up to its size. -/
  readFile : Nat → Int
  /-- The slab pool, at the record of the hit with this number. -/
  slab : Nat → SlabAlloc
  body : ReadBody hash

/-- `ngx_http_shield_ctx_t`. -/
structure Ctx where
  status : Int
  deriving Repr, DecidableEq

/-- A buffer to scan: the arguments of `ngx_http_shield_scan_r`. -/
structure ScanJob where
  data : Bytes
  source : Bytes
  skip : Mask
  deriving Repr, DecidableEq

/-- A call of `ngx_http_shield_scan_input`, and what it returned. -/
structure ScanCall extends ScanJob where
  rc : Inspection
  deriving Repr, DecidableEq

/-- Where hits are logged. -/
inductive LogSink where
  | file | syslog
  deriving Repr, DecidableEq

/-- What `ngx_http_shield_write_log` renders for a sink. -/
structure LogRecord where
  sink : LogSink
  ts : Int
  ip : Bytes
  category : Bytes
  source : Bytes
  /-- The mode, and the status where it is `block`. -/
  blocked : Option Int
  req : Bytes
  deriving Repr, DecidableEq

/-- The state of a request and of the shared zone. -/
structure World where
  zone : Zone
  /-- `ngx_time()`. -/
  now : Int
  ctx : Option Ctx
  /-- Pool allocations, file reads and hits acted on so far. -/
  allocs : Nat
  reads : Nat
  acted : Nat
  scans : List ScanCall
  logged : List LogRecord

/-- `ngx_pnalloc` and `ngx_pcalloc`: whether it was granted. -/
def World.palloc (env : Env) (w : World) : Bool × World :=
  (env.granted w.allocs, { w with allocs := w.allocs + 1 })

/-- The next `n` pool allocations are granted. -/
def World.Granted (env : Env) (w : World) (n : Nat) : Prop :=
  ∀ i < n, env.granted (w.allocs + i) = true

/-- The world `w` with another zone. -/
def World.setZone (w : World) (zone : Zone) : World := { w with zone := zone }

/-- What inspecting and logging leave alone. -/
structure World.Quiet (w w' : World) : Prop where
  zone : w'.zone = w.zone
  now : w'.now = w.now
  ctx : w'.ctx = w.ctx
  acted : w'.acted = w.acted
  scans : w.scans <+: w'.scans

theorem World.Quiet.refl (w : World) : w.Quiet w where
  zone := rfl
  now := rfl
  ctx := rfl
  acted := rfl
  scans := List.prefix_refl _

theorem World.Quiet.trans {w w' w'' : World} (h : w.Quiet w') (h' : w'.Quiet w'') :
    w.Quiet w'' where
  zone := h'.zone.trans h.zone
  now := h'.now.trans h.now
  ctx := h'.ctx.trans h.ctx
  acted := h'.acted.trans h.acted
  scans := h.scans.trans h'.scans

end HttpShield
