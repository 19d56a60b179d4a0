/-
  HttpShield.Reporter.StateFile
  ─────────────────────────────
  The two state files as texts: what `save_offset` and `Suppressor._save` dump, and what
  `load_offset` and `Suppressor._load` make of any text they find.

  The dictionary of the suppressor is a list here, in the order of insertion, as it is
  dumped.  Numbers and dates come with Python, and are taken as they are.

    • `loadOffsetText_saved` — the offset is read back, for the log file it is of,
    • `loadMemory_saved`     — so is what the suppressor remembers.
-/
import HttpShield.Lib.Dict
import HttpShield.Lib.JsonDump
import HttpShield.Reporter.Delivery
import HttpShield.Reporter.Quota

namespace HttpShield

open JsonText (Text Value loads Reads Unpaired dumpString dumpInt dumpObject)

/-! ## §1. What comes with Python. -/

/-- The exceptions that reading a state file may raise. -/
inductive PyError where
  | fileNotFound
  | valueError
  | keyError
  | typeError
  | attributeError
  | overflowError
  deriving Repr, DecidableEq

/-- The functions of Python that convert the numbers and dates of the state files. -/
structure Builtins where
  /-- `int`. -/
  int : Value → Except PyError Int
  /-- `float`. -/
  float : Value → Except PyError Int
  /-- `repr` of a `float`. -/
  floatRepr : Int → Text
  /-- `strftime("%Y-%m-%d")`. -/
  dayText : Int → Text

/-- A text that is dumped and read back: code points, without the halves of a pair one
behind the other. -/
structure Storable (t : Text) : Prop where
  units : ∀ c ∈ t, c < 0x110000
  unpaired : Unpaired t

/-- What the state files rely on: numbers read back as dumped, and every
day has its own text. -/
structure Builtins.Lawful (py : Builtins) : Prop where
  int : ∀ n, py.int (.num n 0) = .ok n
  float : ∀ t, ∃ v, Reads v (py.floatRepr t) ∧ py.float v = .ok t
  day : ∀ day day', py.dayText day = py.dayText day' → day = day'
  dayStorable : ∀ day, Storable (py.dayText day)

/-- `json.load` of a file, if there is one. -/
def readJson (file : Option Text) : Except PyError Value :=
  match file with
  | none => .error .fileNotFound
  | some text =>
      match loads text with
      | some v => .ok v
      | none => .error .valueError

/-- The members of a `dict`; nothing else has `.get` or `.items`. -/
def asDict : Value → Except PyError (List (Text × Value))
  | .obj members => .ok members
  | _ => .error .attributeError

/-! ## §2. The offset. -/

/-- `v == text`. -/
def isText (v : Option Value) (text : Text) : Bool :=
  match v with
  | some (.str s) => s = text
  | _ => false

/-- The offset and the inode, if the state is of this log. -/
def offsetIn (py : Builtins) (st : List (Text × Value)) (logPath : Text) :
    Except PyError (Option (Int × Int)) :=
  if isText (getKey st "path") logPath then do
    let offset ← (getKey st "offset").elim (.ok 0) py.int
    let inode ← (getKey st "inode").elim (.ok (-1)) py.int
    return some (offset, inode)
  else .ok none

/-- `load_offset`; the log path is absolute. -/
def loadOffsetText (py : Builtins) (file : Option Text) (logPath : Text) :
    Except PyError (Int × Int) :=
  match readJson file >>= asDict >>= fun st => offsetIn py st logPath with
  | .ok (some r) => .ok r
  | .ok none => .ok (0, -1)
  | .error .fileNotFound => .ok (0, -1)
  | .error .valueError => .ok (0, -1)
  | .error .keyError => .ok (0, -1)
  -- the others are not expected, and end the daemon
  | .error e => .error e

/-- What `save_offset` dumps. -/
def saveOffsetText (logPath : Text) (offset inode : Int) : Text :=
  dumpObject [(textOf "path", dumpString logPath), (textOf "offset", dumpInt offset),
    (textOf "inode", dumpInt inode)]

/-! ## §3. The suppressor's memory. -/

/-- `_day`, `_count` and `_last`. -/
structure Memory where
  day : Option Text
  count : Int
  last : List (Text × Int)
  deriving DecidableEq

/-- The memory that `__init__` starts from. -/
def Memory.fresh : Memory := ⟨none, 0, []⟩

/-- `except (FileNotFoundError, ValueError, KeyError, TypeError)`. -/
def PyError.forgiven : PyError → Bool
  | .fileNotFound | .valueError | .keyError | .typeError => true
  | .attributeError | .overflowError => false

/-- What is set when an exception comes stays, and the rest is as it was. -/
def forgiving {α : Type} (x : Except PyError α) (m : Memory) (k : α → Except PyError Memory) :
    Except PyError Memory :=
  match x with
  | .ok a => k a
  | .error e => if e.forgiven then .ok m else .error e

/-- A day that is no string is not the one of any time. -/
def dayOf : Option Value → Option Text
  | some (.str s) => some s
  | _ => none

/-- `_load`. -/
def loadMemory (py : Builtins) (file : Option Text) : Except PyError Memory :=
  forgiving (readJson file >>= asDict) .fresh fun st =>
    let m := { Memory.fresh with day := dayOf (getKey st "day") }
    forgiving ((getKey st "count").elim (.ok 0) py.int) m fun count =>
      let m := { m with count := count }
      forgiving ((getKey st "last").elim (.ok []) asDict >>= fun items =>
          (Dict.ofMembers items).mapM fun e => (py.float e.2).map (e.1, ·)) m
        fun last => .ok { m with last := last }

/-- `null`. -/
def nullText : Text := textOf "null"

/-- What `_save` dumps. -/
def saveMemory (py : Builtins) (m : Memory) : Text :=
  dumpObject [(textOf "day", m.day.elim nullText dumpString), (textOf "count", dumpInt m.count),
    (textOf "last", dumpObject (m.last.map fun e => (e.1, py.floatRepr e.2)))]

/-- `_roll_day`, on a day. -/
def Memory.rollDay (py : Builtins) (m : Memory) (today : Int) : Memory :=
  if some (py.dayText today) ≠ m.day then ⟨some (py.dayText today), 0, []⟩ else m

/-- `record`, behind `_roll_day`. -/
def Memory.record (m : Memory) (window : Int) (ip : Text) (now : Int) : Memory :=
  { m with
    last := (Dict.set m.last ip now).filter fun e => now - window ≤ e.2
    count := m.count + 1 }

/-! ## §4. The offset is read back. -/

/-- A text without halves of surrogate pairs is storable. -/
theorem storable_of_lt {t : Text} (h : ∀ c ∈ t, c < 0xD800) : Storable t where
  units := fun c hc => Nat.lt_trans (h c hc) (by omega)
  unpaired := by
    apply (JsonText.joined_eq_iff t).mp
    induction t with
    | nil => rfl
    | cons c t ih =>
        have hc := h c List.mem_cons_self
        rw [JsonText.joined_of_not_high (JsonText.isHigh_eq_false (.inl hc)),
          ih fun d hd => h d (List.mem_cons_of_mem _ hd)]

/-- Bytes, as code points, are storable. -/
theorem storable_codes (bytes : Bytes) : Storable (codes bytes) := by
  apply storable_of_lt
  intro c hc
  obtain ⟨b, -, rfl⟩ := List.mem_map.mp hc
  exact Nat.lt_trans b.toNat_lt (by omega)

/-- A field under a key of the source. -/
theorem dumps_field (key : String) {v : Value} {t : Text} (h : Reads v t) :
    (⟨textOf key, v, t⟩ : JsonText.Field).Dumps where
  units := (storable_codes (bytesOf key)).units
  unpaired := (storable_codes (bytesOf key)).unpaired
  value := h

/-- `json.loads` reads the dump of an offset as an object of the three fields. -/
theorem loads_saveOffsetText (logPath : Text) (hunits : ∀ c ∈ logPath, c < 0x110000)
    (offset inode : Int) :
    loads (saveOffsetText logPath offset inode)
      = some (.obj [(textOf "path", .str (JsonText.joined logPath)),
        (textOf "offset", .num offset 0), (textOf "inode", .num inode 0)]) := by
  have hfields : ∀ m ∈ ([⟨textOf "path", .str (JsonText.joined logPath), dumpString logPath⟩,
      ⟨textOf "offset", .num offset 0, dumpInt offset⟩,
      ⟨textOf "inode", .num inode 0, dumpInt inode⟩] : List JsonText.Field), m.Dumps := by
    rw [List.forall_mem_cons, List.forall_mem_cons, List.forall_mem_singleton]
    exact ⟨dumps_field "path" (JsonText.reads_string logPath hunits),
      dumps_field "offset" (JsonText.reads_int offset),
      dumps_field "inode" (JsonText.reads_int inode)⟩
  exact (JsonText.reads_object _ hfields).loads

/-- `load_offset` gives the dumped offset back for the same log path, and
starts over for another. -/
theorem loadOffsetText_dumped {py : Builtins} (hpy : py.Lawful) {logPath : Text}
    (hunits : ∀ c ∈ logPath, c < 0x110000) (offset inode : Int) (logPath' : Text) :
    loadOffsetText py (some (saveOffsetText logPath offset inode)) logPath'
      = .ok (if JsonText.joined logPath = logPath' then (offset, inode) else (0, -1)) := by
  let st : List (Text × Value) := [(textOf "path", .str (JsonText.joined logPath)),
    (textOf "offset", .num offset 0), (textOf "inode", .num inode 0)]
  have hread : readJson (some (saveOffsetText logPath offset inode)) = .ok (.obj st) := by
    unfold readJson
    dsimp only
    rw [loads_saveOffsetText logPath hunits]
  have hfound : offsetIn py st logPath'
      = .ok (if JsonText.joined logPath = logPath' then some (offset, inode) else none) := by
    have hpath : isText (getKey st "path") logPath' = decide (JsonText.joined logPath = logPath') :=
      rfl
    have hoffset : getKey st "offset" = some (.num offset 0) := rfl
    have hinode : getKey st "inode" = some (.num inode 0) := rfl
    unfold offsetIn
    rw [hpath, hoffset, hinode]
    by_cases hsame : JsonText.joined logPath = logPath'
    · rw [if_pos (decide_eq_true hsame), if_pos hsame]
      show (py.int (.num offset 0) >>= fun offset => py.int (.num inode 0) >>= _) = _
      rw [hpy.int, hpy.int]
      rfl
    · rw [if_neg (by simpa using hsame), if_neg hsame]
  have hbind : (Except.ok (Value.obj st) >>= asDict >>= fun st => offsetIn py st logPath')
      = offsetIn py st logPath' := rfl
  unfold loadOffsetText
  rw [hread, hbind, hfound]
  by_cases hsame : JsonText.joined logPath = logPath'
  · rw [if_pos hsame, if_pos hsame]
  · rw [if_neg hsame, if_neg hsame]

/-- **The offset is read back**, for the log file it is of and for no other; but a path that
holds the halves of a pair one behind the other is not known again. -/
theorem loadOffsetText_saved {py : Builtins} (hpy : py.Lawful) {logPath : Text}
    (hunits : ∀ c ∈ logPath, c < 0x110000) (offset inode : Int) :
    (Unpaired logPath → ∀ logPath',
      loadOffsetText py (some (saveOffsetText logPath offset inode)) logPath'
        = .ok (if logPath = logPath' then (offset, inode) else (0, -1)))
    ∧ (¬ Unpaired logPath →
      loadOffsetText py (some (saveOffsetText logPath offset inode)) logPath = .ok (0, -1)) := by
  refine ⟨?_, ?_⟩
  · intro hunpaired logPath'
    rw [loadOffsetText_dumped hpy hunits, (JsonText.joined_eq_iff logPath).mpr hunpaired]
  · intro hpaired
    rw [loadOffsetText_dumped hpy hunits, if_neg]
    exact fun hsame => hpaired ((JsonText.joined_eq_iff logPath).mp hsame)

/-- The state file of the loop, as a text. -/
def Saved.text (st : Saved) : Text := saveOffsetText (codes st.path) st.offset st.inode

theorem codes_injective {s t : Bytes} (h : codes s = codes t) : s = t :=
  List.map_injective_iff.mpr (fun _ _ => UInt8.toNat_inj.mp) h

/-- **The state file of the loop is what it was taken for**: its text, or none, is read as
the offset and the inode in it. -/
theorem loadOffsetText_loadOffset {py : Builtins} (hpy : py.Lawful) (state : Option Saved)
    (logPath : Bytes) :
    loadOffsetText py (state.map Saved.text) (codes logPath)
      = .ok ((loadOffset state logPath).1, (loadOffset state logPath).2) := by
  cases state with
  | none => rfl
  | some st =>
      have hstorable := storable_codes st.path
      have hread := (loadOffsetText_saved hpy hstorable.units st.offset st.inode).1
        hstorable.unpaired (codes logPath)
      show loadOffsetText py (some (saveOffsetText (codes st.path) st.offset st.inode)) _ = _
      rw [hread]
      unfold loadOffset
      by_cases hsame : st.path = logPath
      · rw [if_pos (congrArg codes hsame)]
        dsimp only
        rw [if_pos hsame]
      · rw [if_neg fun h => hsame (codes_injective h)]
        dsimp only
        rw [if_neg hsame]
        rfl

/-! ## §5. The memory is read back. -/

/-- What is dumped can be read back: texts that are storable, and keys that differ. -/
structure Memory.Storable (m : Memory) : Prop where
  day : ∀ day, m.day = some day → HttpShield.Storable day
  keys : ∀ e ∈ m.last, HttpShield.Storable e.1
  keyed : Dict.Keyed m.last

theorem reads_storable {t : Text} (h : Storable t) : Reads (.str t) (dumpString t) := by
  have hread := JsonText.reads_string t h.units
  rw [(JsonText.joined_eq_iff t).mpr h.unpaired] at hread
  exact hread

/-- The value of the day. -/
def dayValue : Option Text → Value
  | some day => .str day
  | none => .null

theorem reads_day {day : Option Text} (h : ∀ t, day = some t → Storable t) :
    Reads (dayValue day) (day.elim nullText dumpString) := by
  cases day with
  | none => exact JsonText.reads_null
  | some t => exact reads_storable (h t rfl)

theorem dayOf_dayValue (day : Option Text) : dayOf (some (dayValue day)) = day := by
  cases day with
  | none => rfl
  | some t => rfl

/-- The items of the dictionary come back as floats. -/
theorem mapM_float {py : Builtins} {value : Int → Value}
    (hvalue : ∀ t, py.float (value t) = .ok t) (d : List (Text × Int)) :
    (d.map fun e => (e.1, value e.2)).mapM (fun e => (py.float e.2).map (e.1, ·)) = .ok d := by
  induction d with
  | nil => rfl
  | cons e d ih =>
      rw [List.map_cons, List.mapM_cons, ih, hvalue]
      rfl

/-- **What the suppressor remembers is read back.** -/
theorem loadMemory_saved {py : Builtins} (hpy : py.Lawful) {m : Memory} (hm : m.Storable) :
    loadMemory py (some (saveMemory py m)) = .ok m := by
  choose value hreads hfloat using hpy.float
  let items : List (Text × Value) := m.last.map fun e => (e.1, value e.2)
  have hitems : Reads (.obj items) (dumpObject (m.last.map fun e => (e.1, py.floatRepr e.2))) := by
    have hobject := JsonText.reads_object
      (m.last.map fun e => ⟨e.1, value e.2, py.floatRepr e.2⟩) (by
        rw [List.forall_mem_map]
        intro e he
        exact ⟨(hm.keys e he).units, (hm.keys e he).unpaired, hreads e.2⟩)
    rw [List.map_map, List.map_map] at hobject
    exact hobject
  let st : List (Text × Value) := [(textOf "day", dayValue m.day),
    (textOf "count", .num m.count 0), (textOf "last", .obj items)]
  have hloads : loads (saveMemory py m) = some (.obj st) := by
    have hfields : ∀ f ∈ ([⟨textOf "day", dayValue m.day, m.day.elim nullText dumpString⟩,
        ⟨textOf "count", .num m.count 0, dumpInt m.count⟩,
        ⟨textOf "last", .obj items, dumpObject (m.last.map fun e => (e.1, py.floatRepr e.2))⟩] :
          List JsonText.Field), f.Dumps := by
      rw [List.forall_mem_cons, List.forall_mem_cons, List.forall_mem_singleton]
      exact ⟨dumps_field "day" (reads_day hm.day), dumps_field "count" (JsonText.reads_int m.count),
        dumps_field "last" hitems⟩
    exact (JsonText.reads_object _ hfields).loads
  have hread : readJson (some (saveMemory py m)) = .ok (.obj st) := by
    unfold readJson
    dsimp only
    rw [hloads]
  -- Each field is found under its key, and of the type that `_load` asks for.
  have hday : getKey st "day" = some (dayValue m.day) := rfl
  have hcount : getKey st "count" = some (.num m.count 0) := rfl
  have hlast : getKey st "last" = some (.obj items) := rfl
  have hkeyed : Dict.Keyed items := by
    unfold Dict.Keyed
    rw [List.map_map]
    exact hm.keyed
  have hfloats : ((Dict.ofMembers items).mapM fun e => (py.float e.2).map (e.1, ·))
      = .ok m.last := by
    rw [Dict.ofMembers_keyed hkeyed]
    exact mapM_float hfloat m.last
  unfold loadMemory
  rw [hread]
  show forgiving ((getKey st "count").elim (.ok 0) py.int) _ _ = _
  rw [hday, hcount, hlast]
  show forgiving (py.int (.num m.count 0)) _ _ = _
  rw [hpy.int, dayOf_dayValue]
  show forgiving ((Dict.ofMembers items).mapM fun e => (py.float e.2).map (e.1, ·)) _ _ = _
  rw [hfloats]
  rfl

/-! ## §6. Numbers and dates that will do. -/

/-- The last digits of a number. -/
def lastDigits : Nat → Nat → Text
  | 0, _ => []
  | k + 1, n => lastDigits k (n / 10) ++ [n % 10 + 48]

/-- The digits behind the point of the smallest `float`. -/
def places : Nat := 1074

/-- `10 ^ places`, without its factors of two. -/
def fives : Nat := (5 ^ 179) ^ 6

theorem fives_pos : 0 < fives := by decide

theorem second_mul_fives : second * fives = 10 ^ places := by
  have hplaces : places = 179 * 6 := rfl
  have hsplit : ∀ k, (10 : Nat) ^ k = 2 ^ k * 5 ^ k := Nat.mul_pow 2 5
  rw [hsplit, hplaces, pow_mul, pow_mul]
  rfl

/-- A mantissa and a power of ten, as a time. -/
def exactFloat : Value → Except PyError Int
  | .num m e => .ok (m * (10 : Int) ^ (e + places).toNat / fives)
  | _ => .error .typeError

/-- A time in decimals, with one digit behind the point where that will do. -/
def decimalPoint (n : Nat) : Text :=
  JsonText.decimal (n / second)
    ++ 46 :: (if n % second = 0 then [48] else lastDigits places (n * fives))

/-- Times in whole seconds are written as Python writes them, others with all their digits; of
the dates, the first day of 1970. -/
def plainBuiltins : Builtins where
  int v :=
    match v with
    | .num m 0 => .ok m
    | _ => .error .typeError
  float := exactFloat
  floatRepr t :=
    match t with
    | .ofNat n => decimalPoint n
    | .negSucc n => 45 :: decimalPoint (n + 1)
  dayText day := if day = 0 then textOf "1970-01-01" else dumpInt day

/-! ## §7. Decimals are read back. -/

theorem length_lastDigits (k : Nat) : ∀ n, (lastDigits k n).length = k := by
  induction k with
  | zero => intro n; rfl
  | succ k ih =>
      intro n
      unfold lastDigits
      rw [List.length_append, ih]
      rfl

theorem isDigit_lastDigits (k : Nat) : ∀ n, ∀ d ∈ lastDigits k n, JsonText.isDigit d = true := by
  induction k with
  | zero =>
      intro n d hd
      cases hd
  | succ k ih =>
      intro n d hd
      rcases List.mem_append.mp hd with hd | hd
      · exact ih _ d hd
      · rw [List.mem_singleton.mp hd]
        exact JsonText.isDigit_of_lt (Nat.mod_lt _ (by decide))

/-- Behind the digits of its front, the last digits of a number make up the number. -/
theorem digitsValue_lastDigits {ds : Text} (k : Nat) :
    ∀ {n : Nat}, JsonText.digitsValue ds = n / 10 ^ k →
      JsonText.digitsValue (ds ++ lastDigits k n) = n := by
  induction k with
  | zero =>
      intro n h
      show JsonText.digitsValue (ds ++ []) = n
      rw [List.append_nil, h, Nat.pow_zero, Nat.div_one]
  | succ k ih =>
      intro n h
      have hfront : JsonText.digitsValue ds = n / 10 / 10 ^ k := by
        rw [h, Nat.div_div_eq_div_mul, Nat.pow_succ']
      unfold lastDigits
      rw [← List.append_assoc, JsonText.digitsValue_append, ih hfront]
      omega

/-- A time in decimals is read back. -/
theorem reads_decimalPoint (n : Nat) :
    ∃ v, ∃ m e : Int, v = .num m e ∧ Reads v (decimalPoint n)
      ∧ m * (10 : Int) ^ (e + places).toNat = n * fives := by
  unfold decimalPoint
  by_cases hwhole : n % second = 0
  · rw [if_pos hwhole]
    have hzero : ∀ d ∈ [48], JsonText.isDigit d = true := by decide
    obtain ⟨ds, hds, hreads⟩ := JsonText.reads_fraction (n / second) hzero
    refine ⟨_, _, _, rfl, hreads, ?_⟩
    have hall : n / second * second = n := Nat.div_mul_cancel (Nat.dvd_of_mod_eq_zero hwhole)
    -- the digit behind the point takes one of the places
    obtain ⟨k, hk⟩ : ∃ k, places = k + 1 := ⟨1073, rfl⟩
    have hexp : (-(([48] : Text).length : Int) + places).toNat = k := by
      rw [hk, List.length_singleton]
      omega
    have hshift : (n / second * 10 + (48 - 48)) * 10 ^ k = n * fives := by
      rw [Nat.sub_self, Nat.add_zero, Nat.mul_assoc, ← pow_succ', ← hk, ← second_mul_fives,
        ← Nat.mul_assoc, hall]
    rw [hexp, JsonText.digitsValue_append, hds]
    exact_mod_cast hshift
  · rw [if_neg hwhole]
    obtain ⟨c, fs, hdigits⟩ : ∃ c fs, lastDigits places (n * fives) = c :: fs :=
      List.exists_cons_of_length_pos (by rw [length_lastDigits]; decide)
    have hlength := length_lastDigits places (n * fives)
    have hfront : n / second = n * fives / 10 ^ places := by
      rw [← second_mul_fives, Nat.mul_div_mul_right _ _ fives_pos]
    rw [hdigits] at hlength ⊢
    obtain ⟨ds, hds, hreads⟩ := JsonText.reads_fraction (n / second)
      (hdigits ▸ isDigit_lastDigits places (n * fives))
    refine ⟨_, _, _, rfl, hreads, ?_⟩
    rw [hlength, Int.add_left_neg, ← hdigits, digitsValue_lastDigits places (hds.trans hfront)]
    show ((n * fives : Nat) : Int) * 10 ^ 0 = n * fives
    rw [Int.pow_zero, Int.mul_one, Int.natCast_mul]

theorem dumpInt_injective {a b : Int} (h : dumpInt a = dumpInt b) : a = b := by
  have hloads := (JsonText.reads_int a).loads
  rw [h, (JsonText.reads_int b).loads] at hloads
  cases hloads
  rfl

theorem dumpInt_ascii (n : Int) : ∀ c ∈ dumpInt n, c < 0xD800 := by
  have hdigit : ∀ c, JsonText.isDigit c = true → c < 0xD800 := by
    intro c hc
    have := JsonText.isDigit_range hc
    omega
  cases n with
  | ofNat n => exact fun c hc => hdigit c (JsonText.decimal_isDigit n c hc)
  | negSucc n =>
      intro c hc
      rcases List.mem_cons.mp hc with rfl | hc
      · omega
      · exact hdigit c (JsonText.decimal_isDigit (n + 1) c hc)

/-- A date has a dash in its middle, and a number has none. -/
theorem dumpInt_ne_date (n : Int) : dumpInt n ≠ textOf "1970-01-01" := by
  intro h
  have hloads := (JsonText.reads_int n).loads
  rw [h] at hloads
  have hnone : loads (textOf "1970-01-01") = none := by
    decide
  rw [hnone] at hloads
  cases hloads

theorem plainBuiltins_lawful : plainBuiltins.Lawful where
  int := fun _ => rfl
  float := by
    intro t
    have hfives : (fives : Int) ≠ 0 := Int.ofNat_ne_zero.mpr (Nat.pos_iff_ne_zero.mp fives_pos)
    cases t with
    | ofNat n =>
        obtain ⟨v, m, e, rfl, hreads, hvalue⟩ := reads_decimalPoint n
        refine ⟨_, hreads, ?_⟩
        show Except.ok (m * (10 : Int) ^ (e + places).toNat / fives) = .ok (Int.ofNat n)
        rw [hvalue, Int.mul_ediv_cancel _ hfives]
        rfl
    | negSucc n =>
        obtain ⟨v, m, e, rfl, hreads, hvalue⟩ := reads_decimalPoint (n + 1)
        have hdigit : ∃ c t', decimalPoint (n + 1) = c :: t' ∧ JsonText.isDigit c = true := by
          obtain ⟨c, ds, hdecimal, hc⟩ := JsonText.decimal_head ((n + 1) / second)
          unfold decimalPoint
          rw [hdecimal]
          exact ⟨c, _, rfl, hc⟩
        refine ⟨_, hreads.minus hdigit, ?_⟩
        show Except.ok (-m * (10 : Int) ^ (e + places).toNat / fives) = .ok (Int.negSucc n)
        rw [Int.neg_mul, hvalue, ← Int.neg_mul, Int.mul_ediv_cancel _ hfives]
        rfl
  day := by
    intro day day' h
    have h : (if day = 0 then textOf "1970-01-01" else dumpInt day)
        = if day' = 0 then textOf "1970-01-01" else dumpInt day' := h
    split_ifs at h with hzero hzero' hzero'
    · rw [hzero, hzero']
    · exact absurd h.symm (dumpInt_ne_date day')
    · exact absurd h (dumpInt_ne_date day)
    · exact dumpInt_injective h
  dayStorable := by
    intro day
    show Storable (if day = 0 then textOf "1970-01-01" else dumpInt day)
    split_ifs with hzero
    · exact storable_codes _
    · exact storable_of_lt (dumpInt_ascii day)

end HttpShield
