/-
  HttpShield.Request.Collect
  ──────────────────────────
  When the body is collected, and when not.

  nginx hands a body over as a chain of buffers, in memory and in a temporary file.
  Up to the cap, each buffer of the file is a piece that is fetched by reads, which
  may all be short.  Which reads that takes is said of the chain alone; the loops of
  the module make just these.

    • `readLoop_reads`    — the loop over one buffer,
    • `collectLoop_reads` — the loop over the chain,
    • `collectBody_whole` — the body's first bytes, or an error if something it takes
      is not granted or fails.
-/
import HttpShield.Lib.ShortReads
import HttpShield.Request.Body

namespace HttpShield

open ShortReads

/-! ## §1. What collecting a chain takes. -/

/-- What the reads of the file bring. -/
def Env.readSizes (env : Env) : Nat → Nat := fun i => (env.readFile i).toNat

/-- How much of each buffer of the file lies in front of the cap, for a chain that
begins `off` bytes into the body. -/
def fileNeeds (cap : Nat) : Nat → List Buf → List Nat
  | _, [] => []
  | off, .memory bytes :: bufs => fileNeeds cap (off + bytes.length) bufs
  | off, .file bytes :: bufs =>
      min bytes.length (cap - off) :: fileNeeds cap (off + bytes.length) bufs
  | off, .special :: bufs => fileNeeds cap off bufs

/-- Of four bytes in the file three are needed for a cap of five. -/
example : fileNeeds 5 0 [.memory [1, 2], .special, .file [3, 4, 5, 6], .file [7]] = [3, 0] := rfl

/-- A read that collecting the body takes. -/
def ReadNeeded (env : Env) (max : Nat) (bufs : List Buf) (w : World) (i : Nat) : Prop :=
  NeedsAny env.readSizes (fileNeeds max 0 bufs) w.reads i

/-- **Collecting fails**: the scan buffer is not granted, or a read that is needed
brings an error or the end of the file. -/
def CollectFails {hash : Addr → Nat} (env : Env) (max : Nat) (a : Arrival hash) (w : World) :
    Prop :=
  ∃ bufs, a.bufs = some bufs ∧ max ≠ 0
    ∧ (env.granted w.allocs = false ∨ ∃ i, ReadNeeded env max bufs w i ∧ env.readFile i ≤ 0)

/-- A buffer in the file needs no read where the cap is reached. -/
theorem fileNeeds_past {cap off : Nat} (h : cap ≤ off) (bufs : List Buf) :
    ∀ len ∈ fileNeeds cap off bufs, len = 0 := by
  induction bufs generalizing off with
  | nil =>
      intro len hlen
      cases hlen
  | cons b bufs ih =>
      cases b with
      | memory bytes => exact ih (by omega)
      | file bytes =>
          refine List.forall_mem_cons.mpr ⟨?_, ih (by omega)⟩
          rw [Nat.sub_eq_zero_of_le h, Nat.min_zero]
      | special => exact ih h

/-- Caps that the body does not reach are all the same. -/
theorem fileNeeds_of_le {cap cap' : Nat} (bufs : List Buf) {off : Nat}
    (h : off + (bufs.flatMap Buf.bytes).length ≤ cap)
    (h' : off + (bufs.flatMap Buf.bytes).length ≤ cap') :
    fileNeeds cap off bufs = fileNeeds cap' off bufs := by
  induction bufs generalizing off with
  | nil => rfl
  | cons b bufs ih =>
      rw [List.flatMap_cons, List.length_append] at h h'
      cases b with
      | memory bytes =>
          simp only [Buf.bytes] at h h'
          exact ih (by omega) (by omega)
      | file bytes =>
          simp only [Buf.bytes] at h h'
          show _ :: _ = _ :: _
          rw [ih (by omega) (by omega)]
          congr 1
          omega
      | special =>
          simp only [Buf.bytes, List.length_nil] at h h'
          exact ih (by omega) (by omega)

/-- Sizing the buffer to the known length spares no read. -/
theorem Arrival.fileNeeds_scanBufferSize {hash : Addr → Nat} (a : Arrival hash) (max : Nat)
    {bufs : List Buf} (hbufs : a.bufs = some bufs) :
    fileNeeds (scanBufferSize max a.contentLengthN) 0 bufs = fileNeeds max 0 bufs := by
  have hcomplete := a.complete
  rw [hbufs] at hcomplete
  simp only [Option.getD_some] at hcomplete
  unfold scanBufferSize
  by_cases hknown : a.contentLengthN > 0 ∧ (max : Int) > a.contentLengthN
  · rw [if_pos hknown]
    apply fileNeeds_of_le
    · omega
    · omega
  · rw [if_neg hknown]

/-! ## §2. The loops. -/

/-- A buffer that is complete takes no read. -/
theorem readLoop_complete (env : Env) {max : Nat} (fuel : Nat) (file out : Bytes) (w : World)
    {got : Option Bytes} {w' : World}
    (h : readLoop env max fuel file 0 out w = .ok (got, w')) :
    (got = none ↔ ∃ i, Needs env.readSizes 0 w.reads i ∧ env.readFile i ≤ 0)
      ∧ (got ≠ none → EndsAt env.readSizes 0 w.reads w'.reads) := by
  unfold readLoop at h
  obtain ⟨rfl, rfl⟩ : some out = got ∧ w = w' := by simpa using h
  refine ⟨iff_of_false (by simp) ?_, fun _ => endsAt_zero _ _⟩
  rintro ⟨i, hneeds, -⟩
  exact not_needs_zero _ _ _ hneeds

/-- **The loop over a buffer** makes the reads its bytes need, and gives up at the
first that fails. -/
theorem readLoop_reads (env : Env) {max : Nat} (fuel : Nat) (file : Bytes) (len : Nat)
    (out : Bytes) (w : World) (hfuel : len ≤ fuel) (hlen : len ≤ file.length)
    (hfits : out.length + len ≤ max) {got : Option Bytes} {w' : World}
    (h : readLoop env max fuel file len out w = .ok (got, w')) :
    (got = none ↔ ∃ i, Needs env.readSizes len w.reads i ∧ env.readFile i ≤ 0)
      ∧ (got ≠ none → EndsAt env.readSizes len w.reads w'.reads) := by
  induction fuel generalizing file len out w with
  | zero =>
      obtain rfl : len = 0 := by omega
      exact readLoop_complete env 0 file out w h
  | succ fuel ih =>
      cases len with
      | zero => exact readLoop_complete env (fuel + 1) file out w h
      | succ len =>
          rcases readLoop_round env fuel file out w hlen hfits with
            ⟨hfail, hround⟩ | ⟨n, hpos, hn, hpiece, hround⟩
          · -- the first read is needed, and fails
            rw [hround] at h
            obtain ⟨rfl, -⟩ : none = got ∧ w.noteRead = w' := by simpa using h
            refine ⟨iff_of_true rfl ?_, fun hne => absurd rfl hne⟩
            exact ⟨w.reads, needs_first _ (Nat.succ_pos len) w.reads, hfail⟩
          · -- what is left is what the first read did not bring
            have hleft : len + 1 - n = len + 1 - env.readSizes w.reads := by
              show len + 1 - n = len + 1 - (env.readFile w.reads).toNat
              omega
            rw [hround] at h
            obtain ⟨hnone, hends⟩ := ih (file.drop n) (len + 1 - n) (out ++ file.take n) w.noteRead
              (by omega) (by rw [List.length_drop]; omega) (by omega) h
            rw [hleft] at hnone hends
            refine ⟨?_, fun hne => endsAt_next _ (Nat.succ_pos len) (hends hne)⟩
            rw [hnone]
            constructor
            · rintro ⟨i, hneeds, hbad⟩
              exact ⟨i, (needs_iff _ (Nat.succ_pos len) _ i).mpr (.inr hneeds), hbad⟩
            · rintro ⟨i, hneeds, hbad⟩
              rcases (needs_iff _ (Nat.succ_pos len) _ i).mp hneeds with rfl | hlater
              · -- the first read brought something
                omega
              · exact ⟨i, hlater, hbad⟩

/-- **The loop over the chain** makes the reads its buffers need up to the cap, and
gives up at the first that fails. -/
theorem collectLoop_reads (env : Env) {max : Nat} (bufs : List Buf) (off : Nat) (out : Bytes)
    (w : World) (hoff : out.length = min off max) {got : Option Bytes} {w' : World}
    (h : collectLoop env max bufs out w = .ok (got, w')) :
    got = none ↔ ∃ i, NeedsAny env.readSizes (fileNeeds max off bufs) w.reads i
      ∧ env.readFile i ≤ 0 := by
  induction bufs generalizing off out w with
  | nil =>
      unfold collectLoop at h
      obtain ⟨rfl, -⟩ : some out = got ∧ w = w' := by simpa using h
      refine iff_of_false (by simp) ?_
      rintro ⟨i, hneeds, -⟩
      exact hneeds
  | cons b bufs ih =>
      unfold collectLoop at h
      by_cases hroom : out.length < max
      · rw [if_pos hroom] at h
        obtain rfl : out.length = off := by omega
        have hfull : out.length ≤ max := Nat.le_of_lt hroom
        cases b with
        | memory bytes =>
            have hlength := append_take_length bytes hfull
            simp only [fill_eq (hlength.trans_le (Nat.min_le_right _ max)), ok_bind] at h
            exact ih (out.length + bytes.length) _ w hlength h
        | file bytes =>
            show _ ↔ ∃ i, NeedsAny env.readSizes
              (min bytes.length (max - out.length)
                :: fileNeeds max (out.length + bytes.length) bufs) w.reads i ∧ _
            obtain ⟨got₁, w₁, hread, -, hout, -⟩ := @readLoop_spec env max
              (min bytes.length (max - out.length)) bytes (min bytes.length (max - out.length))
              out w (Nat.le_refl _) (Nat.min_le_left _ _) (by omega)
            obtain ⟨hnone, hends⟩ := readLoop_reads env _ bytes _ out w (Nat.le_refl _)
              (Nat.min_le_left _ _) (by omega) hread
            simp only [hread, ok_bind] at h
            cases got₁ with
            | none =>
                -- the chain is given up where this buffer is
                obtain ⟨rfl, -⟩ : none = got ∧ w₁ = w' := by simpa using h
                obtain ⟨i, hneeds, hbad⟩ := hnone.mp rfl
                exact iff_of_true rfl ⟨i, .inl hneeds, hbad⟩
            | some out₁ =>
                obtain rfl := hout out₁ rfl
                rw [ih (out.length + bytes.length) _ w₁ (append_take_length bytes hfull) h]
                constructor
                · rintro ⟨i, hneeds, hbad⟩
                  exact ⟨i, .inr ⟨w₁.reads, hends (by simp), hneeds⟩, hbad⟩
                · rintro ⟨i, hneeds, hbad⟩
                  rcases (needsAny_cons_iff _ (hends (by simp)) _ i).mp hneeds with hhere | hlater
                  · cases hnone.mpr ⟨i, hhere, hbad⟩
                  · exact ⟨i, hlater, hbad⟩
        | special => exact ih out.length out w hoff h
      · -- the buffer is full: what is left of the chain needs no read
        rw [if_neg hroom] at h
        obtain ⟨rfl, -⟩ : some out = got ∧ w = w' := by simpa using h
        refine iff_of_false (by simp) ?_
        rintro ⟨i, hneeds, -⟩
        exact not_needsAny_of_zeros _ (fileNeeds_past (by omega) (b :: bufs)) _ i hneeds

/-! ## §3. The body. -/

theorem collectBody_none_iff (env : Env) (max : Nat) (a : Arrival env.hash) (w : World)
    {got : Option Bytes} {w' : World} (h : collectBody env max a w = .ok (got, w')) :
    got = none ↔ CollectFails env max a w := by
  unfold collectBody at h
  cases hbufs : a.bufs with
  | none =>
      simp only [hbufs] at h
      obtain ⟨rfl, -⟩ : some [] = got ∧ w = w' := by simpa using h
      refine iff_of_false (by simp) ?_
      rintro ⟨bufs, hsome, -⟩
      cases hbufs.symm.trans hsome
  | some bufs =>
      by_cases hmax : max = 0
      · simp only [hbufs, if_pos hmax] at h
        obtain ⟨rfl, -⟩ : some [] = got ∧ w = w' := by simpa using h
        refine iff_of_false (by simp) ?_
        rintro ⟨-, -, hpos, -⟩
        exact hpos hmax
      · simp only [hbufs, if_neg hmax] at h
        by_cases hgranted : (w.palloc env).1 = true
        · rw [if_pos hgranted] at h
          have hreads :=
            collectLoop_reads env bufs 0 [] (w.palloc env).2 (Nat.zero_min _).symm h
          rw [a.fileNeeds_scanBufferSize max hbufs] at hreads
          rw [hreads]
          constructor
          · intro hfailed
            exact ⟨bufs, hbufs, hmax, .inr hfailed⟩
          · rintro ⟨bufs', hbufs', -, hrefused | hfailed⟩
            · cases hrefused.symm.trans hgranted
            · obtain rfl : bufs = bufs' := Option.some.inj (hbufs.symm.trans hbufs')
              exact hfailed
        · rw [if_neg hgranted] at h
          obtain ⟨rfl, -⟩ : none = got ∧ (w.palloc env).2 = w' := by simpa using h
          exact iff_of_true rfl ⟨bufs, hbufs, hmax, .inl (Bool.eq_false_iff.mpr hgranted)⟩

/-- **Collecting the body** ends with an error exactly when something it takes is not
granted or fails, and else with the first `max` bytes of the body: not with fewer, and
not with a byte behind the buffer, however the chain is cut and the reads are short. -/
theorem collectBody_whole (env : Env) (max : Nat) (a : Arrival env.hash) (w : World) :
    ∃ w', (CollectFails env max a w ∧ collectBody env max a w = .ok (none, w'))
      ∨ (¬ CollectFails env max a w
        ∧ collectBody env max a w = .ok (some (a.content.take max), w')) := by
  obtain ⟨got, w', hcollect, -, hout, -⟩ := collectBody_spec env max a w
  have hfails := collectBody_none_iff env max a w hcollect
  refine ⟨w', ?_⟩
  cases got with
  | none => exact .inl ⟨hfails.mp rfl, hcollect⟩
  | some out =>
      right
      constructor
      · intro hfailed
        cases hfails.mpr hfailed
      · rw [← hout out rfl]
        exact hcollect

end HttpShield
