/-
  HttpShield.Request.Dotfile
  ──────────────────────────
  The `dotfile` check, segment by segment.

  The loop decides at the first byte of a segment: it looks ahead for the three
  segments that are let through, and otherwise reports the dot.  Each look ahead is
  compared with the whole segment.

    • `wellKnownAt_reads`    — the comparison with `.well-known` stays inside the path,
    • `dotfileLoop_eq`       — what the loop answers from any position on,
    • `checkDotfile_exact`   — a hit exactly when a segment is a dotfile.
-/
import HttpShield.Lib.Segments
import HttpShield.Request.Flagged
import HttpShield.Request.Verdict

namespace HttpShield

open Segments

/-! ## §1. Dotfiles. -/

/-- A segment that is a dotfile: it begins with a dot, and is none of the three that are
let through. -/
def IsDotfile (seg : Bytes) : Prop :=
  seg.head? = some 46 ∧ seg ≠ bytesOf "." ∧ seg ≠ bytesOf ".." ∧ seg ≠ bytesOf ".well-known"

instance (seg : Bytes) : Decidable (IsDotfile seg) := inferInstanceAs (Decidable (_ ∧ _))

/-- The segment that begins at a position. -/
def segmentAt (uri : Bytes) (i : Nat) : Bytes := (uri.drop i).takeWhile (· ≠ 47)

/-- The answer that the loop has to give from a position on. -/
def DotfileFrom (uri : Bytes) (i : Nat) (atSegmentStart : Bool) : Prop :=
  (atSegmentStart = true ∧ IsDotfile (segmentAt uri i))
    ∨ ∃ seg, Later 47 (uri.drop i) seg ∧ IsDotfile seg

/-! ## §2. Looking ahead. -/

theorem byteAt_drop (uri : Bytes) (i k : Nat) : byteAt uri (i + k) = byteAt (uri.drop i) k := by
  unfold byteAt
  rw [List.getElem?_drop]

theorem loneDotAt_eq {uri t : Bytes} {i : Nat} (h : uri.drop i = 46 :: t) :
    loneDotAt uri i (uri.length - i) = .ok (decide (segmentAt uri i = bytesOf ".")) := by
  have hdot : bytesOf "." = [46] := by decide
  unfold loneDotAt segmentAt
  rw [← List.length_drop, byteAt_drop, h, hdot]
  cases t with
  | nil => rfl
  | cons d t =>
      by_cases hd : d = 47
      · subst hd
        simp [byteAt]
      · simp [byteAt, hd]

theorem dotDotAt_eq {uri t : Bytes} {i : Nat} (h : uri.drop i = 46 :: t) :
    dotDotAt uri i (uri.length - i) = .ok (decide (segmentAt uri i = bytesOf "..")) := by
  have hdots : bytesOf ".." = [46, 46] := by decide
  unfold dotDotAt segmentAt
  rw [← List.length_drop, byteAt_drop, byteAt_drop, h, hdots]
  cases t with
  | nil => rfl
  | cons d t =>
      by_cases hd : d = 46
      · subst hd
        cases t with
        | nil => rfl
        | cons e t =>
            by_cases he : e = 47
            · subst he
              simp [byteAt]
            · simp [byteAt, he]
      · cases t with
        | nil => by_cases hslash : d = 47 <;> simp [byteAt, hd, hslash]
        | cons e t => by_cases hslash : d = 47 <;> simp [byteAt, hd, hslash]

/-- The segment is a given word: the word is there, and then a slash or the end. -/
theorem segmentAt_eq_iff {uri w : Bytes} {i : Nat} (hw : (47 : UInt8) ∉ w) :
    segmentAt uri i = w ↔ (uri.drop i).take w.length = w
      ∧ ((uri.drop i).length = w.length ∨ (uri.drop i)[w.length]? = some 47) := by
  unfold segmentAt
  rw [takeWhile_eq_iff]
  constructor
  · rintro ⟨behind, hdrop, -, hends⟩
    rw [hdrop]
    refine ⟨List.take_left, ?_⟩
    rcases hends with rfl | ⟨b, rfl⟩
    · exact .inl (by rw [List.append_nil])
    · exact .inr (by simp)
  · rintro ⟨htake, hends⟩
    refine ⟨(uri.drop i).drop w.length, ?_, hw, ?_⟩
    · conv_lhs => rw [← List.take_append_drop w.length (uri.drop i), htake]
    · rcases hends with hlen | hslash
      · exact .inl (List.drop_eq_nil_of_le (Nat.le_of_eq hlen))
      · obtain ⟨hlt, hget⟩ := List.getElem?_eq_some_iff.mp hslash
        exact .inr ⟨_, by rw [List.drop_eq_getElem_cons hlt, hget]⟩

/-- A word that is there fits the rest of the path. -/
theorem length_le_of_take {uri w : Bytes} {i : Nat} (h : (uri.drop i).take w.length = w) :
    w.length ≤ uri.length - i := by
  rw [← List.length_drop, ← h, List.length_take]
  exact Nat.min_le_right _ _

theorem wellKnownAt_eq (uri : Bytes) (i : Nat) :
    wellKnownAt uri i (uri.length - i) = .ok (decide (segmentAt uri i = wellKnown)) := by
  have hslash : (47 : UInt8) ∉ wellKnown := by decide
  unfold wellKnownAt
  by_cases htake : (uri.drop i).take wellKnown.length = wellKnown
  · have hlen := length_le_of_take htake
    rw [if_pos ⟨hlen, htake⟩]
    rw [← List.length_drop] at hlen ⊢
    rw [byteAt_drop]
    by_cases hend : (uri.drop i).length = wellKnown.length
    · rw [if_pos hend, decide_eq_true ((segmentAt_eq_iff hslash).mpr ⟨htake, .inl hend⟩)]
      rfl
    · rw [if_neg hend, byteAt_eq (by omega)]
      have hlt : wellKnown.length < (uri.drop i).length := by omega
      have hiff : (uri.drop i)[wellKnown.length] = 47 ↔ segmentAt uri i = wellKnown := by
        rw [segmentAt_eq_iff hslash, List.getElem?_eq_getElem hlt, Option.some_inj]
        simp only [htake, hend, false_or, true_and]
      rw [← decide_eq_decide.mpr hiff]
      rfl
  · rw [if_neg fun h => htake h.2,
      decide_eq_false fun h => htake ((segmentAt_eq_iff hslash).mp h).1]
    rfl

/-- `ngx_strncmp(&data[i], s, n) == 0` for a literal `s` of `n` bytes, which has no NUL:
it goes on while the bytes agree. -/
def sameAt (data : Bytes) : Nat → Bytes → Except Fault Bool
  | _, [] => .ok true
  | i, c :: s => do
      if (← byteAt data i) = c then sameAt data (i + 1) s else return false

theorem sameAt_eq {data : Bytes} (s : Bytes) (i : Nat) (h : i + s.length ≤ data.length) :
    sameAt data i s = .ok (decide ((data.drop i).take s.length = s)) := by
  induction s generalizing i with
  | nil => rfl
  | cons c s ih =>
      rw [List.length_cons] at h
      unfold sameAt
      rw [byteAt_eq (by omega), ok_bind, ih (i + 1) (by omega),
        List.drop_eq_getElem_cons (show i < data.length by omega), List.length_cons,
        List.take_succ_cons]
      by_cases hc : data[i] = c
      · simp [hc]
      · simp [hc]

/-- **The comparison with `.well-known`**, each byte read on its own, stays inside the
path, and is the one of the loop. -/
theorem wellKnownAt_reads (uri : Bytes) (i : Nat) (hlong : wellKnown.length ≤ uri.length - i) :
    ∃ same, sameAt uri i wellKnown = .ok same
      ∧ (same = true ↔ (uri.drop i).take wellKnown.length = wellKnown) := by
  have hpos : 0 < wellKnown.length := by decide
  exact ⟨_, sameAt_eq wellKnown i (by omega), decide_eq_true_iff⟩

/-! ## §3. The loop. -/

/-- The segment that begins at a slash is empty. -/
theorem segmentAt_slash {uri t : Bytes} {i : Nat} (h : uri.drop i = 47 :: t) :
    segmentAt uri i = [] := by
  unfold segmentAt
  rw [h]
  rfl

/-- From a slash on, the answer is that from the segment behind it. -/
theorem dotfileFrom_slash {uri : Bytes} {i : Nat} (h : uri.drop i = 47 :: uri.drop (i + 1))
    (atSegmentStart : Bool) :
    DotfileFrom uri i atSegmentStart ↔ DotfileFrom uri (i + 1) true := by
  have hnone : ¬ IsDotfile (segmentAt uri i) := by
    rw [segmentAt_slash h]
    decide
  unfold DotfileFrom
  rw [h]
  simp only [hnone, and_false, false_or, true_and, later_cons_self, segment_iff]
  constructor
  · rintro ⟨seg, rfl | hlater, hdotfile⟩
    · exact .inl hdotfile
    · exact .inr ⟨seg, hlater, hdotfile⟩
  · rintro (hdotfile | ⟨seg, hlater, hdotfile⟩)
    · exact ⟨_, .inl rfl, hdotfile⟩
    · exact ⟨seg, .inr hlater, hdotfile⟩

/-- A piece of a segment that is none is skipped. -/
theorem dotfileFrom_skip {uri pre : Bytes} {i : Nat}
    (h : uri.drop i = pre ++ uri.drop (i + pre.length)) (hpre : (47 : UInt8) ∉ pre)
    {atSegmentStart : Bool} (hnone : ¬ (atSegmentStart = true ∧ IsDotfile (segmentAt uri i))) :
    DotfileFrom uri i atSegmentStart ↔ DotfileFrom uri (i + pre.length) false := by
  unfold DotfileFrom
  rw [h]
  simp only [hnone, false_or, Bool.false_eq_true, false_and, later_append hpre]

/-- A segment that is a given word is the word and what comes behind it. -/
theorem drop_segment {uri w : Bytes} {i : Nat} (hw : (47 : UInt8) ∉ w) (h : segmentAt uri i = w) :
    w.length ≤ uri.length - i ∧ uri.drop i = w ++ uri.drop (i + w.length) := by
  have htake := ((segmentAt_eq_iff hw).mp h).1
  refine ⟨length_le_of_take htake, ?_⟩
  conv_lhs => rw [← List.take_append_drop w.length (uri.drop i), htake, List.drop_drop]

/-- **The loop answers for the rest of the path**, from any position on: for the segment
that begins there, if one does, and for those behind a slash. -/
theorem dotfileLoop_eq {uri : Bytes} (fuel i : Nat) (atSegmentStart : Bool)
    (hle : i ≤ uri.length) (hfuel : uri.length < fuel + i) :
    ∃ found, dotfileLoop uri fuel i atSegmentStart = .ok found
      ∧ (found = true ↔ DotfileFrom uri i atSegmentStart) := by
  induction fuel generalizing i atSegmentStart with
  | zero => omega
  | succ fuel ih =>
      unfold dotfileLoop
      by_cases hi : i < uri.length
      · have hdrop : uri.drop i = uri[i] :: uri.drop (i + 1) := List.drop_eq_getElem_cons hi
        rw [if_pos hi, byteAt_eq hi, ok_bind]
        by_cases hslash : uri[i] = 47
        · rw [hslash] at hdrop
          rw [if_pos hslash, dotfileFrom_slash hdrop]
          exact ih (i + 1) true (by omega) (by omega)
        · rw [if_neg hslash]
          have hskip : ∀ {start : Bool}, ¬ (start = true ∧ IsDotfile (segmentAt uri i)) →
              (DotfileFrom uri i start ↔ DotfileFrom uri (i + 1) false) :=
            fun hnone =>
              @dotfileFrom_skip uri [uri[i]] i hdrop (by simpa using Ne.symm hslash) _ hnone
          by_cases hdot : atSegmentStart = true ∧ uri[i] = 46
          · -- a segment that begins with a dot
            rw [if_pos hdot]
            rw [hdot.2] at hdrop
            simp only [loneDotAt_eq hdrop, dotDotAt_eq hdrop, wellKnownAt_eq, ok_bind,
              decide_eq_true_eq]
            by_cases hlone : segmentAt uri i = bytesOf "."
            · rw [if_pos hlone, hskip fun h => h.2.2.1 hlone]
              exact ih (i + 1) false (by omega) (by omega)
            · rw [if_neg hlone]
              by_cases hdots : segmentAt uri i = bytesOf ".."
              · rw [if_pos hdots, hskip fun h => h.2.2.2.1 hdots]
                exact ih (i + 1) false (by omega) (by omega)
              · rw [if_neg hdots]
                by_cases hknown : segmentAt uri i = wellKnown
                · -- the whole segment is jumped over, to the slash behind it or the end
                  have hpos : 0 < wellKnown.length := by decide
                  obtain ⟨hfits, hbehind⟩ := drop_segment (by decide) hknown
                  rw [if_pos hknown, dotfileFrom_skip hbehind (by decide) fun h => h.2.2.2.2 hknown]
                  exact ih (i + wellKnown.length) false (by omega) (by omega)
                · rw [if_neg hknown]
                  refine ⟨true, rfl, iff_of_true rfl (.inl ⟨hdot.1, ?_, hlone, hdots, hknown⟩)⟩
                  unfold segmentAt
                  rw [hdrop]
                  rfl
          · rw [if_neg hdot, hskip]
            · exact ih (i + 1) false (by omega) (by omega)
            · rintro ⟨hstart, hhead, -⟩
              unfold segmentAt at hhead
              rw [hdrop, List.takeWhile_cons_of_pos (by simpa using hslash)] at hhead
              exact hdot ⟨hstart, Option.some.inj hhead⟩
      · -- at the end of the path no segment begins but the empty one
        have hnil : uri.drop i = [] := List.drop_eq_nil_of_le (by omega)
        rw [if_neg hi]
        refine ⟨false, rfl, iff_of_false Bool.false_ne_true ?_⟩
        unfold DotfileFrom segmentAt
        rw [hnil]
        rintro (⟨-, hdotfile⟩ | ⟨seg, hlater, -⟩)
        · exact absurd hdotfile (by decide)
        · exact not_later_nil seg hlater

/-- **The dotfile check is exact on segments.**  Unless it is skipped it reports a hit
exactly if some segment of the path is a dotfile; it reads no byte outside the path. -/
theorem checkDotfile_exact (skip : Mask) (r : Request)
    (hlive : skip.getLsbD ShieldCat.dotfile.bit = false) :
    ∃ found, checkDotfile skip r
        = .ok (if found then .ok (structuralHit .dotfile "dotfile" "uri") else .declined)
      ∧ (found = true ↔ ∃ seg, Segment 47 r.uri seg ∧ IsDotfile seg)
      ∧ ∀ i, wellKnown.length ≤ r.uri.length - i → ∃ same, sameAt r.uri i wellKnown = .ok same
        ∧ (same = true ↔ (r.uri.drop i).take wellKnown.length = wellKnown) := by
  have hgo : ¬ skip &&& ShieldCat.dotfile.mask ≠ 0 := by
    rw [and_mask_ne_zero_iff, hlive]
    exact Bool.false_ne_true
  obtain ⟨found, hloop, hfound⟩ :=
    @dotfileLoop_eq r.uri (r.uri.length + 1) 0 true (by omega) (by omega)
  refine ⟨found, ?_, ?_, wellKnownAt_reads r.uri⟩
  · unfold checkDotfile
    rw [if_neg hgo, hloop]
    cases found <;> rfl
  · rw [hfound]
    show (true = true ∧ IsDotfile ((r.uri.drop 0).takeWhile (· ≠ 47)))
      ∨ (∃ seg, Later 47 (r.uri.drop 0) seg ∧ IsDotfile seg) ↔ _
    simp only [segment_iff, List.drop_zero, true_and]
    constructor
    · rintro (hdotfile | ⟨seg, hlater, hdotfile⟩)
      · exact ⟨_, .inl rfl, hdotfile⟩
      · exact ⟨seg, .inr hlater, hdotfile⟩
    · rintro ⟨seg, rfl | hlater, hdotfile⟩
      · exact .inl hdotfile
      · exact .inr ⟨seg, hlater, hdotfile⟩

/-- A path with a dotfile below the directory that is let through. -/
def renewal : Request := { oneBytePost with uri := bytesOf "//.well-known/acme/.env/" }

theorem checkDotfile_exact_renewal :
    checkDotfile 0 renewal = .ok (.ok (structuralHit .dotfile "dotfile" "uri"))
      ∧ ∃ seg, Segment 47 renewal.uri seg ∧ IsDotfile seg := by
  have hrun : checkDotfile 0 renewal = .ok (.ok (structuralHit .dotfile "dotfile" "uri")) := by
    decide
  obtain ⟨found, hcheck, hiff, -⟩ := checkDotfile_exact 0 renewal (by decide)
  refine ⟨hrun, hiff.mp ?_⟩
  cases found with
  | true => rfl
  | false => cases Except.ok.inj (hrun.symm.trans hcheck)

end HttpShield
