import Leviathan.Client.State
import Leviathan.Lib.Text

/-!
# Batch ids as texts

`from_str` of `shared/core/src/batch_id.rs`, next to the `Display` it should undo. It looks for the first `[`, `,` and
`]` and slices between them, in whatever order they are. Positions count characters here and bytes there, which makes no
difference to what is between them.
-/

namespace Leviathan
open Exec List

/-- Rust `&s[start..end]`. A slice cannot end before it starts. -/
def sliceText (s : Text) (start end_ : Nat) : Exec String Panic Text := do
  Exec.ensure (start ≤ end_) .indexOutOfBounds
  .ok ((s.take end_).drop start)

lemma sliceText_eq_ok {s t : Text} {start end_ : Nat} :
    sliceText s start end_ = .ok t ↔ start ≤ end_ ∧ t = (s.take end_).drop start := by
  simp only [sliceText, bind_eq_ok, ensure_eq_ok, Except.ok.injEq, exists_and_left, exists_const]
  exact and_congr_right fun _ => eq_comm

lemma sliceText_eq_panic {s : Text} {start end_ : Nat} {p : Panic} :
    sliceText s start end_ = .error (.panic p) ↔ end_ < start ∧ p = .indexOutOfBounds := by
  unfold sliceText Exec.ensure
  split
  · exact iff_of_false (by rintro ⟨⟩) (by omega)
  · rw [and_iff_right (by omega)]
    constructor
    · rintro ⟨⟩
      rfl
    · rintro rfl
      rfl

namespace RawBatchId

/-- Rust `from_str`. The interval is not made by `ClosedInterval::new`. -/
def fromStr (s : Text) : Exec String Panic RawBatchId := do
  let s := Text.trimStartMatches 'B' s
  let startBracket ← Exec.okOr (find s ['[']) "Missing '[' in input"
  let comma ← Exec.okOr (find s [',']) "Missing ',' in input"
  let endBracket ← Exec.okOr (find s [']']) "Missing ']' in input"
  let startText ← sliceText s (startBracket + 1) comma
  let start ← Exec.okOr (Text.parseUnsigned 64 startText) "Failed to parse start value"
  let endText ← sliceText s (comma + 1) endBracket
  let end_ ← Exec.okOr (Text.parseUnsigned 64 endText) "Failed to parse end value"
  .ok ⟨BitVec.ofNat 64 start, BitVec.ofNat 64 end_⟩

/-- A batch in the form that is read back: with brackets, and with no blank. -/
def compact (b : RawBatchId) : Text :=
  'B' :: '[' :: ((toString b.start.toNat).toList ++ ',' :: ((toString b.end_.toNat).toList ++ [']']))

/-- The three characters are there but not in order, and the text between the first two is a number if those are. -/
def Disordered (s : Text) : Prop :=
  ∃ startBracket comma endBracket, find s ['['] = some startBracket ∧ find s [','] = some comma
    ∧ find s [']'] = some endBracket
    ∧ (comma ≤ startBracket
      ∨ (Text.parseUnsigned 64 ((s.take comma).drop (startBracket + 1))).isSome ∧ endBracket ≤ comma)

/-- The three characters are in order, and the numbers between them are the bounds of a batch. -/
def Reads (s : Text) (b : RawBatchId) : Prop :=
  ∃ startBracket comma endBracket, find s ['['] = some startBracket ∧ find s [','] = some comma
    ∧ find s [']'] = some endBracket ∧ startBracket < comma ∧ comma < endBracket
    ∧ Text.parseUnsigned 64 ((s.take comma).drop (startBracket + 1)) = some b.start.toNat
    ∧ Text.parseUnsigned 64 ((s.take endBracket).drop (comma + 1)) = some b.end_.toNat

/-- The number before the comma is at most the one behind it. -/
def InOrder (s : Text) : Prop :=
  ∃ startBracket comma endBracket n m, find s ['['] = some startBracket ∧ find s [','] = some comma
    ∧ find s [']'] = some endBracket ∧ Text.parseUnsigned 64 ((s.take comma).drop (startBracket + 1)) = some n
    ∧ Text.parseUnsigned 64 ((s.take endBracket).drop (comma + 1)) = some m ∧ n ≤ m

variable {b : RawBatchId}

lemma display_several (h : b.start ≠ b.end_) : b.display.toList
    = 'B' :: '[' :: ((toString b.start.toNat).toList ++ ',' :: ' ' :: ((toString b.end_.toNat).toList ++ [']'])) := by
  simp only [display, if_neg h, String.toList_append, append_assoc]
  rfl

lemma display_one (h : b.start = b.end_) : b.display.toList = 'B' :: (toString b.start.toNat).toList := by
  simp only [display, if_pos h, String.toList_append]
  rfl

lemma fromStr_brackets {start end_ : Text} {n : Nat} (hs : ',' ∉ start ∧ ']' ∉ start) (he : ']' ∉ end_)
    (hn : Text.parseUnsigned 64 start = some n) : fromStr ('B' :: '[' :: (start ++ ',' :: (end_ ++ [']'])))
      = (Exec.okOr (Text.parseUnsigned 64 end_) "Failed to parse end value" >>= fun m =>
        .ok ⟨BitVec.ofNat 64 n, BitVec.ofNat 64 m⟩) := by
  have htrim : Text.trimStartMatches 'B' ('B' :: '[' :: (start ++ ',' :: (end_ ++ [']'])))
      = '[' :: (start ++ ',' :: (end_ ++ [']'])) := rfl
  have hcut : '[' :: (start ++ ',' :: (end_ ++ [']'])) = ('[' :: (start ++ ',' :: end_)) ++ [']'] := by simp
  have hopen : find ('[' :: (start ++ ',' :: (end_ ++ [']']))) ['['] = some 0 := find_of_notMem (u := []) not_mem_nil
  have hcomma : find ('[' :: (start ++ ',' :: (end_ ++ [']']))) [','] = some ('[' :: start).length :=
    find_of_notMem (u := '[' :: start) (by simp [hs.1])
  have hclose : find ('[' :: (start ++ ',' :: (end_ ++ [']']))) [']'] = some ('[' :: (start ++ ',' :: end_)).length := by
    rw [hcut]
    exact find_of_notMem (by simp [hs.2, he])
  have hstart : sliceText ('[' :: (start ++ ',' :: (end_ ++ [']']))) (0 + 1) ('[' :: start).length = .ok start := by
    rw [sliceText, ensure_of (by simp), ok_bind, ← cons_append, take_left]
    rfl
  have hend : sliceText ('[' :: (start ++ ',' :: (end_ ++ [']']))) (('[' :: start).length + 1)
      ('[' :: (start ++ ',' :: end_)).length = .ok end_ := by
    rw [sliceText, ensure_of (by simp), ok_bind, hcut, take_left,
      show '[' :: (start ++ ',' :: end_) = ('[' :: start ++ [',']) ++ end_ by simp, drop_left' (by simp)]
  simp only [fromStr, htrim, hopen, hcomma, hclose, Exec.okOr, ok_bind, hstart, hn, hend]

lemma fromStr_display (b : RawBatchId) : fromStr b.display.toList
    = Exec.fail (if b.start = b.end_ then "Missing '[' in input" else "Failed to parse end value") := by
  by_cases h : b.start = b.end_
  · have hopen : find (toString b.start.toNat).toList ['['] = none := find_eq_none (Text.notMem_toString (by decide))
    rw [display_one h, if_pos h, fromStr, Text.trimStartMatches_cons (Text.notMem_toString (by decide)), hopen]
    rfl
  · have hend : ']' ∉ ' ' :: (toString b.end_.toNat).toList := by
      rw [mem_cons, not_or]
      exact ⟨by decide, Text.notMem_toString (by decide)⟩
    have hstart : ',' ∉ (toString b.start.toNat).toList ∧ ']' ∉ (toString b.start.toNat).toList :=
      ⟨Text.notMem_toString (by decide), Text.notMem_toString (by decide)⟩
    have hread := fromStr_brackets hstart hend (Text.parseUnsigned_toString b.start.isLt)
    -- the blank is taken for a part of the second number
    rw [Text.parseUnsigned_eq_none mem_cons_self (by decide) (by decide)] at hread
    rw [display_several h, if_neg h]
    exact hread

lemma fromStr_compact (b : RawBatchId) : fromStr b.compact = .ok b := by
  rw [compact, fromStr_brackets ⟨Text.notMem_toString (by decide), Text.notMem_toString (by decide)⟩
    (Text.notMem_toString (by decide)) (Text.parseUnsigned_toString b.start.isLt),
    Text.parseUnsigned_toString b.end_.isLt, Exec.okOr, ok_bind, BitVec.ofNat_toNat, BitVec.ofNat_toNat]
  simp only [BitVec.setWidth_eq]

lemma fromStr_panic (s : Text) : (∃ p, fromStr s = .error (.panic p)) ↔ Disordered (Text.trimStartMatches 'B' s) := by
  unfold fromStr Disordered
  simp only [bind_eq_error, okOr_eq_ok, okOr_eq_panic, sliceText_eq_ok, sliceText_eq_panic, false_or]
  constructor
  · rintro ⟨p, startBracket, hopen, comma, hcomma, endBracket, hclose, horder⟩
    refine ⟨startBracket, comma, endBracket, hopen, hcomma, hclose, ?_⟩
    obtain ⟨hlt, _⟩ | ⟨_, ⟨_, rfl⟩, n, hn, ⟨hlt, _⟩ | ⟨_, _, _, _, ⟨⟩⟩⟩ := horder
    · exact .inl (by omega)
    · exact .inr ⟨by rw [hn]; rfl, by omega⟩
  · rintro ⟨startBracket, comma, endBracket, hopen, hcomma, hclose, horder⟩
    refine ⟨.indexOutOfBounds, startBracket, hopen, comma, hcomma, endBracket, hclose, ?_⟩
    by_cases hlt : comma ≤ startBracket
    · exact .inl ⟨by omega, rfl⟩
    · obtain ⟨hsome, hle⟩ := horder.resolve_left hlt
      obtain ⟨n, hn⟩ := Option.isSome_iff_exists.mp hsome
      exact .inr ⟨_, ⟨by omega, rfl⟩, n, hn, .inl ⟨by omega, rfl⟩⟩

lemma fromStr_eq_ok (s : Text) : fromStr s = .ok b ↔ Reads (Text.trimStartMatches 'B' s) b := by
  simp only [fromStr, Reads, bind_eq_ok, okOr_eq_ok, sliceText_eq_ok, Except.ok.injEq]
  constructor
  · rintro ⟨startBracket, hopen, comma, hcomma, endBracket, hclose, _, ⟨hlt, rfl⟩, n, hn, _, ⟨hlt', rfl⟩, m, hm, rfl⟩
    refine ⟨startBracket, comma, endBracket, hopen, hcomma, hclose, hlt, hlt', ?_, ?_⟩
    · rw [hn, BitVec.toNat_ofNat, Nat.mod_eq_of_lt (Text.parseUnsigned_lt hn)]
    · rw [hm, BitVec.toNat_ofNat, Nat.mod_eq_of_lt (Text.parseUnsigned_lt hm)]
  · rintro ⟨startBracket, comma, endBracket, hopen, hcomma, hclose, hlt, hlt', hn, hm⟩
    refine ⟨startBracket, hopen, comma, hcomma, endBracket, hclose, _, ⟨hlt, rfl⟩, _, hn, _, ⟨hlt', rfl⟩, _, hm, ?_⟩
    simp only [BitVec.ofNat_toNat, BitVec.setWidth_eq]

/-- A batch that is read has its bounds in order just if the text has. -/
lemma start_le_end_iff {s : Text} (h : Reads s b) : b.start ≤ b.end_ ↔ InOrder s := by
  obtain ⟨startBracket, comma, endBracket, hopen, hcomma, hclose, _, _, hn, hm⟩ := h
  constructor
  · exact fun hle => ⟨_, _, _, _, _, hopen, hcomma, hclose, hn, hm, hle⟩
  · rintro ⟨_, _, _, n, m, hopen', hcomma', hclose', hn', hm', hle⟩
    cases hopen.symm.trans hopen'
    cases hcomma.symm.trans hcomma'
    cases hclose.symm.trans hclose'
    cases hn.symm.trans hn'
    cases hm.symm.trans hm'
    exact hle

/-- What is read back and what is not. A printed batch never is; the same without the blank and with brackets always is,
whether or not its bounds are in order. The parser panics on the characters it looks for in a wrong order, and reads the two
numbers of a text that has them in order; the bounds are those, in whichever order the text has them. -/
theorem fromStr_spec (b : RawBatchId) (s : Text) :
    fromStr b.display.toList
      = Exec.fail (if b.start = b.end_ then "Missing '[' in input" else "Failed to parse end value")
    ∧ fromStr b.compact = .ok b
    ∧ ((∃ p, fromStr s = .error (.panic p)) ↔ Disordered (Text.trimStartMatches 'B' s))
    ∧ (fromStr s = .ok b ↔ Reads (Text.trimStartMatches 'B' s) b)
    ∧ (fromStr s = .ok b → (b.start ≤ b.end_ ↔ InOrder (Text.trimStartMatches 'B' s))) :=
  ⟨fromStr_display b, fromStr_compact b, fromStr_panic s, fromStr_eq_ok s,
    fun h => start_le_end_iff ((fromStr_eq_ok s).mp h)⟩

/-- A batch of one sample, a batch of six, a text with its comma in front, and one with its bounds exchanged. -/
theorem fromStr_failures :
    fromStr (RawBatchId.display ⟨5, 5⟩).toList = Exec.fail "Missing '[' in input"
      ∧ fromStr (RawBatchId.display ⟨0, 5⟩).toList = Exec.fail "Failed to parse end value"
      ∧ fromStr ",[]".toList = Exec.abort .indexOutOfBounds
      ∧ fromStr "B[5,3]".toList = .ok ⟨5, 3⟩ := by
  decide +kernel

end RawBatchId
end Leviathan
