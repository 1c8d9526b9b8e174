import Leviathan.Client.BatchId

/-!
# The names of dumps

A client writes each result it has applied to a file whose name says who made it, at which step and of which batch
(`gradientsFile`). The verifier goes by the names alone: `parse_committer` and `parse_batch_bounds` in
`architectures/decentralized/solana-tooling/src/daemon.rs`, `contribution_key` and `parse_assignment_key` in
`tools/rust-tools/leviathan-verifier`.

Two kinds of names are not read back. A batch of one sample is printed without brackets, which both parsers of batches
look for. And a dump is found by the first `step` in its name, which may be one of the key of its signer.
-/

namespace Leviathan.Verifier
open Exec List
open RawBatchId (display_one display_several)

def dumpSuffix : Text := ".vec-postcard".toList

/-- Who made the result in a file. -/
def parseCommitter (name : Text) : Option Text := do
  let rest ← name.dropPrefix? "result-".toList
  let end_ ← find rest "-step".toList
  some (rest.take end_)

/-- The bounds of a batch. A bracket that is closed before it is opened is not a slice. -/
def parseBatchBounds (text : Text) : Exec Unit Panic (Nat × Nat) := do
  let lb ← Exec.okOr (find text ['[']) ()
  let rb ← Exec.okOr (find text [']']) ()
  Exec.ensure (lb + 1 ≤ rb) .indexOutOfBounds
  let inner := (text.take rb).drop (lb + 1)
  match inner.splitOn ',' with
  | start :: end_ :: _ => do
    let start ← Exec.okOr (Text.parseUnsigned 64 (Text.trim start)) ()
    let end_ ← Exec.okOr (Text.parseUnsigned 64 (Text.trim end_)) ()
    .ok (start, end_)
  | _ => Exec.fail ()

def contributionKey (name : Text) : Option Text :=
  if dumpSuffix <:+ name then do
    let start ← find name "step".toList
    some (Text.trimEndMatches dumpSuffix (name.drop start))
  else
    none

/-- The step and the batch of a dump. -/
def parseAssignmentKey (key : Text) : Exec Unit Panic (Nat × BatchId) := do
  let parts ← Exec.okOr (key.dropInfix? "-batchB".toList) ()
  let digits ← Exec.okOr (parts.1.dropPrefix? "step".toList) ()
  let step ← Exec.okOr (Text.parseUnsigned 32 digits) ()
  let bounds := Text.trimEndMatches [']'] (Text.trimStartMatches '[' parts.2)
  let bounds ← Exec.okOr (bounds.dropInfix? [',']) ()
  let start ← Exec.okOr (Text.parseUnsigned 64 (Text.trim bounds.1)) ()
  let end_ ← Exec.okOr (Text.parseUnsigned 64 (Text.trim bounds.2)) ()
  let batchId ← ClosedInterval.new start end_
  .ok (step, batchId)

/-- The verifier reads back what the client has written: the signer, the step and the batch of a dump. -/
structure ReadBack (P : Platform) (signer : Pubkey) (step : BitVec 32) (batchId : RawBatchId) : Prop where
  committer : parseCommitter (gradientsFile P signer step batchId).toList = some (P.bs58 signer.bytes).toList
  assignment : ∃ key b, contributionKey (gradientsFile P signer step batchId).toList = some key
    ∧ parseAssignmentKey key = .ok (step.toNat, b) ∧ b.start = batchId.start.toNat ∧ b.end_ = batchId.end_.toNat
  bounds : parseBatchBounds batchId.display.toList = .ok (batchId.start.toNat, batchId.end_.toNat)

section Names
variable {P : Platform} {signer : Pubkey} {step : BitVec 32} {batchId : RawBatchId}

lemma dash_notMem_bs58 (hP : P.Base58) (bytes : Bytes) : '-' ∉ (P.bs58 bytes).toList := by
  intro h
  have := hP bytes '-' h
  revert this
  decide

lemma gradientsFile_toList : (gradientsFile P signer step batchId).toList
    = "result-".toList ++ ((P.bs58 signer.bytes).toList ++ ("-step".toList ++ ((toString step.toNat).toList
      ++ ("-batch".toList ++ batchId.display.toList) ++ dumpSuffix))) := by
  unfold gradientsFile dumpSuffix
  generalize P.bs58 signer.bytes = key
  generalize toString step.toNat = n
  generalize batchId.display = b
  rw [String.toList_append, String.toList_append, String.toList_append, String.toList_append, String.toList_append,
    String.toList_append]
  simp only [append_assoc]

lemma parseCommitter_gradientsFile (hP : P.Base58) :
    parseCommitter (gradientsFile P signer step batchId).toList = some (P.bs58 signer.bytes).toList := by
  rw [gradientsFile_toList, parseCommitter, dropPrefix?_append_of_beq _ (by simp)]
  have hfind := dropInfix?_of_notMem "step".toList
    ((toString step.toNat).toList ++ ("-batch".toList ++ batchId.display.toList) ++ dumpSuffix)
    (dash_notMem_bs58 hP signer.bytes)
  simp only [Option.bind_eq_bind, Option.bind_some, find]
  rw [show "-step".toList = '-' :: "step".toList from rfl, hfind]
  simp

lemma dropInfix?_step (key rest : Text) :
    ("result-".toList ++ (key ++ ("-step".toList ++ rest))).dropInfix? "step".toList
      = match key.dropInfix? "step".toList with
        | some p => some ("result-".toList ++ p.1, p.2 ++ ("-step".toList ++ rest))
        | none => some ("result-".toList ++ key ++ ['-'], rest) := by
  have hdash : ∀ s : Text, ('-' :: s).dropInfix? "step".toList
      = (s.dropInfix? "step".toList).map fun p => ('-' :: p.1, p.2) := by
    intro s
    refine dropInfix?_cons fun h => ?_
    cases (cons_prefix_cons.mp h).1
  rw [show "result-".toList ++ (key ++ ("-step".toList ++ rest))
    = "result".toList ++ '-' :: (key ++ '-' :: ("step".toList ++ rest)) from rfl]
  rw [dropInfix?_append_cons (by decide), show "result".toList.dropInfix? "step".toList = none by decide, hdash,
    dropInfix?_append_cons (by decide)]
  cases key.dropInfix? "step".toList with
  | some p => rfl
  | none =>
    rw [hdash, dropInfix?_self]
    rfl

lemma not_dumpSuffix {s : Text} {c : Char} (hs : s.getLast? = some c) (hc : c ≠ 'd') : ¬ dumpSuffix <:+ s := by
  rintro ⟨t, rfl⟩
  rw [getLast?_append_of_ne_nil _ (by decide), show dumpSuffix.getLast? = some 'd' by decide] at hs
  exact hc (Option.some.inj hs).symm

lemma display_getLast (batchId : RawBatchId) : ∃ c, batchId.display.toList.getLast? = some c ∧ c ≠ 'd' := by
  by_cases h : batchId.start = batchId.end_
  · rw [display_one h]
    obtain ⟨c, hc⟩ : ∃ c, (toString batchId.start.toNat).toList.getLast? = some c :=
      ⟨_, getLast?_eq_some_getLast Text.toString_ne_nil⟩
    refine ⟨c, ?_, ?_⟩
    · rw [getLast?_cons, hc]
      rfl
    · rintro rfl
      cases Text.isDigit_of_mem_toString (mem_of_getLast? hc)
  · refine ⟨']', ?_, by decide⟩
    rw [display_several h]
    simp [getLast?_cons, getLast?_append]

lemma trim_dump (s : Text) : Text.trimEndMatches dumpSuffix (s ++ batchId.display.toList ++ dumpSuffix)
    = s ++ batchId.display.toList := by
  obtain ⟨c, hlast, hc⟩ := display_getLast batchId
  have hne : batchId.display.toList ≠ [] := by
    rintro h
    rw [h] at hlast
    cases hlast
  rw [Text.trimEndMatches_append (by decide), Text.trimEndMatches_eq]
  refine not_dumpSuffix (c := c) ?_ hc
  rw [getLast?_append_of_ne_nil _ hne, hlast]

lemma contributionKey_gradientsFile : contributionKey (gradientsFile P signer step batchId).toList
    = some ("step".toList ++ ((match (P.bs58 signer.bytes).toList.dropInfix? "step".toList with
      | some p => p.2 ++ "-step".toList
      | none => []) ++ ((toString step.toNat).toList ++ "-batch".toList)) ++ batchId.display.toList) := by
  have hsuffix : dumpSuffix <:+ (gradientsFile P signer step batchId).toList := by
    rw [gradientsFile_toList]
    exact (((suffix_append _ _).trans (suffix_append _ _)).trans (suffix_append _ _)).trans
      (suffix_append _ _)
  obtain ⟨p, hp, hrest⟩ : ∃ p, (gradientsFile P signer step batchId).toList.dropInfix? "step".toList = some p
      ∧ p.2 = (match (P.bs58 signer.bytes).toList.dropInfix? "step".toList with
        | some p => p.2 ++ "-step".toList
        | none => []) ++ ((toString step.toNat).toList ++ "-batch".toList) ++ batchId.display.toList ++ dumpSuffix := by
    rw [gradientsFile_toList, dropInfix?_step]
    cases (P.bs58 signer.bytes).toList.dropInfix? "step".toList with
    | some q => exact ⟨_, rfl, by simp only [append_assoc]⟩
    | none => exact ⟨_, rfl, by simp only [append_assoc, nil_append]⟩
  rw [contributionKey, if_pos hsuffix, find, hp]
  simp only [Option.map_some, Option.bind_eq_bind, Option.bind_some, drop_of_dropInfix? hp, hrest]
  rw [← append_assoc, ← append_assoc, trim_dump]

lemma parseBatchBounds_several (h : batchId.start ≠ batchId.end_) :
    parseBatchBounds batchId.display.toList = .ok (batchId.start.toNat, batchId.end_.toNat) := by
  obtain ⟨s, hs⟩ : ∃ s, s = (toString batchId.start.toNat).toList := ⟨_, rfl⟩
  obtain ⟨e, he⟩ : ∃ e, e = (toString batchId.end_.toNat).toList := ⟨_, rfl⟩
  have hdigits : ∀ c : Char, c.isDigit = false → c ∉ s ∧ c ∉ e := by
    rintro c hc
    subst hs he
    exact ⟨Text.notMem_toString hc, Text.notMem_toString hc⟩
  have hlb : find batchId.display.toList ['['] = some 1 := by
    rw [display_several h]
    exact find_of_notMem (u := ['B']) (by decide)
  have hrb : find batchId.display.toList [']'] = some ('B' :: '[' :: (s ++ ',' :: ' ' :: e)).length := by
    rw [display_several h, ← hs, ← he, show 'B' :: '[' :: (s ++ ',' :: ' ' :: (e ++ [']']))
      = 'B' :: '[' :: (s ++ ',' :: ' ' :: e) ++ ']' :: [] by simp]
    refine find_of_notMem ?_
    simp [(hdigits ']' (by decide)).1, (hdigits ']' (by decide)).2]
  have hinner : (batchId.display.toList.take ('B' :: '[' :: (s ++ ',' :: ' ' :: e)).length).drop 2
      = s ++ ',' :: ' ' :: e := by
    rw [display_several h, ← hs, ← he, show 'B' :: '[' :: (s ++ ',' :: ' ' :: (e ++ [']']))
      = 'B' :: '[' :: (s ++ ',' :: ' ' :: e) ++ ']' :: [] by simp, take_left]
    rfl
  have hparts : (s ++ ',' :: ' ' :: e).splitOn ',' = [s, ' ' :: e] := by
    have hsep : ∀ l ∈ [s, ' ' :: e], ',' ∉ l := by
      simp [(hdigits ',' (by decide)).1, (hdigits ',' (by decide)).2]
    simpa [List.intercalate] using splitOn_intercalate ',' hsep (by simp)
  simp only [parseBatchBounds, bind_eq_ok, okOr_eq_ok, ensure_eq_ok]
  refine ⟨1, hlb, _, hrb, (), by simp, ?_⟩
  rw [hinner, hparts]
  simp only [bind_eq_ok, okOr_eq_ok, Text.trim_cons (show Text.isWhiteSpace ' ' = true by decide), hs, he,
    Text.trim_toString]
  exact ⟨_, Text.parseUnsigned_toString batchId.start.isLt, _, Text.parseUnsigned_toString batchId.end_.isLt, rfl⟩

lemma parseBatchBounds_one (h : batchId.start = batchId.end_) :
    parseBatchBounds batchId.display.toList = Exec.fail () := by
  have hnone : find batchId.display.toList ['['] = none := by
    rw [display_one h]
    refine find_eq_none ?_
    simp only [mem_cons, not_or]
    exact ⟨by decide, Text.notMem_toString (by decide)⟩
  rw [parseBatchBounds, hnone]
  rfl

lemma display_cons (batchId : RawBatchId) : ∃ b, batchId.display.toList = 'B' :: b := by
  by_cases h : batchId.start = batchId.end_
  · exact ⟨_, display_one h⟩
  · exact ⟨_, display_several h⟩

lemma parseAssignmentKey_several (step : BitVec 32) (hle : batchId.start ≤ batchId.end_) (h : batchId.start ≠ batchId.end_) :
    ∃ b, parseAssignmentKey ("step".toList ++ ((toString step.toNat).toList ++ "-batch".toList)
        ++ batchId.display.toList) = .ok (step.toNat, b)
      ∧ b.start = batchId.start.toNat ∧ b.end_ = batchId.end_.toNat := by
  have hle' : batchId.start.toNat ≤ batchId.end_.toNat := BitVec.le_def.mp hle
  refine ⟨⟨batchId.start.toNat, batchId.end_.toNat, hle'⟩, ?_, rfl, rfl⟩
  obtain ⟨n, hn⟩ : ∃ n, n = (toString step.toNat).toList := ⟨_, rfl⟩
  obtain ⟨s, hs⟩ : ∃ s, s = (toString batchId.start.toNat).toList := ⟨_, rfl⟩
  obtain ⟨e, he⟩ : ∃ e, e = (toString batchId.end_.toNat).toList := ⟨_, rfl⟩
  have hdigits : ∀ c : Char, c.isDigit = false → c ∉ n ∧ c ∉ s ∧ c ∉ e := by
    rintro c hc
    subst hn hs he
    exact ⟨Text.notMem_toString hc, Text.notMem_toString hc, Text.notMem_toString hc⟩
  have hcut : ("step".toList ++ (n ++ "-batch".toList) ++ batchId.display.toList).dropInfix? "-batchB".toList
      = some ("step".toList ++ n, '[' :: (s ++ ',' :: ' ' :: e ++ [']'])) := by
    have hkey : "step".toList ++ (n ++ "-batch".toList) ++ batchId.display.toList
        = ("step".toList ++ n) ++ ('-' :: "batchB".toList ++ '[' :: (s ++ ',' :: ' ' :: e ++ [']'])) := by
      rw [display_several h, ← hs, ← he]
      simp
    rw [hkey]
    refine dropInfix?_of_notMem _ _ ?_
    rw [mem_append, not_or]
    exact ⟨by decide, (hdigits '-' (by decide)).1⟩
  have hbounds : Text.trimEndMatches [']'] (Text.trimStartMatches '[' ('[' :: (s ++ ',' :: ' ' :: e ++ [']'])))
      = s ++ ',' :: ' ' :: e := by
    rw [Text.trimStartMatches_cons (by simp [(hdigits '[' (by decide)).2]),
      Text.trimEndMatches_append (by decide), Text.trimEndMatches_eq]
    rintro hsuffix
    have hmem := hsuffix.mem (mem_singleton.mpr rfl)
    simp [(hdigits ']' (by decide)).2] at hmem
  have hcomma : (s ++ ',' :: ' ' :: e).dropInfix? [','] = some (s, ' ' :: e) :=
    dropInfix?_of_notMem [] _ (hdigits ',' (by decide)).2.1
  simp only [parseAssignmentKey, bind_eq_ok, okOr_eq_ok, ← hn, hcut, Option.some.injEq]
  refine ⟨_, rfl, n, dropPrefix?_append_of_beq _ (by simp), step.toNat, ?_, _, hbounds ▸ hcomma, batchId.start.toNat, ?_,
    batchId.end_.toNat, ?_, _, dif_pos hle', rfl⟩
  · rw [hn, Text.parseUnsigned_toString step.isLt]
  · rw [hs, Text.trim_toString, Text.parseUnsigned_toString batchId.start.isLt]
  · rw [Text.trim_cons (by decide), he, Text.trim_toString, Text.parseUnsigned_toString batchId.end_.isLt]

/-- What comes of a `step` in the key of a signer is not read as a step. -/
lemma parseAssignmentKey_step {q : Text} {x : Nat × BatchId} (hq : '-' ∉ q) :
    parseAssignmentKey ("step".toList ++ (q ++ "-step".toList ++ ((toString step.toNat).toList ++ "-batch".toList))
      ++ batchId.display.toList) ≠ .ok x := by
  obtain ⟨b, hb⟩ := display_cons batchId
  obtain ⟨n, hn⟩ : ∃ n, n = (toString step.toNat).toList := ⟨_, rfl⟩
  have hcut : ("step".toList ++ (q ++ "-step".toList ++ (n ++ "-batch".toList)) ++ batchId.display.toList).dropInfix?
      "-batchB".toList = some ("step".toList ++ (q ++ '-' :: ("step".toList ++ n)), b) := by
    have hkey : "step".toList ++ (q ++ "-step".toList ++ (n ++ "-batch".toList)) ++ batchId.display.toList
        = ("step".toList ++ q) ++ '-' :: (("step".toList ++ n) ++ ('-' :: "batchB".toList ++ b)) := by
      rw [hb]
      simp
    have hfront : '-' ∉ "step".toList ++ q := by
      rw [mem_append, not_or]
      exact ⟨by decide, hq⟩
    have hback : '-' ∉ "step".toList ++ n := by
      rw [mem_append, not_or, hn]
      exact ⟨by decide, Text.notMem_toString (by decide)⟩
    rw [hkey, show "-batchB".toList = '-' :: "batchB".toList from rfl, dropInfix?_append_of_notMem hfront,
      dropInfix?_cons, dropInfix?_of_notMem _ _ hback]
    · simp
    · rintro hp
      cases (cons_prefix_cons.mp (cons_prefix_cons.mp hp).2).1
  intro h
  simp only [parseAssignmentKey, bind_eq_ok, okOr_eq_ok, ← hn, hcut, Option.some.injEq] at h
  obtain ⟨_, rfl, digits, hdigits, _, hstep, _⟩ := h
  rw [dropPrefix?_append_of_beq _ (by simp)] at hdigits
  cases hdigits
  rw [Text.parseUnsigned_eq_none (c := '-') (by simp) (by decide) (by decide)] at hstep
  cases hstep

lemma not_readBack_one (h : batchId.start = batchId.end_) : ¬ ReadBack P signer step batchId := by
  rintro ⟨_, _, hbounds⟩
  rw [parseBatchBounds_one h] at hbounds
  cases hbounds

lemma not_readBack_step (hP : P.Base58) (h : "step".toList <:+: (P.bs58 signer.bytes).toList) : ¬ ReadBack P signer step batchId := by
  rintro ⟨_, ⟨key, b, hkey, hassignment, _⟩, _⟩
  obtain ⟨p, hp⟩ := exists_dropInfix? h
  rw [contributionKey_gradientsFile, hp] at hkey
  cases hkey
  refine parseAssignmentKey_step (fun hq => ?_) hassignment
  refine dash_notMem_bs58 hP signer.bytes ?_
  rw [eq_of_dropInfix? hp]
  exact mem_append_right _ hq

/-- Dumps are read back, but for batches of one sample and for some keys: the verifier finds the signer, the step and the
batch in the name of the file, if and only if the batch has several samples and there is no `step` in the key of the signer.
-/
theorem dump_read_back_iff (P : Platform) (hP : P.Base58) (signer : Pubkey) (step : BitVec 32) (batchId : RawBatchId)
    (hle : batchId.start ≤ batchId.end_) :
    ReadBack P signer step batchId
      ↔ batchId.start ≠ batchId.end_ ∧ ¬ "step".toList <:+: (P.bs58 signer.bytes).toList := by
  constructor
  · intro h
    exact ⟨fun hone => not_readBack_one hone h, fun hstep => not_readBack_step hP hstep h⟩
  · rintro ⟨hne, hstep⟩
    obtain ⟨b, hassignment, hb⟩ := parseAssignmentKey_several step hle hne
    refine ⟨parseCommitter_gradientsFile hP, ⟨_, b, ?_, hassignment, hb⟩, parseBatchBounds_several hne⟩
    rw [contributionKey_gradientsFile, dropInfix?_eq_none hstep]
    simp only [nil_append]

end Names

lemma base58_zero : Platform.zero.Base58 := by
  intro bytes c h
  have hdigit : ∀ d, base58Alphabet.getD d '1' ∈ base58Alphabet := by
    intro d
    rw [getD_eq_getElem?_getD]
    cases hd : base58Alphabet[d]? with
    | none => decide
    | some c => exact mem_of_getElem? hd
  simp only [Platform.zero, base58, String.toList_ofList, mem_append, mem_map] at h
  obtain ⟨_, _, rfl⟩ | ⟨d, _, rfl⟩ := h
  · decide
  · exact hdigit d

/-- The name of a dump of eight samples is read back. -/
theorem dump_read_back_iff_eight : (100 : BitVec 64) ≤ 107
    ∧ gradientsFile .zero 3 1 ⟨100, 107⟩ = "result-CiDwVBFgWV9E5MvXWoLgnEgn2hK7rJikbvfWavzAQz3-step1-batchB[100, 107].vec-postcard"
    ∧ ReadBack .zero 3 1 ⟨100, 107⟩ :=
  ⟨by decide, by decide +kernel, (dump_read_back_iff .zero base58_zero 3 1 ⟨100, 107⟩ (by decide)).mpr ⟨by decide, by decide +kernel⟩⟩

def stepSigner : Pubkey := 0x8d82970000000000000000000000000000000000000000000000000000000000

/-- A dump of a batch of one sample is not read back, and neither is one of a signer with `step` in its key. -/
theorem dumps_unread :
    ((9 : BitVec 64) ≤ 9 ∧ RawBatchId.display ⟨9, 9⟩ = "B9"
      ∧ parseBatchBounds (RawBatchId.display ⟨9, 9⟩).toList = Exec.fail () ∧ ¬ ReadBack .zero 3 1 ⟨9, 9⟩)
    ∧ Platform.zero.bs58 stepSigner.bytes = "11111111111111111111111111111step" ∧ ¬ ReadBack .zero stepSigner 1 ⟨100, 107⟩ := by
  refine ⟨⟨by decide, by decide +kernel, parseBatchBounds_one rfl, not_readBack_one rfl⟩, by decide +kernel, ?_⟩
  exact not_readBack_step base58_zero (by decide +kernel)

end Leviathan.Verifier
