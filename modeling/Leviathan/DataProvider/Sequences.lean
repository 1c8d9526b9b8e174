import Leviathan.Core.Batches
import Leviathan.Lib.Chunks
import Leviathan.Network.Payload
import Mathlib.Data.Nat.Digits.Defs

/-!
# Training data in files

Model of `sequence_pointers` of `shared/data-provider/src/http.rs` and of `LocalDataProvider` of `local.rs`. A table
names the sequences in files of tokens, each by its file and the offset of its first byte; it may be shuffled. A
provider looks up the sequences of a batch in the table and cuts them out of the files.

The shuffle of the library is a parameter, which should permute. The files of a directory are given with their names and
contents, in the order in which the source sorts them.
-/

namespace Leviathan
open Exec List

inductive TokenSize where
  | twoBytes
  | fourBytes
deriving DecidableEq, Repr

/-- Rust `From<TokenSize> for usize`. -/
def TokenSize.toNat : TokenSize → Nat
  | twoBytes => 2
  | fourBytes => 4

inductive Shuffle where
  | dontShuffle
  | seeded (seed : Bytes32)
deriving DecidableEq

structure SequencePointer where
  fileIndex : Nat
  byteOffset : Nat
deriving DecidableEq, Repr

/-- Why a provider fails. -/
inductive DataError where
  | tooSmall (name : String) (fileSize sequenceWithLabelBytes : Nat)
  | noDataFiles
  | outOfBounds (dataId samples : Nat)
  | request (url : String)
  | unexpectedNumberOfBytes (got expected : Nat)
deriving DecidableEq, Repr

/-- The aborts of a provider. -/
inductive DataPanic where
  | overflow
  | underflow
  | stepByZero
  | indexOutOfBounds
  | slice             -- a range beyond the end of a slice
  | tryInto           -- a piece that is not as long as a token
deriving DecidableEq, Repr

structure TokenizedData where
  inputIds : List Int
  labels : Option (List Int)
  positionIds : Option (List Int)
  sequenceLengths : Option (List Int)
deriving DecidableEq, Repr

def TokenizedData.fromInputIds (inputIds : List Int) : TokenizedData := ⟨inputIds, none, none, none⟩

section Tables
variable {ε : Type}

/-- Checked multiplication of `usize` values. -/
def mulUsize (a b : Nat) : Exec ε DataPanic Nat := do
  Exec.ensure (a * b < 2 ^ 64) .overflow
  .ok (a * b)

/-- The multiples of a step below an end (Rust `(0..end).step_by(step)`). -/
def stepBy (end_ step : Nat) : List Nat := (List.range (end_ ⌈/⌉ step)).map (· * step)

/-- The table of the sequences of some files, given by their names and sizes. -/
def sequencePointers (shuffleWith : Bytes32 → List SequencePointer → List SequencePointer) (files : List (String × Nat))
    (tokenSizeInBytes : TokenSize) (numTokensPerSequence : Nat) (shuffle : Shuffle) :
    Exec DataError DataPanic (List SequencePointer) := do
  let tokenBytes := tokenSizeInBytes.toNat
  let sequenceBytes ← mulUsize numTokensPerSequence tokenBytes
  Exec.ensure (sequenceBytes + tokenBytes < 2 ^ 64) .overflow
  let sequenceWithLabelBytes := sequenceBytes + tokenBytes
  let sequences ← files.zipIdx.foldlM (fun sequences file => do
    Exec.require (sequenceWithLabelBytes ≤ file.1.2) (.tooSmall file.1.1 file.1.2 sequenceWithLabelBytes)
    let offsetsEnd := file.1.2 - sequenceWithLabelBytes
    Exec.ensure (sequenceBytes ≠ 0) .stepByZero
    .ok (sequences ++ (stepBy offsetsEnd sequenceBytes).map fun byteOffset => ⟨file.2, byteOffset⟩)) []
  match shuffle with
  | .seeded seed => .ok (shuffleWith seed sequences)
  | .dontShuffle => .ok sequences

/-- A part of a slice (Rust `[start..end]`). -/
def slice {α : Type} (l : List α) (start end_ : Nat) : Exec ε DataPanic (List α) := do
  Exec.ensure (start ≤ end_ ∧ end_ ≤ l.length) .slice
  .ok (piece (end_ - start) l start)

/-- The number that some bytes stand for, lowest first. -/
def fromLeBytes (bytes : Bytes) : Nat := Nat.ofDigits 256 (bytes.map BitVec.toNat)

def TokenSize.value : TokenSize → Bytes → Int
  | twoBytes, bytes => fromLeBytes bytes
  | fourBytes, bytes => (BitVec.ofNat 32 (fromLeBytes bytes)).toInt

/-- The tokens of some bytes (in Rust `internal_get_samples` and `fetch_tokenized_data_range`). -/
def tokenize (tokenSizeInBytes : TokenSize) (data : Bytes) : Exec ε DataPanic (List Int) :=
  (chunks tokenSizeInBytes.toNat data).mapM fun t => do
    Exec.ensure (t.length = tokenSizeInBytes.toNat) .tryInto
    .ok (tokenSizeInBytes.value t)

example : (tokenize .twoBytes [1, 0, 2, 1] : Exec DataError DataPanic (List Int)) = .ok [1, 258] := by decide

def ClosedInterval.iter (i : ClosedInterval) : List Nat := List.range' i.start i.size

end Tables

structure LocalDataProvider where
  dataFiles : List (Vec (BitVec 8))
  sequences : List SequencePointer
  seqLen : Nat
  tokenSizeInBytes : TokenSize

namespace LocalDataProvider

def newFromDirectory (shuffleWith : Bytes32 → List SequencePointer → List SequencePointer)
    (binFiles : List (String × Vec (BitVec 8))) (tokenSizeInBytes : TokenSize) (numTokensPerSequence : Nat)
    (shuffle : Shuffle) : Exec DataError DataPanic LocalDataProvider := do
  Exec.require (binFiles ≠ []) .noDataFiles
  let sequences ← sequencePointers shuffleWith (binFiles.map fun file => (file.1, file.2.toList.length))
    tokenSizeInBytes numTokensPerSequence shuffle
  .ok { dataFiles := binFiles.map Prod.snd, sequences, seqLen := numTokensPerSequence, tokenSizeInBytes }

/-- A sample (in Rust `LocalDataProvider::internal_get_samples`). -/
def getSample (p : LocalDataProvider) (dataId : Nat) : Exec DataError DataPanic TokenizedData := do
  let pointer ← Exec.okOr p.sequences[dataId]? (.outOfBounds dataId p.sequences.length)
  let file ← Exec.unwrap p.dataFiles[pointer.fileIndex]? .indexOutOfBounds
  let dataLen ← mulUsize p.tokenSizeInBytes.toNat p.seqLen
  let data ← slice file.toList pointer.byteOffset (pointer.byteOffset + dataLen)
  let tokens ← tokenize p.tokenSizeInBytes data
  .ok (.fromInputIds tokens)

def internalGetSamples (p : LocalDataProvider) (dataIds : BatchId) : Exec DataError DataPanic (List TokenizedData) :=
  dataIds.iter.mapM p.getSample

end LocalDataProvider

/-- Every sequence lies inside its file, and none is empty. -/
def Covers (sizes : List Nat) (sequenceBytes : Nat) (table : List SequencePointer) : Prop :=
  ∀ p ∈ table, 0 < sequenceBytes ∧ ∃ size, sizes[p.fileIndex]? = some size ∧ p.byteOffset + sequenceBytes ≤ size

/-- Of two sequences of one file, one ends before the other begins. -/
def Apart (sequenceBytes : Nat) (p q : SequencePointer) : Prop :=
  p.fileIndex = q.fileIndex →
    p.byteOffset + sequenceBytes ≤ q.byteOffset ∨ q.byteOffset + sequenceBytes ≤ p.byteOffset

/-- The first of two sequences of one file ends before the second begins. -/
def Before (sequenceBytes : Nat) (p q : SequencePointer) : Prop :=
  p.fileIndex = q.fileIndex → p.byteOffset + sequenceBytes ≤ q.byteOffset

def pointersOf (sequenceBytes tokenBytes : Nat) (file : (String × Nat) × Nat) : List SequencePointer :=
  (stepBy (file.1.2 - (sequenceBytes + tokenBytes)) sequenceBytes).map fun byteOffset => ⟨file.2, byteOffset⟩

section Pointers
variable {shuffleWith : Bytes32 → List SequencePointer → List SequencePointer} {files : List (String × Nat)}
  {t : TokenSize} {n : Nat} {shuffle : Shuffle} {table : List SequencePointer}

lemma TokenSize.toNat_pos (t : TokenSize) : 0 < t.toNat := by cases t <;> decide

lemma mulUsize_eq_ok {ε : Type} {a b c : Nat} :
    (mulUsize a b : Exec ε DataPanic Nat) = .ok c ↔ a * b < 2 ^ 64 ∧ c = a * b := by
  simp only [mulUsize, bind_eq_ok, ensure_eq_ok, exists_const, Except.ok.injEq]
  exact and_congr_right fun _ => eq_comm

lemma mulUsize_comm {ε : Type} {a b : Nat} (h : a * b < 2 ^ 64) : (mulUsize b a : Exec ε DataPanic Nat) = .ok (a * b) := by
  rw [mulUsize_eq_ok, Nat.mul_comm]
  exact ⟨h, rfl⟩

lemma foldlM_pointers {sequenceBytes tokenBytes : Nat} {files : List ((String × Nat) × Nat)}
    {before after : List SequencePointer} (h : (files.foldlM (fun sequences file => do
      Exec.require (sequenceBytes + tokenBytes ≤ file.1.2)
        (.tooSmall file.1.1 file.1.2 (sequenceBytes + tokenBytes))
      let offsetsEnd := file.1.2 - (sequenceBytes + tokenBytes)
      Exec.ensure (sequenceBytes ≠ 0) .stepByZero
      .ok (sequences ++ (stepBy offsetsEnd sequenceBytes).map fun byteOffset => ⟨file.2, byteOffset⟩)) before
        : Exec DataError DataPanic (List SequencePointer)) = .ok after) :
    (∀ file ∈ files, sequenceBytes + tokenBytes ≤ file.1.2 ∧ sequenceBytes ≠ 0)
      ∧ after = before ++ files.flatMap (pointersOf sequenceBytes tokenBytes) := by
  induction files generalizing before with
  | nil =>
    cases h
    simp
  | cons file files ih =>
    simp only [foldlM_cons, bind_eq_ok, require_eq_ok, ensure_eq_ok, exists_const, Except.ok.injEq] at h
    obtain ⟨_, ⟨hsize, hstep, rfl⟩, hrest⟩ := h
    obtain ⟨hsizes, rfl⟩ := ih hrest
    refine ⟨forall_mem_cons.mpr ⟨⟨hsize, hstep⟩, hsizes⟩, ?_⟩
    rw [flatMap_cons, append_assoc]
    rfl

/-- The sequences of all files, in their order. -/
def plainTable (files : List (String × Nat)) (t : TokenSize) (n : Nat) : List SequencePointer :=
  files.zipIdx.flatMap (pointersOf (n * t.toNat) t.toNat)

lemma pointers_eq_ok (hshuffle : ∀ seed l, (shuffleWith seed l).Perm l)
    (h : sequencePointers shuffleWith files t n shuffle = .ok table) :
    n * t.toNat + t.toNat < 2 ^ 64 ∧ (∀ file ∈ files, n * t.toNat + t.toNat ≤ file.2 ∧ n * t.toNat ≠ 0)
      ∧ table.Perm (plainTable files t n)
      ∧ sequencePointers shuffleWith files t n .dontShuffle = .ok (plainTable files t n) := by
  simp only [sequencePointers, bind_eq_ok, mulUsize_eq_ok, ensure_eq_ok, exists_const] at h ⊢
  obtain ⟨_, ⟨hmul, rfl⟩, hfits, sequences, hfold, hresult⟩ := h
  obtain ⟨hsizes, hsequences⟩ := foldlM_pointers hfold
  rw [nil_append] at hsequences
  refine ⟨hfits, fun file hfile => ?_, ?_, _, ⟨hmul, rfl⟩, hfits, sequences, hfold, ?_⟩
  · obtain ⟨i, hi⟩ := mem_iff_getElem?.mp hfile
    exact hsizes (file, i) (mem_zipIdx_iff_getElem?.mpr hi)
  · cases shuffle with
    | dontShuffle =>
      cases hresult
      exact .of_eq hsequences
    | seeded seed =>
      cases hresult
      exact (hshuffle seed _).trans (.of_eq hsequences)
  · rw [hsequences]
    rfl

lemma mem_stepBy {end_ step offset : Nat} (hs : 0 < step) (h : offset ∈ stepBy end_ step) : offset < end_ := by
  obtain ⟨k, hk, rfl⟩ := mem_map.mp h
  by_contra hle
  have : end_ ⌈/⌉ step ≤ k := (ceilDiv_le_iff_le_mul hs).mpr (by rw [Nat.mul_comm]; exact Nat.not_lt.mp hle)
  exact absurd (mem_range.mp hk) (Nat.not_lt.mpr this)

lemma stepBy_pairwise (end_ step : Nat) : (stepBy end_ step).Pairwise fun a b => a + step ≤ b := by
  rw [stepBy, pairwise_map]
  exact pairwise_lt_range.imp fun {k l} hlt => mul_add_le hlt

lemma covers_plainTable (hsizes : ∀ file ∈ files, n * t.toNat + t.toNat ≤ file.2 ∧ n * t.toNat ≠ 0) :
    Covers (files.map Prod.snd) (n * t.toNat) (plainTable files t n) := by
  intro p hp
  obtain ⟨⟨file, i⟩, hfile, hp⟩ := mem_flatMap.mp hp
  obtain ⟨offset, hoffset, rfl⟩ := mem_map.mp hp
  have hi := mem_zipIdx_iff_getElem?.mp hfile
  obtain ⟨hsize, hstep⟩ := hsizes file (mem_of_getElem? hi)
  have hpos := Nat.pos_of_ne_zero hstep
  have hlt : offset < file.2 - (n * t.toNat + t.toNat) := mem_stepBy hpos hoffset
  refine ⟨hpos, file.2, ?_, ?_⟩
  · rw [getElem?_map, hi]
    rfl
  · show offset + n * t.toNat ≤ file.2
    omega

lemma plainTable_pairwise : (plainTable files t n).Pairwise (Before (n * t.toNat)) := by
  rw [plainTable, pairwise_flatMap]
  refine ⟨fun file _ => ?_, ?_⟩
  · rw [pointersOf, pairwise_map]
    refine (stepBy_pairwise _ _).imp fun {a b} hle _ => ?_
    exact hle
  · have hidx : (files.zipIdx.map Prod.snd).Pairwise (· < ·) := by
      rw [zipIdx_map_snd]
      exact pairwise_lt_range'
    refine (pairwise_map.mp hidx).imp fun {a b} hlt p hp q hq heq => ?_
    obtain ⟨_, _, rfl⟩ := mem_map.mp hp
    obtain ⟨_, _, rfl⟩ := mem_map.mp hq
    exact absurd heq hlt.ne

lemma covers_of_pointers (hshuffle : ∀ seed l, (shuffleWith seed l).Perm l)
    (h : sequencePointers shuffleWith files t n shuffle = .ok table) :
    Covers (files.map Prod.snd) (n * t.toNat) table := by
  obtain ⟨_, hsizes, hperm, _⟩ := pointers_eq_ok hshuffle h
  exact fun p hp => covers_plainTable hsizes p (hperm.mem_iff.mp hp)

lemma apart_of_pointers (hshuffle : ∀ seed l, (shuffleWith seed l).Perm l)
    (h : sequencePointers shuffleWith files t n shuffle = .ok table) : table.Pairwise (Apart (n * t.toNat)) := by
  obtain ⟨_, _, hperm, _⟩ := pointers_eq_ok hshuffle h
  refine List.Perm.pairwise hperm.symm (plainTable_pairwise.imp fun hb he => .inl (hb he)) fun {p q} ha he => ?_
  exact (ha he.symm).symm

end Pointers

section Reading
variable {ε : Type} {t : TokenSize}

lemma tokenize_eq {data : Bytes} {n : Nat} (h : data.length = n * t.toNat) :
    (tokenize t data : Exec ε DataPanic (List Int)) = .ok ((chunks t.toNat data).map t.value) := by
  rw [tokenize, mapM_eq_ok_map fun a b => ?_]
  · exact ⟨fun c hc => length_of_mem_chunks t.toNat_pos h hc, rfl⟩
  · simp only [bind_eq_ok, ensure_eq_ok, exists_const, Except.ok.injEq, @eq_comm _ b]

lemma slice_eq {α : Type} {l : List α} {start size : Nat} (h : start + size ≤ l.length) :
    (slice l start (start + size) : Exec ε DataPanic (List α)) = .ok (piece size l start) := by
  rw [slice, ensure_of ⟨Nat.le_add_right _ _, h⟩, Nat.add_sub_cancel_left]
  rfl

end Reading

section Sound
variable {shuffleWith : Bytes32 → List SequencePointer → List SequencePointer} {t : TokenSize} {n : Nat}
  {shuffle : Shuffle} {binFiles : List (String × Vec (BitVec 8))} {p : LocalDataProvider}

/-- A sequence that is not empty and lies inside its file. -/
def Inside (files : List (String × Vec (BitVec 8))) (sequenceBytes : Nat) (pointer : SequencePointer) : Prop :=
  0 < sequenceBytes ∧ ∃ file, files[pointer.fileIndex]? = some file
    ∧ pointer.byteOffset + sequenceBytes ≤ file.2.toList.length

lemma inside_of_pointers (hshuffle : ∀ seed l, (shuffleWith seed l).Perm l) {files : List (String × Vec (BitVec 8))}
    {table : List SequencePointer}
    (h : sequencePointers shuffleWith (files.map fun file => (file.1, file.2.toList.length)) t n shuffle = .ok table) :
    ∀ pointer ∈ table, Inside files (n * t.toNat) pointer := by
  intro pointer hpointer
  obtain ⟨hpos, size, hsize, hin⟩ := covers_of_pointers hshuffle h pointer hpointer
  rw [map_map, getElem?_map, Option.map_eq_some_iff] at hsize
  obtain ⟨file, hfile, rfl⟩ := hsize
  exact ⟨hpos, file, hfile, hin⟩

lemma LocalDataProvider.new_eq_ok (h : newFromDirectory shuffleWith binFiles t n shuffle = .ok p) :
    ∃ table, sequencePointers shuffleWith (binFiles.map fun file => (file.1, file.2.toList.length)) t n shuffle = .ok table
      ∧ p = ⟨binFiles.map Prod.snd, table, n, t⟩ := by
  simp only [newFromDirectory, bind_eq_ok, require_eq_ok, exists_const, Except.ok.injEq] at h
  obtain ⟨_, table, htable, rfl⟩ := h
  exact ⟨table, htable, rfl⟩

def sampleOf (files : List (String × Vec (BitVec 8))) (t : TokenSize) (n : Nat) (pointer : SequencePointer) :
    TokenizedData :=
  .fromInputIds ((chunks t.toNat (piece (n * t.toNat) (files[pointer.fileIndex]?.elim [] fun file => file.2.toList)
    pointer.byteOffset)).map t.value)

lemma LocalDataProvider.getSample_of_new (hshuffle : ∀ seed l, (shuffleWith seed l).Perm l)
    (h : newFromDirectory shuffleWith binFiles t n shuffle = .ok p) {dataId : Nat} {pointer : SequencePointer}
    (hpointer : p.sequences[dataId]? = some pointer) : p.getSample dataId = .ok (sampleOf binFiles t n pointer) := by
  obtain ⟨table, htable, rfl⟩ := new_eq_ok h
  obtain ⟨_, file, hfile, hin⟩ := inside_of_pointers hshuffle htable pointer (mem_of_getElem? hpointer)
  have hfits : n * t.toNat < 2 ^ 64 := by
    have := (pointers_eq_ok hshuffle htable).1
    omega
  have hlen : (piece (n * t.toNat) file.2.toList pointer.byteOffset).length = n * t.toNat := by
    rw [length_piece]
    omega
  simp only [getSample, hpointer, getElem?_map, hfile, Option.map_some, Exec.okOr, unwrap_some, ok_bind,
    mulUsize_comm hfits, slice_eq hin, tokenize_eq hlen, sampleOf, Option.elim_some]

lemma LocalDataProvider.samples_safe (hshuffle : ∀ seed l, (shuffleWith seed l).Perm l)
    (h : newFromDirectory shuffleWith binFiles t n shuffle = .ok p) (ids : BatchId) :
    Exec.Safe (fun _ => True) (p.internalGetSamples ids) := by
  refine .mapM fun dataId _ => ?_
  cases hpointer : p.sequences[dataId]? with
  | none =>
    rw [getSample, hpointer]
    exact .fail _
  | some pointer =>
    rw [getSample_of_new hshuffle h hpointer]
    exact .ok _

lemma pointers_safe {files : List (String × Nat)} (hn : 0 < n) (hfits : n * t.toNat + t.toNat < 2 ^ 64) :
    Exec.Safe (fun _ => True) (sequencePointers shuffleWith files t n shuffle) := by
  have hstep : n * t.toNat ≠ 0 := (Nat.mul_pos hn t.toNat_pos).ne'
  have hmul : (mulUsize n t.toNat : Exec DataError DataPanic Nat) = .ok (n * t.toNat) :=
    mulUsize_eq_ok.mpr ⟨by omega, rfl⟩
  simp only [sequencePointers, hmul, ok_bind, ensure_of hfits, ensure_of hstep]
  refine .bind (.foldlM (fun _ _ => .bind (.require _ _) fun _ _ => .ok _) _ _) fun _ _ => ?_
  cases shuffle <;> exact .ok _

/-- The table is made without an abort; every pointer of it names a file and a range of one sequence inside it, no two
ranges of a file overlap, and it is a permutation of the table that is not shuffled. A provider of local files with such a
table never reads beyond an end. -/
theorem sequence_pointers_sound (hshuffle : ∀ seed l, (shuffleWith seed l).Perm l) (hn : 1 ≤ n)
    (hfits : n * t.toNat + t.toNat < 2 ^ 64) (files : List (String × Nat)) :
    Exec.Safe (fun _ => True) (sequencePointers shuffleWith files t n shuffle)
    ∧ (∀ table, sequencePointers shuffleWith files t n shuffle = .ok table →
      Covers (files.map Prod.snd) (n * t.toNat) table ∧ table.Pairwise (Apart (n * t.toNat))
      ∧ ∃ plain, sequencePointers shuffleWith files t n .dontShuffle = .ok plain ∧ table.Perm plain)
    ∧ ∀ binFiles p, LocalDataProvider.newFromDirectory shuffleWith binFiles t n shuffle = .ok p →
      ∀ ids, Exec.Safe (fun _ => True) (p.internalGetSamples ids) := by
  refine ⟨pointers_safe hn hfits, fun table htable => ?_, fun _ _ hp ids => LocalDataProvider.samples_safe hshuffle hp ids⟩
  obtain ⟨_, _, hperm, hplain⟩ := pointers_eq_ok hshuffle htable
  exact ⟨covers_of_pointers hshuffle htable, apart_of_pointers hshuffle htable, _, hplain, hperm⟩

/-- Two files of eleven and seven bytes, with tokens of two bytes and sequences of two tokens; the shuffle reverses. -/
theorem sequence_pointers_reversed :
    ∃ table, sequencePointers (fun _ => List.reverse) [("a", 11), ("b", 7)] .twoBytes 2 (.seeded 0) = .ok table
      ∧ table = [⟨1, 0⟩, ⟨0, 4⟩, ⟨0, 0⟩] ∧ Covers [11, 7] 4 table ∧ table.Pairwise (Apart 4) := by
  have h : sequencePointers (fun _ => List.reverse) [("a", 11), ("b", 7)] .twoBytes 2 (.seeded 0)
      = .ok [⟨1, 0⟩, ⟨0, 4⟩, ⟨0, 0⟩] := by decide
  obtain ⟨hcovers, hapart, _⟩ := (sequence_pointers_sound (t := .twoBytes) (n := 2) (fun _ => reverse_perm) (by decide)
    (by decide) [("a", 11), ("b", 7)]).2.1 _ h
  exact ⟨_, h, rfl, hcovers, hapart⟩

end Sound
end Leviathan
