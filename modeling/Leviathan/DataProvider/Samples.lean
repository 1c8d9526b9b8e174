import Leviathan.DataProvider.Sequences

/-!
# Training data over HTTP

Model of `HttpDataProvider` of `shared/data-provider/src/http.rs`, which gets the sequences of a batch from a server: with
one request if they follow each other in one file, otherwise with one for each of them.

The server is a parameter; `Answers` says that it returns the bytes of a range of a file. Requests are made
concurrently in the source, and collected in order.
-/

namespace Leviathan
open Exec List

/-- A server that is asked for the bytes of a file from a first to a last one. -/
abbrev Server := String → Nat → Nat → Exec DataError DataPanic Bytes

/-- A provider of files on a server. -/
structure HttpDataProvider where
  fileUrls : List String
  sequences : List SequencePointer
  seqLen : Nat
  tokenSizeInBytes : TokenSize

/-- The bytes of a file from an offset on. -/
def fetchDataRange (server : Server) (url : String) (start length : Nat) : Exec DataError DataPanic Bytes := do
  Exec.ensure (start + length < 2 ^ 64) .overflow
  Exec.ensure (1 ≤ start + length) .underflow
  let bytes ← server url start (start + length - 1)
  Exec.require (bytes.length = length) (.unexpectedNumberOfBytes bytes.length length)
  .ok bytes

def fetchTokenizedDataRange (server : Server) (url : String) (start length : Nat) (tokenSizeInBytes : TokenSize) :
    Exec DataError DataPanic (List Int) := do
  let data ← fetchDataRange server url start length
  tokenize tokenSizeInBytes data

/-- Whether the offsets of all neighbours differ by the size of a sequence (in Rust `internal_get_samples`). -/
def windowsAll {ε : Type} (singleSeqBytes : Nat) : List SequencePointer → Exec ε DataPanic Bool
  | a :: b :: rest => do
    Exec.ensure (a.byteOffset ≤ b.byteOffset) .underflow
    if b.byteOffset - a.byteOffset = singleSeqBytes then windowsAll singleSeqBytes (b :: rest) else .ok false
  | _ => .ok true

namespace HttpDataProvider

/-- A provider of files given by their URLs and sizes. -/
def new (shuffleWith : Bytes32 → List SequencePointer → List SequencePointer) (fileUrls : List (String × Nat))
    (tokenSizeInBytes : TokenSize) (numTokensPerSequence : Nat) (shuffle : Shuffle) :
    Exec DataError DataPanic HttpDataProvider := do
  let sequences ← sequencePointers shuffleWith fileUrls tokenSizeInBytes numTokensPerSequence shuffle
  .ok { fileUrls := fileUrls.map Prod.fst, sequences, seqLen := numTokensPerSequence, tokenSizeInBytes }

/-- The sequences of a batch with one request (in Rust `internal_get_samples`). -/
def getSequential (server : Server) (p : HttpDataProvider) (sequences : List SequencePointer) (first : SequencePointer)
    (singleSeqBytes : Nat) : Exec DataError DataPanic (List TokenizedData) := do
  let totalLength ← mulUsize singleSeqBytes sequences.length
  let url ← Exec.unwrap p.fileUrls[first.fileIndex]? .indexOutOfBounds
  let allData ← fetchTokenizedDataRange server url first.byteOffset totalLength p.tokenSizeInBytes
  (List.range sequences.length).mapM fun i => do
    let startIdx := i * p.seqLen
    let inputIds ← slice allData startIdx (startIdx + p.seqLen)
    .ok (.fromInputIds inputIds)

/-- A sequence with a request of its own (in Rust `internal_get_samples`). -/
def getSingle (server : Server) (p : HttpDataProvider) (sequence : SequencePointer) :
    Exec DataError DataPanic TokenizedData := do
  let dataLen ← mulUsize p.tokenSizeInBytes.toNat p.seqLen
  let url ← Exec.unwrap p.fileUrls[sequence.fileIndex]? .indexOutOfBounds
  let tokens ← fetchTokenizedDataRange server url sequence.byteOffset dataLen p.tokenSizeInBytes
  .ok (.fromInputIds tokens)

def internalGetSamples (server : Server) (p : HttpDataProvider) (dataIds : BatchId) :
    Exec DataError DataPanic (List TokenizedData) := do
  let sequences ← dataIds.iter.mapM fun dataId =>
    Exec.okOr p.sequences[dataId]? (.outOfBounds dataId p.sequences.length)
  let first ← Exec.unwrap sequences.head? .indexOutOfBounds
  let singleSeqBytes ← mulUsize p.tokenSizeInBytes.toNat p.seqLen
  let isSequential ←
    if sequences.all fun x => x.fileIndex = first.fileIndex then windowsAll singleSeqBytes sequences else .ok false
  if isSequential ∧ 1 < sequences.length then getSequential server p sequences first singleSeqBytes
  else sequences.mapM (getSingle server p)

end HttpDataProvider

/-- The server returns the bytes of a range that lies inside a file. -/
def Answers (server : Server) (files : List (String × Vec (BitVec 8))) : Prop :=
  ∀ file ∈ files, ∀ start length, 0 < length → start + length ≤ file.2.toList.length →
    server file.1 start (start + length - 1) = .ok (piece length file.2.toList start)

/-- As long as neighbours are one sequence apart, the next one does not lie before its predecessor. -/
def Climbs (sequenceBytes : Nat) : List Nat → Prop
  | a :: b :: rest => a ≤ b ∧ (b = a + sequenceBytes → Climbs sequenceBytes (b :: rest))
  | _ => True

def batchPointers (table : List SequencePointer) (ids : BatchId) : List SequencePointer := piece ids.size table ids.start

/-- A batch of which it can be decided whether it is sequential. -/
def Decides (sequenceBytes : Nat) (sequences : List SequencePointer) : Prop :=
  (∀ p ∈ sequences, ∀ q ∈ sequences, p.fileIndex = q.fileIndex) → Climbs sequenceBytes (sequences.map (·.byteOffset))

section Windows
variable {ε : Type} {size : Nat}

/-- The comparison of neighbours comes to an end if it never looks at a pair that descends. If it succeeds on sequences
of one file, they follow each other. -/
lemma windowsAll_eq_ok {first : SequencePointer} {rest : List SequencePointer}
    (hfile : ∀ p ∈ rest, p.fileIndex = first.fileIndex) (h : Climbs size ((first :: rest).map (·.byteOffset))) :
    ∃ b, (windowsAll size (first :: rest) : Exec ε DataPanic Bool) = .ok b
      ∧ (b = true → first :: rest
        = (List.range (first :: rest).length).map fun i => ⟨first.fileIndex, first.byteOffset + i * size⟩) := by
  induction rest generalizing first with
  | nil => exact ⟨true, rfl, fun _ => by simp⟩
  | cons second rest ih =>
    obtain ⟨hsecond, hrest⟩ := forall_mem_cons.mp hfile
    rw [map_cons, map_cons, Climbs] at h
    rw [windowsAll, ensure_of h.1, ok_bind]
    split
    · rename_i hnext
      have hoffset : second.byteOffset = first.byteOffset + size := by omega
      obtain ⟨b, hb, hfollow⟩ := ih (fun p hp => (hrest p hp).trans hsecond.symm) (h.2 hoffset)
      refine ⟨b, hb, fun htrue => ?_⟩
      rw [length_cons, range_succ_eq_map, map_cons, map_map, Nat.zero_mul, Nat.add_zero]
      congr 1
      rw [hfollow htrue, length_map, length_range]
      refine map_congr_left fun i _ => ?_
      rw [Function.comp_apply, hsecond, hoffset, Nat.succ_mul, Nat.add_assoc, Nat.add_comm size]
    · exact ⟨false, rfl, fun h => by cases h⟩

lemma windowsAll_underflow {sequences : List SequencePointer} (h : ¬ Climbs size (sequences.map (·.byteOffset))) :
    (windowsAll size sequences : Exec ε DataPanic Bool) = .error (.panic .underflow) := by
  induction sequences with
  | nil => exact absurd trivial h
  | cons first rest ih =>
    cases rest with
    | nil => exact absurd trivial h
    | cons second rest =>
      rw [map_cons, map_cons, Climbs] at h
      rw [windowsAll]
      by_cases hle : first.byteOffset ≤ second.byteOffset
      · rw [ensure_of hle, ok_bind]
        by_cases hnext : second.byteOffset = first.byteOffset + size
        · rw [if_pos (by omega)]
          exact ih fun hc => h ⟨hle, fun _ => hc⟩
        · exact absurd ⟨hle, fun he => absurd he hnext⟩ h
      · rw [Exec.ensure, if_neg hle]
        rfl

end Windows

section Requests
variable {server : Server} {files : List (String × Vec (BitVec 8))} {t : TokenSize} {n : Nat}

lemma fetch_eq (hserver : Answers server files) {start m : Nat} {file : String × Vec (BitVec 8)} (hfile : file ∈ files)
    (hpos : 0 < m * t.toNat) (hin : start + m * t.toNat ≤ file.2.toList.length) :
    fetchTokenizedDataRange server file.1 start (m * t.toNat) t
      = .ok ((chunks t.toNat (piece (m * t.toNat) file.2.toList start)).map t.value) := by
  have hfits : start + m * t.toNat < 2 ^ 64 := Nat.lt_of_le_of_lt hin file.2.bound
  have hone : 1 ≤ start + m * t.toNat := by omega
  have hlen : (piece (m * t.toNat) file.2.toList start).length = m * t.toNat := by
    rw [length_piece]
    omega
  simp only [fetchTokenizedDataRange, fetchDataRange, ensure_of hfits, ensure_of hone, ok_bind,
    hserver file hfile start _ hpos hin, require_of hlen, tokenize_eq hlen]

end Requests

namespace HttpDataProvider
variable {server : Server} {files : List (String × Vec (BitVec 8))} {t : TokenSize} {n : Nat}
  {table : List SequencePointer}

lemma getSingle_eq (hserver : Answers server files) (hfits : n * t.toNat < 2 ^ 64) {pointer : SequencePointer}
    (h : Inside files (n * t.toNat) pointer) :
    getSingle server ⟨files.map Prod.fst, table, n, t⟩ pointer = .ok (sampleOf files t n pointer) := by
  obtain ⟨hpos, file, hfile, hin⟩ := h
  simp only [getSingle, mulUsize_comm hfits, getElem?_map, hfile, Option.map_some, unwrap_some, ok_bind,
    fetch_eq hserver (mem_of_getElem? hfile) hpos hin, sampleOf, Option.elim_some]

lemma getSequential_eq (hserver : Answers server files) {i offset count : Nat} (hcount : 0 < count)
    (h : ∀ k < count, Inside files (n * t.toNat) ⟨i, offset + k * (n * t.toNat)⟩) :
    getSequential server ⟨files.map Prod.fst, table, n, t⟩
        ((List.range count).map fun k => ⟨i, offset + k * (n * t.toNat)⟩) ⟨i, offset⟩ (n * t.toNat)
      = .ok (((List.range count).map fun k => ⟨i, offset + k * (n * t.toNat)⟩).map (sampleOf files t n)) := by
  obtain ⟨hpos, file, hfile, hin⟩ := h (count - 1) (by omega)
  -- the last sequence ends where the range does
  have htotal : offset + n * count * t.toNat ≤ file.2.toList.length := by
    have hlast : (count - 1) * (n * t.toNat) + n * t.toNat = n * count * t.toNat := by
      rw [← Nat.succ_mul, Nat.succ_eq_add_one, Nat.sub_add_cancel hcount, Nat.mul_comm, Nat.mul_right_comm]
    have hin : offset + (count - 1) * (n * t.toNat) + n * t.toNat ≤ file.2.toList.length := hin
    omega
  have hmul : (mulUsize (n * t.toNat) count : Exec DataError DataPanic Nat) = .ok (n * count * t.toNat) := by
    rw [mulUsize_eq_ok, Nat.mul_right_comm]
    exact ⟨Nat.lt_of_le_of_lt (by omega) file.2.bound, rfl⟩
  have hlen : (piece (n * count * t.toNat) file.2.toList offset).length = n * count * t.toNat := by
    rw [length_piece]
    omega
  have hpos' : 0 < n * count * t.toNat := by
    rw [Nat.mul_right_comm]
    exact Nat.mul_pos hpos hcount
  simp only [getSequential, length_map, length_range, hmul, getElem?_map, hfile, Option.map_some,
    unwrap_some, ok_bind, fetch_eq hserver (mem_of_getElem? hfile) hpos' htotal, map_map]
  refine mapM_eq_map fun k hk => ?_
  -- the tokens from the `k`-th multiple of `n` on are those of the bytes from that of the size of a sequence on
  have hk : k * n + n ≤ n * count := by
    rw [Nat.mul_comm n count]
    exact mul_add_le (mem_range.mp hk)
  have hbytes : k * (n * t.toNat) + n * t.toNat ≤ n * count * t.toNat := by
    rw [← Nat.mul_assoc, ← Nat.add_mul]
    exact Nat.mul_le_mul_right _ hk
  have htokens : ((chunks t.toNat (piece (n * count * t.toNat) file.2.toList offset)).map t.value).length = n * count := by
    rw [length_map, length_chunks, ceilDiv_of_eq_mul t.toNat_pos hlen]
  rw [slice_eq (htokens.ge.trans' hk), ← map_piece, piece_chunks t.toNat_pos hlen hk, Nat.mul_assoc k, piece_piece hbytes,
    ok_bind, Function.comp_apply, sampleOf, hfile]
  rfl

lemma new_eq_ok {shuffleWith : Bytes32 → List SequencePointer → List SequencePointer} {shuffle : Shuffle}
    {p : HttpDataProvider}
    (h : new shuffleWith (files.map fun file => (file.1, file.2.toList.length)) t n shuffle = .ok p) :
    ∃ table, sequencePointers shuffleWith (files.map fun file => (file.1, file.2.toList.length)) t n shuffle = .ok table
      ∧ p = ⟨files.map Prod.fst, table, n, t⟩ := by
  simp only [new, bind_eq_ok, Except.ok.injEq, map_map] at h
  obtain ⟨table, htable, rfl⟩ := h
  exact ⟨table, htable, rfl⟩

end HttpDataProvider

section Batches
variable {server : Server} {files : List (String × Vec (BitVec 8))} {t : TokenSize} {n : Nat}
  {table : List SequencePointer} {ids : BatchId}

lemma forall₂_batch (hids : ids.end_ < table.length) :
    List.Forall₂ (fun dataId pointer => table[dataId]? = some pointer) ids.iter (batchPointers table ids) := by
  have := ids.le
  exact forall₂_piece (by rw [ClosedInterval.size]; omega)

lemma lookup_eq (hids : ids.end_ < table.length) :
    (ids.iter.mapM fun dataId => Exec.okOr table[dataId]? (.outOfBounds dataId table.length)
      : Exec DataError DataPanic (List SequencePointer)) = .ok (batchPointers table ids) := by
  refine mapM_eq_ok.mpr ((forall₂_batch hids).imp fun _ _ h => ?_)
  rw [h]
  rfl

lemma batchPointers_ne (hids : ids.end_ < table.length) : batchPointers table ids ≠ [] := by
  have := ids.le
  rw [← length_pos_iff, batchPointers, length_piece, ClosedInterval.size]
  omega

lemma mem_of_mem_batch {p : SequencePointer} (h : p ∈ batchPointers table ids) : p ∈ table :=
  mem_of_mem_drop (mem_of_mem_take h)

lemma internalGetSamples_eq (hfits : n * t.toNat < 2 ^ 64) (hids : ids.end_ < table.length) {first : SequencePointer}
    {rest : List SequencePointer} (hbatch : batchPointers table ids = first :: rest) :
    HttpDataProvider.internalGetSamples server ⟨files.map Prod.fst, table, n, t⟩ ids = (do
      let isSequential ←
        if ∀ p ∈ first :: rest, p.fileIndex = first.fileIndex then windowsAll (n * t.toNat) (first :: rest) else .ok false
      if isSequential ∧ 1 < (first :: rest).length then
        HttpDataProvider.getSequential server ⟨files.map Prod.fst, table, n, t⟩ (first :: rest) first (n * t.toNat)
      else (first :: rest).mapM (HttpDataProvider.getSingle server ⟨files.map Prod.fst, table, n, t⟩)) := by
  simp only [HttpDataProvider.internalGetSamples, lookup_eq hids, hbatch, head?_cons, unwrap_some, ok_bind,
    mulUsize_comm hfits, all_eq_true, decide_eq_true_eq]

lemma http_eq (hserver : Answers server files) (hfits : n * t.toNat < 2 ^ 64)
    (hinside : ∀ p ∈ table, Inside files (n * t.toNat) p) (hids : ids.end_ < table.length)
    (h : Decides (n * t.toNat) (batchPointers table ids)) :
    HttpDataProvider.internalGetSamples server ⟨files.map Prod.fst, table, n, t⟩ ids
      = .ok ((batchPointers table ids).map (sampleOf files t n)) := by
  obtain ⟨first, rest, hbatch⟩ := exists_cons_of_ne_nil (batchPointers_ne hids)
  have hmem : ∀ p ∈ first :: rest, Inside files (n * t.toNat) p := fun p hp =>
    hinside p (mem_of_mem_batch (hbatch ▸ hp))
  have hsingle : (first :: rest).mapM (HttpDataProvider.getSingle server ⟨files.map Prod.fst, table, n, t⟩)
      = .ok ((first :: rest).map (sampleOf files t n)) :=
    mapM_eq_map fun p hp => HttpDataProvider.getSingle_eq hserver hfits (hmem p hp)
  rw [internalGetSamples_eq hfits hids hbatch]
  rw [hbatch] at h ⊢
  by_cases hfile : ∀ p ∈ first :: rest, p.fileIndex = first.fileIndex
  · have hclimbs := h fun p hp q hq => (hfile p hp).trans (hfile q hq).symm
    obtain ⟨b, hb, hfollow⟩ := windowsAll_eq_ok (ε := DataError) (forall_mem_cons.mp hfile).2 hclimbs
    simp only [if_pos hfile, hb, ok_bind]
    by_cases hfast : b = true ∧ 1 < (first :: rest).length
    · -- one request for all of them
      rw [if_pos hfast]
      have hseq := hfollow hfast.1
      generalize (first :: rest).length = count at hseq hfast
      rw [hseq] at hmem ⊢
      refine HttpDataProvider.getSequential_eq hserver (Nat.zero_lt_of_lt hfast.2) fun k hk => ?_
      exact hmem _ (mem_map.mpr ⟨k, mem_range.mpr hk, rfl⟩)
    · rw [if_neg hfast]
      exact hsingle
  · rw [if_neg hfile]
    exact hsingle

lemma http_underflow (hfits : n * t.toNat < 2 ^ 64) (hids : ids.end_ < table.length)
    (h : ¬ Decides (n * t.toNat) (batchPointers table ids)) :
    HttpDataProvider.internalGetSamples server ⟨files.map Prod.fst, table, n, t⟩ ids = .error (.panic .underflow) := by
  obtain ⟨first, rest, hbatch⟩ := exists_cons_of_ne_nil (batchPointers_ne hids)
  rw [hbatch, Decides, Classical.not_imp] at h
  have hfile : ∀ p ∈ first :: rest, p.fileIndex = first.fileIndex := fun p hp => h.1 p hp first mem_cons_self
  rw [internalGetSamples_eq hfits hids hbatch, if_pos hfile, windowsAll_underflow h.2]
  rfl

end Batches

section Main
variable {shuffleWith : Bytes32 → List SequencePointer → List SequencePointer} {server : Server}
  {files : List (String × Vec (BitVec 8))} {t : TokenSize} {n : Nat} {shuffle : Shuffle} {p : LocalDataProvider}
  {q : HttpDataProvider} {ids : BatchId}

lemma local_eq (hshuffle : ∀ seed l, (shuffleWith seed l).Perm l)
    (hp : LocalDataProvider.newFromDirectory shuffleWith files t n shuffle = .ok p) (hids : ids.end_ < p.sequences.length) :
    p.internalGetSamples ids = .ok ((batchPointers p.sequences ids).map (sampleOf files t n)) := by
  refine mapM_eq_ok.mpr (List.forall₂_map_right_iff.mpr ((forall₂_batch hids).imp fun _ _ h => ?_))
  exact LocalDataProvider.getSample_of_new hshuffle hp h

/-- With a server that returns the bytes it is asked for, the samples over HTTP are those that one request for each sequence
gets, and those of the local files, if and only if the sequences are of several files, or the first two neighbours that do
not follow each other are in ascending order. -/
theorem http_samples_iff (hshuffle : ∀ seed l, (shuffleWith seed l).Perm l)
    (hp : LocalDataProvider.newFromDirectory shuffleWith files t n shuffle = .ok p)
    (hq : HttpDataProvider.new shuffleWith (files.map fun file => (file.1, file.2.toList.length)) t n shuffle = .ok q)
    (hserver : Answers server files) (hids : ids.end_ < p.sequences.length) :
    (∃ samples, q.internalGetSamples server ids = .ok samples
      ∧ (batchPointers p.sequences ids).mapM (q.getSingle server) = .ok samples
      ∧ p.internalGetSamples ids = .ok samples)
    ↔ Decides (n * t.toNat) (batchPointers p.sequences ids) := by
  have hlocal := local_eq hshuffle hp hids
  obtain ⟨table, htable, rfl⟩ := LocalDataProvider.new_eq_ok hp
  obtain ⟨table', htable', rfl⟩ := HttpDataProvider.new_eq_ok hq
  obtain rfl : table = table' := Except.ok.inj (htable.symm.trans htable')
  have hfits := (pointers_eq_ok hshuffle htable).1
  have hinside := inside_of_pointers hshuffle htable
  constructor
  · rintro ⟨samples, hsamples, _⟩
    by_contra h
    rw [http_underflow (by omega) hids h] at hsamples
    cases hsamples
  · intro h
    refine ⟨_, http_eq hserver (by omega) hinside hids h, ?_, hlocal⟩
    exact mapM_eq_map fun p hp => HttpDataProvider.getSingle_eq hserver (by omega) (hinside p (mem_of_mem_batch hp))

lemma climbs_of_pairwise {size : Nat} {offsets : List Nat} (h : offsets.Pairwise fun a b => a + size ≤ b) :
    Climbs size offsets := by
  induction offsets with
  | nil => trivial
  | cons a offsets ih =>
    cases offsets with
    | nil => trivial
    | cons b offsets =>
      obtain ⟨ha, h⟩ := pairwise_cons.mp h
      exact ⟨(Nat.le_add_right a size).trans (ha b mem_cons_self), fun _ => ih h⟩

lemma decides_of_dontShuffle (hshuffle : ∀ seed l, (shuffleWith seed l).Perm l)
    (hp : LocalDataProvider.newFromDirectory shuffleWith files t n .dontShuffle = .ok p) :
    Decides (n * t.toNat) (batchPointers p.sequences ids) := by
  obtain ⟨table, htable, rfl⟩ := LocalDataProvider.new_eq_ok hp
  obtain ⟨_, _, _, hplain⟩ := pointers_eq_ok hshuffle htable
  have hbefore : table.Pairwise (Before (n * t.toNat)) := by
    rw [Except.ok.inj (htable.symm.trans hplain)]
    exact plainTable_pairwise
  intro hfile
  refine climbs_of_pairwise (pairwise_map.mpr ?_)
  have hbatch : (batchPointers table ids).Pairwise (Before (n * t.toNat)) :=
    hbefore.sublist ((take_sublist _ _).trans (drop_sublist _ _))
  exact hbatch.imp_of_mem fun {a b} ha hb h => h (hfile a ha b hb)

def oneFileServer (file : String × Vec (BitVec 8)) : Server := fun url first last =>
  if url = file.1 ∧ first ≤ last ∧ last < file.2.toList.length then .ok (piece (last + 1 - first) file.2.toList first)
  else Exec.fail (.request url)

lemma oneFileServer_answers (file : String × Vec (BitVec 8)) : Answers (oneFileServer file) [file] := by
  intro f hf start length hpos hin
  obtain rfl := mem_singleton.mp hf
  rw [oneFileServer, if_pos ⟨rfl, by omega, by omega⟩, Nat.sub_add_cancel (by omega), Nat.add_sub_cancel_left]

/-- Fifteen bytes. -/
def numbered : String × Vec (BitVec 8) :=
  ("data.bin", ⟨[1, 0, 2, 0, 3, 0, 4, 0, 5, 0, 6, 0, 7, 0, 8], by decide⟩)

def threeIds : BatchId := ⟨0, 2, by decide⟩

/-- One file, read locally and over HTTP, gives the same three samples. -/
theorem http_samples_numbered : ∃ p q samples,
    LocalDataProvider.newFromDirectory (fun _ => List.reverse) [numbered] .twoBytes 2 .dontShuffle = .ok p
    ∧ HttpDataProvider.new (fun _ => List.reverse) [(numbered.1, 15)] .twoBytes 2 .dontShuffle = .ok q
    ∧ q.internalGetSamples (oneFileServer numbered) threeIds = .ok samples
    ∧ p.internalGetSamples threeIds = .ok samples := by
  have hp : LocalDataProvider.newFromDirectory (fun _ => List.reverse) [numbered] .twoBytes 2 .dontShuffle
      = .ok ⟨[numbered.2], [⟨0, 0⟩, ⟨0, 4⟩, ⟨0, 8⟩], 2, .twoBytes⟩ := rfl
  have hq : HttpDataProvider.new (fun _ => List.reverse) [(numbered.1, 15)] .twoBytes 2 .dontShuffle
      = .ok ⟨[numbered.1], [⟨0, 0⟩, ⟨0, 4⟩, ⟨0, 8⟩], 2, .twoBytes⟩ := rfl
  have hids : threeIds.end_ < 3 := by decide
  have hperm : ∀ (_ : Bytes32) (l : List SequencePointer), l.reverse.Perm l := fun _ l => l.reverse_perm
  obtain ⟨samples, hhttp, _, hlocal⟩ := (http_samples_iff hperm hp hq (oneFileServer_answers numbered) hids).mpr
    (decides_of_dontShuffle hperm hp)
  exact ⟨_, _, samples, hp, hq, hhttp, hlocal⟩

/-- The same sequences in reverse order. -/
theorem http_samples_underflow : ∃ p q samples,
    LocalDataProvider.newFromDirectory (fun _ => List.reverse) [numbered] .twoBytes 2 (.seeded 0) = .ok p
    ∧ HttpDataProvider.new (fun _ => List.reverse) [(numbered.1, 15)] .twoBytes 2 (.seeded 0) = .ok q
    ∧ q.internalGetSamples (oneFileServer numbered) threeIds = .error (.panic .underflow)
    ∧ p.internalGetSamples threeIds = .ok samples :=
  ⟨_, _, _, rfl, rfl, rfl, rfl⟩

end Main
end Leviathan
