import Leviathan.Network.Postcard

/-!
# Results from a stream

Model of `distro_results_to_bytes` and `DistroResultIterator` of `shared/network/src/serialized_distro.rs`: results are
written one after the other, and read back by an iterator that decodes what it has and reads on when that is not enough.
It reads through the `BufReader` of the standard library, in pieces of at most 1024 bytes.

A reader is any implementation of `Read`; `Reader.Serves` says that it delivers some bytes in pieces of whatever sizes
and then nothing more. postcard is a parameter (`Postcard`), of which `Postcard.Lawful` is assumed, as its format allows
(`postcard_lawful`). The loop of `next` has fuel, and the results hold with any fuel beyond a bound.
-/

namespace Leviathan
open List

structure Postcard where
  toStdvec : SerializedDistroResult → Except PostcardError Bytes
  takeFromBytes : Bytes → Except PostcardError (SerializedDistroResult × Bytes)

/-- What is assumed of postcard: a value is read from its full encoding and what follows is left, and of a part of an
encoding, also of no byte, the end is missing. -/
structure Postcard.Lawful (P : Postcard) : Prop where
  full : ∀ {result bytes} rest, P.toStdvec result = .ok bytes → P.takeFromBytes (bytes ++ rest) = .ok (result, rest)
  incomplete : ∀ {result bytes p}, P.toStdvec result = .ok bytes → p <+: bytes → p ≠ bytes →
    P.takeFromBytes p = .error .deserializeUnexpectedEnd
  empty : P.takeFromBytes [] = .error .deserializeUnexpectedEnd

def postcard : Postcard where
  toStdvec result := .ok (Postcard.distroResult.encode result)
  takeFromBytes := Postcard.distroResult.take

lemma postcard_lawful : postcard.Lawful where
  full {result bytes} rest h := by
    cases h
    exact Postcard.distroResult.take_encode result rest
  incomplete {result bytes p} h hp hne := by
    cases h
    exact Postcard.distroResult.take_part result p hp hne
  empty := rfl

def distroResultsToBytes (P : Postcard) (results : List SerializedDistroResult) : Except PostcardError Bytes :=
  results.foldlM (fun buf result => do
    let bytes ← P.toStdvec result
    .ok (buf ++ bytes)) []

section Readers
variable {ι σ : Type}

/-- Something to read from (Rust `Read`): its next bytes, at most as many as asked for. -/
structure Reader (ι σ : Type) where
  read : σ → Nat → Except ι (Bytes × σ)

/-- The reader delivers what it has in pieces that are not empty, then nothing. -/
def Reader.Serves (R : Reader ι σ) (rest : σ → Bytes) : Prop :=
  ∀ s n, 0 < n → ∃ bytes s', R.read s n = .ok (bytes, s') ∧ bytes.length ≤ n ∧ rest s = bytes ++ rest s'
    ∧ (bytes = [] → rest s = [])

structure BufReader (σ : Type) where
  inner : σ
  buffer : Bytes

def defaultBufSize : Nat := 8 * 1024

def BufReader.fillBuf (R : Reader ι σ) (r : BufReader σ) : Except ι (BufReader σ) :=
  if r.buffer = [] then do
    let x ← R.read r.inner defaultBufSize
    .ok ⟨x.2, x.1⟩
  else .ok r

/-- Read through the buffer, or past it if it is empty and too small (Rust `BufReader::read`). -/
def Reader.buffered (R : Reader ι σ) : Reader ι (BufReader σ) where
  read r n :=
    if r.buffer = [] ∧ defaultBufSize ≤ n then do
      let x ← R.read r.inner n
      .ok (x.1, ⟨x.2, []⟩)
    else do
      let r ← r.fillBuf R
      .ok (r.buffer.take n, { r with buffer := r.buffer.drop n })

end Readers

/-- Why the iterator fails. -/
inductive DistroResultsReaderError (ι : Type) where
  | postcard (e : PostcardError)
  | io (e : ι)
deriving DecidableEq, Repr

structure DistroResultIterator (σ : Type) where
  reader : BufReader σ
  buffer : Bytes

namespace DistroResultIterator
variable {ι σ : Type}

def new (reader : σ) : DistroResultIterator σ := ⟨⟨reader, []⟩, []⟩

/-- The next result, or `none` at the end. -/
def next (P : Postcard) (R : Reader ι σ) : Nat → DistroResultIterator σ →
    Option (Option (Except (DistroResultsReaderError ι) SerializedDistroResult) × DistroResultIterator σ)
  | 0, _ => none
  | fuel + 1, it =>
    match P.takeFromBytes it.buffer with
    | .ok x => some (some (.ok x.1), { it with buffer := x.2 })
    | .error .deserializeUnexpectedEnd =>
      match R.buffered.read it.reader 1024 with
      | .error e => some (some (.error (.io e)), it)
      | .ok chunk =>
        if chunk.1 = [] then
          if it.buffer = [] then some (none, { it with reader := chunk.2 })
          else some (some (.error (.postcard .deserializeUnexpectedEnd)), { it with reader := chunk.2 })
        else next P R fuel ⟨chunk.2, it.buffer ++ chunk.1⟩
    | .error e => some (some (.error (.postcard e)), it)

/-- What the iterator yields until it ends, in at most so many calls. -/
def outputs (P : Postcard) (R : Reader ι σ) (fuel : Nat) : Nat → DistroResultIterator σ →
    Option (List (Except (DistroResultsReaderError ι) SerializedDistroResult))
  | 0, _ => none
  | calls + 1, it => do
    let x ← it.next P R fuel
    match x.1 with
    | none => some []
    | some result => do
      let results ← outputs P R fuel calls x.2
      some (result :: results)

end DistroResultIterator

/-- The bytes that are still to come through the buffer. -/
def BufReader.remaining {σ : Type} (rest : σ → Bytes) (r : BufReader σ) : Bytes := r.buffer ++ rest r.inner

/-- Bytes that several results are written as. -/
inductive Encodes (P : Postcard) : List SerializedDistroResult → Bytes → Prop
  | nil : Encodes P [] []
  | cons {result results bytes rest} (h : P.toStdvec result = .ok bytes) (hs : Encodes P results rest) :
    Encodes P (result :: results) (bytes ++ rest)

section Reading
variable {ι σ : Type} {R : Reader ι σ} {rest : σ → Bytes}

lemma buffered_read (r : BufReader σ) (n : Nat) : R.buffered.read r n = (
    if r.buffer = [] ∧ defaultBufSize ≤ n then do
      let x ← R.read r.inner n
      .ok (x.1, ⟨x.2, []⟩)
    else do
      let r ← r.fillBuf R
      .ok (r.buffer.take n, { r with buffer := r.buffer.drop n })) := by
  rfl

lemma fillBuf_eq_ok (h : R.Serves rest) (r : BufReader σ) :
    ∃ r', r.fillBuf R = .ok r' ∧ r.remaining rest = r'.remaining rest ∧ (r'.buffer = [] → r.remaining rest = []) := by
  unfold BufReader.fillBuf
  split
  · rename_i hempty
    obtain ⟨bytes, s, hread, _, hrest, hend⟩ := h r.inner defaultBufSize (by decide)
    rw [hread]
    refine ⟨⟨s, bytes⟩, rfl, ?_, fun he => ?_⟩
    · rw [BufReader.remaining, hempty, hrest, nil_append, BufReader.remaining]
    · rw [BufReader.remaining, hempty, hend he, nil_append]
  · rename_i hfull
    exact ⟨r, rfl, rfl, fun he => absurd he hfull⟩

lemma buffered_serves (h : R.Serves rest) : R.buffered.Serves (BufReader.remaining rest) := by
  intro r n hn
  by_cases hpast : r.buffer = [] ∧ defaultBufSize ≤ n
  · obtain ⟨bytes, s, hread, hlen, hrest, hend⟩ := h r.inner n hn
    refine ⟨bytes, ⟨s, []⟩, ?_, hlen, ?_, fun he => ?_⟩
    · rw [buffered_read, if_pos hpast, hread]
      rfl
    · rw [BufReader.remaining, hpast.1, hrest]
      rfl
    · rw [BufReader.remaining, hpast.1, hend he, nil_append]
  · obtain ⟨r', hfill, hrest, hend⟩ := fillBuf_eq_ok h r
    refine ⟨r'.buffer.take n, { r' with buffer := r'.buffer.drop n }, ?_, length_take_le _ _, ?_, fun he => ?_⟩
    · rw [buffered_read, if_neg hpast, hfill]
      rfl
    · rw [hrest, BufReader.remaining, BufReader.remaining, ← append_assoc, take_append_drop]
    · refine hend ?_
      rw [take_eq_nil_iff] at he
      exact he.resolve_left hn.ne'

end Reading

section Results
variable {P : Postcard} {results : List SerializedDistroResult} {bytes : Bytes}

lemma foldlM_encodes {buf : Bytes} (h : (results.foldlM (fun buf result => do
    let bytes ← P.toStdvec result
    .ok (buf ++ bytes)) buf : Except PostcardError Bytes) = .ok bytes) :
    ∃ rest, bytes = buf ++ rest ∧ Encodes P results rest := by
  induction results generalizing buf with
  | nil =>
    cases h
    exact ⟨[], (append_nil _).symm, .nil⟩
  | cons result results ih =>
    rw [foldlM_cons] at h
    cases hresult : P.toStdvec result with
    | error e =>
      rw [hresult] at h
      cases h
    | ok written =>
      rw [hresult] at h
      obtain ⟨rest, hbytes, hrest⟩ := ih h
      exact ⟨written ++ rest, by rw [hbytes, append_assoc], .cons hresult hrest⟩

lemma encodes_of_toBytes (h : distroResultsToBytes P results = .ok bytes) : Encodes P results bytes := by
  obtain ⟨rest, hbytes, hrest⟩ := foldlM_encodes h
  rwa [hbytes, nil_append]

end Results

namespace DistroResultIterator
variable {ι σ : Type} {P : Postcard} {R : Reader ι σ} {rest : σ → Bytes} {it : DistroResultIterator σ}

/-- The bytes that the iterator has not decoded yet. -/
def pending (rest : σ → Bytes) (it : DistroResultIterator σ) : Bytes := it.buffer ++ it.reader.remaining rest

lemma next_item (hP : P.Lawful) (hR : R.Serves rest) {result : SerializedDistroResult} {written later : Bytes}
    (hresult : P.toStdvec result = .ok written) {fuel : Nat} (hfuel : (it.reader.remaining rest).length < fuel)
    (hpending : it.pending rest = written ++ later) :
    ∃ it', it.next P R fuel = some (some (.ok result), it') ∧ it'.pending rest = later
      ∧ (it'.reader.remaining rest).length ≤ (it.reader.remaining rest).length := by
  induction fuel generalizing it with
  | zero => exact absurd hfuel (Nat.not_lt_zero _)
  | succ fuel ih =>
    have hbuffer : it.buffer <+: written ++ later := hpending ▸ prefix_append _ _
    rw [next]
    obtain ⟨hpart, hne⟩ | ⟨q, hq, -⟩ := prefix_append_or hbuffer
    · -- the end of the result is missing, and there is more to read
      obtain ⟨chunk, r, hread, _, hrest, hend⟩ := buffered_serves hR it.reader 1024 (by decide)
      have hchunk : chunk ≠ [] := by
        intro he
        rw [pending, hend he, append_nil] at hpending
        have hlen := hpart.length_le
        rw [hpending, length_append] at hlen
        have hlater : later = [] := eq_nil_of_length_eq_zero (by omega)
        rw [hlater, append_nil] at hpending
        exact hne hpending
      have hshort : (r.remaining rest).length < (it.reader.remaining rest).length := by
        rw [hrest, length_append]
        exact Nat.lt_add_of_pos_left (length_pos_iff.mpr hchunk)
      have hpending' : pending rest ⟨r, it.buffer ++ chunk⟩ = written ++ later := by
        rw [← hpending, pending, pending, hrest, append_assoc]
      obtain ⟨it', hnext, hlater, hle⟩ := ih (lt_of_lt_of_le hshort (Nat.le_of_lt_succ hfuel)) hpending'
      refine ⟨it', ?_, hlater, hle.trans hshort.le⟩
      rw [hP.incomplete hresult hpart hne]
      simp only [hread, if_neg hchunk]
      exact hnext
    · rw [hq, hP.full q hresult]
      refine ⟨_, rfl, ?_, le_rfl⟩
      rw [pending, hq, append_assoc] at hpending
      exact append_cancel_left hpending

lemma next_end (hP : P.Lawful) (hR : R.Serves rest) {fuel : Nat} (hfuel : 0 < fuel) (hpending : it.pending rest = []) :
    ∃ it', it.next P R fuel = some (none, it') := by
  obtain ⟨fuel, rfl⟩ := Nat.exists_eq_add_of_lt hfuel
  obtain ⟨hbuffer, hremaining⟩ := append_eq_nil_iff.mp hpending
  obtain ⟨chunk, r, hread, _, hrest, _⟩ := buffered_serves hR it.reader 1024 (by decide)
  rw [hremaining] at hrest
  have hchunk : chunk = [] := (append_eq_nil_iff.mp hrest.symm).1
  rw [Nat.zero_add, next, hbuffer, hP.empty]
  simp only [hread, if_pos hchunk]
  exact ⟨_, rfl⟩

lemma outputs_eq (hP : P.Lawful) (hR : R.Serves rest) {results : List SerializedDistroResult} {bytes : Bytes}
    (hbytes : Encodes P results bytes) {fuel calls : Nat} (hfuel : (it.reader.remaining rest).length < fuel)
    (hcalls : results.length < calls) (hpending : it.pending rest = bytes) :
    it.outputs P R fuel calls = some (results.map .ok) := by
  induction hbytes generalizing it calls with
  | nil =>
    obtain ⟨calls, rfl⟩ := Nat.exists_eq_add_of_lt hcalls
    obtain ⟨it', hnext⟩ := next_end hP hR (Nat.zero_lt_of_lt hfuel) hpending
    rw [outputs, hnext]
    rfl
  | cons hresult hresults ih =>
    obtain ⟨calls, rfl⟩ := Nat.exists_eq_add_of_lt hcalls
    obtain ⟨it', hnext, hlater, hle⟩ := next_item hP hR hresult hfuel hpending
    have hrest := ih (lt_of_le_of_lt hle hfuel) (Nat.lt_of_lt_of_le (Nat.lt_succ_self _) (Nat.le_add_right _ calls)) hlater
    rw [outputs, hnext]
    show (do let results ← it'.outputs P R fuel _; some (_ :: results)) = _
    rw [length_cons, hrest]
    rfl

end DistroResultIterator

/-- For every list of results and every reader that delivers the bytes they are written as, in pieces of whatever sizes, the
iterator yields these results in order and then ends without an error. A call of `next` makes no more rounds than there are
bytes, and one more. -/
theorem streaming_decode {ι σ : Type} {P : Postcard} (hP : P.Lawful) {R : Reader ι σ} {rest : σ → Bytes}
    (hR : R.Serves rest) {results : List SerializedDistroResult} {bytes : Bytes}
    (hbytes : distroResultsToBytes P results = .ok bytes) {reader : σ} (hreader : rest reader = bytes) {fuel calls : Nat}
    (hfuel : bytes.length < fuel) (hcalls : results.length < calls) :
    (DistroResultIterator.new reader).outputs P R fuel calls = some (results.map .ok) := by
  refine DistroResultIterator.outputs_eq hP hR (encodes_of_toBytes hbytes) ?_ hcalls hreader
  rw [BufReader.remaining, DistroResultIterator.new, nil_append, hreader]
  exact hfuel

def oneComponent (index : BitVec 8) : SerializedDistroResult where
  sparseIdx := ⟨⟨[1], by decide⟩, .uint8, false, .full ⟨[index], Nat.one_lt_two_pow (by decide)⟩⟩
  sparseVal := ⟨⟨[1], by decide⟩, .bool, false, .oneBit ⟨[1], by decide⟩⟩
  xshape := ⟨[200, 300], by decide⟩
  totalk := 60000

/-- A reader that delivers three bytes at a time. -/
def threeBytes : Reader Empty Bytes where
  read s n := .ok (s.take (min n 3), s.drop (min n 3))

lemma threeBytes_serves : threeBytes.Serves id := by
  intro s n hn
  refine ⟨_, _, rfl, ?_, (take_append_drop _ _).symm, fun he => ?_⟩
  · exact (length_take_le _ _).trans (Nat.min_le_left _ _)
  · rw [take_eq_nil_iff] at he
    exact he.resolve_left (by omega)

/-- Two contributions are decoded from a reader that delivers three bytes at a time. -/
theorem streaming_decode_two : ∃ bytes, distroResultsToBytes postcard [oneComponent 5, oneComponent 130] = .ok bytes
    ∧ (DistroResultIterator.new bytes).outputs postcard threeBytes (bytes.length + 1) 3
      = some [.ok (oneComponent 5), .ok (oneComponent 130)] := by
  have hcalls : [oneComponent 5, oneComponent 130].length < 3 := by decide
  cases hbytes : distroResultsToBytes postcard [oneComponent 5, oneComponent 130] with
  | error e => cases hbytes
  | ok bytes =>
    exact ⟨bytes, rfl, streaming_decode postcard_lawful threeBytes_serves hbytes rfl (Nat.lt_succ_self _) hcalls⟩

end Leviathan
