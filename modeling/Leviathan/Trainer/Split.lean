import Leviathan.Lib.Chunks
import Leviathan.Lib.Exec

/-!
# A batch and its trainers

A client with several devices has one trainer on each of them, and every batch is split among them (in Rust
`TrainingStepMetadata::start` of `shared/client/src/state/train.rs`; the data of a batch are those of
`shared/modeling/src/trainer.rs`). The batch is cut into pieces of the truncated quotient of its size and the number of
trainers. If that gives one piece too many, the samples of the last one are handed out one by one to the others; then
pieces and trainers are zipped.
-/

namespace Leviathan
open Exec List

/-- A sample on the host. -/
structure BatchDataCPU where
  inputIds : List Int
  labels : Option (List Int)
  positionIds : Option (List Int)
  sequenceLengths : Option (List Int)
deriving DecidableEq, Repr

/-- A batch on a device; a tensor is the list of its rows. -/
structure BatchDataGPU where
  inputIds : List (List Int)
  labels : Option (List (List Int))
  positionIds : Option (List (List Int))
  sequenceLengths : Option (List (List Int))
deriving DecidableEq, Repr

inductive BatchData where
  | cpu (items : List BatchDataCPU)
  | gpu (data : BatchDataGPU)
deriving DecidableEq, Repr

/-- Why a training step fails, as far as the split is concerned. -/
inductive TrainError where
  | trainCrashed
deriving DecidableEq, Repr

inductive SplitPanic where
  | divisionByZero
  | zeroChunkSize       -- `chunks(0)`
  | noBatches           -- `batches.pop().unwrap()`
  | indexOutOfBounds    -- `batches[i]`
deriving DecidableEq, Repr

section Split
variable {α τ ε : Type} {batches : List (List α)} {samples : List α} {trainers : List τ}

/-- Append a sample to each of the first batches (in Rust `start`). -/
def pushEach (batches : List (List α)) (last : List α) : Exec ε SplitPanic (List (List α)) :=
  last.zipIdx.foldlM (fun batches sample => do
    Exec.ensure (sample.2 < batches.length) .indexOutOfBounds
    .ok (batches.modify sample.2 fun batch => batch ++ [sample.1])) batches

/-- The pieces of a batch (in Rust `start`). -/
def splitBatch (items : List α) (numTrainers : Nat) : Exec ε SplitPanic (List (List α)) := do
  Exec.ensure (numTrainers ≠ 0) .divisionByZero
  let chunkSize := items.length / numTrainers
  Exec.ensure (chunkSize ≠ 0) .zeroChunkSize
  let batches := chunks chunkSize items
  if batches.length = numTrainers + 1 then do
    let last ← Exec.unwrap batches.getLast? .noBatches
    pushEach batches.dropLast last
  else
    .ok batches

/-- Hand a batch to the trainers (in Rust `start`). A local trainer knows how many trainers there are. -/
def distribute (dataParallelWorldSize : τ → Option Nat) (availableTrainers : List τ) (data : BatchData) :
    Exec TrainError SplitPanic (List (τ × List BatchDataCPU)) := do
  let trainer ← Exec.okOr availableTrainers.head? .trainCrashed
  Exec.require (∀ n ∈ dataParallelWorldSize trainer, availableTrainers.length = n) .trainCrashed
  match data with
  | .gpu _ => Exec.fail .trainCrashed
  | .cpu items => do
    let batches ← splitBatch items availableTrainers.length
    .ok (availableTrainers.zip batches)

/-- Every trainer has a piece, every sample is in one piece, and the pieces are equally long up to one sample. -/
structure Keeps (trainers : List τ) (items : List α) (parts : List (τ × List α)) : Prop where
  each : parts.map Prod.fst = trainers
  samples : (parts.map Prod.snd).flatten.Perm items
  even : trainers.length ≤ items.length → ∀ p ∈ parts, ∀ q ∈ parts, p.2.length ≤ q.2.length + 1

/-- The first batches with one more sample each. -/
def spread : List (List α) → List α → List (List α)
  | batch :: batches, sample :: samples => (batch ++ [sample]) :: spread batches samples
  | batches, [] => batches
  | [], _ => []

lemma foldlM_push (batches before : List (List α)) (samples : List α) (h : samples.length ≤ batches.length) :
    ((samples.zipIdx before.length).foldlM (fun batches sample => do
      Exec.ensure (sample.2 < batches.length) .indexOutOfBounds
      .ok (batches.modify sample.2 fun batch => batch ++ [sample.1])) (before ++ batches)
        : Exec ε SplitPanic (List (List α))) = .ok (before ++ spread batches samples) := by
  induction samples generalizing batches before with
  | nil => cases batches <;> rfl
  | cons sample samples ih =>
    cases batches with
    | nil => cases h
    | cons batch batches =>
      have hlt : before.length < (before ++ batch :: batches).length := by simp
      have hmod : (before ++ batch :: batches).modify before.length (fun batch => batch ++ [sample])
          = (before ++ [batch ++ [sample]]) ++ batches := by
        simp [modify_eq_take_cons_drop]
      have hrest := ih batches (before ++ [batch ++ [sample]]) (Nat.le_of_succ_le_succ h)
      rw [zipIdx_cons, foldlM_cons]
      simp only [ensure_of hlt, ok_bind, hmod]
      rw [length_append, length_singleton] at hrest
      rw [hrest, spread, append_assoc]
      rfl

lemma pushEach_eq {last : List α} (h : last.length ≤ batches.length) :
    (pushEach batches last : Exec ε SplitPanic (List (List α))) = .ok (spread batches last) := by
  have := foldlM_push (ε := ε) batches [] last h
  simpa [pushEach] using this

@[simp] lemma length_spread (batches : List (List α)) (samples : List α) :
    (spread batches samples).length = batches.length := by
  induction batches generalizing samples with
  | nil => cases samples <;> rfl
  | cons batch batches ih =>
    cases samples with
    | nil => rfl
    | cons sample samples => rw [spread, length_cons, ih, length_cons]

lemma flatten_spread_perm (h : samples.length ≤ batches.length) :
    (spread batches samples).flatten.Perm (batches.flatten ++ samples) := by
  induction batches generalizing samples with
  | nil =>
    rw [eq_nil_of_length_eq_zero (Nat.le_zero.mp h)]
    exact .refl _
  | cons batch batches ih =>
    cases samples with
    | nil =>
      rw [append_nil]
      exact .refl _
    | cons sample samples =>
      rw [spread, flatten_cons, flatten_cons, append_assoc, append_assoc]
      refine List.Perm.append_left batch ?_
      have hrest : (spread batches samples).flatten.Perm _ := ih (Nat.le_of_succ_le_succ h)
      exact (hrest.cons sample).trans perm_middle.symm

lemma length_of_mem_spread {size : Nat} {c : List α} (h : ∀ b ∈ batches, b.length = size)
    (hc : c ∈ spread batches samples) : size ≤ c.length ∧ c.length ≤ size + 1 := by
  induction batches generalizing samples with
  | nil => cases samples <;> cases hc
  | cons batch batches ih =>
    obtain ⟨hb, hbs⟩ := forall_mem_cons.mp h
    cases samples with
    | nil =>
      have := h c hc
      omega
    | cons sample samples =>
      rw [spread, mem_cons] at hc
      obtain rfl | hc := hc
      · rw [length_append, length_singleton, hb]
        omega
      · exact ih hbs hc

section Cases
variable {items : List α} {n : Nat}

lemma splitBatch_few (hn : 0 < n) (h : items.length < n) :
    (splitBatch items n : Exec ε SplitPanic (List (List α))) = .error (.panic .zeroChunkSize) := by
  simp [splitBatch, Exec.ensure, hn.ne', Nat.div_eq_of_lt h, Exec.abort]

lemma splitBatch_eq (hn : 0 < n) (h : n ≤ items.length) :
    (splitBatch items n : Exec ε SplitPanic (List (List α)))
      = if items.length ⌈/⌉ (items.length / n) = n + 1 then do
          let last ← Exec.unwrap (chunks (items.length / n) items).getLast? .noBatches
          pushEach (chunks (items.length / n) items).dropLast last
        else .ok (chunks (items.length / n) items) := by
  have hq : items.length / n ≠ 0 := (Nat.div_pos h hn).ne'
  simp only [splitBatch, ensure_of hn.ne', ensure_of hq, ok_bind, length_chunks]

lemma splitBatch_spread (hn : 0 < n) (h : n ≤ items.length) (hr : items.length % n ≤ items.length / n) :
    (splitBatch items n : Exec ε SplitPanic (List (List α)))
      = .ok (spread (pieces (items.length / n) n items) (items.drop (n * (items.length / n)))) := by
  have hq : 0 < items.length / n := Nat.div_pos h hn
  have hdiv := Nat.div_add_mod items.length n
  have hlt := Nat.mod_lt items.length hn
  rw [splitBatch_eq hn h]
  generalize items.length / n = q at *
  by_cases h0 : items.length % n = 0
  · -- the trainers have pieces of one size
    have hmul : items.length = n * q := by omega
    rw [ceilDiv_of_eq_mul hq hmul, if_neg (by omega), chunks_of_eq_mul hq hmul, ← hmul, drop_length]
    cases pieces q n items <;> rfl
  · -- one piece too many, with the samples of the remainder
    have hcount : items.length ⌈/⌉ q = n + 1 := by
      refine Nat.le_antisymm ((ceilDiv_le_iff_le_mul hq).mpr ?_) (Nat.lt_of_not_le fun hle => ?_)
      · rw [Nat.mul_succ, Nat.mul_comm q n]
        omega
      · rw [ceilDiv_le_iff_le_mul hq, Nat.mul_comm] at hle
        omega
    have hlast : pieces q 1 (items.drop (n * q)) = [items.drop (n * q)] := by
      rw [pieces, pieces, take_of_length_le]
      rw [length_drop]
      omega
    rw [hcount, if_pos rfl, chunks, hcount, pieces_add, hlast, getLast?_concat, dropLast_concat, unwrap_some, ok_bind]
    apply pushEach_eq
    rw [length_drop, length_pieces]
    omega

lemma splitBatch_beyond (hn : 0 < n) (h : n ≤ items.length) (hr : items.length / n < items.length % n) :
    ∃ m, (splitBatch items n : Exec ε SplitPanic (List (List α))) = .ok (pieces (items.length / n) (n + m) items) := by
  have hq : 0 < items.length / n := Nat.div_pos h hn
  have hdiv := Nat.div_add_mod items.length n
  rw [splitBatch_eq hn h]
  generalize items.length / n = q at *
  have hcount : n + 1 < items.length ⌈/⌉ q := by
    by_contra hle
    rw [not_lt, ceilDiv_le_iff_le_mul hq, Nat.mul_succ, Nat.mul_comm q n] at hle
    omega
  refine ⟨items.length ⌈/⌉ q - n, ?_⟩
  rw [if_neg hcount.ne', chunks, Nat.add_sub_cancel' (by omega)]

end Cases

lemma zip_append_right {a b : List α} (h : trainers.length = a.length) : trainers.zip (a ++ b) = trainers.zip a := by
  have hzip : (trainers ++ []).zip (a ++ b) = trainers.zip a ++ [].zip b := zip_append h
  rwa [append_nil, zip_nil_left, append_nil] at hzip

lemma keeps_spread (hn : 0 < trainers.length) (items : List α) :
    Keeps trainers items (trainers.zip (spread (pieces (items.length / trainers.length) trainers.length items)
      (items.drop (trainers.length * (items.length / trainers.length))))) := by
  generalize hq : items.length / trainers.length = q
  have hmul : trainers.length * q ≤ items.length := hq ▸ Nat.mul_div_le _ _
  have hrest : items.length - trainers.length * q ≤ trainers.length := by
    have hdiv := Nat.div_add_mod items.length trainers.length
    have hlt := Nat.mod_lt items.length hn
    rw [hq] at hdiv
    omega
  generalize hbatches : spread (pieces q trainers.length items) (items.drop (trainers.length * q)) = batches
  have hlen : batches.length = trainers.length := by rw [← hbatches, length_spread, length_pieces]
  refine ⟨map_fst_zip hlen.ge, ?_, fun _ p hp p' hp' => ?_⟩
  · rw [map_snd_zip hlen.le, ← hbatches]
    refine (flatten_spread_perm ?_).trans ?_
    · rw [length_drop, length_pieces]
      exact hrest
    · rw [flatten_pieces, take_append_drop]
  · -- every piece has the quotient or one more
    have hsize : ∀ b ∈ pieces q trainers.length items, b.length = q := fun b hb => length_of_mem_pieces hmul hb
    have hp := length_of_mem_spread hsize (hbatches ▸ (of_mem_zip hp).2)
    have hp' := length_of_mem_spread hsize (hbatches ▸ (of_mem_zip hp').2)
    omega

/-- For every batch and at least one trainer: every trainer gets one piece, every sample is in one piece and the pieces
differ by at most one sample if and only if there are no fewer samples than trainers and the remainder of the samples does
not exceed the size of the pieces. -/
theorem split_keeps_iff {worldSize : τ → Option Nat} {trainers : List τ} (hne : trainers ≠ [])
    (hworld : ∀ t ∈ trainers, ∀ n ∈ worldSize t, trainers.length = n) (items : List BatchDataCPU) :
    (∃ parts, distribute worldSize trainers (.cpu items) = .ok parts ∧ Keeps trainers items parts)
      ↔ trainers.length ≤ items.length ∧ items.length % trainers.length ≤ items.length / trainers.length := by
  have hn : 0 < trainers.length := length_pos_iff.mpr hne
  have hdist : distribute worldSize trainers (.cpu items) = (do
      let batches ← splitBatch items trainers.length
      .ok (trainers.zip batches)) := by
    cases trainers with
    | nil => exact absurd rfl hne
    | cons t ts => simp only [distribute, head?_cons, Exec.okOr, ok_bind, require_of (hworld t mem_cons_self)]
  rw [hdist]
  constructor
  · rintro ⟨parts, hparts, hkeeps⟩
    have hle : trainers.length ≤ items.length := by
      by_contra hlt
      rw [splitBatch_few hn (Nat.not_le.mp hlt)] at hparts
      cases hparts
    refine ⟨hle, ?_⟩
    by_contra hr
    obtain ⟨m, hm⟩ := splitBatch_beyond (ε := TrainError) hn hle (Nat.not_le.mp hr)
    rw [hm] at hparts
    cases hparts
    -- the samples behind the last trainer's piece are missing
    have hlen := hkeeps.samples.length_eq
    rw [pieces_add, zip_append_right (length_pieces items).symm, map_snd_zip (length_pieces items).le, flatten_pieces,
      length_take] at hlen
    have hdiv := Nat.div_add_mod items.length trainers.length
    have hpos : 0 < items.length % trainers.length := Nat.lt_of_le_of_lt (Nat.zero_le _) (Nat.not_le.mp hr)
    rw [Nat.min_def] at hlen
    split at hlen <;> omega
  · rintro ⟨hle, hr⟩
    rw [splitBatch_spread hn hle hr]
    exact ⟨_, rfl, keeps_spread hn items⟩

def sample (token : Int) : BatchDataCPU := ⟨[token], none, none, none⟩

/-- Seven samples are split over three trainers, and each is kept. -/
theorem split_keeps_seven : ∃ parts,
    distribute (fun _ => some 3) ["a", "b", "c"] (.cpu ([1, 2, 3, 4, 5, 6, 7].map sample)) = .ok parts
    ∧ Keeps ["a", "b", "c"] ([1, 2, 3, 4, 5, 6, 7].map sample) parts :=
  (split_keeps_iff (by decide) (by decide) _).mpr (by decide)

/-- Eleven samples and four trainers, of which three samples are dropped; and one sample and two trainers. -/
theorem split_drops :
    distribute (fun _ => some 4) ["a", "b", "c", "d"] (.cpu ([1, 2, 3, 4, 5, 6, 7, 8, 9, 10, 11].map sample))
      = .ok [("a", [1, 2].map sample), ("b", [3, 4].map sample), ("c", [5, 6].map sample), ("d", [7, 8].map sample)]
    ∧ distribute (fun _ => some 2) ["a", "b"] (.cpu [sample 1]) = .error (.panic .zeroChunkSize) := by
  decide

end Split
end Leviathan
