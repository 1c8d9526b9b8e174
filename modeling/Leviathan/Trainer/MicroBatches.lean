import Leviathan.Trainer.Split

/-!
# Micro-batches

A model thread (`LocalTrainer::model_thread` of `shared/modeling/src/trainer.rs`) trains a batch in micro-batches of at
most `micro_batch_size` rows. The tensors of the batch are cut by the number of pieces (`Tensor::chunk`, which makes them
as small as that number allows) and the list of sequence lengths by their size (`chunks`); then the four streams are
zipped.

libtorch is not part of the repository. `Tensor::from_slice2` stacks rows of one length, and `Tensor::chunk(n)` cuts
consecutive rows into pieces of `⌈size / n⌉` rows; both abort where that cannot be done.
-/

namespace Leviathan
open Exec List

/-- The aborts of a model thread on its way to the micro-batches. -/
inductive ModelPanic where
  | divisionByZero      -- `batch_size / micro_batch_size`
  | stack               -- `Tensor::from_slice2`
  | chunk               -- `Tensor::chunk`
  | inputIds            -- the four assertions on the number of micro-batches
  | labels
  | positionIds
  | sequenceLengths
deriving DecidableEq, Repr

/-- What the model is trained on in one go. -/
structure MicroBatch where
  inputIds : List (List Int)
  labels : Option (List (List Int))
  positionIds : Option (List (List Int))
  sequenceLengths : Option (List (List Int))
deriving DecidableEq, Repr

def Stacks (rows : List (List Int)) : Prop := rows ≠ [] ∧ ∀ r ∈ rows, ∀ r' ∈ rows, r.length = r'.length

instance (rows : List (List Int)) : Decidable (Stacks rows) := inferInstanceAs (Decidable (_ ∧ _))

section Model
variable {ε ρ : Type}

def fromSlice2 (rows : List (List Int)) : Exec ε ModelPanic (List (List Int)) := do
  Exec.ensure (Stacks rows) .stack
  .ok rows

/-- Rust `Tensor::from_slice2`, of rows that may be missing. -/
def fromSlice2Option (rows : Option (List (List Int))) : Exec ε ModelPanic (Option (List (List Int))) :=
  match rows with
  | none => .ok none
  | some rows => do
    let rows ← fromSlice2 rows
    .ok (some rows)

/-- All values, if none is missing (Rust `collect::<Option<Vec<_>>>`). -/
def collect (values : List (Option ρ)) : Option (List ρ) := values.mapM id

namespace BatchData

def size : BatchData → Nat
  | .cpu items => items.length
  | .gpu data => data.inputIds.length

/-- Rust `BatchData::gpu`. -/
def toGpu : BatchData → Exec ε ModelPanic BatchDataGPU
  | .cpu items => do
    let inputIds ← fromSlice2 (items.map BatchDataCPU.inputIds)
    let labels ← fromSlice2Option (collect (items.map BatchDataCPU.labels))
    let positionIds ← fromSlice2Option (collect (items.map BatchDataCPU.positionIds))
    .ok { inputIds, labels, positionIds, sequenceLengths := collect (items.map BatchDataCPU.sequenceLengths) }
  | .gpu data => .ok data

end BatchData

/-- Rust `Tensor::chunk(n, 0)`. -/
def tensorChunk (rows : List ρ) (n : Nat) : Exec ε ModelPanic (List (List ρ)) := do
  Exec.ensure (n ≠ 0) .chunk
  .ok (chunks (rows.length ⌈/⌉ n) rows)

/-- The micro-batches of a tensor that may be missing (in Rust `model_thread`). -/
def chunkOption (rows : Option (List ρ)) (n : Nat) : Exec ε ModelPanic (List (Option (List ρ))) :=
  match rows with
  | some rows => do
    let cut ← tensorChunk rows n
    .ok (cut.map some)
  | none => .ok (List.replicate n none)

/-- The micro-batches of sequence lengths that may be missing (in Rust `model_thread`). -/
def chunkLengths (lengths : Option (List ρ)) (microBatchSize n : Nat) : List (Option (List ρ)) :=
  match lengths with
  | some lengths => (chunks microBatchSize lengths).map some
  | none => List.replicate n none

/-- The number of micro-batches (in Rust `model_thread`). -/
def gradAccumSteps (batchSize microBatchSize : Nat) : Nat :=
  batchSize / microBatchSize + if batchSize % microBatchSize ≠ 0 then 1 else 0

/-- The micro-batches of a batch (in Rust `model_thread`). -/
def microBatches (microBatchSize : Nat) (data : BatchData) : Exec ε ModelPanic (List MicroBatch) := do
  Exec.ensure (microBatchSize ≠ 0) .divisionByZero
  let steps := gradAccumSteps data.size microBatchSize
  let gpu ← data.toGpu
  let inputIds ← tensorChunk gpu.inputIds steps
  let labels ← chunkOption gpu.labels steps
  let positionIds ← chunkOption gpu.positionIds steps
  let sequenceLengths := chunkLengths gpu.sequenceLengths microBatchSize steps
  Exec.ensure (inputIds.length = steps) .inputIds
  Exec.ensure (labels.length = steps) .labels
  Exec.ensure (positionIds.length = steps) .positionIds
  Exec.ensure (sequenceLengths.length = steps) .sequenceLengths
  .ok ((inputIds.zip (labels.zip (positionIds.zip sequenceLengths))).map fun (i, l, p, s) => ⟨i, l, p, s⟩)

end Model

namespace BatchDataGPU

/-- All streams have a row for every sample. -/
structure Even (g : BatchDataGPU) : Prop where
  labels : ∀ rows ∈ g.labels, rows.length = g.inputIds.length
  positionIds : ∀ rows ∈ g.positionIds, rows.length = g.inputIds.length
  sequenceLengths : ∀ rows ∈ g.sequenceLengths, rows.length = g.inputIds.length

def rows (g : BatchDataGPU) (size start : Nat) : MicroBatch where
  inputIds := piece size g.inputIds start
  labels := g.labels.map fun rows => piece size rows start
  positionIds := g.positionIds.map fun rows => piece size rows start
  sequenceLengths := g.sequenceLengths.map fun rows => piece size rows start

/-- The micro-batches are the consecutive rows of the batch, of one number up to the last. -/
def Aligned (g : BatchDataGPU) (micro : List MicroBatch) : Prop :=
  ∃ size, 0 < size ∧ micro = (List.range (g.inputIds.length ⌈/⌉ size)).map fun k => g.rows size (k * size)

end BatchDataGPU

section Data
variable {ε ρ : Type}

lemma fromSlice2_eq_ok {a b : List (List Int)} (h : (fromSlice2 a : Exec ε ModelPanic _) = .ok b) : b = a := by
  simp only [fromSlice2, bind_eq_ok, Except.ok.injEq] at h
  exact h.choose_spec.2.symm

lemma fromSlice2Option_eq_ok {a b : Option (List (List Int))} (h : (fromSlice2Option a : Exec ε ModelPanic _) = .ok b) :
    b = a := by
  cases a with
  | none => exact (Except.ok.inj h).symm
  | some rows =>
    simp only [fromSlice2Option, bind_eq_ok, Except.ok.injEq] at h
    obtain ⟨rows', hrows, rfl⟩ := h
    rw [fromSlice2_eq_ok hrows]

lemma length_of_collect {values : List (Option ρ)} {all : List ρ} (h : all ∈ collect values) :
    all.length = values.length := by
  induction values generalizing all with
  | nil =>
    cases h
    rfl
  | cons value values ih =>
    simp only [collect, mapM_cons, Option.mem_def, Option.bind_eq_bind, Option.bind_eq_some_iff] at h
    obtain ⟨_, _, rest, hrest, hall⟩ := h
    cases hall
    rw [length_cons, ih hrest, length_cons]

lemma BatchData.size_eq {data : BatchData} {g : BatchDataGPU} (h : (data.toGpu : Exec ε ModelPanic _) = .ok g) :
    data.size = g.inputIds.length := by
  cases data with
  | cpu items =>
    simp only [toGpu, bind_eq_ok, Except.ok.injEq] at h
    obtain ⟨rows, hrows, _, _, _, _, rfl⟩ := h
    rw [fromSlice2_eq_ok hrows, length_map]
    rfl
  | gpu data =>
    cases h
    rfl

lemma BatchData.even_of_cpu {items : List BatchDataCPU} {g : BatchDataGPU}
    (h : ((cpu items).toGpu : Exec ε ModelPanic _) = .ok g) : g.Even := by
  simp only [toGpu, bind_eq_ok, Except.ok.injEq] at h
  obtain ⟨rows, hrows, labels, hlabels, positionIds, hpositionIds, rfl⟩ := h
  rw [fromSlice2_eq_ok hrows, fromSlice2Option_eq_ok hlabels, fromSlice2Option_eq_ok hpositionIds]
  have hlength {f : BatchDataCPU → Option (List Int)} :
      ∀ rows ∈ collect (items.map f), rows.length = (items.map BatchDataCPU.inputIds).length := by
    intro rows hrows
    rw [length_of_collect hrows, length_map, length_map]
  exact ⟨hlength, hlength, hlength⟩

end Data

section Streams
variable {ε ρ : Type} {n m : Nat}

lemma gradAccumSteps_eq (hm : 0 < m) : gradAccumSteps n m = n ⌈/⌉ m := by
  have hdiv := Nat.div_add_mod n m
  have hlt := Nat.mod_lt n hm
  rw [Nat.ceilDiv_eq_add_pred_div, gradAccumSteps]
  generalize n / m = q at *
  symm
  split
  · apply Nat.div_eq_of_lt_le <;> simp only [Nat.succ_mul, Nat.mul_comm q m] <;> omega
  · apply Nat.div_eq_of_lt_le <;> simp only [Nat.add_zero, Nat.succ_mul, Nat.mul_comm q m] <;> omega

lemma tensorChunk_eq {rows : List ρ} (hn : 0 < n) (hm : 0 < m) (h : rows.length = n) :
    (tensorChunk rows (n ⌈/⌉ m) : Exec ε ModelPanic _)
      = .ok ((List.range (n ⌈/⌉ m)).map fun k => piece (n ⌈/⌉ (n ⌈/⌉ m)) rows (k * (n ⌈/⌉ (n ⌈/⌉ m)))) := by
  rw [tensorChunk, ensure_of (ceilDiv_pos hn hm).ne', chunks_eq_map, h, ceilDiv_ceilDiv hn hm]
  rfl

lemma chunkOption_eq {rows : Option (List ρ)} (hn : 0 < n) (hm : 0 < m) (h : ∀ r ∈ rows, r.length = n) :
    (chunkOption rows (n ⌈/⌉ m) : Exec ε ModelPanic _)
      = .ok ((List.range (n ⌈/⌉ m)).map fun k =>
          rows.map fun r => piece (n ⌈/⌉ (n ⌈/⌉ m)) r (k * (n ⌈/⌉ (n ⌈/⌉ m)))) := by
  cases rows with
  | none => simp [chunkOption]
  | some r =>
    rw [chunkOption, tensorChunk_eq hn hm (h r rfl), ok_bind, map_map]
    rfl

lemma chunkLengths_eq {lengths : Option (List ρ)} (h : ∀ r ∈ lengths, r.length = n) :
    chunkLengths lengths m (n ⌈/⌉ m)
      = (List.range (n ⌈/⌉ m)).map fun k => lengths.map fun r => piece m r (k * m) := by
  cases lengths with
  | none => simp [chunkLengths]
  | some r =>
    rw [chunkLengths, chunks_eq_map, h r rfl, map_map]
    rfl

end Streams

section Main
variable {ε : Type} {data : BatchData} {g : BatchDataGPU} {m : Nat}

/-- There are always as many micro-batches as planned. Their sequence lengths are cut by the size asked for, and the
rest by the number of them. -/
lemma microBatches_eq (hg : (data.toGpu : Exec ε ModelPanic _) = .ok g) (heven : g.Even) (hn : 0 < data.size)
    (hm : 0 < m) :
    (microBatches m data : Exec ε ModelPanic _) = .ok ((List.range (data.size ⌈/⌉ m)).map fun k =>
      { g.rows (data.size ⌈/⌉ (data.size ⌈/⌉ m)) (k * (data.size ⌈/⌉ (data.size ⌈/⌉ m))) with
        sequenceLengths := g.sequenceLengths.map fun rows => piece m rows (k * m) }) := by
  have hsize := BatchData.size_eq hg
  rw [hsize] at hn ⊢
  simp only [microBatches, ensure_of hm.ne', ok_bind, hg, hsize, gradAccumSteps_eq hm,
    tensorChunk_eq hn hm rfl, chunkOption_eq hn hm heven.labels, chunkOption_eq hn hm heven.positionIds,
    chunkLengths_eq heven.sequenceLengths, length_map, length_range, ensure_of,
    zip_map', map_map]
  rfl

lemma sequenceLengths_eq {n k : Nat} {lengths : List (List Int)} (hlen : lengths.length = n)
    (h : n ≤ m ∨ n ⌈/⌉ (n ⌈/⌉ m) = m) (hm : 0 < m) (hk : k < n ⌈/⌉ m) :
    piece m lengths (k * m) = piece (n ⌈/⌉ (n ⌈/⌉ m)) lengths (k * (n ⌈/⌉ (n ⌈/⌉ m))) := by
  obtain hle | heq := h
  · -- there is one micro-batch, with all rows
    have hone : n ⌈/⌉ m ≤ 1 := (ceilDiv_le_iff_le_mul hm).mpr (by omega)
    have hcount : n ⌈/⌉ m = 1 := by omega
    have hzero : k = 0 := by omega
    rw [hcount, ceilDiv_of_eq_mul Nat.one_pos (Nat.mul_one n).symm, hzero, piece, piece, Nat.zero_mul, Nat.zero_mul, drop_zero,
      take_of_length_le (by omega), take_of_length_le (by omega)]
  · rw [heq]

/-- With at least one row each: the model thread gets to the micro-batches, and each of them has the same rows of all four
streams, if and only if there are no sequence lengths, or the rows fit into one micro-batch, or the rows divided by the
number of micro-batches and rounded up are the size of the micro-batches. -/
theorem micro_batches_aligned_iff (hg : (data.toGpu : Exec ε ModelPanic _) = .ok g)
    (heven : ∀ d, data = .gpu d → d.Even) (hn : 0 < data.size) (hm : 0 < m) :
    (∃ micro, (microBatches m data : Exec ε ModelPanic _) = .ok micro ∧ g.Aligned micro)
      ↔ g.sequenceLengths = none ∨ data.size ≤ m ∨ data.size ⌈/⌉ (data.size ⌈/⌉ m) = m := by
  have hgeven : g.Even := by
    cases data with
    | cpu items => exact BatchData.even_of_cpu hg
    | gpu d =>
      cases hg
      exact heven _ rfl
  have hsize := BatchData.size_eq hg
  rw [microBatches_eq hg hgeven hn hm]
  constructor
  · rintro ⟨micro, hmicro, size, hs, heq⟩
    rw [← Except.ok.inj hmicro] at heq
    by_contra hno
    simp only [not_or, not_le] at hno
    obtain ⟨hsome, hlt, hne⟩ := hno
    obtain ⟨lengths, hlengths⟩ := Option.ne_none_iff_exists'.mp hsome
    -- the first micro-batch has `m` sequence lengths, but fewer rows
    have hcount := congrArg List.length heq
    simp only [length_map, length_range] at hcount
    rw [← hcount] at heq
    have hfirst := map_inj_left.mp heq 0 (mem_range.mpr (ceilDiv_pos hn hm))
    have hrows := congrArg (fun micro => micro.inputIds.length) hfirst
    have hlens := congrArg (fun micro => (micro.sequenceLengths.getD []).length) hfirst
    simp only [BatchDataGPU.rows, hlengths, Option.map_some, Option.getD_some, length_piece, Nat.zero_mul, Nat.sub_zero,
      hgeven.sequenceLengths lengths hlengths, ← hsize] at hrows hlens
    omega
  · intro h
    have hper : 0 < data.size ⌈/⌉ (data.size ⌈/⌉ m) := ceilDiv_pos hn (ceilDiv_pos hn hm)
    refine ⟨_, rfl, _, hper, ?_⟩
    rw [← hsize, ceilDiv_ceilDiv hn hm]
    refine map_congr_left fun k hk => ?_
    cases hlengths : g.sequenceLengths with
    | none => simp only [BatchDataGPU.rows, hlengths, Option.map_none]
    | some lengths =>
      have hlen : lengths.length = data.size := (hgeven.sequenceLengths lengths hlengths).trans hsize.symm
      have hcut : data.size ≤ m ∨ data.size ⌈/⌉ (data.size ⌈/⌉ m) = m := h.resolve_left (by simp [hlengths])
      simp only [BatchDataGPU.rows, hlengths, Option.map_some, sequenceLengths_eq hlen hcut hm (mem_range.mp hk)]

/-- A sample with its sequence length. -/
def packed (token : Int) : BatchDataCPU := ⟨[token, token], some [token, 0], none, some [token]⟩

/-- Eight samples in micro-batches of four keep their labels and sequence lengths. -/
theorem micro_batches_aligned_eight : ∃ micro,
    (microBatches 4 (.cpu ([1, 2, 3, 4, 5, 6, 7, 8].map packed)) : Exec Unit ModelPanic _) = .ok micro
    ∧ BatchDataGPU.Aligned
      ⟨[1, 2, 3, 4, 5, 6, 7, 8].map (fun i => [i, i]), some ([1, 2, 3, 4, 5, 6, 7, 8].map fun i => [i, 0]), none,
        some ([1, 2, 3, 4, 5, 6, 7, 8].map fun i => [i])⟩ micro :=
  (micro_batches_aligned_iff (by decide) (fun _ h => by cases h) (by decide) (by decide)).mpr (by decide)

/-- Nine samples in micro-batches of four: there are three micro-batches, and the first has three rows and the sequence
lengths of four. -/
theorem micro_batches_shifted :
    ((microBatches 4 (.cpu ([1, 2, 3, 4, 5, 6, 7, 8, 9].map packed)) : Exec Unit ModelPanic _).map fun micro =>
      micro.map fun b => (b.inputIds, b.sequenceLengths))
    = .ok [([[1, 1], [2, 2], [3, 3]], some [[1], [2], [3], [4]]), ([[4, 4], [5, 5], [6, 6]], some [[5], [6], [7], [8]]),
        ([[7, 7], [8, 8], [9, 9]], some [[9]])] := by
  decide

end Main
end Leviathan
