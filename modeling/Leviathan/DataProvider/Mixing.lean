import Leviathan.Lib.Exec
import Mathlib.Data.Int.CardIntervalMod

/-!
# Mixing datasets

Model of `build_weighted_index` and `shuffle` of `shared/data-provider/src/weighted/mod.rs`. An index is built one
sample after the other. Each time a dataset is chosen, by how far it lags behind its weight, and gives its next sample:
first each of them once, then by the number it has given, modulo its size.

The choice is made with floating point numbers, whose operations are parameters (`Weighting`). What is said of an index
holds for every choice that names a dataset. Counters of draws are at most the number of samples and do not overflow.
-/

namespace Leviathan
open Exec List

/-- The aborts of a mix of datasets. -/
inductive MixPanic where
  | overflow
  | divisionByZero
  | indexOutOfBounds
  | noRequests          -- `first()`, `last()` or `[0]` of an empty vector
  | emptyInterval       -- an interval whose start is behind its end
deriving DecidableEq, Repr

/-- The operations on floating point numbers: `weights[i] * sample_idx_float - total_samples_drawn[i]`, `>` and
`f64::NEG_INFINITY`. -/
structure Weighting (φ : Type) where
  error : Nat → Nat → Nat → φ
  gt : φ → φ → Bool
  negInfinity : φ

/-- What is known of a dataset while an index is built (one element each of `total_samples_drawn`, `next_unique_index` and
`is_exhausted`). -/
structure Cursor where
  totalSamplesDrawn : Nat
  nextUniqueIndex : Nat
  isExhausted : Bool
deriving DecidableEq, Repr

/-- An index that is being built. -/
structure Mix where
  datasetIndex : List Nat
  datasetSampleIndex : List Nat
  cursors : List Cursor
deriving DecidableEq, Repr

section Build
variable {ε φ : Type}

/-- The dataset that lags behind most (the inner loop of `build_weighted_index`). -/
def chooseProvider (W : Weighting φ) (datasetSizes : List Nat) (sampleIdx : Nat) (cursors : List Cursor) : Nat :=
  let chosen := (datasetSizes.zip cursors).zipIdx.foldl (fun best dataset =>
    if dataset.1.1 = 0 then best
    else
      let error := W.error dataset.2 (max sampleIdx 1) dataset.1.2.totalSamplesDrawn
      if W.gt error best.1 then (error, dataset.2) else best) (W.negInfinity, 0)
  chosen.2

/-- The next sample of a dataset. -/
def Cursor.draw (c : Cursor) (providerSize : Nat) : Exec ε MixPanic (Nat × Cursor) :=
  if c.isExhausted then do
    Exec.ensure (providerSize ≠ 0) .divisionByZero
    .ok (c.totalSamplesDrawn % providerSize, { c with totalSamplesDrawn := c.totalSamplesDrawn + 1 })
  else
    .ok (c.nextUniqueIndex, ⟨c.totalSamplesDrawn + 1, c.nextUniqueIndex + 1, decide (c.nextUniqueIndex + 1 = providerSize)⟩)

/-- The next sample of the dataset that is chosen. -/
def drawSample (datasetSizes : List Nat) (choose : Nat → List Cursor → Nat) (m : Mix) (sampleIdx : Nat) :
    Exec ε MixPanic Mix := do
  let chosenProviderIdx := choose sampleIdx m.cursors
  let providerSize ← Exec.unwrap datasetSizes[chosenProviderIdx]? .indexOutOfBounds
  let cursor ← Exec.unwrap m.cursors[chosenProviderIdx]? .indexOutOfBounds
  let (sampleToYield, cursor) ← cursor.draw providerSize
  .ok ⟨m.datasetIndex ++ [chosenProviderIdx], m.datasetSampleIndex ++ [sampleToYield],
    m.cursors.set chosenProviderIdx cursor⟩

/-- The index of a mix, for a choice of datasets (the outer loop of `build_weighted_index`). -/
def buildIndex (choose : Nat → List Cursor → Nat) (nSamples : Nat) (datasetSizes : List Nat) : Exec ε MixPanic Mix :=
  (List.range nSamples).foldlM (drawSample datasetSizes choose)
    ⟨[], [], List.replicate datasetSizes.length ⟨0, 0, false⟩⟩

def buildWeightedIndex (W : Weighting φ) (nSamples : Nat) (datasetSizes : List Nat) :
    Exec ε MixPanic (List Nat × List Nat) := do
  let m ← buildIndex (chooseProvider W datasetSizes) nSamples datasetSizes
  .ok (m.datasetIndex, m.datasetSampleIndex)

/-- The exchanges for the positions from `i` down to one, at positions that a generator draws. -/
def shuffleBoth (randomRange : (i : Nat) → Fin (i + 1)) : Nat → List Nat → List Nat → List Nat × List Nat
  | 0, datasetIndex, datasetSampleIndex => (datasetIndex, datasetSampleIndex)
  | i + 1, datasetIndex, datasetSampleIndex =>
    let j := (randomRange (i + 1)).val
    shuffleBoth randomRange i (datasetIndex.swap (i + 1) j) (datasetSampleIndex.swap (i + 1) j)

/-- Rust `shuffle`. -/
def shuffleIndex (randomRange : (i : Nat) → Fin (i + 1)) (datasetIndex datasetSampleIndex : List Nat) :
    List Nat × List Nat :=
  shuffleBoth randomRange (datasetIndex.length - 1) datasetIndex datasetSampleIndex

end Build

/-- The samples of a dataset in an index, in order. -/
def drawsOf (dataset : Nat) (datasetIndex datasetSampleIndex : List Nat) : List Nat :=
  ((datasetIndex.zip datasetSampleIndex).filter fun e => e.1 = dataset).map Prod.snd

/-- The cursor of a dataset that has given some samples. -/
def cursorAt (size drawn : Nat) : Cursor := ⟨drawn, min drawn size, decide (size ≤ drawn)⟩

/-- The samples of each dataset are its samples in a circle, and its cursor says how many there are. -/
structure Mixed (datasetSizes : List Nat) (m : Mix) : Prop where
  lengths : m.datasetIndex.length = m.datasetSampleIndex.length
  cursors : m.cursors.length = datasetSizes.length
  chosen : ∀ dataset ∈ m.datasetIndex, dataset < datasetSizes.length
  cycle : ∀ dataset size, datasetSizes[dataset]? = some size →
    m.cursors[dataset]? = some (cursorAt size (drawsOf dataset m.datasetIndex m.datasetSampleIndex).length)
      ∧ drawsOf dataset m.datasetIndex m.datasetSampleIndex
        = (List.range (drawsOf dataset m.datasetIndex m.datasetSampleIndex).length).map (· % size)

section Cycle
variable {ε φ : Type} {datasetSizes : List Nat} {choose : Nat → List Cursor → Nat} {m : Mix}

lemma Cursor.draw_cursorAt {size : Nat} (hsize : 0 < size) (drawn : Nat) :
    ((cursorAt size drawn).draw size : Exec ε MixPanic (Nat × Cursor))
      = .ok (drawn % size, cursorAt size (drawn + 1)) := by
  by_cases h : size ≤ drawn
  · have hnext : cursorAt size (drawn + 1) = { cursorAt size drawn with totalSamplesDrawn := drawn + 1 } := by
      simp [cursorAt, h, Nat.le_succ_of_le h]
    have hexhausted : (cursorAt size drawn).isExhausted = true := decide_eq_true h
    rw [hnext, Cursor.draw, if_pos hexhausted, ensure_of hsize.ne']
    rfl
  · have hlt := Nat.lt_of_not_le h
    have hmin : min drawn size = drawn := Nat.min_eq_left hlt.le
    have hexhausted : decide (drawn + 1 = size) = decide (size ≤ drawn + 1) := decide_eq_decide.mpr (by omega)
    rw [Cursor.draw, if_neg (by simp [cursorAt, h]), Nat.mod_eq_of_lt hlt]
    simp only [cursorAt, hmin, hexhausted, Nat.min_eq_left hlt]

lemma drawsOf_append {datasetIndex datasetSampleIndex : List Nat} (h : datasetIndex.length = datasetSampleIndex.length)
    (dataset chosen sample : Nat) :
    drawsOf dataset (datasetIndex ++ [chosen]) (datasetSampleIndex ++ [sample])
      = drawsOf dataset datasetIndex datasetSampleIndex ++ if chosen = dataset then [sample] else [] := by
  rw [drawsOf, zip_append h, filter_append, map_append]
  by_cases he : chosen = dataset
  · simp [drawsOf, he]
  · simp [drawsOf, he]

lemma Mixed.drawSample (h : Mixed datasetSizes m) (hsizes : ∀ size ∈ datasetSizes, 0 < size) {sampleIdx : Nat}
    (hchoose : choose sampleIdx m.cursors < datasetSizes.length) :
    ∃ m', (drawSample datasetSizes choose m sampleIdx : Exec ε MixPanic Mix) = .ok m' ∧ Mixed datasetSizes m'
      ∧ m'.datasetIndex = m.datasetIndex ++ [choose sampleIdx m.cursors] := by
  obtain ⟨chosen, hc⟩ : ∃ chosen, chosen = choose sampleIdx m.cursors := ⟨_, rfl⟩
  rw [← hc] at hchoose ⊢
  have hsize : datasetSizes[chosen]? = some datasetSizes[chosen] := getElem?_eq_getElem hchoose
  generalize datasetSizes[chosen] = size at hsize
  obtain ⟨hcursor, hcycle⟩ := h.cycle chosen size hsize
  have hpos := hsizes size (mem_of_getElem? hsize)
  generalize hdrawn : (drawsOf chosen m.datasetIndex m.datasetSampleIndex).length = drawn at hcursor hcycle
  refine ⟨⟨m.datasetIndex ++ [chosen], m.datasetSampleIndex ++ [drawn % size],
    m.cursors.set chosen (cursorAt size (drawn + 1))⟩, ?_, ?_, rfl⟩
  · rw [Leviathan.drawSample, ← hc, hsize, hcursor]
    simp only [unwrap_some, ok_bind, Cursor.draw_cursorAt hpos]
  · refine ⟨?_, ?_, ?_, ?_⟩
    · rw [length_append, length_append, h.lengths]
      rfl
    · rw [length_set, h.cursors]
    · intro dataset hd
      obtain hd | hd := mem_append.mp hd
      · exact h.chosen dataset hd
      · rw [mem_singleton.mp hd]
        exact hchoose
    · intro dataset size' hsize'
      rw [drawsOf_append h.lengths]
      by_cases he : chosen = dataset
      · subst he
        cases hsize.symm.trans hsize'
        rw [if_pos rfl, length_append, hdrawn, length_singleton, range_succ, map_append, ← hcycle]
        refine ⟨?_, rfl⟩
        rw [getElem?_set_self (by rw [h.cursors]; exact hchoose)]
      · rw [if_neg he, append_nil, getElem?_set_ne he]
        exact h.cycle dataset size' hsize'

lemma mixed_nil (hsizes : ∀ size ∈ datasetSizes, 0 < size) :
    Mixed datasetSizes ⟨[], [], List.replicate datasetSizes.length ⟨0, 0, false⟩⟩ := by
  refine ⟨rfl, List.length_replicate, ?_, ?_⟩
  · rintro _ ⟨⟩
  · intro dataset size hsize
    obtain ⟨hlt, rfl⟩ := List.getElem?_eq_some_iff.mp hsize
    have hpos := hsizes _ (List.getElem_mem hlt)
    refine ⟨?_, rfl⟩
    rw [List.getElem?_replicate, if_pos hlt]
    simp [cursorAt, drawsOf, hpos.ne']

lemma mixed_of_build (hsizes : ∀ size ∈ datasetSizes, 0 < size) {nSamples : Nat}
    (hchoose : ∀ sampleIdx < nSamples, ∀ cursors, choose sampleIdx cursors < datasetSizes.length) :
    ∃ m, (buildIndex choose nSamples datasetSizes : Exec ε MixPanic Mix) = .ok m ∧ Mixed datasetSizes m
      ∧ m.datasetIndex.length = nSamples := by
  induction nSamples with
  | zero => exact ⟨_, rfl, mixed_nil hsizes, rfl⟩
  | succ n ih =>
    obtain ⟨m, hm, hmixed, hlen⟩ := ih fun sampleIdx hlt => hchoose sampleIdx (Nat.lt_succ_of_lt hlt)
    obtain ⟨m', hm', hmixed', hindex⟩ := hmixed.drawSample (ε := ε) hsizes (hchoose n (Nat.lt_succ_self n) m.cursors)
    refine ⟨m', ?_, hmixed', ?_⟩
    · rw [buildIndex, range_succ, foldlM_append]
      rw [buildIndex] at hm
      rw [hm, ok_bind, foldlM_cons, hm', ok_bind]
      rfl
    · rw [hindex, length_append, hlen]
      rfl

lemma chooseProvider_lt (W : Weighting φ) (h : datasetSizes ≠ []) (sampleIdx : Nat) (cursors : List Cursor) :
    chooseProvider W datasetSizes sampleIdx cursors < datasetSizes.length := by
  have hpos := length_pos_of_ne_nil h
  have hidx : ∀ dataset ∈ (datasetSizes.zip cursors).zipIdx, dataset.2 < datasetSizes.length := by
    intro dataset hd
    have := snd_lt_of_mem_zipIdx hd
    rw [length_zip] at this
    omega
  -- the best dataset so far is one of those that have been looked at, or the first
  refine foldlRecOn (motive := fun best : φ × Nat => best.2 < datasetSizes.length) _ _ hpos ?_
  intro best hb dataset hd
  dsimp only
  split_ifs
  · exact hb
  · exact hidx dataset hd
  · exact hb

end Cycle

section Shuffle

lemma map_swap {α β : Type} (f : α → β) (l : List α) (i j : Nat) : (l.swap i j).map f = (l.map f).swap i j := by
  by_cases hi : i < l.length
  · by_cases hj : j < l.length
    · rw [swap_eq_of_lt hi hj, swap_eq_of_lt (by rwa [length_map]) (by rwa [length_map])]
      simp [map_set]
    · rw [swap_eq_of_ge_right (Nat.le_of_not_lt hj), swap_eq_of_ge_right (by rw [length_map]; omega)]
  · rw [swap_eq_of_ge_left (Nat.le_of_not_lt hi), swap_eq_of_ge_left (by rw [length_map]; omega)]

lemma shuffleBoth_map (randomRange : (i : Nat) → Fin (i + 1)) (i : Nat) (table : List (Nat × Nat)) :
    ∃ table' : List (Nat × Nat), table'.Perm table
      ∧ shuffleBoth randomRange i (table.map Prod.fst) (table.map Prod.snd) = (table'.map Prod.fst, table'.map Prod.snd) := by
  induction i generalizing table with
  | zero => exact ⟨table, .rfl, rfl⟩
  | succ i ih =>
    obtain ⟨table', hperm, h⟩ := ih (table.swap (i + 1) (randomRange (i + 1)).val)
    refine ⟨table', hperm.trans (swap_perm _ _ _), ?_⟩
    rw [shuffleBoth, ← map_swap, ← map_swap, h]

lemma shuffleIndex_perm (randomRange : (i : Nat) → Fin (i + 1)) {datasetIndex datasetSampleIndex : List Nat}
    (h : datasetIndex.length = datasetSampleIndex.length) :
    ((shuffleIndex randomRange datasetIndex datasetSampleIndex).1.zip
      (shuffleIndex randomRange datasetIndex datasetSampleIndex).2).Perm (datasetIndex.zip datasetSampleIndex) := by
  obtain ⟨table', hperm, hs⟩ := shuffleBoth_map randomRange (datasetIndex.length - 1) (datasetIndex.zip datasetSampleIndex)
  rw [map_fst_zip h.le, map_snd_zip h.ge] at hs
  have hzip : table' = (table'.map Prod.fst).zip (table'.map Prod.snd) := zip_of_prod rfl rfl
  rw [shuffleIndex, hs, ← hzip]
  exact hperm

end Shuffle

namespace Mixed
variable {datasetSizes : List Nat} {m : Mix} {dataset size : Nat}

lemma getElem?_draws (h : Mixed datasetSizes m) (hsize : datasetSizes[dataset]? = some size) {k sample : Nat} :
    (drawsOf dataset m.datasetIndex m.datasetSampleIndex)[k]? = some sample
      ↔ k < (drawsOf dataset m.datasetIndex m.datasetSampleIndex).length ∧ sample = k % size := by
  have hcycle := (h.cycle dataset size hsize).2
  generalize (drawsOf dataset m.datasetIndex m.datasetSampleIndex).length = n at hcycle ⊢
  rw [hcycle]
  by_cases hk : k < n
  · rw [getElem?_map, getElem?_range hk]
    simp [hk, eq_comm]
  · rw [getElem?_eq_none (by simpa using hk)]
    simp [hk]

lemma in_range (h : Mixed datasetSizes m) (hsizes : ∀ size ∈ datasetSizes, 0 < size) :
    ∀ e ∈ m.datasetIndex.zip m.datasetSampleIndex, ∃ size, datasetSizes[e.1]? = some size ∧ e.2 < size := by
  rintro ⟨dataset, sample⟩ he
  have hlt := h.chosen dataset (of_mem_zip he).1
  have hsize : datasetSizes[dataset]? = some datasetSizes[dataset] := getElem?_eq_getElem hlt
  have hmem : sample ∈ drawsOf dataset m.datasetIndex m.datasetSampleIndex :=
    mem_map.mpr ⟨_, mem_filter.mpr ⟨he, by simp⟩, rfl⟩
  obtain ⟨k, hk⟩ := mem_iff_getElem?.mp hmem
  obtain ⟨_, rfl⟩ := (h.getElem?_draws hsize).mp hk
  exact ⟨_, hsize, Nat.mod_lt _ (hsizes _ (getElem_mem hlt))⟩

lemma count_entry (h : Mixed datasetSizes m) (hsize : datasetSizes[dataset]? = some size) {sample : Nat}
    (hlt : sample < size) : let n := (drawsOf dataset m.datasetIndex m.datasetSampleIndex).length
    (m.datasetIndex.zip m.datasetSampleIndex).count (dataset, sample) = n / size + if sample < n % size then 1 else 0 := by
  intro n
  have hcount : (m.datasetIndex.zip m.datasetSampleIndex).count (dataset, sample)
      = (drawsOf dataset m.datasetIndex m.datasetSampleIndex).count sample := by
    rw [drawsOf, count_eq_countP, count_eq_countP, countP_map, countP_filter]
    refine countP_congr fun e _ => ?_
    simp [Prod.ext_iff, and_comm]
  have hmod : (drawsOf dataset m.datasetIndex m.datasetSampleIndex).count sample = n.count (· ≡ sample [MOD size]) := by
    rw [(h.cycle dataset size hsize).2, count_eq_countP, countP_map, Nat.count]
    refine countP_congr fun k _ => ?_
    simp [Nat.ModEq, Nat.mod_eq_of_lt hlt]
  rw [hcount, hmod, Nat.count_modEq_card n (Nat.zero_lt_of_lt hlt), Nat.mod_eq_of_lt hlt]

lemma all_used (h : Mixed datasetSizes m) (hsize : datasetSizes[dataset]? = some size) {k k' sample : Nat} (hlt : k < k')
    (hk : (drawsOf dataset m.datasetIndex m.datasetSampleIndex)[k]? = some sample)
    (hk' : (drawsOf dataset m.datasetIndex m.datasetSampleIndex)[k']? = some sample) {other : Nat} (ho : other < size) :
    ∃ j, k ≤ j ∧ j < k' ∧ (drawsOf dataset m.datasetIndex m.datasetSampleIndex)[j]? = some other := by
  obtain ⟨_, rfl⟩ := (h.getElem?_draws hsize).mp hk
  obtain ⟨hlen, he⟩ := (h.getElem?_draws hsize).mp hk'
  -- the two draws are a multiple of the size apart, so the draws from the first on go once through all samples
  have hapart : k + size ≤ k' := by
    have hdvd := (Nat.modEq_iff_dvd' hlt.le).mp he
    have := Nat.le_of_dvd (by omega) hdvd
    omega
  have hshort := Nat.mod_lt (other + (size - k % size)) (Nat.zero_lt_of_lt ho)
  have hround : k + (other + (size - k % size)) = other + size * (k / size + 1) := by
    have hk := Nat.mod_lt k (Nat.zero_lt_of_lt ho)
    have hdiv := Nat.mod_add_div k size
    rw [Nat.mul_succ]
    omega
  refine ⟨k + (other + (size - k % size)) % size, by omega, by omega, ?_⟩
  rw [h.getElem?_draws hsize]
  refine ⟨by omega, ?_⟩
  rw [Nat.add_mod_mod, hround, Nat.add_mul_mod_self_left, Nat.mod_eq_of_lt ho]

end Mixed

/-- A mix cycles each dataset. Whatever datasets are chosen, an index of any length can be built from datasets that are not
empty. The `k`-th draw of a dataset is its sample `k` modulo its size, so no sample comes again before all the others of its
dataset have. A shuffle keeps the entries. -/
theorem mix_cycles_evenly {ε : Type} {datasetSizes : List Nat} {choose : Nat → List Cursor → Nat} {nSamples : Nat}
    (hsizes : ∀ size ∈ datasetSizes, 0 < size)
    (hchoose : ∀ sampleIdx < nSamples, ∀ cursors, choose sampleIdx cursors < datasetSizes.length) :
    ∃ m, (buildIndex choose nSamples datasetSizes : Exec ε MixPanic Mix) = .ok m
      ∧ m.datasetIndex.length = nSamples ∧ m.datasetSampleIndex.length = nSamples
      ∧ (∀ e ∈ m.datasetIndex.zip m.datasetSampleIndex, ∃ size, datasetSizes[e.1]? = some size ∧ e.2 < size)
      ∧ (∀ dataset size, datasetSizes[dataset]? = some size →
        let draws := drawsOf dataset m.datasetIndex m.datasetSampleIndex
        (∀ k sample : Nat, draws[k]? = some sample → sample = k % size)
          ∧ ∀ k k' sample : Nat, k < k' → draws[k]? = some sample → draws[k']? = some sample →
            ∀ other < size, ∃ j, k ≤ j ∧ j < k' ∧ draws[j]? = some other)
      ∧ ∀ randomRange : (i : Nat) → Fin (i + 1),
        ((shuffleIndex randomRange m.datasetIndex m.datasetSampleIndex).1.zip
          (shuffleIndex randomRange m.datasetIndex m.datasetSampleIndex).2).Perm
            (m.datasetIndex.zip m.datasetSampleIndex) := by
  obtain ⟨m, hm, hmixed, hlen⟩ := mixed_of_build hsizes hchoose
  refine ⟨m, hm, hlen, hmixed.lengths.symm.trans hlen, hmixed.in_range hsizes, ?_, ?_⟩
  · intro dataset size hsize
    refine ⟨?_, ?_⟩
    · intro k sample hk
      exact ((hmixed.getElem?_draws hsize).mp hk).2
    · intro k k' sample hlt hk hk' other ho
      exact hmixed.all_used hsize hlt hk hk' ho
  · intro randomRange
    exact shuffleIndex_perm randomRange hmixed.lengths

/-- Of two datasets that are drawn from in turn, the first goes round its two samples. -/
theorem mix_cycles_evenly_inTurn :
    (buildIndex (fun sampleIdx _ => sampleIdx % 2) 7 [2, 3] : Exec Unit MixPanic Mix).map Mix.datasetSampleIndex
        = .ok [0, 0, 1, 1, 0, 2, 1]
      ∧ ∃ m, (buildIndex (fun sampleIdx _ => sampleIdx % 2) 7 [2, 3] : Exec Unit MixPanic Mix) = .ok m
        ∧ ∀ k sample : Nat, (drawsOf 0 m.datasetIndex m.datasetSampleIndex)[k]? = some sample → sample = k % 2 := by
  have hsizes : ∀ size ∈ [2, 3], 0 < size := by decide
  have hchoose : ∀ sampleIdx < 7, ∀ _ : List Cursor, sampleIdx % 2 < [2, 3].length :=
    fun sampleIdx _ _ => Nat.mod_lt sampleIdx (by decide)
  obtain ⟨m, hm, _, _, _, hcycle, _⟩ := mix_cycles_evenly (ε := Unit) hsizes hchoose
  exact ⟨by decide, m, hm, (hcycle 0 2 rfl).1⟩

end Leviathan
