import Leviathan.DataProvider.Mixing
import Leviathan.DataProvider.Sequences

/-!
# Mixed datasets

Model of `WeightedDataProvider` of `shared/data-provider/src/weighted/mod.rs`, a provider of samples of several
datasets. A table names for each of its samples the dataset and the sample of the dataset. The samples of a batch are
sorted by their datasets, those of a dataset by their numbers, and cut into ranges of numbers that follow each other;
each range is one request, and what it returns is put back to where it belongs.

The datasets are providers of any kind (`TokenizedDataProvider`), whose state may change with each request. `Serves`
says of one that it answers a request for a range with its samples. What becomes of a provider after a request that
fails is left out.
-/

namespace Leviathan
open Exec List
variable {t : TokenSize}

/-- Rust `TokenizedDataProvider` and `LengthKnownDataProvider`. -/
class TokenizedDataProvider (τ : Type) (ε : outParam Type) where
  getSamples : τ → BatchId → Except ε (List TokenizedData × τ)
  numSequences : τ → Nat
  numSequences_lt : ∀ p, numSequences p < 2 ^ 64

open TokenizedDataProvider (getSamples numSequences)

def TokenizedData.empty : TokenizedData := ⟨[], none, none, none⟩

/-- Why a mix of datasets fails: one of them does, or a sample is empty. -/
inductive MixError (ε : Type) where
  | provider (e : ε)
  | notAllSamples       -- "Failed to get all requested samples"
deriving DecidableEq, Repr

structure WeightedDataProvider (τ : Type) where
  providers : List τ
  datasetIndex : List Nat
  datasetSampleIndex : List Nat

section Requests
variable {τ ε : Type}

def writeSample (results : List TokenizedData) (e : (Nat × Nat) × TokenizedData) :
    Exec ε MixPanic (List TokenizedData) := do
  Exec.ensure (e.1.1 < results.length) .indexOutOfBounds
  .ok (results.set e.1.1 e.2)

/-- Append a request to the current range, or begin a new one. -/
def extendRange (acc : List (List (Nat × Nat)) × List (Nat × Nat)) (request : Nat × Nat) :
    Exec ε MixPanic (List (List (Nat × Nat)) × List (Nat × Nat)) := do
  let prev ← Exec.unwrap acc.2.getLast? .noRequests
  Exec.ensure (prev.2 + 1 < 2 ^ 64) .overflow
  if request.2 = prev.2 + 1 then .ok (acc.1, acc.2 ++ [request])
  else .ok (acc.1 ++ [acc.2], [request])

/-- Cut sorted requests where their numbers do not follow each other (in Rust `get_samples`). -/
def contiguousRanges (sortedRequests : List (Nat × Nat)) : Exec ε MixPanic (List (List (Nat × Nat))) := do
  let first ← Exec.unwrap sortedRequests.head? .noRequests
  let (ranges, currentRange) ← sortedRequests.tail.foldlM extendRange ([], [first])
  .ok (ranges ++ [currentRange])

variable [TokenizedDataProvider τ ε]

/-- Get a range of samples of a dataset (in Rust `get_samples`). -/
def fetchRange (provider : τ) (range : List (Nat × Nat)) (results : List TokenizedData) :
    Exec (MixError ε) MixPanic (List TokenizedData × τ) := do
  let first ← Exec.unwrap range.head? .noRequests
  let last ← Exec.unwrap range.getLast? .noRequests
  if h : first.2 ≤ last.2 then
    match getSamples provider ⟨first.2, last.2, h⟩ with
    | .ok (rangeSamples, provider) => do
      let results ← (range.zip rangeSamples).foldlM writeSample results
      .ok (results, provider)
    | .error e => Exec.fail (.provider e)
  else Exec.abort .emptyInterval

/-- Get a range of samples of one of the datasets. -/
def fetchFrom (providerIdx : Nat) (acc : List TokenizedData × List τ) (range : List (Nat × Nat)) :
    Exec (MixError ε) MixPanic (List TokenizedData × List τ) := do
  let provider ← Exec.unwrap acc.2[providerIdx]? .indexOutOfBounds
  let (results, provider) ← fetchRange provider range acc.1
  .ok (results, acc.2.set providerIdx provider)

/-- Get the samples of a dataset (the body of the second loop of `get_samples`). -/
def fetchAll (acc : List TokenizedData × List τ) (e : List (Nat × Nat) × Nat) :
    Exec (MixError ε) MixPanic (List TokenizedData × List τ) :=
  let (requests, providerIdx) := e
  if requests.isEmpty then .ok acc
  else do
    let sortedRequests := requests.mergeSort fun a b => decide (a.2 ≤ b.2)
    let ranges ← contiguousRanges sortedRequests
    ranges.foldlM (fetchFrom providerIdx) acc

end Requests

namespace WeightedDataProvider
variable {τ ε : Type}

def getSampleInfo (p : WeightedDataProvider τ) (index : Nat) : Exec ε MixPanic (Nat × Nat) :=
  if p.datasetIndex.length ≤ index then .ok (0, 0)
  else do
    let datasetIdx ← Exec.unwrap p.datasetIndex[index]? .indexOutOfBounds
    let sampleIdx ← Exec.unwrap p.datasetSampleIndex[index]? .indexOutOfBounds
    .ok (datasetIdx, sampleIdx)

/-- Ask a dataset for the sample of an id: the place of the id in the batch, and the number of the sample. -/
def addRequest (p : WeightedDataProvider τ) (requests : List (List (Nat × Nat))) (id : Nat × Nat) :
    Exec ε MixPanic (List (List (Nat × Nat))) := do
  let info ← p.getSampleInfo id.1
  Exec.ensure (info.1 < requests.length) .indexOutOfBounds
  .ok (requests.modify info.1 (· ++ [(id.2, info.2)]))

/-- What is asked of each dataset (the first loop of `get_samples`). -/
def providerRequests (p : WeightedDataProvider τ) (dataIds : BatchId) : Exec ε MixPanic (List (List (Nat × Nat))) :=
  dataIds.iter.zipIdx.foldlM p.addRequest (List.replicate p.providers.length [])

def getSamples [TokenizedDataProvider τ ε] (p : WeightedDataProvider τ) (dataIds : BatchId) :
    Exec (MixError ε) MixPanic (List TokenizedData × WeightedDataProvider τ) := do
  let requests ← p.providerRequests dataIds
  Exec.ensure (dataIds.size < 2 ^ 64) .overflow
  let (results, providers) ← requests.zipIdx.foldlM fetchAll (List.replicate dataIds.size .empty, p.providers)
  Exec.require (∀ v ∈ results, v.inputIds ≠ []) .notAllSamples
  .ok (results, { p with providers })

/-- Rust `WeightedDataProvider::new`. The number of samples is that of an epoch, so there is one epoch, or none of no
samples (`0.0 / 0.0` as an integer is zero). -/
def new {φ : Type} [TokenizedDataProvider τ ε] (W : Weighting φ) (randomRange : Bytes32 → (i : Nat) → Fin (i + 1))
    (providers : List τ) (shuffleKind : Shuffle) : Exec ε MixPanic (WeightedDataProvider τ) := do
  let datasetLengths := providers.map numSequences
  Exec.ensure (datasetLengths.sum < 2 ^ 64) .overflow
  let numSamples := datasetLengths.sum
  let numEpochs := if numSamples = 0 then 0 else 1
  let index ← buildWeightedIndex W numSamples datasetLengths
  let index := match shuffleKind with
    | .seeded randomSeed => shuffleIndex (randomRange randomSeed) index.1 index.2
    | .dontShuffle => index
  .ok ⟨providers, ((List.replicate numEpochs index.1).flatten).take numSamples,
    ((List.replicate numEpochs index.2).flatten).take numSamples⟩

end WeightedDataProvider

section Serves
variable {τ ε : Type} [TokenizedDataProvider τ ε] {provider : τ} {sample expected : Nat → TokenizedData}
  {range requests : List (Nat × Nat)} {results : List TokenizedData}

/-- A provider answers a request for a range of its samples with them, now and later, and none of them is empty. -/
def Serves (provider : τ) (sample : Nat → TokenizedData) : Prop :=
  (∀ i < numSequences provider, (sample i).inputIds ≠ [])
    ∧ ∃ I : τ → Prop, I provider ∧ ∀ q, I q → numSequences q = numSequences provider
      ∧ ∀ ids : BatchId, ids.end_ < numSequences q → ∃ q', getSamples q ids = .ok (ids.iter.map sample, q') ∧ I q'

/-- A request within the data is served, and the provider serves on. -/
lemma Serves.request (h : Serves provider sample) {ids : BatchId} (hids : ids.end_ < numSequences provider) :
    ∃ q, getSamples provider ids = .ok (ids.iter.map sample, q) ∧ Serves q sample
      ∧ numSequences q = numSequences provider := by
  obtain ⟨hne, I, hI, hserve⟩ := h
  obtain ⟨q, hq, hIq⟩ := (hserve provider hI).2 ids hids
  have hnum := (hserve q hIq).1
  refine ⟨q, hq, ⟨?_, I, hIq, ?_⟩, hnum⟩
  · rw [hnum]
    exact hne
  · rw [hnum]
    exact hserve

/-- Numbers that follow each other. -/
def Consecutive (range : List (Nat × Nat)) : Prop :=
  range ≠ [] ∧ ∃ start, range.map Prod.snd = List.range' start range.length

lemma Consecutive.ends (h : Consecutive range) :
    ∃ first last, range.head? = some first ∧ range.getLast? = some last ∧ ∃ hle : first.2 ≤ last.2,
      ClosedInterval.iter ⟨first.2, last.2, hle⟩ = range.map Prod.snd := by
  obtain ⟨hne, start, hstart⟩ := h
  have hpos := length_pos_of_ne_nil hne
  refine ⟨range.head hne, range.getLast hne, head?_eq_some_head hne, getLast?_eq_some_getLast hne, ?_⟩
  have hget : ∀ k (hk : k < range.length), (range[k]).2 = start + k := by
    intro k hk
    have := congrArg (fun l => l[k]?) hstart
    simpa [hk] using this
  have hfirst : (range.head hne).2 = start := by
    rw [head_eq_getElem, hget 0 hpos, Nat.add_zero]
  have hlast : (range.getLast hne).2 = start + (range.length - 1) := by
    rw [getLast_eq_getElem, hget _ (by omega)]
  refine ⟨by omega, ?_⟩
  show List.range' (range.head hne).2 ((range.getLast hne).2 - (range.head hne).2 + 1) = range.map Prod.snd
  rw [hstart, hfirst, hlast]
  congr 1
  omega

lemma Consecutive.append {last request : Nat × Nat} (h : Consecutive range) (hlast : range.getLast? = some last)
    (hnext : request.2 = last.2 + 1) : Consecutive (range ++ [request]) := by
  obtain ⟨hne, start, hstart⟩ := h
  have hpos := length_pos_of_ne_nil hne
  have hsnd : last.2 = start + (range.length - 1) := by
    have hmap := congrArg List.getLast? hstart
    rw [getLast?_map, hlast, getLast?_range', if_neg hpos.ne', Option.map_some, Option.some_inj] at hmap
    omega
  refine ⟨by simp, start, ?_⟩
  rw [map_append, hstart, length_append, length_singleton, range'_concat, map_singleton, hnext, hsnd]
  congr 2
  omega

/-- The requests so far are in the ranges and the current one. -/
structure Cut (requests : List (Nat × Nat)) (acc : List (List (Nat × Nat)) × List (Nat × Nat)) : Prop where
  flatten : acc.1.flatten ++ acc.2 = requests
  ranges : ∀ range ∈ acc.1, Consecutive range
  current : Consecutive acc.2

lemma Cut.all {acc : List (List (Nat × Nat)) × List (Nat × Nat)} (h : Cut requests acc) :
    (acc.1 ++ [acc.2]).flatten = requests ∧ ∀ range ∈ acc.1 ++ [acc.2], Consecutive range := by
  refine ⟨?_, ?_⟩
  · rw [flatten_append, flatten_singleton, h.flatten]
  · intro range hr
    obtain hr | hr := mem_append.mp hr
    · exact h.ranges range hr
    · rw [mem_singleton.mp hr]
      exact h.current

lemma Cut.extendRange {acc : List (List (Nat × Nat)) × List (Nat × Nat)} (h : Cut requests acc)
    (hmax : ∀ r ∈ requests, r.2 + 1 < 2 ^ 64) (request : Nat × Nat) :
    ∃ acc', (extendRange acc request : Exec ε MixPanic _) = .ok acc' ∧ Cut (requests ++ [request]) acc' := by
  obtain ⟨_, last, _, hlast, _⟩ := h.current.ends
  have hmem : last ∈ requests := by
    rw [← h.flatten]
    exact mem_append_right _ (mem_of_getLast? hlast)
  rw [Leviathan.extendRange, hlast, unwrap_some, ok_bind, ensure_of (hmax last hmem), ok_bind]
  split
  · rename_i hnext
    refine ⟨_, rfl, ?_, h.ranges, h.current.append hlast hnext⟩
    rw [← h.flatten]
    exact (append_assoc _ _ _).symm
  · refine ⟨_, rfl, ?_, h.all.2, by simp, request.2, rfl⟩
    rw [h.all.1]

lemma ranges_of_requests (hne : requests ≠ []) (hmax : ∀ r ∈ requests, r.2 + 1 < 2 ^ 64) :
    ∃ ranges, (contiguousRanges requests : Exec ε MixPanic _) = .ok ranges ∧ ranges.flatten = requests
      ∧ ∀ range ∈ ranges, Consecutive range := by
  obtain ⟨first, rest, rfl⟩ := exists_cons_of_ne_nil hne
  have hfirst : Cut [first] ([], [first]) := ⟨rfl, by simp, by simp, first.2, rfl⟩
  obtain ⟨acc, hacc, hcut⟩ : ∃ acc, (rest.foldlM extendRange ([], [first]) : Exec ε MixPanic _) = .ok acc
      ∧ Cut ([first] ++ rest) acc := by
    refine exists_foldlM (I := fun done => Cut ([first] ++ done)) hfirst ?_
    rintro done request rest rfl acc hcut
    rw [← append_assoc]
    refine hcut.extendRange (fun r hr => hmax r ?_) request
    rw [← cons_append]
    exact mem_append_left _ hr
  refine ⟨acc.1 ++ [acc.2], ?_, hcut.all⟩
  simp only [contiguousRanges, head?_cons, unwrap_some, ok_bind, tail_cons, hacc]

lemma writeSamples_of_right {l : List ((Nat × Nat) × TokenizedData)}
    (h : ∀ e ∈ l, e.1.1 < results.length ∧ e.2 = expected e.1.1) :
    ∃ results', (l.foldlM writeSample results : Exec ε MixPanic _) = .ok results' ∧ results'.length = results.length
      ∧ ∀ k, (results[k]? = some (expected k) ∨ ∃ e ∈ l, e.1.1 = k) → results'[k]? = some (expected k) := by
  refine exists_foldlM (I := fun (done : List ((Nat × Nat) × TokenizedData)) (results' : List TokenizedData) =>
    results'.length = results.length
      ∧ ∀ k, (results[k]? = some (expected k) ∨ ∃ e ∈ done, e.1.1 = k) → results'[k]? = some (expected k)) ?_ ?_
  · refine ⟨rfl, ?_⟩
    rintro k (hk | ⟨_, ⟨⟩, _⟩)
    exact hk
  · rintro done e rest rfl results' ⟨hlen, hright⟩
    obtain ⟨hlt, he⟩ := h e (by simp)
    rw [← hlen] at hlt
    refine ⟨results'.set e.1.1 e.2, ?_, by rw [length_set, hlen], ?_⟩
    · rw [writeSample, ensure_of hlt, ok_bind]
    · intro k hk
      by_cases hke : e.1.1 = k
      · subst hke
        rw [getElem?_set_self hlt, he]
      · rw [getElem?_set_ne hke]
        refine hright k ?_
        obtain hk | ⟨e', he', rfl⟩ := hk
        · exact .inl hk
        · obtain he' | he' := mem_append.mp he'
          · exact .inr ⟨e', he', rfl⟩
          · rw [mem_singleton.mp he'] at hke
            exact absurd rfl hke

lemma fetchRange_of_serves (hserves : Serves provider sample) (hrange : Consecutive range)
    (h : ∀ r ∈ range, r.1 < results.length ∧ r.2 < numSequences provider ∧ sample r.2 = expected r.1) :
    ∃ results' provider', fetchRange provider range results = .ok (results', provider') ∧ Serves provider' sample
      ∧ numSequences provider' = numSequences provider ∧ results'.length = results.length
      ∧ ∀ k, (results[k]? = some (expected k) ∨ ∃ r ∈ range, r.1 = k) → results'[k]? = some (expected k) := by
  obtain ⟨first, last, hfirst, hlast, hle, hiter⟩ := hrange.ends
  obtain ⟨provider', hget, hserves', hnum⟩ := hserves.request
    (show (⟨first.2, last.2, hle⟩ : BatchId).end_ < numSequences provider from (h last (mem_of_getLast? hlast)).2.1)
  rw [hiter, map_map] at hget
  have hzip : range.zip (range.map (sample ∘ Prod.snd)) = range.map fun r => (r, sample r.2) :=
    map_prod_left_eq_zip.symm
  have hright : ∀ e ∈ range.map (fun r => (r, sample r.2)), e.1.1 < results.length ∧ e.2 = expected e.1.1 := by
    intro e he
    obtain ⟨r, hr, rfl⟩ := mem_map.mp he
    exact ⟨(h r hr).1, (h r hr).2.2⟩
  obtain ⟨results', hwrite, hlen, hresults⟩ := writeSamples_of_right (ε := MixError ε) hright
  refine ⟨results', provider', ?_, hserves', hnum, hlen, ?_⟩
  · rw [fetchRange, hfirst, hlast]
    simp only [unwrap_some, ok_bind, hle, dite_true, hget, hzip, hwrite]
  · rintro k (hk | ⟨r, hr, rfl⟩)
    · exact hresults k (.inl hk)
    · exact hresults r.1 (.inr ⟨_, mem_map.mpr ⟨r, hr, rfl⟩, rfl⟩)

/-- The samples at some places are right, and the datasets still serve. -/
structure Fetched (providers : List τ) (samples : Nat → Nat → TokenizedData) (size : Nat) (expected : Nat → TokenizedData)
    (written : Nat → Prop) (acc : List TokenizedData × List τ) : Prop where
  length : acc.1.length = size
  count : acc.2.length = providers.length
  serves : ∀ i provider, providers[i]? = some provider →
    ∃ q, acc.2[i]? = some q ∧ Serves q (samples i) ∧ numSequences q = numSequences provider
  right : ∀ k, written k → acc.1[k]? = some (expected k)

namespace Fetched
variable {providers : List τ} {samples : Nat → Nat → TokenizedData} {size i : Nat} {expected : Nat → TokenizedData}
  {written written' : Nat → Prop} {acc : List TokenizedData × List τ}

lemma mono (h : Fetched providers samples size expected written acc) (hw : ∀ k, written' k → written k) :
    Fetched providers samples size expected written' acc :=
  ⟨h.length, h.count, h.serves, fun k hk => h.right k (hw k hk)⟩

lemma still_serves (h : Fetched providers samples size expected written acc) :
    ∀ i provider, acc.2[i]? = some provider → Serves provider (samples i) := by
  intro i provider hi
  have hlt := (List.getElem?_eq_some_iff.mp hi).1
  rw [h.count] at hlt
  obtain ⟨q, hq, hs, _⟩ := h.serves i _ (List.getElem?_eq_getElem hlt)
  cases hi.symm.trans hq
  exact hs

lemma fetchFrom (h : Fetched providers samples size expected written acc) (hi : providers[i]? = some provider)
    (hrange : Consecutive range)
    (hr : ∀ r ∈ range, r.1 < size ∧ r.2 < numSequences provider ∧ samples i r.2 = expected r.1) :
    ∃ acc', fetchFrom i acc range = .ok acc'
      ∧ Fetched providers samples size expected (fun k => written k ∨ ∃ r ∈ range, r.1 = k) acc' := by
  obtain ⟨q, hq, hserves, hnum⟩ := h.serves i provider hi
  have hlt := (List.getElem?_eq_some_iff.mp hq).1
  rw [← h.length, ← hnum] at hr
  obtain ⟨results, q', hfetch, hserves', hnum', hlen, hright⟩ := fetchRange_of_serves hserves hrange hr
  refine ⟨(results, acc.2.set i q'), ?_, ?_⟩
  · simp only [Leviathan.fetchFrom, hq, Exec.unwrap_some, Exec.ok_bind, hfetch]
  · refine ⟨hlen.trans h.length, by rw [List.length_set, h.count], ?_, ?_⟩
    · intro j other hj
      by_cases hij : i = j
      · subst hij
        cases hi.symm.trans hj
        exact ⟨q', List.getElem?_set_self hlt, hserves', hnum'.trans hnum⟩
      · rw [List.getElem?_set_ne hij]
        exact h.serves j other hj
    · rintro k (hk | hk)
      · exact hright k (.inl (h.right k hk))
      · exact hright k (.inr hk)

lemma fetchAll (h : Fetched providers samples size expected written acc) (hi : providers[i]? = some provider)
    (hr : ∀ r ∈ requests, r.1 < size ∧ r.2 < numSequences provider ∧ samples i r.2 = expected r.1) :
    ∃ acc', fetchAll acc (requests, i) = .ok acc'
      ∧ Fetched providers samples size expected (fun k => written k ∨ ∃ r ∈ requests, r.1 = k) acc' := by
  dsimp only [Leviathan.fetchAll]
  split
  case isTrue hempty =>
    refine ⟨acc, rfl, h.mono ?_⟩
    rw [isEmpty_iff.mp hempty]
    rintro k (hk | ⟨_, ⟨⟩, _⟩)
    exact hk
  case isFalse hne =>
    generalize hsorted : requests.mergeSort (fun a b => decide (a.2 ≤ b.2)) = sorted
    have hperm : sorted.Perm requests := hsorted ▸ mergeSort_perm _ _
    have hmem : ∀ r, r ∈ sorted ↔ r ∈ requests := fun r => hperm.mem_iff
    have hsome : sorted ≠ [] := by
      intro he
      rw [he] at hperm
      exact hne (isEmpty_iff.mpr hperm.nil_eq.symm)
    have hmax : ∀ r ∈ sorted, r.2 + 1 < 2 ^ 64 := by
      intro r hrs
      have := (hr r ((hmem r).mp hrs)).2.1
      have := TokenizedDataProvider.numSequences_lt provider
      omega
    obtain ⟨ranges, hranges, hflatten, hconsecutive⟩ := ranges_of_requests (ε := MixError ε) hsome hmax
    obtain ⟨acc', hacc', hfetched⟩ : ∃ acc', ranges.foldlM (Leviathan.fetchFrom i) acc = .ok acc'
        ∧ Fetched providers samples size expected (fun k => written k ∨ ∃ r ∈ ranges.flatten, r.1 = k) acc' := by
      refine exists_foldlM (I := fun (done : List (List (Nat × Nat))) =>
        Fetched providers samples size expected fun k => written k ∨ ∃ r ∈ done.flatten, r.1 = k) ?_ ?_
      · refine h.mono ?_
        rintro k (hk | ⟨_, ⟨⟩, _⟩)
        exact hk
      · rintro done range rest rfl acc hdone
        have hrange : ∀ r ∈ range, r ∈ requests := by
          intro r hrr
          rw [← hmem, ← hflatten]
          exact mem_flatten.mpr ⟨range, by simp, hrr⟩
        obtain ⟨acc', hacc', h'⟩ := hdone.fetchFrom hi (hconsecutive range (by simp)) fun r hrr => hr r (hrange r hrr)
        refine ⟨acc', hacc', h'.mono ?_⟩
        rintro k (hk | ⟨r, hrm, rfl⟩)
        · exact .inl (.inl hk)
        · rw [flatten_append, flatten_singleton] at hrm
          obtain hrm | hrm := mem_append.mp hrm
          · exact .inl (.inr ⟨r, hrm, rfl⟩)
          · exact .inr ⟨r, hrm, rfl⟩
    refine ⟨acc', ?_, hfetched.mono ?_⟩
    · rw [hranges, ok_bind, hacc']
    · rintro k (hk | ⟨r, hrm, rfl⟩)
      · exact .inl hk
      · rw [hflatten]
        exact .inr ⟨r, (hmem r).mpr hrm, rfl⟩

end Fetched
end Serves

namespace WeightedDataProvider
variable {τ ε η : Type} [TokenizedDataProvider τ ε] {p : WeightedDataProvider τ} {dataIds : BatchId}
  {id dataset sample : Nat} {requests : List (List (Nat × Nat))} {providers : List τ}

/-- Every entry of the table names a sample of a dataset. -/
structure Table (p : WeightedDataProvider τ) : Prop where
  lengths : p.datasetIndex.length = p.datasetSampleIndex.length
  fits : p.datasetIndex.length < 2 ^ 64
  named : ∀ e ∈ p.datasetIndex.zip p.datasetSampleIndex, ∃ provider, p.providers[e.1]? = some provider
    ∧ e.2 < numSequences provider

def Entry (p : WeightedDataProvider τ) (id dataset sample : Nat) : Prop :=
  p.datasetIndex[id]? = some dataset ∧ p.datasetSampleIndex[id]? = some sample

lemma Table.entry_named (h : p.Table) (he : p.Entry id dataset sample) :
    ∃ provider, p.providers[dataset]? = some provider ∧ sample < numSequences provider :=
  h.named (dataset, sample) (mem_iff_getElem?.mpr ⟨id, getElem?_zip_eq_some.mpr he⟩)

lemma Table.entry (h : p.Table) (hid : id < p.datasetIndex.length) :
    ∃ dataset sample provider, p.Entry id dataset sample ∧ p.providers[dataset]? = some provider
      ∧ sample < numSequences provider := by
  have hid' : id < p.datasetSampleIndex.length := h.lengths ▸ hid
  have he : p.Entry id p.datasetIndex[id] p.datasetSampleIndex[id] :=
    ⟨getElem?_eq_getElem hid, getElem?_eq_getElem hid'⟩
  obtain ⟨provider, hprovider, hlt⟩ := h.entry_named he
  exact ⟨_, _, provider, he, hprovider, hlt⟩

omit [TokenizedDataProvider τ ε] in
lemma Entry.getSampleInfo (h : p.Entry id dataset sample) :
    (p.getSampleInfo id : Exec η MixPanic (Nat × Nat)) = .ok (dataset, sample) := by
  have hlt := (List.getElem?_eq_some_iff.mp h.1).1
  rw [WeightedDataProvider.getSampleInfo, if_neg (Nat.not_le.mpr hlt), h.1, h.2]
  rfl

/-- Each dataset is asked for the samples of the ids so far that name it, each for its place in the batch. -/
structure Requested (p : WeightedDataProvider τ) (start : Nat) (done : List (Nat × Nat))
    (requests : List (List (Nat × Nat))) : Prop where
  length : requests.length = p.providers.length
  sound : ∀ i l, requests[i]? = some l → ∀ r ∈ l, (start + r.1, r.1) ∈ done ∧ p.Entry (start + r.1) i r.2
  complete : ∀ e ∈ done, ∃ (i : Nat) (l : List (Nat × Nat)) (r : Nat × Nat), requests[i]? = some l ∧ r ∈ l ∧ r.1 = e.2

lemma Requested.addRequest {start k : Nat} {done : List (Nat × Nat)} (h : p.Requested start done requests)
    (ht : p.Table) (hk : start + k < p.datasetIndex.length) :
    ∃ requests', (p.addRequest requests (start + k, k) : Exec η MixPanic _) = .ok requests'
      ∧ p.Requested start (done ++ [(start + k, k)]) requests' := by
  obtain ⟨dataset, sample, provider, hentry, hprovider, _⟩ := ht.entry hk
  have hlt : dataset < requests.length := by
    rw [h.length]
    exact (List.getElem?_eq_some_iff.mp hprovider).1
  have hget : requests[dataset]? = some requests[dataset] := getElem?_eq_getElem hlt
  have hnew : (requests.modify dataset (· ++ [(k, sample)]))[dataset]? = some (requests[dataset] ++ [(k, sample)]) := by
    rw [getElem?_modify_eq, hget]
    rfl
  refine ⟨requests.modify dataset (· ++ [(k, sample)]), ?_, ?_, ?_, ?_⟩
  · rw [WeightedDataProvider.addRequest, hentry.getSampleInfo, ok_bind, ensure_of hlt, ok_bind]
  · rw [length_modify, h.length]
  · intro i l hl r hr
    have hold : ∀ l', requests[i]? = some l' → r ∈ l' →
        (start + r.1, r.1) ∈ done ++ [(start + k, k)] ∧ p.Entry (start + r.1) i r.2 := by
      intro l' hl' hr'
      obtain ⟨hdone, he⟩ := h.sound i l' hl' r hr'
      exact ⟨mem_append_left _ hdone, he⟩
    by_cases hi : dataset = i
    · subst hi
      cases hnew.symm.trans hl
      obtain hr | hr := mem_append.mp hr
      · exact hold _ hget hr
      · rw [mem_singleton.mp hr]
        exact ⟨mem_append_right _ (mem_singleton_self _), hentry⟩
    · rw [getElem?_modify_ne _ _ hi] at hl
      exact hold l hl hr
  · intro e he
    obtain he | he := mem_append.mp he
    · obtain ⟨i, l, r, hl, hr, hre⟩ := h.complete e he
      by_cases hi : dataset = i
      · subst hi
        cases hget.symm.trans hl
        exact ⟨_, _, r, hnew, mem_append_left _ hr, hre⟩
      · exact ⟨i, l, r, by rw [getElem?_modify_ne _ _ hi, hl], hr, hre⟩
    · rw [mem_singleton.mp he]
      exact ⟨_, _, (k, sample), hnew, mem_append_right _ (mem_singleton_self _), rfl⟩

lemma mem_zipIdx_iter {k : Nat} : (id, k) ∈ dataIds.iter.zipIdx ↔ id = dataIds.start + k ∧ k < dataIds.size := by
  rw [mem_zipIdx_iff_getElem?, ClosedInterval.iter]
  by_cases hk : k < dataIds.size
  · rw [getElem?_range' hk, Option.some_inj, Nat.one_mul]
    simp [hk, eq_comm]
  · rw [getElem?_eq_none (by simpa using hk)]
    simp [hk]

lemma requests_of_table (ht : p.Table) (hin : dataIds.end_ < p.datasetIndex.length) :
    ∃ requests, (p.providerRequests dataIds : Exec η MixPanic _) = .ok requests
      ∧ p.Requested dataIds.start dataIds.iter.zipIdx requests := by
  refine exists_foldlM (I := p.Requested dataIds.start) ?_ ?_
  · refine ⟨length_replicate, ?_, ?_⟩
    · intro i l hl r hr
      rw [getElem?_replicate] at hl
      split at hl
      · cases hl
        cases hr
      · cases hl
    · rintro _ ⟨⟩
  · rintro done ⟨id, k⟩ rest hids requests h
    have hmem : (id, k) ∈ dataIds.iter.zipIdx := by
      rw [hids]
      simp
    obtain ⟨rfl, hk⟩ := mem_zipIdx_iter.mp hmem
    refine h.addRequest ht ?_
    have := dataIds.le
    rw [ClosedInterval.size] at hk
    omega

def namedSample (p : WeightedDataProvider τ) (samples : Nat → Nat → TokenizedData) (id : Nat) : TokenizedData :=
  samples (p.datasetIndex.getD id 0) (p.datasetSampleIndex.getD id 0)

omit [TokenizedDataProvider τ ε] in
lemma Entry.namedSample (h : p.Entry id dataset sample) (samples : Nat → Nat → TokenizedData) :
    p.namedSample samples id = samples dataset sample := by
  rw [WeightedDataProvider.namedSample, getD_eq_getElem?_getD, getD_eq_getElem?_getD, h.1, h.2]
  rfl

lemma fetched_of_requested {samples : Nat → Nat → TokenizedData} (ht : p.Table)
    (hserves : ∀ i provider, p.providers[i]? = some provider → Serves provider (samples i))
    (hasked : p.Requested dataIds.start dataIds.iter.zipIdx requests) :
    ∃ acc, requests.zipIdx.foldlM fetchAll (List.replicate dataIds.size .empty, p.providers) = .ok acc
      ∧ Fetched p.providers samples dataIds.size (fun k => p.namedSample samples (dataIds.start + k))
        (fun k => k < dataIds.size) acc := by
  obtain ⟨acc, hacc, hfetched⟩ : ∃ acc, requests.zipIdx.foldlM fetchAll (List.replicate dataIds.size .empty, p.providers)
      = .ok acc ∧ Fetched p.providers samples dataIds.size (fun k => p.namedSample samples (dataIds.start + k))
        (fun k => ∃ e ∈ requests.zipIdx, ∃ r ∈ e.1, r.1 = k) acc := by
    refine exists_foldlM (I := fun (done : List (List (Nat × Nat) × Nat)) =>
      Fetched p.providers samples dataIds.size (fun k => p.namedSample samples (dataIds.start + k))
        fun k => ∃ e ∈ done, ∃ r ∈ e.1, r.1 = k) ?_ ?_
    · refine ⟨length_replicate, rfl, fun i provider hi => ⟨provider, hi, hserves i provider hi, rfl⟩, ?_⟩
      rintro k ⟨_, ⟨⟩, _⟩
    · rintro done ⟨l, i⟩ rest hdone acc hfetched
      have hl : requests[i]? = some l := by
        refine mk_mem_zipIdx_iff_getElem?.mp ?_
        rw [hdone]
        simp
      have hlt : i < p.providers.length := by
        rw [← hasked.length]
        exact (List.getElem?_eq_some_iff.mp hl).1
      have hasks : ∀ r ∈ l, r.1 < dataIds.size ∧ r.2 < numSequences p.providers[i]
          ∧ samples i r.2 = p.namedSample samples (dataIds.start + r.1) := by
        intro r hr
        obtain ⟨hmem, hentry⟩ := hasked.sound i l hl r hr
        obtain ⟨provider, hprovider, hnum⟩ := ht.entry_named hentry
        rw [getElem?_eq_getElem hlt, Option.some_inj] at hprovider
        exact ⟨(mem_zipIdx_iter.mp hmem).2, hprovider ▸ hnum, (hentry.namedSample samples).symm⟩
      obtain ⟨acc', hacc', h'⟩ := hfetched.fetchAll (getElem?_eq_getElem hlt) hasks
      refine ⟨acc', hacc', h'.mono ?_⟩
      rintro k ⟨e, he, r, hr, rfl⟩
      obtain he | he := mem_append.mp he
      · exact .inl ⟨e, he, r, hr, rfl⟩
      · rw [mem_singleton.mp he] at hr
        exact .inr ⟨r, hr, rfl⟩
  refine ⟨acc, hacc, hfetched.mono ?_⟩
  intro k hk
  obtain ⟨i, l, r, hl, hr, hrk⟩ := hasked.complete (dataIds.start + k, k) (mem_zipIdx_iter.mpr ⟨rfl, hk⟩)
  exact ⟨(l, i), mk_mem_zipIdx_iff_getElem?.mpr hl, r, hr, hrk⟩

/-- Mixed datasets return the right samples. If every entry of the table names a sample of a dataset, and the datasets
answer a request for a range of their samples, then a batch inside the table has a sample for each id, the one that the
entry of the id names. Afterwards the provider can be asked again. -/
theorem weighted_samples {samples : Nat → Nat → TokenizedData} (ht : p.Table)
    (hserves : ∀ i provider, p.providers[i]? = some provider → Serves provider (samples i))
    (hin : dataIds.end_ < p.datasetIndex.length) :
    ∃ results p', p.getSamples dataIds = .ok (results, p') ∧ results.length = dataIds.size
      ∧ (∀ k < dataIds.size, ∃ dataset sample, p.Entry (dataIds.start + k) dataset sample
        ∧ results[k]? = some (samples dataset sample))
      ∧ p'.Table ∧ ∀ i provider, p'.providers[i]? = some provider → Serves provider (samples i) := by
  have hle := dataIds.le
  obtain ⟨requests, hrequests, hasked⟩ := requests_of_table (η := MixError ε) ht hin
  obtain ⟨acc, hacc, hfetched⟩ := fetched_of_requested ht hserves hasked
  have hright : ∀ k < dataIds.size, ∃ dataset sample provider, p.Entry (dataIds.start + k) dataset sample
      ∧ p.providers[dataset]? = some provider ∧ sample < numSequences provider
      ∧ acc.1[k]? = some (samples dataset sample) := by
    intro k hk
    have hid : dataIds.start + k < p.datasetIndex.length := by
      rw [ClosedInterval.size] at hk
      omega
    obtain ⟨dataset, sample, provider, hentry, hprovider, hlt⟩ := ht.entry hid
    exact ⟨dataset, sample, provider, hentry, hprovider, hlt, hentry.namedSample samples ▸ hfetched.right k hk⟩
  have hfull : ∀ v ∈ acc.1, v.inputIds ≠ [] := by
    intro v hv
    obtain ⟨k, hk⟩ := mem_iff_getElem?.mp hv
    have hlt := (List.getElem?_eq_some_iff.mp hk).1
    rw [hfetched.length] at hlt
    obtain ⟨dataset, sample, provider, _, hprovider, hsample, hv⟩ := hright k hlt
    cases hk.symm.trans hv
    exact (hserves dataset provider hprovider).1 sample hsample
  have hsize : dataIds.size < 2 ^ 64 := by
    have := ht.fits
    rw [ClosedInterval.size]
    omega
  refine ⟨acc.1, { p with providers := acc.2 }, ?_, hfetched.length, ?_, ?_, hfetched.still_serves⟩
  · simp only [WeightedDataProvider.getSamples, hrequests, ok_bind, ensure_of hsize, hacc, require_of hfull]
  · intro k hk
    obtain ⟨dataset, sample, _, hentry, _, _, hv⟩ := hright k hk
    exact ⟨dataset, sample, hentry, hv⟩
  · refine ⟨ht.lengths, ht.fits, ?_⟩
    intro e he
    obtain ⟨provider, hprovider, hlt⟩ := ht.named e he
    obtain ⟨q, hq, _, hnum⟩ := hfetched.serves e.1 provider hprovider
    exact ⟨q, hq, hnum ▸ hlt⟩

lemma take_epochs {l : List Nat} {n : Nat} (h : l.length = n) :
    ((List.replicate (if n = 0 then 0 else 1) l).flatten).take n = l := by
  subst h
  split
  · rename_i hl
    rw [length_eq_zero_iff.mp hl]
    rfl
  · rw [replicate_one, flatten_singleton, take_length]

/-- Datasets of which none is empty can be mixed, with any weights and any shuffle. The table has as many entries as they
have samples, each entry names a sample, and any two samples of a dataset are named equally often, but for one. -/
theorem new_even {φ : Type} (W : Weighting φ) (randomRange : Bytes32 → (i : Nat) → Fin (i + 1)) (shuffleKind : Shuffle)
    (hne : ∀ provider ∈ providers, 0 < numSequences provider) (hfits : (providers.map numSequences).sum < 2 ^ 64) :
    ∃ p, new W randomRange providers shuffleKind = .ok p ∧ p.providers = providers ∧ p.Table
      ∧ p.datasetIndex.length = (providers.map numSequences).sum
      ∧ ∀ dataset provider, providers[dataset]? = some provider → ∃ n, ∀ sample < numSequences provider,
        (p.datasetIndex.zip p.datasetSampleIndex).count (dataset, sample) ∈ [n, n + 1] := by
  have hsizes : ∀ size ∈ providers.map numSequences, 0 < size := forall_mem_map.mpr hne
  have hchoose : ∀ sampleIdx < (providers.map numSequences).sum, ∀ cursors,
      chooseProvider W (providers.map numSequences) sampleIdx cursors < (providers.map numSequences).length := by
    intro sampleIdx hlt cursors
    refine chooseProvider_lt W ?_ sampleIdx cursors
    intro he
    rw [he] at hlt
    cases hlt
  obtain ⟨m, hm, hmixed, hlen⟩ := mixed_of_build (ε := ε) hsizes hchoose
  have hzip : (m.datasetIndex.zip m.datasetSampleIndex).length = (providers.map numSequences).sum := by
    rw [length_zip, ← hmixed.lengths, min_self, hlen]
  -- shuffled or not, the table is a permutation of the mix
  obtain ⟨table, hperm, hnew⟩ : ∃ table : List (Nat × Nat), table.Perm (m.datasetIndex.zip m.datasetSampleIndex)
      ∧ new W randomRange providers shuffleKind = .ok ⟨providers, table.map Prod.fst, table.map Prod.snd⟩ := by
    simp only [new, buildWeightedIndex, ensure_of hfits, hm, ok_bind]
    cases shuffleKind with
    | dontShuffle =>
      refine ⟨_, .rfl, ?_⟩
      simp only [map_fst_zip hmixed.lengths.le, map_snd_zip hmixed.lengths.ge, take_epochs hlen,
        take_epochs (hmixed.lengths.symm.trans hlen)]
    | seeded randomSeed =>
      obtain ⟨table, hperm, hs⟩ := shuffleBoth_map (randomRange randomSeed) (m.datasetIndex.length - 1)
        (m.datasetIndex.zip m.datasetSampleIndex)
      rw [map_fst_zip hmixed.lengths.le, map_snd_zip hmixed.lengths.ge] at hs
      refine ⟨table, hperm, ?_⟩
      have htable := hperm.length_eq.trans hzip
      simp only [shuffleIndex, hs, take_epochs ((length_map _).trans htable)]
  have htable : (table.map Prod.fst).zip (table.map Prod.snd) = table := (zip_of_prod rfl rfl).symm
  have hlen := hperm.length_eq.trans hzip
  refine ⟨_, hnew, rfl, ⟨by simp, by simpa [hlen] using hfits, ?_⟩, by simpa using hlen, ?_⟩
  · intro e he
    rw [htable] at he
    obtain ⟨size, hsize, hlt⟩ := hmixed.in_range hsizes e (hperm.mem_iff.mp he)
    rw [getElem?_map, Option.map_eq_some_iff] at hsize
    obtain ⟨provider, hprovider, rfl⟩ := hsize
    exact ⟨provider, hprovider, hlt⟩
  · intro dataset provider hprovider
    have hsize : (providers.map numSequences)[dataset]? = some (numSequences provider) := by
      rw [getElem?_map, hprovider, Option.map_some]
    refine ⟨(drawsOf dataset m.datasetIndex m.datasetSampleIndex).length / numSequences provider, ?_⟩
    intro sample hlt
    rw [htable, hperm.count_eq, hmixed.count_entry hsize hlt]
    split_ifs <;> simp

end WeightedDataProvider

/-- A provider of local files, whose number of sequences is a `usize`. -/
abbrev LocalDataset := { p : LocalDataProvider // p.sequences.length < 2 ^ 64 }

instance : TokenizedDataProvider LocalDataset (Fault DataError DataPanic) where
  getSamples p ids := (p.1.internalGetSamples ids).map fun samples => (samples, p)
  numSequences p := p.1.sequences.length
  numSequences_lt p := p.2

lemma sampleOf_ne_nil {files : List (String × Vec (BitVec 8))} {n : Nat} {pointer : SequencePointer}
    (h : Inside files (n * t.toNat) pointer) : (sampleOf files t n pointer).inputIds ≠ [] := by
  obtain ⟨hpos, file, hfile, hin⟩ := h
  rw [← length_pos_iff, sampleOf, hfile]
  show 0 < ((chunks t.toNat (piece (n * t.toNat) file.2.toList pointer.byteOffset)).map t.value).length
  rw [length_map, length_chunks, length_piece]
  exact ceilDiv_pos (by omega) t.toNat_pos

lemma serves_local {shuffleWith : Bytes32 → List SequencePointer → List SequencePointer} {n : Nat}
    {shuffle : Shuffle} {binFiles : List (String × Vec (BitVec 8))} {p : LocalDataset}
    (hshuffle : ∀ seed l, (shuffleWith seed l).Perm l)
    (h : LocalDataProvider.newFromDirectory shuffleWith binFiles t n shuffle = .ok p.1) :
    Serves p fun i => sampleOf binFiles t n (p.1.sequences.getD i ⟨0, 0⟩) := by
  obtain ⟨table, htable, hp⟩ := LocalDataProvider.new_eq_ok h
  have hsequences : p.1.sequences = table := by rw [hp]
  have hget : ∀ i < p.1.sequences.length, p.1.sequences[i]? = some (p.1.sequences.getD i ⟨0, 0⟩) := by
    intro i hi
    rw [getD_eq_getElem?_getD, getElem?_eq_getElem hi, Option.getD_some]
  refine ⟨?_, (p = ·), rfl, ?_⟩
  · intro i hi
    have hmem := mem_of_getElem? (hget i hi)
    exact sampleOf_ne_nil (inside_of_pointers hshuffle htable _ (hsequences ▸ hmem))
  · rintro _ rfl
    refine ⟨rfl, fun ids hids => ⟨p, ?_, rfl⟩⟩
    have hids : ids.end_ < p.1.sequences.length := hids
    have hsamples : p.1.internalGetSamples ids
        = .ok (ids.iter.map fun i => sampleOf binFiles t n (p.1.sequences.getD i ⟨0, 0⟩)) := by
      refine mapM_eq_map fun id hid => LocalDataProvider.getSample_of_new hshuffle h (hget id ?_)
      obtain ⟨hlow, hhigh⟩ := mem_range'_1.mp hid
      have := ids.le
      rw [ClosedInterval.size] at hhigh
      omega
    show (p.1.internalGetSamples ids).map _ = _
    rw [hsamples]
    rfl

/-- A file of three sequences, and one of one. -/
def lettered : String × Vec (BitVec 8) := ("letters.bin", ⟨[97, 0, 98, 0, 99, 0, 100, 0, 101, 0], by decide⟩)

@[inherit_doc lettered]
def digits : String × Vec (BitVec 8) := ("digits.bin", ⟨[48, 0, 49, 0, 50, 0], by decide⟩)

/-- The datasets of the two files. -/
def letteredDataset : LocalDataset := ⟨⟨[lettered.2], [⟨0, 0⟩, ⟨0, 2⟩, ⟨0, 4⟩], 1, .twoBytes⟩, by decide⟩

@[inherit_doc letteredDataset]
def digitsDataset : LocalDataset := ⟨⟨[digits.2], [⟨0, 0⟩], 1, .twoBytes⟩, by decide⟩

/-- A table that asks for samples out of order, twice, and of both datasets in turns. -/
def interleaved : WeightedDataProvider LocalDataset :=
  ⟨[letteredDataset, digitsDataset], [0, 1, 0, 0, 1], [2, 0, 1, 1, 0]⟩

def fiveIds : BatchId := ⟨0, 4, by decide⟩

def samplesOfBoth (dataset sample : Nat) : TokenizedData :=
  if dataset = 0 then sampleOf [lettered] .twoBytes 1 (letteredDataset.1.sequences.getD sample ⟨0, 0⟩)
  else sampleOf [digits] .twoBytes 1 (digitsDataset.1.sequences.getD sample ⟨0, 0⟩)

/-- Five samples of two datasets come back in the order of the table. -/
theorem weighted_samples_interleaved : ∃ results p', interleaved.getSamples fiveIds = .ok (results, p')
    ∧ results.length = 5 ∧ results[2]?.map (·.inputIds) = some [98] := by
  have hperm : ∀ (_ : Bytes32) (l : List SequencePointer), l.Perm l := fun _ _ => .rfl
  have hletters : LocalDataProvider.newFromDirectory (fun _ => id) [lettered] .twoBytes 1 .dontShuffle
      = .ok letteredDataset.1 := rfl
  have hdigits : LocalDataProvider.newFromDirectory (fun _ => id) [digits] .twoBytes 1 .dontShuffle
      = .ok digitsDataset.1 := rfl
  have hnamed : ∀ e ∈ [(0, 2), (1, 0), (0, 1), (0, 1), (1, 0)], ∃ provider,
      interleaved.providers[e.1]? = some provider ∧ e.2 < numSequences provider := by
    simp only [forall_mem_cons, not_mem_nil, false_imp_iff, implies_true, and_true]
    exact ⟨⟨_, rfl, by decide⟩, ⟨_, rfl, by decide⟩, ⟨_, rfl, by decide⟩, ⟨_, rfl, by decide⟩, _, rfl, by decide⟩
  have hserves : ∀ i provider, interleaved.providers[i]? = some provider → Serves provider (samplesOfBoth i) := by
    intro i provider hi
    obtain _ | _ | i := i
    · cases hi
      exact serves_local hperm hletters
    · cases hi
      exact serves_local hperm hdigits
    · cases hi
  have htable : interleaved.Table := ⟨rfl, by decide, hnamed⟩
  obtain ⟨results, p', hget, hlen, hright, _⟩ := WeightedDataProvider.weighted_samples htable hserves
    (by decide : fiveIds.end_ < interleaved.datasetIndex.length)
  obtain ⟨dataset, sample, ⟨hdataset, hsample⟩, hv⟩ := hright 2 (by decide)
  cases hdataset
  cases hsample
  exact ⟨results, p', hget, hlen, by rw [hv]; rfl⟩

/-- A weighting by which the dataset that has given the fewest samples is chosen. -/
def fewestDrawn : Weighting Nat := ⟨fun _ _ drawn => drawn, fun a b => a < b, 2 ^ 64⟩

/-- Each sample of the first dataset is drawn as often as the others, or once more. -/
theorem new_even_lettered : ∃ p n, WeightedDataProvider.new fewestDrawn (fun _ _ => 0) [letteredDataset, digitsDataset]
    (.seeded 0) = .ok p ∧ ∀ sample < 3, (p.datasetIndex.zip p.datasetSampleIndex).count (0, sample) ∈ [n, n + 1] := by
  have hne : ∀ provider ∈ [letteredDataset, digitsDataset], 0 < numSequences provider := by decide
  obtain ⟨p, hp, _, _, _, heven⟩ := WeightedDataProvider.new_even fewestDrawn (fun _ _ => 0) (.seeded 0) hne (by decide)
  obtain ⟨n, hn⟩ := heven 0 letteredDataset rfl
  exact ⟨p, n, hp, hn⟩

end Leviathan
