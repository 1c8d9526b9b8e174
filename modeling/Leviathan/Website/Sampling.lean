import Leviathan.Lib.Sorting
import Mathlib.Data.List.DropRight
import Mathlib.Data.List.ReduceOption
import Mathlib.Data.PNat.Basic
import Mathlib.Order.Interval.Finset.Nat

/-!
# The sampled history of a run

Model of the witness history in `website/backend/src/dataStores/flatFileCoordinator.ts`. The dashboard keeps the reports that the
witnesses of a run sent. After every batch of them `cleanupWitnessUpdates` drops the reports that a restart of the training
has overridden, averages those of the same step, except for the latest one, and keeps only every `sampledWitnessStep`-th step
once there are too many of them. What the reports say besides their step is of an arbitrary type, and how it is averaged a
parameter.

An array of TypeScript may hold `undefined`, so that the sampled history is a list of options.
-/

namespace Leviathan.Website
open List
variable {M : Type}

/-- TypeScript `ChainTimestamp`; the time is in milliseconds. -/
structure ChainTimestamp where
  slot : Nat
  time : Nat
deriving DecidableEq, Repr

/-- What a witness reported, and when: TypeScript `[WitnessV2, ChainTimestamp]`. -/
structure WitnessUpdate (M : Type) where
  step : Nat
  metrics : M
  timestamp : ChainTimestamp
deriving DecidableEq, Repr

/-- One iteration of the loop of `removeOverriddenSteps`, with the reports that are kept and `minValidStep`, at first
`Infinity`. The loop pushes and reverses at the end; here the report is put in front. -/
def keepStep (witness : WitnessUpdate M) (kept : List (WitnessUpdate M) × Option Nat) :
    List (WitnessUpdate M) × Option Nat :=
  if kept.2.all fun minValidStep => decide (witness.step ≤ minValidStep) then
    (witness :: kept.1, some witness.step)
  else
    kept

/-- The loop of `removeOverriddenSteps`, which walks backwards. -/
def keepSteps (orderedWitnesses : List (WitnessUpdate M)) : List (WitnessUpdate M) × Option Nat :=
  orderedWitnesses.foldr keepStep ([], none)

/-- A single linear history of the reports. -/
def removeOverriddenSteps (witnesses : List (Option (WitnessUpdate M))) : List (WitnessUpdate M) :=
  let validWitnesses := witnesses.reduceOption
  let orderedWitnesses := validWitnesses.mergeSort fun a b => decide (a.timestamp.time ≤ b.timestamp.time)
  (keepSteps orderedWitnesses).1

/-- The reports of a step. There is at least one. -/
structure StepGroup (M : Type) where
  first : WitnessUpdate M
  rest : List (WitnessUpdate M)

/-- Put a report into the group of its step; the groups are in the order in which they were opened. -/
def addToGroups : List (StepGroup M) → WitnessUpdate M → List (StepGroup M)
  | [], witness => [⟨witness, []⟩]
  | group :: groups, witness =>
    if group.first.step = witness.step then
      { group with rest := group.rest ++ [witness] } :: groups
    else
      group :: addToGroups groups witness

/-- The average of the reports of a step, with the last of their times. -/
def averageWitnessesForStep (average : M → List M → M) (witnesses : StepGroup M) : WitnessUpdate M where
  step := witnesses.first.step
  metrics := average witnesses.first.metrics (witnesses.rest.map (·.metrics))
  timestamp := witnesses.rest.foldl
    (fun latest witness => if witness.timestamp.time > latest.time then witness.timestamp else latest)
    witnesses.first.timestamp

def aggregateByStep (average : M → List M → M) (witnesses : List (WitnessUpdate M)) : List (WitnessUpdate M) :=
  let groups := witnesses.foldl addToGroups []
  (groups.map (averageWitnessesForStep average)).mergeSort fun a b => decide (a.step ≤ b.step)

/-- The loop of `calculateOptimalStep`, with a bound on its iterations; the quotient is rounded up. -/
def doubleStep (currentLength maxLength : Nat) : Nat → ℕ+ → ℕ+
  | 0, step => step
  | fuel + 1, step =>
    if (currentLength + step - 1) / step > maxLength then
      doubleStep currentLength maxLength fuel (step * 2)
    else
      step

/-- TypeScript `calculateOptimalStep`; the step is less than the length while the loop runs. -/
def calculateOptimalStep (currentLength maxLength : Nat) (minStep : ℕ+) : ℕ+ :=
  if currentLength ≤ maxLength then minStep else doubleStep currentLength maxLength currentLength minStep

def maxSamples : Nat := 2000

def latestStep (linearHistory : List (WitnessUpdate M)) : Option Nat := linearHistory.getLast?.map (·.step)

/-- The reports before `splitIndex`, which is one past the last report of another step than the latest. -/
def olderWitnesses (linearHistory : List (WitnessUpdate M)) : List (WitnessUpdate M) :=
  linearHistory.rdropWhile fun witness => decide (some witness.step = latestStep linearHistory)

def latestStepWitnesses (linearHistory : List (WitnessUpdate M)) : List (WitnessUpdate M) :=
  linearHistory.rtakeWhile fun witness => decide (some witness.step = latestStep linearHistory)

/-- The first, the last, and the multiples of the sampling step in between. The first and the last of an empty array are
`undefined`. -/
def sampleEvery (finalSampleStep : ℕ+) (aggregated : List (WitnessUpdate M)) : List (Option (WitnessUpdate M)) :=
  if finalSampleStep > 1 then
    aggregated.head? :: (aggregated.tail.dropLast.filter fun witness => witness.step % (finalSampleStep : Nat) = 0).map some
      ++ [aggregated.getLast?]
  else
    aggregated.map some

/-- The result of `cleanupSampledUpdates`. -/
structure SampledUpdates (M : Type) where
  updates : List (Option (WitnessUpdate M))
  step : ℕ+

def cleanupSampledUpdates (average : M → List M → M) (witnesses : List (Option (WitnessUpdate M)))
    (initialStep : Option ℕ+) : SampledUpdates M :=
  let linearHistory := removeOverriddenSteps witnesses
  let aggregated := aggregateByStep average (olderWitnesses linearHistory)
  let finalSampleStep := calculateOptimalStep aggregated.length (maxSamples - 2) (initialStep.getD 1)
  { updates := sampleEvery finalSampleStep aggregated ++ (latestStepWitnesses linearHistory).map some
    step := finalSampleStep }

def cleanupLastFewUpdates (witnesses : List (WitnessUpdate M)) : List (WitnessUpdate M) :=
  let withoutOverrides := removeOverriddenSteps (witnesses.map some)
  if withoutOverrides.length > 200 then withoutOverrides.drop (withoutOverrides.length - 100) else withoutOverrides

/-- What a run keeps of the reports (TypeScript `RunHistoryV2`). -/
structure RunHistory (M : Type) where
  lastFewWitnessUpdates : List (WitnessUpdate M)
  sampledWitnessUpdates : List (Option (WitnessUpdate M))
  sampledWitnessStep : Option ℕ+

namespace RunHistory

/-- The history of a new run (TypeScript `createRun`). -/
def new : RunHistory M := ⟨[], [], none⟩

def cleanupWitnessUpdates (average : M → List M → M) (run : RunHistory M) : RunHistory M :=
  let sampled := cleanupSampledUpdates average run.sampledWitnessUpdates run.sampledWitnessStep
  { lastFewWitnessUpdates := cleanupLastFewUpdates run.lastFewWitnessUpdates
    sampledWitnessUpdates := sampled.updates
    sampledWitnessStep := some sampled.step }

/-- The history with a batch of reports behind it. -/
def push (run : RunHistory M) (witnesses : List (WitnessUpdate M)) : RunHistory M :=
  { run with
    lastFewWitnessUpdates := run.lastFewWitnessUpdates ++ witnesses
    sampledWitnessUpdates := run.sampledWitnessUpdates ++ witnesses.map some }

/-- TypeScript `appendRunWitnesses`, for the last run of an account. -/
def appendRunWitnesses (average : M → List M → M) (run : RunHistory M) (witnesses : List (WitnessUpdate M)) :
    RunHistory M :=
  if witnesses.length > 0 then (run.push witnesses).cleanupWitnessUpdates average else run.push witnesses

end RunHistory

variable {average : M → List M → M} {witnesses : List (Option (WitnessUpdate M))} {l : List (WitnessUpdate M)}
  {w : WitnessUpdate M}

/-! ## The steps of a linear history -/

lemma keepSteps_cons (witness : WitnessUpdate M) (l : List (WitnessUpdate M)) :
    keepSteps (witness :: l) = keepStep witness (keepSteps l) := rfl

/-- What is kept is in order, and the minimum is its first step. -/
lemma keepSteps_spec (l : List (WitnessUpdate M)) :
    (keepSteps l).1.Pairwise (fun a b => a.step ≤ b.step) ∧ (keepSteps l).2 = (keepSteps l).1.head?.map (·.step) := by
  induction l with
  | nil => exact ⟨.nil, rfl⟩
  | cons witness l ih =>
    rw [keepSteps_cons, keepStep]
    split
    case isTrue hmin =>
      refine ⟨pairwise_cons.mpr ⟨?_, ih.1⟩, rfl⟩
      intro b hb
      obtain ⟨a, kept, hkept⟩ := exists_cons_of_ne_nil (ne_nil_of_mem hb)
      rw [ih.2, hkept] at hmin
      have hhead : witness.step ≤ a.step := by simpa using hmin
      have hpair := ih.1
      rw [hkept] at hb hpair
      obtain rfl | hb := mem_cons.mp hb
      · exact hhead
      · exact hhead.trans ((pairwise_cons.mp hpair).1 b hb)
    case isFalse => exact ih

lemma getLast?_keepSteps (l : List (WitnessUpdate M)) : (keepSteps l).1.getLast? = l.getLast? := by
  induction l with
  | nil => rfl
  | cons witness l ih =>
    rw [keepSteps_cons, keepStep]
    cases hkept : (keepSteps l).1 with
    | nil =>
      have hnil : l = [] := by rwa [hkept, getLast?_nil, eq_comm, getLast?_eq_none_iff] at ih
      rw [hnil]
      rfl
    | cons a kept =>
      rw [hkept] at ih
      obtain ⟨b, l', rfl⟩ : ∃ b l', l = b :: l' := by
        cases l with
        | nil => simp at ih
        | cons b l' => exact ⟨b, l', rfl⟩
      rw [getLast?_cons_cons]
      split
      case isTrue => rw [getLast?_cons_cons, ih]
      case isFalse => rw [hkept, ih]

lemma keepSteps_of_pairwise (h : l.Pairwise fun a b => a.step ≤ b.step) :
    (keepSteps l).1 = l := by
  induction l with
  | nil => rfl
  | cons witness l ih =>
    obtain ⟨hhead, htail⟩ := pairwise_cons.mp h
    rw [keepSteps_cons, keepStep, (keepSteps_spec l).2, ih htail, if_pos]
    cases l with
    | nil => rfl
    | cons b l => simpa using hhead b (by simp)

lemma removeOverriddenSteps_pairwise (witnesses : List (Option (WitnessUpdate M))) :
    (removeOverriddenSteps witnesses).Pairwise fun a b => a.step ≤ b.step :=
  (keepSteps_spec _).1

lemma removeOverriddenSteps_ne_nil (h : some w ∈ witnesses) : removeOverriddenSteps witnesses ≠ [] := by
  intro hnil
  have hlast := getLast?_keepSteps (witnesses.reduceOption.mergeSort fun a b =>
    decide (a.timestamp.time ≤ b.timestamp.time))
  rw [show (keepSteps _).1 = [] from hnil, getLast?_nil, eq_comm, getLast?_eq_none_iff] at hlast
  have hmem := reduceOption_mem_iff.mpr h
  rw [← (mergeSort_perm _ _).mem_iff, hlast] at hmem
  exact not_mem_nil hmem

/-- The reports before the latest step have smaller steps. -/
lemma split_spec (h : l.Pairwise fun a b => a.step ≤ b.step) (hne : l ≠ []) :
    ∃ (latest n : Nat), latestStep l = some latest ∧ (∀ w ∈ olderWitnesses l, w.step < latest)
      ∧ (latestStepWitnesses l).map (·.step) = List.replicate (n + 1) latest := by
  obtain ⟨init, last, rfl⟩ := (eq_nil_or_concat' l).resolve_left hne
  have hlatest : latestStep (init ++ [last]) = some last.step := by rw [latestStep, getLast?_concat]; rfl
  have hsame : ∀ w ∈ latestStepWitnesses (init ++ [last]), w.step = last.step := by
    intro w hw
    have hw := mem_rtakeWhile_imp hw
    simpa [hlatest] using hw
  refine ⟨last.step, (latestStepWitnesses (init ++ [last])).length - 1, hlatest, ?_, ?_⟩
  · intro w hw
    have hne := ne_nil_of_mem hw
    have hfront : olderWitnesses (init ++ [last]) <+: init ++ [last] := rdropWhile_prefix _ _
    have hwz := key_le_getLast (h.sublist hfront.sublist) (getLast?_eq_some_getLast hne) hw
    have hzlast := key_le_getLast h getLast?_concat (hfront.mem (getLast_mem hne))
    have hz : ¬decide (some ((olderWitnesses (init ++ [last])).getLast hne).step = latestStep (init ++ [last])) = true :=
      rdropWhile_last_not _ _ hne
    rw [hlatest, decide_eq_true_eq, Option.some_inj] at hz
    omega
  · have hne : latestStepWitnesses (init ++ [last]) ≠ [] := by
      rw [latestStepWitnesses, rtakeWhile_concat_pos _ _ _ (by simp [hlatest])]
      simp
    rw [Nat.sub_add_cancel (length_pos_iff.mpr hne), ← length_map (f := (·.step)), eq_replicate_length]
    intro s hs
    obtain ⟨w, hw, rfl⟩ := mem_map.mp hs
    exact hsame w hw

/-! ## The averaged reports -/

def groupSteps (groups : List (StepGroup M)) : List Nat := groups.map (·.first.step)

lemma groupSteps_addToGroups (groups : List (StepGroup M)) (w : WitnessUpdate M) :
    groupSteps (addToGroups groups w)
      = if w.step ∈ groupSteps groups then groupSteps groups else groupSteps groups ++ [w.step] := by
  induction groups with
  | nil => rfl
  | cons group groups ih =>
    rw [addToGroups]
    by_cases hstep : group.first.step = w.step
    · rw [if_pos hstep, if_pos (by simp [groupSteps, hstep])]
      rfl
    · rw [if_neg hstep]
      show group.first.step :: groupSteps (addToGroups groups w) = _
      rw [ih]
      have hmem : w.step ∈ groupSteps (group :: groups) ↔ w.step ∈ groupSteps groups := by
        simp [groupSteps, Ne.symm hstep]
      simp only [hmem]
      split <;> rfl

lemma groupSteps_foldl (l : List (WitnessUpdate M)) :
    (groupSteps (l.foldl addToGroups [])).Nodup
      ∧ ∀ s, s ∈ groupSteps (l.foldl addToGroups []) ↔ s ∈ l.map (·.step) := by
  induction l using List.reverseRecOn with
  | nil => exact ⟨.nil, fun _ => Iff.rfl⟩
  | append_singleton l w ih =>
    rw [foldl_append, foldl_cons, foldl_nil, groupSteps_addToGroups]
    split
    case isTrue hmem =>
      refine ⟨ih.1, fun s => ?_⟩
      rw [ih.2, map_append, mem_append, map_singleton, mem_singleton]
      refine ⟨.inl, ?_⟩
      rintro (hs | rfl)
      · exact hs
      · exact (ih.2 _).mp hmem
    case isFalse hmem =>
      refine ⟨?_, fun s => ?_⟩
      · rw [nodup_append_comm]
        exact nodup_cons.mpr ⟨hmem, ih.1⟩
      · rw [mem_append, ih.2, map_append, mem_append, map_singleton]

/-- Every step occurs once, in order. -/
lemma aggregateByStep_spec (average : M → List M → M) (l : List (WitnessUpdate M)) :
    ((aggregateByStep average l).map (·.step)).Pairwise (· < ·)
      ∧ ∀ s, s ∈ (aggregateByStep average l).map (·.step) ↔ s ∈ l.map (·.step) := by
  have hperm : ((aggregateByStep average l).map (·.step)).Perm (groupSteps (l.foldl addToGroups [])) := by
    refine ((mergeSort_perm _ _).map _).trans (.of_eq ?_)
    rw [map_map]
    rfl
  obtain ⟨hnodup, hmem⟩ := groupSteps_foldl l
  refine ⟨?_, fun s => hperm.mem_iff.trans (hmem s)⟩
  have hle : ((aggregateByStep average l).map (·.step)).Pairwise (· ≤ ·) :=
    pairwise_map.mpr (pairwise_mergeSort_key _ _)
  exact (hle.and (hperm.nodup_iff.mpr hnodup)).imp fun h => Nat.lt_of_le_of_ne h.1 h.2

/-! ## The sampling step -/

lemma doubleStep_le {currentLength maxLength fuel : Nat} {step : ℕ+} (hmax : 0 < maxLength)
    (hfuel : currentLength ≤ fuel + step) :
    (currentLength + doubleStep currentLength maxLength fuel step - 1) / doubleStep currentLength maxLength fuel step
      ≤ maxLength := by
  induction fuel generalizing step with
  | zero =>
    have hpos := step.pos
    refine le_trans (Nat.lt_succ_iff.mp (Nat.div_lt_of_lt_mul ?_)) (Nat.succ_le_of_lt hmax)
    show currentLength + step - 1 < step * 2
    omega
  | succ fuel ih =>
    rw [doubleStep]
    split
    case isTrue =>
      apply ih
      have hpos := step.pos
      rw [PNat.mul_coe]
      show currentLength ≤ fuel + step * 2
      omega
    case isFalse h => exact Nat.not_lt.mp h

/-- The loop does not lower the step. -/
lemma le_doubleStep (currentLength maxLength fuel : Nat) (step : ℕ+) :
    step ≤ doubleStep currentLength maxLength fuel step := by
  induction fuel generalizing step with
  | zero => exact le_rfl
  | succ fuel ih =>
    rw [doubleStep]
    split
    case isTrue => exact (le_mul_of_one_le_right' one_le).trans (ih _)
    case isFalse => exact le_rfl

/-- The step is at least the least one, and so large that one step in so many is few. -/
lemma calculateOptimalStep_spec {maxLength : Nat} (hmax : 0 < maxLength) (currentLength : Nat) (minStep : ℕ+) :
    minStep ≤ calculateOptimalStep currentLength maxLength minStep
      ∧ currentLength ≤ maxLength * calculateOptimalStep currentLength maxLength minStep := by
  rw [calculateOptimalStep]
  split
  case isTrue hle => exact ⟨le_rfl, hle.trans (Nat.le_mul_of_pos_right _ minStep.pos)⟩
  case isFalse =>
    refine ⟨le_doubleStep _ _ _ _, ?_⟩
    have hle := doubleStep_le hmax (Nat.le_add_right currentLength minStep)
    generalize doubleStep currentLength maxLength currentLength minStep = step at hle
    rw [← Nat.lt_succ_iff, Nat.div_lt_iff_lt_mul step.pos, Nat.succ_mul] at hle
    omega

/-- Nothing is sampled if and only if the step was never raised and there are few steps. -/
lemma calculateOptimalStep_eq_one_iff {currentLength maxLength : Nat} {minStep : ℕ+} (hmax : 0 < maxLength) :
    calculateOptimalStep currentLength maxLength minStep = 1 ↔ minStep = 1 ∧ currentLength ≤ maxLength := by
  obtain ⟨hmin, hlength⟩ := calculateOptimalStep_spec hmax currentLength minStep
  constructor
  · intro h
    rw [h] at hmin hlength
    exact ⟨le_antisymm hmin one_le, by simpa using hlength⟩
  · rintro ⟨rfl, hle⟩
    rw [calculateOptimalStep, if_pos hle]

/-! ## What is kept -/

def stepsOf (updates : List (Option (WitnessUpdate M))) : List (Option Nat) := updates.map (Option.map (·.step))

/-- No entry is undefined, the steps are in order, and there is at most one entry for a step older than the latest. -/
structure Intact (steps : List (Option Nat)) : Prop where
  defined : none ∉ steps
  ordered : steps.reduceOption.Pairwise (· ≤ ·)
  unique : ∀ latest ∈ steps.getLast?.join, ∀ step < latest, steps.count (some step) ≤ 1

/-- A sampled history is small and well formed: besides, there are at most `MAX_SAMPLES` entries for the older steps. -/
structure WellFormed (steps : List (Option Nat)) : Prop extends Intact steps where
  few : (steps.countP fun step => step ≠ steps.getLast?.join) ≤ maxSamples

lemma getLast?_append_replicate (steps : List (Option Nat)) (n latest : Nat) :
    (steps ++ List.replicate (n + 1) (some latest)).getLast?.join = some latest := by
  rw [replicate_succ', ← append_assoc, getLast?_concat]
  rfl

lemma countP_append_replicate {older : List Nat} {latest : Nat} (n : Nat) (hlt : ∀ s ∈ older, s < latest) :
    ((older.map some ++ List.replicate (n + 1) (some latest)).countP fun step => step ≠ some latest) = older.length := by
  rw [countP_append, countP_replicate, if_neg (by simp), Nat.add_zero, ← length_map (f := some)]
  refine countP_eq_length.mpr fun s hs => ?_
  obtain ⟨t, ht, rfl⟩ := mem_map.mp hs
  simpa using (hlt t ht).ne

/-- Older steps in order, and the latest. -/
lemma intact_append {older : List Nat} {latest n : Nat} (hp : older.Pairwise (· < ·))
    (hlt : ∀ s ∈ older, s < latest) : Intact (older.map some ++ List.replicate (n + 1) (some latest)) := by
  have hlast := getLast?_append_replicate (older.map some) n latest
  refine ⟨?_, ?_, ?_⟩
  · simp [mem_replicate]
  · have hreduce : (older.map some ++ List.replicate (n + 1) (some latest)).reduceOption
        = older ++ List.replicate (n + 1) latest := by
      simp [List.reduceOption]
    rw [hreduce]
    refine pairwise_append.mpr ⟨hp.imp Nat.le_of_lt, pairwise_replicate.mpr (.inr le_rfl), ?_⟩
    intro a ha b hb
    rw [eq_of_mem_replicate hb]
    exact (hlt a ha).le
  · intro m hm step hstep
    rw [hlast, Option.mem_some_iff] at hm
    subst hm
    rw [count_append, count_replicate, if_neg (by simpa using hstep.ne'), Nat.add_zero]
    refine nodup_iff_count_le_one.mp (List.Nodup.map (Option.some_injective _) ?_) _
    exact hp.imp Nat.ne_of_lt

/-- It is small if the older steps are few. -/
lemma wellFormed_append {older : List Nat} {latest n : Nat} (hp : older.Pairwise (· < ·))
    (hlt : ∀ s ∈ older, s < latest) (hfew : older.length ≤ maxSamples) :
    WellFormed (older.map some ++ List.replicate (n + 1) (some latest)) := by
  refine ⟨intact_append hp hlt, ?_⟩
  simpa only [getLast?_append_replicate, countP_append_replicate n hlt] using hfew

lemma stepsOf_sampleEvery {aggregated : List (WitnessUpdate M)} {sampleStep : ℕ+} {a b : Nat} {inner : List Nat}
    (hstep : 1 < sampleStep) (h : aggregated.map (·.step) = a :: (inner ++ [b])) :
    stepsOf (sampleEvery sampleStep aggregated)
      = (a :: (inner.filter fun s => s % (sampleStep : Nat) = 0) ++ [b]).map some := by
  obtain ⟨first, rest, rfl, rfl, hrest⟩ := map_eq_cons_iff.mp h
  obtain ⟨between, lasts, rfl, rfl, hlasts⟩ := map_eq_append_iff.mp hrest
  obtain ⟨last, rfl, rfl⟩ := map_eq_singleton_iff.mp hlasts
  rw [sampleEvery, if_pos hstep, ← cons_append, getLast?_concat]
  simp [stepsOf, filter_map, Function.comp_def]

/-- The multiples of `m` between the first and the last of the steps are at most `n` if these are at most `n * m` apart, and
one more. -/
lemma countP_multiples_le {steps : List Nat} {m n : Nat} (hm : 0 < m) (hp : steps.Pairwise (· < ·))
    (hspan : ∀ s ∈ steps, ∀ t ∈ steps, t ≤ s + n * m + 1) : (steps.tail.dropLast.countP fun s => s % m = 0) ≤ n := by
  cases steps with
  | nil => exact Nat.zero_le n
  | cons a rest =>
    rcases eq_nil_or_concat' rest with rfl | ⟨inner, b, rfl⟩
    · exact Nat.zero_le n
    · obtain ⟨hfirst, hrest⟩ := pairwise_cons.mp hp
      obtain ⟨hinner, _, hlast⟩ := pairwise_append.mp hrest
      have hb := hspan a (by simp) b (by simp)
      rw [tail_cons, dropLast_concat, countP_eq_length_filter]
      have hnodup : ((inner.filter fun s => s % m = 0).map (· / m)).Nodup := by
        have hfilter : (inner.filter fun s => s % m = 0).Nodup := (hinner.imp Nat.ne_of_lt).filter _
        refine hfilter.map_on fun s hs t ht h => ?_
        have hs := Nat.dvd_of_mod_eq_zero (of_decide_eq_true (mem_filter.mp hs).2)
        have ht := Nat.dvd_of_mod_eq_zero (of_decide_eq_true (mem_filter.mp ht).2)
        rw [← Nat.div_mul_cancel hs, h, Nat.div_mul_cancel ht]
      -- the quotients are between that of the first step and `n` more
      have hsub : ((inner.filter fun s => s % m = 0).map (· / m)).toFinset ⊆ Finset.Ioc (a / m) (a / m + n) := by
        intro q hq
        obtain ⟨s, hs, rfl⟩ := mem_map.mp (mem_toFinset.mp hq)
        obtain ⟨hs, hmod⟩ := mem_filter.mp hs
        have has := hfirst s (mem_append_left _ hs)
        have hsb := hlast s hs b (by simp)
        refine Finset.mem_Ioc.mpr ⟨?_, ?_⟩
        · rwa [Nat.div_lt_iff_lt_mul hm, Nat.div_mul_cancel (Nat.dvd_of_mod_eq_zero (of_decide_eq_true hmod))]
        · rw [← Nat.add_mul_div_right a n hm]
          exact Nat.div_le_div_right (by omega)
      have hcard := Finset.card_le_card hsub
      rwa [toFinset_card_of_nodup hnodup, length_map, Nat.card_Ioc, Nat.add_sub_cancel_left] at hcard

/-- A sampled history is intact if and only if the first and the last older step are two. -/
lemma intact_sampleEvery_iff {aggregated : List (WitnessUpdate M)} {sampleStep : ℕ+} {latest n : Nat}
    (hstep : 1 < sampleStep) (hp : (aggregated.map (·.step)).Pairwise (· < ·))
    (hlt : ∀ s ∈ aggregated.map (·.step), s < latest) :
    (Intact (stepsOf (sampleEvery sampleStep aggregated) ++ List.replicate (n + 1) (some latest))
        ↔ 2 ≤ (aggregated.map (·.step)).length)
      ∧ (2 ≤ (aggregated.map (·.step)).length →
        ((aggregated.map (·.step)).tail.dropLast.countP fun s => s % (sampleStep : Nat) = 0) ≤ maxSamples - 2 →
        WellFormed (stepsOf (sampleEvery sampleStep aggregated) ++ List.replicate (n + 1) (some latest))) := by
  rcases hsteps : aggregated.map (·.step) with _ | ⟨a, rest⟩
  · -- the first and the last of no entries are undefined
    rw [map_eq_nil_iff.mp hsteps]
    refine ⟨⟨fun h => absurd h.defined ?_, fun h => absurd h (by simp)⟩, fun h => absurd h (by simp)⟩
    simp [stepsOf, sampleEvery, hstep]
  · rcases eq_nil_or_concat' rest with rfl | ⟨inner, b, rfl⟩
    · -- the first entry is the last one, too
      obtain ⟨first, rfl, rfl⟩ := map_eq_singleton_iff.mp hsteps
      refine ⟨⟨fun h => ?_, fun h => absurd h (by simp)⟩, fun h => absurd h (by simp)⟩
      have hunique := h.unique latest (getLast?_append_replicate _ _ _) first.step (hlt _ (by simp))
      simp [stepsOf, sampleEvery, hstep] at hunique
    · rw [hsteps] at hp hlt ⊢
      have hsub : (a :: (inner.filter fun s => s % (sampleStep : Nat) = 0) ++ [b]).Sublist (a :: (inner ++ [b])) :=
        (filter_sublist.append_right _).cons_cons a
      rw [stepsOf_sampleEvery hstep hsteps]
      refine ⟨iff_of_true (intact_append (hp.sublist hsub) fun s hs => hlt s (hsub.mem hs)) (by simp), fun _ hfew => ?_⟩
      refine wellFormed_append (hp.sublist hsub) (fun s hs => hlt s (hsub.mem hs)) ?_
      simp only [maxSamples, countP_eq_length_filter, tail_cons, dropLast_concat, length_cons,
        length_append, length_nil] at hfew ⊢
      omega

/-- The steps of the averaged reports. -/
def aggregatedSteps (average : M → List M → M) (witnesses : List (Option (WitnessUpdate M))) : List Nat :=
  (aggregateByStep average (olderWitnesses (removeOverriddenSteps witnesses))).map (·.step)

lemma stepsOf_cleanup (average : M → List M → M) (initialStep : Option ℕ+) (hw : some w ∈ witnesses) :
    ∃ latest n, (∀ s ∈ aggregatedSteps average witnesses, s < latest)
      ∧ stepsOf (cleanupSampledUpdates average witnesses initialStep).updates
        = stepsOf (sampleEvery (cleanupSampledUpdates average witnesses initialStep).step
            (aggregateByStep average (olderWitnesses (removeOverriddenSteps witnesses))))
          ++ List.replicate (n + 1) (some latest) := by
  obtain ⟨latest, n, _, hlt, hlatest⟩ :=
    split_spec (removeOverriddenSteps_pairwise witnesses) (removeOverriddenSteps_ne_nil hw)
  refine ⟨latest, n, ?_, ?_⟩
  · intro s hs
    obtain ⟨w, hw, rfl⟩ := mem_map.mp (((aggregateByStep_spec average _).2 s).mp hs)
    exact hlt w hw
  · rw [← map_replicate, ← hlatest]
    simp [cleanupSampledUpdates, stepsOf]

lemma cleanup_step (average : M → List M → M) (witnesses : List (Option (WitnessUpdate M))) (initialStep : Option ℕ+) :
    (cleanupSampledUpdates average witnesses initialStep).step
      = calculateOptimalStep (aggregatedSteps average witnesses).length (maxSamples - 2) (initialStep.getD 1) := by
  rw [aggregatedSteps, length_map]
  rfl

/-! ## The steps that are older than the latest -/

/-- The steps of which some report is followed by none of a smaller step. -/
def standing (steps : List Nat) : Finset Nat :=
  steps.toFinset.filter fun s => ∃ later ∈ steps.tails, later.head? = some s ∧ ∀ t ∈ later, s ≤ t

/-- The steps before the latest that no restart has overridden. -/
def olderSteps (witnesses : List (Option (WitnessUpdate M))) : Finset Nat :=
  let steps := (witnesses.reduceOption.mergeSort fun a b => decide (a.timestamp.time ≤ b.timestamp.time)).map (·.step)
  (standing steps).filter fun s => ∀ latest ∈ steps.getLast?, s < latest

/-- The first of the steps stands if none after it is smaller. -/
lemma mem_standing_cons {steps : List Nat} {x s : Nat} :
    s ∈ standing (x :: steps) ↔ s = x ∧ (∀ t ∈ steps, s ≤ t) ∨ s ∈ standing steps := by
  have hmem : ∀ later ∈ steps.tails, later.head? = some s → s ∈ steps := by
    intro later hlater hs
    exact ((mem_tails _ _).mp hlater).mem (mem_of_head? hs)
  rw [standing, standing, Finset.mem_filter, Finset.mem_filter, mem_toFinset, mem_toFinset, tails_cons,
    exists_mem_cons_iff, head?_cons, Option.some_inj, eq_comm]
  constructor
  · rintro ⟨_, ⟨rfl, hlater⟩ | ⟨later, hlater, hs, hle⟩⟩
    · exact .inl ⟨rfl, fun t ht => hlater t (mem_cons_of_mem _ ht)⟩
    · exact .inr ⟨hmem later hlater hs, later, hlater, hs, hle⟩
  · rintro (⟨rfl, hlater⟩ | ⟨hs, hlater⟩)
    · exact ⟨mem_cons_self, .inl ⟨rfl, forall_mem_cons.mpr ⟨le_rfl, hlater⟩⟩⟩
    · exact ⟨mem_cons_of_mem _ hs, .inr hlater⟩

/-- `minValidStep` is the smallest step so far. -/
lemma keepSteps_min (l : List (WitnessUpdate M)) (k : Nat) :
    (keepSteps l).2.all (fun minValidStep => decide (k ≤ minValidStep)) = true ↔ ∀ s ∈ l.map (·.step), k ≤ s := by
  induction l generalizing k with
  | nil => exact iff_of_true rfl (by rintro _ ⟨⟩)
  | cons witness l ih =>
    rw [keepSteps_cons, keepStep, map_cons, forall_mem_cons]
    split
    case isTrue hmin =>
      rw [ih] at hmin
      rw [Option.all_some, decide_eq_true_eq]
      exact ⟨fun hk => ⟨hk, fun s hs => hk.trans (hmin s hs)⟩, fun h => h.1⟩
    case isFalse hmin =>
      rw [ih] at hmin
      rw [ih]
      refine ⟨fun h => ⟨?_, h⟩, fun h => h.2⟩
      by_contra hk
      exact hmin fun s hs => (Nat.not_le.mp hk).le.trans (h s hs)

/-- The loop keeps the steps that stand. -/
lemma mem_keepSteps (l : List (WitnessUpdate M)) (s : Nat) :
    s ∈ (keepSteps l).1.map (·.step) ↔ s ∈ standing (l.map (·.step)) := by
  induction l with
  | nil => simp [keepSteps, standing]
  | cons witness l ih =>
    have hmin := keepSteps_min l witness.step
    rw [keepSteps_cons, keepStep, map_cons, mem_standing_cons, ← ih]
    split
    case isTrue h =>
      rw [map_cons, mem_cons]
      refine or_congr_left ⟨fun hs => ⟨hs, ?_⟩, fun hs => hs.1⟩
      rw [hs]
      exact hmin.mp h
    case isFalse h =>
      rw [or_iff_right]
      rintro ⟨rfl, hs⟩
      exact h (hmin.mpr hs)

/-- The reports before the latest step are those of a smaller one. -/
lemma mem_olderWitnesses (h : l.Pairwise fun a b => a.step ≤ b.step) (s : Nat) :
    s ∈ (olderWitnesses l).map (·.step) ↔ s ∈ l.map (·.step) ∧ ∀ latest ∈ latestStep l, s < latest := by
  rcases eq_or_ne l [] with rfl | hne
  · simp [olderWitnesses]
  · obtain ⟨latest, n, hlatest, hlt, hrest⟩ := split_spec h hne
    have hcut : (olderWitnesses l).map (·.step) ++ List.replicate (n + 1) latest = l.map (·.step) := by
      rw [← hrest, ← map_append]
      exact congrArg _ rdropWhile_append_rtakeWhile
    rw [← hcut, mem_append, hlatest]
    constructor
    · intro hs
      obtain ⟨w, hw, rfl⟩ := mem_map.mp hs
      exact ⟨.inl hs, by rintro _ ⟨⟩; exact hlt w hw⟩
    · rintro ⟨hs | hs, hsmall⟩
      · exact hs
      · exact absurd (hsmall latest rfl) (eq_of_mem_replicate hs).not_lt

/-- The averaged reports are those of the older steps. -/
lemma toFinset_aggregatedSteps (average : M → List M → M) (witnesses : List (Option (WitnessUpdate M))) :
    (aggregatedSteps average witnesses).toFinset = olderSteps witnesses := by
  ext s
  rw [mem_toFinset, aggregatedSteps, (aggregateByStep_spec average _).2,
    mem_olderWitnesses (removeOverriddenSteps_pairwise witnesses), latestStep, removeOverriddenSteps, mem_keepSteps,
    getLast?_keepSteps, ← getLast?_map, olderSteps, Finset.mem_filter]

/-- There is one for each. -/
lemma length_aggregatedSteps (average : M → List M → M) (witnesses : List (Option (WitnessUpdate M))) :
    (aggregatedSteps average witnesses).length = (olderSteps witnesses).card := by
  obtain ⟨hp, _⟩ := aggregateByStep_spec average (olderWitnesses (removeOverriddenSteps witnesses))
  rw [← toFinset_aggregatedSteps average]
  exact (toFinset_card_of_nodup (hp.imp Nat.ne_of_lt)).symm

/-- A first and another last of the older steps are there to be kept, or nothing is sampled: the step was never raised, and
there are few older steps. -/
def Apart (older : Finset Nat) (sampledStep : ℕ+) : Prop :=
  2 ≤ older.card ∨ sampledStep = 1 ∧ older.card ≤ maxSamples - 2

/-- The older steps are few, or they are close together: they reach over as many steps as samples of the carried-over step
do, or there is hardly a gap between them. -/
def Close (older : Finset Nat) (sampledStep : ℕ+) : Prop :=
  older.card ≤ maxSamples ∨ ∀ s ∈ older, ∀ t ∈ older, t ≤ s + max ((maxSamples - 2) * sampledStep) older.card + 1

/-- Of older steps that are few or close together few are multiples of the sampling step. -/
lemma countP_le_of_close {initialStep : Option ℕ+} (h : Close (olderSteps witnesses) (initialStep.getD 1)) :
    ((aggregatedSteps average witnesses).tail.dropLast.countP fun s =>
      s % ((cleanupSampledUpdates average witnesses initialStep).step : Nat) = 0) ≤ maxSamples - 2 := by
  obtain ⟨hp, _⟩ := aggregateByStep_spec average (olderWitnesses (removeOverriddenSteps witnesses))
  have hlength := length_aggregatedSteps average witnesses
  obtain ⟨hmin, hmax⟩ := calculateOptimalStep_spec (show 0 < maxSamples - 2 by decide)
    (aggregatedSteps average witnesses).length (initialStep.getD 1)
  rw [← cleanup_step] at hmin hmax
  rcases h with hfew | hclose
  · refine countP_le_length.trans ?_
    rw [length_dropLast, length_tail, hlength]
    omega
  · refine countP_multiples_le (PNat.pos _) hp fun s hs t ht => ?_
    have hst := hclose s (toFinset_aggregatedSteps average witnesses ▸ mem_toFinset.mpr hs) t
      (toFinset_aggregatedSteps average witnesses ▸ mem_toFinset.mpr ht)
    have hmin := Nat.mul_le_mul_left (maxSamples - 2) (PNat.coe_le_coe _ _ |>.mpr hmin)
    omega

/-- After a cleanup the history is intact if and only if the older steps are apart, and small if they are close together. -/
lemma cleanup_spec (average : M → List M → M) {initialStep : Option ℕ+} (hw : some w ∈ witnesses) :
    (Intact (stepsOf (cleanupSampledUpdates average witnesses initialStep).updates)
        ↔ Apart (olderSteps witnesses) (initialStep.getD 1))
      ∧ (Apart (olderSteps witnesses) (initialStep.getD 1) → Close (olderSteps witnesses) (initialStep.getD 1) →
        WellFormed (stepsOf (cleanupSampledUpdates average witnesses initialStep).updates)) := by
  obtain ⟨latest, n, hlt, hsteps⟩ := stepsOf_cleanup average initialStep hw
  obtain ⟨hp, _⟩ := aggregateByStep_spec average (olderWitnesses (removeOverriddenSteps witnesses))
  have hone : (cleanupSampledUpdates average witnesses initialStep).step = 1
      ↔ initialStep.getD 1 = 1 ∧ (olderSteps witnesses).card ≤ maxSamples - 2 := by
    rw [cleanup_step, calculateOptimalStep_eq_one_iff (by decide), length_aggregatedSteps]
  have hfew := @countP_le_of_close M average witnesses initialStep
  rw [hsteps, Apart, ← hone, ← length_aggregatedSteps average witnesses]
  generalize (cleanupSampledUpdates average witnesses initialStep).step = sampleStep at *
  rcases eq_or_ne sampleStep 1 with hs | hs
  · -- nothing is sampled, and there was not too much
    have hall : stepsOf (sampleEvery sampleStep (aggregateByStep average (olderWitnesses (removeOverriddenSteps witnesses))))
        = (aggregatedSteps average witnesses).map some := by
      simp [sampleEvery, hs, stepsOf, aggregatedSteps]
    have hlength : (aggregatedSteps average witnesses).length ≤ maxSamples := by
      rw [length_aggregatedSteps]
      exact (hone.mp hs).2.trans (Nat.sub_le _ _)
    have hwell := wellFormed_append (n := n) (show (aggregatedSteps average witnesses).Pairwise (· < ·) from hp) hlt hlength
    rw [hall]
    exact ⟨iff_of_true hwell.toIntact (.inr hs), fun _ _ => hwell⟩
  · obtain ⟨hintact, hwell⟩ := intact_sampleEvery_iff (n := n) (lt_of_le_of_ne one_le hs.symm) hp hlt
    rw [or_iff_left hs]
    exact ⟨hintact, fun h hclose => hwell h (hfew hclose)⟩

/-! ## Runs -/

namespace RunHistory

/-- The history of a run after the given batches. -/
def history (average : M → List M → M) (batches : List (List (WitnessUpdate M))) : RunHistory M :=
  batches.foldl (appendRunWitnesses average) new

lemma history_concat (average : M → List M → M) (earlier : List (List (WitnessUpdate M))) {batch : List (WitnessUpdate M)}
    (h : batch ≠ []) :
    history average (earlier ++ [batch]) = ((history average earlier).push batch).cleanupWitnessUpdates average := by
  rw [history, foldl_append, foldl_cons, foldl_nil, appendRunWitnesses, if_pos (length_pos_iff.mpr h)]
  rfl

/-- A property of every cleanup of a run, with the history before it and the batch. -/
def EachCleanup (average : M → List M → M) (batches : List (List (WitnessUpdate M)))
    (P : RunHistory M → List (WitnessUpdate M) → Prop) : Prop :=
  ∀ earlier batch later, batches = earlier ++ batch :: later → batch ≠ [] → P (history average earlier) batch

/-- The steps that are older than the latest, of a history with a batch behind it. -/
def olderWith (run : RunHistory M) (batch : List (WitnessUpdate M)) : Finset Nat :=
  olderSteps (run.sampledWitnessUpdates ++ batch.map some)

/-- After every cleanup of a run the sampled history is intact if and only if, before every one, a first and another last
older step are there to be kept, or few older steps while the step was never raised. It is small and well formed after every
one if, besides, before every one the older steps are few or close together. -/
theorem history_wellFormed (average : M → List M → M) (batches : List (List (WitnessUpdate M))) :
    ((EachCleanup average batches fun run batch =>
          Intact (stepsOf (run.appendRunWitnesses average batch).sampledWitnessUpdates))
        ↔ EachCleanup average batches fun run batch => Apart (run.olderWith batch) (run.sampledWitnessStep.getD 1))
      ∧ ((EachCleanup average batches fun run batch =>
          Apart (run.olderWith batch) (run.sampledWitnessStep.getD 1)
            ∧ Close (run.olderWith batch) (run.sampledWitnessStep.getD 1)) →
        EachCleanup average batches fun run batch =>
          WellFormed (stepsOf (run.appendRunWitnesses average batch).sampledWitnessUpdates)) := by
  have hspec : ∀ (run : RunHistory M) (batch : List (WitnessUpdate M)), batch ≠ [] →
      (Intact (stepsOf (run.appendRunWitnesses average batch).sampledWitnessUpdates)
          ↔ Apart (run.olderWith batch) (run.sampledWitnessStep.getD 1))
        ∧ (Apart (run.olderWith batch) (run.sampledWitnessStep.getD 1) →
          Close (run.olderWith batch) (run.sampledWitnessStep.getD 1) →
          WellFormed (stepsOf (run.appendRunWitnesses average batch).sampledWitnessUpdates)) := by
    intro run batch hne
    obtain ⟨w, hw⟩ := exists_mem_of_ne_nil batch hne
    have hmem : some w ∈ run.sampledWitnessUpdates ++ batch.map some := by simp [hw]
    rw [appendRunWitnesses, if_pos (length_pos_iff.mpr hne)]
    exact cleanup_spec average hmem
  constructor
  · exact forall_congr' fun _ => forall_congr' fun _ => forall_congr' fun _ => forall_congr' fun _ =>
      forall_congr' fun hne => (hspec _ _ hne).1
  · intro h earlier batch later hbatches hne
    obtain ⟨hapart, hclose⟩ := h earlier batch later hbatches hne
    exact (hspec _ _ hne).2 hapart hclose

end RunHistory

/-! ## A run of even steps -/

/-- In a history in which steps and times go up, all steps but the last are older. -/
lemma aggregatedSteps_of_linear {init : List (WitnessUpdate M)} {last : WitnessUpdate M}
    (htime : (init ++ [last]).Pairwise fun a b => a.timestamp.time ≤ b.timestamp.time)
    (hstep : (init ++ [last]).Pairwise fun a b => a.step < b.step) :
    aggregatedSteps average ((init ++ [last]).map some) = init.map (·.step) := by
  have hlinear : removeOverriddenSteps ((init ++ [last]).map some) = init ++ [last] := by
    have hvalid : ((init ++ [last]).map some).reduceOption = init ++ [last] := by simp [List.reduceOption]
    rw [removeOverriddenSteps, hvalid, mergeSort_key_of_pairwise htime,
      keepSteps_of_pairwise (hstep.imp Nat.le_of_lt)]
  have hlatest : latestStep (init ++ [last]) = some last.step := by rw [latestStep, getLast?_concat]; rfl
  obtain ⟨hinit, _, hlast⟩ := pairwise_append.mp hstep
  have holder : olderWitnesses (init ++ [last]) = init := by
    rw [olderWitnesses, rdropWhile_concat_pos _ _ _ (by simp [hlatest]), rdropWhile_eq_self_iff]
    intro hne
    have hlt := hlast _ (getLast_mem hne) last (by simp)
    simpa [hlatest] using hlt.ne
  obtain ⟨hp, hmem⟩ := aggregateByStep_spec average init
  rw [aggregatedSteps, hlinear, holder]
  exact hp.eq_of_mem_iff (pairwise_map.mpr hinit) hmem

@[inherit_doc aggregatedSteps_of_linear]
lemma aggregatedSteps_range (report : Nat → WitnessUpdate M) (n : Nat)
    (htime : ∀ i j, i < j → (report i).timestamp.time ≤ (report j).timestamp.time)
    (hstep : ∀ i j, i < j → (report i).step < (report j).step) :
    aggregatedSteps average (((List.range (n + 1)).map report).map some) = (List.range n).map fun i => (report i).step := by
  have hlt : (List.range (n + 1)).Pairwise (· < ·) := pairwise_lt_range
  have hconcat : (List.range (n + 1)).map report = (List.range n).map report ++ [report n] := by
    rw [range_succ, map_append, map_singleton]
  have htimes : ((List.range (n + 1)).map report).Pairwise fun a b => a.timestamp.time ≤ b.timestamp.time :=
    pairwise_map.mpr (hlt.imp (htime _ _))
  have hsteps : ((List.range (n + 1)).map report).Pairwise fun a b => a.step < b.step :=
    pairwise_map.mpr (hlt.imp (hstep _ _))
  rw [hconcat] at htimes hsteps ⊢
  rw [aggregatedSteps_of_linear htimes hsteps, map_map]
  rfl

namespace RunHistory

/-- The even steps up to four thousand and two. -/
def evens : List (WitnessUpdate Unit) := (List.range 2002).map fun i => ⟨2 * i, (), i, i⟩

lemma history_singleton (average : M → List M → M) {batch : List (WitnessUpdate M)} (h : batch ≠ []) :
    (history average [batch]).sampledWitnessUpdates = (cleanupSampledUpdates average (batch.map some) none).updates
      ∧ (history average [batch]).sampledWitnessStep = some (cleanupSampledUpdates average (batch.map some) none).step := by
  have hhistory := history_concat average [] h
  rw [nil_append] at hhistory
  rw [hhistory]
  exact ⟨rfl, rfl⟩

lemma map_two_mul_range (n : Nat) : (List.range (n + 2)).map (fun i => 2 * i)
    = 0 :: ((List.range n).map (fun i => 2 * (i + 1)) ++ [2 * (n + 1)]) := by
  rw [range_succ, range_succ_eq_map, map_append, map_cons, map_map]
  rfl

lemma aggregatedSteps_evens : aggregatedSteps (fun m _ => m) (evens.map some)
    = 0 :: ((List.range 1999).map (fun i => 2 * (i + 1)) ++ [2 * (1999 + 1)]) := by
  rw [← map_two_mul_range 1999]
  exact aggregatedSteps_range (fun i => (⟨2 * i, (), i, i⟩ : WitnessUpdate Unit)) 2001 (fun _ _ h => h.le)
    fun _ _ h => Nat.mul_lt_mul_of_pos_left h Nat.two_pos

/-- Of two thousand and one even steps that are older than the latest all are kept, since one sampled step in two is an
even one. -/
theorem history_malformed :
    ((stepsOf (history (fun m _ => m) [evens]).sampledWitnessUpdates).countP fun step =>
      step ≠ (stepsOf (history (fun m _ => m) [evens]).sampledWitnessUpdates).getLast?.join) = 2001 := by
  have hne : evens ≠ [] := by simp [evens]
  obtain ⟨hupdates, _⟩ := history_singleton (fun m _ => m) hne
  obtain ⟨latest, n, hlt, hsteps⟩ := stepsOf_cleanup (fun m _ => m) (w := ⟨0, (), 0, 0⟩) none
    (mem_map_of_mem (show _ ∈ evens from mem_map.mpr ⟨0, by simp, rfl⟩))
  have hstep : (cleanupSampledUpdates (fun m _ => m) (evens.map some) none).step = 2 := by
    rw [cleanup_step, aggregatedSteps_evens]
    simp only [length_cons, length_append, length_map, length_range, length_nil]
    decide
  have heven : ((List.range 1999).map fun i => 2 * (i + 1)).filter (fun s => s % ((2 : ℕ+) : Nat) = 0)
      = (List.range 1999).map fun i => 2 * (i + 1) := by
    refine filter_eq_self.mpr fun s hs => ?_
    obtain ⟨i, _, rfl⟩ := mem_map.mp hs
    simp
  rw [hstep, stepsOf_sampleEvery (by decide) aggregatedSteps_evens, heven, cons_append] at hsteps
  rw [aggregatedSteps_evens] at hlt
  rw [hupdates, hsteps, getLast?_append_replicate, countP_append_replicate n hlt]
  simp

end RunHistory
end Leviathan.Website
