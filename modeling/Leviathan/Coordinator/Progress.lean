import Leviathan.Coordinator.Calls
import Leviathan.Coordinator.DataSelection

/-!
# Steps and data

How the counters of a run move (`shared/coordinator/src/coordinator.rs`, `data_selection.rs`). A step is counted
when a round leaves its witness phase, and nowhere else (`TickStep.step_eq`); a run that waits, warms up or trains
has a step left (`Bounded`). The first data index of a round is carried through the ring of rounds, through the
cooldown and through every aborted warmup; `DataAligned` says where it stands in each phase.
-/

namespace Leviathan.Coordinator
open Exec
open CoordinatorEpochState

/-- The phases in which a round is being done or is still to come. -/
def Unfinished (c : Coordinator) : Prop :=
  c.runState = .waitingForMembers ∨ c.runState = .warmup ∨ c.runState = .roundTrain ∨ c.runState = .roundWitness

instance : DecidablePred Unfinished := fun _ => inferInstanceAs (Decidable (_ ∨ _ ∨ _ ∨ _))

/-- A run that is not over has a step left. -/
structure Bounded (c : Coordinator) : Prop where
  below : c.Unfinished → c.progress.step < c.config.totalSteps
  within : c.runState = .cooldown → c.progress.step ≤ c.config.totalSteps

section Steps
variable {P : Platform} {c c' : Coordinator} {pending : Option (List NodeIdentity)} {now seed : Nat}
  {r : TickResult} {op : Operation}

lemma cannotContinue_false {n : Nat} (h : c.cannotContinue n = .ok false) :
    c.config.minClients ≤ c.epochState.clients.len ∧ c.progress.step < c.config.totalSteps
      ∧ c.pendingPause = false := by
  unfold cannotContinue at h
  split at h
  · cases h
  · rename_i hlen
    simp only [bind_eq_ok, Except.ok.injEq, Bool.or_eq_false_iff, decide_eq_false_iff_not] at h
    obtain ⟨_, _, ⟨_, hstep⟩, hp⟩ := h
    exact ⟨by omega, by omega, hp⟩

lemma betweenEpochs_waiting (h : c.betweenEpochs = .waitingForMembers) : c.progress.step < c.config.totalSteps := by
  unfold betweenEpochs at h
  split at h
  · assumption
  · cases h

lemma Bounded.of_halted (h : c.halted = true) : Bounded c := by
  constructor
  · rintro (hs | hs | hs | hs) <;> simp [halted, hs] at h
  · intro hs
    simp [halted, hs] at h

lemma Bounded.between (c c' : Coordinator) (hp : c'.progress = c.progress) (hc : c'.config = c.config) (now : Nat) :
    Bounded (c'.entered now c.betweenEpochs) := by
  obtain hb | hb := betweenEpochs_cases c
  · rw [hb]
    refine ⟨fun _ => ?_, by simp [entered]⟩
    change c'.progress.step < c'.config.totalSteps
    rw [hp, hc]
    exact betweenEpochs_waiting hb
  · rw [hb]
    exact .of_halted rfl

/-- A step is counted when a round leaves its witness phase, and nowhere else. -/
lemma TickStep.step_eq (st : c.TickStep P pending now seed c' r) :
    (c'.progress.step = c.progress.step ∧ (c.runState = .roundWitness → c'.runState = .roundWitness))
      ∨ (c'.progress.step = c.progress.step + 1 ∧ c.runState = .roundWitness ∧ c'.runState ≠ .roundWitness
        ∧ c.runStateStartUnixTimestamp ≠ now) := by
  cases st with
  | idle => exact .inl ⟨rfl, id⟩
  | beginEpoch hs _ _ _ hb => exact .inl ⟨by rw [hb.eq], by simp [hs]⟩
  | warm hs | warmAbort hs | witness hs | endEpoch hs | endEpochPaused hs => exact .inl ⟨rfl, by simp [hs]⟩
  | train hs _ hr => exact .inl ⟨by rw [hr.frame.2.2], by simp [hs]⟩
  | trainAbort hs _ hr => exact .inl ⟨congrArg CoordinatorProgress.step hr.frame.2.2, by simp [hs]⟩
  | coolEmpty hs ht | cool hs ht => exact .inr ⟨rfl, hs, by simp [cooled, entered], ht.1⟩
  | nextRound hs ht _ _ _ _ hr =>
    refine .inr ⟨by rw [hr.frame.2.2]; rfl, hs, ?_, ht.1⟩
    obtain ⟨_, _, _, _, _, rfl⟩ := hr
    simp [entered]

/-- A tick enters a round only if there is a step left. -/
lemma Bounded.tick (h : Bounded c) (st : c.TickStep P pending now seed c' r) : Bounded c' := by
  cases st with
  | idle => exact h
  | beginEpoch hs _ _ _ hb =>
    have hlt := h.below (.inl hs)
    rw [hb.eq]
    exact ⟨fun _ => hlt, by simp⟩
  | warm => exact ⟨h.below, h.within⟩
  | @warmAbort e => exact .between c (c.setEpochState e) rfl rfl now
  | train hs _ hr =>
    obtain ⟨_, _, _, _, _, rfl⟩ := hr
    exact ⟨fun _ => h.below (.inr (.inl hs)), by simp [entered]⟩
  | trainAbort hs _ hr => exact .between c _ hr.frame.2.2 hr.frame.2.1 now
  | witness hs => exact ⟨fun _ => h.below (.inr (.inr (.inl hs))), by simp [entered]⟩
  | coolEmpty hs | cool hs =>
    exact ⟨by simp [Unfinished, cooled, entered], fun _ => h.below (.inr (.inr (.inr hs)))⟩
  | nextRound _ _ _ _ _ hgo hr =>
    have hlt := (cannotContinue_false hgo).2.1
    obtain ⟨_, _, _, _, _, rfl⟩ := hr
    exact ⟨fun _ => hlt, by simp [entered]⟩
  | endEpoch =>
    -- closing the epoch moves other counters than the step
    exact .between (c.epochClosed _ _) _ rfl rfl now
  | endEpochPaused => exact .of_halted rfl

/-- A call leaves a step to a run that is not over. -/
lemma Bounded.call (h : Bounded c) (st : CallStep P c op c') : Bounded c' := by
  cases st with
  | report hc =>
    refine ⟨fun hs => ?_, fun hs => ?_⟩
    · rw [hc.progress, hc.config]
      exact h.below (by simpa only [Unfinished, hc.runState] using hs)
    · rw [hc.progress, hc.config]
      exact h.within (hc.runState ▸ hs)
  | start hs hc hr =>
    obtain ⟨_, _, _, _, _, rfl⟩ := hr
    refine ⟨fun _ => ?_, by simp [entered]⟩
    have hlt := h.below (.inr (.inl hs))
    rwa [← hc.progress, ← hc.config] at hlt
  | witnessed hs hc =>
    refine ⟨fun _ => ?_, by simp [entered]⟩
    have hlt := h.below (.inr (.inr (.inl hs)))
    rwa [← hc.progress, ← hc.config] at hlt
  | pauseNow => exact .of_halted rfl
  | resume => exact .between c c rfl rfl _
  | update hh => exact .of_halted hh

end Steps

section Data
variable {P : Platform} {c c' c0 : Coordinator} {pending : Option (List NodeIdentity)} {now seed step : Nat}
  {r : TickResult} {op : Operation}

/-- A counter stands at a step whose data begins at an index. -/
def AlignedAt (P : Platform) (c : Coordinator) (step dataIndex : Nat) : Prop :=
  ∃ n, step = n + 1 ∧ (c.dataIndexAfter P n : Exec CoordinatorError Panic Nat) = .ok dataIndex

/-- Where the data index stands in each phase. After the witness phase the step has been counted, and the data index is
still that of the round. -/
structure DataAligned (P : Platform) (c : Coordinator) : Prop where
  first : c.runState = .warmup → c.epochState.firstRound = true
  between : c.runState = .waitingForMembers ∨ c.runState = .warmup ∨ c.runState = .paused →
    c.AlignedAt P c.progress.step c.progress.epochStartDataIndex
  round : c.runState = .roundTrain ∨ c.runState = .roundWitness →
    c.AlignedAt P c.progress.step c.currentRound.dataIndex
  cooldown : c.runState = .cooldown →
    ∃ step, c.progress.step = step + 1 ∧ c.AlignedAt P step c.currentRound.dataIndex

lemma AlignedAt.congr {dataIndex : Nat} (h : c.AlignedAt P step dataIndex) (hc : c'.config = c.config)
    (hs : c'.getSequenceLength = c.getSequenceLength) : c'.AlignedAt P step dataIndex := by
  obtain ⟨n, hn, h⟩ := h
  exact ⟨n, hn, (dataIndexAfter_congr hc hs).trans h⟩

lemma AlignedAt.succ {dataIndex next : Nat} (h : c.AlignedAt P step dataIndex)
    (hn : (c.nextDataIndex P dataIndex : Exec CoordinatorError Panic Nat) = .ok next) :
    c.AlignedAt P (step + 1) next := by
  obtain ⟨n, rfl, h⟩ := h
  refine ⟨n + 1, rfl, ?_⟩
  rw [dataIndexAfter, h]
  exact hn

lemma nextRound_dataIndex {head : Fin numStoredRounds} {height dataIndex : Nat}
    (h : c.nextRound P = .ok (head, height, dataIndex)) :
    (c.epochState.firstRound = true ∧ dataIndex = c.progress.epochStartDataIndex)
      ∨ (c.epochState.firstRound = false
        ∧ (c.nextDataIndex P c.currentRound.dataIndex : Exec CoordinatorError Panic Nat) = .ok dataIndex) := by
  unfold Coordinator.nextRound at h
  split at h
  · rename_i hf
    cases h
    exact .inl ⟨hf, rfl⟩
  · rename_i hf
    simp only [bind_eq_ok, ok_pair] at h
    obtain ⟨_, ht, _, _, _, hd, _, _, rfl⟩ := h
    refine .inr ⟨by simpa using hf, ?_⟩
    simp only [nextDataIndex, bind_eq_ok]
    exact ⟨_, ht, hd⟩

lemma RoundStarted.dataIndex (h : c.RoundStarted P now seed c') :
    (c.epochState.firstRound = true ∧ c'.currentRound.dataIndex = c.progress.epochStartDataIndex)
      ∨ (c.epochState.firstRound = false
        ∧ (c.nextDataIndex P c.currentRound.dataIndex : Exec CoordinatorError Panic Nat)
          = .ok c'.currentRound.dataIndex) := by
  obtain ⟨_, head, height, dataIndex, hn, rfl⟩ := h
  simpa [Coordinator.currentRound, entered, setEpochState] using nextRound_dataIndex hn

lemma tick_cooldown_dataIndex (hs : c.runState = .cooldown) (hs' : c'.runState ≠ .cooldown)
    (h : c.tick P pending now seed = .ok (c', r)) :
    (c.nextDataIndex P c.currentRound.dataIndex : Exec CoordinatorError Panic Nat)
      = .ok c'.progress.epochStartDataIndex := by
  simp only [Coordinator.tick, hs, tickCooldown] at h
  obtain ⟨timeout, _, h⟩ := bind_eq_ok.mp h
  split at h
  · simp only [getTargetGlobalBatchSize, totalTokensProcessed, Option.map_some, Option.getD_some, bind_eq_ok,
      Except.ok.injEq] at h
    obtain ⟨_, ⟨tokens, ht, rfl⟩, next, hn, _, _, e, _, h⟩ := h
    have hnext : (c.nextDataIndex P c.currentRound.dataIndex : Exec CoordinatorError Panic Nat) = .ok next := by
      rw [nextDataIndex, ht]
      exact hn
    rw [hnext]
    split at h
    · simp only [bind_eq_ok, changeState_eq_ok, ok_pair, withdrawAll_eq] at h
      obtain ⟨_, ⟨_, rfl⟩, rfl, _⟩ := h
      rfl
    · simp only [bind_eq_ok, startWaitingForMembers_eq_ok, ok_pair] at h
      obtain ⟨_, ⟨_, rfl⟩, rfl, _⟩ := h
      rfl
  · cases h
    exact absurd hs hs'

lemma DataAligned.outside (hs : c'.runState = .waitingForMembers ∨ c'.halted = true) {dataIndex : Nat}
    (h : c.AlignedAt P step dataIndex) (hc : c'.config = c.config)
    (hq : c'.getSequenceLength = c.getSequenceLength) (hstep : c'.progress.step = step)
    (hd : c'.progress.epochStartDataIndex = dataIndex) : DataAligned P c' := by
  have hno : c'.runState ≠ .warmup ∧ c'.runState ≠ .roundTrain ∧ c'.runState ≠ .roundWitness
      ∧ c'.runState ≠ .cooldown := by
    unfold halted at hs
    cases hr : c'.runState <;> simp_all
  refine ⟨fun e => absurd e hno.1, fun _ => ?_, fun e => ?_, fun e => absurd e hno.2.2.2⟩
  · rw [hstep, hd]
    exact h.congr hc hq
  · exact absurd e (not_or.mpr ⟨hno.2.1, hno.2.2.1⟩)

lemma DataAligned.warm (hs : c'.runState = .warmup) (hf : c'.epochState.firstRound = true)
    (h : c.AlignedAt P c.progress.step c.progress.epochStartDataIndex) (hc : c'.config = c.config)
    (hq : c'.getSequenceLength = c.getSequenceLength) (hp : c'.progress = c.progress) : DataAligned P c' := by
  refine ⟨fun _ => hf, fun _ => ?_, by simp [hs], by simp [hs]⟩
  rw [hp]
  exact h.congr hc hq

lemma DataAligned.inRound (hs : c'.runState = .roundTrain ∨ c'.runState = .roundWitness) {dataIndex : Nat}
    (h : c.AlignedAt P step dataIndex) (hc : c'.config = c.config)
    (hq : c'.getSequenceLength = c.getSequenceLength) (hstep : c'.progress.step = step)
    (hd : c'.currentRound.dataIndex = dataIndex) : DataAligned P c' := by
  refine ⟨fun e => ?_, fun e => ?_, fun _ => ?_, fun e => ?_⟩
  · simp [e] at hs
  · obtain hs | hs := hs <;> simp [hs] at e
  · rw [hstep, hd]
    exact h.congr hc hq
  · simp [e] at hs

lemma DataAligned.cool (hs : c'.runState = .cooldown) {dataIndex : Nat} (h : c.AlignedAt P step dataIndex)
    (hc : c'.config = c.config) (hq : c'.getSequenceLength = c.getSequenceLength)
    (hstep : c'.progress.step = step + 1) (hd : c'.currentRound.dataIndex = dataIndex) : DataAligned P c' := by
  refine ⟨by simp [hs], by simp [hs], by simp [hs], fun _ => ⟨step, hstep, ?_⟩⟩
  rw [hd]
  exact h.congr hc hq

lemma DataAligned.same (h : DataAligned P c) (hrun : c'.runState = c.runState) (hc : c'.config = c.config)
    (hq : c'.getSequenceLength = c.getSequenceLength) (hp : c'.progress = c.progress)
    (hf : c'.epochState.firstRound = c.epochState.firstRound)
    (hd : c'.currentRound.dataIndex = c.currentRound.dataIndex) : DataAligned P c' := by
  refine ⟨fun hs => ?_, fun hs => ?_, fun hs => ?_, fun hs => ?_⟩
  · rw [hf]
    exact h.first (hrun ▸ hs)
  · rw [hp]
    exact (h.between (hrun ▸ hs)).congr hc hq
  · rw [hp, hd]
    exact (h.round (hrun ▸ hs)).congr hc hq
  · obtain ⟨step, hstep, ha⟩ := h.cooldown (hrun ▸ hs)
    exact ⟨step, by rw [hp, hstep], hd ▸ ha.congr hc hq⟩

lemma currentRound_roundClosed {height : Nat} {e : CoordinatorEpochState}
    (hc : Compacted height { c.epochState with firstRound := false } e) (lastStep : Nat) :
    (c.roundClosed e lastStep).currentRound = c.currentRound :=
  (rounds_congr _ _ hc.rounds hc.roundsHead).1

lemma dataIndex_cooled : (c.cooled now).currentRound.dataIndex = c.currentRound.dataIndex :=
  (congrArg Round.dataIndex (currentRound_setCurrentRound (c := c) { c.currentRound with witnesses := .new }) :)

lemma outside_betweenEpochs (c c' : Coordinator) (now : Nat) :
    (c'.entered now c.betweenEpochs).runState = .waitingForMembers
      ∨ (c'.entered now c.betweenEpochs).halted = true := by
  obtain hb | hb := betweenEpochs_cases c
  · exact .inl hb
  · exact .inr (by rw [hb]; rfl)

/-- A tick goes from one step to the next together with its data. -/
lemma DataAligned.tick (h : DataAligned P c) (ht : c.tick P pending now seed = .ok (c', r)) :
    DataAligned P c' := by
  have hcool := fun hs hs' => tick_cooldown_dataIndex hs hs' ht
  cases tick_inv ht with
  | idle => exact h
  | beginEpoch hs _ _ _ hb =>
    refine .warm (c := c) (by rw [hb.eq]) (by rw [hb.eq]) (h.between (.inl hs)) (by rw [hb.eq]) ?_ (by rw [hb.eq])
    obtain hm | hm := hb.model <;> rw [getSequenceLength, hm] <;> rfl
  | warm hs hc => exact .warm hs (hc.firstRound.trans (h.first hs)) (h.between (.inr (.inl hs))) rfl rfl rfl
  | warmAbort hs =>
    exact .outside (outside_betweenEpochs _ _ _) (h.between (.inr (.inl hs))) rfl rfl rfl rfl
  | train hs _ hr =>
    obtain ⟨_, hd⟩ | ⟨hf, _⟩ := hr.dataIndex
    · obtain ⟨_, _, _, _, _, rfl⟩ := hr
      exact .inRound (.inl rfl) (h.between (.inr (.inl hs))) rfl rfl rfl hd
    · simp [h.first hs] at hf
  | trainAbort hs _ hr =>
    obtain ⟨_, _, _, _, _, rfl⟩ := hr
    exact .outside (outside_betweenEpochs _ _ _) (h.between (.inr (.inl hs))) rfl rfl rfl rfl
  | witness hs => exact .inRound (.inr rfl) (h.round (.inl hs)) rfl rfl rfl rfl
  | @coolEmpty e hs _ hc =>
    exact .cool rfl (h.round (.inr hs)) rfl rfl rfl
      (dataIndex_cooled.trans (congrArg Round.dataIndex (currentRound_roundClosed hc e.lastStep)))
  | cool hs _ hc =>
    exact .cool rfl (h.round (.inr hs)) rfl rfl rfl
      (dataIndex_cooled.trans (congrArg Round.dataIndex (currentRound_roundClosed hc _)))
  | nextRound hs _ hc _ _ _ hr =>
    obtain ⟨hf, _⟩ | ⟨_, hd⟩ := hr.dataIndex
    · exact absurd (hc.firstRound.symm.trans hf) (by simp)
    · rw [currentRound_roundClosed hc] at hd
      have ha := (h.round (.inr hs)).succ hd
      obtain ⟨_, _, _, _, _, rfl⟩ := hr
      exact .inRound (.inl rfl) ha rfl rfl rfl rfl
  | endEpoch hs =>
    obtain ⟨step, hstep, ha⟩ := h.cooldown hs
    have hne : c.betweenEpochs ≠ .cooldown := by
      obtain hb | hb := betweenEpochs_cases c <;> simp [hb]
    exact .outside (outside_betweenEpochs _ _ _) (ha.succ (hcool hs hne)) rfl rfl hstep rfl
  | endEpochPaused hs =>
    obtain ⟨step, hstep, ha⟩ := h.cooldown hs
    exact .outside (.inr rfl) (ha.succ (hcool hs (by simp [entered]))) rfl rfl hstep rfl

/-- Progress that describes one point of the data: the first step, or a step with the index that `get_data_index_for_step`
computes for it (in the run manager's `update_config`). -/
def ProgressAt (P : Platform) (c : Coordinator) (p : CoordinatorProgress) : Prop :=
  (p.step = 1 ∧ p.epochStartDataIndex = 0)
    ∨ (p.check = true ∧ p.step ≤ c.config.totalSteps
      ∧ (c.getDataIndexForStep P p.step : Exec CoordinatorError Panic Nat) = .ok p.epochStartDataIndex)

lemma ProgressAt.aligned {p : CoordinatorProgress} (h : c.ProgressAt P p) :
    c.AlignedAt P p.step p.epochStartDataIndex := by
  obtain ⟨hs, hd⟩ | ⟨hp, hle, hd⟩ := h
  · exact ⟨0, hs, by rw [hd]; rfl⟩
  · have hpos : 0 < p.step := by simpa [CoordinatorProgress.check] using hp
    obtain ⟨n, hn⟩ : ∃ n, p.step = n + 1 := ⟨p.step - 1, by omega⟩
    rw [hn, getDataIndexForStep_succ (.inr (hn ▸ hle))] at hd
    exact ⟨n, hn, hd⟩

/-- An update that leaves configuration and model alone and sets progress to a point of the data. -/
def Resets (P : Platform) (c : Coordinator) : Operation → Prop
  | .update config model progress => config = c.config ∧ model = c.model ∧ c.ProgressAt P progress
  | _ => True

lemma Resets.of_not_update (h : op.isUpdate = false) : c.Resets P op := by
  cases op with
  | update => cases h
  | _ => trivial

/-- A call leaves the data where it is, or sets it to another point. -/
lemma DataAligned.call (h : DataAligned P c) (hop : c.Resets P op) (st : CallStep P c op c') :
    DataAligned P c' := by
  cases st with
  | report hc => exact h.same hc.runState hc.config hc.sequence hc.progress hc.firstRound hc.dataIndex
  | start hs hc hr =>
    obtain ⟨_, hd⟩ | ⟨hf, _⟩ := hr.dataIndex
    · have hstep : c'.progress.step = c.progress.step := by rw [hr.frame.2.2, hc.progress]
      have hq : c'.getSequenceLength = c.getSequenceLength := by
        rw [← hc.sequence]
        obtain ⟨_, _, _, _, _, rfl⟩ := hr
        rfl
      exact .inRound (.inl hr.runState) (h.between (.inr (.inl hs))) (hr.frame.2.1.trans hc.config) hq hstep
        (hd.trans (by rw [hc.progress]))
    · rw [hc.firstRound, h.first hs] at hf
      cases hf
  | @witnessed _ _ _ c1 hs hc =>
    exact .inRound (.inr rfl) (h.round (.inl hs)) hc.config hc.sequence
      (congrArg CoordinatorProgress.step hc.progress) hc.dataIndex
  | pauseNow hs =>
    have ha := h.between (hs.imp_right .inl)
    exact .outside (.inr rfl) ha rfl rfl rfl rfl
  | resume hs => exact .outside (outside_betweenEpochs _ _ _) (h.between (.inr (.inr hs))) rfl rfl rfl rfl
  | update hh =>
    obtain ⟨rfl, rfl, hp⟩ := hop
    exact .outside (.inr hh) hp.aligned rfl rfl rfl rfl

lemma DataAligned.of_run {tr : Record} (r : (machineFrom P c0).Run tr c)
    (h0 : c0.runState = .waitingForMembers ∨ c0.halted = true) (hp : c0.ProgressAt P c0.progress)
    (hops : ∀ ev ∈ tr, ev.before.Resets P ev.input) : DataAligned P c := by
  refine r.history (P := fun tr c => (∀ ev ∈ tr, ev.before.Resets P ev.input) → DataAligned P c) ?_ ?_ hops
  · rintro c rfl _
    exact .outside h0 hp.aligned rfl rfl rfl rfl
  · intro tr c op c' _ _ ih st hops
    have h := ih fun ev hev => hops ev (List.mem_cons_of_mem _ hev)
    obtain ⟨pending, now, seed, r, rfl, ht⟩ | hc := perform_inv (perform_of_step st)
    · exact h.tick ht
    · exact h.call (hops _ List.mem_cons_self) hc

lemma Bounded.of_run {tr : Record} (r : (machineFrom P c0).Run tr c) (h0 : Bounded c0) : Bounded c := by
  refine r.invariant ?_ fun c op c' _ h st => ?_
  · rintro c rfl
    exact h0
  · obtain ⟨pending, now, seed, r, rfl, ht⟩ | hc := perform_inv (perform_of_step st)
    · exact h.tick (tick_inv ht)
    · exact h.call hc

/-- In a run with one configuration and model, from a point of the data on, every epoch and every round begins at the index
that `get_data_index_for_step` computes for the step, and the next step's data begins where the round's batch ends. -/
theorem data_continuity {c0 : Coordinator} {tr : Record} (r : (machineFrom P c0).Run tr c)
    (h0 : c0.halted = true ∨ (c0.runState = .waitingForMembers ∧ c0.progress.step < c0.config.totalSteps))
    (hp : c0.ProgressAt P c0.progress) (hops : ∀ ev ∈ tr, ev.before.Resets P ev.input) :
    (c.runState = .waitingForMembers ∨ c.runState = .warmup →
      (c.getDataIndexForStep P c.progress.step : Exec CoordinatorError Panic Nat)
        = .ok c.progress.epochStartDataIndex)
    ∧ (c.runState = .roundTrain ∨ c.runState = .roundWitness →
      (c.getDataIndexForStep P c.progress.step : Exec CoordinatorError Panic Nat) = .ok c.currentRound.dataIndex
        ∧ ∀ batchSize, (c.getTargetGlobalBatchSize P (some c.currentRound) : Exec CoordinatorError Panic Nat)
            = .ok batchSize →
          c.currentRound.dataIndex + batchSize < 2 ^ 64 →
          (c.getDataIndexForStep P (c.progress.step + 1) : Exec CoordinatorError Panic Nat)
            = .ok (c.currentRound.dataIndex + batchSize)) := by
  have hb : Bounded c := by
    refine .of_run r ?_
    obtain hh | ⟨hs, hlt⟩ := h0
    · exact .of_halted hh
    · exact ⟨fun _ => hlt, by simp [hs]⟩
  have ha : DataAligned P c := .of_run r (h0.symm.imp_left And.left) hp hops
  constructor
  · intro hs
    obtain ⟨n, hn, hd⟩ := ha.between (hs.imp_right .inl)
    have hlt := hb.below (hs.imp_right .inl)
    rw [hn, getDataIndexForStep_succ (.inr (by omega)), hd]
  · intro hs
    have ha := ha.round hs
    have hlt := hb.below (.inr (.inr hs))
    refine ⟨?_, fun batchSize hsize hfit => ?_⟩
    · obtain ⟨n, hn, hd⟩ := ha
      rw [hn, getDataIndexForStep_succ (.inr (by omega)), hd]
    · have hnext : (c.nextDataIndex P c.currentRound.dataIndex : Exec CoordinatorError Panic Nat)
          = .ok (c.currentRound.dataIndex + batchSize) := by
        simp only [getTargetGlobalBatchSize, totalTokensProcessed, Option.map_some, Option.getD_some,
          bind_eq_ok, Except.ok.injEq] at hsize
        obtain ⟨tokens, ht, rfl⟩ := hsize
        rw [nextDataIndex, ht]
        exact addU_eq_ok.mpr ⟨hfit, rfl⟩
      obtain ⟨n, hn, hd⟩ := ha.succ hnext
      rw [hn, getDataIndexForStep_succ (.inr (by omega)), hd]

/-- A run of two clients into the second round of its first epoch. -/
def secondRound : Record × Coordinator :=
  (machineFrom .zero .small).play [] .small
    [.tick (some .two) 5 0, .tick none 15 0,
      .witness ⟨1, 0⟩ ⟨⟨0, 0, true⟩, .empty, .empty, 0⟩ 16, .tick none 25 0, .tick none 35 0]

/-- The second round begins where the sixteen samples of the first one end. -/
theorem data_continuity_secondRound : secondRound.2.runState = .roundTrain
    ∧ (secondRound.2.getDataIndexForStep .zero 2 : Exec CoordinatorError Panic Nat) = .ok 16 := by
  have hs : secondRound.2.runState = .roundTrain := by decide +kernel
  have hrun : (machineFrom .zero .small).Run secondRound.1 secondRound.2 := (Machine.Run.init rfl).play _
  have hops : ∀ ev ∈ secondRound.1, ev.input.isUpdate = false := by decide +kernel
  have h := (data_continuity hrun (.inr (by decide)) (.inl (by decide))
    fun ev hev => .of_not_update (hops ev hev)).2 (.inl hs)
  have hstep : secondRound.2.progress.step = 2 := by decide +kernel
  have hd : secondRound.2.currentRound.dataIndex = 16 := by decide +kernel
  rw [hstep, hd] at h
  exact ⟨hs, h.1⟩

end Data
end Leviathan.Coordinator
