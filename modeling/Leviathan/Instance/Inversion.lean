import Leviathan.Instance.Machine
import Leviathan.Coordinator.Rounds

/-!
# Inversion of the instance's instructions

An instruction of the coordinator program is a short sequence of smaller steps: it changes the records, or lets the
coordinator perform one of its operations, and then often ticks. `InstanceStep` lists what each step does to the state,
and `process_inv` cuts every accepted instruction into them.

`InstanceStep.tick` is stated with `TickStep` of the coordinator; what happens after the coordinator's tick is in
`noteStart_inv` and `settle_inv`.
-/

namespace Leviathan.InstanceState
open Exec List
variable {s s' : InstanceState}

/-- The state in which a tick hands over to settlement or to `noteStart`. -/
def ticking (s : InstanceState) (c : Coordinator) : InstanceState := { s.resetFlags with coordinator := c }

lemma clientsState_ticking {s : InstanceState} {c : Coordinator} : (s.ticking c).clientsState = s.clientsState := by
  unfold ticking resetFlags
  split <;> rfl

def settlement (s : InstanceState) (success : Bool) : Settlement :=
  let c := s.coordinator
  let rates := s.clientsState.currentEpochRates
  let records := s.clientsState.clients
  { success
    earningRate := rates.earningRateTotalShared
    earnedShare := earnedShare c rates
    slashingRate := rates.slashingRatePerClient
    credited := (records.toList.filter (credited c)).map SolanaClient.signer
    charged := (records.toList.filter (charged c)).map SolanaClient.signer }

/-- The state after the settlement of an epoch. -/
def settled (s : InstanceState) : InstanceState :=
  { s with clientsState := { s.clientsState with
      clients := s.clientsState.clients.map (settleClient s.coordinator s.clientsState.currentEpochRates) } }

/-- What a settlement leaves and reports. -/
lemma settle_inv {success : Bool} {fx : List InstanceEffect} (h : s.settle success = .ok (s', fx)) :
    s' = s.settled ∧ fx = [.settled (s.settlement success)] := by
  simp only [settle, bind_eq_ok, ensure_eq_ok, ok_pair] at h
  obtain ⟨_, _, rfl, rfl⟩ := h
  exact ⟨rfl, rfl⟩

lemma noteStart_inv (h : s.noteStart = .ok s') :
    (s.coordinator.isWarmupJustStarting = true ∧ s.isWarmupFirstTick = true
      ∧ s' = { s with
        clientsState := { s.clientsState with currentEpochRates := s.clientsState.futureEpochRates }
        isWarmupFirstTick := false })
    ∨ (¬ (s.coordinator.isWarmupJustStarting = true ∧ s.isWarmupFirstTick = true)
      ∧ ∃ nextActive training, s' = { s with
        clientsState := { s.clientsState with nextActive }
        isTrainingFirstTick := training }) := by
  unfold noteStart at h
  split at h
  · rename_i hw
    cases h
    rw [Bool.and_eq_true] at hw
    exact .inl ⟨hw.1, hw.2, rfl⟩
  · rename_i hw
    refine .inr ⟨by simpa using hw, ?_⟩
    split at h
    · simp only [ClientsState.bumpNextActive, bind_eq_ok, Except.ok.injEq] at h
      obtain ⟨_, ⟨n, _, rfl⟩, rfl⟩ := h
      exact ⟨n, false, rfl⟩
    · cases h
      exact ⟨s.clientsState.nextActive, s.isTrainingFirstTick, rfl⟩

inductive InstanceStep (P : Platform) : InstanceState → List InstanceEffect → InstanceState → Prop where
  | ticked {s clock c s'} :
    s.coordinator.TickStep P s.pendingIds clock.now (getRandomSeed P clock) c .ticked →
    (s.ticking c).noteStart = .ok s' →
    InstanceStep P s [] s'
  | settle {s clock c success} :
    s.coordinator.TickStep P s.pendingIds clock.now (getRandomSeed P clock) c (.epochEnd success) →
    InstanceStep P s [.settled ((s.ticking c).settlement success)] (s.ticking c).settled
  | witness {s id w now c} :
    s.coordinator.witness P id w now = .ok c →
    InstanceStep P s [] (s.withCoordinator c)
  | warmupWitness {s id w now seed c} :
    s.coordinator.warmupWitness P id w now seed = .ok c →
    InstanceStep P s [] (s.withCoordinator c)
  | healthCheck {s checks n c} :
    s.coordinator.healthCheck P checks = .ok (c, n) →
    InstanceStep P s [] (s.withCoordinator c)
  | checkpoint {s id index repo c} :
    s.coordinator.checkpoint id index repo = .ok c →
    InstanceStep P s [] (s.withCoordinator c)
  | eject {s index x c} :
    s.coordinator.epochState.clients.get? index = some x →
    s.coordinator.eject index = .ok c →
    InstanceStep P s [.ejected x.signer] (s.withCoordinator c)
  | pause {s now c} :
    s.coordinator.pause now = .ok c →
    InstanceStep P s [] (s.withCoordinator c)
  | unpause {s now c nextActive} :
    unpause s.coordinator now = .ok c →
    InstanceStep P s [] { s with coordinator := c, clientsState := { s.clientsState with nextActive } }
  | register {s id clientsState} :
    s.register id = .ok clientsState →
    InstanceStep P s [] { s with clientsState }
  | update {s metadata config model progress s'} :
    s.update metadata config model progress = .ok s' →
    InstanceStep P s [] s'
  | rates {s earning slashing} :
    InstanceStep P s [] (s.setFutureEpochRates earning slashing)
  | version {s version} :
    InstanceStep P s [] { s with clientVersion := version }

section Inversion
variable {P : Platform} {s s' s1 : InstanceState} {clock : Clock} {fx : List InstanceEffect} {c c' : Coordinator}
  {ix : Instruction} {now : Nat}

lemma tick_inv (h : s.tick P clock = .ok (s', fx)) : InstanceStep P s fx s' := by
  simp only [tick, bind_eq_ok, mapErr_eq_ok] at h
  obtain ⟨⟨c, r⟩, ht, h⟩ := h
  have hstep := Coordinator.tick_inv ht
  cases r with
  | ticked =>
    simp only [bind_eq_ok, ok_pair] at h
    obtain ⟨_, hn, rfl, rfl⟩ := h
    exact .ticked hstep hn
  | epochEnd success =>
    obtain ⟨rfl, rfl⟩ := settle_inv h
    exact .settle hstep

lemma slash_inv {index : Nat} (h : s.slash index = .ok (s', fx)) :
    ∃ x c, s.coordinator.epochState.clients.get? index = some x ∧ s.coordinator.eject index = .ok c
      ∧ s' = s.withCoordinator c ∧ fx = [.ejected x.signer] := by
  simp only [slash, bind_eq_ok, mapErr_eq_ok, ok_pair] at h
  obtain ⟨c, he, rfl, rfl⟩ := h
  obtain ⟨x, hx, _, _⟩ := Coordinator.eject_eq_ok.mp he
  exact ⟨x, c, hx, he, rfl, by simp [hx]⟩

lemma unpause_inv (h : unpause c now = .ok c') :
    c.config.check = true ∧ (c.runState = .uninitialized ∨ c.runState = .paused)
      ∧ ∃ step, c' = ({ c with progress := { c.progress with step } } : Coordinator).entered now
          ({ c with progress := { c.progress with step } } : Coordinator).betweenEpochs := by
  simp only [unpause, bind_eq_ok, require_eq_ok, mapErr_eq_ok] at h
  obtain ⟨_, hcfg, _, _, _, _, _, _, _, _, hr⟩ := h
  obtain ⟨hp, rfl⟩ := Coordinator.resume_inv hr
  refine ⟨hcfg, ?_⟩
  by_cases hu : c.runState = .uninitialized
  · rw [if_pos hu]
    exact ⟨.inl hu, 1, rfl⟩
  · rw [if_neg hu] at hp ⊢
    exact ⟨.inr hp, c.progress.step, rfl⟩

lemma moved_unpause (h : unpause c now = .ok c') : c.Moved c' := by
  obtain ⟨_, hs, step, rfl⟩ := unpause_inv h
  refine .outside ?_ (Coordinator.active_betweenEpochs _ _ _) le_rfl
  obtain hs | hs := hs <;> simp [Coordinator.active, hs]

lemma update_inv {metadata : Option RunMetadata} {config : Option CoordinatorConfig} {model : Option Model}
    {progress : Option CoordinatorProgress} (h : s.update metadata config model progress = .ok s') :
    s.coordinator.runState ≠ .finished
      ∧ (s.coordinator.halted = true ∨ (config = none ∧ model = none ∧ progress = none))
      ∧ (∀ x ∈ config, x.check = true)
      ∧ s' = { s with
        metadata := metadata.getD s.metadata
        coordinator := { s.coordinator with
          config := config.getD s.coordinator.config
          model := model.getD s.coordinator.model
          progress := progress.getD s.coordinator.progress } } := by
  simp only [update, bind_eq_ok, require_eq_ok, Except.ok.injEq] at h
  obtain ⟨_, hf, _, hh, _, hc, _, _, _, _, _, _, _, _, rfl⟩ := h
  exact ⟨hf, hh, hc, rfl⟩

lemma register_inv {id : NodeIdentity} {cs : ClientsState} (h : s.register id = .ok cs) :
    (∃ index r, s.clientsState.clients.get? index = some r ∧ r.signer = id.signer
      ∧ cs = { s.clientsState with clients := s.clientsState.clients.modify index fun x =>
          { x with id, active := s.clientsState.nextActive } })
    ∨ ((∀ r ∈ s.clientsState.clients.toList, r.signer ≠ id.signer)
      ∧ ∃ clients : FixedVec SolanaClient solanaMaxNumClients,
        clients.toList = s.clientsState.clients.toList ++ [⟨id, 0, 0, s.clientsState.nextActive⟩]
          ∧ cs = { s.clientsState with clients }) := by
  unfold register at h
  dsimp only at h
  split at h
  · rename_i index hi
    cases h
    obtain ⟨hlt, hp, _⟩ := findIdx?_eq_some_iff_getElem.mp hi
    exact .inl ⟨index, _, getElem?_eq_getElem hlt, NodeIdentity.beq_iff.mp hp, rfl⟩
  · rename_i hi
    simp only [bind_eq_ok, okOr_eq_ok, FixedVec.push_eq_some, Except.ok.injEq] at h
    obtain ⟨_, _, clients, ⟨_, hcl⟩, rfl⟩ := h
    refine .inr ⟨fun r hr e => ?_, clients, hcl, rfl⟩
    have := findIdx?_eq_none_iff.mp hi r hr
    simp [NodeIdentity.beq_iff.mpr e] at this

/-- A step that ejects nobody, does not pause a warmup and does not count epochs back. -/
structure QuietStep (P : Platform) (s : InstanceState) (fx : List InstanceEffect) (s' : InstanceState) : Prop where
  step : InstanceStep P s fx s'
  ejects : ∀ signer, .ejected signer ∉ fx
  pauses : ¬ (s.coordinator.runState = .warmup ∧ s'.coordinator.runState = .paused)
  forward : s.coordinator.progress.epoch ≤ s'.coordinator.progress.epoch

/-- An instruction that is one step, with what the step can do to clients, to a warmup and to the count of epochs. -/
structure SingleStep (P : Platform) (ix : Instruction) (s : InstanceState) (fx : List InstanceEffect)
    (s' : InstanceState) : Prop where
  step : InstanceStep P s fx s'
  ejects : (∃ index, ix = .slash index) ∨ ∀ signer, .ejected signer ∉ fx
  pauses : ix = .setPaused true ∨ ¬ (s.coordinator.runState = .warmup ∧ s'.coordinator.runState = .paused)
  forward : (∃ metadata config model, ix = .update metadata config model (some s'.coordinator.progress))
    ∨ s.coordinator.progress.epoch ≤ s'.coordinator.progress.epoch

lemma QuietStep.single (h : QuietStep P s fx s') : SingleStep P ix s fx s' :=
  ⟨h.step, .inr h.ejects, .inr h.pauses, .inr h.forward⟩

lemma tickStep_not_paused {pending : Option (List NodeIdentity)} {seed : Nat} {r : TickResult}
    (st : c.TickStep P pending now seed c' r) : ¬ (c.runState = .warmup ∧ c'.runState = .paused) := by
  rintro ⟨hw, hp⟩
  cases st with
  | idle hs | beginEpoch hs | witness hs | coolEmpty hs | cool hs | nextRound hs | endEpoch hs | endEpochPaused hs =>
    simp [hw] at hs
  | warm hs => simp [Coordinator.setEpochState, hw] at hp
  | warmAbort hs | trainAbort hs =>
    obtain hb | hb := Coordinator.betweenEpochs_cases c <;> simp [Coordinator.entered, hb] at hp
  | train hs _ hr =>
    obtain ⟨_, _, _, _, _, rfl⟩ := hr
    simp [Coordinator.entered] at hp

lemma coordinator_of_noteStart (h : s.noteStart = .ok s') : s'.coordinator = s.coordinator := by
  obtain ⟨_, _, rfl⟩ | ⟨_, _, _, rfl⟩ := noteStart_inv h <;> rfl

lemma tick_quiet (h : s.tick P clock = .ok (s', fx)) : QuietStep P s fx s' := by
  suffices hq : (∀ signer, .ejected signer ∉ fx)
      ∧ ¬ (s.coordinator.runState = .warmup ∧ s'.coordinator.runState = .paused)
      ∧ s.coordinator.progress.epoch ≤ s'.coordinator.progress.epoch from ⟨tick_inv h, hq.1, hq.2.1, hq.2.2⟩
  simp only [tick, bind_eq_ok, mapErr_eq_ok] at h
  obtain ⟨⟨c, r⟩, ht, h⟩ := h
  have hnp := tickStep_not_paused (Coordinator.tick_inv ht)
  have hle := (Coordinator.tick_inv ht).moved.epoch_le
  cases r with
  | ticked =>
    simp only [bind_eq_ok, ok_pair] at h
    obtain ⟨_, hn, rfl, rfl⟩ := h
    rw [coordinator_of_noteStart hn]
    exact ⟨by simp, hnp, hle⟩
  | epochEnd success =>
    obtain ⟨rfl, rfl⟩ := settle_inv h
    exact ⟨by simp, hnp, hle⟩

lemma chain_tick (h1 : QuietStep P s [] s1) (h : s1.tick P clock = .ok (s', fx)) : Chain (QuietStep P) s fx s' := by
  simpa using (Chain.single h1).append (.single (tick_quiet h))

lemma chain_tickUnlessHalted (h1 : QuietStep P s [] s1) (h : s1.tickUnlessHalted P clock = .ok (s', fx)) :
    Chain (QuietStep P) s fx s' := by
  unfold tickUnlessHalted at h
  split at h
  · cases h
    exact .single h1
  · exact chain_tick h1 h

/-- An instruction is a single step, or a chain of quiet ones. -/
lemma process_inv (h : s.process P clock ix = .ok (s', fx)) :
    SingleStep P ix s fx s' ∨ Chain (QuietStep P) s fx s' := by
  cases ix with
  | joinRun user id =>
    simp only [process, joinRun, bind_eq_ok] at h
    obtain ⟨_, _, cs, hr, h⟩ := h
    refine .inr (chain_tickUnlessHalted ⟨.register hr, by simp, ?_, le_rfl⟩ h)
    rintro ⟨hw, hp⟩
    simp [hw] at hp
  | tick => exact .inl (tick_quiet h).single
  | witness user w =>
    simp only [process, witness, bind_eq_ok, mapErr_eq_ok] at h
    obtain ⟨_, _, c, hc, h⟩ := h
    refine .inr (chain_tick ⟨.witness hc, by simp, ?_, (Coordinator.moved_witness hc).epoch_le⟩ h)
    rintro ⟨hw, _⟩
    obtain ⟨_, _, hs, _⟩ := Coordinator.witness_inv hc
    simp [hw] at hs
  | warmupWitness user w =>
    simp only [process, warmupWitness, bind_eq_ok, mapErr_eq_ok] at h
    obtain ⟨_, _, c, hc, h⟩ := h
    refine .inr (chain_tick ⟨.warmupWitness hc, by simp, ?_, (Coordinator.moved_warmupWitness hc).epoch_le⟩ h)
    rintro ⟨hw, hp⟩
    obtain ⟨ht, _⟩ | ⟨_, _, c1, ⟨_, _, _, rfl⟩, rfl | ⟨_, _, _, _, _, _, rfl⟩⟩ :=
      Coordinator.warmupWitness_inv hc
    · simp [hw] at ht
    · simp [withCoordinator, Coordinator.setCurrentRound, Coordinator.setEpochState, hw] at hp
    · simp [withCoordinator, Coordinator.entered] at hp
  | healthCheck user id proof =>
    simp only [process, healthCheck, bind_eq_ok, mapErr_eq_ok] at h
    obtain ⟨_, _, ⟨c, n⟩, hc, h⟩ := h
    refine .inr (chain_tick ⟨.healthCheck hc, by simp, ?_, (Coordinator.moved_healthCheck hc).epoch_le⟩ h)
    rintro ⟨hw, hp⟩
    obtain ⟨_, _, _, _, _, rfl⟩ := Coordinator.healthCheck_inv hc
    simp [withCoordinator, Coordinator.setEpochState, hw] at hp
  | checkpoint user repo =>
    simp only [process, checkpoint, bind_eq_ok, mapErr_eq_ok] at h
    obtain ⟨_, _, _, _, c, hc, h⟩ := h
    refine .inr (chain_tickUnlessHalted ⟨.checkpoint hc, by simp, ?_, (Coordinator.moved_checkpoint hc).epoch_le⟩ h)
    rintro ⟨hw, hp⟩
    simp [withCoordinator, Coordinator.checkpoint_inv hc, hw] at hp
  | setPaused paused =>
    cases paused with
    | true =>
      simp only [process, setPaused, if_true, bind_eq_ok, mapErr_eq_ok, ok_pair] at h
      obtain ⟨c, hc, rfl, rfl⟩ := h
      exact .inl ⟨.pause hc, .inr (by simp), .inl rfl, .inr (Coordinator.moved_pause hc).epoch_le⟩
    | false =>
      simp only [process, setPaused, Bool.false_eq_true, if_false, ClientsState.bumpNextActive,
        bind_eq_ok, Except.ok.injEq] at h
      obtain ⟨c, hc, _, ⟨n, _, rfl⟩, h⟩ := h
      refine .inr (chain_tick ⟨.unpause hc, by simp, ?_, (moved_unpause hc).epoch_le⟩ h)
      rintro ⟨hw, hp⟩
      obtain ⟨_, hs, _⟩ := unpause_inv hc
      simp [hw] at hs
  | update metadata config model progress =>
    simp only [process, bind_eq_ok, ok_pair] at h
    obtain ⟨_, hu, rfl, rfl⟩ := h
    obtain ⟨_, _, _, heq⟩ := update_inv hu
    refine .inl ⟨.update hu, .inr (by simp), .inr ?_, ?_⟩
    · rintro ⟨hw, hp⟩
      simp [heq, hw] at hp
    · cases progress with
      | none => exact .inr (by rw [heq]; exact le_rfl)
      | some p => exact .inl ⟨_, _, _, by rw [heq]; rfl⟩
  | updateClientVersion version =>
    simp only [process, updateClientVersion, bind_eq_ok, Except.ok.injEq, Prod.mk.injEq] at h
    obtain ⟨_, ⟨_, _, rfl⟩, rfl, rfl⟩ := h
    exact .inl (QuietStep.single ⟨.version, by simp, fun h => (by cases h.1.symm.trans h.2), le_rfl⟩)
  | setFutureEpochRates earning slashing =>
    cases h
    exact .inl (QuietStep.single ⟨.rates, by simp, fun h => (by cases h.1.symm.trans h.2), le_rfl⟩)
  | slash index =>
    obtain ⟨x, c, hx, he, rfl, rfl⟩ := slash_inv h
    refine .inl ⟨.eject hx he, .inl ⟨index, rfl⟩, .inr ?_, .inr (Coordinator.moved_eject he).epoch_le⟩
    rintro ⟨hw, hp⟩
    obtain ⟨_, _, _, rfl⟩ := Coordinator.eject_eq_ok.mp he
    cases hw.symm.trans hp

lemma not_ejected_of_process (hix : ∀ index, ix ≠ .slash index) (h : s.process P clock ix = .ok (s', fx))
    (signer : Pubkey) : .ejected signer ∉ fx := by
  obtain hs | hc := process_inv h
  · obtain ⟨index, rfl⟩ | hne := hs.ejects
    · exact absurd rfl (hix index)
    · exact hne signer
  · clear h
    induction hc with
    | nil => simp
    | snoc _ st ih =>
      rw [mem_append]
      rintro (he | he)
      · exact ih he
      · exact st.ejects signer he

end Inversion
end Leviathan.InstanceState
