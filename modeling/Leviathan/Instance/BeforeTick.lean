import Leviathan.Instance.Inversion

/-!
# Instructions and their tick

Every instruction of the coordinator program (`solana-coordinator/src/instance_state.rs`) does something of its own
and then ticks at most once. `beforeTick` is the first part, and `process_eq` says that the tick is all the rest.
`beforeTick_spec` says what the first part does: it moves between a few phases (`PhaseMove`), and touches neither the
flags of the account nor the rates of the epoch (`Prepared`).
-/

namespace Leviathan
open Exec

def Instruction.setsProgress : Instruction → Bool
  | .update _ _ _ (some _) => true
  | _ => false

def Instruction.newConfig : Instruction → Option CoordinatorConfig
  | .update _ config _ _ => config
  | _ => none

namespace InstanceState
open Coordinator

/-- An instruction up to its tick: the state and the effects so far, and whether a tick follows. -/
def beforeTick (P : Platform) (s : InstanceState) (clock : Clock) :
    Instruction → Exec InstanceError Panic (InstanceState × List InstanceEffect × Bool)
  | .joinRun user id => do
    Exec.require (id.signer = user) .signerMismatch
    let clientsState ← s.register id
    .ok ({ s with clientsState }, [], !s.coordinator.halted)
  | .tick => .ok (s, [], true)
  | .witness user w => do
    let id ← s.clientsState.findSigner user
    let c ← Exec.mapErr .coordinatorError (s.coordinator.witness P id w clock.now)
    .ok (s.withCoordinator c, [], true)
  | .warmupWitness user w => do
    let id ← s.clientsState.findSigner user
    let c ← Exec.mapErr .coordinatorError
      (s.coordinator.warmupWitness P id w clock.now (getRandomSeed P clock))
    .ok (s.withCoordinator c, [], true)
  | .healthCheck user id proof => do
    let _ ← s.clientsState.findSigner user
    let (c, _) ← Exec.mapErr .coordinatorError (s.coordinator.healthCheck P [(id, proof)])
    .ok (s.withCoordinator c, [], true)
  | .checkpoint user repo => do
    let id ← s.clientsState.findSigner user
    let index ← Exec.okOr (s.coordinator.epochState.clients.toList.findIdx? fun x => x.id == id)
      .signerNotAClient
    let c ← Exec.mapErr .coordinatorError (s.coordinator.checkpoint id index repo)
    .ok (s.withCoordinator c, [], !c.halted)
  | .setPaused true => do
    let c ← Exec.mapErr .coordinatorError (s.coordinator.pause clock.now)
    .ok (s.withCoordinator c, [], false)
  | .setPaused false => do
    let c ← unpause s.coordinator clock.now
    let clientsState ← s.clientsState.bumpNextActive
    .ok ({ s with coordinator := c, clientsState }, [], true)
  | .update metadata config model progress => do
    let s' ← s.update metadata config model progress
    .ok (s', [], false)
  | .updateClientVersion version => do
    let s' ← s.updateClientVersion version
    .ok (s', [], false)
  | .setFutureEpochRates earning slashing => .ok (s.setFutureEpochRates earning slashing, [], false)
  | .slash index => do
    let (s', fx) ← s.slash index
    .ok (s', fx, false)

/-- The state in which an instruction ticks, if it does. -/
def tickedIn (P : Platform) (s : InstanceState) (clock : Clock) (ix : Instruction) : Option InstanceState :=
  match s.beforeTick P clock ix with
  | .ok (s1, _, true) => some s1
  | _ => none

section Process
variable {P : Platform} {s s' : InstanceState} {clock : Clock} {ix : Instruction} {fx : List InstanceEffect}

lemma tickUnlessHalted_eq :
    s.tickUnlessHalted P clock = if !s.coordinator.halted then s.tick P clock else .ok (s, []) := by
  unfold tickUnlessHalted
  cases s.coordinator.halted <;> rfl

lemma process_eq : s.process P clock ix = (do
    let (s1, fx, ticks) ← s.beforeTick P clock ix
    if ticks then s1.tick P clock else .ok (s1, fx)) := by
  cases ix with
  | joinRun user id =>
    simp only [process, joinRun, beforeTick, tickUnlessHalted_eq, bind_assoc, ok_bind]
  | tick => rfl
  | witness user w => simp only [process, witness, beforeTick, bind_assoc, ok_bind, if_true]
  | warmupWitness user w => simp only [process, warmupWitness, beforeTick, bind_assoc, ok_bind, if_true]
  | healthCheck user id proof =>
    simp only [process, healthCheck, beforeTick, bind_assoc, ok_bind, if_true]
  | checkpoint user repo =>
    simp only [process, checkpoint, beforeTick, tickUnlessHalted_eq, bind_assoc, ok_bind]
    rfl
  | setPaused paused =>
    cases paused <;> simp [process, setPaused, beforeTick, bind_assoc, ok_bind]
  | update metadata config model progress =>
    simp [process, beforeTick, bind_assoc, ok_bind]
  | updateClientVersion version => simp [process, beforeTick, bind_assoc, ok_bind]
  | setFutureEpochRates earning slashing => rfl
  | slash index =>
    simp only [process, beforeTick, bind_assoc, ok_bind, Bool.false_eq_true, if_false]
    cases s.slash index <;> rfl

lemma process_inv_tick (h : s.process P clock ix = .ok (s', fx)) :
    (∃ s1 fx1, s.beforeTick P clock ix = .ok (s1, fx1, true) ∧ s1.tick P clock = .ok (s', fx)
        ∧ s.tickedIn P clock ix = some s1)
      ∨ (s.beforeTick P clock ix = .ok (s', fx, false) ∧ s.tickedIn P clock ix = none) := by
  rw [process_eq, bind_eq_ok] at h
  obtain ⟨⟨s1, fx1, ticks⟩, hb, h⟩ := h
  cases ticks with
  | true => exact .inl ⟨s1, fx1, hb, h, by simp only [tickedIn, hb]⟩
  | false =>
    cases h
    exact .inr ⟨hb, by simp only [tickedIn, hb]⟩

end Process

section Prepared
variable {P : Platform} {s s1 : InstanceState} {clock : Clock} {ix : Instruction} {fx : List InstanceEffect}
  {ticks : Bool}

lemma unpause_progress {c c' : Coordinator} {now : Nat} (h : unpause c now = .ok c') :
    c'.progress = if c.runState = .uninitialized then { c.progress with step := 1 } else c.progress := by
  simp only [unpause, bind_eq_ok, require_eq_ok, mapErr_eq_ok] at h
  obtain ⟨_, _, _, _, _, _, _, _, _, _, hr⟩ := h
  obtain ⟨_, rfl⟩ := resume_inv hr
  split <;> rfl

/-- How the first part of an instruction moves between phases, and whether a tick follows. -/
inductive PhaseMove (now : Nat) (c c' : Coordinator) : Bool → Prop where
  | kept {t : Bool} :
    c'.runState = c.runState →
    c'.epochState.firstRound = c.epochState.firstRound →
    PhaseMove now c c' t
  | started :
    c.runState = .warmup →
    c'.runState = .roundTrain →
    c'.epochState.firstRound = c.epochState.firstRound →
    c'.runStateStartUnixTimestamp = now →
    PhaseMove now c c' true
  | witnessed :
    c.runState = .roundTrain →
    c'.runState = .roundWitness →
    c'.runStateStartUnixTimestamp = now →
    PhaseMove now c c' true
  | paused :
    c.runState = .waitingForMembers ∨ c.runState = .warmup →
    c'.runState = .paused →
    PhaseMove now c c' false
  | resumed :
    c.runState = .uninitialized ∨ c.runState = .paused →
    c'.runState = .waitingForMembers ∨ c'.runState = .finished →
    c'.runStateStartUnixTimestamp = now →
    PhaseMove now c c' true

/-- What the first part of an instruction leaves alone. -/
structure Prepared (ix : Instruction) (now : Nat) (ticks : Bool) (s s1 : InstanceState) : Prop where
  phase : PhaseMove now s.coordinator s1.coordinator ticks
  warmupFlag : s1.isWarmupFirstTick = s.isWarmupFirstTick
  trainingFlag : s1.isTrainingFirstTick = s.isTrainingFirstTick
  current : s1.clientsState.currentEpochRates = s.clientsState.currentEpochRates
  future : ticks = true → s1.clientsState.futureEpochRates = s.clientsState.futureEpochRates
  nextActive : s.coordinator.halted = false → s1.clientsState.nextActive = s.clientsState.nextActive
  progress : s.coordinator.runState ≠ .uninitialized → ix.setsProgress = false →
    s1.coordinator.progress = s.coordinator.progress
  config : s1.coordinator.config = ix.newConfig.getD s.coordinator.config
  since : s1.coordinator.runStateStartUnixTimestamp = s.coordinator.runStateStartUnixTimestamp
    ∨ s1.coordinator.runStateStartUnixTimestamp = now
  epochSince : s1.coordinator.epochState.startTimestamp = s.coordinator.epochState.startTimestamp

/-- All that the first part of an instruction has done. Only a join touches the records. -/
structure Begun (ix : Instruction) (now : Nat) (ticks : Bool) (fx : List InstanceEffect) (s s1 : InstanceState) : Prop where
  prepared : Prepared ix now ticks s s1
  records : (∃ user id cs, ix = .joinRun user id ∧ s.register id = .ok cs ∧ s1 = { s with clientsState := cs })
    ∨ (∀ user id, ix ≠ .joinRun user id) ∧ s1.clientsState.clients = s.clientsState.clients
  unsettled : ∀ st, .settled st ∉ fx

lemma Begun.report {c : Coordinator} (hix : ix.newConfig = none) (hjoin : ∀ user id, ix ≠ .joinRun user id)
    (hfx : ∀ st, .settled st ∉ fx) (h : PhaseMove clock.now s.coordinator c ticks)
    (hp : c.progress = s.coordinator.progress) (hc : c.config = s.coordinator.config)
    (hn : c.runStateStartUnixTimestamp = s.coordinator.runStateStartUnixTimestamp
      ∨ c.runStateStartUnixTimestamp = clock.now)
    (he : c.epochState.startTimestamp = s.coordinator.epochState.startTimestamp) :
    Begun ix clock.now ticks fx s (s.withCoordinator c) :=
  ⟨⟨h, rfl, rfl, rfl, fun _ => rfl, fun _ => rfl, fun _ _ => hp, by rw [hix]; exact hc, hn, he⟩, .inr ⟨hjoin, rfl⟩, hfx⟩

/-- What an instruction has done before it ticks. -/
lemma beforeTick_spec (h : s.beforeTick P clock ix = .ok (s1, fx, ticks)) : Begun ix clock.now ticks fx s s1 := by
  cases ix with
  | joinRun user id =>
    simp only [beforeTick, bind_eq_ok, ok_pair] at h
    obtain ⟨_, _, cs, hr, rfl, rfl, rfl⟩ := h
    refine ⟨?_, .inl ⟨user, id, cs, rfl, hr, rfl⟩, by simp⟩
    obtain ⟨_, _, _, _, rfl⟩ | ⟨_, _, _, rfl⟩ := register_inv hr <;>
      exact ⟨.kept rfl rfl, rfl, rfl, rfl, fun _ => rfl, fun _ => rfl, fun _ _ => rfl, rfl, .inl rfl, rfl⟩
  | tick =>
    cases h
    exact .report rfl (by simp) (by simp) (.kept rfl rfl) rfl rfl (.inl rfl) rfl
  | witness user w =>
    simp only [beforeTick, bind_eq_ok, mapErr_eq_ok, ok_pair] at h
    obtain ⟨_, _, c, hc, rfl, rfl, rfl⟩ := h
    obtain ⟨_, _, hs, _, _, _, ⟨_, _, _, rfl⟩, rfl⟩ := witness_inv hc
    split
    case isTrue hlast =>
      exact .report rfl (by simp) (by simp) (.witnessed (hs.resolve_left hlast.2) rfl rfl) rfl rfl (.inr rfl) rfl
    case isFalse => exact .report rfl (by simp) (by simp) (.kept rfl rfl) rfl rfl (.inl rfl) rfl
  | warmupWitness user w =>
    simp only [beforeTick, bind_eq_ok, mapErr_eq_ok, ok_pair] at h
    obtain ⟨_, _, c, hc, rfl, rfl, rfl⟩ := h
    obtain ⟨_, rfl⟩ | ⟨hs, _, _, ⟨_, _, _, rfl⟩, rfl | ⟨_, _, _, _, _, _, rfl⟩⟩ := warmupWitness_inv hc
    · exact .report rfl (by simp) (by simp) (.kept rfl rfl) rfl rfl (.inl rfl) rfl
    · exact .report rfl (by simp) (by simp) (.kept rfl rfl) rfl rfl (.inl rfl) rfl
    · exact .report rfl (by simp) (by simp) (.started hs rfl rfl rfl) rfl rfl (.inr rfl) rfl
  | healthCheck user id proof =>
    simp only [beforeTick, bind_eq_ok, mapErr_eq_ok, ok_pair] at h
    obtain ⟨_, _, ⟨c, n⟩, hc, rfl, rfl, rfl⟩ := h
    obtain ⟨_, _, _, _, _, rfl⟩ := healthCheck_inv hc
    exact .report rfl (by simp) (by simp) (.kept rfl rfl) rfl rfl (.inl rfl) rfl
  | checkpoint user repo =>
    simp only [beforeTick, bind_eq_ok, mapErr_eq_ok, ok_pair] at h
    obtain ⟨_, _, _, _, c, hc, rfl, rfl, rfl⟩ := h
    rw [checkpoint_inv hc]
    exact .report rfl (by simp) (by simp) (.kept rfl rfl) rfl rfl (.inl rfl) rfl
  | setPaused paused =>
    cases paused with
    | true =>
      simp only [beforeTick, bind_eq_ok, mapErr_eq_ok, ok_pair] at h
      obtain ⟨c, hc, rfl, rfl, rfl⟩ := h
      obtain ⟨_, rfl⟩ | ⟨hs, rfl⟩ := pause_inv hc
      · exact .report rfl (by simp) (by simp) (.kept rfl rfl) rfl rfl (.inl rfl) rfl
      · exact .report rfl (by simp) (by simp) (.paused hs rfl) rfl rfl (.inr rfl) rfl
    | false =>
      simp only [beforeTick, ClientsState.bumpNextActive, bind_eq_ok, Except.ok.injEq, Prod.mk.injEq] at h
      obtain ⟨c, hc, _, ⟨_, _, rfl⟩, rfl, rfl, rfl⟩ := h
      have hprog := unpause_progress hc
      obtain ⟨_, hs, step, rfl⟩ := unpause_inv hc
      have hh : s.coordinator.halted = true := by
        obtain hs | hs := hs <;> simp [Coordinator.halted, hs]
      refine ⟨⟨.resumed hs (betweenEpochs_cases _) rfl, rfl, rfl, rfl, fun _ => rfl, by simp [hh], fun hu _ => ?_, rfl,
        .inr rfl, rfl⟩, .inr ⟨by simp, rfl⟩, by simp⟩
      rwa [if_neg hu] at hprog
  | update metadata config model progress =>
    simp only [beforeTick, bind_eq_ok, ok_pair] at h
    obtain ⟨_, hu, rfl, rfl, rfl⟩ := h
    obtain ⟨_, _, _, rfl⟩ := update_inv hu
    refine ⟨⟨.kept rfl rfl, rfl, rfl, rfl, fun _ => rfl, fun _ => rfl, fun _ hp => ?_, rfl, .inl rfl, rfl⟩,
      .inr ⟨by simp, rfl⟩, by simp⟩
    cases progress with
    | none => rfl
    | some p => cases hp
  | updateClientVersion version =>
    simp only [beforeTick, updateClientVersion, bind_eq_ok, Except.ok.injEq, Prod.mk.injEq] at h
    obtain ⟨_, ⟨_, _, rfl⟩, rfl, rfl, rfl⟩ := h
    exact ⟨⟨.kept rfl rfl, rfl, rfl, rfl, fun _ => rfl, fun _ => rfl, fun _ _ => rfl, rfl, .inl rfl, rfl⟩,
      .inr ⟨by simp, rfl⟩, by simp⟩
  | setFutureEpochRates earning slashing =>
    cases h
    exact ⟨⟨.kept rfl rfl, rfl, rfl, rfl, by simp, fun _ => rfl, fun _ _ => rfl, rfl, .inl rfl, rfl⟩,
      .inr ⟨by simp, rfl⟩, by simp⟩
  | slash index =>
    simp only [beforeTick, bind_eq_ok, ok_pair] at h
    obtain ⟨⟨_, _⟩, hs, rfl, rfl, rfl⟩ := h
    obtain ⟨_, c, _, hc, rfl, rfl⟩ := slash_inv hs
    obtain ⟨_, _, _, rfl⟩ := eject_eq_ok.mp hc
    exact .report rfl (by simp) (by simp) (.kept rfl rfl) rfl rfl (.inl rfl) rfl

end Prepared

end InstanceState
end Leviathan
