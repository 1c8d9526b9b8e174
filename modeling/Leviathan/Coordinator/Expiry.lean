import Leviathan.Coordinator.Progress

/-!
# Every epoch comes to an end

Each phase of an epoch has a time (`tick` in `shared/coordinator/src/coordinator.rs`). A tick that finds it over enters
another phase (`tick_expired`), and `phasesLeft` bounds how often that can happen before the epoch is over: twice for each
step that is left, and for the warmup and the cooldown. No call adds to it.
-/

namespace Leviathan.Coordinator
open Exec

/-- The time of a phase of an epoch. -/
def phaseTime (c : Coordinator) : Option Nat :=
  match c.runState with
  | .warmup => some c.config.warmupTime
  | .roundTrain => some c.config.maxRoundTrainTime
  | .roundWitness => some c.config.roundWitnessTime
  | .cooldown => some c.config.cooldownTime
  | .uninitialized | .waitingForMembers | .finished | .paused => none

/-- A tick that finds the time of the phase over. -/
def expires (ev : Event Coordinator Operation Unit) : Bool :=
  match ev.input, ev.before.phaseTime with
  | .tick _ now _, some d =>
    ev.before.runStateStartUnixTimestamp ≠ now && d + ev.before.runStateStartUnixTimestamp ≤ now
  | _, _ => false

/-- How many phases can still expire before the epoch is over. -/
def phasesLeft (c : Coordinator) : Nat :=
  let steps := c.config.totalSteps - c.progress.step
  match c.runState with
  | .warmup => 2 * steps + 2
  | .roundTrain => 2 * steps + 1
  | .roundWitness => 2 * steps
  | .cooldown => 1
  | .uninitialized | .waitingForMembers | .finished | .paused => 0

/-- The phase goes on, or there are fewer phases left. -/
def Proceeds (c c' : Coordinator) : Prop :=
  c'.phasesLeft < c.phasesLeft
    ∨ c'.phasesLeft = c.phasesLeft ∧ c'.runStateStartUnixTimestamp = c.runStateStartUnixTimestamp

variable {P : Platform} {c c' c0 : Coordinator} {pending : Option (List NodeIdentity)} {now seed : Nat}
  {r : TickResult} {op : Operation}

lemma of_timedOut {α : Type} {d : Nat} {x y : Exec CoordinatorError Panic α} {z : α} (ht : c.TimedOut now d)
    (h : (do let timeout ← c.checkTimeout now d; if timeout then x else y) = .ok z) : x = .ok z := by
  simp only [checkTimeout, if_neg ht.1, bind_eq_ok, addU_eq_ok, Except.ok.injEq] at h
  obtain ⟨_, ⟨_, ⟨_, rfl⟩, rfl⟩, h⟩ := h
  rwa [if_pos (decide_eq_true ht.2)] at h

lemma of_changeState {st : RunState} {f : Coordinator → Coordinator × TickResult}
    (hf : ∀ c, (f c).1.runStateStartUnixTimestamp = c.runStateStartUnixTimestamp)
    (h : (do let c ← c.changeState now st; .ok (f c)) = .ok (c', r)) : c'.runStateStartUnixTimestamp = now := by
  simp only [bind_eq_ok, changeState_eq_ok, Except.ok.injEq] at h
  obtain ⟨_, ⟨_, rfl⟩, h⟩ := h
  have hstart := hf (c.entered now st)
  rwa [h] at hstart

lemma tick_expired {d : Nat} (hd : c.phaseTime = some d) (ht : c.TimedOut now d)
    (h : c.tick P pending now seed = .ok (c', r)) : c'.runStateStartUnixTimestamp = now := by
  cases hs : c.runState with
  | uninitialized | waitingForMembers | finished | paused => simp [phaseTime, hs] at hd
  | warmup =>
    simp only [phaseTime, hs, Option.some.injEq] at hd
    simp only [tick, hs, tickWarmup, warmUp] at h
    obtain ⟨_, h1, h⟩ := bind_eq_ok.mp h
    split at h
    · exact of_changeState (fun _ => rfl) h
    · cases h
      obtain ⟨_, _, _, _, _, rfl⟩ := startRoundTrain_inv (of_timedOut (hd ▸ ht) h1)
      rfl
  | roundTrain =>
    simp only [phaseTime, hs, Option.some.injEq] at hd
    simp only [tick, hs, tickRoundTrain] at h
    exact of_changeState (fun _ => rfl) (of_timedOut (hd ▸ ht) h)
  | roundWitness =>
    simp only [phaseTime, hs, Option.some.injEq] at hd
    simp only [tick, hs, tickRoundWitness] at h
    obtain ⟨_, _, h⟩ := bind_eq_ok.mp (of_timedOut (hd ▸ ht) h)
    obtain ⟨_, _, h⟩ := bind_eq_ok.mp h
    split at h
    · exact of_changeState (fun _ => rfl) h
    · obtain ⟨_, _, h⟩ := bind_eq_ok.mp h
      split at h
      · exact of_changeState (fun _ => rfl) h
      · obtain ⟨_, _, h⟩ := bind_eq_ok.mp h
        split at h
        · exact of_changeState (fun _ => rfl) h
        · simp only [bind_eq_ok, ok_pair] at h
          obtain ⟨_, hr, rfl, _⟩ := h
          obtain ⟨_, _, _, _, _, rfl⟩ := startRoundTrain_inv hr
          rfl
  | cooldown =>
    simp only [phaseTime, hs, Option.some.injEq] at hd
    simp only [tick, hs, tickCooldown] at h
    have h := of_timedOut (hd ▸ ht) h
    simp only [bind_eq_ok] at h
    obtain ⟨_, _, _, _, _, _, _, _, h⟩ := h
    split at h
    · exact of_changeState (fun _ => rfl) h
    · exact of_changeState (fun _ => rfl) h

lemma TickStep.proceeds (hb : Bounded c) (he : c.phaseTime ≠ none) (st : TickStep P c pending now seed c' r) :
    Proceeds c c' := by
  have hbetween : ∀ c1 c2 : Coordinator, (c1.entered now c2.betweenEpochs).phasesLeft = 0 := by
    intro c1 c2
    obtain h | h := betweenEpochs_cases c2 <;> simp [phasesLeft, entered, h]
  cases st with
  | idle | warm => exact .inr ⟨rfl, rfl⟩
  | beginEpoch hs => simp [phaseTime, hs] at he
  | warmAbort hs | trainAbort hs | endEpoch hs =>
    refine .inl ?_
    rw [hbetween]
    simp [phasesLeft, hs]
  | train hs _ hr =>
    obtain ⟨_, _, _, _, _, rfl⟩ := hr
    simp [Proceeds, phasesLeft, hs, entered, setEpochState]
  | witness hs | endEpochPaused hs => simp [Proceeds, phasesLeft, hs, entered]
  | coolEmpty hs | cool hs =>
    have := hb.below (.inr (.inr (.inr hs)))
    simp only [Proceeds, phasesLeft, hs, cooled, entered]
    omega
  | nextRound hs _ _ _ _ _ hr =>
    have := hb.below (.inr (.inr (.inr hs)))
    obtain ⟨_, _, _, _, _, rfl⟩ := hr
    simp only [Proceeds, phasesLeft, hs, entered, setEpochState, roundClosed]
    omega

lemma CallStep.proceeds (he : c.phaseTime ≠ none) (st : CallStep P c op c') : Proceeds c c' := by
  cases st with
  | report hc =>
    refine .inr ⟨?_, hc.since⟩
    rw [phasesLeft, phasesLeft, hc.runState, hc.config, hc.progress]
  | start hs hc hr =>
    obtain ⟨_, _, _, _, _, rfl⟩ := hr
    simp [Proceeds, phasesLeft, hs, entered, setEpochState, hc.config, hc.progress]
  | witnessed hs hc => simp [Proceeds, phasesLeft, hs, entered, hc.config, hc.progress]
  | pauseNow hs =>
    obtain hs | hs := hs
    · simp [phaseTime, hs] at he
    · simp [Proceeds, phasesLeft, hs, entered]
  | resume hs => simp [phaseTime, hs] at he
  | update hh => cases hs : c.runState <;> simp_all [phaseTime, halted]

lemma perform_proceeds (o : Unit) (hb : Bounded c) (he : c.phaseTime ≠ none) (h : c.perform P op = .ok c') :
    c'.phasesLeft + (if expires ⟨c, op, o, c'⟩ then 1 else 0) ≤ c.phasesLeft := by
  have hp : Proceeds c c' := by
    obtain ⟨_, _, _, _, _, ht⟩ | hc := perform_inv h
    · exact (tick_inv ht).proceeds hb he
    · exact hc.proceeds he
  split
  · rename_i hx
    unfold expires at hx
    split at hx
    · rename_i hop hd
      obtain rfl : op = _ := hop
      simp only [perform, bind_eq_ok, Except.ok.injEq] at h
      obtain ⟨_, ht, rfl⟩ := h
      simp only [ne_eq, Bool.and_eq_true, decide_eq_true_eq] at hx
      have hstart := tick_expired hd hx ht
      obtain hlt | ⟨_, heq⟩ := hp
      · exact hlt
      · exact absurd (heq.symm.trans hstart) hx.1
    · cases hx
  · unfold Proceeds at hp
    omega

/-- Every epoch ends: whatever else happens in whatever order, of the ticks that go by in one epoch no more than two for each
step that is left, and two more, find the time of a phase over. -/
theorem epoch_ends {tr : Record} (r : (machineFrom P c0).Run tr c) (h0 : Bounded c0)
    (he : ∀ ev ∈ tr, ev.before.phaseTime ≠ none) :
    tr.countP expires + c.phasesLeft ≤ 2 * (c0.config.totalSteps - c0.progress.step) + 2 := by
  have hleft : c0.phasesLeft ≤ 2 * (c0.config.totalSteps - c0.progress.step) + 2 := by
    simp only [phasesLeft]
    split <;> omega
  refine r.history (P := fun tr c => (∀ ev ∈ tr, ev.before.phaseTime ≠ none) →
    tr.countP expires + c.phasesLeft ≤ 2 * (c0.config.totalSteps - c0.progress.step) + 2) ?_ ?_ he
  · rintro c rfl _
    simpa using hleft
  · intro tr c op c' o r ih st he
    obtain ⟨he, hrest⟩ := List.forall_mem_cons.mp he
    have hstep := perform_proceeds o (Bounded.of_run r h0) he (perform_of_step st)
    have := ih hrest
    rw [List.countP_cons]
    omega

/-- Two clients in warmup, of which nothing is heard any more. -/
def silent : Record × Coordinator :=
  let c0 := ((machine .zero).play [] .small [.tick (some .two) 5 0]).2
  (machineFrom .zero c0).play [] c0 [.tick none 15 0, .tick none 25 0, .tick none 35 0]

/-- Three phases expire while nobody reports, and the run is in the cooldown. -/
theorem epoch_ends_silent : silent.2.runState = .cooldown ∧ silent.1.countP expires = 3
    ∧ silent.1.countP expires + silent.2.phasesLeft ≤ 200 := by
  have hb : Bounded ((machine .zero).play [] .small [.tick (some .two) 5 0]).2 :=
    ⟨fun _ => by decide +kernel, fun _ => by decide +kernel⟩
  have r : (machineFrom .zero _).Run silent.1 silent.2 := (Machine.Run.init rfl).play _
  exact ⟨by decide +kernel, by decide +kernel, epoch_ends r hb (by decide +kernel)⟩

end Leviathan.Coordinator
