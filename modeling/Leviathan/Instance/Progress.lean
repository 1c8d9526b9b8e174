import Leviathan.Coordinator.Progress
import Leviathan.Instance.Epochs

/-!
# The progress of an account

The counters of the coordinator inside its account (`solana-coordinator/src/instance_state.rs`), where the owner may
replace configuration, model and progress while the run is halted.
-/

namespace Leviathan.InstanceState
open List
open Coordinator

section Steps
variable {P : Platform} {s s' : InstanceState} {clock : Clock} {ix : Instruction} {fx : List InstanceEffect}

lemma InstanceStep.course (st : InstanceStep P s fx s') :
    (∃ pending now seed r, s.coordinator.TickStep P pending now seed s'.coordinator r)
      ∨ (∃ op, CallStep P s.coordinator op s'.coordinator)
      ∨ ∃ step now, s'.coordinator
        = ({ s.coordinator with progress := { s.coordinator.progress with step } } : Coordinator).entered now
          ({ s.coordinator with progress := { s.coordinator.progress with step } } : Coordinator).betweenEpochs := by
  -- what leaves the coordinator alone is a call without effect
  have hsame : ∃ op, CallStep P s.coordinator op s.coordinator := ⟨.pause 0, .report (.refl _)⟩
  have hcall : ∀ {c : Coordinator} (op : Operation), s.coordinator.perform P op = .ok c →
      (∃ pending now seed r, s.coordinator.TickStep P pending now seed c r)
        ∨ ∃ op, CallStep P s.coordinator op c := by
    intro c op h
    obtain ⟨_, _, _, _, _, ht⟩ | hc := (roundStep_of_perform h).call
    · exact .inl ⟨_, _, _, _, ht⟩
    · exact .inr ⟨op, hc⟩
  rw [← or_assoc]
  cases st with
  | ticked ht hn =>
    rw [coordinator_of_noteStart hn]
    exact .inl (.inl ⟨_, _, _, _, ht⟩)
  | settle ht => exact .inl (.inl ⟨_, _, _, _, ht⟩)
  | witness hc => exact .inl (hcall (.witness _ _ _) hc)
  | warmupWitness hc => exact .inl (hcall (.warmupWitness _ _ _ _) hc)
  | healthCheck hc => exact .inl (.inr ⟨.healthCheck [], .report (Quiet.healthCheck hc).toSameCourse⟩)
  | checkpoint hc => exact .inl (hcall (.checkpoint _ _ _) hc)
  | eject _ hc => exact .inl (hcall (.eject _) hc)
  | pause hc => exact .inl (hcall (.pause _) hc)
  | unpause hc =>
    obtain ⟨_, _, step, rfl⟩ := unpause_inv hc
    exact .inr ⟨step, _, rfl⟩
  | register | rates | version => exact .inl (.inr hsame)
  | update hu =>
    obtain ⟨_, hh | ⟨rfl, rfl, rfl⟩, _, rfl⟩ := update_inv hu
    · exact .inl (.inr ⟨_, .update hh⟩)
    · exact .inl (.inr hsame)

lemma InstanceStep.bounded (h : Bounded s.coordinator) (st : InstanceStep P s fx s') : Bounded s'.coordinator := by
  obtain ⟨_, _, _, _, ht⟩ | ⟨_, hc⟩ | ⟨_, _, hc⟩ := st.course
  · exact h.tick ht
  · exact h.call hc
  · rw [hc]
    exact .between _ _ rfl rfl _

lemma tickStep_of_tick (h : s.tick P clock = .ok (s', fx)) :
    ∃ r, s.coordinator.TickStep P s.pendingIds clock.now (getRandomSeed P clock) s'.coordinator r := by
  obtain ⟨c, st, rfl, _⟩ | ⟨c, success, st, rfl, _⟩ := tick_inv_notes h
  · have hc : (s.ticking c).noted.coordinator = c := by
      unfold noted
      split <;> rfl
    exact ⟨_, hc ▸ st⟩
  · exact ⟨_, st⟩

lemma tickStep_ne_uninitialized {c c' : Coordinator} {pending : Option (List NodeIdentity)} {now seed : Nat}
    {r : TickResult} (st : c.TickStep P pending now seed c' r) : c'.runState ≠ .uninitialized := by
  cases r with
  | ticked =>
    obtain ⟨hs, rfl⟩ | ⟨_, _, hs, _⟩ | ⟨_, hs | hs, _⟩ | ⟨_, ha, _⟩ := tickStep_phases st
    · simp [hs]
    · simp [hs]
    · simp [hs]
    · simp [hs]
    · intro hu
      simp [Coordinator.active, hu] at ha
  | epochEnd success =>
    have hb : c.betweenEpochs ≠ .uninitialized := by
      obtain hb | hb := betweenEpochs_cases c <;> simp [hb]
    cases st with
    | warmAbort => exact hb
    | trainAbort => exact hb
    | endEpoch => exact hb
    | endEpochPaused => simp [entered]

/-- Whether an instruction completed a witness phase. -/
def completes (ev : Event InstanceState (Clock × Instruction) (List InstanceEffect)) : Bool :=
  ev.before.coordinator.runState == .roundWitness && ev.after.coordinator.runState != .roundWitness

/-- An instruction counts a step exactly if it completes a round. -/
lemma process_step (h : s.process P clock ix = .ok (s', fx)) (hu : s.coordinator.runState ≠ .uninitialized)
    (hix : ix.setsProgress = false) :
    s'.coordinator.runState ≠ .uninitialized
      ∧ s'.coordinator.progress.step
        = s.coordinator.progress.step + (if completes ⟨s, (clock, ix), fx, s'⟩ then 1 else 0) := by
  have hcomp : completes ⟨s, (clock, ix), fx, s'⟩ = true ↔
      s.coordinator.runState = .roundWitness ∧ s'.coordinator.runState ≠ .roundWitness := by
    simp [completes]
  obtain ⟨s1, _, hb, ht, _⟩ | ⟨hb, _⟩ := process_inv_tick h
  · have hp := (beforeTick_spec hb).prepared
    have hprog := hp.progress hu hix
    obtain ⟨r, st⟩ := tickStep_of_tick ht
    refine ⟨tickStep_ne_uninitialized st, ?_⟩
    rw [← hprog]
    -- outside of a witness phase that was open before, the tick counts no step
    have hsame : s.coordinator.runState ≠ .roundWitness →
        (s1.coordinator.runState = .roundWitness → s1.coordinator.runStateStartUnixTimestamp = clock.now) →
        s'.coordinator.progress.step
          = s1.coordinator.progress.step + (if completes ⟨s, (clock, ix), fx, s'⟩ then 1 else 0) := by
      intro hs hs1
      rw [if_neg fun hc => hs (hcomp.mp hc).1, Nat.add_zero]
      obtain ⟨hstep, _⟩ | ⟨_, hw, _, hn⟩ := st.step_eq
      · exact hstep
      · exact absurd (hs1 hw) hn
    cases hp.phase with
    | kept hs hf =>
      obtain ⟨hstep, hstay⟩ | ⟨hstep, hw, hleft, _⟩ := st.step_eq
      · rw [if_neg, hstep, Nat.add_zero]
        rw [hcomp]
        rintro ⟨hw, hne⟩
        exact hne (hstay (hs.trans hw))
      · rw [if_pos (hcomp.mpr ⟨hs.symm.trans hw, hleft⟩), hstep]
    | started hs hs' => exact hsame (by simp [hs]) (by simp [hs'])
    | witnessed hs hs' hn => exact hsame (by simp [hs]) fun _ => hn
    | resumed hs hs' hn =>
      refine hsame ?_ fun _ => hn
      obtain hs | hs := hs <;> simp [hs]
  · have hp := (beforeTick_spec hb).prepared
    rw [hp.progress hu hix, if_neg, Nat.add_zero]
    · refine ⟨?_, rfl⟩
      cases hp.phase with
      | kept hs hf => rwa [hs]
      | paused hs hs' => simp [hs']
    · rw [hcomp]
      rintro ⟨hw, hne⟩
      cases hp.phase with
      | kept hs hf => exact hne (hs.trans hw)
      | paused hs hs' => simp [hw] at hs

lemma process_finished (h : s.process P clock ix = .ok (s', fx)) (hs : s.coordinator.runState = .finished) :
    s'.coordinator.runState = .finished := by
  obtain ⟨s1, _, hb, ht, _⟩ | ⟨hb, _⟩ := process_inv_tick h
  · cases (beforeTick_spec hb).prepared.phase with
    | kept hs1 =>
      -- a halted account does not tick
      obtain (ho | ho | ho | ho) | ⟨ho, _⟩ := tick_phase ht <;> simp [hs1, hs] at ho
    | started hs1 | witnessed hs1 | resumed hs1 => simp [hs] at hs1
  · cases (beforeTick_spec hb).prepared.phase with
    | kept hs1 => exact hs1.trans hs
    | paused hs1 => simp [hs] at hs1

lemma step_eq_of_run {ev : Event InstanceState (Clock × Instruction) (List InstanceEffect)} {tr1 tr2 : Record}
    (r : (machine P).Run (tr1 ++ ev :: tr2) s) (hu : ev.after.coordinator.runState ≠ .uninitialized)
    (hix : ∀ ev' ∈ tr1, ev'.input.2.setsProgress = false) :
    s.coordinator.runState ≠ .uninitialized
      ∧ s.coordinator.progress.step = ev.after.coordinator.progress.step + tr1.countP completes := by
  induction tr1 generalizing s with
  | nil =>
    obtain ⟨_, _, rfl⟩ := r.cons_inv
    exact ⟨hu, rfl⟩
  | cons ev' tr1 ih =>
    obtain ⟨r', st, rfl⟩ := r.cons_inv
    obtain ⟨hu', hstep⟩ := ih r' fun e he => hix e (mem_cons_of_mem _ he)
    obtain ⟨hu'', hstep'⟩ := process_step st hu' (hix ev' mem_cons_self)
    refine ⟨hu'', hstep'.trans ?_⟩
    rw [hstep, countP_cons, Nat.add_assoc]

/-- In every run: while the account waits, warms up or trains there is a step left, in the cooldown at most none; a run that
is over stays so; and once the run has been started, between two updates of the progress the step grows by one with every
completed witness phase, and never otherwise. -/
theorem step_bound {tr : Record} (r : (machine P).Run tr s) :
    (s.coordinator.Unfinished → s.coordinator.progress.step < s.coordinator.config.totalSteps)
    ∧ (s.coordinator.runState = .cooldown → s.coordinator.progress.step ≤ s.coordinator.config.totalSteps)
    ∧ (∀ ev ∈ tr, ev.before.coordinator.runState = .finished → ev.after.coordinator.runState = .finished)
    ∧ (∀ tr1 ev tr2, tr = tr1 ++ ev :: tr2 → ev.after.coordinator.runState ≠ .uninitialized →
      (∀ ev' ∈ tr1, ev'.input.2.setsProgress = false) →
      s.coordinator.progress.step = ev.after.coordinator.progress.step + tr1.countP completes) := by
  have hb : Bounded s.coordinator := by
    refine r.invariant (I := fun s => Bounded s.coordinator) ?_ fun s i s' fx h st => ?_
    · rintro s ⟨v, rfl⟩
      exact .of_halted rfl
    · exact (process_chain st).invariant (I := fun s => Bounded s.coordinator) (fun _ _ _ => InstanceStep.bounded) h
  refine ⟨hb.below, hb.within, fun ev hev hs => ?_, ?_⟩
  · obtain ⟨_, _, st⟩ := r.mem hev
    exact process_finished st hs
  · rintro tr1 ev tr2 rfl hu hix
    exact (step_eq_of_run r hu hix).2

/-- A run of two clients into the second round of its first epoch. -/
def twoRounds : Record × InstanceState := runOf (opening ++
  [(⟨5, 1⟩, .joinRun 1 ⟨1, 0⟩), (⟨5, 1⟩, .joinRun 2 ⟨2, 0⟩), (⟨15, 1⟩, .tick),
    (⟨16, 1⟩, .witness 1 ⟨⟨0, 0, true⟩, .empty, .empty, 0⟩), (⟨25, 1⟩, .tick), (⟨35, 1⟩, .tick)])

/-- In training there is a step left. -/
theorem step_bound_twoRounds : twoRounds.2.coordinator.runState = .roundTrain
    ∧ twoRounds.2.coordinator.progress.step < twoRounds.2.coordinator.config.totalSteps := by
  have hs : twoRounds.2.coordinator.runState = .roundTrain := by decide +kernel
  exact ⟨hs, (step_bound (runOf_run _)).1 (.inr (.inr (.inl hs)))⟩

end Steps

section Survival
variable {P : Platform} {s s1 s2 : InstanceState} {clock1 clock2 : Clock} {fx1 fx2 : List InstanceEffect}

lemma coordinator_of_tick_at_start (h : s.tick P clock1 = .ok (s1, fx1))
    (hs : s.coordinator.runState = .waitingForMembers)
    (hn : s.coordinator.runStateStartUnixTimestamp = clock1.now) : s1.coordinator = s.coordinator := by
  obtain ⟨r, st⟩ := tickStep_of_tick h
  cases r with
  | ticked =>
    obtain ⟨_, hc⟩ | ⟨_, hne, _⟩ | ⟨hw, _⟩ | ⟨ha, _⟩ := tickStep_phases st
    · exact hc
    · exact absurd hn hne
    · simp [hs] at hw
    · simp [Coordinator.active, hs] at ha
  | epochEnd success =>
    have ho := (tickStep_epochEnd st).1
    simp [RunState.InEpoch, hs] at ho

lemma setPaused_progress (h : s.process P clock1 (.setPaused false) = .ok (s1, fx1)) :
    s1.coordinator.progress
      = if s.coordinator.runState = .uninitialized then { s.coordinator.progress with step := 1 }
        else s.coordinator.progress := by
  simp only [process, setPaused, Bool.false_eq_true, if_false, ClientsState.bumpNextActive, Exec.bind_eq_ok,
    Except.ok.injEq] at h
  obtain ⟨c, hc, _, ⟨_, _, rfl⟩, ht⟩ := h
  have hprog := unpause_progress hc
  obtain ⟨_, _, step, rfl⟩ := unpause_inv hc
  rw [← hprog]
  obtain hb | hb := betweenEpochs_cases
    ({ s.coordinator with progress := { s.coordinator.progress with step } } : Coordinator)
  · rw [coordinator_of_tick_at_start ht hb rfl]
  · -- a run that is over does not tick
    obtain (ho | ho | ho | ho) | ⟨ho, _⟩ := tick_phase ht <;> simp [entered, hb] at ho

/-- Progress that was accepted is where the run goes on after the next unpausing if and only if the run had been
started before, or the progress names the first step. -/
theorem progress_survives_iff {metadata : Option RunMetadata} {config : Option CoordinatorConfig}
    {model : Option Model} {progress : CoordinatorProgress}
    (hu : s.process P clock1 (.update metadata config model (some progress)) = .ok (s1, fx1))
    (hp : s1.process P clock2 (.setPaused false) = .ok (s2, fx2)) :
    s2.coordinator.progress = progress ↔ s.coordinator.runState = .paused ∨ progress.step = 1 := by
  simp only [process, Exec.bind_eq_ok, Exec.ok_pair] at hu
  obtain ⟨_, hu, rfl, _⟩ := hu
  have hprog := setPaused_progress hp
  obtain ⟨hf, hh | ⟨_, _, hno⟩, _, rfl⟩ := update_inv hu
  · have hprog' : s2.coordinator.progress
        = if s.coordinator.runState = .uninitialized then { progress with step := 1 } else progress := hprog
    rw [hprog']
    by_cases hs : s.coordinator.runState = .uninitialized
    · rw [if_pos hs, hs]
      constructor
      · intro e
        exact .inr (congrArg CoordinatorProgress.step e).symm
      · rintro (e | e)
        · cases e
        · rw [← e]
    · rw [if_neg hs]
      refine iff_of_true rfl (.inl ?_)
      unfold Coordinator.halted at hh
      cases hr : s.coordinator.runState <;> simp_all
  · cases hno

/-- A run that has been paused while members were awaited. -/
def pausedRun : List (Clock × Instruction) := opening ++ [(⟨1, 0⟩, .setPaused true)]

/-- An update to a later step. -/
def restart : Instruction := .update none none none (some ⟨0, 50, 784⟩)

/-- A paused run that is set to step 50 keeps it when it is resumed. -/
theorem progress_survives_restart :
    (runOf ((pausedRun ++ [(⟨2, 0⟩, restart)]) ++ [(⟨3, 0⟩, .setPaused false)])).2.coordinator.progress
      = ⟨0, 50, 784⟩ := by
  obtain ⟨_, hu⟩ := runOf_last pausedRun ⟨2, 0⟩ restart (by decide +kernel)
  obtain ⟨_, hp⟩ := runOf_last (pausedRun ++ [(⟨2, 0⟩, restart)]) ⟨3, 0⟩ (.setPaused false) (by decide +kernel)
  exact (progress_survives_iff hu hp).mpr (.inl (by decide +kernel))

/-- The first update of a new run, to a later step. -/
def configure : Instruction := .update none (some .small) (some .small) (some ⟨0, 50, 784⟩)

/-- A new run that is put to step 50, where the data begins at index 784, starts with step 1 and index 784. -/
theorem progress_lost :
    ∃ s1 fx1 s2 fx2, (created []).process .zero ⟨0, 0⟩ configure = .ok (s1, fx1)
      ∧ (s1.coordinator.getDataIndexForStep .zero 50 : Exec CoordinatorError Panic Nat) = .ok 784
      ∧ s1.process .zero ⟨0, 0⟩ (.setPaused false) = .ok (s2, fx2)
      ∧ s2.coordinator.progress = ⟨0, 1, 784⟩
      ∧ (s2.coordinator.getDataIndexForStep .zero 1 : Exec CoordinatorError Panic Nat) = .ok 0 := by
  obtain ⟨_, hu⟩ := runOf_last [] ⟨0, 0⟩ configure (by decide +kernel)
  obtain ⟨_, hp⟩ := runOf_last [(⟨0, 0⟩, configure)] ⟨0, 0⟩ (.setPaused false) (by decide +kernel)
  exact ⟨_, _, _, _, hu, by decide +kernel, hp, by decide +kernel, by decide +kernel⟩

end Survival
end Leviathan.InstanceState
