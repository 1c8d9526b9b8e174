import Leviathan.Instance.Progress

/-!
# Timeouts

The programs are built with overflow checks, so that the sums `duration + run_state_start_unix_timestamp` and
`start_timestamp + epoch_time` (Rust `check_timeout`, `check_epoch_timeout`) abort a tick if they do not fit 64 bits.
The check of a configuration bounds warmup and training by the time of the epoch, and witnessing, cooldown and the epoch
not at all. The other sums of a tick count steps, epochs, rounds, data, joins and pay.
-/

namespace Leviathan
open List

/-- The durations that the sanity check leaves open are bounded; the extra time is a single byte of the account. -/
structure CoordinatorConfig.Moderate (c : CoordinatorConfig) : Prop where
  epochTime : c.epochTime ≤ 2 ^ 63
  roundWitnessTime : c.roundWitnessTime ≤ 2 ^ 63
  cooldownTime : c.cooldownTime ≤ 2 ^ 63
  extraTime : c.waitingForMembersExtraTime < 2 ^ 8

lemma CoordinatorConfig.Moderate.durations {c : CoordinatorConfig} (h : c.Moderate) (hc : c.check = true) :
    ∀ d ∈ c.durations, d ≤ 2 ^ 63 := by
  obtain ⟨hwarm, ⟨_, htrain⟩, _⟩ := checked_of_check hc
  have hepoch := h.epochTime
  intro d hd
  simp only [CoordinatorConfig.durations, mem_cons, not_mem_nil, or_false] at hd
  rcases hd with rfl | rfl | rfl | rfl | rfl
  · exact (h.extraTime.trans (by decide)).le
  · omega
  · omega
  · exact h.roundWitnessTime
  · exact h.cooldownTime

namespace Coordinator
variable {P : Platform} {c c' : Coordinator} {pending : Option (List NodeIdentity)} {now seed : Nat} {r : TickResult}

/-- The configuration is moderate and the moments the sums start from are those of a clock. -/
structure Timely (c : Coordinator) : Prop where
  config : c.config.Moderate
  since : c.runStateStartUnixTimestamp < 2 ^ 63
  epochSince : c.epochState.startTimestamp < 2 ^ 63

lemma TickStep.since (st : c.TickStep P pending now seed c' r) :
    (c'.runStateStartUnixTimestamp = c.runStateStartUnixTimestamp ∨ c'.runStateStartUnixTimestamp = now)
      ∧ (c'.epochState.startTimestamp = c.epochState.startTimestamp ∨ c'.epochState.startTimestamp = now) := by
  cases st with
  | idle => exact ⟨.inl rfl, .inl rfl⟩
  | beginEpoch _ _ _ _ hb =>
    rw [hb.eq]
    exact ⟨.inr rfl, .inr rfl⟩
  | warm _ he => exact ⟨.inl rfl, .inl he.startTimestamp⟩
  | warmAbort _ he | coolEmpty _ _ he | cool _ _ he | endEpoch _ _ he | endEpochPaused _ _ he =>
    exact ⟨.inr rfl, .inl he.startTimestamp⟩
  | train _ _ hr => exact ⟨.inr hr.since.1, .inl hr.since.2⟩
  | trainAbort _ _ hr => exact ⟨.inr rfl, .inl hr.since.2⟩
  | witness => exact ⟨.inr rfl, .inl rfl⟩
  | nextRound _ _ he _ _ _ hr => exact ⟨.inr hr.since.1, .inl (hr.since.2.trans he.startTimestamp)⟩

/-- A tick notes the time of the clock, or nothing. -/
lemma Timely.tick (h : Timely c) (hn : now < 2 ^ 63) (st : c.TickStep P pending now seed c' r) : Timely c' := by
  obtain ⟨hs, he⟩ := st.since
  refine ⟨?_, ?_, ?_⟩
  · rw [InstanceState.tickStep_config st]
    exact h.config
  · obtain e | e := hs
    · exact e ▸ h.since
    · exact e ▸ hn
  · obtain e | e := he
    · exact e ▸ h.epochSince
    · exact e ▸ hn

lemma checkTimeout_overflow {ε : Type} {d : Nat} (hn : c.runStateStartUnixTimestamp ≠ now)
    (h : 2 ^ 64 ≤ d + c.runStateStartUnixTimestamp) :
    (c.checkTimeout now d : Exec ε Panic Bool) = Exec.abort .overflow := by
  unfold checkTimeout addU
  rw [if_neg hn, if_neg h.not_gt]
  rfl

lemma tick_roundWitness_overflow (hs : c.runState = .roundWitness) (hn : c.runStateStartUnixTimestamp ≠ now)
    (h : 2 ^ 64 ≤ c.config.roundWitnessTime + c.runStateStartUnixTimestamp) :
    c.tick P pending now seed = Exec.abort .overflow := by
  unfold Coordinator.tick
  rw [hs]
  show c.tickRoundWitness P now seed = _
  unfold tickRoundWitness
  rw [checkTimeout_overflow hn h]
  rfl

end Coordinator

namespace InstanceState
open Coordinator
variable {P : Platform} {s s' : InstanceState} {clock : Clock} {ix : Instruction} {fx : List InstanceEffect}

lemma Prepared.timely {s1 : InstanceState} {ticks : Bool} (hp : Prepared ix clock.now ticks s s1)
    (h : Timely s.coordinator) (hn : clock.now < 2 ^ 63) (hix : ∀ config ∈ ix.newConfig, config.Moderate) :
    Timely s1.coordinator := by
  refine ⟨?_, ?_, hp.epochSince ▸ h.epochSince⟩
  · rw [hp.config]
    cases hc : ix.newConfig with
    | none => exact h.config
    | some config => exact hix config hc
  · obtain e | e := hp.since
    · exact e ▸ h.since
    · exact e ▸ hn

lemma process_timely (h : Timely s.coordinator) (hn : clock.now < 2 ^ 63)
    (hix : ∀ config ∈ ix.newConfig, config.Moderate) (hok : s.process P clock ix = .ok (s', fx)) :
    Timely s'.coordinator := by
  obtain ⟨s1, _, hb, ht, _⟩ | ⟨hb, _⟩ := process_inv_tick hok
  · obtain ⟨_, st⟩ := tickStep_of_tick ht
    exact ((beforeTick_spec hb).prepared.timely h hn hix).tick hn st
  · exact (beforeTick_spec hb).prepared.timely h hn hix

/-- Sums start from times of a clock and add moderate spans. -/
lemma timely_of_run {tr : Record} (r : (machine P).Run tr s) (hn : ∀ ev ∈ tr, ev.input.1.now < 2 ^ 63)
    (hix : ∀ ev ∈ tr, ∀ config ∈ ev.input.2.newConfig, config.Moderate) : Timely s.coordinator := by
  induction r with
  | init h =>
    obtain ⟨_, rfl⟩ := h
    show Timely (created []).coordinator
    exact ⟨⟨by decide, by decide, by decide, by decide⟩, by decide, by decide⟩
  | accept _ st ih =>
    have h := ih (fun e he => hn e (mem_cons_of_mem _ he)) fun e he => hix e (mem_cons_of_mem _ he)
    exact process_timely h (hn _ mem_cons_self) (hix _ mem_cons_self) st
  | reject _ _ ih => exact ih hn hix

/-- The counters of an account have room for what a tick adds to them. -/
structure HasRoom (P : Platform) (s : InstanceState) : Prop where
  step : s.coordinator.progress.step + 3 < 2 ^ 32
  epoch : s.coordinator.progress.epoch + 1 < 2 ^ 16
  height : s.coordinator.currentRound.height + 1 < 2 ^ 32
  data : s.coordinator.InRange P
  nextActive : s.clientsState.nextActive + 1 < 2 ^ 64
  records : ∀ x ∈ s.clientsState.clients.toList,
    x.earned + s.clientsState.currentEpochRates.earningRateTotalShared < 2 ^ 64
      ∧ x.slashed + s.clientsState.currentEpochRates.slashingRatePerClient < 2 ^ 64

/-- A client earns at most all that is shared. -/
lemma earnedShare_le (c : Coordinator) (rates : ClientsEpochRates) : earnedShare c rates ≤ rates.earningRateTotalShared := by
  unfold earnedShare
  split
  · exact Nat.zero_le _
  · exact Nat.div_le_self _ _

/-- Records with room are settled. -/
lemma settle_safe {bad : Panic → Prop} (h : ∀ x ∈ s.clientsState.clients.toList,
      x.earned + s.clientsState.currentEpochRates.earningRateTotalShared < 2 ^ 64
        ∧ x.slashed + s.clientsState.currentEpochRates.slashingRatePerClient < 2 ^ 64) (success : Bool) :
    Exec.Safe bad (s.settle success) := by
  refine .bind (.ensure fun hn => absurd (all_eq_true.mpr fun x hx => ?_) hn) fun _ _ => .ok _
  obtain ⟨hearned, hslashed⟩ := h x hx
  have hshare := earnedShare_le s.coordinator s.clientsState.currentEpochRates
  simp only [settlementFits, Bool.and_eq_true, Bool.or_eq_true, decide_eq_true_eq]
  exact ⟨.inr (by omega), .inr hslashed⟩

/-- The first ticks of an epoch are noted as long as joins can be counted. -/
lemma noteStart_safe {bad : Panic → Prop} (h : s.clientsState.nextActive + 1 < 2 ^ 64) : Exec.Safe bad s.noteStart := by
  unfold noteStart
  split
  · exact .ok _
  · split
    · exact .bind (.bind (addU_safe_of fun _ => h) fun _ _ => .ok _) fun _ _ => .ok _
    · exact .ok _

/-- In every run at moments below `2 ^ 63` whose accepted configurations keep the times of epoch, witnessing and
cooldown to `2 ^ 63`, no tick aborts in a state whose counters have room. -/
theorem tick_never_aborts {tr : Record} (r : (machine P).Run tr s) (hn : ∀ ev ∈ tr, ev.input.1.now < 2 ^ 63)
    (hix : ∀ ev ∈ tr, ∀ config ∈ ev.input.2.newConfig, config.Moderate) (hroom : s.HasRoom P) (clock : Clock)
    (p : Panic) : s.tick P clock ≠ .error (.panic p) := by
  have h := timely_of_run r hn hix
  have hsound := (reachable_of_run r).sound
  obtain ⟨_, hroster, _⟩ := hsound.roster
  suffices hsafe : Exec.Safe (fun _ => True) (s.tick P clock) from fun hp => hsafe p hp trivial
  by_cases hs : s.coordinator.runState = .uninitialized
  · unfold tick Coordinator.tick
    rw [hs]
    exact .fail _
  · have hfits : s.coordinator.TickFits P := by
      refine ⟨fun d hd => ?_, ?_, hroom.step, hroom.epoch, hroom.height, hroom.data⟩
      · have hd := h.config.durations (hsound.config hs) d hd
        have hsince := h.since
        omega
      · have hepoch := h.config.epochTime
        have hsince := h.epochSince
        omega
    refine .bind (.mapErr (tick_safe hroster (fun _ => hfits) _ _ _)) fun ticked _ => ?_
    obtain ⟨c, result⟩ := ticked
    have hclients : ({ s.resetFlags with coordinator := c } : InstanceState).clientsState = s.clientsState := by
      unfold resetFlags
      split <;> rfl
    cases result with
    | ticked => exact .bind (noteStart_safe (hclients ▸ hroom.nextActive)) fun _ _ => .ok _
    | epochEnd success => exact settle_safe (hclients ▸ hroom.records) success

lemma twoRounds_inputs : ∀ ev ∈ twoRounds.1,
    ev.input.1.now < 2 ^ 63 ∧ ∀ config ∈ ev.input.2.newConfig, config = .small := by
  have h : ∀ ev ∈ twoRounds.1, ev.input.1.now < 2 ^ 63
      ∧ (ev.input.2.newConfig = none ∨ ev.input.2.newConfig = some .small) := by decide +kernel
  intro ev hev
  obtain ⟨hn, hc | hc⟩ := h ev hev
  · exact ⟨hn, by simp [hc]⟩
  · exact ⟨hn, by simp [hc]⟩

/-- A tick in the second round does not overflow. -/
theorem tick_never_aborts_twoRounds : twoRounds.2.coordinator.runState = .roundTrain
    ∧ twoRounds.2.tick .zero ⟨40, 1⟩ ≠ .error (.panic .overflow) := by
  have hsmall : CoordinatorConfig.small.Moderate := ⟨by decide, by decide, by decide, by decide⟩
  have hroom : twoRounds.2.HasRoom .zero := by
    refine ⟨?_, ?_, ?_, ⟨?_, ?_⟩, ?_, ?_⟩ <;> decide +kernel
  refine ⟨by decide +kernel, ?_⟩
  refine tick_never_aborts (runOf_run _) (fun ev hev => (twoRounds_inputs ev hev).1) ?_ hroom ⟨40, 1⟩ .overflow
  intro ev hev config hc
  rw [(twoRounds_inputs ev hev).2 config hc]
  exact hsmall

/-- A configuration with the longest witness phase that the account can hold. -/
def longWitness : CoordinatorConfig := { CoordinatorConfig.small with roundWitnessTime := 2 ^ 64 - 1 }

/-- A run of two clients into the witness phase of its first round. -/
def stuckRun : Record × InstanceState := runOf
  [(⟨0, 0⟩, .update none (some longWitness) (some .small) none), (⟨0, 0⟩, .setPaused false),
    (⟨5, 1⟩, .joinRun 1 ⟨1, 0⟩), (⟨5, 1⟩, .joinRun 2 ⟨2, 0⟩), (⟨15, 1⟩, .tick), (⟨25, 1⟩, .tick)]

/-- A configuration that passes the sanity check takes a run into a witness phase in which every tick at a later
moment aborts. -/
theorem timeouts_overflow : longWitness.check = true
    ∧ (machine .zero).Run stuckRun.1 stuckRun.2
    ∧ (∀ ev ∈ stuckRun.1, ev.input.1.now < 2 ^ 63)
    ∧ stuckRun.2.coordinator.config = longWitness
    ∧ stuckRun.2.coordinator.runState = .roundWitness
    ∧ ∀ clock : Clock, stuckRun.2.coordinator.runStateStartUnixTimestamp < clock.now →
      stuckRun.2.tick .zero clock = .error (.panic .overflow) := by
  refine ⟨by decide, runOf_run _, by decide +kernel, by decide +kernel, by decide +kernel, ?_⟩
  intro clock hn
  have hs : stuckRun.2.coordinator.runState = .roundWitness := by decide +kernel
  have hlong : 2 ^ 64 ≤ stuckRun.2.coordinator.config.roundWitnessTime
      + stuckRun.2.coordinator.runStateStartUnixTimestamp := by decide +kernel
  unfold InstanceState.tick
  rw [tick_roundWitness_overflow hs hn.ne hlong]
  rfl

end InstanceState
end Leviathan
