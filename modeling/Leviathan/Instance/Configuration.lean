import Leviathan.Instance.Progress

/-!
# The configuration of an account

The owner of an account (`solana-coordinator/src/instance_state.rs`) may replace its configuration while the run is
halted, and clients may register at any time. The configuration in force is the last one that was accepted
(`config_of_process`), and the zeroed one of a new account until then.
-/

namespace Leviathan
open Exec List

def CoordinatorConfig.zeroed : CoordinatorConfig := ⟨0, 0, 0, 0, 0, 0, 0, 0, 0, 0, 0, 0, 0, 0⟩

namespace InstanceState
open Coordinator

def registered (s : InstanceState) : Nat := s.clientsState.clients.len

/-- How many clients were registered when the configuration in force was accepted. -/
def registeredAtConfig : Record → Nat
  | [] => 0
  | ev :: tr => if ev.input.2.newConfig.isSome then ev.before.registered else registeredAtConfig tr

def Configured (tr : Record) : Prop := ∃ ev ∈ tr, ev.input.2.newConfig.isSome = true

instance (tr : Record) : Decidable (Configured tr) := inferInstanceAs (Decidable (∃ ev ∈ tr, _))

/-- What an instruction does to the number of registered clients. -/
inductive Registers (s s' : InstanceState) (ix : Instruction) : Prop where
  | same :
    (∀ user id, ix = .joinRun user id → id.signer ∈ s.recordKeys) →
    s'.registered = s.registered →
    Registers s s' ix
  | joins :
    ix.newConfig = none →
    s.coordinator.config.globalBatchSizeEnd ≠ s.registered →
    s'.registered = s.registered + 1 →
    Registers s s' ix

section Registration
variable {P : Platform} {s s' s1 : InstanceState} {clock : Clock} {ix : Instruction} {fx : List InstanceEffect}
  {id : NodeIdentity} {cs : ClientsState} {ticks : Bool} {tr : Record}

lemma register_known (hk : id.signer ∈ s.recordKeys) (h : s.register id = .ok cs) :
    cs.clients.len = s.registered := by
  obtain ⟨_, _, _, _, rfl⟩ | ⟨hnew, _⟩ := register_inv h
  · simp [registered, FixedVec.len]
  · obtain ⟨r, hr, e⟩ := mem_map.mp hk
    exact absurd e (hnew r hr)

lemma register_new (hk : id.signer ∉ s.recordKeys) (h : s.register id = .ok cs) :
    s.coordinator.config.globalBatchSizeEnd ≠ s.registered ∧ cs.clients.len = s.registered + 1 := by
  unfold register at h
  dsimp only at h
  split at h
  · rename_i index hi
    obtain ⟨hlt, hp, _⟩ := findIdx?_eq_some_iff_getElem.mp hi
    exact absurd (mem_map.mpr ⟨_, getElem_mem hlt, NodeIdentity.beq_iff.mp hp⟩) hk
  · simp only [bind_eq_ok, require_eq_ok, okOr_eq_ok, FixedVec.push_eq_some, Except.ok.injEq] at h
    obtain ⟨_, hne, clients, ⟨_, hcl⟩, rfl⟩ := h
    -- the number of records is far below the range of `u16`
    have hlen : asU16 s.clientsState.clients.len = s.registered :=
      asU16_of_lt (lt_of_le_of_lt s.clientsState.clients.bound (by decide))
    refine ⟨hlen ▸ hne, ?_⟩
    simp [registered, FixedVec.len, hcl]

lemma registers_of_beforeTick (h : s.beforeTick P clock ix = .ok (s1, fx, ticks)) : Registers s s1 ix := by
  obtain ⟨user, id, cs, rfl, hr, rfl⟩ | ⟨hix, hclients⟩ := (beforeTick_spec h).records
  · by_cases hk : id.signer ∈ s.recordKeys
    · refine .same ?_ (register_known hk hr)
      rintro _ _ ⟨⟩
      exact hk
    · obtain ⟨hne, hlen⟩ := register_new hk hr
      exact .joins rfl hne hlen
  · refine .same (fun user id e => absurd e (hix user id)) ?_
    rw [registered, registered, hclients]

lemma registered_of_tick (h : s.tick P clock = .ok (s', fx)) : s'.registered = s.registered := by
  have hticking : ∀ c, (s.ticking c).registered = s.registered := fun c => by
    rw [registered, clientsState_ticking, registered]
  obtain ⟨c, _, rfl, _⟩ | ⟨c, _, _, rfl, _⟩ := tick_inv_notes h
  · rw [← hticking c]
    unfold noted
    split <;> rfl
  · rw [← hticking c]
    simp [registered, settled, FixedVec.len]

lemma registers_of_process (h : s.process P clock ix = .ok (s', fx)) : Registers s s' ix := by
  obtain ⟨s1, _, hb, ht, _⟩ | ⟨hb, _⟩ := process_inv_tick h
  · have hs := registered_of_tick ht
    cases registers_of_beforeTick hb with
    | same hk hs1 => exact .same hk (hs.trans hs1)
    | joins hn hne hs1 => exact .joins hn hne (hs.trans hs1)
  · exact registers_of_beforeTick hb

lemma config_of_process (h : s.process P clock ix = .ok (s', fx)) :
    s'.coordinator.config = ix.newConfig.getD s.coordinator.config := by
  obtain ⟨s1, _, hb, ht, _⟩ | ⟨hb, _⟩ := process_inv_tick h
  · obtain ⟨_, st⟩ := tickStep_of_tick ht
    rw [tickStep_config st]
    exact (beforeTick_spec hb).prepared.config
  · exact (beforeTick_spec hb).prepared.config

/-- Since the configuration was accepted clients have only come, and no more than there are batches unless they were more
from the beginning. -/
structure Filled (tr : Record) (s : InstanceState) : Prop where
  grown : registeredAtConfig tr ≤ s.registered
  stopped : registeredAtConfig tr ≤ s.coordinator.config.globalBatchSizeEnd →
    s.registered ≤ s.coordinator.config.globalBatchSizeEnd

/-- A client registers only while there are more batches than clients. -/
lemma Filled.step (hf : Filled tr s) (h : s.process P clock ix = .ok (s', fx)) :
    Filled (⟨s, (clock, ix), fx, s'⟩ :: tr) s' := by
  have hcfg := config_of_process h
  cases hn : ix.newConfig with
  | none =>
    have hat : registeredAtConfig (⟨s, (clock, ix), fx, s'⟩ :: tr) = registeredAtConfig tr := by
      simp [registeredAtConfig, hn]
    rw [hn, Option.getD_none] at hcfg
    have hgrown := hf.grown
    have hstopped := hf.stopped
    cases registers_of_process h with
    | same _ hs =>
      refine ⟨by rw [hat, hs]; exact hgrown, ?_⟩
      rw [hat, hcfg, hs]
      exact hstopped
    | joins _ hne hs =>
      refine ⟨by omega, ?_⟩
      rw [hat, hcfg, hs]
      intro hle
      have := hstopped hle
      omega
  | some config =>
    -- nobody registers with an update
    have hs : s'.registered = s.registered := by
      cases registers_of_process h with
      | same _ hs => exact hs
      | joins hnone => cases hnone.symm.trans hn
    have hat : registeredAtConfig (⟨s, (clock, ix), fx, s'⟩ :: tr) = s.registered := by
      simp [registeredAtConfig, hn]
    exact ⟨by rw [hat, hs], by rw [hat, hs]; exact id⟩

lemma filled_of_run (r : (machine P).Run tr s) : Filled tr s := by
  refine r.history (P := Filled) ?_ fun _ _ _ _ _ _ hf st => hf.step st
  rintro s ⟨v, rfl⟩
  exact ⟨Nat.le_refl 0, fun _ => Nat.le_refl 0⟩

/-- In every run, a client registers only while fewer are registered than the configuration has batches, and gets one
of them, if and only if no more clients than that were registered when the configuration was accepted. -/
theorem new_join_below_iff {user : Pubkey} (r : (machine P).Run tr s) (hnew : id.signer ∉ s.recordKeys)
    (h : s.process P clock (.joinRun user id) = .ok (s', fx)) :
    (s.registered < s.coordinator.config.globalBatchSizeEnd
      ∧ s'.registered ≤ s'.coordinator.config.globalBatchSizeEnd)
      ↔ registeredAtConfig tr ≤ s.coordinator.config.globalBatchSizeEnd := by
  have hfilled := filled_of_run r
  have hcfg : s'.coordinator.config = s.coordinator.config := config_of_process h
  rw [hcfg]
  have hgrown := hfilled.grown
  cases registers_of_process h with
  | same hk => exact absurd (hk _ _ rfl) hnew
  | joins _ hne hs =>
    rw [hs]
    constructor
    · rintro ⟨hlt, _⟩
      omega
    · intro hle
      have hstopped := hfilled.stopped hle
      exact ⟨by omega, by omega⟩

/-- The first client registers, and there are batches enough for it. -/
theorem new_join_below_opening : ∃ s' fx, (runOf opening).2.process .zero ⟨0, 0⟩ (.joinRun 1 ⟨1, 0⟩) = .ok (s', fx)
    ∧ (runOf opening).2.registered < (runOf opening).2.coordinator.config.globalBatchSizeEnd
    ∧ s'.registered ≤ s'.coordinator.config.globalBatchSizeEnd := by
  obtain ⟨_, h⟩ := runOf_last opening ⟨0, 0⟩ (.joinRun 1 ⟨1, 0⟩) (by decide +kernel)
  have hat : registeredAtConfig (runOf opening).1 ≤ (runOf opening).2.coordinator.config.globalBatchSizeEnd := by
    decide +kernel
  exact ⟨_, _, h, (new_join_below_iff (runOf_run opening) (by decide +kernel) h).mpr hat⟩

/-- Two clients have registered, and a configuration with a single batch is accepted. -/
def oneBatch : List (Clock × Instruction) := opening ++
  [(⟨0, 0⟩, .joinRun 1 ⟨1, 0⟩), (⟨0, 0⟩, .joinRun 2 ⟨2, 0⟩), (⟨0, 0⟩, .setPaused true),
    (⟨0, 0⟩, .update none (some { CoordinatorConfig.small with globalBatchSizeStart := 1, globalBatchSizeEnd := 1 })
      none none)]

/-- A third client registers although there are more than batches already. -/
theorem new_join_above : (machine .zero).Run (runOf oneBatch).1 (runOf oneBatch).2
    ∧ (3 : Pubkey) ∉ (runOf oneBatch).2.recordKeys
    ∧ ∃ s' fx, (runOf oneBatch).2.process .zero ⟨0, 0⟩ (.joinRun 3 ⟨3, 0⟩) = .ok (s', fx)
      ∧ (runOf oneBatch).2.coordinator.config.globalBatchSizeEnd = 1 ∧ s'.coordinator.config.globalBatchSizeEnd = 1
      ∧ (runOf oneBatch).2.registered = 2 ∧ s'.registered = 3 := by
  obtain ⟨_, h⟩ := runOf_last oneBatch ⟨0, 0⟩ (.joinRun 3 ⟨3, 0⟩) (by decide +kernel)
  exact ⟨runOf_run _, by decide +kernel, _, _, h, by decide +kernel, by decide +kernel, by decide +kernel,
    by decide +kernel⟩

end Registration

section Updates
variable {P : Platform} {s s' : InstanceState} {clock : Clock} {ix : Instruction} {fx : List InstanceEffect}
  {tr : Record} {bad : Panic → Prop} {metadata : Option RunMetadata} {progress : Option CoordinatorProgress}
  {ε : Type} {c : Coordinator}

lemma check_of_newConfig {config : CoordinatorConfig} (h : s.process P clock ix = .ok (s', fx))
    (hn : ix.newConfig = some config) : config.check = true := by
  cases ix with
  | update metadata config' model progress =>
    simp only [process, bind_eq_ok] at h
    obtain ⟨_, hu, _⟩ := h
    exact (update_inv hu).2.2.1 config hn
  | _ => cases hn

/-- A configuration has been checked, or there has been none. -/
lemma config_of_run (r : (machine P).Run tr s) :
    (Configured tr → s.coordinator.config.check = true) ∧ (¬ Configured tr → s.coordinator.config = .zeroed) := by
  refine r.history (P := fun tr s => (Configured tr → s.coordinator.config.check = true)
    ∧ (¬ Configured tr → s.coordinator.config = .zeroed)) ?_ fun tr s i s' fx _ ih st => ?_
  · rintro s ⟨v, rfl⟩
    refine ⟨?_, fun _ => rfl⟩
    rintro ⟨_, hev, _⟩
    cases hev
  · obtain ⟨clock, ix⟩ := i
    have hcfg := config_of_process st
    cases hn : ix.newConfig with
    | none =>
      have hiff : Configured (⟨s, (clock, ix), fx, s'⟩ :: tr) ↔ Configured tr := by simp [Configured, hn]
      rw [hiff, hcfg, hn]
      exact ih
    | some config =>
      have hconf : Configured (⟨s, (clock, ix), fx, s'⟩ :: tr) := ⟨_, mem_cons_self, by simp [hn]⟩
      refine ⟨fun _ => ?_, fun hno => absurd hconf hno⟩
      rw [hcfg, hn]
      exact check_of_newConfig st hn

lemma checkColdStartWarmupSteps_safe (h : c.model.llm.coldStartWarmupSteps ≠ 0 → c.config.check = true) :
    Exec.Safe bad (c.checkColdStartWarmupSteps : Exec ε Panic Bool) := by
  unfold checkColdStartWarmupSteps
  split
  · exact .ok _
  · rename_i hsteps
    have hc := CoordinatorConfig.checked_of_check (h hsteps)
    rw [subU_of_le hc.warmupTime.le]
    refine .bind (.ok _) fun _ _ => .bind (.ensure fun hzero => ?_) fun _ _ => .ok _
    exact absurd hc.trainTime.1 hzero

lemma checkColdStartWarmupSteps_zeroed (hc : c.config = .zeroed) (h : c.model.llm.coldStartWarmupSteps ≠ 0) :
    (c.checkColdStartWarmupSteps : Exec ε Panic Bool) = .error (.panic .divisionByZero) := by
  unfold checkColdStartWarmupSteps
  rw [if_neg h, hc]
  rfl

lemma update_safe {config : Option CoordinatorConfig} {model : Option Model}
    (h : config = none → ∀ m ∈ model, m.check = true → m.llm.coldStartWarmupSteps ≠ 0 →
      s.coordinator.config.check = true) :
    Exec.Safe bad (s.update metadata config model progress) := by
  refine .bind (.require _ _) fun _ _ => .bind (.require _ _) fun _ _ => .bind (.require _ _) fun _ hcfg =>
    .bind (.require _ _) fun _ hmodel => .bind ?_ fun _ _ => .bind (.require _ _) fun _ _ =>
    .bind (.require _ _) fun _ _ => .ok _
  rw [require_eq_ok] at hcfg hmodel
  unfold checkColdStart
  split
  · rename_i hchanged
    refine checkColdStartWarmupSteps_safe fun hsteps => ?_
    cases config with
    | some config => exact hcfg config rfl
    | none =>
      cases model with
      | some m => exact h rfl m rfl (hmodel m rfl) hsteps
      | none => cases hchanged
  · exact .ok _

lemma update_divides {m : Model} (hs : s.coordinator.runState = .uninitialized)
    (hcfg : s.coordinator.config = .zeroed) (hcheck : m.check = true) (hsteps : m.llm.coldStartWarmupSteps ≠ 0) :
    s.update metadata none (some m) progress = .error (.panic .divisionByZero) := by
  have hcold : checkColdStart { s.coordinator with config := .zeroed, model := m } true
      = .error (.panic .divisionByZero) := checkColdStartWarmupSteps_zeroed rfl hsteps
  have hhalted : s.coordinator.halted = true := by simp [Coordinator.halted, hs]
  have hstate : s.coordinator.runState ≠ .finished := by simp [hs]
  simp only [update, Exec.require, hhalted, hstate, hcfg, hcheck, Option.getD_none, Option.getD_some, Option.mem_def,
    Option.some.injEq, forall_eq', reduceCtorEq, IsEmpty.forall_iff, implies_true, if_true, ok_bind, ne_eq,
    not_false_eq_true, true_or, Option.isSome, Bool.or_true, hcold, error_bind]

lemma pause_safe (c : Coordinator) (now : Nat) : Exec.Safe bad (c.pause now) := by
  unfold Coordinator.pause
  split
  · exact .fail _
  · rename_i hh
    split
    · exact .ok _
    · refine .bind (.bind (.ensure fun hsame => ?_) fun _ _ => .ok _) fun _ _ => .ok _
      rw [withdrawAll_eq] at hsame
      exact absurd (fun (hp : c.runState = .paused) => hh (by simp [Coordinator.halted, hp])) hsame

lemma resume_safe (c : Coordinator) (now : Nat) : Exec.Safe bad (c.resume now) := by
  refine .bind (.require _ _) fun _ hp => .bind (.ensure fun hsame => ?_) fun _ _ => .ok _
  rw [require_eq_ok] at hp
  obtain hb | hb := betweenEpochs_cases c <;> simp [hp, hb] at hsame

lemma unpause_safe (c : Coordinator) (now : Nat) : Exec.Safe bad (unpause c now) := by
  refine .bind (.require _ _) fun _ hcfg => .bind (.require _ _) fun _ _ => ?_
  rw [require_eq_ok] at hcfg
  exact .bind (checkColdStartWarmupSteps_safe fun _ => hcfg) fun _ _ => .bind (.require _ _) fun _ _ =>
    .bind (.require _ _) fun _ _ => .mapErr (resume_safe _ _)

lemma noteStart_waiting (hs : s.coordinator.runState = .waitingForMembers) : s.noteStart = .ok s := by
  simp [noteStart, isWarmupJustStarting, isTrainingJustStarting, hs]

lemma tick_safe_at_start (hs : s.coordinator.runState = .waitingForMembers ∨ s.coordinator.runState = .finished)
    (hn : s.coordinator.runStateStartUnixTimestamp = clock.now) : Exec.Safe bad (s.tick P clock) := by
  obtain hs | hs := hs
  · have htick : s.coordinator.tick P s.pendingIds clock.now (getRandomSeed P clock) = .ok (s.coordinator, .ticked) := by
      simp only [Coordinator.tick, hs, tickWaitingForMembers, checkTimeout, if_pos hn]
      split
      · rfl
      · split <;> rfl
    unfold tick
    rw [htick]
    change Exec.Safe bad ((s.ticking s.coordinator).noteStart >>= fun s => .ok (s, []))
    have hw : (s.ticking s.coordinator).coordinator.runState = .waitingForMembers := hs
    rw [noteStart_waiting hw]
    exact .ok _
  · unfold tick Coordinator.tick
    rw [hs]
    exact .fail _

/-- Unpausing aborts only when the joins are counted. -/
lemma setPaused_safe_iff (clock : Clock) (paused : Bool) : Exec.Safe (fun _ => True) (s.setPaused P clock paused)
    ↔ (paused = false → ∀ c, unpause s.coordinator clock.now = .ok c → s.clientsState.nextActive + 1 < 2 ^ 64) := by
  constructor
  · rintro hsafe rfl c hc
    by_contra hn
    refine hsafe .overflow ?_ trivial
    have hbump : s.clientsState.bumpNextActive = .error (.panic .overflow) := by
      rw [ClientsState.bumpNextActive, addU, if_neg hn]
      rfl
    rw [setPaused, if_neg (by decide), hc, ok_bind, hbump, error_bind]
  · intro h
    cases paused with
    | true => exact .bind (.mapErr (pause_safe _ _)) fun _ _ => .ok _
    | false =>
      refine .bind (unpause_safe _ _) fun c hc => .bind (.bind ?_ fun _ _ => .ok _) fun _ _ => ?_
      · rw [addU_eq_ok.mpr ⟨h rfl c hc, rfl⟩]
        exact .ok _
      · obtain ⟨_, _, step, rfl⟩ := unpause_inv hc
        exact tick_safe_at_start (betweenEpochs_cases _) rfl

/-- In every run: an update does not abort if and only if it does not bring a model with a cold start and no
configuration to an account that has none; pausing does not abort, and unpausing does if and only if the run can be
unpaused and the count of joins does not fit. -/
theorem updates_clean (r : (machine P).Run tr s) :
    (∀ metadata config model progress, Exec.Safe (fun _ => True) (s.update metadata config model progress)
      ↔ (config = none → ∀ m ∈ model, m.check = true → m.llm.coldStartWarmupSteps ≠ 0 → Configured tr))
    ∧ ∀ clock paused, Exec.Safe (fun _ => True) (s.setPaused P clock paused)
      ↔ (paused = false → ∀ c, unpause s.coordinator clock.now = .ok c → s.clientsState.nextActive + 1 < 2 ^ 64) := by
  obtain ⟨hchecked, hzeroed⟩ := config_of_run r
  refine ⟨fun metadata config model progress => ⟨fun hsafe => ?_, fun h => ?_⟩, setPaused_safe_iff⟩
  · rintro rfl m hm hcheck hsteps
    by_contra hno
    have hcfg := hzeroed hno
    -- an account without a configuration has not been started
    have hu : s.coordinator.runState = .uninitialized := by
      by_contra hu
      have hsound := (reachable_of_run r).sound
      have hcheck := hsound.config hu
      rw [hcfg] at hcheck
      cases hcheck
    refine hsafe .divisionByZero ?_ trivial
    cases hm
    exact update_divides hu hcfg hcheck hsteps
  · exact update_safe fun hnone m hm hcheck hsteps => hchecked (h hnone m hm hcheck hsteps)

/-- On a new run no update and no change of the pause aborts. -/
theorem updates_clean_opening :
    (∀ metadata config model progress,
      Exec.Safe (fun _ => True) ((runOf opening).2.update metadata config model progress))
    ∧ ∀ clock paused, Exec.Safe (fun _ => True) ((runOf opening).2.setPaused .zero clock paused) := by
  have hconf : Configured (runOf opening).1 := by decide +kernel
  have hnext : (runOf opening).2.clientsState.nextActive + 1 < 2 ^ 64 := by decide +kernel
  obtain ⟨hupdate, hpause⟩ := updates_clean (runOf_run opening)
  exact ⟨fun _ _ _ _ => (hupdate _ _ _ _).mpr fun _ _ _ _ _ => hconf, fun _ _ => (hpause _ _).mpr fun _ _ _ => hnext⟩

def coldStart : Model := ⟨⟨1, 1, .dummy ⟨[], none⟩, .dummy, .adamW⟩⟩

/-- A new account that is given its model before its configuration. -/
theorem update_aborts : (machine .zero).Run [] (created [])
    ∧ (created []).update none none (some coldStart) none = .error (.panic .divisionByZero) :=
  ⟨.init ⟨[], rfl⟩, update_divides rfl rfl rfl (by decide)⟩

end Updates
end InstanceState
end Leviathan
