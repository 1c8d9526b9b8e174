import Leviathan.Client.Inversion
import Leviathan.Coordinator.Calls
import Leviathan.Coordinator.Health

/-!
# A client that follows the coordinator

Two state machines that were written separately: the phases of the coordinator (`tick` and the calls beside it in
`coordinator.rs`) and the steps of a client (`apply_state` in `shared/client/src/state/steps.rs`). A `Session` runs them
together: the client is given every state of the coordinator, in order, and between two states messages, downloads and
tasks come in any order. It begins in the warmup of an epoch, and the client stays present.

`RunState.Next` lists the phases that can follow a phase (`perform_next`), and `ActiveStep.of` the step that belongs to
each. No step belongs to a run that has finished.
-/

namespace Leviathan
open Exec

/-- The phases that can follow a phase. -/
inductive RunState.Next : RunState → RunState → Prop where
  | stay {s} :
    Next s s
  | warmUp :
    Next .waitingForMembers .warmup
  | train :
    Next .warmup .roundTrain
  | witness :
    Next .roundTrain .roundWitness
  | trainAgain :
    Next .roundWitness .roundTrain
  | cool :
    Next .roundWitness .cooldown
  | wait {s} :
    s = .warmup ∨ s = .cooldown ∨ s = .paused →
    Next s .waitingForMembers
  | finish {s} :
    s = .warmup ∨ s = .cooldown ∨ s = .paused →
    Next s .finished
  | pause {s} :
    s = .waitingForMembers ∨ s = .warmup ∨ s = .cooldown →
    Next s .paused

/-- The step that belongs to a phase. -/
def ActiveStep.of : RunState → Option ActiveStep
  | .waitingForMembers | .warmup | .paused => some .warmup
  | .roundTrain => some .training
  | .roundWitness => some .witness
  | .cooldown => some .cooldown
  | .uninitialized | .finished => none

section Phases
variable {P : Platform} {c c' : Coordinator}

lemma RunState.Next.between (c : Coordinator) {s : RunState} (hs : s = .warmup ∨ s = .cooldown ∨ s = .paused) :
    RunState.Next s c.betweenEpochs := by
  obtain hb | hb := Coordinator.betweenEpochs_cases c
  · rw [hb]
    exact .wait hs
  · rw [hb]
    exact .finish hs

lemma Coordinator.TickStep.next {pending : Option (List NodeIdentity)} {now seed : Nat} {r : TickResult}
    (st : TickStep P c pending now seed c' r) : RunState.Next c.runState c'.runState := by
  cases st with
  | idle _ => exact .stay
  | beginEpoch hs _ _ _ hb =>
    have hrun : c'.runState = .warmup := by rw [hb.eq]
    rw [hs, hrun]
    exact .warmUp
  | warm _ _ _ => exact .stay
  | warmAbort hs _ _ | trainAbort hs _ _ _ => exact .between c (.inl hs)
  | train hs _ hr _ =>
    rw [hs, hr.runState]
    exact .train
  | witness hs _ =>
    rw [hs]
    exact .witness
  | coolEmpty hs _ _ _ | cool hs _ _ _ _ _ =>
    rw [hs]
    exact .cool
  | nextRound hs _ _ _ _ _ hr =>
    rw [hs, hr.runState]
    exact .trainAgain
  | endEpoch hs _ _ _ => exact .between c (.inr (.inl hs))
  | endEpochPaused hs _ _ _ => exact .pause (.inr (.inr hs))

lemma Coordinator.perform_next {op : Operation} (h : c.perform P op = .ok c') :
    RunState.Next c.runState c'.runState := by
  obtain ⟨_, _, _, _, _, ht⟩ | st := perform_inv h
  · exact (tick_inv ht).next
  · cases st with
    | report hc =>
      rw [hc.runState]
      exact .stay
    | start hs _ hr =>
      rw [hs, hr.runState]
      exact .train
    | witnessed hs _ =>
      rw [hs]
      exact .witness
    | pauseNow hs => exact .pause (hs.imp_right .inl)
    | resume hs => exact .between c (.inr (.inr hs))
    | update _ => exact .stay

end Phases

namespace StepStateMachine
open Exec

/-- The error is not that the client has lost track. -/
def NotDesync (e : ClientError) : Prop := ∀ activeStep runState, e ≠ .desync activeStep runState

section Errors
variable {P : Platform} {ε : Type} {good : ε → Prop} {c : Coordinator} {selection : CommitteeSelection}

lemma addU_failsWith (w a b : Nat) : FailsWith good (addU w a b) := .checked _ _ _

lemma subU_failsWith (a b : Nat) : FailsWith good (subU a b) := .checked _ _ _

lemma mulU_failsWith (w a b : Nat) : FailsWith good (mulU w a b) := .checked _ _ _

lemma computeShuffledIndex_failsWith (index : Nat) (salt : Bytes) :
    FailsWith good (selection.computeShuffledIndex P index salt) := by
  refine .bind (.ensure _ _) fun _ => .foldlM (fun current round => ?_) _ _
  exact .bind (addU_failsWith _ _ _) fun _ => .bind (subU_failsWith _ _) fun _ => .ok _

lemma getCommittee_failsWith (index : Nat) : FailsWith good (selection.getCommittee P index) :=
  .bind (computeShuffledIndex_failsWith _ _) fun _ => .ok _

lemma getWitness_failsWith (index : Nat) : FailsWith good (selection.getWitness P index) :=
  .bind (computeShuffledIndex_failsWith _ _) fun _ => .ok _

lemma getNumTrainerNodes_failsWith : FailsWith good selection.getNumTrainerNodes :=
  .bind (subU_failsWith _ _) fun _ => subU_failsWith _ _

lemma getTargetGlobalBatchSize_failsWith (round : Option Round) :
    FailsWith good (c.getTargetGlobalBatchSize P round) :=
  .bind (mulU_failsWith _ _ _) fun _ => .ok _

lemma closedInterval_failsWith (start end_ : Nat) : FailsWith good (ClosedInterval.new start end_) := by
  unfold ClosedInterval.new
  split
  · exact .ok _
  · exact .abort _

lemma nextBatch_failsWith (baseSize remainder i current : Nat) :
    FailsWith good (Coordinator.nextBatch baseSize remainder i current) := by
  refine .bind (addU_failsWith _ _ _) fun _ => ?_
  split
  · refine .bind (addU_failsWith _ _ _) fun _ => .bind (subU_failsWith _ _) fun _ => ?_
    exact .bind (closedInterval_failsWith _ _) fun _ => .bind (addU_failsWith _ _ _) fun _ => .ok _
  · exact .ok _

lemma batchIdsFrom_failsWith (baseSize remainder end_ current : Nat) (is : List Nat) :
    FailsWith good (Coordinator.batchIdsFrom baseSize remainder end_ current is) := by
  induction is generalizing current with
  | nil => exact .ok _
  | cons i is ih =>
    refine .bind (nextBatch_failsWith _ _ _ _) fun next => ?_
    split
    · split
      · exact .ok _
      · exact .bind (ih _) fun _ => .ok _
    · exact ih _

lemma getBatchIdsForRound_failsWith (round : Round) (numTrainerNodes : Nat) :
    FailsWith good (Coordinator.getBatchIdsForRound P round c numTrainerNodes) :=
  .bind (getTargetGlobalBatchSize_failsWith _) fun _ => .bind (addU_failsWith _ _ _) fun _ =>
    .bind (.ensure _ _) fun _ => batchIdsFrom_failsWith _ _ _ _ _

lemma trainerNodesFrom_failsWith (i : Nat) (clients : List Client) :
    FailsWith good (Coordinator.trainerNodesFrom P selection i clients) := by
  induction clients generalizing i with
  | nil => exact .ok _
  | cons client clients ih =>
    refine .bind (getCommittee_failsWith _) fun proof => .bind (ih _) fun _ => ?_
    split <;> exact .ok _

lemma assignFrom_failsWith (baseSize remainder i current : Nat) (assignments : SortedMap BatchId NodeIdentity)
    (nodes : List Client) :
    FailsWith good (Coordinator.assignFrom baseSize remainder i current assignments nodes) := by
  induction nodes generalizing i current assignments with
  | nil => exact .ok _
  | cons node nodes ih =>
    refine .bind (nextBatch_failsWith _ _ _ _) fun next => ?_
    split <;> exact ih _ _ _

lemma assignDataForState_failsWith : FailsWith good (c.assignDataForState P selection) := by
  refine .bind (trainerNodesFrom_failsWith _ _) fun nodes => ?_
  split
  · exact .ok _
  · exact .bind (getTargetGlobalBatchSize_failsWith _) fun _ => assignFrom_failsWith _ _ _ _ _ _

end Errors

section Following
variable {P : Platform} {m m' : StepStateMachine} {c : Coordinator} {keys : BloomKeys} {clientIndex : Nat}
  {s : RunState}

lemma startTraining_failsWith (clientIndex : Nat) :
    FailsWith NotDesync (m.startTraining P clientIndex c keys) := by
  refine .bind ?_ fun _ => .bind (.require _ (by rintro _ _ ⟨⟩)) fun _ => .bind (.mapErr (by rintro _ _ _ ⟨⟩) _) fun _ =>
    .bind ?_ fun _ => .bind (getCommittee_failsWith _) fun _ => .bind (getWitness_failsWith _) fun _ => .ok _
  · unfold applyResults
    split
    · exact .ok _
    · refine .bind (.okOr _ (by rintro _ _ ⟨⟩)) fun _ => .bind (.mapErr (by rintro _ _ _ ⟨⟩) _) fun _ => ?_
      refine .bind (.okOr _ (by rintro _ _ ⟨⟩)) fun _ => .bind (.okOr _ (by rintro _ _ ⟨⟩)) fun _ => ?_
      exact .bind getNumTrainerNodes_failsWith fun _ => .bind (getBatchIdsForRound_failsWith _ _) fun _ => .ok _
  · unfold roundData
    split
    · exact .ok _
    · exact .bind assignDataForState_failsWith fun _ => .bind getNumTrainerNodes_failsWith fun _ =>
        .bind (getBatchIdsForRound_failsWith _ _) fun _ => .ok _

lemma startTraining_activeStep (h : m.startTraining P clientIndex c keys = .ok m') : m'.activeStep = .training := by
  simp only [startTraining, bind_eq_ok, Except.ok.injEq] at h
  obtain ⟨_, _, _, _, _, _, _, _, _, _, _, _, rfl⟩ := h
  rfl

/-- A client is among the present ones. -/
def Present (id : NodeIdentity) (c : Coordinator) : Prop := ∃ x ∈ c.epochState.clients.toList, x.id.signer = id.signer

lemma applyState_of_present (P : Platform) (keys : BloomKeys) (h : Present m.identity c) :
    ∃ clientIndex, m.applyState P c keys
      = m.follow P c keys clientIndex >>= fun m => .ok { m with coordinatorState := c } := by
  obtain ⟨x, hx, hid⟩ := h
  cases hi : c.epochState.clients.toList.findIdx? fun x => x.id == m.identity with
  | none =>
    have hnone := List.findIdx?_eq_none_iff.mp hi x hx
    rw [NodeIdentity.beq_iff.mpr hid] at hnone
    cases hnone
  | some clientIndex =>
    refine ⟨clientIndex, ?_⟩
    rw [applyState, hi]

/-- The outcome of `apply_state` is the right step for a phase, or an error other than lost track. -/
def Follows (s : RunState) (x : Exec ClientError Panic StepStateMachine) : Prop :=
  FailsWith NotDesync x ∧ ∀ m', x = .ok m' → ActiveStep.of s = some m'.activeStep

lemma Follows.ok (h : ActiveStep.of s = some m.activeStep) : Follows s (.ok m) := by
  refine ⟨.ok _, fun m' he => ?_⟩
  cases he
  exact h

lemma Follows.startTraining (clientIndex : Nat) : Follows .roundTrain (m.startTraining P clientIndex c keys) := by
  refine ⟨startTraining_failsWith _, fun m' he => ?_⟩
  rw [startTraining_activeStep he]
  rfl

lemma follow_next (hm : ActiveStep.of s = some m.activeStep) (hn : RunState.Next s c.runState)
    (hf : c.runState ≠ .finished) : Follows c.runState (m.follow P c keys clientIndex) := by
  generalize hs : c.runState = s' at hn hf
  cases hn with
  | stay =>
    cases s with
    | uninitialized => cases hm
    | finished => cases hm
    | _ =>
      rw [follow, ← Option.some.inj hm, hs]
      exact .ok hm
  | warmUp =>
    rw [follow, ← Option.some.inj hm, hs]
    exact .ok hm
  | train | trainAgain =>
    rw [follow, ← Option.some.inj hm, hs]
    exact .startTraining _
  | witness | cool =>
    rw [follow, ← Option.some.inj hm, hs]
    exact .ok rfl
  | wait hw =>
    obtain rfl | rfl | rfl := hw
    · rw [follow, ← Option.some.inj hm, hs]
      exact .ok hm
    · rw [follow, ← Option.some.inj hm, hs]
      exact .ok rfl
    · rw [follow, ← Option.some.inj hm, hs]
      exact .ok hm
  | finish _ => exact absurd rfl hf
  | pause hw =>
    obtain rfl | rfl | rfl := hw
    · rw [follow, ← Option.some.inj hm, hs]
      exact .ok hm
    · rw [follow, ← Option.some.inj hm, hs]
      exact .ok hm
    · rw [follow, ← Option.some.inj hm, hs]
      exact .ok rfl

lemma follow_finished (hf : c.runState = .finished) :
    m.follow P c keys clientIndex = Exec.fail (.desync m.activeStep .finished) := by
  rw [follow, hf]
  cases m.activeStep <;> rfl

/-- A client in the right step loses track exactly when the run has finished; otherwise, if it goes on at all, it is in
the right step again. -/
lemma applyState_next (hm : ActiveStep.of s = some m.activeStep) (hn : RunState.Next s c.runState)
    (hp : Present m.identity c) :
    ((∃ a st, m.applyState P c keys = .error (.error (.desync a st))) ↔ c.runState = .finished)
      ∧ ∀ m', m.applyState P c keys = .ok m' → ActiveStep.of c.runState = some m'.activeStep := by
  obtain ⟨clientIndex, he⟩ := applyState_of_present P keys hp
  by_cases hf : c.runState = .finished
  · rw [he, follow_finished hf]
    refine ⟨⟨fun _ => hf, fun _ => ⟨_, _, rfl⟩⟩, ?_⟩
    rintro _ ⟨⟩
  · have hfollow : Follows c.runState (m.follow P c keys clientIndex) := follow_next hm hn hf
    rw [he]
    refine ⟨⟨?_, fun h => absurd h hf⟩, fun m' hok => ?_⟩
    · rintro ⟨a, st, herr⟩
      exact absurd rfl ((hfollow.1.bind fun _ => .ok _) _ herr a st)
    · simp only [bind_eq_ok, Except.ok.injEq] at hok
      obtain ⟨m1, hm1, rfl⟩ := hok
      exact hfollow.2 m1 hm1

@[simp] lemma activeStep_setRound (round : RoundState) (slot : RoundSlot) :
    (m.setRound round slot).activeStep = m.activeStep := by
  cases slot <;> rfl

lemma step_activeStep {input : ClientInput} {fx : List ClientEffect} (h : m.step P input = .ok (m', fx))
    (hi : ∀ c keys, input ≠ .applyState c keys) : m'.activeStep = m.activeStep := by
  cases input with
  | applyMessage from_ broadcast =>
    simp only [step, bind_eq_ok, ok_pair] at h
    obtain ⟨⟨m1, outcome, fx1⟩, h, rfl, rfl⟩ := h
    obtain ⟨rfl, _⟩ | ⟨slot, _, _, rfl, _⟩ | ⟨slot, _, _, _, ⟨_, _, _⟩⟩ := applyMessage_inv h
    · rfl
    · exact activeStep_setRound _ _
    · exact activeStep_setRound _ _
  | applyDistroResult hash payload own =>
    obtain ⟨rfl, _⟩ | ⟨_, _, _, _, _, _, _, _, _, rfl, _⟩ := applyDistroResult_inv (Except.ok.inj h) <;> rfl
  | applyState c keys => exact absurd rfl (hi c keys)
  | runTask index written =>
    simp only [step, runTask, bind_eq_ok, ok_pair] at h
    obtain ⟨_, _, _, _, rfl, _⟩ := h
    rfl

end Following
end StepStateMachine

/-- A coordinator and a client that follows it. -/
structure Session where
  coordinator : Coordinator
  client : StepStateMachine

/-- A call of the coordinator, after which the client is given the new state, or anything else that happens to the client.
-/
inductive SessionInput where
  | perform (op : Operation) (keys : StepStateMachine.BloomKeys)
  | client (input : ClientInput)

/-- The coordinator refuses, the client stops or is no longer present, or is given a state that is not the coordinator's. -/
inductive SessionError where
  | coordinator (e : CoordinatorError)
  | client (e : ClientError)
  | absent
  | otherState
deriving DecidableEq, Repr

namespace Session
open StepStateMachine

/-- Whether an input gives the client a state. -/
def givesState : ClientInput → Bool
  | .applyState _ _ => true
  | _ => false

instance (id : NodeIdentity) (c : Coordinator) : Decidable (Present id c) := List.decidableBEx _ _

def step (P : Platform) (s : Session) : SessionInput → Exec SessionError Panic (Session × List ClientEffect)
  | .perform op keys => do
    let coordinator ← Exec.mapErr .coordinator (s.coordinator.perform P op)
    Exec.require (Present s.client.identity coordinator) .absent
    let client ← Exec.mapErr .client (s.client.applyState P coordinator keys)
    .ok (⟨coordinator, client⟩, [])
  | .client input => do
    Exec.require (givesState input = false) .otherState
    let (client, fx) ← Exec.mapErr .client (s.client.step P input)
    .ok ({ s with client }, fx)

/-- Sessions that begin in the warmup of an epoch. -/
def machine (P : Platform) : Machine Session SessionInput (List ClientEffect) (Fault SessionError Panic) where
  init s := s.coordinator.runState = .warmup ∧ Present s.client.identity s.coordinator
    ∧ ∃ identity writeGradientsDir, s.client = .new identity writeGradientsDir s.coordinator
  step s i := s.step P i

abbrev Record := List (Event Session SessionInput (List ClientEffect))

/-- The client is in the step that belongs to the phase of the coordinator. -/
def InStep (s : Session) : Prop := ActiveStep.of s.coordinator.runState = some s.client.activeStep

section Runs
variable {P : Platform} {s s' : Session} {fx : List ClientEffect}

/-- Whatever happens, the client stays in step. -/
lemma InStep.step {i : SessionInput} (h : InStep s) (st : s.step P i = .ok (s', fx)) : InStep s' := by
  cases i with
  | perform op keys =>
    simp only [Session.step, bind_eq_ok, mapErr_eq_ok, require_eq_ok, ok_pair] at st
    obtain ⟨c, hc, _, hp, m, hm, rfl, _⟩ := st
    exact (applyState_next h (Coordinator.perform_next hc) hp).2 m hm
  | client input =>
    simp only [Session.step, bind_eq_ok, mapErr_eq_ok, require_eq_ok, ok_pair] at st
    obtain ⟨_, hi, ⟨m, _⟩, hm, rfl, _⟩ := st
    have hstep : m.activeStep = s.client.activeStep := by
      refine step_activeStep hm fun c keys he => ?_
      rw [he] at hi
      cases hi
    show ActiveStep.of s.coordinator.runState = some m.activeStep
    rw [hstep]
    exact h

/-- In every session the client is in step. -/
lemma inStep_of_run {tr : Record} (r : (machine P).Run tr s) : InStep s := by
  refine r.invariant (fun s h => ?_) fun s i s' fx h st => h.step st
  obtain ⟨hs, _, _, _, hm⟩ := h
  rw [InStep, hs, hm]
  rfl

/-- **Following the coordinator**: a client that is present and has been given every state since the warmup is in the step
of the coordinator's phase. When it is given the next state, it loses track if and only if the run has finished; if it goes
on, it is in the right step again. -/
theorem follows_unless_finished {tr : Record} (r : (machine P).Run tr s) :
    ActiveStep.of s.coordinator.runState = some s.client.activeStep
      ∧ ∀ op keys c, s.coordinator.perform P op = .ok c → Present s.client.identity c →
        ((∃ a st, s.client.applyState P c keys = .error (.error (.desync a st))) ↔ c.runState = .finished)
          ∧ ∀ m, s.client.applyState P c keys = .ok m → ActiveStep.of c.runState = some m.activeStep := by
  have h := inStep_of_run r
  refine ⟨h, fun op keys c hc hp => ?_⟩
  exact applyState_next h (Coordinator.perform_next hc) hp

/-- Two clients in the warmup of a run that is over after a number of steps. -/
def warming (totalSteps : Nat) : Coordinator :=
  ((Coordinator.machine .zero).play []
    { Coordinator.auditing 0 with config := { (Coordinator.auditing 0).config with totalSteps } }
    [.tick (some .two) 5 0]).2

/-- The first client of such a run, for which a list of calls is made. -/
def sessionOf (totalSteps : Nat) (ops : List Operation) : Record × Session :=
  (machine .zero).play [] ⟨warming totalSteps, .new ⟨1, 0⟩ true (warming totalSteps)⟩
    (ops.map fun op => .perform op ⟨Vector.replicate 8 0, Vector.replicate 8 0⟩)

/-- One round of training, which the first client reports on, and the cooldown after the last one. -/
def oneRound : List Operation :=
  [.tick none 15 0, .witness ⟨1, 0⟩ ⟨⟨0, 0, true⟩, .empty, .empty, 0⟩ 16, .tick none 25 0, .tick none 35 0]

lemma sessionOf_run (totalSteps : Nat) (ops : List Operation) (hs : (warming totalSteps).runState = .warmup)
    (hp : Present ⟨1, 0⟩ (warming totalSteps)) :
    (machine .zero).Run (sessionOf totalSteps ops).1 (sessionOf totalSteps ops).2 := by
  have hinit : (machine .zero).init ⟨warming totalSteps, .new ⟨1, 0⟩ true (warming totalSteps)⟩ :=
    ⟨hs, hp, ⟨1, 0⟩, true, rfl⟩
  exact (Machine.Run.init hinit).play _

/-- A client in training follows every call on the coordinator that does not finish the run. -/
theorem follows_unless_finished_oneRound :
    ((sessionOf 100 oneRound).2.coordinator.runState, (sessionOf 100 oneRound).2.client.activeStep)
        = (.roundTrain, .training)
      ∧ ∀ op keys c, (sessionOf 100 oneRound).2.coordinator.perform .zero op = .ok c →
        Present (sessionOf 100 oneRound).2.client.identity c →
        ((∃ a st, (sessionOf 100 oneRound).2.client.applyState .zero c keys = .error (.error (.desync a st)))
            ↔ c.runState = .finished)
          ∧ ∀ m, (sessionOf 100 oneRound).2.client.applyState .zero c keys = .ok m →
            ActiveStep.of c.runState = some m.activeStep := by
  have hrun := sessionOf_run 100 oneRound (by decide +kernel) (by decide +kernel)
  exact ⟨by decide +kernel, (follows_unless_finished hrun).2⟩

/-- The error with which a session stops. -/
def stops (P : Platform) (s : Session) (i : SessionInput) : Option (Fault SessionError Panic) :=
  match s.step P i with
  | .ok _ => none
  | .error e => some e

/-- The last cooldown ends the run, and the client in `Cooldown` stops with a desync. -/
theorem desync_when_finished :
    ((sessionOf 2 oneRound).2.coordinator.runState, (sessionOf 2 oneRound).2.client.activeStep)
        = (.cooldown, .cooldown)
      ∧ stops .zero (sessionOf 2 oneRound).2 (.perform (.tick none 45 0) ⟨Vector.replicate 8 0, Vector.replicate 8 0⟩)
        = some (.error (.client (.desync .cooldown .finished))) := by
  decide +kernel

end Runs
end Session
end Leviathan
