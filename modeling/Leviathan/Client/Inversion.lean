import Leviathan.Client.Steps

/-!
# Inversion of the steps of a client

What an accepted step of a client has done, stated once: `ClientStep` has one constructor for each kind of change
(`step_inv`), and `TaskStep` does the same for the sections of a task. Where the effects of a step come from is
`effect_inv`, with one corollary for each kind.
-/

namespace Leviathan.StepStateMachine
open Exec List

section Access
variable {m : StepStateMachine} {round : RoundState} {slot : RoundSlot} {id : Nat} {shared : SharedRound}

lemma round_setRound (m : StepStateMachine) (round : RoundState) (slot slot' : RoundSlot) :
    (m.setRound round slot).round slot' = if slot' = slot then round else m.round slot' := by
  cases slot <;> cases slot' <;> rfl

@[simp] lemma round_setShared : (m.setShared id shared).round = m.round := by
  funext slot
  cases slot <;> rfl

@[simp] lemma round_setPhase {index : Nat} {task : VerifyTask} {phase : TaskPhase} :
    (m.setPhase index task phase).round = m.round := by
  funext slot
  cases slot <;> rfl

@[simp] lemma sharedRounds_setRound : (m.setRound round slot).sharedRounds = m.sharedRounds := by cases slot <;> rfl

@[simp] lemma tasks_setRound : (m.setRound round slot).tasks = m.tasks := by cases slot <;> rfl

@[simp] lemma identity_setRound : (m.setRound round slot).identity = m.identity := by cases slot <;> rfl

@[simp] lemma length_setShared : (m.setShared id shared).sharedRounds.length = m.sharedRounds.length := by
  simp [setShared]

lemma sharedOf_setShared (h : id < m.sharedRounds.length) (shared : SharedRound) (id' : Nat) :
    (m.setShared id shared).sharedOf id' = if id' = id then shared else m.sharedOf id' := by
  simp only [sharedOf, setShared, getD_eq_getElem?_getD, getElem?_set]
  by_cases he : id' = id
  · rw [if_pos he, if_pos he.symm, if_pos h]
    rfl
  · rw [if_neg he, if_neg fun e => he e.symm]

end Access

/-- What a section of a task does to the shared part of its round. -/
inductive TaskStep (P : Platform) (task : VerifyTask) (shared : SharedRound) :
    SharedRound → TaskPhase → List ClientEffect → Prop where
  | accept :
    task.phase = .verify →
    task.payload.comptueHash P = task.commitment.dataHash →
    TaskStep P task shared shared .write [.accepted task]
  | refuse :
    TaskStep P task shared shared .done []
  | write {fx} :
    task.phase = .write →
    (∀ e ∈ fx, e = .wrote task (gradientsFile P task.from_.signer task.payload.step task.payload.batchId)) →
    TaskStep P task shared shared .vote fx
  | vote {remaining participantBloom participantBloom' broadcastBloom justFinished} :
    task.phase = .vote →
    shared.batchIdsNotYetTrainedOn = some remaining →
    task.batchId ∈ remaining →
    shared.blooms = some (participantBloom, broadcastBloom) →
    TaskStep P task shared { shared with
        batchIdsNotYetTrainedOn := some (remaining.erase task.batchId)
        blooms := some (participantBloom', broadcastBloom.add task.commitment.dataHash.bytes) }
      (.finish justFinished) [.voted task.shared task.batchId task.commitment.dataHash]
  | abstain {remaining left blooms justFinished} :
    shared.batchIdsNotYetTrainedOn = some remaining →
    left ⊆ remaining →
    blooms.map Prod.snd = shared.blooms.map Prod.snd →
    TaskStep P task shared { shared with batchIdsNotYetTrainedOn := some left, blooms } (.finish justFinished) []
  | late :
    TaskStep P task shared shared (.finish false) []
  | finish {batchIds} :
    (batchIds = none ∨ batchIds = shared.batchIdsNotYetTrainedOn) →
    TaskStep P task shared { shared with batchIdsNotYetTrainedOn := batchIds } .store []
  | store {downloads} :
    TaskStep P task shared { shared with downloads } .done []

inductive ClientStep (P : Platform) (m : StepStateMachine) : List ClientEffect → StepStateMachine → Prop where
  | quiet {activeStep coordinatorState} :
    ClientStep P m [] { m with activeStep, coordinatorState }
  | record {slot a assignee fx} :
    (m.round slot).assignee a.result.batchId = some assignee →
    a.from_.signer = assignee.signer →
    (∀ e ∈ fx, ∃ ticket, e = .requested ticket) →
    ClientStep P m (.recorded (m.round slot).shared (m.round slot).step a :: fx) (m.record slot a)
  | finished {slot clientsFinished broadcasts} :
    ClientStep P m [] (m.setRound { m.round slot with clientsFinished, broadcasts } slot)
  | spawn {slot task a} :
    task.shared = (m.round slot).shared →
    task.phase = .verify →
    a ∈ (m.round slot).announcements task.batchId →
    a.from_.signer = task.from_.signer →
    a.commitment = task.commitment →
    ClientStep P m [.received task] { m with tasks := m.tasks ++ [task] }
  | task {index task shared phase fx} :
    m.tasks[index]? = some task →
    TaskStep P task (m.sharedOf task.shared) shared phase fx →
    ClientStep P m fx ((m.setShared task.shared shared).setPhase index task phase)
  | warmup {coordinatorState} :
    ClientStep P m [] { m.startWarmup with coordinatorState }
  | train {coordinatorState current participant broadcast batchIds} :
    current.shared = m.sharedRounds.length →
    current.results = ∅ →
    ClientStep P m [] { m with
      activeStep := .training
      coordinatorState
      previousRound := m.currentRound
      currentRound := current
      sharedRounds := m.sharedRounds ++ [⟨∅, some (⟨participant, 0⟩, ⟨broadcast, 0⟩), batchIds⟩] }

section Results
variable {m : StepStateMachine} {slot : RoundSlot} {a : Announcement}

lemma round_record (m : StepStateMachine) (slot : RoundSlot) (a : Announcement) (slot' : RoundSlot) :
    (m.record slot a).round slot' = if slot' = slot then
      { m.round slot with
        results := (m.round slot).results.insert a.result.batchId
          ((m.round slot).announcements a.result.batchId ++ [a])
        broadcasts := (m.round slot).broadcasts ++ [a.commitment.dataHash] } else m.round slot' := by
  unfold record
  dsimp only
  rw [round_setShared, round_setRound]

lemma announcements_record (m : StepStateMachine) (slot : RoundSlot) (a : Announcement) (b : RawBatchId) :
    ((m.record slot a).round slot).announcements b = if b = a.result.batchId then
      (m.round slot).announcements b ++ [a] else (m.round slot).announcements b := by
  rw [round_record, if_pos rfl]
  simp only [RoundState.announcements]
  by_cases hb : b = a.result.batchId
  · subst hb
    rw [AList.lookup_insert, if_pos rfl]
    rfl
  · rw [AList.lookup_insert_ne hb, if_neg hb]

end Results

section Inversion
variable {P : Platform} {m m' : StepStateMachine} {fx : List ClientEffect} {step : BitVec 32}
  {outcome : ApplyMessageOutcome} {task : VerifyTask} {shared shared' : SharedRound} {phase : TaskPhase}
  {i : ClientInput} {from_ : NodeIdentity} {broadcast : Broadcast} {keys : BloomKeys} {id : Nat} {a : Announcement}

lemma step_of_slotOfStep {slot : RoundSlot} (h : m.slotOfStep step = some slot) : (m.round slot).step = step := by
  unfold slotOfStep at h
  split at h
  · cases h
    assumption
  · split at h
    · cases h
      assumption
    · cases h

/-- An announcement is noted: its sender is the assignee of the batch. -/
inductive Recorded (m : StepStateMachine) (slot : RoundSlot) (step : BitVec 32) (a : Announcement) :
    StepStateMachine → List ClientEffect → Prop where
  | intro {assignee fx} :
    (m.round slot).assignee a.result.batchId = some assignee →
    a.from_.signer = assignee.signer →
    (∀ e ∈ fx, ∃ ticket, e = .requested ticket) →
    Recorded m slot step a (m.record slot a) (.recorded (m.round slot).shared step a :: fx)

lemma applyTrainingResult_inv {slot : RoundSlot} {result : TrainingResult}
    (h : m.applyTrainingResult slot from_ broadcast result = (m', outcome, fx)) :
    (m' = m ∧ fx = []) ∨ Recorded m slot broadcast.step ⟨from_, broadcast.commitment, result⟩ m' fx := by
  unfold applyTrainingResult at h
  dsimp only at h
  split at h
  · cases h
    exact .inl ⟨rfl, rfl⟩
  · rename_i assignee ha
    split at h
    · cases h
      exact .inl ⟨rfl, rfl⟩
    · split at h
      · cases h
        exact .inl ⟨rfl, rfl⟩
      · rename_i hfrom
        cases h
        refine .inr (.intro ha (by simpa [bne] using hfrom) fun e he => ?_)
        split at he
        · cases he
        · exact ⟨_, mem_singleton.mp he⟩

lemma applyMessage_inv {ε : Type}
    (h : (m.applyMessage P from_ broadcast : Exec ε Panic _) = .ok (m', outcome, fx)) :
    (m' = m ∧ fx = [])
      ∨ (∃ slot clientsFinished broadcasts,
        m' = m.setRound { m.round slot with clientsFinished, broadcasts } slot ∧ fx = [])
      ∨ ∃ slot result, broadcast.data = .trainingResult result ∧ (m.round slot).step = broadcast.step
        ∧ Recorded m slot broadcast.step ⟨from_, broadcast.commitment, result⟩ m' fx := by
  unfold applyMessage at h
  split at h
  · cases h
    exact .inl ⟨rfl, rfl⟩
  · rename_i slot hslot
    simp only [bind_eq_ok] at h
    obtain ⟨check, _, h⟩ := h
    split at h
    · cases h
      exact .inl ⟨rfl, rfl⟩
    · split at h
      · cases h
        exact .inl ⟨rfl, rfl⟩
      · split at h
        · rename_i result hdata
          exact (applyTrainingResult_inv (Except.ok.inj h)).imp_right fun hr =>
            .inr ⟨slot, result, hdata, step_of_slotOfStep hslot, hr⟩
        · rename_i finished _
          simp only [applyFinished] at h
          split at h
          · cases h
            exact .inl ⟨rfl, rfl⟩
          · cases h
            exact .inr (.inl ⟨slot, _, _, rfl, rfl⟩)

lemma applyDistroResult_inv {hash : Bytes32} {payload : TransmittableDistroResult} {own : Bool}
    (h : m.applyDistroResult hash payload own = (m', fx)) :
    (m' = m ∧ fx = []) ∨ ∃ slot task a, task.shared = (m.round slot).shared ∧ task.phase = .verify
      ∧ task.payload = payload ∧ a ∈ (m.round slot).announcements task.batchId ∧ a.from_.signer = task.from_.signer
      ∧ a.commitment = task.commitment ∧ m' = { m with tasks := m.tasks ++ [task] } ∧ fx = [.received task] := by
  unfold applyDistroResult at h
  split at h
  · cases h
    exact .inl ⟨rfl, rfl⟩
  · rename_i slot _
    split at h
    · cases h
      exact .inl ⟨rfl, rfl⟩
    · rename_i from_ batchId commitment ha
      cases h
      unfold announcementOf at ha
      split at ha
      · obtain ⟨a, hfind, he⟩ := Option.map_eq_some_iff.mp ha
        cases he
        have hp := find?_some hfind
        simp only [Bool.and_eq_true, NodeIdentity.beq_iff] at hp
        exact .inr ⟨slot, _, a, rfl, rfl, rfl, mem_of_find?_eq_some hfind, hp.1, rfl, rfl, rfl⟩
      · cases ha

lemma vote_inv (hp : task.phase = .vote) (h : vote P shared task = (shared', phase, fx)) :
    TaskStep P task shared shared' phase fx := by
  unfold vote at h
  split at h
  · cases h
    exact .late
  · rename_i remaining hr
    by_cases hm : task.batchId ∈ remaining
    · cases hb : shared.blooms with
      | none =>
        simp only [hb, Option.map_none, Option.isSome_none, Bool.false_eq_true, false_and, if_false] at h
        cases h
        exact .abstain hr (remaining.erase_subset task.batchId) (by rw [hb])
      | some blooms =>
        simp only [hb, Option.map_some, Option.isSome_some, hm, and_self, if_true] at h
        cases h
        exact .vote hp hr hm hb
    · simp only [hm, and_false, if_false] at h
      cases h
      refine .abstain hr (remaining.erase_subset task.batchId) ?_
      rw [Option.map_map]
      rfl

lemma runSection_inv {written : Bool} (h : runSection P shared task written = some (shared', phase, fx)) :
    TaskStep P task shared shared' phase fx := by
  unfold runSection at h
  split at h
  · rename_i hp
    split at h
    · rename_i hh
      cases h
      exact .accept hp hh
    · cases h
      exact .refuse
  · rename_i hp
    cases h
    refine .write hp fun e he => ?_
    split at he
    · exact mem_singleton.mp he
    · cases he
  · rename_i hp
    exact vote_inv hp (Option.some.inj h)
  · cases h
    split
    · exact .finish (.inl rfl)
    · exact .finish (.inr rfl)
  · cases h
    exact .store
  · cases h

lemma startTraining_inv {clientIndex : Nat} {state coordinatorState : Coordinator}
    (h : m.startTraining P clientIndex state keys = .ok m') : ClientStep P m [] { m' with coordinatorState } := by
  simp only [startTraining, bind_eq_ok, Except.ok.injEq] at h
  obtain ⟨_, _, _, _, selection, _, ⟨dataAssignments, batchIds⟩, _, _, _, _, _, rfl⟩ := h
  exact .train rfl rfl

lemma applyState_inv {state : Coordinator} (h : m.applyState P state keys = .ok m') : ClientStep P m [] m' := by
  unfold applyState at h
  split at h
  · split at h <;> cases h
    · exact .quiet
    · exact .warmup
    · exact .warmup
    · exact .warmup
  · simp only [bind_eq_ok, Except.ok.injEq] at h
    obtain ⟨m1, h, rfl⟩ := h
    unfold follow at h
    split at h
    · exact startTraining_inv h
    · cases h
      exact .quiet
    · exact startTraining_inv h
    · cases h
      exact .quiet
    · cases h
      exact .warmup
    · cases h
      exact .warmup
    · cases h
      exact .warmup
    · split at h
      · cases h
        exact .quiet
      · cases h

/-- Every accepted input is one of the steps. -/
lemma step_inv (h : m.step P i = .ok (m', fx)) : ClientStep P m fx m' := by
  cases i with
  | applyMessage from_ broadcast =>
    simp only [step, bind_eq_ok, ok_pair] at h
    obtain ⟨⟨m1, outcome, fx1⟩, h, rfl, rfl⟩ := h
    obtain ⟨rfl, rfl⟩ | ⟨slot, _, _, rfl, rfl⟩ | ⟨slot, result, _, hstep, ⟨ha, hfrom, hfx⟩⟩ := applyMessage_inv h
    · exact .quiet
    · exact .finished
    · rw [← hstep]
      exact .record ha hfrom hfx
  | applyDistroResult hash payload own =>
    obtain ⟨rfl, rfl⟩ | ⟨slot, task, a, hs, hp, _, ha, hfrom, hc, rfl, rfl⟩ := applyDistroResult_inv (Except.ok.inj h)
    · exact .quiet
    · exact .spawn hs hp ha hfrom hc
  | applyState state keys =>
    simp only [step, bind_eq_ok, ok_pair] at h
    obtain ⟨_, h, rfl, rfl⟩ := h
    exact applyState_inv h
  | runTask index written =>
    simp only [step, runTask, bind_eq_ok, okOr_eq_ok, ok_pair] at h
    obtain ⟨task, ht, ⟨shared, phase, fx1⟩, hrun, rfl, rfl⟩ := h
    exact .task ht (runSection_inv hrun)

/-- What a section of a task can note. -/
inductive TaskEffect (P : Platform) (task : VerifyTask) : ClientEffect → Prop where
  | accepted :
    task.phase = .verify →
    task.payload.comptueHash P = task.commitment.dataHash →
    TaskEffect P task (.accepted task)
  | wrote :
    task.phase = .write →
    TaskEffect P task (.wrote task (gradientsFile P task.from_.signer task.payload.step task.payload.batchId))
  | voted :
    task.phase = .vote →
    TaskEffect P task (.voted task.shared task.batchId task.commitment.dataHash)

lemma TaskStep.effects {e : ClientEffect} (st : TaskStep P task shared shared' phase fx) (h : e ∈ fx) :
    TaskEffect P task e := by
  cases st with
  | accept hp hh => exact mem_singleton.mp h ▸ .accepted hp hh
  | write hp hfx => exact hfx _ h ▸ .wrote hp
  | vote hp => exact mem_singleton.mp h ▸ .voted hp
  | refuse | abstain | late | finish | store => cases h

lemma ClientStep.recorded_inv (st : ClientStep P m fx m') (h : .recorded id step a ∈ fx) :
    ∃ slot assignee, id = (m.round slot).shared ∧ step = (m.round slot).step
      ∧ (m.round slot).assignee a.result.batchId = some assignee ∧ a.from_.signer = assignee.signer
      ∧ m' = m.record slot a := by
  cases st with
  | quiet => cases h
  | record ha hfrom hfx =>
    rename_i slot a' assignee fx
    cases h with
    | head => exact ⟨slot, assignee, rfl, rfl, ha, hfrom, rfl⟩
    | tail _ h =>
      obtain ⟨ticket, e⟩ := hfx _ h
      cases e
  | finished => cases h
  | spawn =>
    cases h with
    | tail _ h => cases h
  | task _ st => cases st.effects h
  | warmup => cases h
  | train => cases h

/-- Where the effects of a step come from: an announcement, a payload, or a task. -/
inductive EffectOf (P : Platform) (m : StepStateMachine) : ClientInput → ClientEffect → Prop where
  | recorded {broadcast slot assignee a} :
    broadcast.commitment = a.commitment →
    broadcast.data = .trainingResult a.result →
    (m.round slot).step = broadcast.step →
    (m.round slot).assignee a.result.batchId = some assignee →
    a.from_.signer = assignee.signer →
    EffectOf P m (.applyMessage a.from_ broadcast) (.recorded (m.round slot).shared broadcast.step a)
  | requested {i ticket} :
    EffectOf P m i (.requested ticket)
  | received {hash own task} :
    EffectOf P m (.applyDistroResult hash task.payload own) (.received task)
  | task {i task e} :
    task ∈ m.tasks →
    TaskEffect P task e →
    EffectOf P m i e

/-- Where each effect comes from. -/
lemma effect_inv {e : ClientEffect} (h : m.step P i = .ok (m', fx)) (he : e ∈ fx) : EffectOf P m i e := by
  cases i with
  | applyMessage from_ broadcast =>
    simp only [step, bind_eq_ok, ok_pair] at h
    obtain ⟨⟨m1, outcome, fx1⟩, h, rfl, rfl⟩ := h
    obtain ⟨_, rfl⟩ | ⟨_, _, _, _, rfl⟩ | ⟨slot, result, hdata, hstep, ⟨ha, hfrom, hfx⟩⟩ := applyMessage_inv h
    · cases he
    · cases he
    · obtain rfl | he := mem_cons.mp he
      · exact .recorded rfl hdata hstep ha hfrom
      · obtain ⟨_, rfl⟩ := hfx _ he
        exact .requested
  | applyDistroResult hash payload own =>
    obtain ⟨_, rfl⟩ | ⟨_, task, _, _, _, rfl, _, _, _, _, rfl⟩ := applyDistroResult_inv (Except.ok.inj h)
    · cases he
    · exact mem_singleton.mp he ▸ .received
  | applyState state keys =>
    simp only [step, bind_eq_ok, ok_pair] at h
    obtain ⟨_, _, _, rfl⟩ := h
    cases he
  | runTask index written =>
    simp only [step, runTask, bind_eq_ok, okOr_eq_ok, ok_pair] at h
    obtain ⟨task, ht, ⟨shared, phase, fx1⟩, hrun, _, rfl⟩ := h
    exact .task (mem_of_getElem? ht) ((runSection_inv hrun).effects he)

lemma announced_inv (h : m.step P i = .ok (m', fx)) (he : .recorded id step a ∈ fx) :
    ∃ broadcast slot assignee, i = .applyMessage a.from_ broadcast ∧ broadcast.commitment = a.commitment
      ∧ broadcast.data = .trainingResult a.result ∧ broadcast.step = step ∧ (m.round slot).shared = id
      ∧ (m.round slot).step = step ∧ (m.round slot).assignee a.result.batchId = some assignee
      ∧ a.from_.signer = assignee.signer := by
  cases effect_inv h he with
  | recorded hc hd hs ha hfrom => exact ⟨_, _, _, rfl, hc, hd, rfl, rfl, hs, ha, hfrom⟩
  | task _ ht => cases ht

lemma received_inv (h : m.step P i = .ok (m', fx)) (he : .received task ∈ fx) :
    ∃ hash own, i = .applyDistroResult hash task.payload own := by
  cases effect_inv h he with
  | received => exact ⟨_, _, rfl⟩
  | task _ ht => cases ht

lemma voted_inv {b : RawBatchId} {dataHash : Bytes32} (h : m.step P i = .ok (m', fx))
    (he : .voted id b dataHash ∈ fx) : ∃ task ∈ m.tasks, task.phase = .vote ∧ id = task.shared ∧ b = task.batchId
      ∧ dataHash = task.commitment.dataHash := by
  obtain _ | _ | _ | ⟨hm, ⟨⟩⟩ := effect_inv h he
  exact ⟨_, hm, ‹_›, rfl, rfl, rfl⟩

lemma accepted_inv (h : m.step P i = .ok (m', fx)) (he : .accepted task ∈ fx) :
    task ∈ m.tasks ∧ task.payload.comptueHash P = task.commitment.dataHash := by
  obtain _ | _ | _ | ⟨hm, ⟨⟩⟩ := effect_inv h he
  exact ⟨hm, ‹_›⟩

lemma wrote_inv {file : String} (h : m.step P i = .ok (m', fx)) (he : .wrote task file ∈ fx) :
    task ∈ m.tasks ∧ task.phase = .write
      ∧ file = gradientsFile P task.from_.signer task.payload.step task.payload.batchId := by
  obtain _ | _ | _ | ⟨hm, ⟨⟩⟩ := effect_inv h he
  exact ⟨hm, ‹_›, rfl⟩

end Inversion
end Leviathan.StepStateMachine
