import Leviathan.Client.State

/-!
# What a client does

Model of `shared/client/src/state/steps.rs`: gossip (`applyMessage`), downloads (`applyDistroResult`), the tasks that
check what was downloaded (`runTask`), and changes of the coordinator (`applyState`), with the start of a round of
`TrainingStepMetadata::start` and of a warmup (`train.rs`, `warmup.rs`).

Every message, download and task section is one step of the client's `machine`, in any order. Who a message is from has
been checked before (`client.rs`). A step that fails stops a real client; here it is refused.
-/

namespace Leviathan

def RawBatchId.of (batchId : BatchId) : RawBatchId := ⟨BitVec.ofNat 64 batchId.start, BitVec.ofNat 64 batchId.end_⟩

namespace StepStateMachine

section Access

def round (m : StepStateMachine) : RoundSlot → RoundState
  | .current => m.currentRound
  | .previous => m.previousRound

def setRound (m : StepStateMachine) (round : RoundState) : RoundSlot → StepStateMachine
  | .current => { m with currentRound := round }
  | .previous => { m with previousRound := round }

def sharedOf (m : StepStateMachine) (id : Nat) : SharedRound := m.sharedRounds.getD id .new

def setShared (m : StepStateMachine) (id : Nat) (shared : SharedRound) : StepStateMachine :=
  { m with sharedRounds := m.sharedRounds.set id shared }

/-- Move a task on. -/
def setPhase (m : StepStateMachine) (index : Nat) (task : VerifyTask) (phase : TaskPhase) : StepStateMachine :=
  { m with tasks := m.tasks.set index { task with phase } }

/-- Whether a payload is known to a round. -/
def distroResultBlobDownloaded (m : StepStateMachine) (round : RoundState) (hash : Bytes32) : Bool :=
  ((m.sharedOf round.shared).downloads.lookup hash).isSome

end Access

section Messages
variable {ε : Type}

/-- The round a message is about. -/
def slotOfStep (m : StepStateMachine) (step : BitVec 32) : Option RoundSlot :=
  if m.currentRound.step = step then some .current
  else if m.previousRound.step = step then some .previous
  else none

/-- Whether the sender of a message may send it; if not, what becomes of the message. -/
def checkSender (P : Platform) (m : StepStateMachine) (round : RoundState) (from_ : NodeIdentity)
    (broadcast : Broadcast) : Exec ε Panic (Option ApplyMessageOutcome) :=
  let clients := m.coordinatorState.epochState.clients.toList
  if !broadcast.isWarmup && from_ != m.identity then
    match round.committeeInfo with
    | some (_, _, selection) => do
      let verified ← selection.verifyCommitteeForClient P from_ broadcast.proof clients
      .ok (if verified then none else some .invalid)
    | none => .ok (some .ignored)
  else
    .ok (if clients.any fun x => x.id == from_ then none else some .invalid)

/-- The client with an announcement in one of its rounds. -/
def record (m : StepStateMachine) (slot : RoundSlot) (a : Announcement) : StepStateMachine :=
  let round := m.round slot
  let shared := m.sharedOf round.shared
  let downloads := shared.downloads.insert a.result.ticket.hash (.downloading a.from_ a.result.batchId a.result.ticket)
  (m.setRound { round with
      results := round.results.insert a.result.batchId (round.announcements a.result.batchId ++ [a])
      broadcasts := round.broadcasts ++ [a.commitment.dataHash] } slot).setShared round.shared { shared with downloads }

/-- The announcement of a result (in Rust `apply_message`). -/
def applyTrainingResult (m : StepStateMachine) (slot : RoundSlot) (from_ : NodeIdentity) (broadcast : Broadcast)
    (result : TrainingResult) : StepStateMachine × ApplyMessageOutcome × List ClientEffect :=
  let round := m.round slot
  match round.assignee result.batchId with
  | none => (m, .invalid, [])
  | some assignee =>
    if m.distroResultBlobDownloaded round result.ticket.hash then
      (m, .ignored, [])
    else if from_ != assignee then
      (m, .invalid, [])
    else
      let a : Announcement := ⟨from_, broadcast.commitment, result⟩
      -- the client's own payload is put in place without a download
      (m.record slot a, .applied, .recorded round.shared broadcast.step a
        :: if from_ == m.identity then [] else [.requested result.ticket])

/-- The announcement that a client is done (in Rust `apply_message`). -/
def applyFinished (m : StepStateMachine) (slot : RoundSlot) (from_ : NodeIdentity) (broadcast : Broadcast)
    (finished : Finished) : StepStateMachine × ApplyMessageOutcome × List ClientEffect :=
  let round := m.round slot
  if (round.clientsFinished.lookup from_.signer).isSome then
    (m, .ignored, [])
  else
    (m.setRound { round with
        clientsFinished := round.clientsFinished.insert from_.signer finished
        broadcasts := round.broadcasts ++ [broadcast.commitment.dataHash] } slot,
      .applied, [])

def applyMessage (P : Platform) (m : StepStateMachine) (from_ : NodeIdentity) (broadcast : Broadcast) :
    Exec ε Panic (StepStateMachine × ApplyMessageOutcome × List ClientEffect) :=
  match m.slotOfStep broadcast.step with
  | none => .ok (m, .invalid, [])
  | some slot => do
    match ← m.checkSender P (m.round slot) from_ broadcast with
    | some outcome => .ok (m, outcome, [])
    | none =>
      if !broadcast.isWarmup && broadcast.proof.committee != .trainer then
        .ok (m, .invalid, [])
      else
        match broadcast.data with
        | .trainingResult result => .ok (m.applyTrainingResult slot from_ broadcast result)
        | .finished finished => .ok (m.applyFinished slot from_ broadcast finished)

end Messages

section Downloads

def slotOfBlob (m : StepStateMachine) (hash : Bytes32) : Option RoundSlot :=
  if m.distroResultBlobDownloaded m.currentRound hash then some .current
  else if m.distroResultBlobDownloaded m.previousRound hash then some .previous
  else none

/-- Who has announced a payload for which batch, and the commitment to it. -/
def announcementOf (m : StepStateMachine) (round : RoundState) (hash : Bytes32) :
    Option (NodeIdentity × RawBatchId × Commitment) :=
  match (m.sharedOf round.shared).downloads.lookup hash with
  | some (.downloading from_ batchId _) =>
    ((round.announcements batchId).find? fun a => a.from_ == from_ && a.result.ticket.hash == hash).map fun a =>
      (from_, batchId, a.commitment)
  | _ => none

/-- Rust `apply_distro_result`: spawn a task that checks the payload. `own` tells whether the client has computed it. -/
def applyDistroResult (m : StepStateMachine) (hash : Bytes32) (payload : TransmittableDistroResult) (own : Bool) :
    StepStateMachine × List ClientEffect :=
  match m.slotOfBlob hash with
  | none => (m, [])
  | some slot =>
    match m.announcementOf (m.round slot) hash with
    | none => (m, [])
    | some (from_, batchId, commitment) =>
      let task : VerifyTask :=
        { shared := (m.round slot).shared
          hash
          from_
          batchId
          commitment
          payload
          writes := !own && m.writeGradientsDir
          phase := .verify }
      ({ m with tasks := m.tasks ++ [task] }, [.received task])

end Downloads

section Tasks

/-- The section of a task in which it holds the locks on the batches that are left and on the blooms. -/
def vote (P : Platform) (shared : SharedRound) (task : VerifyTask) : SharedRound × TaskPhase × List ClientEffect :=
  match shared.batchIdsNotYetTrainedOn with
  | none => (shared, .finish false, [])
  | some remaining =>
    let first := task.batchId ∈ remaining
    let left := remaining.erase task.batchId
    let shared' := { shared with
      batchIdsNotYetTrainedOn := some left
      blooms := shared.blooms.map fun (participantBloom, broadcastBloom) =>
        (participantBloom.add (P.sha256 task.from_.signer.bytes).bytes,
          -- first received payload for this batch
          if first then broadcastBloom.add task.commitment.dataHash.bytes else broadcastBloom) }
    (shared', .finish (left = ∅),
      if shared.blooms.isSome ∧ first then [.voted task.shared task.batchId task.commitment.dataHash] else [])

/-- One section of a task (the body of `tokio::spawn` in Rust `apply_distro_result`): the shared part after it, the next
section, and the effects. `written` tells whether the file could be written. -/
def runSection (P : Platform) (shared : SharedRound) (task : VerifyTask) (written : Bool) :
    Option (SharedRound × TaskPhase × List ClientEffect) :=
  match task.phase with
  | .verify =>
    if task.payload.comptueHash P = task.commitment.dataHash then some (shared, .write, [.accepted task])
    else some (shared, .done, [])
  | .write =>
    some (shared, .vote, if task.writes && written then
      [.wrote task (gradientsFile P task.from_.signer task.payload.step task.payload.batchId)] else [])
  | .vote => some (vote P shared task)
  | .finish justFinished =>
    some (if justFinished then { shared with batchIdsNotYetTrainedOn := none } else shared, .store, [])
  | .store =>
    some ({ shared with downloads := shared.downloads.insert task.hash (.deserializing task.payload) }, .done, [])
  | .done => none

/-- Let a task run its next section. -/
def runTask (P : Platform) (m : StepStateMachine) (index : Nat) (written : Bool) :
    Exec ClientError Panic (StepStateMachine × List ClientEffect) := do
  let task ← Exec.okOr m.tasks[index]? .noTask
  let (shared, phase, fx) ← Exec.okOr (runSection P (m.sharedOf task.shared) task written) .noTask
  .ok ((m.setShared task.shared shared).setPhase index task phase, fx)

end Tasks

section Rounds

/-- Two new rounds (Rust `WarmupStepMetadata::start`). -/
def startWarmup (m : StepStateMachine) : StepStateMachine :=
  { m with
    activeStep := .warmup
    previousRound := .new m.sharedRounds.length
    currentRound := .new (m.sharedRounds.length + 1)
    sharedRounds := m.sharedRounds ++ [.new, .new] }

/-- What it takes to apply the results of the round before the last (Rust `apply_results`, up to the task it spawns). -/
def applyResults (P : Platform) (m : StepStateMachine) (state : Coordinator) : Exec ClientError Panic Unit :=
  if m.currentRound.height = 0 then
    .ok ()
  else do
    let previousRound ← Exec.okOr state.previousRound .noActiveRound
    let _ ← Exec.mapErr .coordinator (state.witnessQuorum previousRound.witnesses.len)
    let previousPreviousRound ← Exec.okOr state.previousPreviousRound .noActiveRound
    let (_, _, selection) ← Exec.okOr m.previousRound.committeeInfo .noActiveRound
    let numTrainerNodes ← selection.getNumTrainerNodes
    let _ ← state.getBatchIdsForRound P previousPreviousRound numTrainerNodes
    .ok ()

/-- The random keys of the blooms of a round. -/
structure BloomKeys where
  participant : Vector (BitVec 64) 8
  broadcast : Vector (BitVec 64) 8

/-- The assignments of a round and its batches, unless the epoch is about to end (in Rust `TrainingStepMetadata::start`). -/
def roundData (P : Platform) (state : Coordinator) (selection : CommitteeSelection) :
    Exec ClientError Panic (List (RawBatchId × NodeIdentity) × Option (Finset RawBatchId)) :=
  if state.epochState.lastStepSet then
    .ok ([], none)
  else do
    let dataAssignments ← state.assignDataForState P selection
    let numTrainerNodes ← selection.getNumTrainerNodes
    let allBatchIds ← state.getBatchIdsForRound P state.currentRound numTrainerNodes
    .ok (dataAssignments.map fun x => (.of x.1, x.2), some (allBatchIds.map RawBatchId.of).toFinset)

/-- A new round; the round that was current becomes the previous one (Rust `TrainingStepMetadata::start`). -/
def startTraining (P : Platform) (m : StepStateMachine) (clientIndex : Nat) (state : Coordinator) (keys : BloomKeys) :
    Exec ClientError Panic StepStateMachine := do
  m.applyResults P state
  Exec.require (m.currentRound.height = 0 ∨ m.currentRound.committeeInfo.isSome = true) .noCommitteeInfo
  let round := state.currentRound
  let selection ← Exec.mapErr .coordinator (CommitteeSelection.new P round.tieBreakerTasks state.config.witnessNodes
    state.config.verificationPercent state.epochState.clients.len round.randomSeed)
  let (dataAssignments, batchIdsNotYetTrainedOn) ← roundData P state selection
  let committeeProof ← selection.getCommittee P clientIndex
  let witnessProof ← selection.getWitness P clientIndex
  .ok { m with
    activeStep := .training
    previousRound := m.currentRound
    currentRound :=
      { height := round.height
        step := BitVec.ofNat 32 state.progress.step
        results := ∅
        clientsFinished := ∅
        dataAssignments
        broadcasts := []
        committeeInfo := some (committeeProof, witnessProof, selection)
        shared := m.sharedRounds.length }
    sharedRounds := m.sharedRounds ++ [
      { downloads := ∅
        blooms := some (⟨keys.participant, 0⟩, ⟨keys.broadcast, 0⟩)
        batchIdsNotYetTrainedOn }] }

/-- What `apply_state` does to a client that is present, before it takes note of the state. -/
def follow (P : Platform) (m : StepStateMachine) (c : Coordinator) (keys : BloomKeys) (clientIndex : Nat) :
    Exec ClientError Panic StepStateMachine :=
  match m.activeStep, c.runState with
  | .warmup, .roundTrain => m.startTraining P clientIndex c keys
  | .training, .roundWitness => .ok { m with activeStep := .witness }
  | .witness, .roundTrain => m.startTraining P clientIndex c keys
  | .witness, .cooldown => .ok { m with activeStep := .cooldown }
  | .cooldown, .waitingForMembers => .ok m.startWarmup
  | .cooldown, .warmup => .ok m.startWarmup
  | .cooldown, .paused => .ok m.startWarmup
  | activeStep, runState =>
    if activeStep.allowedInRunState runState then .ok m else Exec.fail (.desync activeStep runState)

/-- Rust `apply_state`. A client that is not in the run goes back to the warmup, without taking note of the new state. -/
def applyState (P : Platform) (m : StepStateMachine) (state : Coordinator) (keys : BloomKeys) :
    Exec ClientError Panic StepStateMachine :=
  match state.epochState.clients.toList.findIdx? fun x => x.id == m.identity with
  | none =>
    match m.activeStep with
    | .warmup => .ok m
    | .training | .witness | .cooldown => .ok m.startWarmup
  | some clientIndex => do
    let m ← m.follow P state keys clientIndex
    .ok { m with coordinatorState := state }

/-- A client that has just been set up. -/
def new (identity : NodeIdentity) (writeGradientsDir : Bool) (coordinatorState : Coordinator) : StepStateMachine :=
  startWarmup
    { identity
      writeGradientsDir
      activeStep := .warmup
      currentRound := .new 0
      previousRound := .new 0
      coordinatorState
      sharedRounds := []
      tasks := [] }

end Rounds
end StepStateMachine

inductive ClientInput where
  | applyMessage (from_ : NodeIdentity) (broadcast : Broadcast)
  | applyDistroResult (hash : Bytes32) (payload : TransmittableDistroResult) (own : Bool)
  | applyState (state : Coordinator) (keys : StepStateMachine.BloomKeys)
  | runTask (index : Nat) (written : Bool)

namespace StepStateMachine

def step (P : Platform) (m : StepStateMachine) :
    ClientInput → Exec ClientError Panic (StepStateMachine × List ClientEffect)
  | .applyMessage from_ broadcast => do
    let (m, _, fx) ← m.applyMessage P from_ broadcast
    .ok (m, fx)
  | .applyDistroResult hash payload own => .ok (m.applyDistroResult hash payload own)
  | .applyState state keys => do
    let m ← m.applyState P state keys
    .ok (m, [])
  | .runTask index written => m.runTask P index written

/-- A client, driven by the network, the coordinator and its own tasks. -/
def machine (P : Platform) : Machine StepStateMachine ClientInput (List ClientEffect) (Fault ClientError Panic) where
  init m := ∃ identity writeGradientsDir coordinatorState, m = new identity writeGradientsDir coordinatorState
  step m i := m.step P i

abbrev Record := List (Event StepStateMachine ClientInput (List ClientEffect))

end StepStateMachine
end Leviathan
