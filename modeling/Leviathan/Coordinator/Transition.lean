import Leviathan.Coordinator.Committee

/-!
# The operations of the coordinator

Model of the functions of `shared/coordinator/src/coordinator.rs` that change the coordinator. Each Rust
method on `&mut self` becomes a function that returns the new coordinator; a fault leaves the caller
with the old one. The order of the checks is the Rust order, and a condition that Rust evaluates lazily
is evaluated lazily here, since the skipped part may overflow.

A clock value is an argument, as in Rust; `tick` also takes the identities waiting to join and a random
seed.
-/

namespace Leviathan

/-- Move every client that is not healthy to the exited list. Rust pushes
them one by one and unwraps each push. -/
def CoordinatorEpochState.moveClientsToExited (e : CoordinatorEpochState) (height : Nat) :
    Exec CoordinatorError Panic CoordinatorEpochState := do
  let leaving := e.clients.toList.filter fun x => x.state != .healthy
  let exitedClients ← Exec.unwrap
    (e.exitedClients.extend (leaving.map fun x => { x with exitedHeight := height })) .exitedClientsFull
  .ok { e with clients := e.clients.retain fun x => x.state == .healthy, exitedClients }

namespace Coordinator

def setClientState (c : Coordinator) (index : Nat) (state : ClientState) : Coordinator :=
  c.setEpochState { c.epochState with
    clients := c.epochState.clients.modify index fun x => { x with state } }

/-- Enter a different phase. -/
def changeState (c : Coordinator) (unixTimestamp : Nat) (newState : RunState) :
    Exec CoordinatorError Panic Coordinator := do
  Exec.ensure (c.runState ≠ newState) .sameState
  .ok { c with runStateStartUnixTimestamp := unixTimestamp, runState := newState }

/-- The phase between epochs: waiting, or finished after the last step. -/
def betweenEpochs (c : Coordinator) : RunState :=
  if c.progress.step < c.config.totalSteps then .waitingForMembers else .finished

def startWaitingForMembers (c : Coordinator) (unixTimestamp : Nat) :
    Exec CoordinatorError Panic Coordinator :=
  c.changeState unixTimestamp c.betweenEpochs

def startWarmup (c : Coordinator) (unixTimestamp : Nat) : Exec CoordinatorError Panic Coordinator :=
  c.changeState unixTimestamp .warmup

/-- Rust `start_cooldown`; the current round's witnesses are cleared. -/
def startCooldown (c : Coordinator) (unixTimestamp : Nat) : Exec CoordinatorError Panic Coordinator :=
  (c.setCurrentRound { c.currentRound with witnesses := .new }).changeState unixTimestamp .cooldown

/-- Slot, height and first data index of the round that starts next. -/
def nextRound (P : Platform) (c : Coordinator) :
    Exec CoordinatorError Panic (Fin numStoredRounds × Nat × Nat) :=
  if c.epochState.firstRound then
    .ok (0, 0, c.progress.epochStartDataIndex)
  else do
    let prevRound := c.currentRound
    let prevRoundStartTokens ← mulU 64 prevRound.dataIndex c.getSequenceLength
    let prevRoundBatchSize := c.config.getBatchSize P prevRoundStartTokens
    let height ← addU 32 prevRound.height 1
    let dataIndex ← addU 64 prevRound.dataIndex prevRoundBatchSize
    .ok (c.epochState.roundsHead + 1, height, dataIndex)

def startRoundTrain (P : Platform) (c : Coordinator) (unixTimestamp randomSeed tieBreakerTasks : Nat) :
    Exec CoordinatorError Panic Coordinator := do
  let (roundsHead, height, dataIndex) ← c.nextRound P
  let round : Round :=
    { witnesses := .new
      dataIndex
      randomSeed
      height
      clientsLen := asU16 c.epochState.clients.len
      tieBreakerTasks }
  let c := c.setEpochState { c.epochState with
    rounds := c.epochState.rounds.set roundsHead round
    roundsHead }
  c.changeState unixTimestamp .roundTrain

/-- Change the standing of a client whose present standing allows it. -/
def markClient (c : Coordinator) (index : Nat) (allowed : ClientState → Bool) (state : ClientState)
    (err : CoordinatorError) : Exec CoordinatorError Panic Coordinator :=
  match c.epochState.clients.get? index with
  | some client => if allowed client.state then .ok (c.setClientState index state) else Exec.fail err
  | none => Exec.fail err

/-- A healthy client leaves. -/
def withdraw (c : Coordinator) (index : Nat) : Exec CoordinatorError Panic Coordinator :=
  c.markClient index (fun s => s == .healthy) .withdrawn .invalidWithdraw

/-- A convicted client is marked for slashing. -/
def eject (c : Coordinator) (index : Nat) : Exec CoordinatorError Panic Coordinator :=
  c.markClient index (fun s => s == .healthy || s == .dropped) .ejected .invalidSlash

/-- Withdraw a client, ignoring the error if it cannot leave. -/
def withdrawOrSkip (c : Coordinator) (index : Nat) : Coordinator :=
  match c.withdraw index with
  | .ok c' => c'
  | .error _ => c

/-- Every client leaves. -/
def withdrawAll (c : Coordinator) : Coordinator :=
  (List.range c.epochState.clients.len).foldl withdrawOrSkip c

/-- Rust `pause`: at once between epochs and in warmup, at the end of the epoch otherwise. -/
def pause (c : Coordinator) (unixTimestamp : Nat) : Exec CoordinatorError Panic Coordinator :=
  if c.halted then
    Exec.fail .halted
  else if c.active then
    .ok { c with pendingPause := true }
  else do
    let c ← c.withdrawAll.changeState unixTimestamp .paused
    .ok (c.setEpochState { c.epochState with coldStartEpoch := true })

def resume (c : Coordinator) (unixTimestamp : Nat) : Exec CoordinatorError Panic Coordinator := do
  Exec.require (c.runState = .paused) .cannotResume
  c.startWaitingForMembers unixTimestamp

/-- A client reports where it stored the weights. -/
def checkpoint (c : Coordinator) (from_ : NodeIdentity) (index : Nat) (repo : Checkpoint) :
    Exec CoordinatorError Panic Coordinator := do
  Exec.require (CommitteeSelection.verifyClient from_ index c.epochState.clients.toList)
    .invalidCommitteeProof
  .ok { c with model := c.model.mapCheckpoint fun current => current.report repo }

section Witnesses

/-- How many witnesses complete a round. -/
def witnessTarget (c : Coordinator) : Nat :=
  if c.config.witnessNodes = 0 then min c.epochState.clients.len solanaMaxNumWitnesses
  else c.config.witnessNodes

/-- Whether a client is among the senders of stored witnesses. A stored index that is out of range of the client list
aborts. -/
def hasWitnessed (clients : List Client) (from_ : NodeIdentity) :
    List Witness → Exec CoordinatorError Panic Bool
  | [] => .ok false
  | w :: ws =>
    match clients[w.proof.index]? with
    | none => Exec.abort .indexOutOfBounds
    | some client => if client.id == from_ then .ok true else hasWitnessed clients from_ ws

/-- Store a witness in the current round. -/
def pushWitness (c : Coordinator) (from_ : NodeIdentity) (witness : Witness) :
    Exec CoordinatorError Panic Coordinator := do
  let dup ← hasWitnessed c.epochState.clients.toList from_ c.currentRound.witnesses.toList
  Exec.require (dup = false) .duplicateWitness
  let witnesses ← Exec.okOr (c.currentRound.witnesses.push witness) .witnessesFull
  .ok (c.setCurrentRound { c.currentRound with witnesses })

/-- A client reports that it has loaded the model. -/
def warmupWitness (P : Platform) (c : Coordinator) (from_ : NodeIdentity) (witness : Witness)
    (unixTimestamp randomSeed : Nat) : Exec CoordinatorError Panic Coordinator :=
  if c.halted then
    Exec.fail .halted
  else if c.runState = .roundTrain then
    .ok c
  else do
    Exec.require (c.runState = .warmup) .invalidRunState
    Exec.require (CommitteeSelection.verifyClient from_ witness.proof.index c.epochState.clients.toList)
      .invalidCommitteeProof
    let c' ← c.pushWitness from_ witness
    if c'.currentRound.witnesses.len = c.witnessTarget then
      c'.startRoundTrain P unixTimestamp randomSeed 0
    else
      .ok c'

/-- An elected witness reports on the round. -/
def witness (P : Platform) (c : Coordinator) (from_ : NodeIdentity) (witness : Witness)
    (unixTimestamp : Nat) : Exec CoordinatorError Panic Coordinator := do
  Exec.require (c.halted = false) .halted
  Exec.require (c.runState = .roundWitness ∨ c.runState = .roundTrain) .invalidRunState
  let selection ← CommitteeSelection.fromCoordinator P c 0
  let elected ← selection.verifyWitnessForClient P from_ witness.proof c.epochState.clients.toList
  Exec.require (elected = true ∧ witness.proof.witness = true) .invalidWitness
  let c' ← c.pushWitness from_ witness
  if c'.currentRound.witnesses.len = c.witnessTarget ∧ c'.runState ≠ .roundWitness then
    c'.changeState unixTimestamp .roundWitness
  else
    .ok c'

/-- How many confirmations make a trainer healthy. For four witnesses and more Rust multiplies by the `f64` nearest to two
thirds and truncates, for 16-bit counts the integer quotient. -/
def witnessQuorum (c : Coordinator) (numWitnesses : Nat) : Exec CoordinatorError Panic Nat :=
  match if c.config.witnessNodes = 0 then numWitnesses else c.config.witnessNodes with
  | 0 => Exec.abort .noWitnesses
  | 1 => .ok 1
  | 2 => .ok 2
  | 3 => .ok 2
  | n => .ok (max (2 * n / 3) 1)

/-- Confirmations of a client among witnesses. -/
def trainerHealthyScoreByWitnesses (P : Platform) (id : NodeIdentity) (witnesses : List Witness) : Nat :=
  witnesses.countP fun w => w.participantBloom.contains (P.sha256 id.signer.bytes).bytes

/-- Whether enough witnesses of the previous round confirmed a client. -/
def trainerHealthy (P : Platform) (c : Coordinator) (id : NodeIdentity) :
    Exec CoordinatorError Panic Bool := do
  let round ← Exec.okOr c.previousRound .noActiveRound
  let quorum ← c.witnessQuorum (asU16 round.witnesses.len)
  .ok (quorum ≤ trainerHealthyScoreByWitnesses P id round.witnesses.toList)

/-- Whether a client did its work in the previous round. -/
def healthy (P : Platform) (c : Coordinator) (id : NodeIdentity) (proof : CommitteeProof) :
    Exec CoordinatorError Panic Bool := do
  let round ← Exec.okOr c.previousRound .noActiveRound
  Exec.require (proof.index < round.clientsLen) .invalidCommitteeProof
  let client ← Exec.okOr (c.getClientAtHistoricalIndex proof.index round.clientsLen)
    .invalidCommitteeProof
  let selection ← CommitteeSelection.fromCoordinator P c (-1)
  Exec.require (client.id == id) .invalidCommitteeProof
  let seated ← selection.verifyCommitteeForClient P client.id proof c.epochState.clients.toList
  Exec.require (seated = true) .invalidCommitteeProof
  match proof.committee with
  | .tieBreaker => .ok true
  | .verifier => .ok true
  | .trainer => c.trainerHealthy P client.id

/-- Drop the client a health check names, counting it if it was healthy. -/
def dropClient (acc : Coordinator × Nat) (proof : CommitteeProof) :
    Exec CoordinatorError Panic (Coordinator × Nat) :=
  match acc.1.epochState.clients.get? proof.index with
  | none => Exec.abort .indexOutOfBounds
  | some client =>
    if client.state = .healthy then .ok (acc.1.setClientState proof.index .dropped, acc.2 + 1)
    else .ok acc

/-- Every named client must fail its health check. -/
def checkUnhealthy (P : Platform) (c : Coordinator) :
    List (NodeIdentity × CommitteeProof) → Exec CoordinatorError Panic Unit
  | [] => .ok ()
  | (id, proof) :: checks => do
    let ok ← c.healthy P id proof
    Exec.require (ok = false) .invalidHealthCheck
    checkUnhealthy P c checks

/-- Drop clients that did not do their work. -/
def healthCheck (P : Platform) (c : Coordinator) (checks : List (NodeIdentity × CommitteeProof)) :
    Exec CoordinatorError Panic (Coordinator × Nat) := do
  Exec.require (c.halted = false) .halted
  Exec.require (2 ≤ c.currentRound.height) .invalidHealthCheck
  c.checkUnhealthy P checks
  (checks.map Prod.snd).foldlM dropClient (c, 0)

end Witnesses

section Tick

/-- Start an epoch with the identities that wait (in Rust `tick_waiting_for_members`). -/
def beginEpoch (c : Coordinator) (pending : List NodeIdentity) (unixTimestamp : Nat) :
    Exec CoordinatorError Panic Coordinator := do
  let e ← c.epochState.moveClientsToExited c.currentRound.height
  let allPrevClientsDisconnected := !e.clients.toList.any fun client => pending.any (· == client.id)
  let model := if allPrevClientsDisconnected then c.model.mapCheckpoint .toRepository else c.model
  let clients ← Exec.unwrap
    (FixedVec.new.extend ((pending.take solanaMaxNumClients).map Client.new)) .clientsFull
  let c' : Coordinator :=
    { c with
      model
      epochState :=
        { CoordinatorEpochState.zeroed with
          firstRound := true
          coldStartEpoch := c.epochState.coldStartEpoch
          startStep := c.progress.step
          startTimestamp := unixTimestamp
          clients } }
  c'.startWarmup unixTimestamp

def tickWaitingForMembers (c : Coordinator) (pendingClients : Option (List NodeIdentity))
    (unixTimestamp : Nat) : Exec CoordinatorError Panic (Coordinator × TickResult) :=
  match pendingClients with
  | none => .ok (c, .ticked)
  | some pending =>
    if asU16 pending.length < c.config.initMinClients then
      .ok (c, .ticked)
    else do
      let timeout ← c.checkTimeout unixTimestamp c.config.waitingForMembersExtraTime
      if timeout then do
        let c ← c.beginEpoch pending unixTimestamp
        .ok (c, .ticked)
      else
        .ok (c, .ticked)

/-- Start the first round once warmup has lasted its time; until then clear out who has left. -/
def warmUp (P : Platform) (c : Coordinator) (unixTimestamp randomSeed : Nat) :
    Exec CoordinatorError Panic Coordinator := do
  let timeout ← c.checkTimeout unixTimestamp c.config.warmupTime
  if timeout then
    c.startRoundTrain P unixTimestamp randomSeed 0
  else do
    let e ← c.epochState.moveClientsToExited 0
    .ok (c.setEpochState e)

def tickWarmup (P : Platform) (c : Coordinator) (unixTimestamp randomSeed : Nat) :
    Exec CoordinatorError Panic (Coordinator × TickResult) := do
  let c ← c.warmUp P unixTimestamp randomSeed
  if asU16 c.epochState.clients.len < c.config.minClients then do
    let c ← c.startWaitingForMembers unixTimestamp
    .ok (c, .epochEnd false)
  else
    .ok (c, .ticked)

def tickRoundTrain (c : Coordinator) (unixTimestamp : Nat) :
    Exec CoordinatorError Panic (Coordinator × TickResult) := do
  let timeout ← c.checkTimeout unixTimestamp c.config.maxRoundTrainTime
  if timeout then do
    let c ← c.changeState unixTimestamp .roundWitness
    .ok (c, .ticked)
  else
    .ok (c, .ticked)

/-- Once the epoch has lasted its time, the last step is two steps ahead. -/
def setLastStep (c : Coordinator) (unixTimestamp : Nat) : Exec CoordinatorError Panic Coordinator := do
  let timeout ← c.checkEpochTimeout unixTimestamp
  if timeout && !c.epochState.lastStepSet then do
    let lastStep ← addU 32 c.progress.step 2
    .ok (if 4 ≤ lastStep then c.setEpochState { c.epochState with lastStep } else c)
  else
    .ok c

/-- Whether the epoch ends after this round for a reason other than its last step. -/
def cannotContinue (c : Coordinator) (numWitnesses : Nat) : Exec CoordinatorError Panic Bool :=
  if c.epochState.clients.len < c.config.minClients then
    .ok true
  else do
    let quorum ← c.witnessQuorum numWitnesses
    .ok (numWitnesses < quorum || c.config.totalSteps ≤ c.progress.step || c.pendingPause)

def tickRoundWitness (P : Platform) (c : Coordinator) (unixTimestamp randomSeed : Nat) :
    Exec CoordinatorError Panic (Coordinator × TickResult) := do
  let timeout ← c.checkTimeout unixTimestamp c.config.roundWitnessTime
  if timeout then do
    let step ← addU 32 c.progress.step 1
    let numWitnesses := asU16 c.currentRound.witnesses.len
    let e ← CoordinatorEpochState.moveClientsToExited { c.epochState with firstRound := false }
      c.currentRound.height
    let c : Coordinator := { c with progress := { c.progress with step }, epochState := e }
    if numWitnesses = 0 then do
      let c ← c.withdrawAll.startCooldown unixTimestamp
      .ok (c, .ticked)
    else do
      let c ← c.setLastStep unixTimestamp
      if c.epochState.lastStepSet && c.progress.step == c.epochState.lastStep then do
        let c ← c.startCooldown unixTimestamp
        .ok (c, .ticked)
      else do
        let stop ← c.cannotContinue numWitnesses
        if stop then do
          let c ← c.startCooldown unixTimestamp
          .ok (c, .ticked)
        else do
          let c ← c.startRoundTrain P unixTimestamp randomSeed 0
          .ok (c, .ticked)
  else
    .ok (c, .ticked)

def tickCooldown (P : Platform) (c : Coordinator) (unixTimestamp : Nat) :
    Exec CoordinatorError Panic (Coordinator × TickResult) := do
  let timeout ← c.checkTimeout unixTimestamp c.config.cooldownTime
  if timeout then do
    let lastRoundBatchSize ← c.getTargetGlobalBatchSize P (some c.currentRound)
    let epochStartDataIndex ← addU 64 c.currentRound.dataIndex lastRoundBatchSize
    let epoch ← addU 16 c.progress.epoch 1
    let e ← c.epochState.moveClientsToExited c.currentRound.height
    let c : Coordinator :=
      { c with
        progress := { c.progress with epoch, epochStartDataIndex }
        epochState := e
        model := c.model.mapCheckpoint .toP2P }
    if c.pendingPause then do
      let c ← c.withdrawAll.changeState unixTimestamp .paused
      .ok ({ c with
        pendingPause := false
        epochState := { c.epochState with coldStartEpoch := true } }, .epochEnd true)
    else do
      let c ← c.startWaitingForMembers unixTimestamp
      .ok (c.setEpochState { c.epochState with coldStartEpoch := false }, .epochEnd true)
  else
    .ok (c, .ticked)

/-- Let the time pass. -/
def tick (P : Platform) (c : Coordinator) (newClients : Option (List NodeIdentity))
    (unixTimestamp randomSeed : Nat) : Exec CoordinatorError Panic (Coordinator × TickResult) :=
  match c.runState with
  | .uninitialized | .finished | .paused => Exec.fail .halted
  | .waitingForMembers => c.tickWaitingForMembers newClients unixTimestamp
  | .warmup => c.tickWarmup P unixTimestamp randomSeed
  | .roundTrain => c.tickRoundTrain unixTimestamp
  | .roundWitness => c.tickRoundWitness P unixTimestamp randomSeed
  | .cooldown => c.tickCooldown P unixTimestamp

end Tick
end Coordinator
end Leviathan
