import Leviathan.Core.FixedVec
import Leviathan.Core.Bloom
import Leviathan.Coordinator.Model

/-!
# The state of the coordinator

Model of the data types of `shared/coordinator/src/coordinator.rs` and of the functions that only read them. Names are
the Rust ones. Unsigned integers are `Nat`; arithmetic on them is checked in the operations.

Two fields have narrower types than in Rust. `rounds_head` is a `Fin 4`: only `start_round_train` writes it, and always
reduced modulo the number of stored rounds, so `current_round` is never `None`. A client list is a `FixedVec`, hence
never longer than 256.

What the code takes from outside is collected in `Platform`: the hash function, and the rounding of the floating-point
arithmetic of `get_batch_size`. Nothing is assumed of them here. The run identifier, which is not read, is left out.
-/

namespace Leviathan
open Exec

/-- Most clients of an epoch. -/
abbrev solanaMaxNumClients : Nat := 256

/-- Most witnesses of a round. -/
abbrev solanaMaxNumWitnesses : Nat := 32

/-- Rounds kept in the ring buffer. -/
abbrev numStoredRounds : Nat := 4

instance : NeZero numStoredRounds := ⟨by decide⟩

/-- What the programs are linked with and run on. -/
structure Platform where
  sha256 : Sha256
  /-- The `f64` that stands for a number. -/
  f64 : Rat → Rat
  /-- The base58 form of some bytes (Rust `bs58::encode`). -/
  bs58 : Bytes → String

inductive RunState where
  | uninitialized
  | waitingForMembers
  | warmup
  | roundTrain
  | roundWitness
  | cooldown
  | finished
  | paused
deriving DecidableEq, Repr

/-- The standing of a client in the epoch. -/
inductive ClientState where
  | healthy
  | dropped
  | withdrawn
  | ejected
deriving DecidableEq, Repr

/-- A client of the current epoch. -/
structure Client where
  id : NodeIdentity
  state : ClientState
  exitedHeight : Nat

def Client.new (id : NodeIdentity) : Client := ⟨id, .healthy, 0⟩

/-- A claimed seat in the witness lottery. -/
structure WitnessProof where
  position : Nat
  index : Nat
  witness : Bool
deriving DecidableEq, Repr

/-- What a witness reports about a round. -/
structure Witness where
  proof : WitnessProof
  participantBloom : WitnessBloom
  broadcastBloom : WitnessBloom
  broadcastMerkle : Bytes32

/-- A round of the ring buffer. -/
structure Round where
  witnesses : FixedVec Witness solanaMaxNumWitnesses
  dataIndex : Nat
  randomSeed : Nat
  height : Nat
  clientsLen : Nat
  tieBreakerTasks : Nat

def Round.zeroed : Round := ⟨.new, 0, 0, 0, 0, 0⟩

/-- The parameters of a run. -/
structure CoordinatorConfig where
  warmupTime : Nat
  cooldownTime : Nat
  maxRoundTrainTime : Nat
  roundWitnessTime : Nat
  globalBatchSizeWarmupTokens : Nat
  epochTime : Nat
  totalSteps : Nat
  initMinClients : Nat
  minClients : Nat
  witnessNodes : Nat
  globalBatchSizeStart : Nat
  globalBatchSizeEnd : Nat
  verificationPercent : Nat
  waitingForMembersExtraTime : Nat
deriving DecidableEq, Repr

/-- The part of the state that is zeroed when an epoch starts. -/
structure CoordinatorEpochState where
  rounds : Vector Round numStoredRounds
  clients : FixedVec Client solanaMaxNumClients
  exitedClients : FixedVec Client solanaMaxNumClients
  roundsHead : Fin numStoredRounds
  startStep : Nat
  lastStep : Nat
  startTimestamp : Nat
  firstRound : Bool
  coldStartEpoch : Bool

/-- The epoch state `bytemuck::write_zeroes` leaves. -/
def CoordinatorEpochState.zeroed : CoordinatorEpochState where
  rounds := Vector.replicate _ .zeroed
  clients := .new
  exitedClients := .new
  roundsHead := 0
  startStep := 0
  lastStep := 0
  startTimestamp := 0
  firstRound := false
  coldStartEpoch := false

/-- Whether the step the epoch ends at has been fixed. -/
def CoordinatorEpochState.lastStepSet (e : CoordinatorEpochState) : Bool := e.lastStep != 0

/-- How far training got. -/
structure CoordinatorProgress where
  epoch : Nat
  step : Nat
  epochStartDataIndex : Nat
deriving DecidableEq, Repr

def CoordinatorProgress.check (p : CoordinatorProgress) : Bool := 0 < p.step

structure Coordinator where
  runState : RunState
  model : Model
  config : CoordinatorConfig
  progress : CoordinatorProgress
  epochState : CoordinatorEpochState
  runStateStartUnixTimestamp : Nat
  pendingPause : Bool

inductive CoordinatorError where
  | noActiveRound
  | invalidWitness
  | invalidRunState
  | duplicateWitness
  | invalidHealthCheck
  | halted
  | witnessesFull
  | cannotResume
  | invalidWithdraw
  | invalidCommitteeSelection
  | invalidCommitteeProof
  | invalidSlash
deriving DecidableEq, Repr

inductive TickResult where
  | ticked
  | epochEnd (success : Bool)
deriving DecidableEq, Repr

/-- The reason a configuration is refused. -/
inductive ConfigError where
  | epochTime
  | warmupTime
  | maxRoundTrainTime
  | roundWitnessTime
  | minClients
  | initMinClients
  | globalBatchSize
  | totalSteps
  | witnessNodes
  | cooldownTime
  | waitingForMembersExtraTime
deriving DecidableEq, Repr

namespace CoordinatorConfig
variable {c : CoordinatorConfig}

/-- The sanity check of a configuration, with its reason. -/
def checkError (c : CoordinatorConfig) : Exec ConfigError Panic Unit := do
  Exec.require (c.epochTime ≠ 0) .epochTime
  Exec.require (c.warmupTime < c.epochTime) .warmupTime
  Exec.require (c.maxRoundTrainTime ≠ 0 ∧ c.maxRoundTrainTime < c.epochTime) .maxRoundTrainTime
  Exec.require (c.roundWitnessTime ≠ 0) .roundWitnessTime
  Exec.require (c.minClients ≠ 0) .minClients
  Exec.require (c.minClients ≤ c.initMinClients ∧ c.initMinClients ≤ solanaMaxNumClients)
    .initMinClients
  Exec.require (c.globalBatchSizeStart ≠ 0 ∧ c.globalBatchSizeEnd ≠ 0
    ∧ c.globalBatchSizeStart ≤ c.globalBatchSizeEnd) .globalBatchSize
  Exec.require (c.totalSteps ≠ 0) .totalSteps
  Exec.require (c.witnessNodes ≤ c.minClients ∧ c.witnessNodes ≤ solanaMaxNumWitnesses) .witnessNodes
  Exec.require (c.cooldownTime ≠ 0) .cooldownTime
  Exec.require (c.waitingForMembersExtraTime ≠ 0) .waitingForMembersExtraTime

def check (c : CoordinatorConfig) : Bool :=
  match c.checkError with
  | .ok _ => true
  | .error _ => false

/-- What later proofs use of the check of a configuration. -/
structure Checked (c : CoordinatorConfig) : Prop where
  warmupTime : c.warmupTime < c.epochTime
  trainTime : c.maxRoundTrainTime ≠ 0 ∧ c.maxRoundTrainTime < c.epochTime
  minClients : c.minClients ≠ 0
  initMinClients : c.minClients ≤ c.initMinClients ∧ c.initMinClients ≤ solanaMaxNumClients
  witnessNodes : c.witnessNodes ≤ c.minClients ∧ c.witnessNodes ≤ solanaMaxNumWitnesses
  batchSize : c.globalBatchSizeStart ≠ 0 ∧ c.globalBatchSizeEnd ≠ 0 ∧ c.globalBatchSizeStart ≤ c.globalBatchSizeEnd

/-- A configuration that passes the check has these properties. -/
lemma checked_of_check (h : c.check = true) : c.Checked := by
  have hok : c.checkError = .ok () := by
    unfold check at h
    split at h
    · assumption
    · cases h
  simp only [checkError, bind_eq_ok, require_eq_ok] at hok
  obtain ⟨_, _, _, hwarm, _, htrain, _, _, _, hmin, _, hinit, _, hbatch, _, _, _, hwitness, _⟩ := hok
  exact ⟨hwarm, htrain, hmin, hinit, hwitness, hbatch⟩

/-- The durations that `check_timeout` is called with. -/
def durations (c : CoordinatorConfig) : List Nat :=
  [c.waitingForMembersExtraTime, c.warmupTime, c.maxRoundTrainTime, c.roundWitnessTime, c.cooldownTime]

/-- Rust `round() as u16`, which saturates. -/
def roundU16 (x : Rat) : Nat := min (x + 1 / 2).floor.toNat (2 ^ 16 - 1)

/-- The batch size after a number of processed tokens. -/
def getBatchSize (P : Platform) (c : CoordinatorConfig) (totalTokensProcessed : Nat) : Nat :=
  if c.globalBatchSizeWarmupTokens ≤ totalTokensProcessed then
    c.globalBatchSizeEnd
  else
    let start := P.f64 c.globalBatchSizeStart
    let progress := P.f64 (P.f64 totalTokensProcessed / P.f64 c.globalBatchSizeWarmupTokens)
    let range := P.f64 (P.f64 c.globalBatchSizeEnd - start)
    roundU16 (P.f64 (start + P.f64 (range * progress)))

end CoordinatorConfig

namespace Coordinator
variable {ε : Type}

def currentRound (c : Coordinator) : Round := c.epochState.rounds[c.epochState.roundsHead]

def setEpochState (c : Coordinator) (e : CoordinatorEpochState) : Coordinator :=
  { c with epochState := e }

def setCurrentRound (c : Coordinator) (round : Round) : Coordinator :=
  c.setEpochState { c.epochState with
    rounds := c.epochState.rounds.set c.epochState.roundsHead round }

/-- The slot before the current one. -/
def previousSlot (c : Coordinator) : Round := c.epochState.rounds[c.epochState.roundsHead - 1]

/-- The round before the current one. Subtraction in `Fin 4` wraps around, as in the Rust case split on the head. -/
def previousRound (c : Coordinator) : Option Round :=
  if c.epochState.roundsHead = 0 ∧ c.currentRound.height = 0 then
    none
  else
    some (c.epochState.rounds[c.epochState.roundsHead - 1])

def previousPreviousRound (c : Coordinator) : Option Round :=
  if c.epochState.roundsHead = 0 ∧ c.currentRound.height ≤ 1 then
    none
  else
    some (c.epochState.rounds[c.epochState.roundsHead - 2])

def active (c : Coordinator) : Bool :=
  match c.runState with
  | .waitingForMembers | .warmup | .uninitialized | .finished | .paused => false
  | _ => true

/-- Whether the run stands still. -/
def halted (c : Coordinator) : Bool :=
  match c.runState with
  | .uninitialized | .finished | .paused => true
  | _ => false

/-- The client that had index `n` when a round with `prevClientsLen` clients started (Rust
`get_client_at_historical_index`). -/
def getClientAtHistoricalIndex (c : Coordinator) (n prevClientsLen : Nat) : Option Client :=
  if n < c.epochState.clients.len then
    c.epochState.clients.get? n
  else if n < prevClientsLen then
    c.epochState.exitedClients.toList.reverse[prevClientsLen - n - 1]?
  else
    none

def getSequenceLength (c : Coordinator) : Nat := c.model.llm.maxSeqLen

/-- Tokens processed before a round, or before the epoch. -/
def totalTokensProcessed (c : Coordinator) (round : Option Round) : Exec ε Panic Nat :=
  let currentDataStartIndex := (round.map Round.dataIndex).getD c.progress.epochStartDataIndex
  mulU 64 currentDataStartIndex c.getSequenceLength

def getTargetGlobalBatchSize (P : Platform) (c : Coordinator) (round : Option Round) :
    Exec ε Panic Nat := do
  let tokensProcessed ← c.totalTokensProcessed round
  .ok (c.config.getBatchSize P tokensProcessed)

/-- The data of the round ends before the last index, and so do its tokens before the last number. -/
def InRange (P : Platform) (c : Coordinator) : Prop :=
  c.currentRound.dataIndex * c.getSequenceLength < 2 ^ 64
    ∧ c.currentRound.dataIndex + c.config.getBatchSize P (c.currentRound.dataIndex * c.getSequenceLength) < 2 ^ 64

/-- Whether the cold-start warmup fits into one epoch. -/
def checkColdStartWarmupSteps (c : Coordinator) : Exec ε Panic Bool :=
  if c.model.llm.coldStartWarmupSteps = 0 then
    .ok true
  else do
    let trainingTime ← subU c.config.epochTime c.config.warmupTime
    Exec.ensure (c.config.maxRoundTrainTime ≠ 0) .divisionByZero
    .ok (c.model.llm.coldStartWarmupSteps ≤ trainingTime / c.config.maxRoundTrainTime)

/-- Whether the current phase has lasted `duration`. -/
def checkTimeout (c : Coordinator) (unixTimestamp duration : Nat) : Exec ε Panic Bool :=
  if c.runStateStartUnixTimestamp = unixTimestamp then
    .ok false
  else do
    let deadline ← addU 64 duration c.runStateStartUnixTimestamp
    .ok (deadline ≤ unixTimestamp)

def checkEpochTimeout (c : Coordinator) (unixTimestamp : Nat) : Exec ε Panic Bool :=
  if c.epochState.startTimestamp = unixTimestamp then
    .ok false
  else do
    let deadline ← addU 64 c.epochState.startTimestamp c.config.epochTime
    .ok (deadline ≤ unixTimestamp)

def isWarmupJustStarting (c : Coordinator) : Bool :=
  c.epochState.firstRound && c.runState == .warmup

/-- Whether the epoch has just entered its first round. -/
def isTrainingJustStarting (c : Coordinator) : Bool :=
  c.epochState.firstRound && c.runState == .roundTrain

end Coordinator
end Leviathan
