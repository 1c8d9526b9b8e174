import Leviathan.Coordinator.Consensus
import Leviathan.Coordinator.DataSelection
import Leviathan.Lib.Accounts
import Leviathan.Network.Payload

/-!
# The state of a client

What a client keeps about the two rounds it takes part in (`shared/client/src/state/round_state.rs`, `steps.rs`), the
messages it gets (`shared/client/src/protocol.rs`), and the names of the files it writes for the verifier
(`write_gradients_to_disk` in `train.rs`).

Three fields of a Rust `RoundState` are behind an `Arc<Mutex<..>>`, and the tasks that check payloads hold on to them
when the round itself is long gone. They are a `SharedRound` here, known by a number that is never used twice. A task
runs in sections, one for each time it locks something (`TaskPhase`); anything can happen between two of them.

Left out are the trainers, evaluations and statistics, what has been sent already, and the client's own results, which
nothing here reads.
-/

namespace Leviathan

section Files

/-- A batch as it is printed (Rust `Display for BatchId`). -/
def RawBatchId.display (b : RawBatchId) : String :=
  if b.start = b.end_ then "B" ++ toString b.start.toNat
  else "B[" ++ toString b.start.toNat ++ ", " ++ toString b.end_.toNat ++ "]"

/-- The name of the file for a result (in Rust `write_gradients_to_disk`). -/
def gradientsFile (P : Platform) (signer : Pubkey) (step : BitVec 32) (batchId : RawBatchId) : String :=
  "result-" ++ P.bs58 signer.bytes ++ "-step" ++ toString step.toNat ++ "-batch" ++ batchId.display ++ ".vec-postcard"

end Files

section Messages

structure TrainingResult where
  batchId : RawBatchId
  ticket : BlobTicket
deriving DecidableEq

/-- The announcement that a client is done. -/
structure Finished where
  broadcastMerkle : Bytes32
  warmup : Bool
deriving DecidableEq, Repr

/-- The kinds of gossip. -/
inductive BroadcastType where
  | trainingResult (result : TrainingResult)
  | finished (finished : Finished)
deriving DecidableEq

/-- A gossip message, without its nonce. -/
structure Broadcast where
  step : BitVec 32
  proof : CommitteeProof
  commitment : Commitment
  data : BroadcastType
deriving DecidableEq

def Broadcast.isWarmup (broadcast : Broadcast) : Bool :=
  match broadcast.data with
  | .trainingResult _ => false
  | .finished finished => finished.warmup

inductive ApplyMessageOutcome where
  | applied
  | ignored
  | invalid
deriving DecidableEq, Repr

end Messages

section Rounds

/-- An entry of the results of a batch: who announced what, and the commitment to it. -/
structure Announcement where
  from_ : NodeIdentity
  commitment : Commitment
  result : TrainingResult

/-- How far a payload has come. -/
inductive PayloadState where
  | downloading (from_ : NodeIdentity) (batchId : RawBatchId) (ticket : BlobTicket)
  | deserializing (payload : TransmittableDistroResult)

/-- What a round shares with the tasks that check its payloads, with the blooms of participants and of broadcasts. -/
structure SharedRound where
  downloads : Accounts Bytes32 PayloadState
  blooms : Option (WitnessBloom × WitnessBloom)
  batchIdsNotYetTrainedOn : Option (Finset RawBatchId)

/-- The shared part of a new round (in Rust `RoundState::new`). -/
def SharedRound.new : SharedRound := ⟨∅, none, none⟩

/-- A round as a client sees it; `shared` is the number of its shared part. -/
structure RoundState where
  height : Nat
  step : BitVec 32
  results : Accounts RawBatchId (List Announcement)
  clientsFinished : Accounts Pubkey Finished
  dataAssignments : List (RawBatchId × NodeIdentity)
  broadcasts : List Bytes32
  committeeInfo : Option (CommitteeProof × WitnessProof × CommitteeSelection)
  shared : Nat

def RoundState.new (shared : Nat) : RoundState := ⟨0, 0, ∅, ∅, [], [], none, shared⟩

def RoundState.assignee (round : RoundState) (batchId : RawBatchId) : Option NodeIdentity :=
  (round.dataAssignments.find? fun x => x.1 == batchId).map Prod.snd

def RoundState.announcements (round : RoundState) (batchId : RawBatchId) : List Announcement :=
  (round.results.lookup batchId).getD []

end Rounds

section Tasks

/-- The sections of a task: it compares the hash, writes the file, votes, notes that nothing is left to vote on, and stores
the payload. -/
inductive TaskPhase where
  | verify
  | write
  | vote
  | finish (justFinished : Bool)
  | store
  | done
deriving DecidableEq, Repr

/-- The task that checks a payload (in Rust `apply_distro_result`). -/
structure VerifyTask where
  shared : Nat
  hash : Bytes32
  from_ : NodeIdentity
  batchId : RawBatchId
  commitment : Commitment
  payload : TransmittableDistroResult
  writes : Bool
  phase : TaskPhase

end Tasks

inductive ActiveStep where
  | warmup
  | training
  | witness
  | cooldown
deriving DecidableEq, Repr

def ActiveStep.allowedInRunState : ActiveStep → RunState → Bool
  | .warmup, .warmup | .warmup, .waitingForMembers | .warmup, .paused => true
  | .cooldown, .cooldown => true
  | .training, .roundTrain => true
  | .witness, .roundWitness => true
  | _, _ => false

/-- The two rounds of a client. -/
inductive RoundSlot where
  | current
  | previous
deriving DecidableEq, Repr

/-- A client in a run, with the shared parts of its rounds and the tasks it has spawned. -/
structure StepStateMachine where
  identity : NodeIdentity
  writeGradientsDir : Bool
  activeStep : ActiveStep
  currentRound : RoundState
  previousRound : RoundState
  coordinatorState : Coordinator
  sharedRounds : List SharedRound
  tasks : List VerifyTask

/-- Why a client stops. -/
inductive ClientError where
  | desync (activeStep : ActiveStep) (runState : RunState)
  | noActiveRound
  | noCommitteeInfo
  | coordinator (e : CoordinatorError)
  | noTask
deriving DecidableEq, Repr

/-- What a client does besides changing its state. Most effects name the shared part of their round. -/
inductive ClientEffect where
  | recorded (shared : Nat) (step : BitVec 32) (announcement : Announcement)
  | requested (ticket : BlobTicket)
  | received (task : VerifyTask)
  | accepted (task : VerifyTask)
  | wrote (task : VerifyTask) (file : String)
  | voted (shared : Nat) (batchId : RawBatchId) (dataHash : Bytes32)

end Leviathan
