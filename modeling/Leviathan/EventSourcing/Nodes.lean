import Leviathan.Coordinator.State
import Leviathan.Core.Batches
import Leviathan.Lib.Accounts
import Leviathan.Lib.Text
import Mathlib.Data.Finset.Basic

/-!
# Events and the nodes they are about

The events of `shared/event-sourcing/src/events.rs`, and the part of `apply_node_event` of `projection.rs` that changes
nothing but the node an event comes from. Timestamps are in nanoseconds. Floating point numbers are given by their bits,
and the order of Rust's maps is left out. Counters do not overflow.
-/

namespace Leviathan

inductive SubscriptionStatus where
  | up
  | down
deriving DecidableEq

inductive RpcCallType where
  | witness
  | warmupWitness
  | healthCheck
  | checkpoint
  | join
  | tick
deriving DecidableEq

inductive CoordinatorEvent where
  | coordinatorStateChanged (newStateHash : Text)
  | solanaSubscriptionChanged (url : Text) (status : SubscriptionStatus)
  | rpcCallSubmitted (callType : RpcCallType)
  | rpcCallResult (callType : RpcCallType) (result : Except Text Unit)

/-- Rust `Client` (of the events). -/
inductive ClientEvent where
  | stateChanged (oldState newState : RunState) (epoch step : Nat)
  | healthCheckFailed (index round : Nat)
  | error (message : Text)
  | warning (message : Text)

structure SelectedPath where
  addr : Text
  rtt : Nat
deriving DecidableEq

/-- Rust `P2P`. -/
inductive P2PEvent where
  | connectionChanged (endpointId : Bytes32) (connectionPath : Option SelectedPath)
  | connectionLatencyChanged (endpointId : Bytes32) (latencyMs : Nat)
  | gossipNeighborUp (endpointId : Bytes32)
  | gossipNeighborDown (endpointId : Bytes32)
  | gossipTrainingResultSent
  | gossipFinishedSent
  | gossipTrainingResultReceived (blob : Bytes32) (batchId : BatchId)
  | gossipFinishedReceived
  | gossipLagged
  | blobAddedToStore (blob : Bytes32) (modelParameter : Text)
  | blobUploadStarted (toEndpointId : Bytes32) (sizeBytes : Nat)
  | blobUploadProgress (bytesTransferred : Nat)
  | blobUploadCompleted (blob : Bytes32) (result : Except Text Unit)
  | blobDownloadRequested (blob : Bytes32)
  | blobDownloadTryProvider (blob endpointId : Bytes32)
  | blobDownloadProviderFailed (blob endpointId : Bytes32)
  | blobDownloadStarted (blob : Bytes32) (sizeBytes : Nat)
  | blobDownloadProgress (blob : Bytes32) (bytesTransferred : Nat)
  | blobDownloadCompleted (blob : Bytes32) (result : Except Text Unit)

structure WitnessInfo where
  step : Nat
  round : Nat
  epoch : Nat
  index : Nat
  committeePosition : Nat
deriving DecidableEq

/-- Rust `Train`. The numbers of a witness election are a `WitnessInfo`. -/
inductive TrainEvent where
  | batchAssigned (batchId : BatchId)
  | batchDataDownloadStart
  | batchDataDownloadComplete (result : Except Unit Unit)
  | trainingStarted (batchId : BatchId)
  | trainingFinished (batchId : BatchId) (step : Nat) (loss : Option (BitVec 64))
  | untrainedBatchWarning (batchId : BatchId) (expectedTrainer : Option Text)
  | witnessElected (info : WitnessInfo) (isWitness : Bool)
  | distroResultDeserializeStarted (blob : Bytes32)
  | distroResultDeserializeComplete (blob : Bytes32) (result : Except Text Unit)
  | applyDistroResultsStart
  | applyDistroResultsComplete (result : Except Text Unit)
  | distroResultAddedToConsensus (result : Except Text Unit)

/-- Rust `Warmup`. -/
inductive WarmupEvent where
  | p2pParamInfoRequest (from_ : Bytes32)
  | p2pParamInfoResponse
  | checkpointDownloadStarted (sizeBytes : Nat)
  | checkpointDownloadProgress (bytesDownloaded : Nat)
  | checkpointDownloadComplete (result : Except Text Unit)
  | modelLoadStarted
  | modelLoadComplete

/-- Rust `Cooldown`. -/
inductive CooldownEvent where
  | modelSerializationStarted
  | modelSerializationFinished (success : Bool) (errorString : Option Text)
  | checkpointWriteStarted
  | checkpointWriteFinished (success : Bool) (errorString : Option Text)
  | checkpointUploadStarted
  | checkpointUploadProgress (bytesUploaded : Nat)
  | checkpointUploadFinished (success : Bool) (errorString : Option Text)

structure ResourceSnapshot where
  gpuMemUsedBytes : Option Nat
  gpuUtilizationPercent : Option (BitVec 32)
  cpuMemUsedBytes : Nat
  cpuUtilizationPercent : BitVec 32
  networkBytesSentTotal : Nat
  networkBytesRecvTotal : Nat
  diskSpaceAvailableBytes : Nat

inductive EventData where
  | runStarted (runId nodeId config psycheVersion : Text)
  | coordinatorEvent (event : CoordinatorEvent)
  | client (event : ClientEvent)
  | p2p (event : P2PEvent)
  | train (event : TrainEvent)
  | warmup (event : WarmupEvent)
  | cooldown (event : CooldownEvent)
  | resourceSnapshot (resources : ResourceSnapshot)

/-- Rust `Event`. -/
structure NodeEvent where
  timestamp : Int
  data : EventData

inductive WarmupPhase where
  | idle
  | negotiatingP2P
  | downloading
  | loadingModel
  | complete
deriving DecidableEq

/-- Rust `WarmupSnapshot`, with its defaults. -/
structure WarmupSnapshot where
  phase : WarmupPhase := .idle
  downloadTotalBytes : Option Nat := none
  downloadBytes : Nat := 0
  modelLoaded : Bool := false

structure PeerInfo where
  connectionPath : Option SelectedPath
  latencyMs : Option Nat

structure BlobDownloadTransfer where
  sizeBytes : Nat
  bytesTransferred : Nat
  result : Option (Except Text Unit)

/-- Rust `P2PSnapshot`, with its defaults. Uploads are not tracked. -/
structure P2PSnapshot where
  peers : Accounts Bytes32 PeerInfo := ∅
  gossipNeighbors : Finset Bytes32 := ∅
  downloads : Accounts Bytes32 BlobDownloadTransfer := ∅
  blobsInStore : BitVec 64 := 0
  gossipSent : BitVec 32 := 0
  gossipRecv : BitVec 32 := 0

/-- Rust `TrainSnapshot`, with its defaults. The downloads of batches are those that have begun, with their results. -/
structure TrainSnapshot where
  batchesAssigned : BitVec 64 := 0
  batchDownloads : Accounts BatchId (Option (Except Unit Unit)) := ∅
  trainingInProgress : Bool := false
  witness : Option WitnessInfo := none
  lastDistroOk : Option Bool := none
  untrainedWarnings : List (BatchId × Option Text) := []

/-- Rust `CooldownSnapshot`, with its defaults. -/
structure CooldownSnapshot where
  isCheckpointer : Bool := false
  serializationOk : Option Bool := none
  serializationError : Option Text := none
  checkpointWriteOk : Option Bool := none
  uploadBytes : Nat := 0
  uploadOk : Option Bool := none
  uploadError : Option Text := none

/-- Rust `NodeSnapshot`, with the values of `NodeSnapshot::new`. -/
structure NodeSnapshot where
  nodeId : Text
  runState : Option RunState := none
  epoch : Nat := 0
  step : Nat := 0
  warmup : WarmupSnapshot := {}
  losses : List (Nat × BitVec 64) := []
  healthCheckSteps : List Nat := []
  lastError : Option Text := none
  networkTxBps : Option Nat := none
  networkRxBps : Option Nat := none
  p2p : P2PSnapshot := {}
  train : TrainSnapshot := {}
  cooldown : CooldownSnapshot := {}
  lastResource : Option (Int × ResourceSnapshot) := none

namespace NodeSnapshot

def applyClient (node : NodeSnapshot) : ClientEvent → NodeSnapshot
  | .stateChanged _ newState epoch step =>
    { node with
      runState := some newState
      epoch
      step
      warmup := if newState = .waitingForMembers then {} else node.warmup
      cooldown := if newState = .cooldown then {} else node.cooldown }
  | .healthCheckFailed _ round => { node with healthCheckSteps := node.healthCheckSteps ++ [round] }
  | .error message => { node with lastError := some message }
  | .warning _ => node

def applyTrain (node : NodeSnapshot) : TrainEvent → NodeSnapshot
  | .batchAssigned batchId =>
    { node with
      train := { node.train with
        batchesAssigned := node.train.batchesAssigned + 1
        batchDownloads :=
          if batchId ∈ node.train.batchDownloads then node.train.batchDownloads
          else node.train.batchDownloads.insert batchId none
        trainingInProgress := false
        witness := none } }
  | .batchDataDownloadComplete result =>
    { node with
      train := { node.train with
        batchDownloads := node.train.batchDownloads.mapValues fun download => some (download.getD result) } }
  | .trainingStarted _ => { node with train := { node.train with trainingInProgress := true } }
  | .trainingFinished _ step loss =>
    { node with
      train := { node.train with trainingInProgress := false }
      losses := node.losses ++ (loss.map fun loss => (step, loss)).toList
      step }
  | .witnessElected info _ => { node with train := { node.train with witness := some info } }
  | .untrainedBatchWarning batchId expectedTrainer =>
    { node with
      train := { node.train with untrainedWarnings := node.train.untrainedWarnings ++ [(batchId, expectedTrainer)] } }
  | .applyDistroResultsStart => { node with train := { node.train with lastDistroOk := none } }
  | .applyDistroResultsComplete result => { node with train := { node.train with lastDistroOk := some result.isOk } }
  | .batchDataDownloadStart => node
  | .distroResultDeserializeStarted _ => node
  | .distroResultDeserializeComplete _ _ => node
  | .distroResultAddedToConsensus _ => node

def applyWarmup (node : NodeSnapshot) : WarmupEvent → NodeSnapshot
  | .p2pParamInfoRequest _ => negotiate
  | .p2pParamInfoResponse => negotiate
  | .checkpointDownloadStarted sizeBytes =>
    { node with
      warmup := { node.warmup with
        phase := .downloading
        downloadTotalBytes := if 0 < sizeBytes then some sizeBytes else none
        downloadBytes := 0 } }
  | .checkpointDownloadProgress bytesDownloaded => { node with warmup := { node.warmup with downloadBytes := bytesDownloaded } }
  | .checkpointDownloadComplete _ => node
  | .modelLoadStarted => { node with warmup := { node.warmup with phase := .loadingModel } }
  | .modelLoadComplete => { node with warmup := { node.warmup with phase := .complete, modelLoaded := true } }
where
  negotiate : NodeSnapshot :=
    if node.warmup.phase = .idle then { node with warmup := { node.warmup with phase := .negotiatingP2P } } else node

def applyCooldown (node : NodeSnapshot) : CooldownEvent → NodeSnapshot
  | .modelSerializationStarted => { node with cooldown := { node.cooldown with isCheckpointer := true } }
  | .modelSerializationFinished success errorString =>
    { node with
      cooldown := { node.cooldown with serializationOk := some success, serializationError := errorString } }
  | .checkpointWriteFinished success _ => { node with cooldown := { node.cooldown with checkpointWriteOk := some success } }
  | .checkpointUploadProgress bytesUploaded => { node with cooldown := { node.cooldown with uploadBytes := bytesUploaded } }
  | .checkpointUploadFinished success errorString =>
    { node with
      cooldown := { node.cooldown with uploadOk := some success, uploadError := errorString }
      warmup := if success then {} else node.warmup }
  | .checkpointWriteStarted => node
  | .checkpointUploadStarted => node

/-- What an event of the network does. -/
def applyP2P (node : NodeSnapshot) : P2PEvent → NodeSnapshot
  | .connectionChanged endpointId connectionPath =>
    let latencyMs := (node.p2p.peers.lookup endpointId).bind PeerInfo.latencyMs
    { node with p2p := { node.p2p with peers := node.p2p.peers.insert endpointId ⟨connectionPath, latencyMs⟩ } }
  | .gossipNeighborUp endpointId =>
    { node with p2p := { node.p2p with gossipNeighbors := insert endpointId node.p2p.gossipNeighbors } }
  | .gossipNeighborDown endpointId =>
    { node with p2p := { node.p2p with gossipNeighbors := node.p2p.gossipNeighbors.erase endpointId } }
  | .connectionLatencyChanged endpointId latencyMs =>
    match node.p2p.peers.lookup endpointId with
    | some peer =>
      { node with
        p2p := { node.p2p with peers := node.p2p.peers.insert endpointId { peer with latencyMs := some latencyMs } } }
    | none => node
  | .blobAddedToStore _ _ => { node with p2p := { node.p2p with blobsInStore := node.p2p.blobsInStore + 1 } }
  | .blobDownloadStarted blob sizeBytes =>
    { node with p2p := { node.p2p with downloads := node.p2p.downloads.insert blob ⟨sizeBytes, 0, none⟩ } }
  | .blobDownloadProgress blob bytesTransferred =>
    match node.p2p.downloads.lookup blob with
    | some transfer =>
      { node with p2p := { node.p2p with downloads := node.p2p.downloads.insert blob { transfer with bytesTransferred } } }
    | none => node
  | .blobDownloadCompleted blob result =>
    match node.p2p.downloads.lookup blob with
    | some transfer =>
      { node with
        p2p := { node.p2p with downloads := node.p2p.downloads.insert blob { transfer with result := some result } } }
    | none => node
  | .gossipTrainingResultSent => { node with p2p := { node.p2p with gossipSent := node.p2p.gossipSent + 1 } }
  | .gossipFinishedSent => { node with p2p := { node.p2p with gossipSent := node.p2p.gossipSent + 1 } }
  | .gossipTrainingResultReceived _ _ => { node with p2p := { node.p2p with gossipRecv := node.p2p.gossipRecv + 1 } }
  | .gossipFinishedReceived => { node with p2p := { node.p2p with gossipRecv := node.p2p.gossipRecv + 1 } }
  | _ => node

/-- The rates since the last snapshot. `numMilliseconds` is that of `chrono`; Rust takes a negative number of milliseconds
for a large one. -/
def applyResources (numMilliseconds : Int → Int) (node : NodeSnapshot) (timestamp : Int) (resources : ResourceSnapshot) :
    NodeSnapshot :=
  let node := match node.lastResource with
    | some (prevTimestamp, prev) =>
      let seconds := (numMilliseconds (timestamp - prevTimestamp) % 2 ^ 64).toNat / 1000
      if 0 < seconds then
        { node with
          networkTxBps := some ((resources.networkBytesSentTotal - prev.networkBytesSentTotal) / seconds)
          networkRxBps := some ((resources.networkBytesRecvTotal - prev.networkBytesRecvTotal) / seconds) }
      else node
    | none => node
  { node with lastResource := some (timestamp, resources) }

/-- What an event does to the node it comes from (the first phase of `apply_node_event`). -/
def apply (numMilliseconds : Int → Int) (node : NodeSnapshot) (event : NodeEvent) : NodeSnapshot :=
  match event.data with
  | .client event => node.applyClient event
  | .train event => node.applyTrain event
  | .warmup event => node.applyWarmup event
  | .cooldown event => node.applyCooldown event
  | .p2p event => node.applyP2P event
  | .resourceSnapshot resources => node.applyResources numMilliseconds event.timestamp resources
  | .runStarted _ _ _ _ => node
  | .coordinatorEvent _ => node

end NodeSnapshot
end Leviathan
