import Leviathan.EventSourcing.Files
import Leviathan.EventSourcing.Nodes

/-!
# The projection of a cluster

`ClusterProjection` of `shared/event-sourcing/src/projection.rs` makes a view of the cluster of the events of all nodes
and the reports of the coordinator. For the current step and the one before, it keeps what each node has done with the
result of each batch: heard of it, downloaded it, read it. Events about a download name the blob and not the batch, so
the view keeps the batch of each blob that has been announced.

When the coordinator reports another step, the batches of the step become those of the step before, and the batches of
the blobs are forgotten. A download that goes on then is that of no batch, unless the blob is announced again.
-/

namespace Leviathan
open List

structure CoordinatorStateSnapshot where
  timestamp : Int
  runState : RunState
  epoch : Nat
  step : Nat
  checkpoint : Checkpoint
  clientIds : List Text
  minClients : Nat
  batchAssignments : Accounts BatchId Text

inductive DownloadStatus where
  | notStarted
  | inProgress
  | success
  | failed
deriving DecidableEq

/-- What a node has done with the result of a batch, with its defaults. -/
structure NodeBatchStatus where
  gossipReceived : Bool := false
  download : DownloadStatus := .notStarted
  deserialized : Option Bool := none
deriving DecidableEq

structure WitnessStatus where
  info : WitnessInfo
  submitted : Bool
  rpcResult : Option Bool

/-- Rust `ClusterBatchView`, with its defaults. -/
structure ClusterBatchView where
  assignedTo : Option Text := none
  blob : Option Bytes32 := none
  dataDownloaded : Option Bool := none
  trained : Bool := false
  nodeStatus : Accounts Text NodeBatchStatus := ∅

namespace ClusterBatchView

/-- Change what a node has done with the result. -/
def updateStatus (view : ClusterBatchView) (nodeId : Text) (f : NodeBatchStatus → NodeBatchStatus) : ClusterBatchView :=
  { view with nodeStatus := view.nodeStatus.insert nodeId (f ((view.nodeStatus.lookup nodeId).getD {})) }

/-- The node that trains a batch has its data, or not. -/
def downloadData (view : ClusterBatchView) (nodeId : Text) (ok : Bool) : ClusterBatchView :=
  if view.assignedTo = some nodeId ∧ view.dataDownloaded = none then { view with dataDownloaded := some ok } else view

end ClusterBatchView

/-- Rust `ClusterSnapshot`; a new one has the time at which it is made. -/
structure ClusterSnapshot where
  timestamp : Int
  coordinator : Option CoordinatorStateSnapshot := none
  nodes : Accounts Text NodeSnapshot := ∅
  stepBatches : Accounts BatchId ClusterBatchView := ∅
  prevStepBatches : Accounts BatchId ClusterBatchView := ∅
  blobToBatch : Accounts Bytes32 BatchId := ∅
  appliedBy : Finset Text := ∅
  prevAppliedBy : Finset Text := ∅
  stepWitnesses : Accounts Text WitnessStatus := ∅

namespace ClusterSnapshot

def new (now : Int) : ClusterSnapshot := { timestamp := now }

def InPrev (s : ClusterSnapshot) (batchId : BatchId) : Prop := batchId ∉ s.stepBatches ∧ batchId ∈ s.prevStepBatches

instance (s : ClusterSnapshot) (batchId : BatchId) : Decidable (s.InPrev batchId) := inferInstanceAs (Decidable (_ ∧ _))

/-- Change the view of a batch, of the step before if it is there only. -/
def updateBatch (s : ClusterSnapshot) (batchId : BatchId) (f : ClusterBatchView → ClusterBatchView) : ClusterSnapshot :=
  if s.InPrev batchId then { s with prevStepBatches := s.prevStepBatches.modify batchId f }
  else { s with stepBatches := s.stepBatches.modify batchId f }

/-- Change what a node has done with a blob, if the batch of the blob is known. -/
def updateBlob (s : ClusterSnapshot) (blob : Bytes32) (nodeId : Text) (f : NodeBatchStatus → NodeBatchStatus) :
    ClusterSnapshot :=
  match s.blobToBatch.lookup blob with
  | some batchId => s.updateBatch batchId fun view => view.updateStatus nodeId f
  | none => s

def isWitnessCall (callType : RpcCallType) : Bool := callType = .witness ∨ callType = .warmupWitness

/-- What an event does to the view of the cluster (the second phase of `apply_node_event`). -/
def applyToCluster (s : ClusterSnapshot) (nodeId : Text) : EventData → ClusterSnapshot
  | .train (.batchDataDownloadComplete result) =>
    { s with
      stepBatches := s.stepBatches.mapValues fun view => view.downloadData nodeId result.isOk
      prevStepBatches := s.prevStepBatches.mapValues fun view => view.downloadData nodeId result.isOk }
  | .train (.trainingFinished batchId _ _) => s.updateBatch batchId fun view => { view with trained := true }
  | .train (.applyDistroResultsComplete result) =>
    if result.isOk then { s with appliedBy := insert nodeId s.appliedBy } else s
  | .train (.witnessElected info isWitness) =>
    if isWitness then { s with stepWitnesses := s.stepWitnesses.insert nodeId ⟨info, false, none⟩ } else s
  | .train (.distroResultDeserializeComplete blob result) =>
    s.updateBlob blob nodeId fun status => { status with deserialized := some result.isOk }
  | .p2p (.gossipTrainingResultReceived blob batchId) =>
    { s with blobToBatch := s.blobToBatch.insert blob batchId }.updateBatch batchId fun view =>
      { view with blob := view.blob.or (some blob) }.updateStatus nodeId fun status => { status with gossipReceived := true }
  | .p2p (.blobDownloadStarted blob _) => s.updateBlob blob nodeId fun status => { status with download := .inProgress }
  | .p2p (.blobDownloadCompleted blob result) =>
    s.updateBlob blob nodeId fun status => { status with download := if result.isOk then .success else .failed }
  | .coordinatorEvent (.rpcCallSubmitted callType) =>
    if isWitnessCall callType then
      { s with stepWitnesses := s.stepWitnesses.modify nodeId fun witness => { witness with submitted := true } }
    else s
  | .coordinatorEvent (.rpcCallResult callType result) =>
    if isWitnessCall callType then
      { s with stepWitnesses := s.stepWitnesses.modify nodeId fun witness => { witness with rpcResult := some result.isOk } }
    else s
  | _ => s

def applyNodeEvent (numMilliseconds : Int → Int) (s : ClusterSnapshot) (nodeId : Text) (event : NodeEvent) :
    ClusterSnapshot :=
  let node := (s.nodes.lookup nodeId).getD { nodeId }
  { s with
    timestamp := event.timestamp
    nodes := s.nodes.insert nodeId (node.apply numMilliseconds event) }.applyToCluster nodeId event.data

def seedBatches (assignments : List ((_ : BatchId) × Text)) : Accounts BatchId ClusterBatchView :=
  assignments.foldl (fun batches a => batches.insert a.1 { assignedTo := some a.2 }) ∅

/-- The batches of a step whose assignments may have come late. -/
def refreshBatches (batches : Accounts BatchId ClusterBatchView) (assignments : List ((_ : BatchId) × Text)) :
    Accounts BatchId ClusterBatchView :=
  assignments.foldl (fun batches a =>
    batches.insert a.1 { (batches.lookup a.1).getD {} with assignedTo := some a.2 }) batches

def applyCoordinator (s : ClusterSnapshot) (update : CoordinatorStateSnapshot) : ClusterSnapshot :=
  if s.coordinator.map CoordinatorStateSnapshot.step ≠ some update.step then
    { s with
      timestamp := update.timestamp
      coordinator := some update
      prevStepBatches := s.stepBatches
      prevAppliedBy := s.appliedBy
      appliedBy := ∅
      blobToBatch := ∅
      stepWitnesses := ∅
      stepBatches := seedBatches update.batchAssignments.entries }
  else
    { s with
      timestamp := update.timestamp
      coordinator := some update
      stepBatches := refreshBatches s.stepBatches update.batchAssignments.entries }

end ClusterSnapshot

/-- How the events of a cluster are read, and the records of its coordinator, with `num_milliseconds` of `chrono`. -/
structure ClusterDecoder where
  numMilliseconds : Int → Int
  fromBytesCobs : Bytes → Option NodeEvent
  coordRecordSize : Nat
  coordRecordSize_pos : 0 < coordRecordSize
  decodeRecord : Bytes → Int × CoordinatorStateSnapshot

/-- The format of the event files of a cluster. -/
abbrev ClusterDecoder.format (K : ClusterDecoder) : EventFormat where
  Event := NodeEvent
  State := CoordinatorStateSnapshot
  timestamp := NodeEvent.timestamp
  fromBytesCobs := K.fromBytesCobs
  coordRecordSize := K.coordRecordSize
  coordRecordSize_pos := K.coordRecordSize_pos
  decodeRecord := K.decodeRecord

namespace ClusterSnapshot
variable {K : ClusterDecoder}

def applyEntry (s : ClusterSnapshot) : TimelineEntry K.format → ClusterSnapshot
  | .node _ nodeId event => s.applyNodeEvent K.numMilliseconds nodeId event
  | .coordinator _ state => s.applyCoordinator state

/-- The view of the cluster after some entries. -/
def replay (now : Int) (entries : List (TimelineEntry K.format)) : ClusterSnapshot := entries.foldl applyEntry (new now)

/-- The batch that an event announces a blob for. -/
def announced (blob : Bytes32) : EventData → Option BatchId
  | .p2p (.gossipTrainingResultReceived b batchId) => if b = blob then some batchId else none
  | _ => none

/-- The batch that an entry announces a blob for. -/
def announcedBy (blob : Bytes32) : TimelineEntry K.format → Option BatchId
  | .node _ _ event => announced blob event.data
  | .coordinator _ _ => none

/-- The batch that a blob was last announced for. -/
def lastAnnounced (blob : Bytes32) (entries : List (TimelineEntry K.format)) : Option BatchId :=
  entries.reverse.findSome? (announcedBy blob)

/-- Whether the coordinator has reported an assignment of a batch. -/
def Assigned (batchId : BatchId) : TimelineEntry K.format → Prop
  | .coordinator _ state => batchId ∈ state.batchAssignments
  | .node _ _ _ => False

def SameStep (step : Nat) : TimelineEntry K.format → Prop
  | .coordinator _ state => state.step = step
  | .node _ _ _ => True

section Fields
variable {s : ClusterSnapshot} {batchId batchId' : BatchId} {blob blob' : Bytes32} {nodeId : Text}

structure SameBatches (s s' : ClusterSnapshot) : Prop where
  step : ∀ batchId, batchId ∈ s'.stepBatches ↔ batchId ∈ s.stepBatches
  prev : ∀ batchId, batchId ∈ s'.prevStepBatches ↔ batchId ∈ s.prevStepBatches
  coordinator : s'.coordinator = s.coordinator

lemma sameBatches_updateBatch (s : ClusterSnapshot) (batchId : BatchId) (f : ClusterBatchView → ClusterBatchView) :
    SameBatches s (s.updateBatch batchId f) := by
  rw [updateBatch]
  split
  · exact ⟨fun _ => Iff.rfl, fun _ => Accounts.mem_modify, rfl⟩
  · exact ⟨fun _ => Accounts.mem_modify, fun _ => Iff.rfl, rfl⟩

@[simp] lemma blobToBatch_updateBatch (s : ClusterSnapshot) (batchId : BatchId)
    (f : ClusterBatchView → ClusterBatchView) : (s.updateBatch batchId f).blobToBatch = s.blobToBatch := by
  rw [updateBatch]
  split <;> rfl

lemma sameBatches_updateBlob (s : ClusterSnapshot) (blob : Bytes32) (nodeId : Text)
    (f : NodeBatchStatus → NodeBatchStatus) : SameBatches s (s.updateBlob blob nodeId f) := by
  rw [updateBlob]
  split
  · exact sameBatches_updateBatch _ _ _
  · exact ⟨fun _ => Iff.rfl, fun _ => Iff.rfl, rfl⟩

@[simp] lemma blobToBatch_updateBlob (s : ClusterSnapshot) (blob : Bytes32) (nodeId : Text)
    (f : NodeBatchStatus → NodeBatchStatus) : (s.updateBlob blob nodeId f).blobToBatch = s.blobToBatch := by
  rw [updateBlob]
  split
  · exact blobToBatch_updateBatch _ _ _
  · rfl

lemma sameBatches_applyToCluster (s : ClusterSnapshot) (nodeId : Text) (data : EventData) :
    SameBatches s (s.applyToCluster nodeId data) := by
  have hrfl : SameBatches s s := ⟨fun _ => Iff.rfl, fun _ => Iff.rfl, rfl⟩
  rw [applyToCluster.eq_def]
  split
  · exact ⟨fun _ => Accounts.mem_mapValues, fun _ => Accounts.mem_mapValues, rfl⟩
  · exact sameBatches_updateBatch _ _ _
  · split
    · exact ⟨hrfl.step, hrfl.prev, rfl⟩
    · exact hrfl
  · split
    · exact ⟨hrfl.step, hrfl.prev, rfl⟩
    · exact hrfl
  · exact sameBatches_updateBlob _ _ _ _
  · rename_i blob batchId
    have h := sameBatches_updateBatch { s with blobToBatch := s.blobToBatch.insert blob batchId } batchId
    exact ⟨(h _).step, (h _).prev, (h _).coordinator⟩
  · exact sameBatches_updateBlob _ _ _ _
  · exact sameBatches_updateBlob _ _ _ _
  · split
    · exact ⟨hrfl.step, hrfl.prev, rfl⟩
    · exact hrfl
  · split
    · exact ⟨hrfl.step, hrfl.prev, rfl⟩
    · exact hrfl
  · exact hrfl

lemma blobToBatch_applyToCluster (s : ClusterSnapshot) (nodeId : Text) (data : EventData) (blob : Bytes32) :
    (s.applyToCluster nodeId data).blobToBatch.lookup blob = (announced blob data).or (s.blobToBatch.lookup blob) := by
  have hother : announced blob data = none → (s.applyToCluster nodeId data).blobToBatch = s.blobToBatch →
      (s.applyToCluster nodeId data).blobToBatch.lookup blob = (announced blob data).or (s.blobToBatch.lookup blob) := by
    intro hnone hsame
    rw [hnone, hsame, Option.none_or]
  cases data with
  | p2p event =>
    cases event with
    | gossipTrainingResultReceived b batchId =>
      rw [applyToCluster, blobToBatch_updateBatch, announced]
      by_cases hb : b = blob
      · rw [if_pos hb, hb, AList.lookup_insert]
        rfl
      · rw [if_neg hb, AList.lookup_insert_ne (Ne.symm hb)]
        rfl
    | blobDownloadStarted _ _ | blobDownloadCompleted _ _ => exact hother rfl (blobToBatch_updateBlob _ _ _ _)
    | _ => rfl
  | train event =>
    cases event with
    | trainingFinished _ _ _ => exact hother rfl (blobToBatch_updateBatch _ _ _)
    | applyDistroResultsComplete _ | witnessElected _ _ =>
      refine hother rfl ?_
      rw [applyToCluster]
      split <;> rfl
    | distroResultDeserializeComplete _ _ => exact hother rfl (blobToBatch_updateBlob _ _ _ _)
    | _ => rfl
  | coordinatorEvent event =>
    cases event with
    | rpcCallSubmitted _ | rpcCallResult _ _ =>
      refine hother rfl ?_
      rw [applyToCluster]
      split <;> rfl
    | _ => rfl
  | _ => rfl

/-- An event of a node keeps the batches, and notes the blob it announces. -/
lemma applyNodeEvent_spec (millis : Int → Int) (s : ClusterSnapshot) (nodeId : Text) (event : NodeEvent) (blob : Bytes32) :
    SameBatches s (s.applyNodeEvent millis nodeId event)
      ∧ (s.applyNodeEvent millis nodeId event).blobToBatch.lookup blob
        = (announced blob event.data).or (s.blobToBatch.lookup blob) := by
  rw [applyNodeEvent]
  generalize hs : ({ s with
    timestamp := event.timestamp
    nodes := s.nodes.insert nodeId (((s.nodes.lookup nodeId).getD { nodeId }).apply millis event) } : ClusterSnapshot) = s₁
  have h := sameBatches_applyToCluster s₁ nodeId event.data
  have hblob := blobToBatch_applyToCluster s₁ nodeId event.data blob
  subst hs
  exact ⟨⟨h.step, h.prev, h.coordinator⟩, hblob⟩

lemma mem_assigned {assignments : List ((_ : BatchId) × Text)} {batches : Accounts BatchId ClusterBatchView}
    (g : Accounts BatchId ClusterBatchView → (_ : BatchId) × Text → ClusterBatchView) :
    batchId ∈ assignments.foldl (fun batches a => batches.insert a.1 (g batches a)) batches
      ↔ batchId ∈ batches ∨ batchId ∈ assignments.map Sigma.fst := by
  induction assignments generalizing batches with
  | nil => simp
  | cons a assignments ih =>
    rw [foldl_cons, ih, AList.mem_insert, map_cons, mem_cons]
    tauto

lemma applyCoordinator_new (update : CoordinatorStateSnapshot)
    (h : s.coordinator.map CoordinatorStateSnapshot.step ≠ some update.step) :
    (∀ batchId, batchId ∈ (s.applyCoordinator update).stepBatches ↔ batchId ∈ update.batchAssignments)
      ∧ (s.applyCoordinator update).prevStepBatches = s.stepBatches
      ∧ (s.applyCoordinator update).blobToBatch = ∅ ∧ (s.applyCoordinator update).coordinator = some update := by
  rw [applyCoordinator, if_pos h]
  refine ⟨fun batchId => ?_, rfl, rfl, rfl⟩
  exact (mem_assigned fun _ a => { assignedTo := some a.2 }).trans (or_iff_right (AList.notMem_empty _))

lemma applyCoordinator_same (update : CoordinatorStateSnapshot)
    (h : s.coordinator.map CoordinatorStateSnapshot.step = some update.step) :
    (∀ batchId, batchId ∈ (s.applyCoordinator update).stepBatches
        ↔ batchId ∈ s.stepBatches ∨ batchId ∈ update.batchAssignments)
      ∧ (s.applyCoordinator update).prevStepBatches = s.prevStepBatches
      ∧ (s.applyCoordinator update).blobToBatch = s.blobToBatch
      ∧ (s.applyCoordinator update).coordinator = some update := by
  rw [applyCoordinator, if_neg (not_not.mpr h)]
  refine ⟨fun batchId => ?_, rfl, rfl, rfl⟩
  exact mem_assigned fun batches a => { (batches.lookup a.1).getD {} with assignedTo := some a.2 }

/-- What has become of the batches and the blobs within a step. -/
structure Within (s : ClusterSnapshot) (entries : List (TimelineEntry K.format)) (s' : ClusterSnapshot) : Prop where
  step : ∀ batchId, batchId ∈ s'.stepBatches ↔ batchId ∈ s.stepBatches ∨ ∃ entry ∈ entries, Assigned batchId entry
  prev : ∀ batchId, batchId ∈ s'.prevStepBatches ↔ batchId ∈ s.prevStepBatches
  blob : ∀ blob, s'.blobToBatch.lookup blob = (lastAnnounced blob entries).or (s.blobToBatch.lookup blob)

lemma applyEntry_within {step : Nat} {entry : TimelineEntry K.format} (hentry : SameStep step entry)
    (hs : s.coordinator.map CoordinatorStateSnapshot.step = some step) :
    Within s [entry] (s.applyEntry entry)
      ∧ (s.applyEntry entry).coordinator.map CoordinatorStateSnapshot.step = some step := by
  cases entry with
  | node _ nodeId event =>
    have h := (applyNodeEvent_spec K.numMilliseconds s nodeId event 0).1
    refine ⟨⟨fun batchId => ?_, h.prev, fun blob => ?_⟩, ?_⟩
    · simp only [mem_singleton, exists_eq_left]
      exact (h.step batchId).trans (or_iff_left id).symm
    · refine (applyNodeEvent_spec _ s nodeId event blob).2.trans ?_
      rw [lastAnnounced, reverse_singleton, findSome?_singleton]
      rfl
    · exact (congrArg _ h.coordinator).trans hs
  | coordinator _ state =>
    have hsame : s.coordinator.map CoordinatorStateSnapshot.step = some state.step := hs.trans (congrArg some hentry.symm)
    obtain ⟨hstep, hprev, hblob, hcoordinator⟩ := applyCoordinator_same state hsame
    refine ⟨⟨fun batchId => ?_, fun batchId => ?_, fun blob => ?_⟩, ?_⟩
    · simp only [mem_singleton, exists_eq_left]
      exact hstep batchId
    · rw [applyEntry, hprev]
    · rw [applyEntry, hblob, lastAnnounced, reverse_singleton, findSome?_singleton]
      rfl
    · rw [applyEntry, hcoordinator, Option.map_some, hentry]

lemma Within.append {s₁ s₂ : ClusterSnapshot} {l l' : List (TimelineEntry K.format)} (h : Within s l s₁)
    (h' : Within s₁ l' s₂) : Within s (l ++ l') s₂ := by
  refine ⟨fun batchId => ?_, fun batchId => ?_, fun blob => ?_⟩
  · simp only [h'.step, h.step, mem_append, or_and_right, exists_or, or_assoc]
  · rw [h'.prev, h.prev]
  · rw [h'.blob, h.blob, lastAnnounced, lastAnnounced, lastAnnounced, reverse_append, findSome?_append,
      Option.or_assoc]

lemma within_of_sameStep {step : Nat} {entries : List (TimelineEntry K.format)} (h : ∀ entry ∈ entries, SameStep step entry)
    (hs : s.coordinator.map CoordinatorStateSnapshot.step = some step) : Within s entries (entries.foldl applyEntry s) := by
  induction entries generalizing s with
  | nil => exact ⟨fun _ => by simp, fun _ => Iff.rfl, fun _ => rfl⟩
  | cons entry entries ih =>
    obtain ⟨hentry, hentries⟩ := forall_mem_cons.mp h
    obtain ⟨hwithin, hs'⟩ := applyEntry_within hentry hs
    exact hwithin.append (ih hentries hs')

end Fields

/-- What a node may still do with the result of a batch after the step of the batch. -/
inductive LateEvent where
  | blobDownloadStarted (sizeBytes : Nat)
  | blobDownloadCompleted (result : Except Text Unit)
  | distroResultDeserializeComplete (result : Except Text Unit)

def LateEvent.data (blob : Bytes32) : LateEvent → EventData
  | .blobDownloadStarted sizeBytes => .p2p (.blobDownloadStarted blob sizeBytes)
  | .blobDownloadCompleted result => .p2p (.blobDownloadCompleted blob result)
  | .distroResultDeserializeComplete result => .train (.distroResultDeserializeComplete blob result)

def LateEvent.status : LateEvent → NodeBatchStatus → NodeBatchStatus
  | .blobDownloadStarted _, status => { status with download := .inProgress }
  | .blobDownloadCompleted result, status => { status with download := if result.isOk then .success else .failed }
  | .distroResultDeserializeComplete result, status => { status with deserialized := some result.isOk }

/-- The event is credited to a batch of the step before. -/
def Credited (millis : Int → Int) (s : ClusterSnapshot) (nodeId : Text) (blob : Bytes32) (batchId : BatchId)
    (timestamp : Int) (late : LateEvent) : Prop :=
  ∃ view, s.prevStepBatches.lookup batchId = some view
    ∧ (s.applyNodeEvent millis nodeId ⟨timestamp, late.data blob⟩).prevStepBatches.lookup batchId
      = some (view.updateStatus nodeId late.status)

section Credit
variable {s : ClusterSnapshot} {batchId : BatchId} {blob : Bytes32} {nodeId : Text}

lemma lookup_updateBlob (s : ClusterSnapshot) (blob : Bytes32) (nodeId : Text) (f : NodeBatchStatus → NodeBatchStatus)
    (batchId : BatchId) :
    (s.updateBlob blob nodeId f).prevStepBatches.lookup batchId
      = if s.blobToBatch.lookup blob = some batchId ∧ batchId ∉ s.stepBatches then
          (s.prevStepBatches.lookup batchId).map fun view => view.updateStatus nodeId f
        else s.prevStepBatches.lookup batchId := by
  rw [updateBlob]
  cases hb : s.blobToBatch.lookup blob with
  | none => simp
  | some b =>
    simp only [updateBatch, Option.some_inj]
    split
    · rename_i hin
      rw [Accounts.lookup_modify]
      by_cases hk : batchId = b
      · subst hk
        rw [if_pos rfl, if_pos ⟨rfl, hin.1⟩]
      · rw [if_neg hk, if_neg fun h => hk h.1.symm]
    · rename_i hin
      split
      · -- the batch is not there at all
        rename_i h
        obtain ⟨rfl, hstep⟩ := h
        have hnone : s.prevStepBatches.lookup b = none :=
          AList.lookup_eq_none.mpr fun hprev => hin ⟨hstep, hprev⟩
        rw [hnone, Option.map_none]
      · rfl

lemma lookup_late (millis : Int → Int) (s : ClusterSnapshot) (nodeId : Text) (blob : Bytes32) (timestamp : Int)
    (late : LateEvent) (batchId : BatchId) :
    (s.applyNodeEvent millis nodeId ⟨timestamp, late.data blob⟩).prevStepBatches.lookup batchId
      = if s.blobToBatch.lookup blob = some batchId ∧ batchId ∉ s.stepBatches then
          (s.prevStepBatches.lookup batchId).map fun view => view.updateStatus nodeId late.status
        else s.prevStepBatches.lookup batchId := by
  cases late <;> exact lookup_updateBlob _ _ _ _ _

lemma exists_late_ne (view : ClusterBatchView) (nodeId : Text) :
    ∃ late : LateEvent, view.updateStatus nodeId late.status ≠ view := by
  have hne : ∀ result : Except Text Unit,
      some result.isOk ≠ ((view.nodeStatus.lookup nodeId).getD {}).deserialized →
      view.updateStatus nodeId (LateEvent.distroResultDeserializeComplete result).status ≠ view := by
    intro result hresult heq
    have hlookup := congrArg (fun v : ClusterBatchView => v.nodeStatus.lookup nodeId) heq
    simp only [ClusterBatchView.updateStatus, AList.lookup_insert] at hlookup
    rw [← hlookup] at hresult
    exact hresult rfl
  by_cases h : some true ≠ ((view.nodeStatus.lookup nodeId).getD {}).deserialized
  · exact ⟨_, hne (.ok ()) h⟩
  · refine ⟨_, hne (.error []) ?_⟩
    rw [← not_not.mp h]
    rintro ⟨⟩

lemma credited_iff (millis : Int → Int) (hprev : batchId ∈ s.prevStepBatches) :
    (∀ timestamp late, Credited millis s nodeId blob batchId timestamp late)
      ↔ s.blobToBatch.lookup blob = some batchId ∧ batchId ∉ s.stepBatches := by
  obtain ⟨view, hview⟩ := Option.isSome_iff_exists.mp (AList.lookup_isSome.mpr hprev)
  constructor
  · intro h
    by_contra hnot
    obtain ⟨late, hne⟩ := exists_late_ne view nodeId
    obtain ⟨view', hview', hcredit⟩ := h 0 late
    rw [lookup_late, if_neg hnot, hview, Option.some_inj] at hcredit
    rw [hview, Option.some_inj] at hview'
    exact hne (hview' ▸ hcredit.symm)
  · intro h timestamp late
    refine ⟨view, hview, ?_⟩
    rw [lookup_late, if_pos h, hview, Option.map_some]

end Credit

/-- Late events are credited to their step if and only if their blob is announced again. After a moment at which a batch is
one of the current step, let the coordinator first report the next step and then no other: all further events of a node
about a blob update what it has done with the batch in the view of the step before, if and only if the blob was last
announced for that batch after the step had changed, and the batch is not assigned in the new step. -/
theorem late_events_credited_iff {earlier later : List (TimelineEntry K.format)} {update current : CoordinatorStateSnapshot}
    {now time : Int} {batchId : BatchId} {blob : Bytes32} {nodeId : Text}
    (hcurrent : (replay now earlier).coordinator = some current) (hbatch : batchId ∈ (replay now earlier).stepBatches)
    (hstep : update.step = current.step + 1) (hlater : ∀ entry ∈ later, SameStep update.step entry) :
    (∀ timestamp late, Credited K.numMilliseconds (replay now (earlier ++ .coordinator time update :: later)) nodeId blob batchId
        timestamp late)
      ↔ lastAnnounced blob later = some batchId
        ∧ batchId ∉ update.batchAssignments ∧ ∀ entry ∈ later, ¬ Assigned batchId entry := by
  have hnew : (replay now earlier).coordinator.map CoordinatorStateSnapshot.step ≠ some update.step := by
    rw [hcurrent, Option.map_some, hstep]
    simp
  obtain ⟨hassigned, hprev, hblob, hcoordinator⟩ := applyCoordinator_new update hnew
  have hwithin := within_of_sameStep hlater (congrArg (Option.map CoordinatorStateSnapshot.step) hcoordinator)
  have hreplay : replay now (earlier ++ .coordinator time update :: later)
      = later.foldl applyEntry ((replay now earlier).applyCoordinator update) := by
    rw [replay, foldl_append, foldl_cons]
    rfl
  have hkept : batchId ∈ (replay now (earlier ++ .coordinator time update :: later)).prevStepBatches := by
    rw [hreplay, hwithin.prev, hprev]
    exact hbatch
  rw [credited_iff _ hkept, hreplay, hwithin.blob, hwithin.step, hblob, hassigned, AList.lookup_empty, Option.or_none]
  simp only [not_or, not_exists, not_and]

section Late

/-- A batch of the first step, and one of the second. -/
def firstBatch : BatchId := ⟨0, 3, by decide⟩

@[inherit_doc firstBatch]
def secondBatch : BatchId := ⟨4, 7, by decide⟩

/-- The coordinator reports a step, with a batch for a node. -/
def reported (step : Nat) (batchId : BatchId) : CoordinatorStateSnapshot :=
  ⟨step, .roundTrain, 1, step, .ephemeral, [], 1, (∅ : Accounts BatchId Text).insert batchId "trainer".toList⟩

def noDecoder : ClusterDecoder := ⟨(Int.tdiv · 1000000), fun _ => none, 1, by decide, fun _ => (0, reported 0 firstBatch)⟩

/-- A node hears of the result of a batch. -/
def announcement (timestamp : Int) (node : String) : TimelineEntry noDecoder.format :=
  .node timestamp node.toList ⟨timestamp, .p2p (.gossipTrainingResultReceived 7 firstBatch)⟩

/-- In the first step a node hears of the result of its batch. -/
def firstStep : List (TimelineEntry noDecoder.format) := [.coordinator 1 (reported 1 firstBatch), announcement 2 "peer"]

def secondStep : TimelineEntry noDecoder.format := .coordinator 3 (reported 2 secondBatch)

/-- The node that has heard of the result in the first step has it downloaded in the second, and that is not credited. -/
theorem late_download_not_credited :
    (replay 0 firstStep).blobToBatch.lookup 7 = some firstBatch ∧ firstBatch ∈ (replay 0 firstStep).stepBatches
    ∧ (((replay 0 (firstStep ++ [secondStep])).applyNodeEvent noDecoder.numMilliseconds "peer".toList
        ⟨4, .p2p (.blobDownloadCompleted 7 (.ok ()))⟩).prevStepBatches.lookup firstBatch).map
          (fun view => view.nodeStatus.lookup "peer".toList)
      = some (some { gossipReceived := true, download := .notStarted, deserialized := none }) := by
  decide +kernel

/-- A result that is announced anew in the second step is credited with whatever the node reports on it. -/
theorem late_events_credited_again : (replay 0 firstStep).coordinator = some (reported 1 firstBatch)
    ∧ ∀ timestamp late, Credited noDecoder.numMilliseconds (replay 0 (firstStep ++ secondStep :: [announcement 4 "peer"]))
      "peer".toList 7 firstBatch timestamp late := by
  have hfirst : (replay 0 firstStep).coordinator = some (reported 1 firstBatch) := rfl
  have hlater : ∀ entry ∈ [announcement 4 "peer"], SameStep (reported 2 secondBatch).step entry := by
    intro entry hentry
    cases mem_singleton.mp hentry
    trivial
  have hassigned : ∀ entry ∈ [announcement 4 "peer"], ¬ Assigned firstBatch entry := by
    intro entry hentry
    cases mem_singleton.mp hentry
    exact id
  refine ⟨hfirst, (late_events_credited_iff hfirst (by decide +kernel) rfl hlater).mpr ?_⟩
  exact ⟨by decide +kernel, by decide +kernel, hassigned⟩

end Late

end ClusterSnapshot
end Leviathan
