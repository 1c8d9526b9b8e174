import Leviathan.Core.Identity

/-!
# The trained model as the coordinator sees it

Model of `shared/coordinator/src/model.rs`: where the checkpoint and the training data are, and the
sanity check an update of the model has to pass (Rust `Model::check`). A `FixedString` is the list of
its bytes. The architecture, the data type and the learning-rate schedule are not read by the
coordinator and are left out, and so are the parameters of an optimizer.
-/

namespace Leviathan

structure HubRepo where
  repoId : Bytes
  revision : Option Bytes
deriving DecidableEq, Repr

/-- A storage bucket. -/
structure GcsRepo where
  bucket : Bytes
  objectPrefix : Option Bytes
deriving DecidableEq, Repr

/-- Where a client finds the weights at the start of an epoch. -/
inductive Checkpoint where
  | ephemeral
  | dummy (repo : HubRepo)
  | hub (repo : HubRepo)
  | p2p (repo : HubRepo)
  | gcs (repo : GcsRepo)
  | p2pGcs (repo : GcsRepo)
deriving DecidableEq, Repr

inductive HttpTrainingDataLocation where
  | singleUrl (url : Bytes)
  | numberedFiles (urlTemplate : Bytes) (startIndex nLeftPadZeros numFiles : Nat)
  | gcp (bucketName filterDirectory : Bytes)
deriving DecidableEq, Repr

inductive LLMTrainingDataLocation where
  | dummy
  | server (url : Bytes)
  | local (path : Bytes)
  | http (location : HttpTrainingDataLocation)
  | weightedHttp (url : Bytes)
  | preprocessed (url : Bytes)
deriving DecidableEq, Repr

inductive OptimizerDefinition where
  | dummy
  | adamW
  | distro
deriving DecidableEq, Repr

/-- A language model under training. -/
structure LLM where
  maxSeqLen : Nat
  coldStartWarmupSteps : Nat
  checkpoint : Checkpoint
  dataLocation : LLMTrainingDataLocation
  optimizer : OptimizerDefinition
deriving DecidableEq, Repr

/-- The Rust `Model`, an enumeration with the single variant `LLM`. -/
structure Model where
  llm : LLM
deriving DecidableEq, Repr

def LLMTrainingDataLocation.bad : LLMTrainingDataLocation → Bool
  | .dummy => false
  | .server url => url.isEmpty
  | .local _ => false
  | .http (.singleUrl url) => url.isEmpty
  | .http (.numberedFiles urlTemplate _ _ numFiles) => urlTemplate.isEmpty || numFiles == 0
  | .http (.gcp bucketName _) => bucketName.isEmpty
  | .weightedHttp url => url.isEmpty
  | .preprocessed url => url.isEmpty

namespace Checkpoint

/-- Whether no client could load a checkpoint. -/
def bad : Checkpoint → Bool
  | .dummy _ => false
  | .ephemeral => true
  | .hub repo => repo.repoId.isEmpty
  | .p2p repo => repo.repoId.isEmpty
  | .gcs repo => repo.bucket.isEmpty
  | .p2pGcs repo => repo.bucket.isEmpty

/-- After a completed epoch the weights come from peers (in Rust `tick_cooldown`). -/
def toP2P : Checkpoint → Checkpoint
  | .hub repo => .p2p repo
  | .dummy repo => .p2p repo
  | .gcs repo => .p2pGcs repo
  | c => c

/-- With no peer left the weights come from the repository (in Rust `tick_waiting_for_members`). -/
def toRepository : Checkpoint → Checkpoint
  | .p2p repo => .hub repo
  | .p2pGcs repo => .gcs repo
  | c => c

/-- A reported checkpoint replaces the current one where the kinds allow it (in Rust
`Coordinator::checkpoint`). -/
def report : Checkpoint → Checkpoint → Checkpoint
  | .p2p _, .hub repo => .p2p repo
  | .p2pGcs _, .gcs repo => .p2pGcs repo
  | .hub _, .hub repo => .hub repo
  | .gcs _, .gcs repo => .gcs repo
  | .p2pGcs _, .hub repo => .p2p repo
  | .p2p _, .gcs repo => .p2pGcs repo
  | c, _ => c

end Checkpoint

namespace Model

def check (m : Model) : Bool :=
  m.llm.maxSeqLen != 0 && !m.llm.dataLocation.bad && !m.llm.checkpoint.bad
    && m.llm.optimizer != .dummy

def mapCheckpoint (m : Model) (f : Checkpoint → Checkpoint) : Model :=
  { m with llm := { m.llm with checkpoint := f m.llm.checkpoint } }

end Model
end Leviathan
