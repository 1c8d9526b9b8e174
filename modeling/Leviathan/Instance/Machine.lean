import Leviathan.Instance.State
import Leviathan.Coordinator.Machine

/-!
# The instance as a machine

The instructions of the coordinator program (`solana-coordinator/src/lib.rs`) and the machine that
executes them, each at any clock value. A fault leaves the account as it was.
-/

namespace Leviathan

/-- The instructions of the coordinator program. -/
inductive Instruction where
  | joinRun (user : Pubkey) (clientId : NodeIdentity)
  | tick
  | witness (user : Pubkey) (w : Witness)
  | warmupWitness (user : Pubkey) (w : Witness)
  | healthCheck (user : Pubkey) (id : NodeIdentity) (proof : CommitteeProof)
  | checkpoint (user : Pubkey) (repo : Checkpoint)
  | setPaused (paused : Bool)
  | update (metadata : Option RunMetadata) (config : Option CoordinatorConfig) (model : Option Model)
      (progress : Option CoordinatorProgress)
  | updateClientVersion (version : Bytes)
  | setFutureEpochRates (earning slashing : Option Nat)
  | slash (index : Nat)

namespace InstanceState

def process (P : Platform) (s : InstanceState) (clock : Clock) :
    Instruction → Exec InstanceError Panic (InstanceState × List InstanceEffect)
  | .joinRun user id => s.joinRun P clock user id
  | .tick => s.tick P clock
  | .witness user w => s.witness P clock user w
  | .warmupWitness user w => s.warmupWitness P clock user w
  | .healthCheck user id proof => s.healthCheck P clock user [(id, proof)]
  | .checkpoint user repo => s.checkpoint P clock user repo
  | .setPaused paused => s.setPaused P clock paused
  | .update metadata config model progress => do
    let s' ← s.update metadata config model progress
    .ok (s', [])
  | .updateClientVersion version => do
    let s' ← s.updateClientVersion version
    .ok (s', [])
  | .setFutureEpochRates earning slashing => .ok (s.setFutureEpochRates earning slashing, [])
  | .slash index => s.slash index

/-- A newly created account: all zero (Rust `init_coordinator_processor`). -/
def created (clientVersion : Bytes) : InstanceState where
  metadata := ⟨[], [], 0, 0⟩
  coordinator :=
    { runState := .uninitialized
      model := ⟨⟨0, 0, .ephemeral, .dummy, .dummy⟩⟩
      config := ⟨0, 0, 0, 0, 0, 0, 0, 0, 0, 0, 0, 0, 0, 0⟩
      progress := ⟨0, 0, 0⟩
      epochState := .zeroed
      runStateStartUnixTimestamp := 0
      pendingPause := false }
  clientsState := ⟨.new, 0, ⟨0, 0⟩, ⟨0, 0⟩⟩
  isWarmupFirstTick := false
  isTrainingFirstTick := false
  clientVersion := clientVersion.take 96

/-- The instance, driven by its instructions. -/
def machine (P : Platform) :
    Machine InstanceState (Clock × Instruction) (List InstanceEffect) (Fault InstanceError Panic) where
  init s := ∃ clientVersion, s = created clientVersion
  step s i := s.process P i.1 i.2

abbrev Record := List (Event InstanceState (Clock × Instruction) (List InstanceEffect))

/-- Instructions that configure an account, set its rates and let it wait for members. -/
def opening : List (Clock × Instruction) :=
  [(⟨0, 0⟩, .update none (some .small) (some .small) none), (⟨0, 0⟩, .setFutureEpochRates (some 100) (some 30)),
    (⟨0, 0⟩, .setPaused false)]

/-- The run of a new account on a platform with a constant hash. -/
def runOf (inputs : List (Clock × Instruction)) : Record × InstanceState :=
  (machine .zero).play [] (created []) inputs

lemma runOf_run (inputs : List (Clock × Instruction)) :
    (machine .zero).Run (runOf inputs).1 (runOf inputs).2 := by
  have hinit : (machine .zero).init (created []) := ⟨[], rfl⟩
  exact (Machine.Run.init hinit).play inputs

lemma runOf_last (inputs : List (Clock × Instruction)) (clock : Clock) (ix : Instruction)
    (h : ((runOf inputs).2.process .zero clock ix).isOk = true) :
    ∃ fx, (runOf inputs).2.process .zero clock ix = .ok ((runOf (inputs ++ [(clock, ix)])).2, fx) :=
  (machine .zero).play_last [] (created []) inputs (clock, ix) h

end InstanceState
end Leviathan
