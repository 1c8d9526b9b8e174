import Leviathan.Coordinator.Transition
import Leviathan.Lib.Run

/-!
# The on-chain coordinator instance

Model of `solana-coordinator/src/instance_state.rs`, `clients_state.rs` and `client.rs`: the coordinator together with
one permanent record per client that ever joined. A record accumulates what its client earned and what it was slashed,
and both are moved in one place, the end of an epoch (in Rust `CoordinatorInstanceState::tick`).

Besides the new state an instruction returns its effects, in order: a client was ejected, an epoch was settled. They are
not stored anywhere.

Left out: the account's nonce, its version and the anchor account checks, of which the accounts that `Instruction` names
are what remains; the authorization an account needs for `join_run`, so that any account may join; and
`free_coordinator`, which closes a halted instance.
-/

namespace Leviathan

structure Clock where
  unixTimestamp : Int
  slot : Nat
deriving DecidableEq, Repr

def Clock.now (clock : Clock) : Nat := asU64 clock.unixTimestamp

/-- The permanent record of a client (Rust `solana_coordinator::Client`). -/
structure SolanaClient where
  id : NodeIdentity
  earned : Nat
  slashed : Nat
  active : Nat

/-- The wallet key of a record. -/
abbrev SolanaClient.signer (r : SolanaClient) : Pubkey := r.id.signer

/-- What an epoch pays and charges. -/
structure ClientsEpochRates where
  earningRateTotalShared : Nat
  slashingRatePerClient : Nat
deriving DecidableEq, Repr

/-- The permanent records and the rates. -/
structure ClientsState where
  clients : FixedVec SolanaClient solanaMaxNumClients
  nextActive : Nat
  currentEpochRates : ClientsEpochRates
  futureEpochRates : ClientsEpochRates

/-- A run's self-description. -/
structure RunMetadata where
  name : Bytes
  description : Bytes
  numParameters : Nat
  vocabSize : Nat
deriving DecidableEq, Repr

/-- The state of the coordinator account (Rust `CoordinatorInstanceState`). -/
structure InstanceState where
  metadata : RunMetadata
  coordinator : Coordinator
  clientsState : ClientsState
  isWarmupFirstTick : Bool
  isTrainingFirstTick : Bool
  clientVersion : Bytes

/-- Errors of the coordinator program (Rust `solana_coordinator::ProgramError`). -/
inductive InstanceError where
  | updateConfigFinished
  | updateConfigNotHalted
  | clientsFull
  | configSanityCheckFailed
  | modelSanityCheckFailed
  | progressSanityCheckFailed
  | signerNotAClient
  | signerMismatch
  | moreClientsThanBatches
  | coordinatorError (e : CoordinatorError)
deriving DecidableEq, Repr

/-- The payments and charges made at the end of an epoch. -/
structure Settlement where
  success : Bool
  earningRate : Nat
  earnedShare : Nat
  slashingRate : Nat
  credited : List Pubkey
  charged : List Pubkey
deriving DecidableEq, Repr

/-- What an instruction did besides changing the state. -/
inductive InstanceEffect where
  | ejected (signer : Pubkey)
  | settled (s : Settlement)
deriving DecidableEq, Repr

namespace ClientsState

/-- The identities that joined for the next epoch. -/
def getActiveClientsIds (cs : ClientsState) : List NodeIdentity :=
  (cs.clients.toList.filter fun x => x.active == cs.nextActive).map SolanaClient.id

/-- The identity behind a wallet key. -/
def findSigner (cs : ClientsState) (signer : Pubkey) : Exec InstanceError Panic NodeIdentity :=
  Exec.okOr ((cs.clients.toList.find? fun x => x.signer == signer).map SolanaClient.id) .signerNotAClient

/-- Bump the counter that marks joins as current. -/
def bumpNextActive (cs : ClientsState) : Exec InstanceError Panic ClientsState := do
  let nextActive ← addU 64 cs.nextActive 1
  .ok { cs with nextActive }

end ClientsState

def getRandomSeed (P : Platform) (clock : Clock) : Nat :=
  (P.sha256 (leBytes 8 clock.now ++ leBytes 8 clock.slot)).toNat % 2 ^ 64

namespace InstanceState

section Settlement

/-- Whether a record is credited when an epoch ends. -/
def credited (c : Coordinator) (r : SolanaClient) : Bool :=
  c.epochState.clients.toList.any fun finished => finished.id == r.id && finished.state == .healthy

/-- Whether a record is charged when an epoch ends. -/
def charged (c : Coordinator) (r : SolanaClient) : Bool :=
  c.epochState.exitedClients.toList.any fun exited => exited.id == r.id && exited.state == .ejected

/-- The share of each client that finished the epoch. -/
def earnedShare (c : Coordinator) (rates : ClientsEpochRates) : Nat :=
  match c.epochState.clients.len with
  | 0 => 0
  | finishers => rates.earningRateTotalShared / finishers

/-- The record of a client after an epoch. -/
def settleClient (c : Coordinator) (rates : ClientsEpochRates) (r : SolanaClient) : SolanaClient :=
  { r with
    earned := if credited c r then r.earned + earnedShare c rates else r.earned
    slashed := if charged c r then r.slashed + rates.slashingRatePerClient else r.slashed }

/-- Whether a record can hold what the epoch adds to it. -/
def settlementFits (c : Coordinator) (rates : ClientsEpochRates) (r : SolanaClient) : Bool :=
  (!credited c r || r.earned + earnedShare c rates < 2 ^ 64)
    && (!charged c r || r.slashed + rates.slashingRatePerClient < 2 ^ 64)

/-- Settle an epoch (in Rust `tick`). The loop aborts at the first sum that does not fit, which leaves no state behind; so
the sums can be checked before. -/
def settle (s : InstanceState) (success : Bool) :
    Exec InstanceError Panic (InstanceState × List InstanceEffect) := do
  let c := s.coordinator
  let rates := s.clientsState.currentEpochRates
  let records := s.clientsState.clients
  Exec.ensure (records.toList.all (settlementFits c rates) = true) .overflow
  .ok ({ s with clientsState := { s.clientsState with clients := records.map (settleClient c rates) } },
    [.settled
      { success
        earningRate := rates.earningRateTotalShared
        earnedShare := earnedShare c rates
        slashingRate := rates.slashingRatePerClient
        credited := (records.toList.filter (credited c)).map SolanaClient.signer
        charged := (records.toList.filter (charged c)).map SolanaClient.signer }])

end Settlement

/-- Note the start of an epoch's warmup and of its first round (in Rust `tick`). -/
def noteStart (s : InstanceState) : Exec InstanceError Panic InstanceState :=
  if s.coordinator.isWarmupJustStarting && s.isWarmupFirstTick then
    .ok { s with
      clientsState := { s.clientsState with currentEpochRates := s.clientsState.futureEpochRates }
      isWarmupFirstTick := false }
  else if s.coordinator.isTrainingJustStarting && s.isTrainingFirstTick then do
    let clientsState ← s.clientsState.bumpNextActive
    .ok { s with clientsState, isTrainingFirstTick := false }
  else
    .ok s

/-- While members are awaited the two flags are set. -/
def resetFlags (s : InstanceState) : InstanceState :=
  if s.coordinator.runState = .waitingForMembers then
    { s with isWarmupFirstTick := true, isTrainingFirstTick := true }
  else
    s

/-- The identities offered to the coordinator. -/
def pendingIds (s : InstanceState) : Option (List NodeIdentity) :=
  if s.coordinator.runState = .waitingForMembers then some s.clientsState.getActiveClientsIds else none

/-- Let the coordinator tick and act on the result. -/
def tick (P : Platform) (s : InstanceState) (clock : Clock) :
    Exec InstanceError Panic (InstanceState × List InstanceEffect) := do
  let (coordinator, result) ← Exec.mapErr .coordinatorError
    (s.coordinator.tick P s.pendingIds clock.now (getRandomSeed P clock))
  let s := { s.resetFlags with coordinator }
  match result with
  | .ticked => do
    let s ← s.noteStart
    .ok (s, [])
  | .epochEnd success => s.settle success

def withCoordinator (s : InstanceState) (coordinator : Coordinator) : InstanceState :=
  { s with coordinator }

/-- The checks and the first transition of an unpausing (in Rust `set_paused`). -/
def unpause (c : Coordinator) (now : Nat) : Exec InstanceError Panic Coordinator := do
  Exec.require (c.config.check = true) .configSanityCheckFailed
  Exec.require (c.model.check = true) .modelSanityCheckFailed
  let fits ← c.checkColdStartWarmupSteps
  Exec.require (fits = true) .configSanityCheckFailed
  let c : Coordinator :=
    if c.runState = .uninitialized then
      { c with runState := .paused, progress := { c.progress with step := 1 } }
    else
      c
  Exec.require (c.progress.check = true) .progressSanityCheckFailed
  Exec.mapErr .coordinatorError (c.resume now)

def setPaused (P : Platform) (s : InstanceState) (clock : Clock) (paused : Bool) :
    Exec InstanceError Panic (InstanceState × List InstanceEffect) :=
  if paused then do
    let c ← Exec.mapErr .coordinatorError (s.coordinator.pause clock.now)
    .ok (s.withCoordinator c, [])
  else do
    let c ← unpause s.coordinator clock.now
    let clientsState ← s.clientsState.bumpNextActive
    { s with coordinator := c, clientsState }.tick P clock

def witness (P : Platform) (s : InstanceState) (clock : Clock) (payer : Pubkey) (w : Witness) :
    Exec InstanceError Panic (InstanceState × List InstanceEffect) := do
  let id ← s.clientsState.findSigner payer
  let c ← Exec.mapErr .coordinatorError (s.coordinator.witness P id w clock.now)
  (s.withCoordinator c).tick P clock

def warmupWitness (P : Platform) (s : InstanceState) (clock : Clock) (payer : Pubkey) (w : Witness) :
    Exec InstanceError Panic (InstanceState × List InstanceEffect) := do
  let id ← s.clientsState.findSigner payer
  let c ← Exec.mapErr .coordinatorError
    (s.coordinator.warmupWitness P id w clock.now (getRandomSeed P clock))
  (s.withCoordinator c).tick P clock

def healthCheck (P : Platform) (s : InstanceState) (clock : Clock) (payer : Pubkey)
    (checks : List (NodeIdentity × CommitteeProof)) :
    Exec InstanceError Panic (InstanceState × List InstanceEffect) := do
  let _ ← s.clientsState.findSigner payer
  let (c, _) ← Exec.mapErr .coordinatorError (s.coordinator.healthCheck P checks)
  (s.withCoordinator c).tick P clock

def tickUnlessHalted (P : Platform) (s : InstanceState) (clock : Clock) :
    Exec InstanceError Panic (InstanceState × List InstanceEffect) :=
  if s.coordinator.halted then .ok (s, []) else s.tick P clock

def checkpoint (P : Platform) (s : InstanceState) (clock : Clock) (payer : Pubkey) (repo : Checkpoint) :
    Exec InstanceError Panic (InstanceState × List InstanceEffect) := do
  let id ← s.clientsState.findSigner payer
  let index ← Exec.okOr (s.coordinator.epochState.clients.toList.findIdx? fun x => x.id == id)
    .signerNotAClient
  let c ← Exec.mapErr .coordinatorError (s.coordinator.checkpoint id index repo)
  (s.withCoordinator c).tickUnlessHalted P clock

def setFutureEpochRates (s : InstanceState) (earning slashing : Option Nat) : InstanceState :=
  let rates := s.clientsState.futureEpochRates
  { s with clientsState := { s.clientsState with
      futureEpochRates :=
        { earningRateTotalShared := earning.getD rates.earningRateTotalShared
          slashingRatePerClient := slashing.getD rates.slashingRatePerClient } } }

/-- The cold-start check an update makes if it changed the configuration or the model. -/
def checkColdStart (c : Coordinator) (changed : Bool) : Exec InstanceError Panic Bool :=
  if changed then c.checkColdStartWarmupSteps else .ok true

def update (s : InstanceState) (metadata : Option RunMetadata) (config : Option CoordinatorConfig)
    (model : Option Model) (progress : Option CoordinatorProgress) :
    Exec InstanceError Panic InstanceState := do
  Exec.require (s.coordinator.runState ≠ .finished) .updateConfigFinished
  Exec.require (s.coordinator.halted = true ∨ (config = none ∧ model = none ∧ progress = none))
    .updateConfigNotHalted
  Exec.require (∀ x ∈ config, x.check = true) .configSanityCheckFailed
  Exec.require (∀ x ∈ model, x.check = true) .modelSanityCheckFailed
  let c : Coordinator := { s.coordinator with
    config := config.getD s.coordinator.config
    model := model.getD s.coordinator.model }
  let fits ← checkColdStart c (config.isSome || model.isSome)
  Exec.require (fits = true) .configSanityCheckFailed
  Exec.require (∀ x ∈ progress, x.check = true) .modelSanityCheckFailed
  .ok { s with
    metadata := metadata.getD s.metadata
    coordinator := { c with progress := progress.getD c.progress } }

/-- Rust `update_client_version`; the string is cut to 96 bytes. -/
def updateClientVersion (s : InstanceState) (version : Bytes) : Exec InstanceError Panic InstanceState := do
  Exec.require (s.coordinator.halted = true) .updateConfigNotHalted
  .ok { s with clientVersion := version.take 96 }

/-- Register a client or renew its registration (in Rust `join_run`). -/
def register (s : InstanceState) (id : NodeIdentity) : Exec InstanceError Panic ClientsState :=
  let cs := s.clientsState
  match cs.clients.toList.findIdx? fun x => x.id == id with
  | some index =>
    .ok { cs with clients := cs.clients.modify index fun x => { x with id, active := cs.nextActive } }
  | none => do
    Exec.require (s.coordinator.config.globalBatchSizeEnd ≠ asU16 cs.clients.len) .moreClientsThanBatches
    let clients ← Exec.okOr (cs.clients.push ⟨id, 0, 0, cs.nextActive⟩) .clientsFull
    .ok { cs with clients }

/-- Rust `join_run` behind `join_run_processor`. -/
def joinRun (P : Platform) (s : InstanceState) (clock : Clock) (user : Pubkey) (id : NodeIdentity) :
    Exec InstanceError Panic (InstanceState × List InstanceEffect) := do
  Exec.require (id.signer = user) .signerMismatch
  let clientsState ← s.register id
  { s with clientsState }.tickUnlessHalted P clock

def slash (s : InstanceState) (index : Nat) :
    Exec InstanceError Panic (InstanceState × List InstanceEffect) := do
  let c ← Exec.mapErr .coordinatorError (s.coordinator.eject index)
  .ok (s.withCoordinator c,
    ((s.coordinator.epochState.clients.get? index).map fun x => .ejected x.id.signer).toList)

end InstanceState
end Leviathan
