import Leviathan.Coordinator.Transition
import Leviathan.Lib.Run
import Mathlib.Data.Nat.Digits.Defs

/-!
# The coordinator as a machine

The coordinator of `shared/coordinator/src/coordinator.rs` on its own, driven by any sequence of its operations. The
programs around it (`solana-coordinator`, the centralized server) restrict who may call what and when; here every call
is possible at any time with any arguments, except that the identities waiting to join are distinct, as in every caller,
and that configuration, model and progress are replaced only while the run is halted (Rust
`CoordinatorInstanceState::update`).
-/

namespace Leviathan

/-- Distinct identities that wait to join. -/
structure PendingClients where
  ids : List NodeIdentity
  nodup : (ids.map NodeIdentity.signer).Nodup

/-- A call of the coordinator. -/
inductive Operation where
  | tick (pending : Option PendingClients) (unixTimestamp randomSeed : Nat)
  | warmupWitness (from_ : NodeIdentity) (witness : Witness) (unixTimestamp randomSeed : Nat)
  | witness (from_ : NodeIdentity) (witness : Witness) (unixTimestamp : Nat)
  | healthCheck (checks : List (NodeIdentity × CommitteeProof))
  | checkpoint (from_ : NodeIdentity) (index : Nat) (repo : Checkpoint)
  | withdraw (index : Nat)
  | eject (index : Nat)
  | pause (unixTimestamp : Nat)
  | resume (unixTimestamp : Nat)
  | update (config : CoordinatorConfig) (model : Model) (progress : CoordinatorProgress)

/-- Whether a call replaces configuration, model and progress. -/
def Operation.isUpdate : Operation → Bool
  | .update _ _ _ => true
  | _ => false

namespace Coordinator

def perform (P : Platform) (c : Coordinator) : Operation → Exec CoordinatorError Panic Coordinator
  | .tick pending now seed => do
    let (c', _) ← c.tick P (pending.map PendingClients.ids) now seed
    .ok c'
  | .warmupWitness from_ w now seed => c.warmupWitness P from_ w now seed
  | .witness from_ w now => c.witness P from_ w now
  | .healthCheck checks => do
    let (c', _) ← c.healthCheck P checks
    .ok c'
  | .checkpoint from_ index repo => c.checkpoint from_ index repo
  | .withdraw index => c.withdraw index
  | .eject index => c.eject index
  | .pause now => c.pause now
  | .resume now => c.resume now
  | .update config model progress => do
    Exec.require (c.halted = true) .invalidRunState
    .ok { c with config, model, progress }

/-- A coordinator before its first epoch. -/
def Fresh (c : Coordinator) : Prop :=
  c.epochState.clients.toList = [] ∧ c.epochState.exitedClients.toList = [] ∧ c.currentRound.height = 0
    ∧ (c.runState = .waitingForMembers ∨ c.halted = true)

/-- The coordinator, driven by its calls. -/
def machine (P : Platform) : Machine Coordinator Operation Unit (Fault CoordinatorError Panic) where
  init := Fresh
  step c op := do
    let c' ← c.perform P op
    .ok (c', ())

/-- The coordinator, driven by its calls from a given state on. -/
def machineFrom (P : Platform) (c0 : Coordinator) :
    Machine Coordinator Operation Unit (Fault CoordinatorError Panic) :=
  { machine P with init := fun c => c = c0 }

abbrev Record := List (Event Coordinator Operation Unit)

end Coordinator

section Small

/-- The characters of base58, in order. -/
def base58Alphabet : List Char := "123456789ABCDEFGHJKLMNPQRSTUVWXYZabcdefghijkmnopqrstuvwxyz".toList

/-- A base58 form has only these characters. -/
def Platform.Base58 (P : Platform) : Prop := ∀ bytes, ∀ c ∈ (P.bs58 bytes).toList, c ∈ base58Alphabet

/-- Bytes in base58: their number in digits, most significant first, behind a `1` for each leading zero. -/
def base58 (bytes : Bytes) : String :=
  let number := bytes.foldl (fun n b => n * 256 + b.toNat) 0
  let zeros := (bytes.takeWhile (· == 0)).map fun _ => '1'
  String.ofList (zeros ++ (Nat.digits 58 number).reverse.map fun d => base58Alphabet.getD d '1')

-- the address in the tests of `shared/core/src/node_identity.rs`
example : base58 [0x75, 0x3a, 0x77, 0x34, 0x61, 0x0d, 0x5e, 0xbf, 0x81, 0xb6, 0x4d, 0xc2, 0xc9, 0xaa, 0xd5, 0x5b, 0xb2, 0xaa,
    0xe3, 0x6c, 0x68, 0x45, 0x7a, 0x82, 0x82, 0xe2, 0x41, 0x30, 0x3c, 0x5f, 0xca, 0xbf]
    = "8tcQfLmW1ucG5ohoDf3fci8vRz3Kspviu5bKsTm628Un" := by
  decide +kernel

/-- A platform whose hash is constant, for concrete runs. -/
def Platform.zero : Platform := ⟨fun _ => 0, id, base58⟩

/-- A configuration with room for small runs: two clients, every seat a verifier seat. -/
def CoordinatorConfig.small : CoordinatorConfig where
  warmupTime := 10
  cooldownTime := 10
  maxRoundTrainTime := 10
  roundWitnessTime := 10
  globalBatchSizeWarmupTokens := 0
  epochTime := 100
  totalSteps := 100
  initMinClients := 2
  minClients := 2
  witnessNodes := 0
  globalBatchSizeStart := 16
  globalBatchSizeEnd := 16
  verificationPercent := 100
  waitingForMembersExtraTime := 1

def Model.small : Model := ⟨⟨1, 0, .dummy ⟨[], none⟩, .dummy, .adamW⟩⟩

/-- A coordinator that waits for its first members. -/
def Coordinator.small : Coordinator where
  runState := .waitingForMembers
  model := .small
  config := .small
  progress := ⟨0, 1, 0⟩
  epochState := .zeroed
  runStateStartUnixTimestamp := 0
  pendingPause := false

def PendingClients.two : PendingClients := ⟨[⟨1, 0⟩, ⟨2, 0⟩], by decide⟩

lemma Coordinator.run_small (ops : List Operation) :
    (machine .zero).Run ((machine .zero).play [] .small ops).1 ((machine .zero).play [] .small ops).2 := by
  have hinit : (machine .zero).Run [] .small := .init ⟨rfl, rfl, rfl, .inl rfl⟩
  exact hinit.play ops

end Small
end Leviathan
