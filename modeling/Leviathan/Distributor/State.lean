import Leviathan.Core.Identity
import Leviathan.Lib.Accounts
import Leviathan.Lib.Run

/-!
# The distributor

The distributor program (`solana-distributor/src/{state,logic}`) pays out airdrops. An airdrop has a Merkle root and a
vault. Who is entitled to what is not stored: a claimer presents its allocation with a Merkle proof each time it
redeems, and is paid what has vested by then, less what its claim has been paid.

`Distribution` is one airdrop with its vault and its claims, which are found by claimer and nonce (in Rust the address
of a claim is derived from the airdrop, the claimer and the nonce). `machine` is the program with the transfers that
others make to the vault. Left out: bumps, payers, sizes of accounts, and the number an airdrop is found by.
-/

namespace Leviathan

/-- Why an instruction is refused (Rust `ProgramError`); `token` is a transfer that fails and `constraint` an account that
does not exist, exists already or is not the one asked for. -/
inductive DistributorError where
  | airdropClaimFreezeIsTrue
  | paramsMerkleProofIsInvalid
  | paramsMerkleRootIsZeroed
  | paramsCollateralAmountIsTooLarge
  | vestingElapsedSecondsOverflow
  | vestingNumeratorCollateralAmountOverflow
  | vestingDenominatorCollateralAmountOverflow
  | vestingVestedCollateralAmountOverflow
  | token
  | constraint
deriving DecidableEq, Repr

/-- When an allocation is paid out. -/
structure Vesting where
  startUnixTimestamp : BitVec 64   -- an `i64`
  durationSeconds : BitVec 32
  endCollateralAmount : BitVec 64
deriving DecidableEq, Repr

/-- What a claimer is entitled to under a nonce. -/
structure Allocation where
  claimer : Pubkey
  nonce : BitVec 64
  vesting : Vesting
deriving DecidableEq, Repr

/-- A node of a Merkle tree. -/
abbrev MerkleHash := Bytes32

namespace Vesting

/-- Rust `compute_vested_collateral_amount`. The product is computed in 128 bits. -/
def computeVestedCollateralAmount (v : Vesting) (now : Int) : Exec DistributorError Panic Nat :=
  if now < v.startUnixTimestamp.toInt then
    .ok 0
  else if v.durationSeconds = 0 then
    .ok v.endCollateralAmount.toNat
  else do
    let elapsed ← subI64 now v.startUnixTimestamp.toInt
    Exec.require (0 ≤ elapsed) .vestingElapsedSecondsOverflow
    let numerator := v.endCollateralAmount.toNat * elapsed.toNat
    Exec.require (numerator < 2 ^ 128) .vestingNumeratorCollateralAmountOverflow
    Exec.require (v.durationSeconds.toNat ≠ 0) .vestingDenominatorCollateralAmountOverflow
    let vested := numerator / v.durationSeconds.toNat
    if v.endCollateralAmount.toNat < vested then
      .ok v.endCollateralAmount.toNat
    else do
      Exec.require (vested < 2 ^ 64) .vestingVestedCollateralAmountOverflow
      .ok vested

end Vesting

namespace MerkleHash

def leafDomain : Bytes := [0x00]

def nodeDomain : Bytes := [0x01]

/-- The bytes that a leaf is hashed from. -/
def partsInput (parts : List Bytes) : Bytes := leafDomain ++ parts.flatten

/-- The bytes that the parent of two nodes is hashed from, the node with the smaller bytes first. -/
def pairInput (a b : MerkleHash) : Bytes :=
  if a.bytes ≤ b.bytes then nodeDomain ++ a.bytes ++ b.bytes else nodeDomain ++ b.bytes ++ a.bytes

def fromParts (H : Sha256) (parts : List Bytes) : MerkleHash := H (partsInput parts)

def fromPair (H : Sha256) (a b : MerkleHash) : MerkleHash := H (pairInput a b)

def isValidProof (H : Sha256) (root leaf : MerkleHash) (proof : List MerkleHash) : Bool :=
  proof.foldl (fromPair H) leaf == root

end MerkleHash

namespace Allocation

/-- The parts of an allocation that are hashed, integers least significant byte first (in Rust `to_merkle_hash`). -/
def parts (a : Allocation) : List Bytes :=
  [a.claimer.bytes, leBytes 8 a.nonce.toNat, leBytes 8 a.vesting.startUnixTimestamp.toNat,
    leBytes 4 a.vesting.durationSeconds.toNat, leBytes 8 a.vesting.endCollateralAmount.toNat]

def toMerkleHash (H : Sha256) (a : Allocation) : MerkleHash := MerkleHash.fromParts H a.parts

def key (a : Allocation) : Pubkey × BitVec 64 := (a.claimer, a.nonce)

end Allocation

structure Airdrop where
  authority : Pubkey
  collateralMint : Pubkey
  totalClaimedCollateralAmount : Nat
  claimFreeze : Bool
  merkleRoot : MerkleHash
  metadata : Bytes
deriving DecidableEq, Repr

/-- What a claimer has been paid under a nonce. -/
structure Claim where
  claimedCollateralAmount : Nat
deriving DecidableEq, Repr

/-- An airdrop, its claims and the balance of its vault (Rust `airdrop_collateral`). -/
structure Distribution where
  airdrop : Airdrop
  claims : Accounts (Pubkey × BitVec 64) Claim
  vault : Nat

/-- The token account a payment goes to (Rust `receiver_collateral`). Nothing keeps it from being the vault itself. -/
structure Receiver where
  mint : Pubkey
  delegate : Option Pubkey
  isVault : Bool
deriving DecidableEq, Repr

structure AirdropUpdateParams where
  claimFreeze : Option Bool
  merkleRoot : Option MerkleHash
  metadata : Option Bytes
deriving DecidableEq, Repr

structure ClaimRedeemParams where
  nonce : BitVec 64
  vesting : Vesting
  collateralAmount : Nat
  merkleProof : List MerkleHash
deriving DecidableEq, Repr

def ClaimRedeemParams.allocation (params : ClaimRedeemParams) (claimer : Pubkey) : Allocation :=
  ⟨claimer, params.nonce, params.vesting⟩

/-- The instructions about an airdrop, each with those that sign it, and transfers to the vault. -/
inductive DistributorInstruction where
  | airdropUpdate (authority : Pubkey) (params : AirdropUpdateParams)
  | airdropWithdraw (authority : Pubkey) (receiver : Receiver) (collateralMint : Pubkey) (collateralAmount : Nat)
  | claimCreate (claimer : Pubkey) (nonce : BitVec 64)
  | claimRedeem (claimer : Pubkey) (receiver : Receiver) (collateralMint : Pubkey) (params : ClaimRedeemParams)
  | transferIn (amount : Nat)

namespace Distribution

/-- Rust `airdrop_create_processor`. The vault is created with it. -/
def airdropCreate (authority collateralMint : Pubkey) (merkleRoot : MerkleHash) (metadata : Bytes) : Distribution where
  airdrop := ⟨authority, collateralMint, 0, false, merkleRoot, metadata⟩
  claims := ∅
  vault := 0

/-- The constraints on the account a payment goes to. -/
def checkReceiver (d : Distribution) (receiver : Receiver) : Exec DistributorError Panic Unit :=
  Exec.require (receiver.mint = d.airdrop.collateralMint ∧ receiver.delegate = none) .constraint

def transfer (d : Distribution) (receiver : Receiver) (amount : Nat) : Exec DistributorError Panic Distribution := do
  Exec.require (amount ≤ d.vault) .token
  .ok (if receiver.isVault then d else { d with vault := d.vault - amount })

def airdropUpdate (d : Distribution) (authority : Pubkey) (params : AirdropUpdateParams) :
    Exec DistributorError Panic Distribution := do
  Exec.require (d.airdrop.authority = authority) .constraint
  Exec.require (params.merkleRoot ≠ some 0) .paramsMerkleRootIsZeroed
  .ok { d with
    airdrop := { d.airdrop with
      claimFreeze := params.claimFreeze.getD d.airdrop.claimFreeze
      merkleRoot := params.merkleRoot.getD d.airdrop.merkleRoot
      metadata := params.metadata.getD d.airdrop.metadata } }

/-- Rust `airdrop_withdraw_processor`. The mint is not compared with that of the airdrop, but a transfer between two mints
fails. -/
def airdropWithdraw (d : Distribution) (authority : Pubkey) (receiver : Receiver) (collateralMint : Pubkey)
    (collateralAmount : Nat) : Exec DistributorError Panic Distribution := do
  d.checkReceiver receiver
  Exec.require (d.airdrop.authority = authority) .constraint
  Exec.require (collateralMint = receiver.mint) .token
  d.transfer receiver collateralAmount

def claimCreate (d : Distribution) (claimer : Pubkey) (nonce : BitVec 64) :
    Exec DistributorError Panic Distribution := do
  Exec.require (d.claims.lookup (claimer, nonce) = none) .constraint
  Exec.require (d.airdrop.claimFreeze = false) .airdropClaimFreezeIsTrue
  .ok { d with claims := d.claims.insert (claimer, nonce) ⟨0⟩ }

def claimRedeem (H : Sha256) (d : Distribution) (now : Int) (claimer : Pubkey) (receiver : Receiver)
    (collateralMint : Pubkey) (params : ClaimRedeemParams) : Exec DistributorError Panic Distribution := do
  d.checkReceiver receiver
  Exec.require (d.airdrop.collateralMint = collateralMint) .constraint
  let claim ← Exec.okOr (d.claims.lookup (claimer, params.nonce)) .constraint
  Exec.require (d.airdrop.claimFreeze = false) .airdropClaimFreezeIsTrue
  Exec.require (d.airdrop.merkleRoot.isValidProof H ((params.allocation claimer).toMerkleHash H) params.merkleProof)
    .paramsMerkleProofIsInvalid
  let vested ← params.vesting.computeVestedCollateralAmount now
  Exec.require (params.collateralAmount ≤ vested - claim.claimedCollateralAmount) .paramsCollateralAmountIsTooLarge
  let claimed ← addU 64 claim.claimedCollateralAmount params.collateralAmount
  let total ← addU 64 d.airdrop.totalClaimedCollateralAmount params.collateralAmount
  { d with
    airdrop := { d.airdrop with totalClaimedCollateralAmount := total }
    claims := d.claims.insert (claimer, params.nonce) ⟨claimed⟩ }.transfer receiver params.collateralAmount

def transferIn (d : Distribution) (amount : Nat) : Exec DistributorError Panic Distribution := do
  Exec.require (d.vault + amount < 2 ^ 64) .token
  .ok { d with vault := d.vault + amount }

def process (H : Sha256) (d : Distribution) (now : Int) : DistributorInstruction → Exec DistributorError Panic Distribution
  | .airdropUpdate authority params => d.airdropUpdate authority params
  | .airdropWithdraw authority receiver collateralMint amount => d.airdropWithdraw authority receiver collateralMint amount
  | .claimCreate claimer nonce => d.claimCreate claimer nonce
  | .claimRedeem claimer receiver collateralMint params => d.claimRedeem H now claimer receiver collateralMint params
  | .transferIn amount => d.transferIn amount

/-- An airdrop, driven by instructions and the clock they are executed at. -/
def machine (H : Sha256) :
    Machine Distribution (Int × DistributorInstruction) Unit (Fault DistributorError Panic) where
  init d := ∃ authority collateralMint merkleRoot metadata,
    d = airdropCreate authority collateralMint merkleRoot metadata
  step d i := do
    let d ← d.process H i.1 i.2
    .ok (d, ())

abbrev Record := List (Event Distribution (Int × DistributorInstruction) Unit)

end Distribution
end Leviathan
