import Leviathan.Core.Identity
import Leviathan.Lib.Accounts
import Leviathan.Lib.Run

/-!
# The mining pool

The mining pool program (`solana-mining-pool/src/{state,logic}`). Lenders deposit collateral into a pool, its authority
extracts the collateral and later names the token that lenders are repaid in; from then on lenders claim their shares of
what is sent to the pool in that token.

`MiningPool` is one pool with its lenders, which are found by user, and the balances of its token accounts, one for each
mint. Lenders may be repaid in any mint, so the two accounts that the program uses may be the same. `machine` is the
program with the transfers that others make to the pool. Left out: bumps, payers, sizes of accounts, and the number a
pool is found by.
-/

namespace Leviathan

/-- Why an instruction is refused (Rust `ProgramError`); `token` is a transfer that fails and `constraint` an account that
does not exist, exists already or is not the one asked for. -/
inductive MiningPoolError where
  | paramsCollateralAmountIsTooLarge
  | paramsRedeemableAmountIsTooLarge
  | paramsMetadataLengthIsTooLarge
  | poolClaimingEnabledIsTrue
  | poolClaimingEnabledIsFalse
  | poolFreezeIsTrue
  | poolTotalDepositedCollateralAmountIsZero
  | token
  | constraint
deriving DecidableEq, Repr

structure PoolMetadata where
  length : Nat
  bytes : Bytes
deriving DecidableEq, Repr

/-- Rust `PoolMetadata::BYTES`. -/
def PoolMetadata.maxBytes : Nat := 400

structure Pool where
  authority : Pubkey
  collateralMint : Pubkey
  maxDepositCollateralAmount : Nat
  totalDepositedCollateralAmount : Nat
  totalExtractedCollateralAmount : Nat
  claimingEnabled : Bool
  redeemableMint : Pubkey
  totalClaimedRedeemableAmount : Nat
  freeze : Bool
  metadata : PoolMetadata
deriving DecidableEq, Repr

structure Lender where
  depositedCollateralAmount : Nat
  claimedRedeemableAmount : Nat
deriving DecidableEq, Repr

structure PoolUpdateParams where
  maxDepositCollateralAmount : Option Nat
  freeze : Option Bool
  metadata : Option PoolMetadata
deriving DecidableEq, Repr

/-- A pool, its lenders, and what it has of each token. -/
structure MiningPool where
  pool : Pool
  lenders : Accounts Pubkey Lender
  balance : Pubkey → Nat

/-- The instructions about a pool, each with those that sign it, and transfers to the pool. -/
inductive MiningPoolInstruction where
  | poolExtract (authority : Pubkey) (authorityCollateral : TokenAccount) (collateralAmount : Nat)
  | poolUpdate (authority : Pubkey) (params : PoolUpdateParams)
  | poolClaimable (authority redeemableMint : Pubkey)
  | lenderCreate (user : Pubkey)
  | lenderDeposit (user : Pubkey) (userCollateral : TokenAccount) (collateralAmount : Nat)
  | lenderClaim (user : Pubkey) (userRedeemable : TokenAccount) (redeemableMint : Pubkey) (redeemableAmount : Nat)
  | transferIn (mint : Pubkey) (amount : Nat)

namespace MiningPool

def poolCreate (authority collateralMint : Pubkey) (metadata : PoolMetadata) : Exec MiningPoolError Panic MiningPool := do
  Exec.require (metadata.length ≤ PoolMetadata.maxBytes) .paramsMetadataLengthIsTooLarge
  .ok {
    pool := ⟨authority, collateralMint, 0, 0, 0, false, 0, 0, false, metadata⟩
    lenders := ∅
    balance := fun _ => 0 }

/-- The constraints on the token account of a user. -/
def checkAccount (account : TokenAccount) (mint owner : Pubkey) : Exec MiningPoolError Panic Unit :=
  Exec.require (account.mint = mint ∧ account.owner = owner ∧ account.delegate = none) .constraint

def transferIn (m : MiningPool) (mint : Pubkey) (amount : Nat) : Exec MiningPoolError Panic MiningPool := do
  Exec.require (m.balance mint + amount < 2 ^ 64) .token
  .ok { m with balance := Function.update m.balance mint (m.balance mint + amount) }

def transferOut (m : MiningPool) (account : TokenAccount) (mint : Pubkey) (amount : Nat) :
    Exec MiningPoolError Panic MiningPool := do
  Exec.require (amount ≤ m.balance mint ∧ account.amount + amount < 2 ^ 64) .token
  .ok { m with balance := Function.update m.balance mint (m.balance mint - amount) }

def poolExtract (m : MiningPool) (authority : Pubkey) (authorityCollateral : TokenAccount) (collateralAmount : Nat) :
    Exec MiningPoolError Panic MiningPool := do
  checkAccount authorityCollateral m.pool.collateralMint authority
  Exec.require (m.pool.authority = authority) .constraint
  Exec.require (m.pool.freeze = false) .poolFreezeIsTrue
  let extracted ← addU 64 m.pool.totalExtractedCollateralAmount collateralAmount
  { m with
    pool := { m.pool with totalExtractedCollateralAmount := extracted } }.transferOut authorityCollateral
      m.pool.collateralMint collateralAmount

def poolUpdate (m : MiningPool) (authority : Pubkey) (params : PoolUpdateParams) :
    Exec MiningPoolError Panic MiningPool := do
  Exec.require (m.pool.authority = authority) .constraint
  Exec.require (∀ metadata ∈ params.metadata, metadata.length ≤ PoolMetadata.maxBytes) .paramsMetadataLengthIsTooLarge
  .ok { m with
    pool := { m.pool with
      maxDepositCollateralAmount := params.maxDepositCollateralAmount.getD m.pool.maxDepositCollateralAmount
      freeze := params.freeze.getD m.pool.freeze
      metadata := params.metadata.getD m.pool.metadata } }

def poolClaimable (m : MiningPool) (authority redeemableMint : Pubkey) : Exec MiningPoolError Panic MiningPool := do
  Exec.require (m.pool.authority = authority) .constraint
  Exec.require (m.pool.freeze = false) .poolFreezeIsTrue
  Exec.require (m.pool.claimingEnabled = false) .poolClaimingEnabledIsTrue
  .ok { m with
    pool := { m.pool with claimingEnabled := true, redeemableMint, totalClaimedRedeemableAmount := 0 } }

def lenderCreate (m : MiningPool) (user : Pubkey) : Exec MiningPoolError Panic MiningPool := do
  Exec.require (m.lenders.lookup user = none) .constraint
  .ok { m with lenders := m.lenders.insert user ⟨0, 0⟩ }

/-- Rust `lender_deposit_processor`. Whether claiming is enabled is not looked at. -/
def lenderDeposit (m : MiningPool) (user : Pubkey) (userCollateral : TokenAccount) (collateralAmount : Nat) :
    Exec MiningPoolError Panic MiningPool := do
  checkAccount userCollateral m.pool.collateralMint user
  let lender ← Exec.okOr (m.lenders.lookup user) .constraint
  Exec.require (m.pool.freeze = false) .poolFreezeIsTrue
  let total ← addU 64 m.pool.totalDepositedCollateralAmount collateralAmount
  Exec.require (total ≤ m.pool.maxDepositCollateralAmount) .paramsCollateralAmountIsTooLarge
  Exec.require (collateralAmount ≤ userCollateral.amount) .token
  let m ← m.transferIn m.pool.collateralMint collateralAmount
  let deposited ← addU 64 lender.depositedCollateralAmount collateralAmount
  .ok { m with
    pool := { m.pool with totalDepositedCollateralAmount := total }
    lenders := m.lenders.insert user { lender with depositedCollateralAmount := deposited } }

/-- What a lender may have claimed in total (in Rust `lender_claim_processor`): its share of everything that has been
repaid, what has been claimed and what is there. The product has 128 bits. -/
def claimable (m : MiningPool) (lender : Lender) : Exec MiningPoolError Panic Nat := do
  Exec.require (m.pool.totalDepositedCollateralAmount ≠ 0) .poolTotalDepositedCollateralAmountIsZero
  let product ← mulU 128 (m.pool.totalClaimedRedeemableAmount + m.balance m.pool.redeemableMint)
    lender.depositedCollateralAmount
  let share := product / m.pool.totalDepositedCollateralAmount
  Exec.require (share < 2 ^ 64) .paramsRedeemableAmountIsTooLarge
  .ok share

def lenderClaim (m : MiningPool) (user : Pubkey) (userRedeemable : TokenAccount) (redeemableMint : Pubkey)
    (redeemableAmount : Nat) : Exec MiningPoolError Panic MiningPool := do
  checkAccount userRedeemable m.pool.redeemableMint user
  Exec.require (m.pool.redeemableMint = redeemableMint) .constraint
  let lender ← Exec.okOr (m.lenders.lookup user) .constraint
  Exec.require (m.pool.freeze = false) .poolFreezeIsTrue
  Exec.require (m.pool.claimingEnabled = true) .poolClaimingEnabledIsFalse
  let claimable ← m.claimable lender
  let claimed ← addU 64 lender.claimedRedeemableAmount redeemableAmount
  Exec.require (claimed ≤ claimable) .paramsRedeemableAmountIsTooLarge
  let total ← addU 64 m.pool.totalClaimedRedeemableAmount redeemableAmount
  { m with
    pool := { m.pool with totalClaimedRedeemableAmount := total }
    lenders := m.lenders.insert user { lender with claimedRedeemableAmount := claimed } }.transferOut userRedeemable
      m.pool.redeemableMint redeemableAmount

def process (m : MiningPool) : MiningPoolInstruction → Exec MiningPoolError Panic MiningPool
  | .poolExtract authority authorityCollateral amount => m.poolExtract authority authorityCollateral amount
  | .poolUpdate authority params => m.poolUpdate authority params
  | .poolClaimable authority redeemableMint => m.poolClaimable authority redeemableMint
  | .lenderCreate user => m.lenderCreate user
  | .lenderDeposit user userCollateral amount => m.lenderDeposit user userCollateral amount
  | .lenderClaim user userRedeemable redeemableMint amount => m.lenderClaim user userRedeemable redeemableMint amount
  | .transferIn mint amount => m.transferIn mint amount

/-- A pool, driven by instructions. -/
def machine : Machine MiningPool MiningPoolInstruction Unit (Fault MiningPoolError Panic) where
  init m := ∃ authority collateralMint metadata, poolCreate authority collateralMint metadata = .ok m
  step m ix := do
    let m ← m.process ix
    .ok (m, ())

abbrev Record := List (Event MiningPool MiningPoolInstruction Unit)

end MiningPool
end Leviathan
