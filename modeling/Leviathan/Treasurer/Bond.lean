import Leviathan.Treasurer.State

/-!
# Bonds and rewards

Model of the instructions of the treasurer that move collateral (`solana-treasurer/src/logic`,
`participant_*.rs`), and of those by which the run's authority sets the terms (`run_bond_config_update.rs`,
`run_set_slash_bounty.rs`, `run_set_challenge_config.rs`).

A token transfer moves exactly its amount or fails. Bonds, rewards and forfeited collateral are kept in one
token account, `runCollateral`; only the counters tell them apart.
-/

namespace Leviathan

/-- Those an account names for a bounty (in Rust `participant_bond_finalize_withdraw_processor`). -/
def AuditVerdict.sharers (v : AuditVerdict) : List Pubkey :=
  if v.status = .upheld ∧ v.appealVoters ≠ [] then v.appealVoters else v.voters

namespace Deployment

/-- What every instruction asks of the token account a user brings along. -/
def checkCollateral (d : Deployment) (user : Pubkey) (userCollateral : TokenAccount) :
    Exec TreasurerError Panic Unit :=
  Exec.require (userCollateral.mint = d.run.collateralMint ∧ userCollateral.owner = user
    ∧ userCollateral.delegate = none) .constraint

/-- Transfer tokens of a user to the run. -/
def transferIn (d : Deployment) (userCollateral : TokenAccount) (amount : Nat) :
    Exec TreasurerError Panic Deployment := do
  Exec.require (amount ≤ userCollateral.amount ∧ d.runCollateral + amount < 2 ^ 64) .token
  .ok { d with runCollateral := d.runCollateral + amount }

/-- The run's balance after a transfer from it. A transfer to itself changes nothing. -/
def balanceAfter (balance : Nat) (recipient : RemainingAccount) (amount : Nat) : Nat :=
  if recipient = .runCollateral then balance else balance - amount

def transferOut (d : Deployment) (recipient : RemainingAccount) (amount : Nat) :
    Exec TreasurerError Panic Deployment := do
  Exec.require (amount ≤ d.runCollateral) .token
  .ok { d with runCollateral := balanceAfter d.runCollateral recipient amount }

def transferToUser (d : Deployment) (userCollateral : TokenAccount) (amount : Nat) :
    Exec TreasurerError Panic Deployment :=
  d.transferOut (.tokenAccount userCollateral.owner userCollateral.mint) amount

def participantCreate (d : Deployment) (user : Pubkey) :
    Exec TreasurerError Panic (Deployment × List TreasurerEffect) := do
  Exec.require (d.participants.lookup user = none) .constraint
  .ok (d.setParticipant user .new, [])

def participantBondDeposit (d : Deployment) (user : Pubkey) (userCollateral : TokenAccount)
    (collateralAmount : Nat) : Exec TreasurerError Panic (Deployment × List TreasurerEffect) := do
  d.checkCollateral user userCollateral
  let participant ← d.participant user
  Exec.require (collateralAmount ≠ 0) .invalidParameter
  let d ← d.transferIn userCollateral collateralAmount
  let bondAmount ← addU 64 participant.bondAmount collateralAmount
  let totalBondedAmount ← addU 64 d.run.totalBondedAmount collateralAmount
  .ok ({ d with run := { d.run with totalBondedAmount } }.setParticipant user { participant with bondAmount },
    [.deposited user collateralAmount])

def participantBondRequestWithdraw (d : Deployment) (clock : Clock) (user : Pubkey) (collateralAmount : Nat) :
    Exec TreasurerError Panic (Deployment × List TreasurerEffect) := do
  let participant ← d.participant user
  let available ← subU participant.bondAmount participant.bondWithdrawPendingAmount
  Exec.require (collateralAmount ≠ 0 ∧ collateralAmount ≤ available) .insufficientBond
  let pending ← addU 64 participant.bondWithdrawPendingAmount collateralAmount
  .ok (d.setParticipant user { participant with
      bondWithdrawPendingAmount := pending
      bondWithdrawRequestedAt := clock.unixTimestamp
      bondWithdrawDelaySnapshot := d.run.bondWithdrawDelaySeconds },
    [])

section Finalize

/-- Those who share the bounty on a forfeited bond (in Rust `participant_bond_finalize_withdraw_processor`). -/
def bountyVoters (d : Deployment) (user : Pubkey) (appeal : Option AuditVerdict) :
    Exec TreasurerError Panic (List Pubkey) :=
  match d.verdicts.lookup user with
  | some verdict => .ok verdict.sharers
  | none =>
    match appeal with
    | some appeal => do
      Exec.require (appeal.status = .overturned) .verdictNotOverturned
      Exec.require (user ∈ appeal.voters) .invalidParameter
      .ok appeal.appealVoters
    | none => .ok []

/-- Pay the bounty to the reporter, where no verdict names anyone. -/
def payReporter (d : Deployment) (user : Pubkey) (bounty : Nat) (remaining : List RemainingAccount) :
    Exec TreasurerError Panic (Deployment × List TreasurerEffect) := do
  let reporter ← Exec.okOr remaining.head? .missingReporter
  let (owner, mint) ← Exec.okOr (reporter.read d.run) .invalidBountyRecipient
  Exec.require (mint = d.run.collateralMint ∧ owner ≠ user) .invalidBountyRecipient
  let d ← d.transferOut reporter bounty
  .ok (d, [.bounty user reporter bounty])

/-- Pay a share of the bounty to each voter, in order. -/
def payVoters (d : Deployment) (user : Pubkey) (share : Nat) :
    List Pubkey → List RemainingAccount → Exec TreasurerError Panic (Deployment × List TreasurerEffect)
  | [], _ => .ok (d, [])
  | _ :: _, [] => Exec.abort .indexOutOfBounds
  | voter :: voters, recipient :: remaining => do
    let (owner, mint) ← Exec.okOr (recipient.read d.run) .bountyRecipientMismatch
    Exec.require (owner = voter ∧ mint = d.run.collateralMint) .bountyRecipientMismatch
    let d ← d.transferOut recipient share
    let (d, fx) ← d.payVoters user share voters remaining
    .ok (d, .bounty user recipient share :: fx)

def payBounty (d : Deployment) (user : Pubkey) (bounty : Nat) (appeal : Option AuditVerdict)
    (remaining : List RemainingAccount) : Exec TreasurerError Panic (Deployment × List TreasurerEffect) :=
  if bounty = 0 then
    .ok (d, [])
  else do
    let voters ← d.bountyVoters user appeal
    if voters = [] then
      d.payReporter user bounty remaining
    else do
      Exec.require (voters.length ≤ remaining.length) .missingReporter
      let share := bounty / voters.length
      if share = 0 then .ok (d, []) else d.payVoters user share voters remaining

/-- Pay a user what is left of the bond it asked for. -/
def payOut (d : Deployment) (user : Pubkey) (userCollateral : TokenAccount) (payout : Nat) :
    Exec TreasurerError Panic (Deployment × List TreasurerEffect) :=
  if payout = 0 then
    .ok (d, [])
  else do
    let d ← d.transferToUser userCollateral payout
    .ok (d, [.withdrawn user payout])

/-- The verdict passed for a losing verifier, if any; it has to exist. Verdicts of other runs, which are refused, are left
out. -/
def appealVerdict (d : Deployment) : Option Pubkey → Exec TreasurerError Panic (Option AuditVerdict)
  | none => .ok none
  | some target => do
    let v ← d.verdict target
    .ok (some v)

def participantBondFinalizeWithdraw (d : Deployment) (clock : Clock) (user : Pubkey)
    (userCollateral : TokenAccount) (appeal : Option Pubkey) (remaining : List RemainingAccount) :
    Exec TreasurerError Panic (Deployment × List TreasurerEffect) := do
  d.checkCollateral user userCollateral
  let participant ← d.participant user
  let appeal ← d.appealVerdict appeal
  Exec.require (participant.bondWithdrawPendingAmount ≠ 0) .invalidParameter
  let unlock ← addI64 participant.bondWithdrawRequestedAt participant.bondWithdrawDelaySnapshot
  Exec.require (unlock ≤ clock.unixTimestamp) .withdrawDelayNotElapsed
  let unsettled := d.account.slashedOf user - participant.bondSettledSlashedPoints
  let forfeited := min unsettled participant.bondAmount
  let settled ← addU 64 participant.bondSettledSlashedPoints forfeited
  let bond ← subU participant.bondAmount forfeited
  let payout := min participant.bondWithdrawPendingAmount bond
  let bond ← subU bond payout
  let leaving ← addU 64 forfeited payout
  let totalBondedAmount ← subU d.run.totalBondedAmount leaving
  let bounty := if 0 < d.run.slashBountyBps then forfeited * d.run.slashBountyBps / 10000 % 2 ^ 64 else 0
  let d := { d with run := { d.run with totalBondedAmount } }.setParticipant user
    { participant with
      bondSettledSlashedPoints := settled
      bondAmount := bond
      bondWithdrawPendingAmount := 0
      bondWithdrawRequestedAt := 0 }
  let (d, shares) ← d.payBounty user bounty appeal remaining
  let (d, paid) ← d.payOut user userCollateral payout
  .ok (d, shares ++ paid)

end Finalize

/-- Rust `participant_claim_processor`; a point is worth one unit of collateral. -/
def participantClaim (d : Deployment) (user : Pubkey) (userCollateral : TokenAccount)
    (claimEarnedPoints : Nat) : Exec TreasurerError Panic (Deployment × List TreasurerEffect) := do
  d.checkCollateral user userCollateral
  let participant ← d.participant user
  Exec.require (d.run.bondMinimumAmount ≤ participant.bondAmount) .bondBelowMinimum
  let unclaimed ← subU (d.account.earnedOf user) participant.claimedEarnedPoints
  Exec.require (claimEarnedPoints ≤ unclaimed) .invalidParameter
  let claimedCollateralAmount ← addU 64 participant.claimedCollateralAmount claimEarnedPoints
  let claimedEarnedPoints ← addU 64 participant.claimedEarnedPoints claimEarnedPoints
  let totalClaimedCollateralAmount ← addU 64 d.run.totalClaimedCollateralAmount claimEarnedPoints
  let totalClaimedEarnedPoints ← addU 64 d.run.totalClaimedEarnedPoints claimEarnedPoints
  let d := { d with run := { d.run with totalClaimedCollateralAmount, totalClaimedEarnedPoints } }.setParticipant
    user { participant with claimedCollateralAmount, claimedEarnedPoints }
  let d ← d.transferToUser userCollateral claimEarnedPoints
  .ok (d, [.claimed user claimEarnedPoints])

section Authority

/-- What every instruction of the run's authority asks. -/
def checkAuthority (d : Deployment) (authority : Pubkey) : Exec TreasurerError Panic Unit :=
  Exec.require (d.run.mainAuthority = authority) .constraint

def runBondConfigUpdate (d : Deployment) (authority : Pubkey) (bondMinimumAmount : Nat)
    (bondWithdrawDelaySeconds : Int) : Exec TreasurerError Panic (Deployment × List TreasurerEffect) := do
  d.checkAuthority authority
  Exec.require (0 ≤ bondWithdrawDelaySeconds) .invalidParameter
  Exec.require (¬ (0 < bondMinimumAmount ∧ bondWithdrawDelaySeconds = 0)) .bondWindowRequired
  .ok ({ d with run := { d.run with bondMinimumAmount, bondWithdrawDelaySeconds } }, [])

def runSetSlashBounty (d : Deployment) (authority : Pubkey) (slashBountyBps : Nat) :
    Exec TreasurerError Panic (Deployment × List TreasurerEffect) := do
  d.checkAuthority authority
  Exec.require (slashBountyBps ≤ maxSlashBountyBps) .invalidParameter
  .ok ({ d with run := { d.run with slashBountyBps } }, [])

def runSetChallengeConfig (d : Deployment) (authority : Pubkey) (challengeWindowSeconds : Int)
    (tieBreakerCommitteeSize : Nat) (appealWindowSeconds : Int) :
    Exec TreasurerError Panic (Deployment × List TreasurerEffect) := do
  d.checkAuthority authority
  Exec.require (0 ≤ challengeWindowSeconds ∧ 0 ≤ appealWindowSeconds) .invalidParameter
  .ok ({ d with run := { d.run with
      challengeWindowSeconds
      tieBreakerCommitteeSize
      appealWindowSeconds } }, [])

end Authority
end Deployment
end Leviathan
