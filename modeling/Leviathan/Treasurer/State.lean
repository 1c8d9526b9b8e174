import Leviathan.Instance.Records
import Leviathan.Lib.Accounts

/-!
# The state of the treasurer

Model of `solana-treasurer/src/state`: the run account, one account per participant, one audit verdict per audited key,
and the run's token account. A `Deployment` puts them next to the coordinator account the run belongs to; every
instruction of the treasurer reads or writes parts of it.

Instructions also return their effects: those of the coordinator program they call, the tokens they move, and what they
do to a dispute. None of this is stored.

Left out: bumps, indices and seeds, from which the addresses of the accounts are derived (a deployment has one run, and
its other accounts are addressed by the key of their participant or target); the addresses of the coordinator's
accounts; and rent. Tokens outside the run's account are not tracked.
-/

namespace Leviathan

def maxVerdictVoters : Nat := 64

def maxAppealVoters : Nat := 64

def minVerifierCommittee : Nat := 2

def maxSlashBountyBps : Nat := 10000

/-- Where a dispute stands. -/
inductive VerdictStatus where
  | voting
  | slashPending
  | challenged
  | upheld
  | overturned
deriving DecidableEq, Repr

/-- What a verifier says it found (in Rust `RunSubmitAuditVerdictParams` and `AuditVerdict`). -/
structure Evidence where
  targetIndex : Nat
  batchStart : Nat
  batchEnd : Nat
  committedHash : Bytes32
  replayedHash : Bytes32
deriving DecidableEq, Repr

/-- The dispute about a key. -/
structure AuditVerdict where
  target : Pubkey
  epoch : Nat
  roundHeight : Nat
  status : VerdictStatus
  verdictCount : Nat
  evidence : Evidence
  pendingSinceUnix : Int
  challengedSinceUnix : Int
  challenger : Pubkey
  overturnCount : Nat
  upholdCount : Nat
  settledCount : Nat
  voters : List Pubkey
  appealVoters : List Pubkey
deriving DecidableEq, Repr

namespace AuditVerdict

/-- Whether a new dispute may take the account over. -/
def isSettled (v : AuditVerdict) : Bool :=
  match v.status with
  | .voting | .upheld => true
  | .overturned => v.voters.length ≤ v.settledCount
  | .slashPending | .challenged => false

/-- An account cleared for the dispute of a round. -/
def forRound (target : Pubkey) (epoch roundHeight : Nat) : AuditVerdict where
  target := target
  epoch := epoch
  roundHeight := roundHeight
  status := .voting
  verdictCount := 0
  evidence := ⟨0, 0, 0, 0, 0⟩
  pendingSinceUnix := 0
  challengedSinceUnix := 0
  challenger := 0
  overturnCount := 0
  upholdCount := 0
  settledCount := 0
  voters := []
  appealVoters := []

/-- Clear the account for the dispute of a round. -/
def resetForRound (v : AuditVerdict) (epoch roundHeight : Nat) : AuditVerdict :=
  forRound v.target epoch roundHeight

end AuditVerdict

structure Participant where
  claimedCollateralAmount : Nat
  claimedEarnedPoints : Nat
  bondAmount : Nat
  bondWithdrawPendingAmount : Nat
  bondWithdrawRequestedAt : Int
  bondSettledSlashedPoints : Nat
  bondWithdrawDelaySnapshot : Int
deriving DecidableEq, Repr

/-- A participant that has just been created (in Rust `participant_create_processor`). -/
def Participant.new : Participant := ⟨0, 0, 0, 0, 0, 0, 0⟩

/-- A run, with the address of its account. -/
structure Run where
  address : Pubkey
  mainAuthority : Pubkey
  joinAuthority : Pubkey
  collateralMint : Pubkey
  totalClaimedCollateralAmount : Nat
  totalClaimedEarnedPoints : Nat
  totalBondedAmount : Nat
  bondMinimumAmount : Nat
  bondWithdrawDelaySeconds : Int
  slashBountyBps : Nat
  challengeWindowSeconds : Int
  tieBreakerCommitteeSize : Nat
  appealWindowSeconds : Int
deriving DecidableEq, Repr

/-- A run that has just been created (in Rust `run_create_processor`). -/
def Run.new (address mainAuthority joinAuthority collateralMint : Pubkey) : Run :=
  ⟨address, mainAuthority, joinAuthority, collateralMint, 0, 0, 0, 0, 0, 0, 0, 0, 0⟩

/-- An account passed along for a bounty: the run's token account, another token account, or something else. -/
inductive RemainingAccount where
  | runCollateral
  | tokenAccount (owner mint : Pubkey)
  | other
deriving DecidableEq, Repr

/-- Owner and mint of a passed account, if it is a token account at all. -/
def RemainingAccount.read (run : Run) : RemainingAccount → Option (Pubkey × Pubkey)
  | .runCollateral => some (run.address, run.collateralMint)
  | .tokenAccount owner mint => some (owner, mint)
  | .other => none

/-- Errors of the treasurer (Rust `solana_treasurer::ProgramError`), and of what it builds on. -/
inductive TreasurerError where
  | invalidParameter
  | insufficientBond
  | withdrawDelayNotElapsed
  | missingReporter
  | bondBelowMinimum
  | bondWindowRequired
  | verifierNotInEpoch
  | verifierNotAssigned
  | targetMismatch
  | duplicateVerdict
  | verdictAlreadyResolved
  | verdictVotersFull
  | bountyRecipientMismatch
  | verdictNotPending
  | challengeWindowClosed
  | challengeWindowOpen
  | verdictNotChallenged
  | notTieBreaker
  | duplicateAppealVerdict
  | appealVotersFull
  | verdictNotOverturned
  | allLosersSettled
  | verifierCommitteeTooSmall
  | quorumExceedsVoterCapacity
  | previousVerdictUnsettled
  | evidenceMismatch
  | appellateVotedOnVerdict
  | appealWindowOpen
  | invalidBountyRecipient
  | loserNotSlashableYet
  | constraint                      -- an account constraint, or an account that is missing or in use
  | token                           -- a token transfer
  | coordinator (e : InstanceError) -- a call of the coordinator program
deriving DecidableEq, Repr

/-- The draw an appeal is judged under: the seed, the clients in their order, the number of tie-breakers, and the number of
clients the round was started with. -/
structure Bench where
  seed : Nat
  roster : List Pubkey
  tieBreakerNodes : Nat
  totalNodes : Nat
deriving DecidableEq, Repr

/-- The draw a vote was accepted under, with the number of verifiers too. -/
structure Draw extends Bench where
  verifierNodes : Nat
deriving DecidableEq, Repr

/-- What an instruction did besides changing the state. -/
inductive TreasurerEffect where
  | coordinator (e : InstanceEffect)
  | deposited (user : Pubkey) (amount : Nat)
  | withdrawn (user : Pubkey) (amount : Nat)
  | bounty (user : Pubkey) (recipient : RemainingAccount) (amount : Nat)
  | claimed (user : Pubkey) (amount : Nat)
  | opened (target : Pubkey)
  | voted (target voter : Pubkey) (draw : Draw)
  | convicted (target : Pubkey)
  | loserSlashed (target voter : Pubkey)
deriving DecidableEq, Repr

def TreasurerEffect.isDispute : TreasurerEffect → Bool
  | .opened _ | .voted .. | .convicted _ | .loserSlashed .. => true
  | .coordinator _ | .deposited .. | .withdrawn .. | .bounty .. | .claimed .. => false

/-- A run as it is deployed: the accounts of the treasurer, the balance of the run's token account, and the
coordinator account. -/
structure Deployment where
  run : Run
  participants : Accounts Pubkey Participant
  verdicts : Accounts Pubkey AuditVerdict
  runCollateral : Nat
  account : InstanceState

namespace Deployment

def participant (d : Deployment) (user : Pubkey) : Exec TreasurerError Panic Participant :=
  Exec.okOr (d.participants.lookup user) .constraint

/-- The verdict about a key; it has to exist. -/
def verdict (d : Deployment) (target : Pubkey) : Exec TreasurerError Panic AuditVerdict :=
  Exec.okOr (d.verdicts.lookup target) .constraint

def setParticipant (d : Deployment) (user : Pubkey) (p : Participant) : Deployment :=
  { d with participants := d.participants.insert user p }

def setVerdict (d : Deployment) (target : Pubkey) (v : AuditVerdict) : Deployment :=
  { d with verdicts := d.verdicts.insert target v }

/-- A deployment after a call of the coordinator program. -/
def setAccount (d : Deployment) (account : InstanceState) : Deployment := { d with account }

def bondOf (d : Deployment) (user : Pubkey) : Nat :=
  ((d.participants.lookup user).map Participant.bondAmount).getD 0

end Deployment
end Leviathan
