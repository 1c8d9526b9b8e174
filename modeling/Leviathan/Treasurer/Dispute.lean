import Leviathan.Treasurer.Bond

/-!
# Disputes

Model of the instructions by which verifiers convict a client and by which a conviction is contested
(`solana-treasurer/src/logic`: `run_submit_audit_verdict.rs`, `run_open_challenge.rs`,
`run_submit_appeal_verdict.rs`, `run_finalize_slash.rs`, `run_slash_losing_verifier.rs`), of the authority's
own slash (`run_slash.rs`) and of `run_update.rs`, which passes changes on to the coordinator program.

A call of the coordinator program that fails makes the whole instruction fail, so that nothing of it is kept.
-/

namespace Leviathan.Deployment

/-- Call `slash_client` of the coordinator program. -/
def slashClient (d : Deployment) (index : Nat) :
    Exec TreasurerError Panic (Deployment × List TreasurerEffect) := do
  let (account, fx) ← Exec.mapErr .coordinator (d.account.slash index)
  .ok (d.setAccount account, fx.map .coordinator)

/-- The seat that a client of the epoch has in the current round, and its selection (in Rust
`run_submit_audit_verdict_processor` and `run_submit_appeal_verdict_processor`, which differ in the error for a round
without one). -/
def seatOf (P : Platform) (d : Deployment) (key : Pubkey) (notAssigned : TreasurerError) :
    Exec TreasurerError Panic (Committee × CommitteeSelection) := do
  let c := d.account.coordinator
  let index ← Exec.okOr (c.epochState.clients.toList.findIdx? fun x => x.signer == key) .verifierNotInEpoch
  let selection ← Exec.mapErr (fun _ => notAssigned)
    (CommitteeSelection.fromCoordinatorWithTieBreakers P c 0 d.run.tieBreakerCommitteeSize)
  let proof ← selection.getCommittee P index
  .ok (proof.committee, selection)

def checkTarget (d : Deployment) (target : Pubkey) (targetIndex : Nat) : Exec TreasurerError Panic Unit :=
  Exec.require ((d.account.coordinator.epochState.clients.get? targetIndex).map Client.signer = some target)
    .targetMismatch

/-- Two thirds of a number, rounded up. -/
def twoThirds (n : Nat) : Exec TreasurerError Panic Nat := do
  let double ← mulU 64 2 n
  .ok ((double + 2) / 3)

/-- The verdict a vote of a round counts for; an account that is new, or left by another round, is cleared
(in Rust `run_submit_audit_verdict_processor`). -/
def openVerdict (d : Deployment) (target : Pubkey) (epoch roundHeight : Nat) :
    Exec TreasurerError Panic (AuditVerdict × List TreasurerEffect) :=
  match d.verdicts.lookup target with
  | none => .ok (.forRound target epoch roundHeight, [.opened target])
  | some v =>
    if v.epoch ≠ epoch ∨ v.roundHeight ≠ roundHeight then do
      Exec.require (v.isSettled = true) .previousVerdictUnsettled
      .ok (v.resetForRound epoch roundHeight, [.opened target])
    else
      .ok (v, [])

/-- Record a vote (in Rust `run_submit_audit_verdict_processor`). The first one writes the evidence, later
ones have to agree with it. -/
def castVote (v : AuditVerdict) (verifier : Pubkey) (evidence : Evidence) :
    Exec TreasurerError Panic AuditVerdict := do
  Exec.require (v.status = .voting) .verdictAlreadyResolved
  Exec.require (verifier ∉ v.voters) .duplicateVerdict
  Exec.require (v.voters.length < maxVerdictVoters) .verdictVotersFull
  Exec.require (v.voters = [] ∨ v.evidence = evidence) .evidenceMismatch
  let verdictCount ← addU 16 v.verdictCount 1
  .ok { v with evidence, voters := v.voters ++ [verifier], verdictCount }

def draw (d : Deployment) (selection : CommitteeSelection) : Draw where
  seed := d.account.coordinator.currentRound.randomSeed
  roster := d.account.coordinator.epochState.clients.toList.map Client.signer
  tieBreakerNodes := selection.tieBreakerNodes
  totalNodes := selection.totalNodes
  verifierNodes := selection.verifierNodes

def runSubmitAuditVerdict (P : Platform) (d : Deployment) (clock : Clock) (verifier target : Pubkey)
    (evidence : Evidence) : Exec TreasurerError Panic (Deployment × List TreasurerEffect) := do
  let participant ← d.participant verifier
  Exec.require (d.run.bondMinimumAmount ≤ participant.bondAmount) .bondBelowMinimum
  let c := d.account.coordinator
  let (committee, selection) ← d.seatOf P verifier .verifierNotAssigned
  Exec.require (committee = .verifier) .verifierNotAssigned
  d.checkTarget target evidence.targetIndex
  Exec.require (minVerifierCommittee ≤ selection.verifierNodes) .verifierCommitteeTooSmall
  let twoThirds ← twoThirds selection.verifierNodes
  let quorum := max twoThirds 2
  Exec.require (quorum ≤ maxVerdictVoters) .quorumExceedsVoterCapacity
  let (v, opened) ← d.openVerdict target c.progress.epoch c.currentRound.height
  let v ← castVote v verifier evidence
  let fx := opened ++ [.voted target verifier (d.draw selection)]
  if quorum ≤ v.verdictCount then
    if 0 < d.run.challengeWindowSeconds then
      .ok (d.setVerdict target { v with status := .slashPending, pendingSinceUnix := clock.unixTimestamp }, fx)
    else do
      let (d, slashed) ← (d.setVerdict target { v with status := .upheld }).slashClient evidence.targetIndex
      .ok (d, fx ++ [.convicted target] ++ slashed)
  else
    .ok (d.setVerdict target v, fx)

/-- Rust `run_open_challenge_processor`: the target contests its own conviction. -/
def runOpenChallenge (d : Deployment) (clock : Clock) (challenger : Pubkey) :
    Exec TreasurerError Panic (Deployment × List TreasurerEffect) := do
  let participant ← d.participant challenger
  let v ← d.verdict challenger
  Exec.require (d.run.bondMinimumAmount ≤ participant.bondAmount) .bondBelowMinimum
  Exec.require (v.status = .slashPending) .verdictNotPending
  let closes ← addI64 v.pendingSinceUnix d.run.challengeWindowSeconds
  Exec.require (clock.unixTimestamp < closes) .challengeWindowClosed
  .ok (d.setVerdict challenger { v with
      status := .challenged
      challengedSinceUnix := clock.unixTimestamp
      challenger
      overturnCount := 0
      upholdCount := 0
      appealVoters := [] },
    [])

/-- Record a vote on an appeal (in Rust `run_submit_appeal_verdict_processor`). -/
def castAppeal (v : AuditVerdict) (appellate : Pubkey) (overturn : Bool) :
    Exec TreasurerError Panic AuditVerdict := do
  Exec.require (v.status = .challenged) .verdictNotChallenged
  Exec.require (appellate ∉ v.appealVoters) .duplicateAppealVerdict
  Exec.require (appellate ∉ v.voters) .appellateVotedOnVerdict
  Exec.require (v.appealVoters.length < maxAppealVoters) .appealVotersFull
  let v := { v with appealVoters := v.appealVoters ++ [appellate] }
  if overturn then do
    let overturnCount ← addU 16 v.overturnCount 1
    .ok { v with overturnCount }
  else do
    let upholdCount ← addU 16 v.upholdCount 1
    .ok { v with upholdCount }

def runSubmitAppealVerdict (P : Platform) (d : Deployment) (appellate target : Pubkey) (targetIndex : Nat)
    (overturn : Bool) : Exec TreasurerError Panic (Deployment × List TreasurerEffect) := do
  let participant ← d.participant appellate
  let v ← d.verdict target
  Exec.require (d.run.bondMinimumAmount ≤ participant.bondAmount) .bondBelowMinimum
  let (committee, selection) ← d.seatOf P appellate .notTieBreaker
  Exec.require (committee = .tieBreaker) .notTieBreaker
  d.checkTarget target targetIndex
  let twoThirds ← twoThirds selection.tieBreakerNodes
  let quorum := max twoThirds 1
  Exec.require (v.target = target) .targetMismatch
  let v ← castAppeal v appellate overturn
  if quorum ≤ v.overturnCount then
    .ok (d.setVerdict target { v with status := .overturned }, [])
  else if quorum ≤ v.upholdCount then do
    let (d, slashed) ← (d.setVerdict target { v with status := .upheld }).slashClient targetIndex
    .ok (d, .convicted target :: slashed)
  else
    .ok (d.setVerdict target v, [])

/-- Whether a conviction may be finalized (in Rust `run_finalize_slash_processor`). -/
def checkFinalizable (d : Deployment) (clock : Clock) (v : AuditVerdict) :
    Exec TreasurerError Panic Unit :=
  match v.status with
  | .slashPending => do
    let closes ← addI64 v.pendingSinceUnix d.run.challengeWindowSeconds
    Exec.require (closes ≤ clock.unixTimestamp) .challengeWindowOpen
  | .challenged => do
    Exec.require (d.run.appealWindowSeconds ≠ 0) .appealWindowOpen
    let closes ← addI64 v.challengedSinceUnix d.run.appealWindowSeconds
    Exec.require (closes ≤ clock.unixTimestamp) .appealWindowOpen
  | _ => Exec.fail .verdictNotPending

def runFinalizeSlash (d : Deployment) (clock : Clock) (target : Pubkey) (targetIndex : Nat) :
    Exec TreasurerError Panic (Deployment × List TreasurerEffect) := do
  let v ← d.verdict target
  d.checkFinalizable clock v
  d.checkTarget v.target targetIndex
  let (d, slashed) ← (d.setVerdict target { v with status := .upheld }).slashClient targetIndex
  .ok (d, .convicted target :: slashed)

/-- The index of a client of the epoch that can be slashed. -/
def slashableIndex (d : Deployment) (key : Pubkey) : Option Nat :=
  let clients := d.account.coordinator.epochState.clients
  match clients.toList.findIdx? fun x => x.signer == key with
  | some index =>
    match clients.get? index with
    | some x => if x.state = .healthy ∨ x.state = .dropped then some index else none
    | none => none
  | none => none

def runSlashLosingVerifier (d : Deployment) (target : Pubkey) (voterPosition : Nat) :
    Exec TreasurerError Panic (Deployment × List TreasurerEffect) := do
  let v ← d.verdict target
  Exec.require (v.status = .overturned) .verdictNotOverturned
  Exec.require (v.settledCount < v.voters.length) .allLosersSettled
  Exec.require (voterPosition = v.settledCount) .invalidParameter
  let loser ← Exec.unwrap v.voters[v.settledCount]? .indexOutOfBounds
  let index ← Exec.okOr (d.slashableIndex loser) .loserNotSlashableYet
  let settledCount ← addU 16 v.settledCount 1
  let (d, slashed) ← (d.setVerdict target { v with settledCount }).slashClient index
  .ok (d, .loserSlashed target loser :: slashed)

def runSlash (d : Deployment) (authority : Pubkey) (index : Nat) :
    Exec TreasurerError Panic (Deployment × List TreasurerEffect) := do
  d.checkAuthority authority
  d.slashClient index

/-- The changes `run_update` passes on. -/
structure RunUpdateParams where
  metadata : Option RunMetadata
  config : Option CoordinatorConfig
  model : Option Model
  progress : Option CoordinatorProgress
  epochEarningRateTotalShared : Option Nat
  epochSlashingRatePerClient : Option Nat
  paused : Option Bool
  clientVersion : Option Bytes

/-- The instructions of the coordinator program that an update consists of, in order. -/
def RunUpdateParams.instructions (params : RunUpdateParams) : List Instruction :=
  (if params.metadata.isSome || params.config.isSome || params.model.isSome || params.progress.isSome then
    [.update params.metadata params.config params.model params.progress] else [])
  ++ (if params.epochEarningRateTotalShared.isSome || params.epochSlashingRatePerClient.isSome then
    [.setFutureEpochRates params.epochEarningRateTotalShared params.epochSlashingRatePerClient] else [])
  ++ (params.paused.map Instruction.setPaused).toList
  ++ (params.clientVersion.map Instruction.updateClientVersion).toList

/-- Call the coordinator program for each instruction of a list. -/
def callCoordinator (P : Platform) (d : Deployment) (clock : Clock) :
    List Instruction → Exec TreasurerError Panic (Deployment × List TreasurerEffect)
  | [] => .ok (d, [])
  | ix :: ixs => do
    let (account, fx) ← Exec.mapErr .coordinator (d.account.process P clock ix)
    let (d, fx') ← (d.setAccount account).callCoordinator P clock ixs
    .ok (d, fx.map .coordinator ++ fx')

def runUpdate (P : Platform) (d : Deployment) (clock : Clock) (authority : Pubkey) (params : RunUpdateParams) :
    Exec TreasurerError Panic (Deployment × List TreasurerEffect) := do
  d.checkAuthority authority
  d.callCoordinator P clock params.instructions

end Leviathan.Deployment
