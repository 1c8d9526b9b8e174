import Leviathan.Treasurer.Dispute

/-!
# A deployment as a machine

The instructions of the treasurer (`solana-treasurer/src/lib.rs`), the instructions of the coordinator
program that need no authority, and transfers to the run's token account from outside. The authority of the
coordinator account is the run itself (in Rust `run_create_processor`), so that everything its authority may
do goes through the treasurer.

`participant_authorize_join` is left out: it grants an authorization of a third program and changes none of
the accounts here.
-/

namespace Leviathan

/-- Whether an instruction needs the authority of the coordinator account (in Rust the accounts
`OwnerCoordinatorAccounts`). -/
def Instruction.needsAuthority : Instruction → Bool
  | .setPaused _ | .update .. | .updateClientVersion _ | .setFutureEpochRates .. | .slash _ => true
  | .joinRun .. | .tick | .witness .. | .warmupWitness .. | .healthCheck .. | .checkpoint .. => false

/-- What can be done to a deployment. -/
inductive TreasurerInstruction where
  | coordinator (ix : Instruction)
  | receive (amount : Nat)
  | participantCreate (user : Pubkey)
  | participantBondDeposit (user : Pubkey) (userCollateral : TokenAccount) (collateralAmount : Nat)
  | participantBondRequestWithdraw (user : Pubkey) (collateralAmount : Nat)
  | participantBondFinalizeWithdraw (user : Pubkey) (userCollateral : TokenAccount) (appeal : Option Pubkey)
      (remaining : List RemainingAccount)
  | participantClaim (user : Pubkey) (userCollateral : TokenAccount) (claimEarnedPoints : Nat)
  | runBondConfigUpdate (authority : Pubkey) (bondMinimumAmount : Nat) (bondWithdrawDelaySeconds : Int)
  | runSetSlashBounty (authority : Pubkey) (slashBountyBps : Nat)
  | runSetChallengeConfig (authority : Pubkey) (challengeWindowSeconds : Int) (tieBreakerCommitteeSize : Nat)
      (appealWindowSeconds : Int)
  | runSlash (authority : Pubkey) (index : Nat)
  | runUpdate (authority : Pubkey) (params : Deployment.RunUpdateParams)
  | runSubmitAuditVerdict (verifier target : Pubkey) (evidence : Evidence)
  | runOpenChallenge (challenger : Pubkey)
  | runSubmitAppealVerdict (appellate target : Pubkey) (targetIndex : Nat) (overturn : Bool)
  | runFinalizeSlash (target : Pubkey) (targetIndex : Nat)
  | runSlashLosingVerifier (target : Pubkey) (voterPosition : Nat)

/-- The instructions of the coordinator program that an instruction calls as such. -/
def TreasurerInstruction.calls : TreasurerInstruction → List Instruction
  | .coordinator ix => [ix]
  | .runUpdate _ params => params.instructions
  | _ => []

/-- The number of tie-breakers that an instruction sets, if it does. -/
def TreasurerInstruction.tieBreakers : TreasurerInstruction → Option Nat
  | .runSetChallengeConfig _ _ size _ => some size
  | _ => none

namespace Deployment

/-- Execute an instruction of the coordinator program that needs no authority. -/
def coordinatorInstruction (P : Platform) (d : Deployment) (clock : Clock) (ix : Instruction) :
    Exec TreasurerError Panic (Deployment × List TreasurerEffect) := do
  Exec.require (ix.needsAuthority = false) .constraint
  d.callCoordinator P clock [ix]

/-- Somebody transfers tokens to the run. -/
def receive (d : Deployment) (amount : Nat) : Exec TreasurerError Panic (Deployment × List TreasurerEffect) := do
  Exec.require (d.runCollateral + amount < 2 ^ 64) .token
  .ok ({ d with runCollateral := d.runCollateral + amount }, [])

def process (P : Platform) (d : Deployment) (clock : Clock) :
    TreasurerInstruction → Exec TreasurerError Panic (Deployment × List TreasurerEffect)
  | .coordinator ix => d.coordinatorInstruction P clock ix
  | .receive amount => d.receive amount
  | .participantCreate user => d.participantCreate user
  | .participantBondDeposit user userCollateral amount => d.participantBondDeposit user userCollateral amount
  | .participantBondRequestWithdraw user amount => d.participantBondRequestWithdraw clock user amount
  | .participantBondFinalizeWithdraw user userCollateral appeal remaining =>
    d.participantBondFinalizeWithdraw clock user userCollateral appeal remaining
  | .participantClaim user userCollateral points => d.participantClaim user userCollateral points
  | .runBondConfigUpdate authority minimum delay => d.runBondConfigUpdate authority minimum delay
  | .runSetSlashBounty authority bps => d.runSetSlashBounty authority bps
  | .runSetChallengeConfig authority challenge size appeal =>
    d.runSetChallengeConfig authority challenge size appeal
  | .runSlash authority index => d.runSlash authority index
  | .runUpdate authority params => d.runUpdate P clock authority params
  | .runSubmitAuditVerdict verifier target evidence => d.runSubmitAuditVerdict P clock verifier target evidence
  | .runOpenChallenge challenger => d.runOpenChallenge clock challenger
  | .runSubmitAppealVerdict appellate target index overturn =>
    d.runSubmitAppealVerdict P appellate target index overturn
  | .runFinalizeSlash target index => d.runFinalizeSlash clock target index
  | .runSlashLosingVerifier target position => d.runSlashLosingVerifier target position

/-- A run that has just been created (Rust `run_create_processor`). -/
def created (address mainAuthority joinAuthority collateralMint : Pubkey) (clientVersion : Bytes) :
    Deployment where
  run := .new address mainAuthority joinAuthority collateralMint
  participants := ∅
  verdicts := ∅
  runCollateral := 0
  account := .created clientVersion

/-- A deployment, driven by instructions. -/
def machine (P : Platform) :
    Machine Deployment (Clock × TreasurerInstruction) (List TreasurerEffect) (Fault TreasurerError Panic) where
  init d := ∃ address mainAuthority joinAuthority collateralMint clientVersion,
    d = created address mainAuthority joinAuthority collateralMint clientVersion
  step d i := d.process P i.1 i.2

abbrev Record := List (Event Deployment (Clock × TreasurerInstruction) (List TreasurerEffect))

section Small

def authority : Pubkey := 9

def mint : Pubkey := 7

/-- The run of a new deployment on a platform with a constant hash. -/
def runOf (inputs : List (Clock × TreasurerInstruction)) : Record × Deployment :=
  (machine .zero).play [] (created 100 authority 8 mint []) inputs

lemma runOf_run (inputs : List (Clock × TreasurerInstruction)) :
    (machine .zero).Run (runOf inputs).1 (runOf inputs).2 := by
  have hinit : (machine .zero).init (created 100 authority 8 mint []) := ⟨_, _, _, _, _, rfl⟩
  exact (Machine.Run.init hinit).play inputs

/-- A user's token account with enough in it. -/
def wallet (user : Pubkey) : TokenAccount := ⟨user, mint, none, 1000⟩

def RunUpdateParams.none : RunUpdateParams := ⟨.none, .none, .none, .none, .none, .none, .none, .none⟩

/-- Instructions that configure a run, set its rates and let it wait for members. -/
def opening : List (Clock × TreasurerInstruction) :=
  [(⟨0, 0⟩, .runUpdate authority { RunUpdateParams.none with
    config := some .small
    model := some .small
    epochEarningRateTotalShared := some 100
    epochSlashingRatePerClient := some 30
    paused := some false })]

/-- Of two clients, which are participants too, the second has bonded 50 and is slashed during the first round; the first
finishes the epoch. -/
def epoch : List (Clock × TreasurerInstruction) :=
  opening ++ [(⟨1, 1⟩, .participantCreate 1), (⟨1, 1⟩, .participantCreate 2),
    (⟨1, 1⟩, .participantBondDeposit 2 (wallet 2) 50), (⟨5, 1⟩, .coordinator (.joinRun 1 ⟨1, 0⟩)),
    (⟨5, 1⟩, .coordinator (.joinRun 2 ⟨2, 0⟩)), (⟨15, 1⟩, .coordinator .tick),
    (⟨16, 1⟩, .coordinator (.witness 1 ⟨⟨0, 0, true⟩, .empty, .empty, 0⟩)), (⟨16, 1⟩, .runSlash authority 1),
    (⟨25, 1⟩, .coordinator .tick), (⟨35, 1⟩, .coordinator .tick), (⟨45, 1⟩, .coordinator .tick)]

/-- Three clients, which are participants too, in the first round of an epoch, with a challenge window. -/
def trio : List (Clock × TreasurerInstruction) :=
  [(⟨0, 0⟩, .runUpdate authority { RunUpdateParams.none with
      config := some { CoordinatorConfig.small with initMinClients := 3 }
      model := some .small
      paused := some false }),
    (⟨0, 0⟩, .runSetChallengeConfig authority 10 0 0), (⟨1, 1⟩, .participantCreate 1),
    (⟨1, 1⟩, .participantCreate 2), (⟨1, 1⟩, .participantCreate 3), (⟨5, 1⟩, .coordinator (.joinRun 1 ⟨1, 0⟩)),
    (⟨5, 1⟩, .coordinator (.joinRun 2 ⟨2, 0⟩)), (⟨5, 1⟩, .coordinator (.joinRun 3 ⟨3, 0⟩)),
    (⟨15, 1⟩, .coordinator .tick)]

/-- Five clients, which are participants too, in the first round of an epoch; the first two are tie-breakers. -/
def quintet : List (Clock × TreasurerInstruction) :=
  [(⟨0, 0⟩, .runUpdate authority { RunUpdateParams.none with
      config := some { CoordinatorConfig.small with initMinClients := 5 }
      model := some .small
      paused := some false }),
    (⟨0, 0⟩, .runSetChallengeConfig authority 10 2 0)]
  ++ [1, 2, 3, 4, 5].map (fun key => (⟨1, 1⟩, .participantCreate key))
  ++ [1, 2, 3, 4, 5].map (fun key => (⟨5, 1⟩, .coordinator (.joinRun key ⟨key, 0⟩)))
  ++ [(⟨15, 1⟩, .coordinator .tick)]

/-- The fourth and the fifth of five clients convict the third, which challenges them, and the first client votes for it. -/
def appealed : List (Clock × TreasurerInstruction) :=
  quintet ++ [(⟨16, 1⟩, .runSubmitAuditVerdict 4 3 ⟨2, 0, 1, 0, 1⟩),
    (⟨16, 1⟩, .runSubmitAuditVerdict 5 3 ⟨2, 0, 1, 0, 1⟩), (⟨17, 1⟩, .runOpenChallenge 3),
    (⟨18, 1⟩, .runSubmitAppealVerdict 1 3 2 true)]

end Small
end Deployment
end Leviathan
