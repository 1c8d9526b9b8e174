import Leviathan.Treasurer.Machine
import Leviathan.Instance.Conviction

/-!
# Inversion of the treasurer's instructions

What an accepted instruction of `Leviathan/Treasurer/Bond.lean` and `Leviathan/Treasurer/Dispute.lean` has done, stated
once (`process_spec`). `Step` has one constructor for each kind of change to a deployment; `ParticipantStep` says what
happens to the account of one participant, and `TermsStep` what to the settings of the run.

`Finalized` is the withdrawal of a bond, with its counters and transfers, and `Moves` a step of a dispute, with the key
that is slashed in it, if any.
-/

namespace Leviathan
open Exec List

/-- The participant whose account an instruction changes. -/
def TreasurerInstruction.participant? : TreasurerInstruction → Option Pubkey
  | .participantCreate user => some user
  | .participantBondDeposit user _ _ => some user
  | .participantBondRequestWithdraw user _ => some user
  | .participantBondFinalizeWithdraw user _ _ _ => some user
  | .participantClaim user _ _ => some user
  | _ => none

/-- The terms of a run, with the authorities they come from. -/
structure Terms where
  address : Pubkey
  joinAuthority : Pubkey
  bondMinimumAmount : Nat
  bondWithdrawDelaySeconds : Int
  challengeWindowSeconds : Int
  appealWindowSeconds : Int
deriving DecidableEq, Repr

def Run.terms (run : Run) : Terms :=
  ⟨run.address, run.joinAuthority, run.bondMinimumAmount, run.bondWithdrawDelaySeconds, run.challengeWindowSeconds,
    run.appealWindowSeconds⟩

def TreasurerInstruction.setsTerms : TreasurerInstruction → Bool
  | .runBondConfigUpdate _ _ _ => true
  | .runSetChallengeConfig _ _ _ _ => true
  | _ => false

namespace Deployment
open InstanceState (InstanceStep)

section Definitions

/-- A client has been slashed through the coordinator program. -/
def Slashed (d : Deployment) (key : Pubkey) (d' : Deployment) : Prop :=
  ∃ index x c, d.account.coordinator.epochState.clients.get? index = some x ∧ x.signer = key
    ∧ d.account.coordinator.eject index = .ok c ∧ d' = d.setAccount (d.account.withCoordinator c)

/-- A withdrawal has been finalized: `forfeited` went to the run, `payout` to the user, and `shares` of the bounty were
paid, with `balance` left in the run's token account. -/
structure Finalized (d : Deployment) (user : Pubkey) (p : Participant) (forfeited payout : Nat)
    (shares : List (RemainingAccount × Nat)) (balance : Nat) (d' : Deployment) : Prop where
  participant : d.participants.lookup user = some p
  pending : p.bondWithdrawPendingAmount ≠ 0
  forfeits : forfeited = min (d.account.slashedOf user - p.bondSettledSlashedPoints) p.bondAmount
  pays : payout = min p.bondWithdrawPendingAmount (p.bondAmount - forfeited)
  total : forfeited + payout ≤ d.run.totalBondedAmount
  bounty : (shares.map Prod.snd).sum ≤
    if 0 < d.run.slashBountyBps then forfeited * d.run.slashBountyBps / 10000 else 0
  balance_le : balance ≤ d.runCollateral
  spent : d.runCollateral ≤ balance + (shares.map Prod.snd).sum + payout
  eq : d' = { d with
    run := { d.run with totalBondedAmount := d.run.totalBondedAmount - (forfeited + payout) }
    participants := d.participants.insert user { p with
      bondSettledSlashedPoints := p.bondSettledSlashedPoints + forfeited
      bondAmount := p.bondAmount - forfeited - payout
      bondWithdrawPendingAmount := 0
      bondWithdrawRequestedAt := 0 }
    runCollateral := balance }

/-- Those who share the bounty when a user finalizes a withdrawal. -/
def bountySharers (d : Deployment) (user : Pubkey) (appeal : Option Pubkey) : List Pubkey :=
  match d.appealVerdict appeal >>= d.bountyVoters user with
  | .ok voters => voters
  | .error _ => []

def finalizedEffects (user : Pubkey) (payout : Nat) (shares : List (RemainingAccount × Nat)) :
    List TreasurerEffect :=
  shares.map (fun x => .bounty user x.1 x.2) ++ if payout = 0 then [] else [.withdrawn user payout]

lemma mem_finalizedEffects {user : Pubkey} {payout : Nat} {shares : List (RemainingAccount × Nat)}
    {e : TreasurerEffect} (h : e ∈ finalizedEffects user payout shares) :
    (∃ x ∈ shares, e = .bounty user x.1 x.2) ∨ e = .withdrawn user payout := by
  rcases mem_append.mp h with h | h
  · obtain ⟨x, hx, rfl⟩ := mem_map.mp h
    exact .inl ⟨x, hx, rfl⟩
  · split at h
    · cases h
    · exact .inr (mem_singleton.mp h)

/-- A key has a seat of a kind in the current round. -/
def Seated (P : Platform) (d : Deployment) (key : Pubkey) (committee : Committee)
    (selection : CommitteeSelection) : Prop :=
  CommitteeSelection.fromCoordinatorWithTieBreakers P d.account.coordinator 0 d.run.tieBreakerCommitteeSize
      = .ok selection
    ∧ ∃ index position,
      (d.account.coordinator.epochState.clients.toList.findIdx? fun x => x.signer == key) = some index
      ∧ (selection.getCommittee P index : Exec TreasurerError Panic CommitteeProof)
        = .ok ⟨committee, position, index⟩

/-- A vote has been accepted: `opened` tells whether the account was cleared for it, `v` and `v'` are the verdicts before
and after. -/
structure Ballot (P : Platform) (d : Deployment) (verifier target : Pubkey) (evidence : Evidence)
    (selection : CommitteeSelection) (opened : List TreasurerEffect) (v v' : AuditVerdict) : Prop where
  seated : Seated P d verifier .verifier selection
  opens : d.openVerdict target d.account.coordinator.progress.epoch d.account.coordinator.currentRound.height
    = .ok (v, opened)
  votes : castVote v verifier evidence = .ok v'

def ballotEffects (d : Deployment) (verifier target : Pubkey) (selection : CommitteeSelection)
    (opened : List TreasurerEffect) : List TreasurerEffect :=
  opened ++ [.voted target verifier (d.draw selection)]

/-- The steps of the dispute about a target: the instruction, the effects, the verdict afterwards, and the
key that is slashed. -/
inductive Moves (P : Platform) (d : Deployment) (target : Pubkey) :
    TreasurerInstruction → List TreasurerEffect → AuditVerdict → Option Pubkey → Prop where
  | vote {verifier evidence selection opened v v'} :
    Ballot P d verifier target evidence selection opened v v' →
    Moves P d target (.runSubmitAuditVerdict verifier target evidence)
      (ballotEffects d verifier target selection opened) v' none
  | pend {verifier evidence selection opened v v' now} :
    Ballot P d verifier target evidence selection opened v v' →
    2 ≤ v'.verdictCount →
    Moves P d target (.runSubmitAuditVerdict verifier target evidence)
      (ballotEffects d verifier target selection opened)
      { v' with status := .slashPending, pendingSinceUnix := now } none
  | convict {verifier evidence selection opened v v'} :
    Ballot P d verifier target evidence selection opened v v' →
    2 ≤ v'.verdictCount →
    Moves P d target (.runSubmitAuditVerdict verifier target evidence)
      (ballotEffects d verifier target selection opened ++ [.convicted target])
      { v' with status := .upheld } (some target)
  | challenge {v now} :
    d.verdicts.lookup target = some v →
    v.status = .slashPending →
    Moves P d target (.runOpenChallenge target) [] { v with
      status := .challenged
      challengedSinceUnix := now
      challenger := target
      overturnCount := 0
      upholdCount := 0
      appealVoters := [] } none
  | appeal {v v' appellate index overturn} :
    d.verdicts.lookup target = some v →
    castAppeal v appellate overturn = .ok v' →
    Moves P d target (.runSubmitAppealVerdict appellate target index overturn) [] v' none
  | overturn {v v' appellate index overturn} :
    d.verdicts.lookup target = some v →
    castAppeal v appellate overturn = .ok v' →
    Moves P d target (.runSubmitAppealVerdict appellate target index overturn) []
      { v' with status := .overturned } none
  | uphold {v v' appellate index overturn} :
    d.verdicts.lookup target = some v →
    castAppeal v appellate overturn = .ok v' →
    Moves P d target (.runSubmitAppealVerdict appellate target index overturn) [.convicted target]
      { v' with status := .upheld } (some target)
  | finalize {v index} :
    d.verdicts.lookup target = some v →
    v.status = .slashPending ∨ v.status = .challenged →
    Moves P d target (.runFinalizeSlash target index) [.convicted target]
      { v with status := .upheld } (some v.target)
  | loser {v key position} :
    d.verdicts.lookup target = some v →
    v.status = .overturned →
    v.voters[v.settledCount]? = some key →
    Moves P d target (.runSlashLosingVerifier target position) [.loserSlashed target key]
      { v with settledCount := v.settledCount + 1 } (some key)

/-- The changes to a deployment by a step of the dispute about a target. -/
inductive DisputeStep (P : Platform) (ix : TreasurerInstruction) (d : Deployment) (target : Pubkey) :
    List TreasurerEffect → Deployment → Prop where
  | quiet {fx v} :
    Moves P d target ix fx v none →
    DisputeStep P ix d target fx (d.setVerdict target v)
  | slash {fx v key d'} :
    Moves P d target ix fx v (some key) →
    Slashed (d.setVerdict target v) key d' →
    DisputeStep P ix d target (fx ++ [.coordinator (.ejected key)]) d'

/-- An instruction has changed the terms of a run, but not its counters. -/
structure Reconfigured (ix : TreasurerInstruction) (run run' : Run) : Prop where
  eq : run' = { run with
    bondMinimumAmount := run'.bondMinimumAmount
    bondWithdrawDelaySeconds := run'.bondWithdrawDelaySeconds
    slashBountyBps := run'.slashBountyBps
    challengeWindowSeconds := run'.challengeWindowSeconds
    tieBreakerCommitteeSize := run'.tieBreakerCommitteeSize
    appealWindowSeconds := run'.appealWindowSeconds }
  bounty : run'.slashBountyBps = run.slashBountyBps ∨ run'.slashBountyBps ≤ maxSlashBountyBps
  size : run'.tieBreakerCommitteeSize = ix.tieBreakers.getD run.tieBreakerCommitteeSize

/-- What an instruction does to a deployment. -/
inductive Step (P : Platform) : TreasurerInstruction → Deployment → List TreasurerEffect → Deployment → Prop where
  | call {ix d clock d' fx} :
    d.callCoordinator P clock ix.calls = .ok (d', fx) →
    (∀ ix' ∈ ix.calls, ∀ index, ix' ≠ .slash index) →
    Step P ix d fx d'
  | slash {authority index d key d'} :
    Slashed d key d' →
    Step P (.runSlash authority index) d [.coordinator (.ejected key)] d'
  | receive {d amount} :
    Step P (.receive amount) d [] { d with runCollateral := d.runCollateral + amount }
  | create {d user} :
    d.participants.lookup user = none →
    Step P (.participantCreate user) d [] (d.setParticipant user .new)
  | deposit {d user p userCollateral amount} :
    d.participants.lookup user = some p →
    Step P (.participantBondDeposit user userCollateral amount) d [.deposited user amount] { d with
      run := { d.run with totalBondedAmount := d.run.totalBondedAmount + amount }
      participants := d.participants.insert user { p with bondAmount := p.bondAmount + amount }
      runCollateral := d.runCollateral + amount }
  | request {d user p amount now} :
    d.participants.lookup user = some p →
    p.bondWithdrawPendingAmount + amount ≤ p.bondAmount →
    Step P (.participantBondRequestWithdraw user amount) d [] (d.setParticipant user { p with
      bondWithdrawPendingAmount := p.bondWithdrawPendingAmount + amount
      bondWithdrawRequestedAt := now
      bondWithdrawDelaySnapshot := d.run.bondWithdrawDelaySeconds })
  | finalize {d user p userCollateral appeal remaining forfeited payout shares balance d'} :
    Finalized d user p forfeited payout shares balance d' →
    (∀ x ∈ shares, ∀ mint, x.1 = .tokenAccount user mint → user ∈ d.bountySharers user appeal) →
    Step P (.participantBondFinalizeWithdraw user userCollateral appeal remaining) d
      (finalizedEffects user payout shares) d'
  | claim {d user p userCollateral points} :
    d.participants.lookup user = some p →
    p.claimedEarnedPoints + points ≤ d.account.earnedOf user →
    points ≤ d.runCollateral →
    Step P (.participantClaim user userCollateral points) d [.claimed user points] { d with
      run := { d.run with
        totalClaimedCollateralAmount := d.run.totalClaimedCollateralAmount + points
        totalClaimedEarnedPoints := d.run.totalClaimedEarnedPoints + points }
      participants := d.participants.insert user { p with
        claimedCollateralAmount := p.claimedCollateralAmount + points
        claimedEarnedPoints := p.claimedEarnedPoints + points }
      runCollateral := d.runCollateral - points }
  | configure {ix d run} :
    Reconfigured ix d.run run →
    Step P ix d [] { d with run }
  | dispute {ix d target fx d'} :
    DisputeStep P ix d target fx d' →
    Step P ix d fx d'

/-- What an instruction does to the terms of a run. -/
inductive TermsStep : TreasurerInstruction → Terms → Terms → Prop where
  | bondConfig {authority minimum delay t} :
    0 ≤ delay →
    TermsStep (.runBondConfigUpdate authority minimum delay) t
      { t with bondMinimumAmount := minimum, bondWithdrawDelaySeconds := delay }
  | challengeConfig {authority challenge size appeal t} :
    0 ≤ challenge ∧ 0 ≤ appeal →
    TermsStep (.runSetChallengeConfig authority challenge size appeal) t
      { t with challengeWindowSeconds := challenge, appealWindowSeconds := appeal }
  | other {ix t} :
    ix.setsTerms = false →
    TermsStep ix t t

/-- What an instruction does to the account of a user: before and after, none if there is no account yet. -/
inductive ParticipantStep (d : Deployment) (clock : Clock) (user : Pubkey) :
    TreasurerInstruction → Option Participant → Option Participant → Prop where
  | create :
    ParticipantStep d clock user (.participantCreate user) none (some .new)
  | deposit {p userCollateral amount} :
    p.bondAmount + amount < 2 ^ 64 →
    ParticipantStep d clock user (.participantBondDeposit user userCollateral amount) (some p)
      (some { p with bondAmount := p.bondAmount + amount })
  | request {p amount} :
    amount ≠ 0 →
    ParticipantStep d clock user (.participantBondRequestWithdraw user amount) (some p) (some { p with
      bondWithdrawPendingAmount := p.bondWithdrawPendingAmount + amount
      bondWithdrawRequestedAt := clock.unixTimestamp
      bondWithdrawDelaySnapshot := d.run.bondWithdrawDelaySeconds })
  | finalize {p userCollateral appeal remaining forfeited payout} :
    p.bondWithdrawRequestedAt + p.bondWithdrawDelaySnapshot ≤ clock.unixTimestamp →
    forfeited = min (d.account.slashedOf user - p.bondSettledSlashedPoints) p.bondAmount →
    payout = min p.bondWithdrawPendingAmount (p.bondAmount - forfeited) →
    ParticipantStep d clock user (.participantBondFinalizeWithdraw user userCollateral appeal remaining) (some p)
      (some { p with
        bondSettledSlashedPoints := p.bondSettledSlashedPoints + forfeited
        bondAmount := p.bondAmount - forfeited - payout
        bondWithdrawPendingAmount := 0
        bondWithdrawRequestedAt := 0 })
  | claim {p userCollateral points} :
    ParticipantStep d clock user (.participantClaim user userCollateral points) (some p) (some { p with
      claimedCollateralAmount := p.claimedCollateralAmount + points
      claimedEarnedPoints := p.claimedEarnedPoints + points })
  | other {ix o} :
    ix.participant? ≠ some user →
    ParticipantStep d clock user ix o o

/-- All that an accepted instruction has done. -/
structure Processed (P : Platform) (clock : Clock) (ix : TreasurerInstruction) (d : Deployment) (fx : List TreasurerEffect)
    (d' : Deployment) : Prop where
  step : Step P ix d fx d'
  terms : TermsStep ix d.run.terms d'.run.terms
  participant : ∀ user, ParticipantStep d clock user ix (d.participants.lookup user) (d'.participants.lookup user)

end Definitions

section Inversion
variable {P : Platform} {d d' : Deployment} {clock : Clock} {fx : List TreasurerEffect} {index : Nat}
  {target user key verifier : Pubkey} {v : AuditVerdict} {remaining : List RemainingAccount}
  {userCollateral : TokenAccount} {selection : CommitteeSelection} {ixs : List Instruction}
  {ix : TreasurerInstruction} {evidence : Evidence}

lemma slashClient_inv (h : d.slashClient index = .ok (d', fx)) :
    ∃ x, d.account.coordinator.epochState.clients.get? index = some x ∧ Slashed d x.signer d'
      ∧ fx = [.coordinator (.ejected x.signer)] := by
  simp only [slashClient, bind_eq_ok, mapErr_eq_ok, ok_pair] at h
  obtain ⟨⟨account, fx'⟩, hs, rfl, rfl⟩ := h
  obtain ⟨x, c, hx, he, rfl, rfl⟩ := InstanceState.slash_inv hs
  exact ⟨x, hx, ⟨index, x, c, hx, rfl, he, rfl⟩, rfl⟩

lemma slashClient_target (ht : d.checkTarget target index = .ok ())
    (h : (d.setVerdict key v).slashClient index = .ok (d', fx)) :
    Slashed (d.setVerdict key v) target d' ∧ fx = [.coordinator (.ejected target)] := by
  obtain ⟨x, hx, hs, rfl⟩ := slashClient_inv h
  simp only [checkTarget, require_eq_ok] at ht
  have hx' : d.account.coordinator.epochState.clients.get? index = some x := hx
  rw [hx'] at ht
  obtain rfl := Option.some.inj ht
  exact ⟨hs, rfl⟩

lemma participant_eq_ok {p : Participant} : d.participant user = .ok p ↔ d.participants.lookup user = some p := by
  rw [participant, okOr_eq_ok]

lemma verdict_eq_ok : d.verdict target = .ok v ↔ d.verdicts.lookup target = some v := by
  rw [verdict, okOr_eq_ok]

lemma transferOut_eq_ok {recipient : RemainingAccount} {amount : Nat} :
    d.transferOut recipient amount = .ok d' ↔ amount ≤ d.runCollateral
      ∧ d' = { d with runCollateral := balanceAfter d.runCollateral recipient amount } := by
  simp only [transferOut, bind_eq_ok, require_eq_ok, Except.ok.injEq]
  constructor
  · rintro ⟨_, h, rfl⟩
    exact ⟨h, rfl⟩
  · rintro ⟨h, rfl⟩
    exact ⟨(), h, rfl⟩

lemma balanceAfter_bounds (balance amount : Nat) (recipient : RemainingAccount) :
    balanceAfter balance recipient amount ≤ balance
      ∧ balance ≤ balanceAfter balance recipient amount + amount := by
  unfold balanceAfter
  split <;> omega

/-- What paying a list of shares does to a deployment. -/
structure Paid (d : Deployment) (user : Pubkey) (shares : List (RemainingAccount × Nat)) (balance : Nat)
    (d' : Deployment) (fx : List TreasurerEffect) : Prop where
  balance_le : balance ≤ d.runCollateral
  spent : d.runCollateral ≤ balance + (shares.map Prod.snd).sum
  eq : d' = { d with runCollateral := balance }
  effects : fx = shares.map fun x => .bounty user x.1 x.2

lemma Paid.nil (user : Pubkey) : Paid d user [] d.runCollateral d [] := ⟨le_rfl, by simp, rfl, rfl⟩

/-- The account belongs to one of those who share a bounty or, if nobody does, not to the user itself. -/
def Entitled (d : Deployment) (user : Pubkey) (voters : List Pubkey) (x : RemainingAccount) : Prop :=
  ∃ owner mint, x.read d.run = some (owner, mint) ∧ (owner ∈ voters ∨ voters = [] ∧ owner ≠ user)

lemma payVoters_inv {share : Nat} {voters : List Pubkey}
    (h : d.payVoters user share voters remaining = .ok (d', fx)) :
    ∃ shares balance, (shares.map Prod.snd).sum = voters.length * share ∧ Paid d user shares balance d' fx
      ∧ ∀ x ∈ shares, Entitled d user voters x.1 := by
  induction voters generalizing d remaining fx with
  | nil =>
    cases h
    exact ⟨[], _, by simp, .nil user, by simp⟩
  | cons voter voters ih =>
    cases remaining with
    | nil => cases h
    | cons recipient remaining =>
      simp only [payVoters, bind_eq_ok, okOr_eq_ok, require_eq_ok, transferOut_eq_ok, ok_pair] at h
      obtain ⟨⟨owner, mint⟩, hread, _, ⟨hown, _⟩, d1, ⟨_, rfl⟩, ⟨d2, fx2⟩, hrest, rfl, rfl⟩ := h
      obtain ⟨shares, balance, hsum, hp, hto⟩ := ih hrest
      obtain ⟨hle, hge⟩ := balanceAfter_bounds d.runCollateral share recipient
      refine ⟨(recipient, share) :: shares, balance, ?_, ⟨hp.balance_le.trans hle, ?_, hp.eq, ?_⟩, ?_⟩
      · simp only [map_cons, sum_cons, hsum, length_cons, Nat.add_mul]
        omega
      · have := hp.spent
        simp only [map_cons, sum_cons]
        dsimp only at this
        omega
      · rw [hp.effects]
        rfl
      · intro x hx
        obtain rfl | hx := mem_cons.mp hx
        · exact ⟨owner, mint, hread, .inl (hown ▸ mem_cons_self)⟩
        · obtain ⟨owner', mint', hread', hmem | ⟨rfl, _⟩⟩ := hto x hx
          · exact ⟨owner', mint', hread', .inl (mem_cons_of_mem _ hmem)⟩
          · cases hrest
            rw [map_eq_nil_iff.mp hp.effects.symm] at hx
            cases hx

lemma payBounty_inv {bounty : Nat} {appeal : Option AuditVerdict}
    (h : d.payBounty user bounty appeal remaining = .ok (d', fx)) :
    ∃ shares balance, (shares.map Prod.snd).sum ≤ bounty ∧ Paid d user shares balance d' fx
      ∧ ∀ x ∈ shares, bounty ≠ 0 ∧ ∃ voters, d.bountyVoters user appeal = .ok voters ∧ Entitled d user voters x.1 := by
  unfold payBounty at h
  split at h
  · cases h
    exact ⟨[], _, Nat.zero_le _, .nil user, by simp⟩
  · rename_i h0
    simp only [bind_eq_ok] at h
    obtain ⟨voters, hv, h⟩ := h
    split at h
    · rename_i hnil
      simp only [payReporter, bind_eq_ok, okOr_eq_ok, require_eq_ok, transferOut_eq_ok, ok_pair] at h
      obtain ⟨reporter, _, ⟨owner, mint⟩, hread, _, ⟨_, hown⟩, d1, ⟨_, rfl⟩, rfl, rfl⟩ := h
      obtain ⟨hle, hge⟩ := balanceAfter_bounds d.runCollateral bounty reporter
      refine ⟨[(reporter, bounty)], _, by simp, ⟨hle, by simpa using hge, rfl, rfl⟩, fun x hx => ?_⟩
      obtain rfl := mem_singleton.mp hx
      exact ⟨h0, voters, hv, owner, mint, hread, .inr ⟨hnil, hown⟩⟩
    · simp only [bind_eq_ok, require_eq_ok] at h
      obtain ⟨_, _, h⟩ := h
      split at h
      · cases h
        exact ⟨[], _, Nat.zero_le _, .nil user, by simp⟩
      · obtain ⟨shares, balance, hsum, hp, hto⟩ := payVoters_inv h
        exact ⟨shares, balance, hsum.trans_le (Nat.mul_div_le _ _), hp,
          fun x hx => ⟨h0, voters, hv, hto x hx⟩⟩

lemma payOut_inv {payout : Nat} (h : d.payOut user userCollateral payout = .ok (d', fx)) :
    payout ≤ d.runCollateral ∧ d' = { d with runCollateral := d.runCollateral - payout }
      ∧ fx = if payout = 0 then [] else [.withdrawn user payout] := by
  unfold payOut at h
  split at h
  · rename_i h0
    cases h
    subst h0
    exact ⟨Nat.zero_le _, rfl, rfl⟩
  · rename_i h0
    simp only [transferToUser, bind_eq_ok, transferOut_eq_ok, ok_pair] at h
    obtain ⟨_, ⟨hle, rfl⟩, rfl, rfl⟩ := h
    exact ⟨hle, rfl, (if_neg h0).symm⟩

lemma participantBondFinalizeWithdraw_inv {appeal : Option Pubkey}
    (h : d.participantBondFinalizeWithdraw clock user userCollateral appeal remaining = .ok (d', fx)) :
    ∃ p forfeited payout shares balance, Finalized d user p forfeited payout shares balance d'
      ∧ p.bondWithdrawRequestedAt + p.bondWithdrawDelaySnapshot ≤ clock.unixTimestamp
      ∧ (∀ x ∈ shares, forfeited ≠ 0
        ∧ ∃ voters, d.appealVerdict appeal >>= d.bountyVoters user = .ok voters ∧ Entitled d user voters x.1)
      ∧ fx = finalizedEffects user payout shares := by
  simp only [participantBondFinalizeWithdraw, bind_eq_ok, require_eq_ok, participant_eq_ok,
    addI64_eq_ok, addU_eq_ok, subU_eq_ok, ok_pair] at h
  obtain ⟨_, _, p, hp, verdict, ha, _, hpend, _, ⟨_, rfl⟩, _, hunlock, _, ⟨_, rfl⟩, _, ⟨hf, rfl⟩, _, ⟨hpay, rfl⟩, _,
    ⟨_, rfl⟩, _, ⟨ht, rfl⟩, ⟨d1, fx1⟩, hb, ⟨d2, fx2⟩, ho, rfl, rfl⟩ := h
  obtain ⟨shares, balance, hsum, hb, hto⟩ := payBounty_inv hb
  obtain ⟨hle, rfl, rfl⟩ := payOut_inv ho
  have hbal := hb.balance_le
  have hspent := hb.spent
  rw [hb.eq] at hle ⊢
  refine ⟨p, _, _, shares, balance - _, ⟨hp, hpend, rfl, rfl, ht, ?_, ?_, ?_, rfl⟩, hunlock, fun x hx => ?_, ?_⟩
  · refine hsum.trans ?_
    split
    · exact Nat.mod_le _ _
    · exact le_rfl
  · exact (Nat.sub_le _ _).trans hbal
  · dsimp only at hspent hle
    change d.runCollateral ≤ _ at hspent
    omega
  · obtain ⟨h0, voters, hv, he⟩ := hto x hx
    refine ⟨fun hz => h0 ?_, voters, bind_eq_ok.mpr ⟨verdict, ha, hv⟩, he⟩
    simp [hz]
  · rw [hb.effects]
    rfl

lemma seatOf_inv {err : TreasurerError} {committee : Committee}
    (h : d.seatOf P key err = .ok (committee, selection)) : Seated P d key committee selection := by
  simp only [seatOf, bind_eq_ok, okOr_eq_ok, mapErr_eq_ok, ok_pair] at h
  obtain ⟨index, hi, sel, hsel, ⟨_, position, _⟩, hc, rfl, rfl⟩ := h
  simp only [CommitteeSelection.getCommittee, bind_eq_ok, Except.ok.injEq] at hc
  obtain ⟨pos, hpos, hc⟩ := hc
  cases hc
  refine ⟨hsel, index, position, hi, ?_⟩
  simp only [CommitteeSelection.getCommittee, bind_eq_ok]
  exact ⟨position, hpos, rfl⟩

lemma runSubmitAuditVerdict_inv (h : d.runSubmitAuditVerdict P clock verifier target evidence = .ok (d', fx)) :
    DisputeStep P (.runSubmitAuditVerdict verifier target evidence) d target fx d' := by
  simp only [runSubmitAuditVerdict, bind_eq_ok, require_eq_ok] at h
  obtain ⟨_, _, _, _, ⟨committee, selection⟩, hseat, _, rfl, _, ht, _, _, n, _, _, _, ⟨v, opened⟩, hopen, v',
    hcast, h⟩ := h
  have hb : Ballot P d verifier target evidence selection opened v v' := ⟨seatOf_inv hseat, hopen, hcast⟩
  split at h
  · rename_i hq
    have hq : 2 ≤ v'.verdictCount := (le_max_right _ _).trans hq
    split at h
    · cases h
      exact .quiet (.pend hb hq)
    · simp only [bind_eq_ok, ok_pair] at h
      obtain ⟨⟨d1, slashed⟩, hs, rfl, rfl⟩ := h
      obtain ⟨hsl, rfl⟩ := slashClient_target ht hs
      exact .slash (.convict hb hq) hsl
  · cases h
    exact .quiet (.vote hb)

lemma runOpenChallenge_inv {challenger : Pubkey} (h : d.runOpenChallenge clock challenger = .ok (d', fx)) :
    DisputeStep P (.runOpenChallenge challenger) d challenger fx d' := by
  simp only [runOpenChallenge, bind_eq_ok, require_eq_ok, participant_eq_ok, verdict_eq_ok, ok_pair] at h
  obtain ⟨_, _, v, hv, _, _, _, hs, _, _, _, _, rfl, rfl⟩ := h
  exact .quiet (.challenge hv hs)

lemma runSubmitAppealVerdict_inv {appellate : Pubkey} {overturn : Bool}
    (h : d.runSubmitAppealVerdict P appellate target index overturn = .ok (d', fx)) :
    DisputeStep P (.runSubmitAppealVerdict appellate target index overturn) d target fx d' := by
  simp only [runSubmitAppealVerdict, bind_eq_ok, require_eq_ok, participant_eq_ok, verdict_eq_ok] at h
  obtain ⟨_, _, v, hv, _, _, _, _, _, _, _, ht, _, _, _, _, v', hcast, h⟩ := h
  split at h
  · cases h
    exact .quiet (.overturn hv hcast)
  · split at h
    · simp only [bind_eq_ok, ok_pair] at h
      obtain ⟨⟨d1, slashed⟩, hs, rfl, rfl⟩ := h
      obtain ⟨hsl, rfl⟩ := slashClient_target ht hs
      exact .slash (.uphold hv hcast) hsl
    · cases h
      exact .quiet (.appeal hv hcast)

lemma runFinalizeSlash_inv (h : d.runFinalizeSlash clock target index = .ok (d', fx)) :
    DisputeStep P (.runFinalizeSlash target index) d target fx d' := by
  simp only [runFinalizeSlash, bind_eq_ok, verdict_eq_ok, ok_pair] at h
  obtain ⟨v, hv, _, hf, _, ht, ⟨d1, slashed⟩, hs, rfl, rfl⟩ := h
  obtain ⟨hsl, rfl⟩ := slashClient_target ht hs
  refine .slash (.finalize hv ?_) hsl
  unfold checkFinalizable at hf
  split at hf
  · exact .inl ‹_›
  · exact .inr ‹_›
  · cases hf

lemma signer_of_slashableIndex {x : Client} (h : d.slashableIndex key = some index)
    (hx : d.account.coordinator.epochState.clients.get? index = some x) : x.signer = key := by
  unfold slashableIndex at h
  dsimp only at h
  split at h
  · rename_i i hi
    split at h
    · rename_i y hy
      split at h
      · cases h
        obtain ⟨hlt, hp, _⟩ := findIdx?_eq_some_iff_getElem.mp hi
        obtain rfl : _ = x := Option.some.inj ((getElem?_eq_getElem hlt).symm.trans hx)
        simpa using hp
      · cases h
    · cases h
  · cases h

lemma runSlashLosingVerifier_inv {position : Nat} (h : d.runSlashLosingVerifier target position = .ok (d', fx)) :
    DisputeStep P (.runSlashLosingVerifier target position) d target fx d' := by
  simp only [runSlashLosingVerifier, bind_eq_ok, require_eq_ok, unwrap_eq_ok, okOr_eq_ok,
    verdict_eq_ok, addU_eq_ok, ok_pair] at h
  obtain ⟨v, hv, _, hst, _, _, _, _, loser, hl, index, hi, _, ⟨_, rfl⟩, ⟨d1, slashed⟩, hs, rfl, rfl⟩ := h
  obtain ⟨x, hx, hsl, rfl⟩ := slashClient_inv hs
  obtain rfl := signer_of_slashableIndex hi hx
  exact .slash (.loser hv hst hl) hsl

lemma callCoordinator_inv (h : d.callCoordinator P clock ixs = .ok (d', fx)) :
    ∃ account fx', d' = d.setAccount account ∧ fx = fx'.map .coordinator
      ∧ Chain (InstanceStep P) d.account fx' account := by
  induction ixs generalizing d fx with
  | nil =>
    cases h
    exact ⟨_, [], rfl, rfl, .nil⟩
  | cons ix ixs ih =>
    simp only [callCoordinator, bind_eq_ok, mapErr_eq_ok, ok_pair] at h
    obtain ⟨⟨account, fx1⟩, hix, ⟨d2, fx2⟩, hrest, rfl, rfl⟩ := h
    obtain ⟨account', fx', rfl, rfl, hc⟩ := ih hrest
    exact ⟨account', fx1 ++ fx', rfl, by simp, (InstanceState.process_chain hix).append hc⟩

lemma RunUpdateParams.not_slash (params : RunUpdateParams) :
    ∀ ix ∈ params.instructions, ∀ index, ix ≠ .slash index := by
  rintro ix hix index rfl
  simp [RunUpdateParams.instructions] at hix

lemma not_ejected_of_callCoordinator (hix : ∀ ix ∈ ixs, ∀ index, ix ≠ .slash index)
    (h : d.callCoordinator P clock ixs = .ok (d', fx)) (key : Pubkey) : .coordinator (.ejected key) ∉ fx := by
  induction ixs generalizing d fx with
  | nil =>
    cases h
    simp
  | cons ix ixs ih =>
    simp only [callCoordinator, bind_eq_ok, mapErr_eq_ok, ok_pair] at h
    obtain ⟨⟨account, fx1⟩, h1, ⟨d2, fx2⟩, hrest, rfl, rfl⟩ := h
    have hfx1 := InstanceState.not_ejected_of_process (hix ix mem_cons_self) h1 key
    have hfx2 := ih (fun ix' h' => hix ix' (mem_cons_of_mem _ h')) hrest
    simp [hfx1, hfx2]

lemma openVerdict_effects {epoch height : Nat} (h : d.openVerdict target epoch height = .ok (v, fx)) :
    fx = [] ∨ fx = [.opened target] := by
  unfold openVerdict at h
  split at h
  · cases h
    exact .inr rfl
  · split at h
    · simp only [bind_eq_ok, ok_pair] at h
      obtain ⟨_, _, _, rfl⟩ := h
      exact .inr rfl
    · cases h
      exact .inl rfl

lemma Ballot.effects {opened : List TreasurerEffect} {v' : AuditVerdict}
    (h : Ballot P d verifier target evidence selection opened v v') :
    ∀ e ∈ ballotEffects d verifier target selection opened,
      e = .opened target ∨ e = .voted target verifier (d.draw selection) := by
  obtain rfl | rfl := openVerdict_effects h.opens <;> simp [ballotEffects]

lemma Moves.effects {key : Option Pubkey} (h : Moves P d target ix fx v key) : ∀ e ∈ fx, e = .opened target
      ∨ (∃ voter draw, e = .voted target voter draw) ∨ e = .convicted target
      ∨ ∃ voter, e = .loserSlashed target voter := by
  intro e he
  cases h with
  | vote h | pend h _ => exact (h.effects e he).imp_right fun hv => .inl ⟨_, _, hv⟩
  | convict h _ =>
    obtain he | he := mem_append.mp he
    · exact (h.effects e he).imp_right fun hv => .inl ⟨_, _, hv⟩
    · exact .inr (.inr (.inl (mem_singleton.mp he)))
  | _ => simp_all

lemma Moves.isDispute {key : Option Pubkey} (h : Moves P d target ix fx v key) : ∀ e ∈ fx, e.isDispute = true := by
  intro e he
  obtain rfl | ⟨_, _, rfl⟩ | rfl | ⟨_, rfl⟩ := h.effects e he <;> rfl

/-- A dispute moves neither the run nor the participants. -/
lemma DisputeStep.frame (st : DisputeStep P ix d target fx d') :
    d'.run = d.run ∧ d'.participants = d.participants ∧ d'.runCollateral = d.runCollateral
      ∧ ∀ e ∈ fx, e.isDispute = true ∨ ∃ key, e = .coordinator (.ejected key) := by
  cases st with
  | quiet hm => exact ⟨rfl, rfl, rfl, fun e he => .inl (hm.isDispute e he)⟩
  | @slash _ _ key _ hm hsl =>
    obtain ⟨_, _, _, _, _, _, rfl⟩ := hsl
    refine ⟨rfl, rfl, rfl, fun e he => ?_⟩
    obtain he | he := mem_append.mp he
    · exact .inl (hm.isDispute e he)
    · exact .inr ⟨key, mem_singleton.mp he⟩

section Processed
variable {ix : TreasurerInstruction}

lemma Processed.of_insert {signer : Pubkey} {o : Option Participant} {p' : Participant} (st : Step P ix d fx d')
    (hterms : ix.setsTerms = false) (hrun : d'.run.terms = d.run.terms) (hix : ix.participant? = some signer)
    (ho : d.participants.lookup signer = o) (h : d'.participants = d.participants.insert signer p')
    (hs : ParticipantStep d clock signer ix o (some p')) : Processed P clock ix d fx d' := by
  refine ⟨st, ?_, ?_⟩
  · rw [hrun]
    exact .other hterms
  · intro user
    rw [h]
    by_cases he : user = signer
    · subst he
      rw [AList.lookup_insert, ho]
      exact hs
    · rw [AList.lookup_insert_ne he]
      refine .other ?_
      rw [hix]
      rintro ⟨⟩
      exact he rfl

lemma Processed.of_terms (st : Step P ix d fx d') (hterms : TermsStep ix d.run.terms d'.run.terms)
    (hix : ix.participant? = none) (h : d'.participants = d.participants) : Processed P clock ix d fx d' := by
  refine ⟨st, hterms, ?_⟩
  intro user
  rw [h]
  refine .other ?_
  rw [hix]
  rintro ⟨⟩

lemma Processed.of_dispute (st : DisputeStep P ix d target fx d') (hterms : ix.setsTerms = false)
    (hix : ix.participant? = none) : Processed P clock ix d fx d' := by
  refine .of_terms (.dispute st) ?_ hix st.frame.2.1
  rw [st.frame.1]
  exact .other hterms

end Processed

/-- What each instruction has checked and done. -/
lemma process_spec (h : d.process P clock ix = .ok (d', fx)) : Processed P clock ix d fx d' := by
  cases ix with
  | coordinator ix =>
    simp only [process, coordinatorInstruction, bind_eq_ok, require_eq_ok] at h
    obtain ⟨_, hix, h⟩ := h
    have hix' : ∀ ix' ∈ [ix], ∀ index, ix' ≠ .slash index := by
      intro ix' hix' index he
      rw [← mem_singleton.mp hix', he] at hix
      cases hix
    obtain ⟨_, _, rfl, _⟩ := callCoordinator_inv h
    exact .of_terms (.call h hix') (.other rfl) rfl rfl
  | receive amount =>
    simp only [process, receive, bind_eq_ok, ok_pair] at h
    obtain ⟨_, _, rfl, rfl⟩ := h
    exact .of_terms .receive (.other rfl) rfl rfl
  | participantCreate user =>
    simp only [process, participantCreate, bind_eq_ok, require_eq_ok, ok_pair] at h
    obtain ⟨_, hu, rfl, rfl⟩ := h
    exact .of_insert (.create hu) rfl rfl rfl hu rfl .create
  | participantBondDeposit user userCollateral amount =>
    simp only [process, participantBondDeposit, transferIn, bind_eq_ok, require_eq_ok,
      participant_eq_ok, addU_eq_ok, Except.ok.injEq, Prod.mk.injEq] at h
    obtain ⟨_, _, p, hp, _, _, _, ⟨_, _, rfl⟩, _, ⟨hlt, rfl⟩, _, ⟨_, rfl⟩, rfl, rfl⟩ := h
    exact .of_insert (.deposit hp) rfl rfl rfl hp rfl (.deposit hlt)
  | participantBondRequestWithdraw user amount =>
    simp only [process, participantBondRequestWithdraw, bind_eq_ok, require_eq_ok,
      participant_eq_ok, addU_eq_ok, subU_eq_ok, ok_pair] at h
    obtain ⟨p, hp, _, ⟨hle, rfl⟩, _, ⟨hne, hav⟩, _, ⟨_, rfl⟩, rfl, rfl⟩ := h
    exact .of_insert (.request hp (by omega)) rfl rfl rfl hp rfl (.request hne)
  | participantBondFinalizeWithdraw user userCollateral appeal remaining =>
    obtain ⟨p, forfeited, payout, shares, balance, hf, hunlock, hto, rfl⟩ := participantBondFinalizeWithdraw_inv h
    have hto : ∀ x ∈ shares, ∀ mint, x.1 = .tokenAccount user mint → user ∈ d.bountySharers user appeal := by
      intro x hx mint he
      obtain ⟨_, voters, hv, owner, mint', hread, hown⟩ := hto x hx
      rw [he] at hread
      cases hread
      rw [bountySharers, hv]
      exact hown.resolve_right fun hne => hne.2 rfl
    exact .of_insert (.finalize hf hto) rfl (by rw [hf.eq]; rfl) rfl hf.participant (by rw [hf.eq])
      (.finalize hunlock hf.forfeits hf.pays)
  | participantClaim user userCollateral points =>
    simp only [process, participantClaim, transferToUser, bind_eq_ok, require_eq_ok,
      participant_eq_ok, addU_eq_ok, subU_eq_ok, transferOut_eq_ok, ok_pair] at h
    obtain ⟨_, _, p, hp, _, _, _, ⟨hle, rfl⟩, _, hpts, _, ⟨_, rfl⟩, _, ⟨_, rfl⟩, _, ⟨_, rfl⟩, _, ⟨_, rfl⟩, _,
      ⟨hbal, rfl⟩, rfl, rfl⟩ := h
    exact .of_insert (.claim hp (by omega) hbal) rfl rfl rfl hp rfl .claim
  | runBondConfigUpdate authority minimum delay =>
    simp only [process, runBondConfigUpdate, bind_eq_ok, require_eq_ok, ok_pair] at h
    obtain ⟨_, _, _, hle, _, _, rfl, rfl⟩ := h
    exact .of_terms (.configure ⟨rfl, .inl rfl, rfl⟩) (.bondConfig hle) rfl rfl
  | runSetSlashBounty authority bps =>
    simp only [process, runSetSlashBounty, bind_eq_ok, require_eq_ok, ok_pair] at h
    obtain ⟨_, _, _, hb, rfl, rfl⟩ := h
    exact .of_terms (.configure ⟨rfl, .inr hb, rfl⟩) (.other rfl) rfl rfl
  | runSetChallengeConfig authority challenge size appeal =>
    simp only [process, runSetChallengeConfig, bind_eq_ok, require_eq_ok, ok_pair] at h
    obtain ⟨_, _, _, hle, rfl, rfl⟩ := h
    exact .of_terms (.configure ⟨rfl, .inl rfl, rfl⟩) (.challengeConfig hle) rfl rfl
  | runSlash authority index =>
    simp only [process, runSlash, bind_eq_ok] at h
    obtain ⟨_, _, h⟩ := h
    obtain ⟨x, _, hs, rfl⟩ := slashClient_inv h
    obtain ⟨_, _, _, _, _, _, rfl⟩ := id hs
    exact .of_terms (.slash hs) (.other rfl) rfl rfl
  | runUpdate authority params =>
    simp only [process, runUpdate, bind_eq_ok] at h
    obtain ⟨_, _, h⟩ := h
    obtain ⟨_, _, rfl, _⟩ := callCoordinator_inv h
    exact .of_terms (.call h params.not_slash) (.other rfl) rfl rfl
  | runSubmitAuditVerdict verifier target evidence => exact .of_dispute (runSubmitAuditVerdict_inv h) rfl rfl
  | runOpenChallenge challenger => exact .of_dispute (runOpenChallenge_inv h) rfl rfl
  | runSubmitAppealVerdict appellate target index overturn => exact .of_dispute (runSubmitAppealVerdict_inv h) rfl rfl
  | runFinalizeSlash target index => exact .of_dispute (runFinalizeSlash_inv h) rfl rfl
  | runSlashLosingVerifier target position => exact .of_dispute (runSlashLosingVerifier_inv h) rfl rfl

/-- Every accepted instruction is a step. -/
lemma process_inv (h : d.process P clock ix = .ok (d', fx)) : Step P ix d fx d' :=
  (process_spec h).step

end Inversion

section Account
variable {P : Platform} {ix : TreasurerInstruction} {d d' : Deployment} {fx : List TreasurerEffect} {tr : Record}

/-- The effects of the coordinator program among the effects of a deployment. -/
def instanceEffects (fx : List TreasurerEffect) : List InstanceEffect :=
  fx.filterMap fun
    | .coordinator e => some e
    | _ => none

@[simp] lemma instanceEffects_append (fx fx' : List TreasurerEffect) :
    instanceEffects (fx ++ fx') = instanceEffects fx ++ instanceEffects fx' :=
  filterMap_append

@[simp] lemma instanceEffects_reverse (fx : List TreasurerEffect) :
    instanceEffects fx.reverse = (instanceEffects fx).reverse :=
  filterMap_reverse

@[simp] lemma instanceEffects_map (fx : List InstanceEffect) : instanceEffects (fx.map .coordinator) = fx := by
  simp [instanceEffects]

lemma instanceEffects_of_isDispute (h : ∀ e ∈ fx, e.isDispute = true) : instanceEffects fx = [] := by
  refine filterMap_eq_nil_iff.mpr fun e he => ?_
  cases e with
  | coordinator e => cases h _ he
  | _ => rfl

lemma Slashed.step {key : Pubkey} (h : Slashed d key d') :
    InstanceStep P d.account [.ejected key] d'.account := by
  obtain ⟨index, x, c, hx, rfl, he, rfl⟩ := h
  exact .eject hx he

/-- An instruction of the treasurer moves the account by steps of the account. -/
lemma Step.account (st : Step P ix d fx d') :
    Chain (InstanceStep P) d.account (instanceEffects fx) d'.account := by
  cases st with
  | call h _ =>
    obtain ⟨account, fx', rfl, rfl, hc⟩ := callCoordinator_inv h
    rw [instanceEffects_map]
    exact hc
  | slash h => exact .single h.step
  | finalize h _ =>
    have hfx : ∀ user payout (shares : List (RemainingAccount × Nat)),
        instanceEffects (finalizedEffects user payout shares) = [] := by
      intro user payout shares
      unfold finalizedEffects
      rw [instanceEffects_append]
      split <;> simp [instanceEffects]
    rw [hfx, h.eq]
    exact .nil
  | dispute h =>
    cases h with
    | quiet hm =>
      rw [instanceEffects_of_isDispute hm.isDispute]
      exact .nil
    | slash hm hs =>
      rw [instanceEffects_append, instanceEffects_of_isDispute hm.isDispute]
      exact .single hs.step
  | _ => exact .nil

lemma account_history {Q : List InstanceEffect → InstanceState → Prop} (r : (machine P).Run tr d)
    (h0 : ∀ v, Q [] (.created v))
    (hs : ∀ log s fx s', InstanceState.Sound s → Q log s → InstanceStep P s fx s' → Q (fx.reverse ++ log) s') :
    InstanceState.Sound d.account ∧ Q (instanceEffects (log tr)) d.account := by
  refine r.history
    (P := fun tr d => InstanceState.Sound d.account ∧ Q (instanceEffects (log tr)) d.account) ?_ ?_
  · rintro _ ⟨_, _, _, _, v, rfl⟩
    exact ⟨.created v, h0 v⟩
  · intro tr d i d' fx _ h st
    rw [log_cons, instanceEffects_append, instanceEffects_reverse]
    refine Chain.history (P := fun log s => InstanceState.Sound s ∧ Q log s) ?_ h (process_inv st).account
    rintro log s fx s' ⟨h, hq⟩ st
    exact ⟨st.sound h, hs log s fx s' h hq st⟩

lemma sound_of_run (r : (machine P).Run tr d) : InstanceState.Sound d.account :=
  (account_history r (Q := fun _ _ => True) (fun _ => trivial) fun _ _ _ _ _ _ _ => trivial).1

end Account
end Deployment
end Leviathan
