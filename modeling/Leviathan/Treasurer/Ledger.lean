import Leviathan.Treasurer.Inversion

/-!
# The bond ledger

What the counters of the treasurer mean (`solana-treasurer/src/logic/participant_bond_*.rs`): in every state
of every run the bonds of all participants add up to the run's total, a participant never asks for more than
it has bonded, and what it has deposited is bonded, paid back or forfeited (`Ledger`). Each step keeps this
(`Step.ledger`), with one lemma for steps that touch no participant and one for steps that touch one.
-/

namespace Leviathan
open List

namespace TreasurerEffect

/-- How much an effect adds to the deposits of a participant. -/
def deposit (user : Pubkey) : TreasurerEffect → Nat
  | .deposited user' amount => if user' = user then amount else 0
  | _ => 0

/-- How much of its bond an effect pays back to a participant. -/
def payout (user : Pubkey) : TreasurerEffect → Nat
  | .withdrawn user' amount => if user' = user then amount else 0
  | _ => 0

/-- How much a finalized withdrawal transfers. -/
def transferred : TreasurerEffect → Nat
  | .withdrawn _ amount | .bounty _ _ amount => amount
  | _ => 0

/-- Effects that together do not concern a participant's bond. -/
def Neutral (user : Pubkey) (fx : List TreasurerEffect) : Prop :=
  tally (deposit user) fx = 0 ∧ tally (payout user) fx = 0

lemma Neutral.nil (user : Pubkey) : Neutral user [] := ⟨rfl, rfl⟩

lemma neutral_coordinator (user : Pubkey) (fx : List InstanceEffect) : Neutral user (fx.map .coordinator) := by
  constructor <;>
  · refine tally_eq_zero fun e he => ?_
    obtain ⟨e', _, rfl⟩ := mem_map.mp he
    rfl

lemma neutral_of_dispute {fx : List TreasurerEffect}
    (h : ∀ e ∈ fx, e.isDispute = true ∨ ∃ key, e = .coordinator (.ejected key)) (user : Pubkey) :
    Neutral user fx := by
  constructor <;>
  · refine tally_eq_zero fun e he => ?_
    obtain hd | ⟨key, rfl⟩ := h e he
    · cases e with
      | deposited _ _ => cases hd
      | withdrawn _ _ => cases hd
      | _ => rfl
    · rfl

end TreasurerEffect

namespace Deployment
open TreasurerEffect

structure Booked (log : List TreasurerEffect) (slashed : Nat) (user : Pubkey) (p : Participant) : Prop where
  pending : p.bondWithdrawPendingAmount ≤ p.bondAmount
  settled : p.bondSettledSlashedPoints ≤ slashed
  deposits : tally (deposit user) log
    = p.bondAmount + tally (payout user) log + p.bondSettledSlashedPoints

/-- The books of a run. -/
structure Ledger (log : List TreasurerEffect) (d : Deployment) : Prop where
  total : d.run.totalBondedAmount = d.participants.total Participant.bondAmount
  bounty : d.run.slashBountyBps ≤ maxSlashBountyBps
  booked : ∀ user p, d.participants.lookup user = some p → Booked log (d.account.slashedOf user) user p
  absent : ∀ user, d.participants.lookup user = none →
    tally (deposit user) log = 0 ∧ tally (payout user) log = 0

section Ledger
variable {P : Platform} {ix : TreasurerInstruction} {d d' : Deployment} {fx log : List TreasurerEffect}
  {user : Pubkey}

lemma tally_neutral (log : List TreasurerEffect) (h : Neutral user fx) :
    tally (deposit user) (fx.reverse ++ log) = tally (deposit user) log
      ∧ tally (payout user) (fx.reverse ++ log) = tally (payout user) log := by
  rw [tally_append, tally_append, tally_reverse, tally_reverse, h.1, h.2, Nat.zero_add, Nat.zero_add]
  exact ⟨rfl, rfl⟩

/-- What moves no bond keeps the ledger. -/
lemma Ledger.frame (h : Ledger log d) (hp : d'.participants = d.participants)
    (ht : d'.run.totalBondedAmount = d.run.totalBondedAmount) (hb : d'.run.slashBountyBps ≤ maxSlashBountyBps)
    (hs : ∀ user, d.account.slashedOf user ≤ d'.account.slashedOf user)
    (hfx : ∀ user, Neutral user fx) : Ledger (fx.reverse ++ log) d' where
  total := by rw [ht, hp, h.total]
  bounty := hb
  booked := by
    intro user p hl
    rw [hp] at hl
    obtain ⟨hdep, hpay⟩ := tally_neutral log (hfx user)
    have hbk := h.booked user p hl
    exact ⟨hbk.pending, hbk.settled.trans (hs user), by rw [hdep, hpay]; exact hbk.deposits⟩
  absent := by
    intro user hl
    rw [hp] at hl
    obtain ⟨hdep, hpay⟩ := tally_neutral log (hfx user)
    rw [hdep, hpay]
    exact h.absent user hl

lemma Ledger.update {p p' : Participant} (h : Ledger log d) (hl : d.participants.lookup user = some p)
    (hp : d'.participants = d.participants.insert user p')
    (ht : d'.run.totalBondedAmount + p.bondAmount = p'.bondAmount + d.run.totalBondedAmount)
    (hb : d'.run.slashBountyBps = d.run.slashBountyBps) (ha : d'.account = d.account)
    (hu : Booked log (d.account.slashedOf user) user p →
      Booked (fx.reverse ++ log) (d.account.slashedOf user) user p')
    (hfx : ∀ user', user' ≠ user → Neutral user' fx) : Ledger (fx.reverse ++ log) d' where
  total := by
    have := Accounts.total_insert (a := p') Participant.bondAmount hl
    have := h.total
    rw [hp]
    omega
  bounty := hb ▸ h.bounty
  booked := by
    intro user' q hq
    rw [hp] at hq
    rw [ha]
    obtain ⟨rfl, rfl⟩ | ⟨he, hq⟩ := Accounts.lookup_insert_eq_some hq
    · exact hu (h.booked _ p hl)
    · obtain ⟨hdep, hpay⟩ := tally_neutral log (hfx user' he)
      have hbk := h.booked user' q hq
      exact ⟨hbk.pending, hbk.settled, by rw [hdep, hpay]; exact hbk.deposits⟩
  absent := by
    intro user' hq
    rw [hp] at hq
    obtain ⟨he, hq⟩ := Accounts.lookup_insert_eq_none hq
    obtain ⟨hdep, hpay⟩ := tally_neutral log (hfx user' he)
    rw [hdep, hpay]
    exact h.absent user' hq

lemma Ledger.create (h : Ledger log d) (hl : d.participants.lookup user = none) :
    Ledger log (d.setParticipant user .new) where
  total := by
    rw [setParticipant, Accounts.total_insert_new _ hl, ← h.total]
    exact (Nat.zero_add _).symm
  bounty := h.bounty
  booked := by
    intro user' q hq
    obtain ⟨rfl, rfl⟩ | ⟨_, hq⟩ := Accounts.lookup_insert_eq_some hq
    · obtain ⟨hd, hp⟩ := h.absent _ hl
      exact ⟨Nat.zero_le _, Nat.zero_le _, by rw [hd, hp]; rfl⟩
    · exact h.booked user' q hq
  absent := by
    intro user' hq
    exact h.absent user' (Accounts.lookup_insert_eq_none hq).2

lemma Step.slashedOf_le (st : Step P ix d fx d') (user : Pubkey) :
    d.account.slashedOf user ≤ d'.account.slashedOf user := by
  rw [InstanceState.slashedOf_chain st.account]
  exact Nat.le_add_right _ _

lemma tally_finalizedEffects (user : Pubkey) (amount : Nat) (shares : List (RemainingAccount × Nat)) :
    (∀ user', tally (deposit user') (finalizedEffects user amount shares) = 0
      ∧ tally (payout user') (finalizedEffects user amount shares) = if user = user' then amount else 0)
    ∧ tally transferred (finalizedEffects user amount shares) = (shares.map Prod.snd).sum + amount := by
  have hd : ∀ user', tally (deposit user') (shares.map fun x => TreasurerEffect.bounty user x.1 x.2) = 0
      ∧ tally (payout user') (shares.map fun x => TreasurerEffect.bounty user x.1 x.2) = 0 := by
    intro user'
    constructor <;>
    · refine tally_eq_zero fun e he => ?_
      obtain ⟨x, _, rfl⟩ := mem_map.mp he
      rfl
  have ht : tally transferred (shares.map fun x => TreasurerEffect.bounty user x.1 x.2)
      = (shares.map Prod.snd).sum := by
    rw [tally, map_map]
    rfl
  unfold finalizedEffects
  refine ⟨fun user' => ?_, ?_⟩
  · rw [tally_append, tally_append, (hd user').1, (hd user').2]
    by_cases h0 : amount = 0 <;> simp [h0, deposit, payout]
  · rw [tally_append, ht]
    by_cases h0 : amount = 0 <;> simp [h0, transferred]

lemma Booked.finalized {p : Participant} {forfeited payout balance : Nat}
    {shares : List (RemainingAccount × Nat)} (h : Booked log (d.account.slashedOf user) user p)
    (hf : Finalized d user p forfeited payout shares balance d') :
    Booked ((finalizedEffects user payout shares).reverse ++ log) (d.account.slashedOf user) user
      { p with
        bondSettledSlashedPoints := p.bondSettledSlashedPoints + forfeited
        bondAmount := p.bondAmount - forfeited - payout
        bondWithdrawPendingAmount := 0
        bondWithdrawRequestedAt := 0 } := by
  obtain ⟨hdep, hpay⟩ := (tally_finalizedEffects user payout shares).1 user
  have hf1 := hf.forfeits.trans_le (Nat.min_le_left _ _)
  have hf2 := hf.forfeits.trans_le (Nat.min_le_right _ _)
  have hp := hf.pays.trans_le (Nat.min_le_right _ _)
  have hs := h.settled
  refine ⟨Nat.zero_le _, by dsimp only; omega, ?_⟩
  rw [tally_append, tally_append, tally_reverse, tally_reverse, hdep, hpay, if_pos rfl, h.deposits]
  dsimp only
  omega

lemma Step.ledger (st : Step P ix d fx d') (h : Ledger log d) : Ledger (fx.reverse ++ log) d' := by
  have hs := st.slashedOf_le
  cases st with
  | call hc _ =>
    obtain ⟨account, fx', rfl, rfl, _⟩ := callCoordinator_inv hc
    exact h.frame rfl rfl h.bounty hs fun user => neutral_coordinator user fx'
  | @slash _ _ _ key _ hsl =>
    obtain ⟨_, _, _, _, _, _, rfl⟩ := hsl
    exact h.frame rfl rfl h.bounty hs fun user => neutral_coordinator user [.ejected key]
  | receive => exact h.frame rfl rfl h.bounty hs .nil
  | create hl => exact h.create hl
  | @deposit _ user p _ amount hl =>
    refine h.update hl rfl ?_ rfl rfl (fun hb => ?_) fun user' he => ?_
    · dsimp only
      omega
    · refine ⟨hb.pending.trans (Nat.le_add_right _ _), hb.settled, ?_⟩
      have := hb.deposits
      simp [TreasurerEffect.deposit, payout]
      omega
    · simp [Neutral, TreasurerEffect.deposit, payout, Ne.symm he]
  | request hl hle =>
    exact h.update hl rfl (Nat.add_comm _ _) rfl rfl (fun hb => ⟨hle, hb.settled, hb.deposits⟩) fun _ _ => .nil _
  | @finalize _ user p _ _ _ forfeited paid shares balance _ hf _ =>
    have hf2 := hf.forfeits.trans_le (Nat.min_le_right _ _)
    have hp := hf.pays.trans_le (Nat.min_le_right _ _)
    have ht := hf.total
    have heq := hf.eq
    subst heq
    refine h.update hf.participant rfl ?_ rfl rfl (fun hb => hb.finalized hf) fun user' he => ?_
    · dsimp only
      omega
    · obtain ⟨hdep, hpay⟩ := (tally_finalizedEffects user paid shares).1 user'
      exact ⟨hdep, hpay.trans (if_neg (Ne.symm he))⟩
  | @claim _ user p _ points hl _ _ =>
    refine h.update hl rfl (Nat.add_comm _ _) rfl rfl (fun hb => ⟨hb.pending, hb.settled, ?_⟩) fun user' _ => ?_
    · simpa [TreasurerEffect.deposit, payout] using hb.deposits
    · simp [Neutral, TreasurerEffect.deposit, payout]
  | configure hr =>
    refine h.frame rfl (by rw [hr.eq]) ?_ hs .nil
    obtain hb | hb := hr.bounty
    · exact hb.trans_le h.bounty
    · exact hb
  | dispute hd =>
    obtain ⟨hr, hp, _, hfx⟩ := hd.frame
    exact h.frame hp (by rw [hr]) (by rw [hr]; exact h.bounty) hs (neutral_of_dispute hfx)

end Ledger

section Safety
variable {bad : Panic → Prop} {d : Deployment} {log : List TreasurerEffect}

lemma transferOut_safe (recipient : RemainingAccount) (amount : Nat) :
    Exec.Safe bad (d.transferOut recipient amount) :=
  .bind (.require _ _) fun _ _ => .ok _

lemma payVoters_safe (user : Pubkey) (share : Nat) {voters : List Pubkey} {remaining : List RemainingAccount}
    (h : voters.length ≤ remaining.length) : Exec.Safe bad (d.payVoters user share voters remaining) := by
  induction voters generalizing d remaining with
  | nil => exact .ok _
  | cons voter voters ih =>
    cases remaining with
    | nil => simp at h
    | cons recipient remaining =>
      have hlen : voters.length ≤ remaining.length := by simpa using h
      exact .bind (.okOr _ _) fun _ _ => .bind (.require _ _) fun _ _ => .bind (transferOut_safe _ _) fun _ _ =>
        .bind (ih hlen) fun _ _ => .ok _

lemma bountyVoters_safe (user : Pubkey) (appeal : Option AuditVerdict) :
    Exec.Safe bad (d.bountyVoters user appeal) := by
  unfold bountyVoters
  split
  · exact .ok _
  · split
    · exact .bind (.require _ _) fun _ _ => .bind (.require _ _) fun _ _ => .ok _
    · exact .ok _

lemma payBounty_safe (user : Pubkey) (bounty : Nat) (appeal : Option AuditVerdict)
    (remaining : List RemainingAccount) : Exec.Safe bad (d.payBounty user bounty appeal remaining) := by
  unfold payBounty
  split
  · exact .ok _
  · refine .bind (bountyVoters_safe _ _) fun voters _ => ?_
    split
    · exact .bind (.okOr _ _) fun _ _ => .bind (.okOr _ _) fun _ _ => .bind (.require _ _) fun _ _ =>
        .bind (transferOut_safe _ _) fun _ _ => .ok _
    · refine .bind (.require _ _) fun _ hlen => ?_
      dsimp only
      split
      · exact .ok _
      · exact payVoters_safe _ _ (Exec.require_eq_ok.mp hlen)

lemma payOut_safe (user : Pubkey) (userCollateral : TokenAccount) (amount : Nat) :
    Exec.Safe bad (d.payOut user userCollateral amount) := by
  unfold payOut
  split
  · exact .ok _
  · exact .bind (transferOut_safe _ _) fun _ _ => .ok _

lemma appealVerdict_safe (appeal : Option Pubkey) : Exec.Safe bad (d.appealVerdict appeal) := by
  cases appeal with
  | none => exact .ok _
  | some target => exact .bind (.okOr _ _) fun _ _ => .ok _

lemma subU_safe_of_le {a b : Nat} (h : b ≤ a) : Exec.Safe bad (subU a b : Exec TreasurerError Panic Nat) := by
  rw [subU_of_le h]
  exact .ok _

lemma participantBondFinalizeWithdraw_safe (h : Ledger log d) (clock : Clock) (user : Pubkey)
    (userCollateral : TokenAccount) (appeal : Option Pubkey) (remaining : List RemainingAccount)
    (ht : ∀ p, d.participants.lookup user = some p → Exec.Safe bad
      (addI64 p.bondWithdrawRequestedAt p.bondWithdrawDelaySnapshot : Exec TreasurerError Panic Int))
    (hu : ∀ p a b, d.participants.lookup user = some p → a + b ≤ max p.bondAmount (d.account.slashedOf user) →
      Exec.Safe bad (addU 64 a b : Exec TreasurerError Panic Nat)) :
    Exec.Safe bad (d.participantBondFinalizeWithdraw clock user userCollateral appeal remaining) := by
  refine .bind (.require _ _) fun _ _ => .bind (.okOr _ _) fun p hp => ?_
  have hp := participant_eq_ok.mp hp
  have hsettled := (h.booked user p hp).settled
  have hforfeited := Nat.min_le_left (d.account.slashedOf user - p.bondSettledSlashedPoints) p.bondAmount
  refine .bind (appealVerdict_safe _) fun _ _ => .bind (.require _ _) fun _ _ => .bind (ht p hp) fun _ _ =>
    .bind (.require _ _) fun _ _ => .bind (hu p _ _ hp ?_) fun _ _ => ?_
  · refine le_max_of_le_right ?_
    omega
  refine .bind (subU_safe_of_le (Nat.min_le_right _ _)) fun bond hbond => ?_
  refine .bind (subU_safe_of_le (Nat.min_le_right _ _)) fun bond' hbond' => ?_
  obtain ⟨hle1, rfl⟩ := subU_eq_ok.mp hbond
  obtain ⟨hle2, _⟩ := subU_eq_ok.mp hbond'
  refine .bind (hu p _ _ hp (le_max_of_le_left (by omega))) fun leaving hleaving => ?_
  -- what leaves the run is at most the bond, which is part of the total
  have hle : leaving ≤ d.run.totalBondedAmount := by
    obtain ⟨_, rfl⟩ := addU_eq_ok.mp hleaving
    have := Accounts.le_total Participant.bondAmount hp
    rw [h.total]
    omega
  exact .bind (subU_safe_of_le hle) fun _ _ => .bind (payBounty_safe _ _ _ _) fun _ _ =>
    .bind (payOut_safe _ _ _) fun _ _ => .ok _

def Underflow (p : Panic) : Prop := p = .underflow

lemma overflow_not_underflow : ¬ Underflow .overflow := by rintro ⟨⟩

lemma participantBondRequestWithdraw_safe (h : Ledger log d) (clock : Clock) (user : Pubkey) (amount : Nat) :
    Exec.Safe Underflow (d.participantBondRequestWithdraw clock user amount) := by
  refine .bind (.okOr _ _) fun p hp => ?_
  have hle := (h.booked user p (participant_eq_ok.mp hp)).pending
  exact .bind (subU_safe_of_le hle) fun _ _ => .bind (.require _ _) fun _ _ =>
    .bind (addU_safe overflow_not_underflow _ _ _) fun _ _ => .ok _

end Safety

section Runs
variable {P : Platform} {ix : TreasurerInstruction} {d d' : Deployment} {tr : Record}

lemma Ledger.created (address mainAuthority joinAuthority collateralMint : Pubkey) (v : Bytes) :
    Ledger [] (created address mainAuthority joinAuthority collateralMint v) where
  total := rfl
  bounty := Nat.zero_le _
  booked := by rintro _ _ ⟨⟩
  absent := fun _ _ => ⟨rfl, rfl⟩

lemma Ledger.of_run (r : (machine P).Run tr d) : Ledger (log tr) d := by
  refine r.history (P := fun tr d => Ledger (log tr) d) ?_ ?_
  · rintro _ ⟨_, _, _, _, v, rfl⟩
    exact .created _ _ _ _ v
  · intro tr d i d' fx _ h st
    exact (process_inv st).ledger h

lemma Finalized.transferred_le {user : Pubkey} {p : Participant} {forfeited paid balance : Nat}
    {shares : List (RemainingAccount × Nat)} (hb : d.run.slashBountyBps ≤ maxSlashBountyBps)
    (h : Finalized d user p forfeited paid shares balance d') :
    d.runCollateral - d'.runCollateral ≤ tally transferred (finalizedEffects user paid shares)
      ∧ tally transferred (finalizedEffects user paid shares) + d'.run.totalBondedAmount
        ≤ d.run.totalBondedAmount := by
  have hshares : (shares.map Prod.snd).sum ≤ forfeited := by
    refine h.bounty.trans ?_
    split
    · refine Nat.div_le_of_le_mul ?_
      rw [Nat.mul_comm]
      exact Nat.mul_le_mul_right _ hb
    · exact Nat.zero_le _
  have hspent := h.spent
  have ht := h.total
  rw [(tally_finalizedEffects user paid shares).2, h.eq]
  dsimp only
  constructor <;> omega

/-- In every state of every run the bonds add up to the run's total; a participant asks for no more than it has bonded, has
settled no more than it was slashed, and its deposits are bonded, paid back or forfeited; no subtraction of the withdraw
instructions underflows, and no withdrawal moved more tokens than it took off the total. -/
theorem bond_ledger (r : (machine P).Run tr d) :
    d.run.totalBondedAmount = d.participants.total Participant.bondAmount
    ∧ (∀ user p, d.participants.lookup user = some p →
      p.bondWithdrawPendingAmount ≤ p.bondAmount ∧ p.bondSettledSlashedPoints ≤ d.account.slashedOf user
        ∧ tally (deposit user) (log tr)
          = p.bondAmount + tally (payout user) (log tr) + p.bondSettledSlashedPoints)
    ∧ (∀ ev ∈ tr, ∀ user userCollateral appeal remaining,
      ev.input.2 = .participantBondFinalizeWithdraw user userCollateral appeal remaining →
      ev.before.runCollateral - ev.after.runCollateral ≤ tally transferred ev.output
        ∧ tally transferred ev.output + ev.after.run.totalBondedAmount ≤ ev.before.run.totalBondedAmount)
    ∧ (∀ clock user amount, Exec.Safe Underflow (d.participantBondRequestWithdraw clock user amount))
    ∧ (∀ clock user userCollateral appeal remaining, Exec.Safe Underflow
      (d.participantBondFinalizeWithdraw clock user userCollateral appeal remaining)) := by
  have h := Ledger.of_run r
  refine ⟨h.total, fun user p hl => ?_, ?_, participantBondRequestWithdraw_safe h,
    fun clock user userCollateral appeal remaining => ?_⟩
  · have hb := h.booked user p hl
    exact ⟨hb.pending, hb.settled, hb.deposits⟩
  · intro ev hev user userCollateral appeal remaining hin
    obtain ⟨tr', r', st⟩ := r.mem hev
    have st : ev.before.process P ev.input.1 ev.input.2 = .ok (ev.after, ev.output) := st
    rw [hin] at st
    obtain ⟨p, forfeited, paid, shares, balance, hf, _, _, hfx⟩ := participantBondFinalizeWithdraw_inv st
    rw [hfx]
    exact hf.transferred_le (Ledger.of_run r').bounty
  · exact participantBondFinalizeWithdraw_safe h _ _ _ _ _ (fun _ _ => addI64_safe overflow_not_underflow _ _)
      fun _ _ _ _ _ => addU_safe overflow_not_underflow _ _ _

/-- Of two clients the second, which has bonded 50, is slashed and the first finishes the epoch; the second takes back what
is left. -/
def forfeiture : List (Clock × TreasurerInstruction) :=
  epoch ++ [(⟨45, 1⟩, .participantBondRequestWithdraw 2 50),
    (⟨45, 1⟩, .participantBondFinalizeWithdraw 2 (wallet 2) none [])]

/-- Of a bond of 50 the participant gets 20 back, and nothing stays bonded. -/
theorem bond_ledger_forfeiture :
    tally (deposit 2) (log (runOf forfeiture).1) = 50 ∧ tally (payout 2) (log (runOf forfeiture).1) = 20
      ∧ (runOf forfeiture).2.run.totalBondedAmount = 0
      ∧ (runOf forfeiture).2.participants.total Participant.bondAmount = 0 := by
  have h0 : (runOf forfeiture).2.run.totalBondedAmount = 0 := by decide +kernel
  exact ⟨by decide +kernel, by decide +kernel, h0, (bond_ledger (runOf_run forfeiture)).1.symm.trans h0⟩

/-- The run's token account holds what is bonded. -/
def Backed (d : Deployment) : Prop := d.run.totalBondedAmount ≤ d.runCollateral

def claimPoints : TreasurerInstruction → Option Nat
  | .participantClaim _ _ points => some points
  | _ => none

/-- An instruction that claims no more than the run holds on top of the bonds. -/
def ClaimCovered (ix : TreasurerInstruction) (d : Deployment) : Prop :=
  ∀ points ∈ claimPoints ix, d.run.totalBondedAmount + points ≤ d.runCollateral

instance (ix : TreasurerInstruction) (d : Deployment) : Decidable (ClaimCovered ix d) :=
  inferInstanceAs (Decidable (∀ points ∈ claimPoints ix, _))

lemma Step.backed {fx log : List TreasurerEffect} (st : Step P ix d fx d') (h : Ledger log d)
    (hc : ClaimCovered ix d) (hb : Backed d) : Backed d' := by
  cases st with
  | call hcall _ =>
    obtain ⟨_, _, rfl, _, _⟩ := callCoordinator_inv hcall
    exact hb
  | slash hsl =>
    obtain ⟨_, _, _, _, _, _, rfl⟩ := hsl
    exact hb
  | receive => exact hb.trans (Nat.le_add_right _ _)
  | create _ => exact hb
  | deposit _ => exact Nat.add_le_add_right hb _
  | request _ _ => exact hb
  | finalize hf _ =>
    obtain ⟨hspent, htotal⟩ := hf.transferred_le h.bounty
    have hle := hf.balance_le
    have hbal : d'.runCollateral ≤ d.runCollateral := by rw [hf.eq]; exact hle
    unfold Backed at hb ⊢
    omega
  | @claim _ user p _ points _ _ _ =>
    have := hc points rfl
    unfold Backed
    dsimp only
    omega
  | configure hr =>
    have : d.run.totalBondedAmount ≤ d.runCollateral := hb
    unfold Backed
    dsimp only
    rw [hr.eq]
    exact this
  | dispute hd =>
    obtain ⟨hr, _, hcoll, _⟩ := hd.frame
    rw [Backed, hr, hcoll]
    exact hb

/-- In every run that claims no more at any time than it holds on top of the bonds, the bonds are backed in
every state. -/
theorem bonds_backed (r : (machine P).Run tr d) (hc : ∀ ev ∈ tr, ClaimCovered ev.input.2 ev.before) :
    d.run.totalBondedAmount ≤ d.runCollateral := by
  refine r.history (P := fun tr d => (∀ ev ∈ tr, ClaimCovered ev.input.2 ev.before) → Backed d) ?_ ?_ hc
  · rintro _ ⟨_, _, _, _, _, rfl⟩ _
    exact Nat.zero_le _
  · intro tr d i d' fx r ih st hc
    exact (process_inv st).backed (Ledger.of_run r) (hc ⟨d, i, fx, d'⟩ mem_cons_self)
      (ih fun ev hev => hc ev (mem_cons_of_mem _ hev))

/-- A claim after the run has received rewards to pay out. -/
def fundedClaim : List (Clock × TreasurerInstruction) :=
  epoch ++ [(⟨45, 1⟩, .receive 100), (⟨45, 1⟩, .participantClaim 1 (wallet 1) 100)]

/-- Once 100 have been claimed, the collateral still covers the bonds. -/
theorem bonds_backed_fundedClaim :
    (runOf fundedClaim).2.run.totalClaimedCollateralAmount = 100
      ∧ (runOf fundedClaim).2.run.totalBondedAmount ≤ (runOf fundedClaim).2.runCollateral :=
  ⟨by decide +kernel, bonds_backed (runOf_run fundedClaim) (by decide +kernel)⟩

/-- The same claim without the rewards. -/
def unfundedClaim : List (Clock × TreasurerInstruction) :=
  epoch ++ [(⟨45, 1⟩, .participantClaim 1 (wallet 1) 20)]

/-- The claim of the first participant is paid from the bond of the second. -/
theorem claim_spends_bond :
    (machine .zero).Run (runOf unfundedClaim).1 (runOf unfundedClaim).2
      ∧ (runOf unfundedClaim).2.run.totalBondedAmount = 50 ∧ (runOf unfundedClaim).2.runCollateral = 30 :=
  ⟨runOf_run _, by decide +kernel, by decide +kernel⟩

end Runs
end Deployment
end Leviathan
