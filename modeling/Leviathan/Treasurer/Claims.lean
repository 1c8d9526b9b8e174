import Leviathan.Treasurer.Ledger
import Leviathan.Instance.Rewards

/-!
# The reward ledger

What participants have claimed (`solana-treasurer/src/logic/participant_claim.rs`) against what the
coordinator program has paid into their records. `Claimed` is the invariant: nobody has claimed more than it
has earned, and the run's totals are the sums over its participants. The payments of an epoch are at
most what it has to share (`InstanceStep.totalEarned`).
-/

namespace Leviathan
open List

def TreasurerEffect.claimAmount : TreasurerEffect → Option Nat
  | .claimed _ amount => some amount
  | _ => none

def TreasurerEffect.reward (e : TreasurerEffect) : Nat := e.claimAmount.getD 0

lemma tally_reward_eq_zero {fx : List TreasurerEffect} (h : ∀ e ∈ fx, e.claimAmount = none) :
    tally TreasurerEffect.reward fx = 0 :=
  tally_eq_zero fun e he => by rw [TreasurerEffect.reward, h e he]; rfl

lemma claimAmount_of_isDispute {e : TreasurerEffect} (h : e.isDispute = true) : e.claimAmount = none := by
  cases e with
  | claimed _ _ => cases h
  | _ => rfl

section Payments

lemma sum_shares_le {keys listed : List Pubkey} (hk : keys.Nodup) (share : Nat) :
    (keys.map fun p => if p ∈ listed then share else 0).sum ≤ listed.length * share := by
  have hsum : (keys.map fun p => if p ∈ listed then share else 0).sum
      = (keys.filter fun p => p ∈ listed).length * share := by
    induction keys with
    | nil => simp
    | cons k keys ih =>
      rw [map_cons, sum_cons, ih (nodup_cons.mp hk).2, filter_cons]
      by_cases h : k ∈ listed
      · simp [h, Nat.add_mul, Nat.add_comm]
      · simp [h]
  rw [hsum]
  refine Nat.mul_le_mul_right _ (subperm_of_subset (hk.filter _) fun p hp => ?_).length_le
  simpa using (mem_filter.mp hp).2

lemma sum_payments_le {keys : List Pubkey} (hk : keys.Nodup) (fx : List InstanceEffect) :
    (keys.map fun p => tally (InstanceEffect.payment p) fx).sum ≤ tally InstanceEffect.paid fx := by
  induction fx with
  | nil => simp
  | cons e fx ih =>
    have he : (keys.map fun p => InstanceEffect.payment p e).sum ≤ e.paid := by
      cases e with
      | ejected q => simp [InstanceEffect.payment]
      | settled st => exact sum_shares_le hk _
    simp only [tally_cons, sum_map_add]
    exact Nat.add_le_add he ih

end Payments

namespace Deployment
open TreasurerEffect

/-- What has been claimed from a run. -/
structure Claimed (log : List TreasurerEffect) (d : Deployment) : Prop where
  points : ∀ user p, d.participants.lookup user = some p → p.claimedEarnedPoints ≤ d.account.earnedOf user
  totalCollateral : d.run.totalClaimedCollateralAmount = d.participants.total Participant.claimedCollateralAmount
  totalPoints : d.run.totalClaimedEarnedPoints = d.participants.total Participant.claimedEarnedPoints
  paid : tally reward log = d.run.totalClaimedEarnedPoints

section Claimed
variable {P : Platform} {ix : TreasurerInstruction} {d d' : Deployment} {fx log : List TreasurerEffect}

lemma Step.earnedOf_le (st : Step P ix d fx d') (user : Pubkey) :
    d.account.earnedOf user ≤ d'.account.earnedOf user := by
  rw [InstanceState.earnedOf_chain st.account]
  exact Nat.le_add_right _ _

lemma Claimed.frame (h : Claimed log d) (hp : d'.participants = d.participants)
    (hc : d'.run.totalClaimedCollateralAmount = d.run.totalClaimedCollateralAmount)
    (he : d'.run.totalClaimedEarnedPoints = d.run.totalClaimedEarnedPoints)
    (hs : ∀ user, d.account.earnedOf user ≤ d'.account.earnedOf user) (hfx : tally reward fx = 0) :
    Claimed (fx.reverse ++ log) d' where
  points := fun user p hl => (h.points user p (hp ▸ hl)).trans (hs user)
  totalCollateral := by rw [hc, hp, h.totalCollateral]
  totalPoints := by rw [he, hp, h.totalPoints]
  paid := by rw [tally_append, tally_reverse, hfx, Nat.zero_add, he, h.paid]

lemma Claimed.update {user : Pubkey} {p p' : Participant} (h : Claimed log d)
    (hl : d.participants.lookup user = some p) (hp : d'.participants = d.participants.insert user p')
    {amount : Nat} (hpc : p'.claimedCollateralAmount = p.claimedCollateralAmount + amount)
    (hpe : p'.claimedEarnedPoints = p.claimedEarnedPoints + amount)
    (hc : d'.run.totalClaimedCollateralAmount = d.run.totalClaimedCollateralAmount + amount)
    (he : d'.run.totalClaimedEarnedPoints = d.run.totalClaimedEarnedPoints + amount)
    (ha : d'.account = d.account) (hle : p.claimedEarnedPoints + amount ≤ d.account.earnedOf user)
    (hfx : tally reward fx = amount) : Claimed (fx.reverse ++ log) d' where
  points := by
    intro user' q hq
    rw [hp] at hq
    rw [ha]
    obtain ⟨rfl, rfl⟩ | ⟨_, hq⟩ := Accounts.lookup_insert_eq_some hq
    · exact hpe.trans_le hle
    · exact h.points user' q hq
  totalCollateral := by
    have := Accounts.total_insert (a := p') Participant.claimedCollateralAmount hl
    have := h.totalCollateral
    rw [hp]
    omega
  totalPoints := by
    have := Accounts.total_insert (a := p') Participant.claimedEarnedPoints hl
    have := h.totalPoints
    rw [hp]
    omega
  paid := by
    rw [tally_append, tally_reverse, hfx, he, h.paid, Nat.add_comm]

lemma Claimed.create {user : Pubkey} (h : Claimed log d) (hl : d.participants.lookup user = none) :
    Claimed log (d.setParticipant user .new) where
  points := by
    intro user' q hq
    obtain ⟨_, rfl⟩ | ⟨_, hq⟩ := Accounts.lookup_insert_eq_some hq
    · exact Nat.zero_le _
    · exact h.points user' q hq
  totalCollateral := by
    rw [setParticipant, Accounts.total_insert_new _ hl, ← h.totalCollateral]
    exact (Nat.zero_add _).symm
  totalPoints := by
    rw [setParticipant, Accounts.total_insert_new _ hl, ← h.totalPoints]
    exact (Nat.zero_add _).symm
  paid := h.paid

/-- Every instruction keeps the books of the claims. -/
lemma Step.claimed (st : Step P ix d fx d') (h : Claimed log d) : Claimed (fx.reverse ++ log) d' := by
  have hs := st.earnedOf_le
  cases st with
  | call hc _ =>
    obtain ⟨account, fx', rfl, rfl, _⟩ := callCoordinator_inv hc
    exact h.frame rfl rfl rfl hs (tally_reward_eq_zero (by simp [claimAmount]))
  | @slash _ _ _ key _ hsl =>
    obtain ⟨_, _, _, _, _, _, rfl⟩ := hsl
    exact h.frame rfl rfl rfl hs rfl
  | receive => exact h.frame rfl rfl rfl hs rfl
  | create hl => exact h.create hl
  | deposit hl | request hl _ => exact h.update hl rfl rfl rfl rfl rfl rfl (h.points _ _ hl) rfl
  | @finalize _ user p _ _ _ forfeited paid shares balance _ hf _ =>
    have heq := hf.eq
    subst heq
    refine h.update hf.participant rfl rfl rfl rfl rfl rfl (h.points _ _ hf.participant) (tally_reward_eq_zero ?_)
    intro e he
    obtain he | he := mem_append.mp he
    · obtain ⟨x, _, rfl⟩ := mem_map.mp he
      rfl
    · split at he
      · cases he
      · obtain rfl := mem_singleton.mp he
        rfl
  | claim hl hle _ => exact h.update hl rfl rfl rfl rfl rfl rfl hle rfl
  | configure hr => exact h.frame rfl (by rw [hr.eq]) (by rw [hr.eq]) hs rfl
  | dispute hd =>
    obtain ⟨hr, hp, _, hfx⟩ := hd.frame
    refine h.frame hp (by rw [hr]) (by rw [hr]) hs (tally_reward_eq_zero fun e he => ?_)
    obtain hm | ⟨key, rfl⟩ := hfx e he
    · exact claimAmount_of_isDispute hm
    · rfl

lemma Step.totalEarned_le (st : Step P ix d fx d') (h : InstanceState.Sound d.account) :
    d'.account.totalEarned ≤ d.account.totalEarned + tally InstanceEffect.budget (instanceEffects fx) := by
  have h0 : InstanceState.Sound d.account
      ∧ d.account.totalEarned ≤ d.account.totalEarned + tally InstanceEffect.budget [] := ⟨h, Nat.le_refl _⟩
  have hstep := Chain.history (P := fun log s => InstanceState.Sound s
    ∧ s.totalEarned ≤ d.account.totalEarned + tally InstanceEffect.budget log) ?_ h0 st.account
  · simpa using hstep.2
  · rintro log s fx s' ⟨hs, hle⟩ st
    obtain ⟨htotal, hpaid⟩ := st.totalEarned hs
    have := tally_le hpaid
    rw [tally_append, tally_reverse, htotal]
    exact ⟨st.sound hs, by omega⟩

end Claimed

section Runs
variable {P : Platform} {d : Deployment} {tr : Record}

lemma Claimed.of_run (r : (machine P).Run tr d) : Claimed (log tr) d := by
  refine r.history (P := fun tr d => Claimed (log tr) d) ?_ ?_
  · rintro _ ⟨_, _, _, _, v, rfl⟩
    exact ⟨by rintro _ _ ⟨⟩, rfl, rfl, rfl⟩
  · intro tr d i d' fx _ h st
    exact (process_inv st).claimed h

lemma participantClaim_safe {log : List TreasurerEffect} (h : Claimed log d) (user : Pubkey)
    (userCollateral : TokenAccount) (points : Nat) :
    Exec.Safe Underflow (d.participantClaim user userCollateral points) := by
  refine .bind (.require _ _) fun _ _ => .bind (.okOr _ _) fun p hp => .bind (.require _ _) fun _ _ => ?_
  have hle := h.points user p (participant_eq_ok.mp hp)
  refine .bind (subU_safe_of_le hle) fun _ _ => .bind (.require _ _) fun _ _ =>
    .bind (addU_safe overflow_not_underflow _ _ _) fun _ _ =>
    .bind (addU_safe overflow_not_underflow _ _ _) fun _ _ =>
    .bind (addU_safe overflow_not_underflow _ _ _) fun _ _ =>
    .bind (addU_safe overflow_not_underflow _ _ _) fun _ _ => .bind ?_ fun _ _ => .ok _
  exact .bind (.require _ _) fun _ _ => .ok _

lemma earnedOf_of_run (r : (machine P).Run tr d) (user : Pubkey) :
    d.account.earnedOf user = tally (InstanceEffect.payment user) (instanceEffects (log tr)) := by
  refine (account_history r (Q := fun log s => s.earnedOf user = tally (InstanceEffect.payment user) log) ?_ ?_).2
  · intro v
    rfl
  · intro log s fx s' _ h st
    rw [tally_append, tally_reverse, st.earnedOf, h, Nat.add_comm]

lemma paid_le_budget_of_run (r : (machine P).Run tr d) :
    ∀ e ∈ instanceEffects (log tr), e.paid ≤ e.budget := by
  refine (account_history r (Q := fun log _ => ∀ e ∈ log, e.paid ≤ e.budget) ?_ ?_).2
  · rintro _ _ ⟨⟩
  · intro log s fx s' hs h st e he
    obtain he | he := mem_append.mp he
    · exact (st.totalEarned hs).2 e (mem_reverse.mp he)
    · exact h e he

/-- In every state of every run nobody has claimed more than it has earned, so claiming does not underflow; the run's totals
are the sums over its participants; the end of an epoch pays at most what the epoch has to share; and all claims together
are at most what the ended epochs had to share. -/
theorem reward_ledger (r : (machine P).Run tr d) :
    (∀ user p, d.participants.lookup user = some p → p.claimedEarnedPoints ≤ d.account.earnedOf user)
    ∧ (∀ user userCollateral points, Exec.Safe Underflow (d.participantClaim user userCollateral points))
    ∧ d.run.totalClaimedCollateralAmount = d.participants.total Participant.claimedCollateralAmount
    ∧ d.run.totalClaimedEarnedPoints = d.participants.total Participant.claimedEarnedPoints
    ∧ (∀ clock s fx, d.account.tick P clock = .ok (s, fx) → s.totalEarned
      ≤ d.account.totalEarned + d.account.clientsState.currentEpochRates.earningRateTotalShared)
    ∧ (∀ ev ∈ tr, ev.after.account.totalEarned
      ≤ ev.before.account.totalEarned + tally InstanceEffect.budget (instanceEffects ev.output))
    ∧ tally reward (log tr) ≤ tally InstanceEffect.budget (instanceEffects (log tr)) := by
  have h := Claimed.of_run r
  refine ⟨h.points, participantClaim_safe h, h.totalCollateral, h.totalPoints,
    fun _ _ _ ht => InstanceState.tick_totalEarned_le (sound_of_run r) ht, fun ev hev => ?_, ?_⟩
  · obtain ⟨_, r', st⟩ := r.mem hev
    exact (process_inv st).totalEarned_le (sound_of_run r')
  calc tally reward (log tr) = d.participants.total Participant.claimedEarnedPoints := by
        rw [h.paid, h.totalPoints]
    _ ≤ (d.participants.keys.map d.account.earnedOf).sum := Accounts.total_le_sum h.points
    _ = (d.participants.keys.map fun p => tally (InstanceEffect.payment p) (instanceEffects (log tr))).sum := by
        rw [funext (earnedOf_of_run r)]
    _ ≤ tally InstanceEffect.paid (instanceEffects (log tr)) := sum_payments_le d.participants.keys_nodup _
    _ ≤ tally InstanceEffect.budget (instanceEffects (log tr)) := tally_le (paid_le_budget_of_run r)

/-- The first participant claims a part of what it has earned. -/
def partialClaim : List (Clock × TreasurerInstruction) :=
  epoch ++ [(⟨45, 1⟩, .receive 100), (⟨45, 1⟩, .participantClaim 1 (wallet 1) 60)]

/-- Of the 100 that the epoch pays out, 60 have been claimed. -/
theorem reward_ledger_partialClaim :
    tally reward (log (runOf partialClaim).1) = 60
      ∧ tally InstanceEffect.budget (instanceEffects (log (runOf partialClaim).1)) = 100
      ∧ (runOf partialClaim).2.run.totalClaimedEarnedPoints
        = (runOf partialClaim).2.participants.total Participant.claimedEarnedPoints :=
  ⟨by decide +kernel, by decide +kernel, (reward_ledger (runOf_run partialClaim)).2.2.2.1⟩

end Runs
end Deployment
end Leviathan
