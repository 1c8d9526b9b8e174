import Leviathan.Instance.Conviction

/-!
# Rewards

What the end of an epoch pays (in Rust `CoordinatorInstanceState::tick`). The settlement credits the clients that are
healthy in the coordinator that `tick` leaves behind, which depends on how the epoch ended (`finishers_of_epochEnd`):
those that were healthy before, also when the warmup was aborted, and nobody when a pause was pending, since pausing
withdraws everyone first.
-/

namespace Leviathan
open Exec List

/-- What an effect pays to all keys together. -/
def InstanceEffect.paid : InstanceEffect → Nat
  | .ejected _ => 0
  | .settled st => st.credited.length * st.earnedShare

/-- What an effect may pay to all keys together. -/
def InstanceEffect.budget : InstanceEffect → Nat
  | .ejected _ => 0
  | .settled st => st.earningRate

namespace InstanceState
open CoordinatorEpochState Coordinator

/-- The keys of the present clients that are healthy. -/
def finishers (c : Coordinator) : List Pubkey :=
  (c.epochState.clients.toList.filter fun x => x.state == .healthy).map Client.signer

def totalEarned (s : InstanceState) : Nat := (s.clientsState.clients.toList.map SolanaClient.earned).sum

section Settlement
variable {P : Platform} {s s' : InstanceState} {c : Coordinator} {now seed : Nat} {success : Bool}

lemma mem_finishers {p : Pubkey} : p ∈ finishers c ↔
    ∃ x ∈ c.epochState.clients.toList, x.signer = p ∧ x.state = .healthy := by
  simp only [finishers, mem_map, mem_filter, beq_iff_eq]
  constructor
  · rintro ⟨x, ⟨hx, hh⟩, rfl⟩
    exact ⟨x, hx, rfl, hh⟩
  · rintro ⟨x, hx, rfl, hh⟩
    exact ⟨x, ⟨hx, hh⟩, rfl⟩

lemma earnedShare_eq (rates : ClientsEpochRates) :
    earnedShare c rates = rates.earningRateTotalShared / c.epochState.clients.len := by
  unfold earnedShare
  split
  · rename_i h
    rw [h, Nat.div_zero]
  · rfl

lemma finishers_of_epochEnd (h : Sound s)
    (st : s.coordinator.TickStep P s.pendingIds now seed c (.epochEnd success)) :
    c.epochState.clients.len = (finishers s.coordinator).length
      ∧ finishers c = if success && s.coordinator.pendingPause then [] else finishers s.coordinator := by
  obtain ⟨_, e, hc, _, hend⟩ := epochEnd_inv h.warm st
  have hlen : e.clients.len = (finishers s.coordinator).length := by
    rw [finishers, length_map, ← hc.clients]
    rfl
  have hall : (e.clients.toList.filter fun x => x.state == .healthy) = e.clients.toList :=
    filter_eq_self.mpr fun x hx => by simp [hc.healthy x hx]
  have hkeep : c.epochState.clients = e.clients → finishers c = finishers s.coordinator := by
    intro hcl
    rw [finishers, hcl, hall, hc.clients]
    rfl
  obtain ⟨rfl, _, hcl, _⟩ | ⟨rfl, _, _, hcl⟩ := hend
  · exact ⟨by rw [hcl, hlen], by simpa using hkeep hcl⟩
  · cases hp : s.coordinator.pendingPause with
    | false =>
      simp only [hp, Bool.false_eq_true, if_false] at hcl
      exact ⟨by rw [hcl, hlen], by simpa using hkeep hcl⟩
    | true =>
      simp only [hp, if_true] at hcl
      refine ⟨?_, ?_⟩
      · rw [hcl, ← hlen]
        simp [FixedVec.len]
      · simp only [finishers, hcl, Bool.and_self, if_true, map_eq_nil_iff, filter_eq_nil_iff]
        intro x hx
        simp only [FixedVec.map_toList, mem_map] at hx
        obtain ⟨y, hy, rfl⟩ := hx
        simp [Client.withdrawn, hc.healthy y hy]

lemma settlement_credited (h : Sound s)
    (st : s.coordinator.TickStep P s.pendingIds now seed c (.epochEnd success)) :
    ((s.ticking c).settlement success).credited.Nodup
      ∧ ∀ p, p ∈ ((s.ticking c).settlement success).credited ↔ p ∈ finishers c := by
  refine ⟨?_, fun p => ?_⟩
  · refine List.Nodup.sublist ?_ h.records
    simp only [settlement, recordKeys, clientsState_ticking]
    exact filter_sublist.map _
  · rw [mem_finishers]
    simp only [settlement, clientsState_ticking, mem_map, mem_filter, credited_iff]
    constructor
    · rintro ⟨r, ⟨_, x, hx, hsig, hst⟩, rfl⟩
      exact ⟨x, hx, hsig, hst⟩
    · rintro ⟨x, hx, rfl, hst⟩
      obtain ⟨r, hr, hrx⟩ := mem_map.mp (h.entry_mem_tick st (mem_append_left _ hx))
      exact ⟨r, ⟨hr, x, hx, hrx.symm, hst⟩, hrx⟩

lemma settlement_paid_le (h : Sound s)
    (st : s.coordinator.TickStep P s.pendingIds now seed c (.epochEnd success)) :
    (InstanceEffect.settled ((s.ticking c).settlement success)).paid
      ≤ (InstanceEffect.settled ((s.ticking c).settlement success)).budget := by
  obtain ⟨hn, hcred⟩ := settlement_credited h st
  obtain ⟨hlen, hfin⟩ := finishers_of_epochEnd h st
  have hle : ((s.ticking c).settlement success).credited.length ≤ c.epochState.clients.len := by
    rw [hlen]
    refine (subperm_of_subset hn fun p hp => ?_).length_le
    have := (hcred p).mp hp
    rw [hfin] at this
    split at this
    · cases this
    · exact this
  change _ * earnedShare c _ ≤ _
  rw [earnedShare_eq]
  exact (Nat.mul_le_mul_right _ hle).trans (Nat.mul_div_le _ _)

end Settlement

section Totals
variable {P : Platform} {s s' : InstanceState} {fx : List InstanceEffect}

lemma totalEarned_settled (success : Bool) :
    s.settled.totalEarned = s.totalEarned + (InstanceEffect.settled (s.settlement success)).paid := by
  simp only [totalEarned, settled, FixedVec.map_toList, map_map, InstanceEffect.paid, settlement, length_map]
  induction s.clientsState.clients.toList with
  | nil => simp
  | cons r l ih =>
    simp only [map_cons, sum_cons, ih, Function.comp_apply, filter_cons, settleClient]
    cases credited s.coordinator r
    · simp; omega
    · simp [Nat.add_mul]; omega

/-- Each step raises the total of what was earned by what its settlements pay, which is at most what the
epochs that ended had to share. -/
lemma InstanceStep.totalEarned (h : Sound s) (st : InstanceStep P s fx s') :
    s'.totalEarned = s.totalEarned + tally InstanceEffect.paid fx ∧ ∀ e ∈ fx, e.paid ≤ e.budget := by
  obtain ⟨_, c, success, ht, rfl, rfl⟩ | ⟨h0, hs⟩ := st.records
  · refine ⟨?_, by simpa using settlement_paid_le h ht⟩
    rw [totalEarned_settled success, InstanceState.totalEarned, clientsState_ticking]
    simp [InstanceState.totalEarned]
  · rw [tally_of_ejections (fun _ => rfl) h0]
    refine ⟨?_, fun e he => ?_⟩
    · unfold InstanceState.totalEarned
      obtain hs | ⟨id, cs, hr, rfl⟩ := hs
      · rw [hs, Nat.add_zero]
      · obtain ⟨index, r, hi, hk, rfl⟩ | ⟨hnew, clients, hcl, rfl⟩ := register_inv hr
        · simp only [FixedVec.modify_toList, Nat.add_zero]
          exact congrArg List.sum (map_modify_eq fun _ _ => rfl)
        · simp [hcl]
    · cases e with
      | ejected q => exact le_rfl
      | settled st => cases h0 _ he

lemma tick_totalEarned_le (h : Sound s) {clock : Clock} (ht : s.tick P clock = .ok (s', fx)) :
    s'.totalEarned ≤ s.totalEarned + s.clientsState.currentEpochRates.earningRateTotalShared := by
  obtain ⟨htotal, hle⟩ := (tick_inv ht).totalEarned h
  have hbudget : tally InstanceEffect.budget fx ≤ s.clientsState.currentEpochRates.earningRateTotalShared := by
    simp only [tick, bind_eq_ok, mapErr_eq_ok] at ht
    obtain ⟨⟨c, r⟩, _, ht⟩ := ht
    cases r with
    | ticked =>
      simp only [bind_eq_ok, ok_pair] at ht
      obtain ⟨_, _, _, rfl⟩ := ht
      exact Nat.zero_le _
    | epochEnd success =>
      obtain ⟨_, rfl⟩ := settle_inv ht
      change (s.ticking c).clientsState.currentEpochRates.earningRateTotalShared ≤ _
      rw [clientsState_ticking]
  rw [htotal]
  exact Nat.add_le_add_left ((tally_le hle).trans hbudget) _

end Totals

section Rewards
variable {P : Platform} {s s' : InstanceState} {clock : Clock} {st : Settlement}

lemma success_iff_cooldown {c : Coordinator} {now seed : Nat} {success : Bool} (h : Sound s)
    (hst : s.coordinator.TickStep P s.pendingIds now seed c (.epochEnd success)) :
    success = true ↔ s.coordinator.runState = .cooldown := by
  obtain ⟨_, _, _, _, ⟨rfl, hs, _⟩ | ⟨rfl, hs, _⟩⟩ := epochEnd_inv h.warm hst <;> simp [hs]

/-- The clients that finished a successful epoch share its reward equally, and nobody else gets anything. -/
structure RewardsFollowWork (s : InstanceState) (st : Settlement) (s' : InstanceState) : Prop where
  credited : ∀ p, p ∈ st.credited ↔ st.success = true ∧ p ∈ finishers s.coordinator
  earned : ∀ p, s'.earnedOf p = s.earnedOf p + if p ∈ st.credited then
    s.clientsState.currentEpochRates.earningRateTotalShared / (finishers s.coordinator).length else 0

/-- In every state that the instructions lead to, a tick that ends an epoch rewards as it should exactly if
the epoch had come to its cooldown and no pause was pending, or there was nobody to reward. -/
theorem rewards_follow_work_iff (hr : Reachable P s) (ht : s.tick P clock = .ok (s', [.settled st])) :
    RewardsFollowWork s st s' ↔
      (s.coordinator.runState = .cooldown ∧ s.coordinator.pendingPause = false)
        ∨ finishers s.coordinator = [] := by
  have h := hr.sound
  have hstep := tick_inv ht
  have hearned := fun p => hstep.earnedOf (p := p)
  cases hstep with
  | @settle _ c success hst =>
    obtain ⟨_, hcred⟩ := settlement_credited h hst
    obtain ⟨hlen, hfin⟩ := finishers_of_epochEnd h hst
    have hshare : ((s.ticking c).settlement success).earnedShare
        = s.clientsState.currentEpochRates.earningRateTotalShared / (finishers s.coordinator).length := by
      change earnedShare c (s.ticking c).clientsState.currentEpochRates = _
      rw [earnedShare_eq, hlen, clientsState_ticking]
    -- the amounts are right in any case, so that only the credited keys matter
    have hkeys : (∀ p, p ∈ finishers c ↔ success = true ∧ p ∈ finishers s.coordinator) ↔
        (s.coordinator.runState = .cooldown ∧ s.coordinator.pendingPause = false)
          ∨ finishers s.coordinator = [] := by
      rw [← success_iff_cooldown h hst, hfin, eq_nil_iff_forall_not_mem]
      cases success <;> cases s.coordinator.pendingPause <;> simp
    refine Iff.trans ⟨fun hw p => ?_, fun hw => ⟨fun p => ?_, fun p => ?_⟩⟩ hkeys
    · rw [← hcred]
      exact hw.credited p
    · rw [hcred]
      exact hw p
    · rw [hearned p, tally_cons, tally_nil, Nat.add_zero, InstanceEffect.payment, hshare]

def settlementOf : Exec InstanceError Panic (InstanceState × List InstanceEffect) → Option Settlement
  | .ok (_, [.settled st]) => some st
  | _ => none

lemma settlementOf_eq_some (x : Exec InstanceError Panic (InstanceState × List InstanceEffect)) (st : Settlement)
    (h : settlementOf x = some st) : ∃ s', x = .ok (s', [.settled st]) := by
  unfold settlementOf at h
  split at h
  · cases h
    exact ⟨_, rfl⟩
  · cases h

/-- One of two clients is slashed during the first round, so that the other one finishes the epoch alone. -/
def finishedAlone : InstanceState := (runOf (opening ++
  [(⟨5, 1⟩, .joinRun 1 ⟨1, 0⟩), (⟨5, 1⟩, .joinRun 2 ⟨2, 0⟩), (⟨15, 1⟩, .tick),
    (⟨16, 1⟩, .witness 1 ⟨⟨0, 0, true⟩, .empty, .empty, 0⟩), (⟨16, 1⟩, .slash 1), (⟨25, 1⟩, .tick),
    (⟨35, 1⟩, .tick)])).2

/-- The client that finished alone is rewarded, and the ejected one is charged. -/
theorem rewards_follow_work_alone : ∃ s',
    finishedAlone.tick .zero ⟨45, 1⟩ = .ok (s', [.settled ⟨true, 100, 100, 30, [1], [2]⟩])
      ∧ RewardsFollowWork finishedAlone ⟨true, 100, 100, 30, [1], [2]⟩ s' := by
  obtain ⟨s', ht⟩ := settlementOf_eq_some (finishedAlone.tick .zero ⟨45, 1⟩)
    ⟨true, 100, 100, 30, [1], [2]⟩ (by decide +kernel)
  exact ⟨s', ht, (rewards_follow_work_iff (reachable_of_run (runOf_run _)) ht).mpr
    (.inl ⟨rfl, by decide +kernel⟩)⟩

/-- A warmup in which one of two clients has been slashed. -/
def aboutToAbort : InstanceState := (runOf slashedInWarmup).2

/-- Two clients have finished an epoch during which a pause was asked for. -/
def aboutToPause : InstanceState := (runOf (opening ++
  [(⟨5, 1⟩, .joinRun 1 ⟨1, 0⟩), (⟨5, 1⟩, .joinRun 2 ⟨2, 0⟩), (⟨15, 1⟩, .tick), (⟨15, 1⟩, .setPaused true),
    (⟨16, 1⟩, .witness 1 ⟨⟨0, 0, true⟩, .empty, .empty, 0⟩),
    (⟨16, 1⟩, .witness 2 ⟨⟨1, 1, true⟩, .empty, .empty, 0⟩), (⟨26, 1⟩, .tick)])).2

/-- The end of an aborted warmup pays the client that is left, and the end of an epoch with a pending pause
pays none of those that finished it. -/
theorem rewards_not_for_work :
    (Reachable .zero aboutToAbort ∧ ∃ s',
      aboutToAbort.tick .zero ⟨6, 1⟩ = .ok (s', [.settled ⟨false, 100, 100, 30, [2], [1]⟩])
        ∧ ¬ RewardsFollowWork aboutToAbort ⟨false, 100, 100, 30, [2], [1]⟩ s')
    ∧ (Reachable .zero aboutToPause ∧ finishers aboutToPause.coordinator = [1, 2] ∧ ∃ s',
      aboutToPause.tick .zero ⟨36, 1⟩ = .ok (s', [.settled ⟨true, 100, 50, 30, [], []⟩])
        ∧ ¬ RewardsFollowWork aboutToPause ⟨true, 100, 50, 30, [], []⟩ s') := by
  refine ⟨⟨reachable_of_run (runOf_run _), ?_⟩, reachable_of_run (runOf_run _), by decide +kernel, ?_⟩
  · obtain ⟨s', ht⟩ := settlementOf_eq_some (aboutToAbort.tick .zero ⟨6, 1⟩)
      ⟨false, 100, 100, 30, [2], [1]⟩ (by decide +kernel)
    exact ⟨s', ht, fun h => by simpa using (h.credited 2).mp (by simp)⟩
  · obtain ⟨s', ht⟩ := settlementOf_eq_some (aboutToPause.tick .zero ⟨36, 1⟩)
      ⟨true, 100, 50, 30, [], []⟩ (by decide +kernel)
    have hfin : (1 : Pubkey) ∈ finishers aboutToPause.coordinator := by decide +kernel
    exact ⟨s', ht, fun h => (by cases (h.credited 1).mpr ⟨rfl, hfin⟩)⟩

end Rewards
end InstanceState
end Leviathan
