import Leviathan.Treasurer.Ledger

/-!
# What a conviction costs

A slash marks a client, the end of the epoch charges it (Rust `CoordinatorInstanceState::tick`), and the
charge is taken off the bond when a withdrawal is finalized
(`solana-treasurer/src/logic/participant_bond_finalize_withdraw.rs`). The treasurer reads the charges only:
between mark and charge it does not know of the conviction.

From the ejection on, the coordinator account has the charge still to come or has made it (`Due`), and what is
left of the bond, together with what has been forfeited, covers it (`Due.finalized`).
-/

namespace Leviathan
open Exec List

lemma Docket.Step.marked_or_charged {d d' : Docket} {fx : List InstanceEffect} {p : Pubkey} (st : Step d fx d')
    (hp : ¬ (d.phase = .warmup ∧ d'.phase = .paused)) (hin : d.phase.InEpoch) (hm : p ∈ d.marked) :
    (d'.phase.InEpoch ∧ p ∈ d'.marked) ∨ ∃ settlement, fx = [.settled settlement] ∧ p ∈ settlement.charged := by
  cases st with
  | move hiff _ => exact .inl ⟨hiff.mp hin, hm⟩
  | begin ha => exact absurd ha hin.not_awaiting
  | settle _ _ _ hc => exact .inr ⟨_, rfl, (hc p).mpr hm⟩
  | eject _ => exact .inl ⟨hin, Set.mem_insert_of_mem _ hm⟩
  | suspend hw => exact absurd ⟨hw, rfl⟩ hp

namespace InstanceState

/-- A key has a marked entry. -/
def Marked (p : Pubkey) (c : Coordinator) : Prop :=
  ∃ x ∈ c.epochState.entries, x.signer = p ∧ x.state = .ejected

instance (p : Pubkey) (c : Coordinator) : Decidable (Marked p c) := inferInstanceAs (Decidable (∃ x ∈ _, _))

/-- The rate at which the current epoch charges. -/
def slashingRate (s : InstanceState) : Nat := s.clientsState.currentEpochRates.slashingRatePerClient

/-- Counted from `base`, a key is charged `rate` when the epoch ends, or has been charged already. -/
structure Due (p : Pubkey) (rate base : Nat) (s : InstanceState) : Prop where
  sound : Sound s
  due : (EpochOpen s.coordinator ∧ Marked p s.coordinator ∧ s.slashingRate = rate ∧ base ≤ s.slashedOf p)
    ∨ base + rate ≤ s.slashedOf p

section Due
variable {P : Platform} {s s' : InstanceState} {fx : List InstanceEffect} {p : Pubkey} {rate base : Nat}

lemma marked_iff {c : Coordinator} : Marked p c ↔ p ∈ (docketOf c).marked := by
  simp [Marked, docketOf, CoordinatorEpochState.marks, Client.mark]

lemma InstanceStep.slashingRate (h : Sound s) (ho : EpochOpen s.coordinator) (st : InstanceStep P s fx s') :
    s'.slashingRate = s.slashingRate
      ∧ ∀ settlement, fx = [.settled settlement] → settlement.slashingRate = s.slashingRate := by
  have hw : s.coordinator.runState ≠ .waitingForMembers := by
    intro hw
    simp [RunState.InEpoch, hw] at ho
  have htick : ∀ c, s.ticking c = s.withCoordinator c := by
    intro c
    simp only [ticking, resetFlags, if_neg hw]
    rfl
  cases st with
  | @ticked _ c _ _ hn =>
    rw [htick] at hn
    obtain ⟨_, hf, _⟩ | ⟨_, _, _, rfl⟩ := noteStart_inv hn
    · cases (h.rates ho).symm.trans hf
    · exact ⟨rfl, by simp⟩
  | @settle _ c success _ =>
    rw [htick]
    refine ⟨rfl, fun settlement he => ?_⟩
    cases he
    rfl
  | update hu =>
    obtain ⟨_, _, _, rfl⟩ := update_inv hu
    exact ⟨rfl, by simp⟩
  | register hr =>
    obtain ⟨_, _, _, _, rfl⟩ | ⟨_, _, _, rfl⟩ := register_inv hr <;> exact ⟨rfl, by simp⟩
  | _ => exact ⟨rfl, by simp⟩

lemma InstanceStep.slashedOf_le (st : InstanceStep P s fx s') (p : Pubkey) : s.slashedOf p ≤ s'.slashedOf p := by
  rw [st.slashedOf]
  exact Nat.le_add_right _ _

lemma InstanceStep.due (st : InstanceStep P s fx s')
    (hp : ¬ (s.coordinator.runState = .warmup ∧ s'.coordinator.runState = .paused)) (h : Due p rate base s) :
    Due p rate base s' := by
  refine ⟨st.sound h.sound, ?_⟩
  obtain ⟨ho, hm, hr, hb⟩ | hc := h.due
  · obtain ⟨hrate, hsettled⟩ := st.slashingRate h.sound ho
    obtain ⟨ho', hm'⟩ | ⟨settlement, rfl, hc⟩ :=
      (st.docket h.sound).marked_or_charged hp ho (marked_iff.mp hm)
    · exact .inl ⟨ho', marked_iff.mpr hm', hrate.trans hr, hb.trans (st.slashedOf_le p)⟩
    · refine .inr ?_
      rw [st.slashedOf, tally_cons, tally_nil, Nat.add_zero, InstanceEffect.charge, if_pos hc, hsettled _ rfl, hr]
      exact Nat.add_le_add_right hb _
  · exact .inr (hc.trans (st.slashedOf_le p))

lemma process_due {clock : Clock} {ix : Instruction} (st : s.process P clock ix = .ok (s', fx))
    (hp : ix = .setPaused true → s.coordinator.runState ≠ .warmup) (h : Due p rate base s) :
    Due p rate base s' := by
  obtain hs | hc := process_inv st
  · refine hs.step.due ?_ h
    obtain he | hne := hs.pauses
    · exact fun hw => hp he hw.1
    · exact hne
  · exact hc.invariant (fun _ _ _ h st => st.step.due st.pauses h) h

lemma Due.of_eject {index : Nat} {x : Client} {c : Coordinator} (h : Sound s) (ho : EpochOpen s.coordinator)
    (hx : s.coordinator.epochState.clients.get? index = some x) (he : s.coordinator.eject index = .ok c) :
    Due x.signer s.slashingRate (s.slashedOf x.signer) (s.withCoordinator c) := by
  have st : InstanceStep .zero s [.ejected x.signer] (s.withCoordinator c) := .eject hx he
  obtain ⟨_, hd⟩ := docketOf_eject h.signers_nodup hx he
  have hphase : c.runState = s.coordinator.runState := congrArg Docket.phase hd
  refine ⟨st.sound h, .inl ⟨?_, marked_iff.mpr ?_, rfl, le_rfl⟩⟩
  · change c.runState.InEpoch
    rwa [hphase]
  · change x.signer ∈ (docketOf c).marked
    rw [hd]
    exact Set.mem_insert _ _

end Due
end InstanceState

/-- Instructions that leave the phase of the run alone. -/
def Instruction.isStatic : Instruction → Bool
  | .update .. | .setFutureEpochRates .. | .updateClientVersion _ => true
  | _ => false

lemma Instruction.isPause_iff {ix : Instruction} : ix.isPause = true ↔ ix = .setPaused true := by
  cases ix with
  | setPaused paused => cases paused <;> simp [isPause]
  | _ => simp [isPause]

instance (ixs : List Instruction) : Decidable (.setPaused true ∈ ixs) :=
  decidable_of_iff (ixs.any Instruction.isPause = true) (by simp [Instruction.isPause_iff])

lemma InstanceState.runState_of_static {P : Platform} {s s' : InstanceState} {clock : Clock} {ix : Instruction}
    {fx : List InstanceEffect} (hix : ix.isStatic = true) (h : s.process P clock ix = .ok (s', fx)) :
    s'.coordinator.runState = s.coordinator.runState := by
  cases ix with
  | update metadata config model progress =>
    simp only [process, bind_eq_ok, ok_pair] at h
    obtain ⟨_, hu, rfl, _⟩ := h
    obtain ⟨_, _, _, rfl⟩ := update_inv hu
    rfl
  | setFutureEpochRates earning slashing =>
    cases h
    rfl
  | updateClientVersion version =>
    simp only [process, updateClientVersion, bind_eq_ok, Except.ok.injEq, Prod.mk.injEq] at h
    obtain ⟨_, ⟨_, _, rfl⟩, rfl, _⟩ := h
    rfl
  | _ => cases hix

namespace TreasurerEffect

/-- How much of a bounty on its own bond an effect pays to a participant. -/
def ownBounty (user : Pubkey) : TreasurerEffect → Nat
  | .bounty user' (.tokenAccount owner _) amount => if user' = user ∧ owner = user then amount else 0
  | _ => 0

/-- How much an effect pays a participant out of its own bond. -/
def received (user : Pubkey) (e : TreasurerEffect) : Nat := e.payout user + e.ownBounty user

end TreasurerEffect

namespace Deployment
open TreasurerEffect InstanceState

def settledOf (d : Deployment) (user : Pubkey) : Nat :=
  ((d.participants.lookup user).map Participant.bondSettledSlashedPoints).getD 0

section Due
variable {P : Platform} {clock : Clock} {calls : List Instruction} {d d' : Deployment} {fx : List TreasurerEffect}
  {p : Pubkey} {rate base : Nat}

lemma static_before_pause (ix : TreasurerInstruction) :
    ix.calls.Pairwise fun a b => b = .setPaused true → a.isStatic = true := by
  cases ix with
  | coordinator _ => exact pairwise_singleton _ _
  | runUpdate _ params =>
    obtain ⟨metadata, config, model, progress, earning, slashing, paused, version⟩ := params
    simp only [TreasurerInstruction.calls, RunUpdateParams.instructions]
    cases paused <;> cases version <;> split <;> split <;> simp [Instruction.isStatic]
  | _ => exact .nil

lemma callCoordinator_due (h : d.callCoordinator P clock calls = .ok (d', fx))
    (hs : calls.Pairwise fun a b => b = .setPaused true → a.isStatic = true)
    (hp : .setPaused true ∈ calls → d.account.coordinator.runState ≠ .warmup) (hd : Due p rate base d.account) :
    Due p rate base d'.account := by
  induction calls generalizing d fx with
  | nil =>
    cases h
    exact hd
  | cons ix ixs ih =>
    simp only [callCoordinator, bind_eq_ok, mapErr_eq_ok, ok_pair] at h
    obtain ⟨⟨account, fx1⟩, h1, ⟨d2, fx2⟩, hrest, rfl, rfl⟩ := h
    obtain ⟨hix, hs⟩ := pairwise_cons.mp hs
    refine ih hrest hs (fun hm => ?_) (process_due h1 (fun he => hp (he ▸ mem_cons_self)) hd)
    change account.coordinator.runState ≠ _
    rw [runState_of_static (hix _ hm rfl) h1]
    exact hp (mem_cons_of_mem _ hm)

lemma Slashed.due {key : Pubkey} (hs : Slashed d key d') (h : Due p rate base d.account) :
    Due p rate base d'.account := by
  obtain ⟨index, x, c, hx, _, he, rfl⟩ := hs
  have st : InstanceStep .zero d.account [.ejected x.signer] (d.account.withCoordinator c) := .eject hx he
  refine st.due ?_ h
  rintro ⟨hw, hp⟩
  obtain ⟨_, _, _, rfl⟩ := Coordinator.eject_eq_ok.mp he
  cases hw.symm.trans hp

/-- A forfeit stays due unless the warmup of a marked key is paused. -/
lemma Step.due {ix : TreasurerInstruction} (st : Step P ix d fx d')
    (hp : .setPaused true ∈ ix.calls → d.account.coordinator.runState = .warmup →
      ¬ Marked p d.account.coordinator)
    (h : Due p rate base d.account) : Due p rate base d'.account := by
  obtain ⟨_, hm, _, _⟩ | hc := h.due
  · cases st with
    | @call ix _ _ _ _ hcall _ =>
      exact callCoordinator_due hcall (static_before_pause ix) (fun hmem hw => hp hmem hw hm) h
    | slash hsl => exact hsl.due h
    | finalize hf _ =>
      rw [hf.eq]
      exact h
    | dispute hd =>
      cases hd with
      | quiet _ => exact h
      | slash _ hsl => exact hsl.due h
    | _ => exact h
  · refine ⟨st.account.invariant (fun _ _ _ h st => st.sound h) h.sound, .inr ?_⟩
    exact hc.trans (st.slashedOf_le p)

end Due

section Secured
variable {P : Platform} {ix : TreasurerInstruction} {d d' : Deployment} {fx log : List TreasurerEffect}
  {p user : Pubkey} {rate base bond settled : Nat}

/-- A participant that had bonded `bond` and settled `settled` when it was convicted: the charge is due, and
what is left of the bond and what has been settled since cover it. -/
structure Secured (p : Pubkey) (rate base bond settled : Nat) (d : Deployment) : Prop where
  due : Due p rate base d.account
  settled_le : settled ≤ d.settledOf p
  covers : settled + min rate bond ≤ d.bondOf p + d.settledOf p

/-- The verdict passed by an instruction that finalizes a withdrawal of a participant. -/
def finalizes (p : Pubkey) : TreasurerInstruction → Option (Option Pubkey)
  | .participantBondFinalizeWithdraw user _ appeal _ => if user = p then some appeal else none
  | _ => none

/-- A withdrawal that would leave a participant a bond of the epoch's rate, or pay nothing. -/
def Retains (p : Pubkey) (d : Deployment) : Prop :=
  ∀ q ∈ d.participants.lookup p,
    q.bondAmount ≤ d.account.slashedOf p - q.bondSettledSlashedPoints
      ∨ d.account.slashingRate ≤ q.bondAmount - (d.account.slashedOf p - q.bondSettledSlashedPoints)
        - q.bondWithdrawPendingAmount

instance (p : Pubkey) (d : Deployment) : Decidable (Retains p d) :=
  inferInstanceAs (Decidable (∀ q ∈ d.participants.lookup p, _))

/-- An instruction that does not pause a warmup in which the participant is marked, finalizes none of its withdrawals while
it is marked in a running epoch, unless enough is left, and does not share the bounty on its bond with it. -/
structure Withheld (p : Pubkey) (ix : TreasurerInstruction) (d : Deployment) : Prop where
  paused : .setPaused true ∈ ix.calls → d.account.coordinator.runState = .warmup →
    ¬ Marked p d.account.coordinator
  retained : ∀ appeal ∈ finalizes p ix, EpochOpen d.account.coordinator → Marked p d.account.coordinator →
    Retains p d
  unshared : ∀ appeal ∈ finalizes p ix, p ∉ d.bountySharers p appeal

-- keys are finite, and going through all of them is not how this is to be decided
instance (p : Pubkey) (ix : TreasurerInstruction) (Q : Option Pubkey → Prop) [DecidablePred Q] :
    Decidable (∀ appeal ∈ finalizes p ix, Q appeal) := Option.decidableForallMem _

instance (p : Pubkey) (ix : TreasurerInstruction) (d : Deployment) : Decidable (Withheld p ix d) :=
  decidable_of_iff (_ ∧ _ ∧ _) ⟨fun h => ⟨h.1, h.2.1, h.2.2⟩, fun h => ⟨h.1, h.2, h.3⟩⟩

lemma Secured.frame (h : Secured p rate base bond settled d) (hd : Due p rate base d'.account)
    (hp : d'.participants = d.participants) : Secured p rate base bond settled d' := by
  refine ⟨hd, ?_, ?_⟩
  · rw [settledOf, hp]
    exact h.settled_le
  · rw [settledOf, bondOf, hp]
    exact h.covers

lemma Secured.update {q q' : Participant} (h : Secured p rate base bond settled d)
    (hd : Due p rate base d'.account) (hl : d.participants.lookup user = some q)
    (hp : d'.participants = d.participants.insert user q')
    (hs : q.bondSettledSlashedPoints ≤ q'.bondSettledSlashedPoints)
    (hb : q.bondAmount + q.bondSettledSlashedPoints ≤ q'.bondAmount + q'.bondSettledSlashedPoints) :
    Secured p rate base bond settled d' := by
  by_cases he : p = user
  · subst he
    have hle := h.settled_le
    have hc := h.covers
    simp only [settledOf, bondOf, hl, Option.map_some, Option.getD_some] at hle hc
    refine ⟨hd, ?_, ?_⟩
    · simpa [settledOf, hp] using hle.trans hs
    · simpa [settledOf, bondOf, hp] using hc.trans hb
  · refine ⟨hd, ?_, ?_⟩
    · rw [settledOf, hp, AList.lookup_insert_ne he]
      exact h.settled_le
    · rw [settledOf, bondOf, hp, AList.lookup_insert_ne he]
      exact h.covers

lemma Secured.create (h : Secured p rate base bond settled d) (hl : d.participants.lookup user = none) :
    Secured p rate base bond settled (d.setParticipant user .new) := by
  have hsame : (d.setParticipant user .new).bondOf p = d.bondOf p
      ∧ (d.setParticipant user .new).settledOf p = d.settledOf p := by
    by_cases he : p = user
    · subst he
      simp [bondOf, settledOf, setParticipant, hl, Participant.new]
    · simp [bondOf, settledOf, setParticipant, AList.lookup_insert_ne he]
  refine ⟨h.due, ?_, ?_⟩
  · rw [hsame.2]
    exact h.settled_le
  · rw [hsame.1, hsame.2]
    exact h.covers

/-- Finalizing a withdrawal keeps a conviction secured: if something is paid out, the charge has been
forfeited in full, or is still to come and enough is left for it. -/
lemma Secured.finalized {q : Participant} {forfeited paid balance : Nat}
    {shares : List (RemainingAccount × Nat)} (h : Secured p rate base bond settled d) (hbase : settled ≤ base)
    (hf : Finalized d user q forfeited paid shares balance d')
    (hw : user = p → EpochOpen d.account.coordinator → Marked p d.account.coordinator → Retains p d) :
    Secured p rate base bond settled d' := by
  have hd : Due p rate base d'.account := by
    rw [hf.eq]
    exact h.due
  have hp : d'.participants = d.participants.insert user { q with
      bondSettledSlashedPoints := q.bondSettledSlashedPoints + forfeited
      bondAmount := q.bondAmount - forfeited - paid
      bondWithdrawPendingAmount := 0
      bondWithdrawRequestedAt := 0 } := by
    rw [hf.eq]
  have hforfeits := hf.forfeits
  have hpays := hf.pays
  by_cases hnone : user ≠ p ∨ paid = 0
  · obtain hne | h0 := hnone
    · refine ⟨hd, ?_, ?_⟩
      · rw [settledOf, hp, AList.lookup_insert_ne (Ne.symm hne)]
        exact h.settled_le
      · rw [settledOf, bondOf, hp, AList.lookup_insert_ne (Ne.symm hne)]
        exact h.covers
    · exact h.update hd hf.participant hp (Nat.le_add_right _ _) (by dsimp only; omega)
  · rw [not_or, not_not] at hnone
    obtain ⟨rfl, hpaid⟩ := hnone
    have hle := h.settled_le
    simp only [settledOf, hf.participant, Option.map_some, Option.getD_some] at hle
    have hsettled' : d'.settledOf user = q.bondSettledSlashedPoints + forfeited := by simp [settledOf, hp]
    have hbond' : d'.bondOf user = q.bondAmount - forfeited - paid := by simp [bondOf, hp]
    refine ⟨hd, by omega, ?_⟩
    rw [hsettled', hbond']
    obtain ⟨ho, hm, hr, _⟩ | hc := h.due.due
    · obtain hnothing | hleft := hw rfl ho hm q hf.participant
      · omega
      · omega
    · omega

lemma Step.secured (st : Step P ix d fx d') (hbase : settled ≤ base) (hw : Withheld p ix d)
    (h : Secured p rate base bond settled d) : Secured p rate base bond settled d' := by
  have hd := st.due hw.paused h.due
  cases st with
  | call hcall _ =>
    obtain ⟨_, _, rfl, _, _⟩ := callCoordinator_inv hcall
    exact h.frame hd rfl
  | slash hsl =>
    obtain ⟨_, _, _, _, _, _, rfl⟩ := hsl
    exact h.frame hd rfl
  | create hl => exact h.create hl
  | deposit hl => exact h.update hd hl rfl le_rfl (by dsimp only; omega)
  | request hl _ | claim hl _ _ => exact h.update hd hl rfl le_rfl le_rfl
  | finalize hf _ => exact h.finalized hbase hf fun he => hw.retained _ (if_pos he)
  | dispute hds => exact h.frame hd hds.frame.2.1
  | receive | configure _ => exact h.frame hd rfl

lemma Step.ownBounty_eq_zero (st : Step P ix d fx d') (hw : Withheld p ix d) : ∀ e ∈ fx, e.ownBounty p = 0 := by
  intro e he
  cases st with
  | call hcall _ =>
    obtain ⟨_, _, _, rfl, _⟩ := callCoordinator_inv hcall
    obtain ⟨_, _, rfl⟩ := mem_map.mp he
    rfl
  | @finalize _ user _ _ appeal _ _ _ shares _ _ _ hto =>
    obtain he | he := mem_append.mp he
    · obtain ⟨⟨recipient, amount⟩, hx, rfl⟩ := mem_map.mp he
      cases recipient with
      | tokenAccount owner mint =>
        refine if_neg ?_
        rintro ⟨rfl, rfl⟩
        exact hw.unshared appeal (if_pos rfl) (hto _ hx mint rfl)
      | _ => rfl
    · split at he
      · cases he
      · rw [mem_singleton.mp he]
        rfl
  | dispute hds =>
    obtain hd | ⟨key, rfl⟩ := hds.frame.2.2.2 e he
    · cases e with
      | bounty _ _ _ => cases hd
      | _ => rfl
    · rfl
  | slash _ | deposit _ | claim _ _ _ => rw [mem_singleton.mp he]; rfl
  | _ => cases he

lemma Step.convicts (st : Step P ix d fx d') (hs : Sound d.account) (ho : EpochOpen d.account.coordinator)
    (hm : .coordinator (.ejected p) ∈ fx) :
    Secured p d.account.slashingRate (d.account.slashedOf p) (d.bondOf p) (d.settledOf p) d'
      ∧ d'.participants = d.participants := by
  have hslashed : ∀ {d1 : Deployment}, Slashed d1 p d' → d1.account = d.account →
      d1.participants = d.participants →
      Secured p d.account.slashingRate (d.account.slashedOf p) (d.bondOf p) (d.settledOf p) d'
        ∧ d'.participants = d.participants := by
    rintro d1 ⟨index, x, c, hx, rfl, he, rfl⟩ ha hp
    rw [ha] at hx he
    refine ⟨⟨?_, ?_, ?_⟩, hp⟩
    · change Due _ _ _ (d1.account.withCoordinator c)
      rw [ha]
      exact .of_eject hs ho hx he
    · rw [settledOf, settledOf, setAccount, hp]
    · rw [settledOf, settledOf, bondOf, bondOf, setAccount, hp]
      omega
  cases st with
  | call hcall hix => exact absurd hm (not_ejected_of_callCoordinator hix hcall p)
  | slash hsl =>
    cases mem_singleton.mp hm
    exact hslashed hsl rfl rfl
  | dispute hds =>
    cases hds with
    | quiet hmv => cases hmv.isDispute _ hm
    | slash hmv hsl =>
      obtain hm | hm := mem_append.mp hm
      · cases hmv.isDispute _ hm
      · cases mem_singleton.mp hm
        exact hslashed hsl rfl rfl
  | finalize _ _ =>
    obtain ⟨_, _, e⟩ | e := mem_finalizedEffects hm <;> cases e
  | _ => simp at hm

lemma Ledger.kept (h : Ledger log d) (p : Pubkey) :
    tally (deposit p) log = d.bondOf p + d.settledOf p + tally (payout p) log
      ∧ d.settledOf p ≤ d.account.slashedOf p := by
  cases hl : d.participants.lookup p with
  | none =>
    obtain ⟨hd, hp⟩ := h.absent p hl
    simp [bondOf, settledOf, hl, hd, hp]
  | some q =>
    have hb := h.booked p q hl
    have hdep := hb.deposits
    simp only [bondOf, settledOf, hl, Option.map_some, Option.getD_some]
    exact ⟨by omega, hb.settled⟩

end Secured

section Runs
variable {P : Platform} {d : Deployment} {pre post : Record} {p : Pubkey}
  {ev : Event Deployment (Clock × TreasurerInstruction) (List TreasurerEffect)}

/-- After a conviction the charge stays covered while withdrawals are withheld. -/
lemma secured_of_run (r : (machine P).Run (post ++ ev :: pre) d) (he : .coordinator (.ejected p) ∈ ev.output)
    (ho : EpochOpen ev.before.account.coordinator) (hw : ∀ ev' ∈ post, Withheld p ev'.input.2 ev'.before) :
    Secured p ev.before.account.slashingRate (ev.before.account.slashedOf p) (ev.before.bondOf p)
      (ev.before.settledOf p) d := by
  obtain ⟨r0, st0⟩ := r.split
  have hbase := ((Ledger.of_run r0).kept p).2
  induction post generalizing d with
  | nil =>
    obtain ⟨_, _, rfl⟩ := r.cons_inv
    exact ((process_inv st0).convicts (sound_of_run r0) ho he).1
  | cons ev' post ih =>
    obtain ⟨r', st, rfl⟩ := r.cons_inv
    have h := ih r' fun ev'' h'' => hw ev'' (mem_cons_of_mem _ h'')
    exact (process_inv st).secured hbase (hw ev' mem_cons_self) h

lemma tally_received {log : List TreasurerEffect} (h : ∀ e ∈ log, e.ownBounty p = 0) :
    tally (received p) log = tally (payout p) log := by
  refine congrArg List.sum (map_congr_left fun e he => ?_)
  rw [received, h e he, Nat.add_zero]

/-- After a participant has been ejected in an epoch, it receives no more of its bond and its later deposits
than the rate of the epoch leaves. -/
theorem convicted_forfeits (r : (machine P).Run (post ++ ev :: pre) d)
    (he : .coordinator (.ejected p) ∈ ev.output) (ho : EpochOpen ev.before.account.coordinator)
    (hw : ∀ ev' ∈ post, Withheld p ev'.input.2 ev'.before) :
    tally (received p) (log post) + min ev.before.account.slashingRate (ev.before.bondOf p)
      ≤ ev.before.bondOf p + tally (deposit p) (log post) := by
  obtain ⟨r0, st0⟩ := r.split
  have hsec := secured_of_run r he ho hw
  -- the books just after the ejection, and at the end
  have hkept0 := ((Ledger.of_run (.accept r0 st0)).kept p).1
  have hkept := ((Ledger.of_run r).kept p).1
  have hparts := ((process_inv st0).convicts (sound_of_run r0) ho he).2
  have hbond0 : ev.after.bondOf p = ev.before.bondOf p := by rw [bondOf, bondOf, hparts]
  have hsettled0 : ev.after.settledOf p = ev.before.settledOf p := by rw [settledOf, settledOf, hparts]
  have hlog : log (post ++ ev :: pre) = log post ++ log (ev :: pre) := flatMap_append
  rw [hlog, tally_append, tally_append] at hkept
  have hrec : tally (received p) (log post) = tally (payout p) (log post) := by
    refine tally_received fun e hmem => ?_
    obtain ⟨ev', hev', hmem⟩ := mem_flatMap.mp hmem
    obtain ⟨_, _, st⟩ := r.mem (mem_append_left _ hev')
    exact (process_inv st).ownBounty_eq_zero (hw ev' hev') e (mem_reverse.mp hmem)
  have hc := hsec.covers
  change tally (deposit p) (log (ev :: pre)) = _ + tally (payout p) (log (ev :: pre)) at hkept0
  omega

lemma five_lt_forfeiture : 5 < (runOf forfeiture).1.length := by decide +kernel

/-- The slashed client gets back 20 of its bond. -/
theorem convicted_forfeits_forfeiture : ∃ post ev pre,
    (machine .zero).Run (post ++ ev :: pre) (runOf forfeiture).2
    ∧ .coordinator (.ejected 2) ∈ ev.output ∧ tally (received 2) (log post) = 20
    ∧ tally (received 2) (log post) + min ev.before.account.slashingRate (ev.before.bondOf 2)
      ≤ ev.before.bondOf 2 + tally (deposit 2) (log post) := by
  have r := runOf_run forfeiture
  rw [Machine.eq_take_append_get (runOf forfeiture).1 ⟨5, five_lt_forfeiture⟩] at r
  exact ⟨_, _, _, r, by decide +kernel, by decide +kernel,
    convicted_forfeits r (by decide +kernel) (by decide +kernel) (by decide +kernel)⟩

/-- With a minimum bond of 10 and a delay of 5, the second of two clients bonds 50 and asks for it during
warmup. It is slashed in the first round and takes its bond before the epoch ends. -/
def hasty : List (Clock × TreasurerInstruction) :=
  opening ++ [(⟨0, 0⟩, .runBondConfigUpdate authority 10 5), (⟨1, 1⟩, .participantCreate 1),
    (⟨1, 1⟩, .participantCreate 2), (⟨1, 1⟩, .participantBondDeposit 2 (wallet 2) 50),
    (⟨5, 1⟩, .coordinator (.joinRun 1 ⟨1, 0⟩)), (⟨5, 1⟩, .coordinator (.joinRun 2 ⟨2, 0⟩)),
    (⟨8, 1⟩, .participantBondRequestWithdraw 2 50), (⟨15, 1⟩, .coordinator .tick),
    (⟨16, 1⟩, .coordinator (.witness 1 ⟨⟨0, 0, true⟩, .empty, .empty, 0⟩)), (⟨16, 1⟩, .runSlash authority 1),
    (⟨17, 1⟩, .participantBondFinalizeWithdraw 2 (wallet 2) none []), (⟨25, 1⟩, .coordinator .tick),
    (⟨35, 1⟩, .coordinator .tick), (⟨45, 1⟩, .coordinator .tick)]

lemma four_lt_hasty : 4 < (runOf hasty).1.length := by decide +kernel

/-- The participant is ejected with a bond of 50 at a rate of 30, deposits nothing any more and gets back 50.
The charge of 30 finds no bond. -/
theorem convicted_withdraws : ∃ post ev pre, (machine .zero).Run (post ++ ev :: pre) (runOf hasty).2
    ∧ ((runOf hasty).1.map fun ev => ev.input.1.unixTimestamp).Pairwise (· ≥ ·)
    ∧ (runOf hasty).1 = post ++ ev :: pre
    ∧ .coordinator (.ejected 2) ∈ ev.output ∧ EpochOpen ev.before.account.coordinator
    ∧ ev.before.account.slashingRate = 30 ∧ ev.before.bondOf 2 = 50 ∧ tally (deposit 2) (log post) = 0
    ∧ tally (payout 2) (log post) = 50
    ∧ (runOf hasty).2.account.slashedOf 2 = 30 ∧ (runOf hasty).2.bondOf 2 = 0 := by
  have htr := Machine.eq_take_append_get (runOf hasty).1 ⟨4, four_lt_hasty⟩
  have r := runOf_run hasty
  rw [htr] at r
  exact ⟨_, _, _, r, by decide +kernel, htr, by decide +kernel⟩

end Runs
end Deployment
end Leviathan
