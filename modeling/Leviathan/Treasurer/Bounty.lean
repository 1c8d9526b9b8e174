import Leviathan.Treasurer.Forfeit
import Leviathan.Treasurer.Verdicts

/-!
# What a bounty is paid for

When a slashed participant withdraws its bond, a part of what it forfeits is shared by those whom the account of its own
dispute names (`solana-treasurer/src/logic/participant_bond_finalize_withdraw.rs`). The forfeited points come from the
coordinator account, which does not say why a client was slashed, and the status of the dispute is looked at only to tell
the voters of an appeal from the others.

`Caused` says that what is owed for a participant is owed because of the dispute its account is about: when it was convicted
in it nothing was owed, and it has not been slashed since.
-/

namespace Leviathan
open Exec List

lemma AuditVerdict.sharers_ne_nil {v : AuditVerdict} (hv : v.voters ≠ []) : v.sharers ≠ [] := by
  unfold sharers
  split
  · rename_i hs
    exact hs.2
  · exact hv

namespace InstanceState
variable {P : Platform} {s s' : InstanceState} {fx : List InstanceEffect} {p : Pubkey}

lemma InstanceStep.unmarked (st : InstanceStep P s fx s') (h : Sound s) (hm : ¬ Marked p s.coordinator)
    (he : .ejected p ∉ fx) : ¬ Marked p s'.coordinator ∧ s'.slashedOf p = s.slashedOf p := by
  rw [marked_iff] at hm
  have hcharge : s'.slashedOf p = s.slashedOf p + tally (InstanceEffect.charge p) fx := st.slashedOf
  have hd : Docket.Step (docketOf s.coordinator) fx (docketOf s'.coordinator) := st.docket h
  rw [marked_iff, hcharge]
  generalize docketOf s.coordinator = before at hm hd
  generalize docketOf s'.coordinator = after at hd
  cases hd with
  | move _ _ => exact ⟨hm, rfl⟩
  | begin _ => exact ⟨by simp, rfl⟩
  | settle _ _ _ hc =>
    refine ⟨hm, ?_⟩
    rw [tally_cons, tally_nil, InstanceEffect.charge, if_neg fun hmem => hm ((hc p).mp hmem)]
    rfl
  | eject _ =>
    refine ⟨fun hmem => ?_, rfl⟩
    obtain rfl | hmem := hmem
    · exact he mem_cons_self
    · exact hm hmem
  | suspend _ => exact ⟨hm, rfl⟩

lemma unmarked_of_chain (hc : Chain (InstanceStep P) s fx s') (h : Sound s) (hm : ¬ Marked p s.coordinator)
    (he : .ejected p ∉ fx) : ¬ Marked p s'.coordinator ∧ s'.slashedOf p = s.slashedOf p := by
  suffices hs : Sound s' ∧ (¬ Marked p s'.coordinator ∧ s'.slashedOf p = s.slashedOf p) from hs.2
  induction hc with
  | nil => exact ⟨h, hm, rfl⟩
  | snoc _ st ih =>
    rw [mem_append, not_or] at he
    obtain ⟨hsound, hm', hsame⟩ := ih he.1
    obtain ⟨hm'', hsame'⟩ := st.unmarked hsound hm' he.2
    exact ⟨st.sound hsound, hm'', hsame'.trans hsame⟩

end InstanceState

namespace Deployment
open InstanceState

section Steps
variable {P : Platform} {ix : TreasurerInstruction} {d d' : Deployment} {clock : Clock} {fx : List TreasurerEffect}
  {user : Pubkey} {v : AuditVerdict} {key : Option Pubkey}

/-- Nothing is owed for a participant: what it has been slashed is settled, and it is not marked. -/
structure Clear (user : Pubkey) (d : Deployment) : Prop where
  settled : d.account.slashedOf user ≤ d.settledOf user
  unmarked : ¬ Marked user d.account.coordinator

instance (user : Pubkey) (d : Deployment) : Decidable (Clear user d) :=
  decidable_of_iff (_ ∧ _) ⟨fun h => ⟨h.1, h.2⟩, fun h => ⟨h.settled, h.unmarked⟩⟩

/-- Whom an instruction slashes for something else than a conviction. -/
def slashedBy (d : Deployment) : TreasurerInstruction → Option Pubkey
  | .runSlash _ index => (d.account.coordinator.epochState.clients.get? index).map Client.signer
  | .runSlashLosingVerifier target _ => (d.verdicts.lookup target).bind fun v => v.voters[v.settledCount]?
  | _ => none

/-- Whether an instruction is a vote that opens a dispute about a participant. -/
def opensAbout (d : Deployment) (user : Pubkey) : TreasurerInstruction → Bool
  | .runSubmitAuditVerdict _ target _ => target == user && (d.verdicts.lookup user).all fun v =>
    v.epoch != d.account.coordinator.progress.epoch || v.roundHeight != d.account.coordinator.currentRound.height
  | _ => false

/-- An instruction that slashes a participant with an account of a dispute by conviction only, and opens a dispute about it
only if nothing is owed for it. -/
structure Merited (user : Pubkey) (ix : TreasurerInstruction) (d : Deployment) : Prop where
  slashed : (d.verdicts.lookup user).isSome = true → d.slashedBy ix ≠ some user
  opened : d.opensAbout user ix = true → Clear user d

instance (user : Pubkey) (ix : TreasurerInstruction) (d : Deployment) : Decidable (Merited user ix d) :=
  decidable_of_iff (_ ∧ _) ⟨fun h => ⟨h.1, h.2⟩, fun h => ⟨h.slashed, h.opened⟩⟩

lemma Step.settledOf_le (st : Step P ix d fx d') (user : Pubkey) : d.settledOf user ≤ d'.settledOf user := by
  have hsame : d'.participants = d.participants → d.settledOf user ≤ d'.settledOf user := by
    intro h
    rw [settledOf, settledOf, h]
  have hset : ∀ {key : Pubkey} {q q' : Participant}, d.participants.lookup key = some q →
      d'.participants = d.participants.insert key q' → q.bondSettledSlashedPoints ≤ q'.bondSettledSlashedPoints →
      d.settledOf user ≤ d'.settledOf user := by
    intro key q q' hl hp hle
    rw [settledOf, settledOf, hp]
    by_cases he : user = key
    · subst he
      rw [AList.lookup_insert, hl]
      exact hle
    · rw [AList.lookup_insert_ne he]
  cases st with
  | call hc _ =>
    obtain ⟨_, _, rfl, _, _⟩ := callCoordinator_inv hc
    exact hsame rfl
  | slash hsl =>
    obtain ⟨_, _, _, _, _, _, rfl⟩ := hsl
    exact hsame rfl
  | @create _ key hl =>
    by_cases he : user = key
    · subst he
      simp [settledOf, hl]
    · simp [settledOf, setParticipant, AList.lookup_insert_ne he]
  | deposit hl | request hl _ | claim hl _ _ => exact hset hl rfl le_rfl
  | finalize hf _ => exact hset hf.participant (congrArg Deployment.participants hf.eq) (Nat.le_add_right _ _)
  | dispute hd => exact hsame hd.frame.2.1
  | receive => exact hsame rfl
  | configure _ => exact hsame rfl

lemma Step.clear (st : Step P ix d fx d') (hs : Sound d.account) (h : Clear user d)
    (he : .coordinator (.ejected user) ∉ fx) : Clear user d' := by
  have he' : .ejected user ∉ instanceEffects fx := by
    intro hmem
    obtain ⟨e, hfx, heq⟩ := mem_filterMap.mp hmem
    cases e with
    | coordinator _ =>
      cases heq
      exact he hfx
    | _ => cases heq
  obtain ⟨hm, hsame⟩ := unmarked_of_chain st.account hs h.unmarked he'
  refine ⟨?_, hm⟩
  rw [hsame]
  exact h.settled.trans (st.settledOf_le user)

lemma opensAbout_of_openVerdict {epoch height : Nat} {verifier : Pubkey} {evidence : Evidence}
    {opened : List TreasurerEffect} (he : epoch = d.account.coordinator.progress.epoch)
    (hh : height = d.account.coordinator.currentRound.height) (h : d.openVerdict user epoch height = .ok (v, opened))
    (ho : opened ≠ []) : d.opensAbout user (.runSubmitAuditVerdict verifier user evidence) = true := by
  subst he hh
  unfold openVerdict at h
  rw [opensAbout]
  split at h
  · rename_i hl
    simp [hl]
  · rename_i old hl
    split at h
    · rename_i hne
      simpa [hl] using hne
    · cases h
      exact absurd rfl ho

lemma Moves.opensAbout (hm : Moves P d user ix fx v key) (ho : .opened user ∈ fx) : d.opensAbout user ix = true := by
  obtain ⟨_, _, _, _, _, _, hb, rfl, hiff, _⟩ | ⟨_, _, hno, _⟩ := hm.origin
  · exact opensAbout_of_openVerdict rfl rfl hb.opens (ne_nil_of_mem (hiff.mp ho))
  · exact absurd ho hno

lemma Moves.stored (hm : Moves P d user ix fx v key) (ho : .opened user ∉ fx) :
    ∃ w, d.verdicts.lookup user = some w ∧ w.status ≠ .upheld := by
  obtain ⟨_, _, _, _, w, _, hb, _, hiff, _⟩ | ⟨w, hw, _, _, hs, _⟩ := hm.origin
  · obtain ⟨rfl, _⟩ | ⟨_, hw, _⟩ := openVerdict_inv hb.opens
    · exact absurd (hiff.mpr mem_cons_self) ho
    · refine ⟨w, hw, ?_⟩
      rw [(castVote_inv hb.votes).1]
      rintro ⟨⟩
  · exact ⟨w, hw, hs⟩

lemma Moves.voters_ne_nil (hm : Moves P d user ix fx v key)
    (h : ∀ v, d.verdicts.lookup user = some v → v.voters ≠ []) : v.voters ≠ [] := by
  obtain ⟨_, _, _, _, _, _, hb, _, _, hv, _⟩ | ⟨w, hw, _, _, _, hv, _⟩ := hm.origin
  · obtain ⟨_, _, _, _, rfl⟩ := castVote_inv hb.votes
    rw [hv]
    simp
  · rw [hv]
    exact h w hw

/-- A conviction is the upheld verdict of a move of that dispute. -/
lemma Step.convicted (st : Step P ix d fx d') (ht : Targeted d) (hc : .convicted user ∈ fx) :
    ∃ fx' v key, Moves P d user ix fx' v key ∧ d'.verdicts.lookup user = some v ∧ v.status = .upheld
      ∧ (.opened user ∈ fx ↔ .opened user ∈ fx') := by
  cases st with
  | call h _ =>
    obtain ⟨_, _, _, rfl, _⟩ := callCoordinator_inv h
    simp at hc
  | finalize _ _ => obtain ⟨_, _, e⟩ | e := mem_finalizedEffects hc <;> cases e
  | @dispute _ _ target _ _ hd =>
    cases hd with
    | quiet hm => cases (hm.slashes ht).1 user hc
    | @slash fx' v key _ hm hsl =>
      have hc : .convicted user ∈ fx' := by simpa using hc
      obtain rfl : user = target := by
        obtain h | ⟨_, _, h⟩ | h | ⟨_, h⟩ := hm.effects _ hc <;> cases h
        rfl
      obtain ⟨_, _, _, _, _, _, rfl⟩ := hsl
      refine ⟨fx', v, _, hm, AList.lookup_insert _, ?_, by simp⟩
      cases hm with
      | loser _ _ _ => simp at hc
      | _ => rfl
  | _ => simp at hc

lemma slashedBy_or_convicted (h : d.process P clock ix = .ok (d', fx)) (ht : Targeted d)
    (he : .coordinator (.ejected user) ∈ fx) : d.slashedBy ix = some user ∨ .convicted user ∈ fx := by
  have st := process_inv h
  obtain ⟨authority, index, rfl⟩ | hc | ⟨target, hl⟩ := (st.accounted ht).ejected user he
  · simp only [process, runSlash, bind_eq_ok] at h
    obtain ⟨_, _, h⟩ := h
    obtain ⟨x, hx, _, rfl⟩ := slashClient_inv h
    obtain rfl : user = x.signer := by simpa using he
    exact .inl (by rw [slashedBy, hx]; rfl)
  · exact .inr hc
  · refine .inl ?_
    cases st with
    | call h _ =>
      obtain ⟨_, _, _, rfl, _⟩ := callCoordinator_inv h
      simp at hl
    | finalize _ _ => obtain ⟨_, _, e⟩ | e := mem_finalizedEffects hl <;> cases e
    | dispute hd =>
      have hloser : ∀ {target' fx' v key}, Moves P d target' ix fx' v key → .loserSlashed target user ∈ fx' →
          d.slashedBy ix = some user := by
        intro target' fx' v key hm hmem
        cases hm with
        | vote hb | pend hb _ => simpa using hb.effects _ hmem
        | convict hb _ =>
          obtain hmem | hmem := mem_append.mp hmem
          · simpa using hb.effects _ hmem
          · simp at hmem
        | loser hw _ hk =>
          obtain ⟨_, rfl⟩ : target = target' ∧ user = _ := by simpa using hmem
          rw [slashedBy, hw]
          exact hk
        | _ => simp at hmem
      cases hd with
      | quiet hm => exact hloser hm hl
      | slash hm _ => exact hloser hm (by simpa using hl)
    | _ => simp at hl

lemma bounty_of_participantBondFinalizeWithdraw {userCollateral : TokenAccount} {appeal : Option Pubkey}
    {remaining : List RemainingAccount} {recipient : RemainingAccount} {amount : Nat} {user' : Pubkey}
    (h : d.participantBondFinalizeWithdraw clock user userCollateral appeal remaining = .ok (d', fx))
    (he : .bounty user' recipient amount ∈ fx) (hl : d.verdicts.lookup user' = some v) (hv : v.voters ≠ []) :
    d.settledOf user' < d.account.slashedOf user'
      ∧ ∃ owner mint, recipient.read d.run = some (owner, mint) ∧ owner ∈ v.sharers := by
  obtain ⟨p, forfeited, payout, shares, balance, hf, _, hto, rfl⟩ := participantBondFinalizeWithdraw_inv h
  obtain ⟨x, hx, e⟩ | e := mem_finalizedEffects he <;> cases e
  obtain ⟨h0, voters, hvoters, owner, mint, hread, hown⟩ := hto x hx
  obtain ⟨_, _, hvoters⟩ := bind_eq_ok.mp hvoters
  unfold bountyVoters at hvoters
  rw [hl] at hvoters
  obtain rfl : v.sharers = voters := Except.ok.inj hvoters
  refine ⟨?_, owner, mint, hread, hown.resolve_right fun hnil => AuditVerdict.sharers_ne_nil hv hnil.1⟩
  have hforfeits := hf.forfeits
  simp only [settledOf, hf.participant, Option.map_some, Option.getD_some]
  omega

end Steps

section Runs
variable {P : Platform} {d d' : Deployment} {tr : Record} {user : Pubkey} {v : AuditVerdict}
  {ix : TreasurerInstruction} {fx : List TreasurerEffect}

/-- What is owed for a participant is owed because of the dispute an account is about: nothing was owed when it was
convicted in it, and since then it was not slashed and no dispute was opened. -/
def Caused (user : Pubkey) (v : AuditVerdict) (tr : Record) : Prop :=
  ∃ recent conviction old, tr = recent ++ conviction :: old ∧ .convicted user ∈ conviction.output
    ∧ conviction.after.verdicts.lookup user = some v ∧ Clear user conviction.before
    ∧ ∀ ev ∈ recent, .opened user ∉ ev.output ∧ .coordinator (.ejected user) ∉ ev.output

/-- The account of a dispute has voters, and nothing is owed for its target but for the conviction in it. -/
structure Accountable (user : Pubkey) (v : AuditVerdict) (tr : Record) (d : Deployment) : Prop where
  voters : v.voters ≠ []
  owed : Clear user d ∨ (v.status = .upheld ∧ Caused user v tr)

/-- After a merited step nothing is owed but for the conviction. -/
lemma Accountable.step {clock : Clock} (h : ∀ v, d.verdicts.lookup user = some v → Accountable user v tr d)
    (st : d.process P clock ix = .ok (d', fx)) (hm : Merited user ix d) (hs : Sound d.account) (ht : Targeted d)
    (hv : d'.verdicts.lookup user = some v) : Accountable user v (⟨d, (clock, ix), fx, d'⟩ :: tr) d' := by
  have hstep := process_inv st
  have hvoters : v.voters ≠ [] := by
    obtain ⟨he, _⟩ | ⟨_, w, _, hmv, hw, _⟩ := hstep.verdict user
    · exact (h v (he ▸ hv)).voters
    · cases hv.symm.trans hw
      exact hmv.voters_ne_nil fun v hv => (h v hv).voters
  refine ⟨hvoters, ?_⟩
  by_cases hc : .convicted user ∈ fx
  · -- the participant is convicted: nothing was owed before
    obtain ⟨fx', w, _, hmv, hw, hup, ho⟩ := hstep.convicted ht hc
    cases hv.symm.trans hw
    have hclear : Clear user d := by
      by_cases hopen : .opened user ∈ fx
      · exact hm.opened (hmv.opensAbout (ho.mp hopen))
      · obtain ⟨w', hl, hne⟩ := hmv.stored fun hmem => hopen (ho.mpr hmem)
        exact (h w' hl).owed.resolve_right fun hu => hne hu.1
    exact .inr ⟨hup, [], _, tr, rfl, hc, hv, hclear, by simp⟩
  · -- the participant is not slashed
    have hne : .coordinator (.ejected user) ∉ fx := by
      intro he
      have hby := (slashedBy_or_convicted st ht he).resolve_right hc
      obtain ⟨hsame, _⟩ | ⟨fx', w, _, hmv, _, ho⟩ := hstep.verdict user
      · exact hm.slashed (by rw [← hsame, hv]; rfl) hby
      · obtain ⟨_, _, _, _, _, _, _, rfl, _⟩ | ⟨w', hl, _⟩ := hmv.origin
        · cases hby
        · exact hm.slashed (by rw [hl]; rfl) hby
    by_cases hopen : .opened user ∈ fx
    · obtain ⟨_, hno⟩ | ⟨_, _, _, hmv, _, ho⟩ := hstep.verdict user
      · exact absurd hopen hno
      · exact .inl (hstep.clear hs (hm.opened (hmv.opensAbout (ho.mp hopen))) hne)
    · -- the account was there before, and is as it was if the conviction was upheld
      obtain ⟨w, hl, hsame⟩ : ∃ w, d.verdicts.lookup user = some w ∧ (w.status = .upheld → w = v) := by
        obtain ⟨hsame, _⟩ | ⟨_, _, _, hmv, _, ho⟩ := hstep.verdict user
        · exact ⟨v, hsame ▸ hv, fun _ => rfl⟩
        · obtain ⟨w', hl, hne⟩ := hmv.stored fun hmem => hopen (ho.mpr hmem)
          exact ⟨w', hl, fun hu => absurd hu hne⟩
      obtain hclear | ⟨hup, recent, conviction, old, rfl, hcon, hafter, hbefore, hrecent⟩ := (h w hl).owed
      · exact .inl (hstep.clear hs hclear hne)
      · obtain rfl := hsame hup
        refine .inr ⟨hup, _ :: recent, conviction, old, rfl, hcon, hafter, hbefore, fun ev hev => ?_⟩
        obtain rfl | hev := mem_cons.mp hev
        · exact ⟨hopen, hne⟩
        · exact hrecent ev hev

lemma accountable_of_run (r : (machine P).Run tr d) (hm : ∀ ev ∈ tr, Merited user ev.input.2 ev.before)
    (v : AuditVerdict) (hv : d.verdicts.lookup user = some v) : Accountable user v tr d := by
  induction r generalizing v with
  | init h =>
    obtain ⟨_, _, _, _, _, rfl⟩ := h
    cases hv
  | accept r st ih =>
    exact .step (ih fun ev hev => hm ev (mem_cons_of_mem _ hev)) st (hm _ mem_cons_self) (sound_of_run r)
      (targeted_of_run r) hv
  | reject _ _ ih => exact ih hm v hv

lemma finalize_of_bounty {clock : Clock} {recipient : RemainingAccount} {amount : Nat}
    (st : d.process P clock ix = .ok (d', fx)) (he : .bounty user recipient amount ∈ fx) :
    ∃ user' userCollateral appeal remaining,
      d.participantBondFinalizeWithdraw clock user' userCollateral appeal remaining = .ok (d', fx) := by
  have hstep := process_inv st
  cases hstep with
  | finalize _ _ => exact ⟨_, _, _, _, st⟩
  | call hc _ =>
    obtain ⟨_, _, _, rfl, _⟩ := callCoordinator_inv hc
    simp at he
  | dispute hd => obtain h | ⟨_, h⟩ := hd.frame.2.2.2 _ he <;> cases h
  | _ => simp at he

/-- In every run in which a participant with an account of a dispute is slashed by convictions only, and a dispute about it
is opened only when nothing is owed for it, a bounty on its bond that is shared by those whom the account names is paid for
an upheld conviction, the one that caused what is owed. -/
theorem bounty_for_conviction (r : (machine P).Run tr d) (hm : ∀ ev ∈ tr, Merited user ev.input.2 ev.before) :
    ∀ tr1 ev tr2, tr = tr1 ++ ev :: tr2 → ∀ recipient amount, .bounty user recipient amount ∈ ev.output →
      ∀ v, ev.before.verdicts.lookup user = some v → v.status = .upheld ∧ Caused user v tr2
        ∧ ∃ owner mint, recipient.read ev.before.run = some (owner, mint) ∧ owner ∈ v.sharers := by
  rintro tr1 ev tr2 rfl recipient amount he v hv
  obtain ⟨r', st⟩ := r.split
  have hacc := accountable_of_run r' (fun ev' hev => hm ev' (mem_append_right _ (mem_cons_of_mem _ hev))) v hv
  obtain ⟨_, _, _, _, hf⟩ := finalize_of_bounty st he
  obtain ⟨hlt, hread⟩ := bounty_of_participantBondFinalizeWithdraw hf he hv hacc.voters
  obtain hclear | ⟨hup, hcaused⟩ := hacc.owed
  · exact absurd hclear.settled (Nat.not_le.mpr hlt)
  · exact ⟨hup, hcaused, hread⟩

/-- Half of what is forfeited is a bounty, and an epoch charges 30. -/
def bounties : List (Clock × TreasurerInstruction) :=
  [(⟨0, 0⟩, .runUpdate authority { RunUpdateParams.none with epochSlashingRatePerClient := some 30 }),
    (⟨0, 0⟩, .runSetSlashBounty authority 5000)]

/-- The epoch ends, and the third client withdraws its bond. -/
def settling : List (Clock × TreasurerInstruction) :=
  [(⟨27, 1⟩, .coordinator .tick), (⟨37, 1⟩, .coordinator .tick), (⟨47, 1⟩, .coordinator .tick),
    (⟨48, 1⟩, .participantBondRequestWithdraw 3 50),
    (⟨48, 1⟩, .participantBondFinalizeWithdraw 3 (wallet 3) none [.tokenAccount 4 mint, .tokenAccount 5 mint])]

/-- The third of five clients, with a bond of 50, is convicted by the fourth and the fifth and does not challenge them. -/
def convictedThird : List (Clock × TreasurerInstruction) :=
  bounties ++ quintet ++ [(⟨15, 1⟩, .participantBondDeposit 3 (wallet 3) 50),
    (⟨16, 1⟩, .runSubmitAuditVerdict 4 3 ⟨2, 0, 1, 0, 1⟩), (⟨16, 1⟩, .runSubmitAuditVerdict 5 3 ⟨2, 0, 1, 0, 1⟩),
    (⟨26, 1⟩, .runFinalizeSlash 3 2)] ++ settling

lemma convictedThird_pos : 0 < (runOf convictedThird).1.length := by decide +kernel

/-- One of the two that have convicted the third client is paid a bounty. -/
theorem bounty_for_conviction_convictedThird : ∃ tr1 ev tr2 v, (runOf convictedThird).1 = tr1 ++ ev :: tr2
    ∧ .bounty 3 (.tokenAccount 4 mint) 7 ∈ ev.output ∧ ev.before.verdicts.lookup 3 = some v ∧ v.voters = [4, 5]
    ∧ v.status = .upheld ∧ Caused 3 v tr2 := by
  have htr := Machine.eq_take_append_get (runOf convictedThird).1 ⟨0, convictedThird_pos⟩
  have hpaid : .bounty 3 (.tokenAccount 4 mint) 7 ∈ ((runOf convictedThird).1.get ⟨0, convictedThird_pos⟩).output := by
    decide +kernel
  have hv : (((runOf convictedThird).1.get ⟨0, convictedThird_pos⟩).before.verdicts.lookup 3).map AuditVerdict.voters
      = some [4, 5] := by
    decide +kernel
  obtain ⟨v, hv, hvoters⟩ := Option.map_eq_some_iff.mp hv
  have hm : ∀ ev ∈ (runOf convictedThird).1, Merited 3 ev.input.2 ev.before := by decide +kernel
  obtain ⟨hup, hcaused, _⟩ := bounty_for_conviction (runOf_run convictedThird) hm _ _ _ htr _ _ hpaid v hv
  exact ⟨_, _, _, v, htr, hpaid, hv, hvoters, hup, hcaused⟩

/-- The conviction of the third client, with a bond of 50, is overturned, and later it is slashed by the authority. -/
def vindicatedThird : List (Clock × TreasurerInstruction) :=
  bounties ++ appealed ++ [(⟨18, 1⟩, .runSubmitAppealVerdict 2 3 2 true),
    (⟨18, 1⟩, .participantBondDeposit 3 (wallet 3) 50), (⟨19, 1⟩, .runSlash authority 2)] ++ settling

/-- The last instruction pays the voters of the overturned conviction. -/
theorem bounty_for_overturned :
    ((runOf vindicatedThird).1.head?.map fun ev =>
      (ev.output, (ev.before.verdicts.lookup 3).map fun v => (v.status, v.voters)))
      = some ([.bounty 3 (.tokenAccount 4 mint) 7, .bounty 3 (.tokenAccount 5 mint) 7, .withdrawn 3 20],
        some (.overturned, [4, 5])) := by
  decide +kernel

end Runs
end Deployment
end Leviathan
