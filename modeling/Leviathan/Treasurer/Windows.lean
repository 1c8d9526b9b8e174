import Leviathan.Instance.BeforeTick
import Leviathan.Treasurer.ExitWindow
import Leviathan.Treasurer.Ledger
import Leviathan.Treasurer.LifeCycle

/-!
# The time settings of a run

The withdraw delay, the challenge window and the appeal window are `i64` values that the authority of a run sets; only
negative ones are refused. They are added to moments that an earlier instruction noted (Rust
`participant_bond_finalize_withdraw_processor`, `run_open_challenge_processor`, `run_finalize_slash_processor`), and
the programs are built with overflow checks.
-/

namespace Leviathan
open Exec List

def TreasurerInstruction.timeSettings : TreasurerInstruction → List Int
  | .runBondConfigUpdate _ _ delay => [delay]
  | .runSetChallengeConfig _ challenge _ appeal => [challenge, appeal]
  | _ => []

/-- The time settings among the terms of a run. -/
def Terms.times (t : Terms) : List Int :=
  [t.bondWithdrawDelaySeconds, t.challengeWindowSeconds, t.appealWindowSeconds]

namespace InstanceState
variable {P : Platform} {s s' : InstanceState} {clock : Clock} {ix : Instruction} {fx : List InstanceEffect}

/-- What has been slashed fits the records. -/
def SlashedFits (s : InstanceState) : Prop := ∀ r ∈ s.clientsState.clients.toList, r.slashed < 2 ^ 64

lemma SlashedFits.slashedOf (h : s.SlashedFits) (p : Pubkey) : s.slashedOf p < 2 ^ 64 := by
  unfold InstanceState.slashedOf
  cases hr : s.recordOf p with
  | none => exact Nat.two_pow_pos 64
  | some r => exact h r (mem_of_find?_eq_some hr)

lemma SlashedFits.of_clients (h : s.SlashedFits) (hc : s'.clientsState.clients = s.clientsState.clients) :
    s'.SlashedFits := by
  unfold SlashedFits
  rw [hc]
  exact h

lemma SlashedFits.settle {success : Bool} (h : s.SlashedFits) (hs : s.settle success = .ok (s', fx)) :
    s'.SlashedFits := by
  simp only [InstanceState.settle, bind_eq_ok, ensure_eq_ok, ok_pair] at hs
  obtain ⟨_, hall, rfl, rfl⟩ := hs
  intro r' hr'
  obtain ⟨r, hr, rfl⟩ := mem_map.mp hr'
  have hfit := all_eq_true.mp hall r hr
  simp only [settlementFits, Bool.and_eq_true, Bool.or_eq_true, Bool.not_eq_true', decide_eq_true_eq] at hfit
  have hold := h r hr
  unfold settleClient
  dsimp only
  split
  · rename_i hc
    obtain hn | hlt := hfit.2
    · rw [hn] at hc
      cases hc
    · exact hlt
  · exact hold

lemma SlashedFits.tick (h : s.SlashedFits) (ht : s.tick P clock = .ok (s', fx)) : s'.SlashedFits := by
  simp only [InstanceState.tick, bind_eq_ok, mapErr_eq_ok] at ht
  obtain ⟨⟨c, r⟩, _, ht⟩ := ht
  have hflags : SlashedFits { s.resetFlags with coordinator := c } := by
    refine h.of_clients ?_
    unfold resetFlags
    split <;> rfl
  cases r with
  | ticked =>
    simp only [bind_eq_ok, ok_pair] at ht
    obtain ⟨s1, hn, rfl, rfl⟩ := ht
    obtain ⟨_, _, rfl⟩ | ⟨_, _, _, rfl⟩ := noteStart_inv hn
    · exact hflags.of_clients rfl
    · exact hflags.of_clients rfl
  | epochEnd success => exact hflags.settle ht

lemma SlashedFits.register {id : NodeIdentity} {cs : ClientsState} (h : s.SlashedFits) (hr : s.register id = .ok cs) :
    SlashedFits { s with clientsState := cs } := by
  obtain ⟨index, r, hi, _, rfl⟩ | ⟨_, clients, hcl, rfl⟩ := register_inv hr
  · intro r' hr'
    have hmap : (s.clientsState.clients.toList.modify index fun x =>
        { x with id, active := s.clientsState.nextActive }).map SolanaClient.slashed
        = s.clientsState.clients.toList.map SolanaClient.slashed :=
      map_modify_eq fun _ _ => rfl
    have hmem := mem_map_of_mem (f := SolanaClient.slashed) hr'
    rw [FixedVec.modify_toList, hmap] at hmem
    obtain ⟨x, hx, e⟩ := mem_map.mp hmem
    exact e ▸ h x hx
  · intro r' hr'
    simp only [hcl, mem_append, mem_singleton] at hr'
    obtain hm | rfl := hr'
    · exact h r' hm
    · exact Nat.two_pow_pos 64

lemma SlashedFits.beforeTick {ticks : Bool} (h : s.SlashedFits)
    (hb : s.beforeTick P clock ix = .ok (s', fx, ticks)) : s'.SlashedFits := by
  obtain ⟨_, _, _, _, hr, rfl⟩ | ⟨_, hclients⟩ := (beforeTick_spec hb).records
  · exact h.register hr
  · exact h.of_clients hclients

lemma SlashedFits.process (h : s.SlashedFits) (hp : s.process P clock ix = .ok (s', fx)) : s'.SlashedFits := by
  obtain ⟨s1, _, hb, ht, _⟩ | ⟨hb, _⟩ := process_inv_tick hp
  · exact (h.beforeTick hb).tick ht
  · exact h.beforeTick hb

end InstanceState

namespace Deployment
variable {P : Platform} {d d' : Deployment} {clock : Clock} {ix : TreasurerInstruction} {fx : List TreasurerEffect}

section Counters

/-- The counters that a withdrawal adds up fit 64 bits. -/
structure CountersFit (d : Deployment) : Prop where
  slashed : d.account.SlashedFits
  bond : ∀ user p, d.participants.lookup user = some p → p.bondAmount < 2 ^ 64

lemma slashedFits_callCoordinator {ixs : List Instruction} (h : d.account.SlashedFits)
    (hc : d.callCoordinator P clock ixs = .ok (d', fx)) : d'.account.SlashedFits := by
  induction ixs generalizing d fx with
  | nil =>
    cases hc
    exact h
  | cons ix ixs ih =>
    simp only [callCoordinator, bind_eq_ok, mapErr_eq_ok, ok_pair] at hc
    obtain ⟨⟨account, _⟩, hp, ⟨d1, _⟩, hc, rfl, rfl⟩ := hc
    exact ih (d := d.setAccount account) (h.process hp) hc

lemma Slashed.clients {key : Pubkey} (h : Slashed d key d') :
    d'.account.clientsState.clients = d.account.clientsState.clients := by
  obtain ⟨_, _, _, _, _, _, rfl⟩ := h
  rfl

lemma Step.slashedFits (st : Step P ix d fx d') (h : d.account.SlashedFits) : d'.account.SlashedFits := by
  cases st with
  | call hc _ => exact slashedFits_callCoordinator h hc
  | slash hs => exact h.of_clients hs.clients
  | finalize hf _ =>
    rw [hf.eq]
    exact h
  | dispute hd =>
    cases hd with
    | quiet _ => exact h
    | slash _ hs => exact h.of_clients hs.clients
  | _ => exact h

/-- An instruction keeps the counters within their types. -/
lemma CountersFit.process (h : CountersFit d) (hp : d.process P clock ix = .ok (d', fx)) : CountersFit d' := by
  refine ⟨(process_inv hp).slashedFits h.slashed, fun user p hl => ?_⟩
  have hbond := h.bond user
  have hs := (process_spec hp).participant user
  rw [hl] at hs
  generalize d.participants.lookup user = o at hbond hs
  cases hs with
  | create => exact Nat.two_pow_pos 64
  | deposit hlt => exact hlt
  | @request p _ _ | @claim p _ _ | other _ => exact hbond p rfl
  | @finalize p _ _ _ _ _ _ _ _ => exact ((Nat.sub_le _ _).trans (Nat.sub_le _ _)).trans_lt (hbond p rfl)

lemma countersFit_of_run {tr : Record} (r : (machine P).Run tr d) : CountersFit d := by
  refine r.invariant ?_ fun _ _ _ _ h st => h.process st
  rintro _ ⟨_, _, _, _, _, rfl⟩
  exact ⟨by rintro _ ⟨⟩, by rintro _ _ ⟨⟩⟩

end Counters

section Moments

/-- The moments that a verdict notes. -/
def Noted (Q : Int → Prop) (v : AuditVerdict) : Prop := Q v.pendingSinceUnix ∧ Q v.challengedSinceUnix

variable {Q : Int → Prop} {target : Pubkey} {v v' : AuditVerdict}

lemma Noted.setVerdict (h : ∀ key v, d.verdicts.lookup key = some v → Noted Q v) (hv : Noted Q v') :
    ∀ key v, (d.setVerdict target v').verdicts.lookup key = some v → Noted Q v := by
  intro key v hl
  obtain ⟨_, rfl⟩ | ⟨_, hl⟩ := Accounts.lookup_insert_eq_some hl
  · exact hv
  · exact h key v hl

lemma Noted.ballot {verifier : Pubkey} {evidence : Evidence} {epoch height : Nat} {opened : List TreasurerEffect}
    (h : ∀ key v, d.verdicts.lookup key = some v → Noted Q v) (h0 : Q 0)
    (ho : d.openVerdict target epoch height = .ok (v, opened)) (hc : castVote v verifier evidence = .ok v') :
    Noted Q v' := by
  have hv : Noted Q v := by
    obtain ⟨_, ⟨_, rfl⟩, _⟩ | ⟨_, hl, _⟩ := openVerdict_inv ho
    · exact ⟨h0, h0⟩
    · exact h target v hl
  obtain ⟨_, _, _, _, rfl⟩ := castVote_inv hc
  exact hv

lemma Noted.appeal {appellate : Pubkey} {overturn : Bool} (h : Noted Q v)
    (hc : castAppeal v appellate overturn = .ok v') : Noted Q v' := by
  obtain ⟨_, _, _, _, rfl⟩ := castAppeal_eq hc
  exact h

lemma Slashed.verdicts {key : Pubkey} (h : Slashed d key d') : d'.verdicts = d.verdicts := by
  obtain ⟨_, _, _, _, _, _, rfl⟩ := h
  rfl

lemma Step.noted (st : Step P ix d fx d') (h : ∀ key v, d.verdicts.lookup key = some v → Noted Q v)
    (hvote : ∀ verifier target evidence, ix ≠ .runSubmitAuditVerdict verifier target evidence)
    (hchallenge : ∀ target, ix ≠ .runOpenChallenge target) :
    ∀ key v, d'.verdicts.lookup key = some v → Noted Q v := by
  have hmoves : ∀ target fx v key, Moves P d target ix fx v key → Noted Q v := by
    intro target fx v key hm
    cases hm with
    | vote _ | pend _ _ | convict _ _ => exact absurd rfl (hvote _ _ _)
    | challenge _ _ => exact absurd rfl (hchallenge _)
    | appeal hl hc => exact (h _ _ hl).appeal hc
    | @overturn _ v' _ _ _ hl hc | @uphold _ v' _ _ _ hl hc =>
      have hv : Noted Q v' := (h _ _ hl).appeal hc
      exact hv
    | @finalize v _ hl _ | @loser v _ _ hl _ _ => exact h target v hl
  cases st with
  | call hc _ =>
    obtain ⟨_, _, rfl, _, _⟩ := callCoordinator_inv hc
    exact h
  | slash hs =>
    rw [hs.verdicts]
    exact h
  | finalize hf _ =>
    rw [hf.eq]
    exact h
  | dispute hd =>
    cases hd with
    | quiet hm => exact Noted.setVerdict h (hmoves _ _ _ _ hm)
    | slash hm hs =>
      rw [hs.verdicts]
      exact Noted.setVerdict h (hmoves _ _ _ _ hm)
  | _ => exact h

lemma process_noted (hp : d.process P clock ix = .ok (d', fx))
    (h : ∀ key v, d.verdicts.lookup key = some v → Noted Q v) (h0 : Q 0) (hnow : Q clock.unixTimestamp) :
    ∀ key v, d'.verdicts.lookup key = some v → Noted Q v := by
  have st := process_inv hp
  cases ix with
  | runSubmitAuditVerdict verifier target evidence =>
    simp only [process, runSubmitAuditVerdict, bind_eq_ok, require_eq_ok] at hp
    obtain ⟨_, _, _, _, ⟨committee, selection⟩, _, _, _, _, _, _, _, _, _, _, _, ⟨v, opened⟩, hopen, v', hcast, hp⟩ := hp
    have hv := Noted.ballot h h0 hopen hcast
    split at hp
    · split at hp
      · cases hp
        exact Noted.setVerdict h ⟨hnow, hv.2⟩
      · simp only [bind_eq_ok, ok_pair] at hp
        obtain ⟨⟨d1, slashed⟩, hs, rfl, rfl⟩ := hp
        obtain ⟨_, _, hsl, _⟩ := slashClient_inv hs
        rw [hsl.verdicts]
        exact Noted.setVerdict h hv
    · cases hp
      exact Noted.setVerdict h hv
  | runOpenChallenge challenger =>
    simp only [process, runOpenChallenge, bind_eq_ok, verdict_eq_ok, ok_pair] at hp
    obtain ⟨_, _, v, hl, _, _, _, _, _, _, _, _, rfl, rfl⟩ := hp
    exact Noted.setVerdict h ⟨(h _ _ hl).1, hnow⟩
  | _ => exact st.noted h (by simp) (by simp)

end Moments

section Settings

lemma process_timeSettings (hp : d.process P clock ix = .ok (d', fx)) :
    (∀ t ∈ ix.timeSettings, 0 ≤ t) ∧ ∀ t ∈ d'.run.terms.times, t ∈ d.run.terms.times ∨ t ∈ ix.timeSettings := by
  have hs := (process_spec hp).terms
  generalize d.run.terms = x at hs
  generalize d'.run.terms = x' at hs
  cases hs with
  | bondConfig hle | challengeConfig hle =>
    refine ⟨by simpa [TreasurerInstruction.timeSettings] using hle, fun t ht => ?_⟩
    simp only [Terms.times, TreasurerInstruction.timeSettings, mem_cons, not_mem_nil, or_false] at ht ⊢
    tauto
  | other hix =>
    have hnil : ix.timeSettings = [] := by
      cases ix <;> first | rfl | cases hix
    exact ⟨by simp [hnil], fun t ht => .inl ht⟩

/-- A moment as far as the clock is followed here. -/
def Moment (t : Int) : Prop := 0 ≤ t ∧ t ≤ 2 ^ 62

/-- A setting that can be added to any such moment. -/
def Span (t : Int) : Prop := 0 ≤ t ∧ t < 2 ^ 62

lemma Moment.add_lt {t s : Int} (ht : Moment t) (hs : Span s) : 0 ≤ t + s ∧ t + s < 2 ^ 63 := by
  obtain ⟨ht0, ht1⟩ := ht
  obtain ⟨hs0, hs1⟩ := hs
  omega

lemma Moment.addI64 {ε : Type} {t s : Int} (ht : Moment t) (hs : Span s) :
    (addI64 t s : Exec ε Panic Int) = .ok (t + s) := by
  obtain ⟨h0, h1⟩ := ht.add_lt hs
  exact addI64_eq_ok.mpr ⟨⟨by omega, h1⟩, rfl⟩

/-- What is noted are moments, and what is added to them are spans. -/
structure Timed (d : Deployment) : Prop where
  settings : ∀ t ∈ d.run.terms.times, Span t
  exits : ∀ user, Moment (d.exitOf user).requestedAt ∧ Span (d.exitOf user).delay
  verdicts : ∀ target v, d.verdicts.lookup target = some v → Noted Moment v

/-- What is noted stays a moment, and what is added to it a span. -/
lemma Timed.process (h : Timed d) (hp : d.process P clock ix = .ok (d', fx)) (hnow : Moment clock.unixTimestamp)
    (hix : ∀ t ∈ ix.timeSettings, t < 2 ^ 62) : Timed d' := by
  have hzero : Moment 0 := ⟨le_refl _, by decide⟩
  obtain ⟨hpos, hmem⟩ := process_timeSettings hp
  refine ⟨fun t ht => ?_, fun user => ?_, process_noted hp h.verdicts hzero hnow⟩
  · obtain hold | hnew := hmem t ht
    · exact h.settings t hold
    · exact ⟨hpos t hnew, hix t hnew⟩
  · have hdelay := h.settings d.run.bondWithdrawDelaySeconds mem_cons_self
    have hx := process_exit hp user
    have hold := h.exits user
    generalize d.exitOf user = x at hx hold
    generalize d'.exitOf user = x' at hx
    cases hx with
    | request _ => exact ⟨hnow, hdelay⟩
    | finalize _ => exact ⟨hzero, hold.2⟩
    | other _ _ => exact hold

lemma timed_of_run {tr : Record} (r : (machine P).Run tr d) (hclock : ∀ ev ∈ tr, Moment ev.input.1.unixTimestamp)
    (hset : ∀ ev ∈ tr, ∀ t ∈ ev.input.2.timeSettings, t < 2 ^ 62) : Timed d := by
  induction r with
  | init h =>
    obtain ⟨_, _, _, _, _, rfl⟩ := h
    have hm : Moment 0 := ⟨le_refl _, by decide⟩
    have hs : Span 0 := ⟨le_refl _, by decide⟩
    have ht : ∀ t ∈ [(0 : Int), 0, 0], Span t := by simp [hs]
    exact ⟨ht, fun _ => ⟨hm, hs⟩, by rintro _ _ ⟨⟩⟩
  | accept _ st ih =>
    have h := ih (fun ev hev => hclock ev (mem_cons_of_mem _ hev))
      fun ev hev => hset ev (mem_cons_of_mem _ hev)
    exact h.process st (hclock _ mem_cons_self) (hset _ mem_cons_self)
  | reject _ _ ih => exact ih hclock hset

end Settings

section Safety
variable {bad : Panic → Prop} {tr : Record} {p : Participant} {user target : Pubkey} {v : AuditVerdict}

lemma Timed.unlock (h : Timed d) (hp : d.participants.lookup user = some p) :
    Moment p.bondWithdrawRequestedAt ∧ Span p.bondWithdrawDelaySnapshot := by
  have hx := h.exits user
  rw [exitOf, hp] at hx
  exact hx

lemma Timed.challengeWindow (h : Timed d) : Span d.run.challengeWindowSeconds :=
  h.settings _ (mem_cons_of_mem _ mem_cons_self)

lemma Timed.appealWindow (h : Timed d) : Span d.run.appealWindowSeconds :=
  h.settings _ (mem_cons_of_mem _ (mem_cons_of_mem _ mem_cons_self))

lemma slashClient_safe (index : Nat) : Exec.Safe bad (d.slashClient index) := by
  refine .bind ?_ fun _ _ => .ok _
  intro p hp
  rw [mapErr_eq_panic] at hp
  revert hp
  unfold InstanceState.slash
  intro hp
  obtain hp | ⟨_, _, hp⟩ := bind_eq_error.mp hp
  · rw [mapErr_eq_panic] at hp
    unfold Coordinator.eject Coordinator.markClient at hp
    split at hp
    · split at hp <;> cases hp
    · cases hp
  · cases hp

lemma Timed.runFinalizeSlash_safe (h : Timed d) (target : Pubkey) (index : Nat) :
    Exec.Safe bad (d.runFinalizeSlash clock target index) := by
  refine .bind (.okOr _ _) fun v hv => .bind ?_ fun _ _ => .bind (.require _ _) fun _ _ =>
    .bind (slashClient_safe _) fun _ _ => .ok _
  have hn := h.verdicts target v (verdict_eq_ok.mp hv)
  unfold checkFinalizable
  split
  · rw [hn.1.addI64 h.challengeWindow]
    exact .require _ _
  · rw [hn.2.addI64 h.appealWindow]
    exact .bind (.require _ _) fun _ _ => .require _ _
  · exact .fail _

lemma Timed.runOpenChallenge_safe (h : Timed d) (challenger : Pubkey) :
    Exec.Safe bad (d.runOpenChallenge clock challenger) := by
  refine .bind (.okOr _ _) fun _ _ => .bind (.okOr _ _) fun v hv => .bind (.require _ _) fun _ _ =>
    .bind (.require _ _) fun _ _ => ?_
  have hn := h.verdicts challenger v (verdict_eq_ok.mp hv)
  rw [hn.1.addI64 h.challengeWindow]
  exact .bind (.ok _) fun _ _ => .bind (.require _ _) fun _ _ => .ok _

/-- **Time settings**: while every clock reads at most `2 ^ 62` and every accepted time setting is below it, no sum of a
setting and a noted time overflows. Finalizing a withdrawal or a slash and opening a challenge then fail with an error of
the program or not at all, and from some time on no delay and no challenge window is open. -/
theorem time_settings_safe (r : (machine P).Run tr d)
    (hclock : ∀ ev ∈ tr, 0 ≤ ev.input.1.unixTimestamp ∧ ev.input.1.unixTimestamp ≤ 2 ^ 62)
    (hset : ∀ ev ∈ tr, ∀ t ∈ ev.input.2.timeSettings, t < 2 ^ 62) :
    (∀ clock user userCollateral appeal remaining, Exec.Safe (fun _ => True)
        (d.participantBondFinalizeWithdraw clock user userCollateral appeal remaining))
      ∧ (∀ clock target index, Exec.Safe (fun _ => True) (d.runFinalizeSlash clock target index))
      ∧ (∀ clock challenger, Exec.Safe (fun _ => True) (d.runOpenChallenge clock challenger))
      ∧ ∃ t : Int, t < 2 ^ 63
        ∧ (∀ user p, d.participants.lookup user = some p →
          p.bondWithdrawRequestedAt + p.bondWithdrawDelaySnapshot ≤ t)
        ∧ ∀ clock target v, t ≤ clock.unixTimestamp → d.verdicts.lookup target = some v →
          v.status = .slashPending → d.checkFinalizable clock v = .ok () := by
  have h : Timed d := timed_of_run r hclock hset
  have hfit := countersFit_of_run r
  refine ⟨fun clock user userCollateral appeal remaining => ?_, fun _ => h.runFinalizeSlash_safe,
    fun _ => h.runOpenChallenge_safe, 2 ^ 63 - 1, by decide, fun user p hp => ?_, fun clock target v ht hv hs => ?_⟩
  · refine participantBondFinalizeWithdraw_safe (Ledger.of_run r) clock user userCollateral appeal remaining ?_ ?_
    · intro p hp
      rw [(h.unlock hp).1.addI64 (h.unlock hp).2]
      exact .ok _
    · intro p a b hp hab
      have hb := hfit.bond user p hp
      have hs := hfit.slashed.slashedOf user
      rw [addU_eq_ok.mpr ⟨by omega, rfl⟩]
      exact .ok _
  · have := (h.unlock hp).1.add_lt (h.unlock hp).2
    omega
  · have hn := (h.verdicts target v hv).1
    have hsum := hn.add_lt h.challengeWindow
    have hle : v.pendingSinceUnix + d.run.challengeWindowSeconds ≤ clock.unixTimestamp := by omega
    simp only [checkFinalizable, hs, hn.addI64 h.challengeWindow]
    exact require_eq_ok.mpr hle

/-- Of three clients the first asks for part of its bond and the third is convicted, with a withdrawal delay, a challenge
window and an appeal window of `span` seconds. -/
def deferred (span : Int) : List (Clock × TreasurerInstruction) :=
  trio ++ [(⟨15, 1⟩, .runSetChallengeConfig authority span 0 span), (⟨15, 1⟩, .runBondConfigUpdate authority 0 span),
    (⟨16, 1⟩, .participantBondDeposit 1 (wallet 1) 50), (⟨17, 1⟩, .participantBondRequestWithdraw 1 40),
    (⟨18, 1⟩, .runSubmitAuditVerdict 1 3 ⟨2, 0, 1, 0, 1⟩), (⟨19, 1⟩, .runSubmitAuditVerdict 2 3 ⟨2, 0, 1, 0, 1⟩)]

/-- With windows of 100 seconds neither a slash nor a challenge aborts. -/
theorem time_settings_safe_deferred :
    ((runOf (deferred 100)).2.exitOf 1 = ⟨40, 17, 100⟩
        ∧ (runOf (deferred 100)).2.dispute 3 = some ⟨.slashPending, [1, 2], 0⟩)
      ∧ (∀ clock target index, Exec.Safe (fun _ => True) ((runOf (deferred 100)).2.runFinalizeSlash clock target index))
      ∧ ∀ clock challenger, Exec.Safe (fun _ => True) ((runOf (deferred 100)).2.runOpenChallenge clock challenger) := by
  have h := time_settings_safe (runOf_run (deferred 100)) (by decide +kernel) (by decide +kernel)
  exact ⟨by decide +kernel, h.2.1, h.2.2.1⟩

lemma participantBondFinalizeWithdraw_overflow {userCollateral : TokenAccount}
    {remaining : List RemainingAccount} (hp : d.participants.lookup user = some p)
    (hc : d.checkCollateral user userCollateral = .ok ()) (hpend : p.bondWithdrawPendingAmount ≠ 0)
    (hover : 2 ^ 63 ≤ p.bondWithdrawRequestedAt + p.bondWithdrawDelaySnapshot) :
    d.participantBondFinalizeWithdraw clock user userCollateral none remaining = Exec.abort .overflow := by
  have hsum : (addI64 p.bondWithdrawRequestedAt p.bondWithdrawDelaySnapshot : Exec TreasurerError Panic Int)
      = Exec.abort .overflow := if_neg (by omega)
  simp only [participantBondFinalizeWithdraw, hc, participant_eq_ok.mpr hp, appealVerdict, ok_bind, Exec.require,
    if_pos hpend, hsum]
  rfl

lemma runFinalizeSlash_overflow (hv : d.verdicts.lookup target = some v) (hs : v.status = .slashPending)
    (hover : 2 ^ 63 ≤ v.pendingSinceUnix + d.run.challengeWindowSeconds) (index : Nat) :
    d.runFinalizeSlash clock target index = Exec.abort .overflow := by
  have hsum : (addI64 v.pendingSinceUnix d.run.challengeWindowSeconds : Exec TreasurerError Panic Int)
      = Exec.abort .overflow := if_neg (by omega)
  simp only [runFinalizeSlash, verdict_eq_ok.mpr hv, ok_bind, checkFinalizable, hs, hsum]
  rfl

lemma runOpenChallenge_overflow (hp : d.participants.lookup target = some p)
    (hb : d.run.bondMinimumAmount ≤ p.bondAmount) (hv : d.verdicts.lookup target = some v)
    (hs : v.status = .slashPending) (hover : 2 ^ 63 ≤ v.pendingSinceUnix + d.run.challengeWindowSeconds) :
    d.runOpenChallenge clock target = Exec.abort .overflow := by
  have hsum : (addI64 v.pendingSinceUnix d.run.challengeWindowSeconds : Exec TreasurerError Panic Int)
      = Exec.abort .overflow := if_neg (by omega)
  simp only [runOpenChallenge, participant_eq_ok.mpr hp, verdict_eq_ok.mpr hv, ok_bind, Exec.require, if_pos hb,
    if_pos hs, hsum]
  rfl

/-- Accepted settings under which no withdrawal and no conviction can be finalized, and no challenge opened, at any
moment. -/
theorem time_settings_freeze :
    (runOf (deferred (2 ^ 63 - 1))).1.length = (deferred (2 ^ 63 - 1)).length
      ∧ ∀ clock,
        (runOf (deferred (2 ^ 63 - 1))).2.participantBondFinalizeWithdraw clock 1 (wallet 1) none []
            = .error (.panic .overflow)
          ∧ (runOf (deferred (2 ^ 63 - 1))).2.runFinalizeSlash clock 3 2 = .error (.panic .overflow)
          ∧ (runOf (deferred (2 ^ 63 - 1))).2.runOpenChallenge clock 3 = .error (.panic .overflow) := by
  have hexit : (runOf (deferred (2 ^ 63 - 1))).2.exitOf 1 = ⟨40, 17, 2 ^ 63 - 1⟩ := by decide +kernel
  have hwallet : (runOf (deferred (2 ^ 63 - 1))).2.checkCollateral 1 (wallet 1) = .ok () := by decide +kernel
  have hone : ((runOf (deferred (2 ^ 63 - 1))).2.participants.lookup 1).isSome := by decide +kernel
  have hthree : ((runOf (deferred (2 ^ 63 - 1))).2.participants.lookup 3).isSome := by decide +kernel
  have hverdict : ((runOf (deferred (2 ^ 63 - 1))).2.verdicts.lookup 3).map (fun v => (v.status, v.pendingSinceUnix))
      = some (.slashPending, 19) := by decide +kernel
  have hterms : (runOf (deferred (2 ^ 63 - 1))).2.run.challengeWindowSeconds = 2 ^ 63 - 1
      ∧ (runOf (deferred (2 ^ 63 - 1))).2.run.bondMinimumAmount = 0 := by decide +kernel
  obtain ⟨p, hp⟩ := Option.isSome_iff_exists.mp hone
  obtain ⟨q, hq⟩ := Option.isSome_iff_exists.mp hthree
  obtain ⟨v, hv, he⟩ := Option.map_eq_some_iff.mp hverdict
  obtain ⟨hs, hsince⟩ := Prod.mk.inj he
  rw [exitOf, hp] at hexit
  obtain ⟨hpend, hreq, hdelay⟩ := Exit.mk.inj hexit
  refine ⟨by decide +kernel, fun clock => ⟨?_, ?_, ?_⟩⟩
  · exact participantBondFinalizeWithdraw_overflow hp hwallet (by omega) (by omega)
  · exact runFinalizeSlash_overflow hv hs (by omega) 2
  · exact runOpenChallenge_overflow hq (by omega) hv hs (by omega)

end Safety
end Deployment
end Leviathan
