import Leviathan.Treasurer.Inversion

/-!
# The life cycle of a dispute

A dispute about a target goes from a vote to a verdict, and perhaps through a challenge and an appeal. `Dispute.Step`
says so apart from any account, with one constructor for each way in which a dispute goes on and the marks it leaves.
The instructions of the treasurer move every verdict account in this way (`Step.refines`).
-/

namespace Leviathan
open Exec List

def VerdictStatus.next : VerdictStatus → List VerdictStatus
  | .voting => [.slashPending, .upheld]
  | .slashPending => [.challenged, .upheld]
  | .challenged => [.upheld, .overturned]
  | .upheld | .overturned => []

/-- A dispute: where it stands, who has voted in it, and how many of the voters have been slashed for it. -/
structure Dispute where
  status : VerdictStatus
  voters : List Pubkey
  settled : Nat
deriving DecidableEq, Repr

namespace Dispute

/-- What a step does to a dispute. -/
inductive Mark where
  | opened
  | voted (voter : Pubkey) (draw : Draw)
  | convicted
  | loser (voter : Pubkey)
deriving DecidableEq, Repr

/-- Nothing is left to be done about a dispute. -/
def Over (x : Dispute) : Prop :=
  x.status = .voting ∨ x.status = .upheld ∨ (x.status = .overturned ∧ x.voters.length ≤ x.settled)

inductive Step : Option Dispute → List Mark → Option Dispute → Prop where
  | begin {old voter draw} :
    (∀ x ∈ old, Over x) →
    Step old [.opened, .voted voter draw] (some ⟨.voting, [voter], 0⟩)
  | vote {voters n voter draw} :
    voter ∉ voters →
    Step (some ⟨.voting, voters, n⟩) [.voted voter draw] (some ⟨.voting, voters ++ [voter], n⟩)
  | pend {voters n voter draw} :
    voter ∉ voters →
    Step (some ⟨.voting, voters, n⟩) [.voted voter draw] (some ⟨.slashPending, voters ++ [voter], n⟩)
  | convict {voters n voter draw} :
    voter ∉ voters →
    Step (some ⟨.voting, voters, n⟩) [.voted voter draw, .convicted] (some ⟨.upheld, voters ++ [voter], n⟩)
  | challenge {voters n} :
    Step (some ⟨.slashPending, voters, n⟩) [] (some ⟨.challenged, voters, n⟩)
  | appeal {voters n} :
    Step (some ⟨.challenged, voters, n⟩) [] (some ⟨.challenged, voters, n⟩)
  | overturn {voters n} :
    Step (some ⟨.challenged, voters, n⟩) [] (some ⟨.overturned, voters, n⟩)
  | uphold {status voters n} :
    status = .slashPending ∨ status = .challenged →
    Step (some ⟨status, voters, n⟩) [.convicted] (some ⟨.upheld, voters, n⟩)
  | settle {voters n voter} :
    voters[n]? = some voter →
    Step (some ⟨.overturned, voters, n⟩) [.loser voter] (some ⟨.overturned, voters, n + 1⟩)

/-- What a step may change. -/
structure Lawful (old : Option Dispute) (marks : List Mark) (new : Option Dispute) : Prop where
  absent : .opened ∉ marks → old = none → new = none
  moves : .opened ∉ marks → ∀ x ∈ old, ∃ x' ∈ new,
    (x'.status = x.status ∨ x'.status ∈ x.status.next) ∧ x.voters <+: x'.voters ∧ x.settled ≤ x'.settled
  resets : .opened ∈ marks → (∀ x ∈ old, Over x) ∧ ∃ voter, new = some ⟨.voting, [voter], 0⟩
  convicts : .convicted ∈ marks ↔
    new.map Dispute.status = some .upheld ∧ old.map Dispute.status ≠ some .upheld
  settles : ∀ voter, .loser voter ∈ marks → ∃ x ∈ old,
    x.status = .overturned ∧ x.voters[x.settled]? = some voter ∧ new = some { x with settled := x.settled + 1 }

lemma Step.lawful {old new : Option Dispute} {marks : List Mark} (st : Step old marks new) :
    Lawful old marks new := by
  cases st with
  | begin h => exact ⟨by simp, by simp, fun _ => ⟨h, _, rfl⟩, by simp, by simp⟩
  | uphold h =>
    obtain rfl | rfl := h <;>
    exact ⟨by simp, by simp [VerdictStatus.next], by simp, by simp, by simp⟩
  | settle h => exact ⟨by simp, by simp, by simp, by simp, by simp [h]⟩
  | _ => exact ⟨by simp, by simp [VerdictStatus.next], by simp, by simp, by simp⟩

lemma Lawful.refl (old : Option Dispute) : Lawful old [] old where
  absent _ h := h
  moves _ x hx := ⟨x, hx, .inl rfl, prefix_refl _, Nat.le_refl _⟩
  resets h := by cases h
  convicts := by
    refine ⟨by rintro ⟨⟩, ?_⟩
    rintro ⟨h, hne⟩
    exact absurd h hne
  settles _ h := by cases h

section History

/-- The marks since the last reset, of a history with the newest mark first. -/
def since (marks : List Mark) : List Mark := marks.takeWhile (· ≠ .opened)

/-- The voters that have been slashed, in order. -/
def losers (marks : List Mark) : List Pubkey :=
  (marks.filterMap fun | .loser voter => some voter | _ => none).reverse

def ballots (marks : List Mark) : List Pubkey :=
  (marks.filterMap fun | .voted voter _ => some voter | _ => none).reverse

/-- What the marks since the last reset say about a dispute. -/
structure Kept (marks : List Mark) (x : Dispute) : Prop where
  voters : ballots (since marks) = x.voters
  nodup : x.voters.Nodup
  convictions : (since marks).count .convicted = if x.status = .upheld then 1 else 0
  losers : losers (since marks) = x.voters.take x.settled
  settled_le : x.settled ≤ x.voters.length
  unsettled : x.status ≠ .overturned → x.settled = 0

variable {old new : Option Dispute} {log marks : List Mark}

lemma since_append (h : .opened ∉ marks) : since (marks.reverse ++ log) = marks.reverse ++ since log := by
  refine takeWhile_append_of_pos fun m hm => ?_
  rw [decide_eq_true_eq]
  rintro rfl
  exact h (mem_reverse.mp hm)

/-- Steps that do not reset the account keep what the marks say if their own marks say what has changed. -/
lemma Kept.step {x x' : Dispute} (h : Kept log x) (ho : .opened ∉ marks)
    (hv : x'.voters = x.voters ++ ballots marks.reverse) (hn : x'.voters.Nodup)
    (hc : marks.count .convicted + (if x.status = .upheld then 1 else 0) = if x'.status = .upheld then 1 else 0)
    (hl : x'.voters.take x'.settled = x.voters.take x.settled ++ Dispute.losers marks.reverse)
    (hle : x'.settled ≤ x'.voters.length) (hu : x'.status ≠ .overturned → x'.settled = 0) :
    Kept (marks.reverse ++ log) x' where
  voters := by
    rw [since_append ho, hv, ← h.voters]
    simp [ballots]
  nodup := hn
  convictions := by
    rw [since_append ho, count_append, count_reverse, h.convictions, hc]
  losers := by
    rw [since_append ho, hl, ← h.losers]
    simp [Dispute.losers]
  settled_le := hle
  unsettled := hu

lemma Kept.vote {voters : List Pubkey} {n : Nat} {voter : Pubkey} {status : VerdictStatus}
    (h : Kept log ⟨.voting, voters, n⟩) (hv : voter ∉ voters) (ho : .opened ∉ marks)
    (hb : ballots marks.reverse = [voter]) (hl : Dispute.losers marks.reverse = [])
    (hc : marks.count .convicted = if status = .upheld then 1 else 0) :
    Kept (marks.reverse ++ log) ⟨status, voters ++ [voter], n⟩ := by
  have hn : n = 0 := h.unsettled (by rintro ⟨⟩)
  subst hn
  refine h.step ho (by rw [hb]) ?_ (by simpa using hc) (by simp [hl]) (Nat.zero_le _) fun _ => rfl
  refine nodup_append.mpr ⟨h.nodup, nodup_singleton _, ?_⟩
  rintro a ha b hb rfl
  exact hv (mem_singleton.mp hb ▸ ha)

lemma Step.kept (st : Step old marks new) (h : ∀ x ∈ old, Kept log x) :
    ∀ x ∈ new, Kept (marks.reverse ++ log) x := by
  rintro x' hx'
  cases st with
  | begin _ =>
    cases hx'
    exact ⟨rfl, nodup_singleton _, rfl, rfl, Nat.zero_le _, fun _ => rfl⟩
  | vote hv | pend hv | convict hv =>
    cases hx'
    exact (h _ rfl).vote hv (by simp) rfl rfl rfl
  | challenge =>
    cases hx'
    have hk := h _ rfl
    exact hk.step (by simp) (by simp [ballots]) hk.nodup rfl (by simp [Dispute.losers]) hk.settled_le
      fun _ => hk.unsettled (by rintro ⟨⟩)
  | appeal => exact h _ hx'
  | overturn =>
    cases hx'
    have hk := h _ rfl
    exact hk.step (by simp) (by simp [ballots]) hk.nodup rfl (by simp [Dispute.losers]) hk.settled_le
      fun hne => absurd rfl hne
  | uphold hs =>
    cases hx'
    have hk := h _ rfl
    have hn := hk.unsettled (by obtain rfl | rfl := hs <;> simp)
    exact hk.step (by simp) (by simp [ballots]) hk.nodup (by obtain rfl | rfl := hs <;> rfl)
      (by simp [Dispute.losers]) hk.settled_le fun _ => hn
  | settle hv =>
    cases hx'
    have hk := h _ rfl
    have hlt := (List.getElem?_eq_some_iff.mp hv).1
    exact hk.step (by simp) (by simp [ballots]) hk.nodup rfl
      (by simp [Dispute.losers, take_add_one, hv]) hlt fun hne => absurd rfl hne

end History
end Dispute

/-- What an effect does to the dispute about a target. -/
def TreasurerEffect.mark (target : Pubkey) : TreasurerEffect → Option Dispute.Mark
  | .opened t => if t = target then some .opened else none
  | .voted t voter draw => if t = target then some (.voted voter draw) else none
  | .convicted t => if t = target then some .convicted else none
  | .loserSlashed t voter => if t = target then some (.loser voter) else none
  | _ => none

/-- What effects do to the dispute about a target. -/
def marks (target : Pubkey) (fx : List TreasurerEffect) : List Dispute.Mark := fx.filterMap (·.mark target)

def AuditVerdict.dispute (v : AuditVerdict) : Dispute := ⟨v.status, v.voters, v.settledCount⟩

namespace Deployment

def dispute (d : Deployment) (target : Pubkey) : Option Dispute :=
  (d.verdicts.lookup target).map AuditVerdict.dispute

section Inversion
variable {d : Deployment} {fx : List TreasurerEffect} {v v' : AuditVerdict} {appellate : Pubkey} {overturn : Bool}

lemma openVerdict_inv {target : Pubkey} {epoch height : Nat}
    (h : d.openVerdict target epoch height = .ok (v, fx)) :
    (fx = [.opened target] ∧ (∃ key, v = .forRound key epoch height) ∧ ∀ x ∈ d.dispute target, x.Over)
      ∨ (fx = [] ∧ d.verdicts.lookup target = some v ∧ v.epoch = epoch ∧ v.roundHeight = height) := by
  unfold openVerdict at h
  split at h
  · rename_i hl
    cases h
    exact .inl ⟨rfl, ⟨_, rfl⟩, by simp [dispute, hl]⟩
  · rename_i old hl
    split at h
    · simp only [bind_eq_ok, require_eq_ok, ok_pair] at h
      obtain ⟨_, hs, rfl, rfl⟩ := h
      refine .inl ⟨rfl, ⟨_, rfl⟩, fun x hx => ?_⟩
      rw [dispute, hl] at hx
      cases hx
      unfold AuditVerdict.isSettled at hs
      unfold Dispute.Over
      split at hs <;> simp_all [AuditVerdict.dispute]
    · rename_i hkey
      cases h
      rw [not_or, not_not, not_not] at hkey
      exact .inr ⟨rfl, hl, hkey⟩

/-- A vote is the first of its voter, and agrees with the evidence. -/
lemma castVote_inv {verifier : Pubkey} {evidence : Evidence} (h : castVote v verifier evidence = .ok v') :
    v.status = .voting ∧ verifier ∉ v.voters
      ∧ v.voters.length < maxVerdictVoters ∧ (v.voters = [] ∨ v.evidence = evidence)
      ∧ v' = { v with evidence, voters := v.voters ++ [verifier], verdictCount := v.verdictCount + 1 } := by
  simp only [castVote, bind_eq_ok, require_eq_ok, addU_eq_ok, Except.ok.injEq] at h
  obtain ⟨_, hs, _, hv, _, hlen, _, hev, _, ⟨_, rfl⟩, rfl⟩ := h
  exact ⟨hs, hv, hlen, hev, rfl⟩

lemma castAppeal_eq (h : castAppeal v appellate overturn = .ok v') :
    v.status = .challenged ∧ appellate ∉ v.appealVoters
      ∧ appellate ∉ v.voters ∧ v.appealVoters.length < maxAppealVoters ∧ v' = { v with
        appealVoters := v.appealVoters ++ [appellate]
        overturnCount := v.overturnCount + if overturn then 1 else 0
        upholdCount := v.upholdCount + if overturn then 0 else 1 } := by
  simp only [castAppeal, bind_eq_ok, require_eq_ok] at h
  obtain ⟨_, hs, _, hnew, _, hv, _, hlen, h⟩ := h
  refine ⟨hs, hnew, hv, hlen, ?_⟩
  split at h <;>
  · rename_i ho
    simp only [bind_eq_ok, addU_eq_ok, Except.ok.injEq] at h
    obtain ⟨_, ⟨_, rfl⟩, rfl⟩ := h
    simp [ho]

lemma castAppeal_inv (h : castAppeal v appellate overturn = .ok v') : v.status = .challenged ∧ v'.status = .challenged
      ∧ v'.voters = v.voters ∧ v'.settledCount = v.settledCount ∧ v'.target = v.target := by
  obtain ⟨hs, _, _, _, rfl⟩ := castAppeal_eq h
  exact ⟨hs, hs, rfl, rfl, rfl⟩

end Inversion

section Refinement
variable {P : Platform} {ix : TreasurerInstruction} {d d' : Deployment} {fx : List TreasurerEffect}
  {target : Pubkey} {v : AuditVerdict} {key : Option Pubkey}

lemma marks_append (fx fx' : List TreasurerEffect) : marks target (fx ++ fx') = marks target fx ++ marks target fx' :=
  filterMap_append

lemma marks_log (fx log : List TreasurerEffect) :
    marks target (fx.reverse ++ log) = (marks target fx).reverse ++ marks target log := by
  rw [marks_append]
  exact congrArg (· ++ _) filterMap_reverse

lemma marks_eq_nil (h : ∀ e ∈ fx, e.mark target = none) : marks target fx = [] :=
  filterMap_eq_nil_iff.mpr h

lemma Ballot.dispute {verifier : Pubkey} {evidence : Evidence} {selection : CommitteeSelection}
    {opened : List TreasurerEffect} {v' : AuditVerdict}
    (h : Ballot P d verifier target evidence selection opened v v') :
    (opened = [.opened target] ∧ v'.dispute = ⟨.voting, [verifier], 0⟩ ∧ v'.verdictCount = 1
        ∧ ∀ x ∈ d.dispute target, x.Over)
      ∨ (opened = [] ∧ verifier ∉ v.voters ∧ d.dispute target = some ⟨.voting, v.voters, v.settledCount⟩
        ∧ v'.dispute = ⟨.voting, v.voters ++ [verifier], v.settledCount⟩) := by
  obtain ⟨hs, hv, _, _, rfl⟩ := castVote_inv h.votes
  obtain ⟨rfl, ⟨key, rfl⟩, ho⟩ | ⟨rfl, hl, _⟩ := openVerdict_inv h.opens
  · exact .inl ⟨rfl, rfl, rfl, ho⟩
  · refine .inr ⟨rfl, hv, ?_, ?_⟩
    · rw [Deployment.dispute, hl, ← hs]
      rfl
    · rw [AuditVerdict.dispute, hs]

lemma Moves.dispute (h : Moves P d target ix fx v key) :
    Dispute.Step (d.dispute target) (marks target fx) (some v.dispute) := by
  have hl : ∀ {v}, d.verdicts.lookup target = some v → d.dispute target = some ⟨v.status, v.voters, v.settledCount⟩ :=
    fun h => by rw [Deployment.dispute, h]; rfl
  cases h with
  | vote hb =>
    obtain ⟨rfl, hd, _, ho⟩ | ⟨rfl, hv, hd, hd'⟩ := hb.dispute
    · rw [hd]
      simpa [marks, ballotEffects, TreasurerEffect.mark] using .begin ho
    · rw [hd, hd']
      simpa [marks, ballotEffects, TreasurerEffect.mark] using .vote hv
  | pend hb hq =>
    obtain ⟨rfl, _, hc, _⟩ | ⟨rfl, hv, hd, hd'⟩ := hb.dispute
    · omega
    · rw [AuditVerdict.dispute, Dispute.mk.injEq] at hd'
      rw [hd, AuditVerdict.dispute, hd'.2.1, hd'.2.2]
      simpa [marks, ballotEffects, TreasurerEffect.mark] using .pend hv
  | convict hb hq =>
    obtain ⟨rfl, _, hc, _⟩ | ⟨rfl, hv, hd, hd'⟩ := hb.dispute
    · omega
    · rw [AuditVerdict.dispute, Dispute.mk.injEq] at hd'
      rw [hd, AuditVerdict.dispute, hd'.2.1, hd'.2.2]
      simpa [marks, ballotEffects, TreasurerEffect.mark] using .convict hv
  | challenge h hs =>
    rw [hl h, hs]
    exact .challenge
  | appeal h hc =>
    obtain ⟨hs, hs', hv, hn, _⟩ := castAppeal_inv hc
    rw [hl h, hs, AuditVerdict.dispute, hs', hv, hn]
    exact .appeal
  | overturn h hc =>
    obtain ⟨hs, _, hv, hn, _⟩ := castAppeal_inv hc
    rw [hl h, hs, AuditVerdict.dispute, hv, hn]
    exact .overturn
  | uphold h hc =>
    obtain ⟨hs, _, hv, hn, _⟩ := castAppeal_inv hc
    rw [hl h, hs, AuditVerdict.dispute, hv, hn]
    simpa [marks, TreasurerEffect.mark] using .uphold (.inr rfl)
  | finalize h hs =>
    rw [hl h]
    simpa [marks, TreasurerEffect.mark] using .uphold hs
  | loser h hs hk =>
    rw [hl h, hs, AuditVerdict.dispute]
    simpa [marks, TreasurerEffect.mark] using .settle hk

lemma Moves.marks_ne {other : Pubkey} (h : Moves P d target ix fx v key) (hne : other ≠ target) :
    marks other fx = [] := by
  refine marks_eq_nil fun e he => ?_
  obtain rfl | ⟨_, _, rfl⟩ | rfl | ⟨_, rfl⟩ := h.effects e he <;> exact if_neg hne.symm

lemma DisputeStep.dispute (st : DisputeStep P ix d target fx d') (other : Pubkey) :
    (marks other fx = [] ∧ d'.dispute other = d.dispute other)
      ∨ Dispute.Step (d.dispute other) (marks other fx) (d'.dispute other) := by
  have hset : ∀ {fx v key}, Moves P d target ix fx v key →
      (marks other fx = [] ∧ (d.setVerdict target v).dispute other = d.dispute other)
        ∨ Dispute.Step (d.dispute other) (marks other fx) ((d.setVerdict target v).dispute other) := by
    intro fx v key hm
    by_cases ho : other = target
    · subst ho
      have hv : (d.setVerdict other v).dispute other = some v.dispute := by simp [Deployment.dispute, setVerdict]
      exact .inr (hv ▸ hm.dispute)
    · refine .inl ⟨hm.marks_ne ho, ?_⟩
      simp [Deployment.dispute, setVerdict, AList.lookup_insert_ne ho]
  cases st with
  | quiet hm => exact hset hm
  | @slash _ _ key _ hm hsl =>
    obtain ⟨_, _, _, _, _, _, rfl⟩ := hsl
    have hnil : marks other [.coordinator (.ejected key)] = [] := rfl
    rw [marks_append, hnil, append_nil]
    exact hset hm

lemma Step.refines (st : Step P ix d fx d') (target : Pubkey) :
    (marks target fx = [] ∧ d'.dispute target = d.dispute target)
      ∨ Dispute.Step (d.dispute target) (marks target fx) (d'.dispute target) := by
  cases st with
  | call hc _ =>
    obtain ⟨account, fx', rfl, rfl, _⟩ := callCoordinator_inv hc
    exact .inl ⟨marks_eq_nil (by simp [TreasurerEffect.mark]), rfl⟩
  | slash hsl =>
    obtain ⟨_, _, _, _, _, _, rfl⟩ := hsl
    exact .inl ⟨rfl, rfl⟩
  | finalize hf _ =>
    rw [hf.eq]
    refine .inl ⟨marks_eq_nil fun e he => ?_, rfl⟩
    obtain he | he := mem_append.mp he
    · obtain ⟨x, _, rfl⟩ := mem_map.mp he
      rfl
    · split at he
      · cases he
      · rw [mem_singleton.mp he]
        rfl
  | dispute hd => exact hd.dispute target
  | _ => exact .inl ⟨rfl, rfl⟩

lemma Step.lawful (st : Step P ix d fx d') (target : Pubkey) :
    Dispute.Lawful (d.dispute target) (marks target fx) (d'.dispute target) := by
  obtain ⟨hm, hd⟩ | st := st.refines target
  · rw [hm, hd]
    exact .refl _
  · exact st.lawful

/-- An instruction keeps every dispute in step with its log. -/
lemma Step.kept {log : List TreasurerEffect} (st : Step P ix d fx d')
    (h : ∀ x ∈ d.dispute target, Dispute.Kept (marks target log) x) :
    ∀ x ∈ d'.dispute target, Dispute.Kept (marks target (fx.reverse ++ log)) x := by
  rw [marks_log]
  obtain ⟨hm, hd⟩ | st := st.refines target
  · rw [hm, hd]
    exact h
  · exact st.kept h

end Refinement

section Slashes
variable {P : Platform} {ix : TreasurerInstruction} {d d' : Deployment} {fx : List TreasurerEffect}
  {target : Pubkey} {v : AuditVerdict} {key : Option Pubkey}

/-- Every verdict account is about the key it is stored under. -/
def Targeted (d : Deployment) : Prop := ∀ target v, d.verdicts.lookup target = some v → v.target = target

lemma Targeted.openVerdict (h : Targeted d) {epoch height : Nat}
    (ho : d.openVerdict target epoch height = .ok (v, fx)) : v.target = target := by
  unfold Deployment.openVerdict at ho
  split at ho
  · cases ho
    rfl
  · rename_i old hl
    split at ho
    · simp only [bind_eq_ok, ok_pair] at ho
      obtain ⟨_, _, rfl, _⟩ := ho
      exact h target old hl
    · cases ho
      exact h target _ hl

lemma Targeted.moves (h : Targeted d) (hm : Moves P d target ix fx v key) : v.target = target := by
  have hb : ∀ {verifier evidence selection opened v v'},
      Ballot P d verifier target evidence selection opened v v' → v'.target = target := by
    intro verifier evidence selection opened v v' hb
    obtain ⟨_, _, _, _, rfl⟩ := castVote_inv hb.votes
    exact (h.openVerdict hb.opens :)
  cases hm with
  | vote hv => exact hb hv
  | pend hv _ => exact (hb hv :)
  | convict hv _ => exact (hb hv :)
  | challenge hl _ | finalize hl _ | loser hl _ _ => exact (h target _ hl :)
  | appeal hl hc | overturn hl hc | uphold hl hc => exact (castAppeal_inv hc).2.2.2.2.trans (h target _ hl)

lemma Targeted.setVerdict (h : Targeted d) (hv : v.target = target) : Targeted (d.setVerdict target v) := by
  intro other w hw
  obtain ⟨rfl, rfl⟩ | ⟨_, hw⟩ := Accounts.lookup_insert_eq_some hw
  · exact hv
  · exact h other w hw

lemma Step.targeted (st : Step P ix d fx d') (h : Targeted d) : Targeted d' := by
  cases st with
  | call hc _ =>
    obtain ⟨_, _, rfl, _, _⟩ := callCoordinator_inv hc
    exact h
  | slash hsl =>
    obtain ⟨_, _, _, _, _, _, rfl⟩ := hsl
    exact h
  | finalize hf _ =>
    rw [hf.eq]
    exact h
  | dispute hd =>
    cases hd with
    | quiet hm => exact h.setVerdict (h.moves hm)
    | slash hm hsl =>
      obtain ⟨_, _, _, _, _, _, rfl⟩ := hsl
      exact h.setVerdict (h.moves hm)
  | _ => exact h

lemma Moves.slashes (hm : Moves P d target ix fx v key) (h : Targeted d) :
    (∀ t, .convicted t ∈ fx → key = some t) ∧ (∀ t voter, .loserSlashed t voter ∈ fx → key = some voter)
      ∧ ∀ k ∈ key, .convicted k ∈ fx ∨ ∃ t, .loserSlashed t k ∈ fx := by
  have hb : ∀ {verifier evidence selection opened v v'},
      Ballot P d verifier target evidence selection opened v v' →
      (∀ t, .convicted t ∉ ballotEffects d verifier target selection opened)
        ∧ ∀ t voter, .loserSlashed t voter ∉ ballotEffects d verifier target selection opened := by
    intro verifier evidence selection opened v v' hb
    exact ⟨fun t he => by simpa using hb.effects _ he, fun t voter he => by simpa using hb.effects _ he⟩
  cases hm with
  | vote hv | pend hv _ =>
    exact ⟨fun t he => absurd he ((hb hv).1 t), fun t k he => absurd he ((hb hv).2 t k), by simp⟩
  | convict hv _ => exact ⟨by simp [(hb hv).1], by simp [(hb hv).2], by simp⟩
  | finalize hl _ => simp [h target _ hl]
  | _ => simp

/-- The slashes of an instruction: a convicted target and a voter that lost are slashed, and only the authority slashes
anybody else. -/
structure Accounted (ix : TreasurerInstruction) (fx : List TreasurerEffect) : Prop where
  convicted : ∀ target, .convicted target ∈ fx → .coordinator (.ejected target) ∈ fx
  loser : ∀ target voter, .loserSlashed target voter ∈ fx → .coordinator (.ejected voter) ∈ fx
  ejected : ∀ key, .coordinator (.ejected key) ∈ fx → (∃ authority index, ix = .runSlash authority index)
    ∨ .convicted key ∈ fx ∨ ∃ target, .loserSlashed target key ∈ fx

lemma DisputeStep.accounted (st : DisputeStep P ix d target fx d') (h : Targeted d) :
    Accounted ix fx := by
  have hne : ∀ {fx v key}, Moves P d target ix fx v key → ∀ k, .coordinator (.ejected k) ∉ fx :=
    fun hm k he => by cases hm.isDispute _ he
  cases st with
  | quiet hm =>
    obtain ⟨hc, hl, _⟩ := hm.slashes h
    exact ⟨fun t he => (by cases hc t he), fun t voter he => (by cases hl t voter he),
      fun key he => absurd he (hne hm key)⟩
  | @slash fx' _ _ _ hm _ =>
    obtain ⟨hc, hl, hk⟩ := hm.slashes h
    refine ⟨fun t he => ?_, fun t voter he => ?_, fun key he => ?_⟩
    · have he : .convicted t ∈ fx' := by simpa using he
      simp [Option.some.inj (hc t he)]
    · have he : .loserSlashed t voter ∈ fx' := by simpa using he
      simp [Option.some.inj (hl t voter he)]
    · obtain he | he := mem_append.mp he
      · exact absurd he (hne hm key)
      · obtain rfl : key = _ := by simpa using he
        simpa using .inr (hk key rfl)

lemma Step.accounted (st : Step P ix d fx d') (h : Targeted d) : Accounted ix fx := by
  cases st with
  | call hc hns =>
    have hne := not_ejected_of_callCoordinator hns hc
    obtain ⟨_, fx', _, rfl, _⟩ := callCoordinator_inv hc
    exact ⟨by simp, by simp, fun key he => absurd he (hne key)⟩
  | slash _ => exact ⟨by simp, by simp, fun _ _ => .inl ⟨_, _, rfl⟩⟩
  | finalize _ _ =>
    refine ⟨fun t he => ?_, fun t voter he => ?_, fun key he => ?_⟩ <;>
      obtain ⟨_, _, e⟩ | e := mem_finalizedEffects he <;> cases e
  | dispute hd => exact hd.accounted h
  | _ => exact ⟨by simp, by simp, by simp⟩

end Slashes

section Runs
variable {P : Platform} {d : Deployment} {tr : Record}

lemma targeted_of_run (r : (machine P).Run tr d) : Targeted d := by
  refine r.invariant (I := Targeted) ?_ ?_
  · rintro _ ⟨_, _, _, _, v, rfl⟩
    rintro _ _ ⟨⟩
  · intro d i d' fx h st
    exact (process_inv st).targeted h

/-- A dispute is what its marks make of it. -/
lemma kept_of_run (r : (machine P).Run tr d) (target : Pubkey) :
    ∀ x ∈ d.dispute target, Dispute.Kept (marks target (log tr)) x := by
  refine r.history (P := fun tr d => ∀ x ∈ d.dispute target, Dispute.Kept (marks target (log tr)) x) ?_ ?_
  · rintro _ ⟨_, _, _, _, v, rfl⟩
    rintro _ ⟨⟩
  · intro tr d i d' fx _ h st
    exact (process_inv st).kept h

/-- In every run every accepted instruction moves every dispute along its life cycle, and slashes only whom a dispute
convicts or finds to have voted for an overturned verdict, or whom the authority slashes; an account is reset only if
nothing is left to be done about its dispute; since then the target has been slashed for it once if the conviction was
upheld and not at all otherwise, and of an overturned verdict the first `settled` voters have been slashed, in order and
each once. -/
theorem dispute_life_cycle (r : (machine P).Run tr d) :
    (∀ ev ∈ tr, Accounted ev.input.2 ev.output
      ∧ ∀ target, Dispute.Lawful (ev.before.dispute target) (marks target ev.output) (ev.after.dispute target))
    ∧ (∀ ev ∈ tr, ∀ target, .opened target ∈ ev.output → ∀ v, ev.before.verdicts.lookup target = some v →
      v.status = .voting ∨ v.status = .upheld ∨ (v.status = .overturned ∧ v.settledCount = v.voters.length))
    ∧ ∀ target v, d.verdicts.lookup target = some v →
      Dispute.Kept (marks target (log tr)) ⟨v.status, v.voters, v.settledCount⟩ := by
  refine ⟨fun ev hev => ?_, fun ev hev target ho v hv => ?_, fun target v hv => ?_⟩
  · obtain ⟨_, r', st⟩ := r.mem hev
    exact ⟨(process_inv st).accounted (targeted_of_run r'), (process_inv st).lawful⟩
  · obtain ⟨_, r', st⟩ := r.mem hev
    have hd : ev.before.dispute target = some v.dispute := by rw [dispute, hv]; rfl
    have hmark : .opened ∈ marks target ev.output :=
      mem_filterMap.mpr ⟨_, ho, by simp [TreasurerEffect.mark]⟩
    have hle := (kept_of_run r' target v.dispute hd).settled_le
    obtain hs | hs | ⟨hs, hge⟩ := (((process_inv st).lawful target).resets hmark).1 v.dispute hd
    · exact .inl hs
    · exact .inr (.inl hs)
    · exact .inr (.inr ⟨hs, Nat.le_antisymm hle hge⟩)
  · exact kept_of_run r target v.dispute (by rw [dispute, hv]; rfl)

/-- Two of three clients vote against the third, which does not contest it. -/
def uncontested : List (Clock × TreasurerInstruction) :=
  trio ++ [(⟨16, 1⟩, .runSubmitAuditVerdict 1 3 ⟨2, 0, 1, 0, 1⟩),
    (⟨17, 1⟩, .runSubmitAuditVerdict 2 3 ⟨2, 0, 1, 0, 1⟩), (⟨27, 1⟩, .runFinalizeSlash 3 2)]

/-- A verdict that is not contested is upheld. -/
theorem dispute_life_cycle_uncontested :
    (runOf uncontested).2.dispute 3 = some ⟨.upheld, [1, 2], 0⟩
      ∧ Dispute.Kept (marks 3 (log (runOf uncontested).1)) ⟨.upheld, [1, 2], 0⟩ := by
  have hd : (runOf uncontested).2.dispute 3 = some ⟨.upheld, [1, 2], 0⟩ := by decide +kernel
  obtain ⟨v, hv, he⟩ := Option.map_eq_some_iff.mp hd
  exact ⟨hd, he ▸ (dispute_life_cycle (runOf_run uncontested)).2.2 3 v hv⟩

end Runs
end Deployment
end Leviathan
