import Leviathan.Treasurer.LifeCycle

/-!
# The record of a dispute

The account of a dispute (`solana-treasurer/src/state/audit_verdict.rs`) counts votes and lists voters, twice: those of
the verifiers and those of an appeal. `Recorded` says how these fields belong together. Five instructions write them and
one helper clears them, but all of them are steps of one dispute (`Step.verdict`), so it is enough to look at these
(`Moves.recorded`).
-/

namespace Leviathan.Deployment
open Exec List

section Steps
variable {P : Platform} {ix : TreasurerInstruction} {d d' : Deployment} {fx opened : List TreasurerEffect}
  {target verifier : Pubkey} {v v' : AuditVerdict} {selection : CommitteeSelection} {key : Option Pubkey}

/-- A verdict changes by a move of its dispute only. -/
lemma Step.verdict (st : Step P ix d fx d') (target : Pubkey) :
    (d'.verdicts.lookup target = d.verdicts.lookup target ∧ .opened target ∉ fx)
      ∨ ∃ fx' v key, Moves P d target ix fx' v key ∧ d'.verdicts.lookup target = some v
        ∧ (.opened target ∈ fx ↔ .opened target ∈ fx') := by
  -- a step of the dispute about `other`, after which the account may be slashed
  have hset : ∀ {other fx' v key}, Moves P d other ix fx' v key → ∀ {d'' : Deployment},
      d''.verdicts = (d.setVerdict other v).verdicts → (.opened target ∈ fx ↔ .opened target ∈ fx') →
      (d''.verdicts.lookup target = d.verdicts.lookup target ∧ .opened target ∉ fx)
        ∨ ∃ fx' v key, Moves P d target ix fx' v key ∧ d''.verdicts.lookup target = some v
          ∧ (.opened target ∈ fx ↔ .opened target ∈ fx') := by
    intro other fx' v key hm d'' hv hfx
    by_cases ho : target = other
    · subst ho
      exact .inr ⟨fx', v, key, hm, by rw [hv, Deployment.setVerdict, AList.lookup_insert], hfx⟩
    · refine .inl ⟨by rw [hv, Deployment.setVerdict, AList.lookup_insert_ne ho], fun hmem => ?_⟩
      obtain h | ⟨_, _, h⟩ | h | ⟨_, h⟩ := hm.effects _ (hfx.mp hmem) <;> cases h
      exact ho rfl
  cases st with
  | call hc _ =>
    obtain ⟨_, _, rfl, rfl, _⟩ := callCoordinator_inv hc
    exact .inl ⟨rfl, by simp⟩
  | slash hsl =>
    obtain ⟨_, _, _, _, _, _, rfl⟩ := hsl
    exact .inl ⟨rfl, by simp⟩
  | finalize hf _ =>
    rw [hf.eq]
    refine .inl ⟨rfl, fun h => ?_⟩
    obtain ⟨_, _, h⟩ | h := mem_finalizedEffects h <;> cases h
  | dispute hd =>
    cases hd with
    | quiet hm => exact hset hm rfl .rfl
    | slash hm hsl =>
      obtain ⟨_, _, _, _, _, _, rfl⟩ := hsl
      exact hset hm rfl (by simp)
  | _ => exact .inl ⟨rfl, by simp⟩

/-- How the fields of an account belong together. -/
structure Recorded (v : AuditVerdict) : Prop where
  count : v.verdictCount = v.voters.length
  voters_le : v.voters.length ≤ maxVerdictVoters
  nodup : v.voters.Nodup
  appeals : v.overturnCount + v.upholdCount = v.appealVoters.length
  appealVoters_le : v.appealVoters.length ≤ maxAppealVoters
  appealNodup : v.appealVoters.Nodup
  unchallenged : v.status = .voting ∨ v.status = .slashPending → v.appealVoters = []
  settled_le : v.settledCount ≤ v.voters.length
  unsettled : v.status ≠ .overturned → v.settledCount = 0

lemma Recorded.forRound (key : Pubkey) (epoch height : Nat) : Recorded (.forRound key epoch height) :=
  ⟨rfl, Nat.zero_le _, .nil, rfl, Nat.zero_le _, .nil, fun _ => rfl, le_rfl, fun _ => rfl⟩

lemma Ballot.recorded {evidence : Evidence} (hb : Ballot P d verifier target evidence selection opened v v')
    (h : ∀ v, d.verdicts.lookup target = some v → Recorded v) : Recorded v' ∧ v'.status = .voting := by
  have hv : Recorded v := by
    obtain ⟨_, ⟨key, rfl⟩, _⟩ | ⟨_, hl, _⟩ := openVerdict_inv hb.opens
    · exact .forRound _ _ _
    · exact h v hl
  obtain ⟨hs, hnew, hlen, _, rfl⟩ := castVote_inv hb.votes
  refine ⟨{ hv with
    count := ?_
    voters_le := ?_
    nodup := ?_
    settled_le := ?_ }, hs⟩
  · rw [length_append, hv.count]
    rfl
  · rw [length_append]
    exact hlen
  · exact hv.nodup.append (nodup_singleton _) (by simpa using hnew)
  · rw [length_append]
    exact hv.settled_le.trans (Nat.le_add_right _ _)

lemma Ballot.unappealed {evidence : Evidence} (hb : Ballot P d verifier target evidence selection opened v v')
    (h : ∀ v, d.verdicts.lookup target = some v → Recorded v) : v'.appealVoters = [] := by
  obtain ⟨hv, hs⟩ := hb.recorded h
  exact hv.unchallenged (.inl hs)

lemma Recorded.castAppeal {appellate : Pubkey} {overturn : Bool} (hv : Recorded v)
    (h : castAppeal v appellate overturn = .ok v') : Recorded v' := by
  obtain ⟨hs, hnew, _, hlen, rfl⟩ := castAppeal_eq h
  refine { hv with
    appeals := ?_
    appealVoters_le := ?_
    appealNodup := ?_
    unchallenged := ?_ }
  · rw [length_append, ← hv.appeals]
    cases overturn <;> simp <;> omega
  · rw [length_append]
    exact hlen
  · exact hv.appealNodup.append (nodup_singleton _) (by simpa using hnew)
  · rintro (h | h) <;> rw [hs] at h <;> cases h

lemma Moves.recorded (hm : Moves P d target ix fx v key)
    (h : ∀ v, d.verdicts.lookup target = some v → Recorded v) : Recorded v := by
  cases hm with
  | vote hb => exact (hb.recorded h).1
  | pend hb _ | convict hb _ =>
    obtain ⟨hv, hs⟩ := hb.recorded h
    exact { hv with
      unchallenged := fun _ => hv.unchallenged (.inl hs)
      unsettled := fun _ => hv.unsettled (by rw [hs]; rintro ⟨⟩) }
  | challenge hl hs =>
    have hv := h _ hl
    exact { hv with
      appeals := rfl
      appealVoters_le := Nat.zero_le _
      appealNodup := .nil
      unchallenged := fun _ => rfl
      unsettled := fun _ => hv.unsettled (by rw [hs]; rintro ⟨⟩) }
  | appeal hl hc => exact (h _ hl).castAppeal hc
  | overturn hl hc =>
    have hv := (h _ hl).castAppeal hc
    exact { hv with
      unchallenged := by rintro (h | h) <;> cases h
      unsettled := fun hs => absurd rfl hs }
  | uphold hl hc =>
    have hv := (h _ hl).castAppeal hc
    have hs := (castAppeal_inv hc).2.1
    exact { hv with
      unchallenged := by rintro (h | h) <;> cases h
      unsettled := fun _ => hv.unsettled (by rw [hs]; rintro ⟨⟩) }
  | finalize hl hs =>
    have hv := h _ hl
    exact { hv with
      unchallenged := by rintro (h | h) <;> cases h
      unsettled := fun _ => hv.unsettled (by rintro h; rw [h] at hs; obtain hs | hs := hs <;> cases hs) }
  | loser hl hs hk =>
    have hv := h _ hl
    exact { hv with
      settled_le := (List.getElem?_eq_some_iff.mp hk).1
      unsettled := fun hne => absurd hs hne }

lemma Moves.origin (hm : Moves P d target ix fx v key) :
    (∃ verifier evidence selection opened w w', Ballot P d verifier target evidence selection opened w w'
        ∧ ix = .runSubmitAuditVerdict verifier target evidence ∧ (.opened target ∈ fx ↔ .opened target ∈ opened)
        ∧ v.voters = w'.voters ∧ v.evidence = w'.evidence)
      ∨ ∃ w, d.verdicts.lookup target = some w ∧ .opened target ∉ fx ∧ w.status ≠ .voting ∧ w.status ≠ .upheld
        ∧ v.voters = w.voters ∧ v.evidence = w.evidence := by
  have hc : ∀ {w w' appellate overturn}, castAppeal w appellate overturn = .ok w' →
      w.status ≠ .voting ∧ w.status ≠ .upheld ∧ w'.voters = w.voters ∧ w'.evidence = w.evidence := by
    intro w w' appellate overturn hc
    obtain ⟨hs, _, _, _, rfl⟩ := castAppeal_eq hc
    rw [hs]
    exact ⟨by rintro ⟨⟩, by rintro ⟨⟩, rfl, rfl⟩
  cases hm with
  | vote hb | pend hb _ | convict hb _ => exact .inl ⟨_, _, _, _, _, _, hb, rfl, by simp [ballotEffects], rfl, rfl⟩
  | challenge hl hs | loser hl hs _ => exact .inr ⟨_, hl, by simp, by simp [hs], by simp [hs], rfl, rfl⟩
  | appeal hl h => exact .inr ⟨_, hl, by simp, hc h⟩
  | overturn hl h | uphold hl h => exact .inr ⟨_, hl, by simp, (hc h :)⟩
  | finalize hl hs => obtain hs | hs := hs <;> exact .inr ⟨_, hl, by simp, by simp [hs], by simp [hs], rfl, rfl⟩

lemma Moves.evidence (hm : Moves P d target ix fx v' key) (hl : d.verdicts.lookup target = some v)
    (hv : v.voters ≠ []) (ho : .opened target ∉ fx) : v'.evidence = v.evidence := by
  obtain ⟨_, _, _, _, w, w', hb, _, hiff, _, he⟩ | ⟨w, hw, _, _, _, _, he⟩ := hm.origin
  · obtain ⟨rfl, _⟩ | ⟨_, hw, _⟩ := openVerdict_inv hb.opens
    · exact absurd (hiff.mpr mem_cons_self) ho
    · cases hl.symm.trans hw
      obtain ⟨_, _, _, hev, rfl⟩ := castVote_inv hb.votes
      exact he.trans (hev.resolve_left hv).symm
  · cases hl.symm.trans hw
    exact he

lemma Moves.appealVoters (hm : Moves P d target ix fx v key)
    (hr : ∀ v, d.verdicts.lookup target = some v → Recorded v) (hv : v.appealVoters ≠ []) :
    .opened target ∉ fx ∧ ∃ w, d.verdicts.lookup target = some w
      ∧ (w.status = .challenged ∨ w.appealVoters ≠ []) := by
  cases hm with
  | vote h | pend h _ | convict h _ => exact absurd (h.unappealed hr) hv
  | challenge _ _ => exact absurd rfl hv
  | appeal hl h | overturn hl h | uphold hl h => exact ⟨by simp, _, hl, .inl (castAppeal_inv h).1⟩
  | finalize hl _ | loser hl _ _ => exact ⟨by simp, _, hl, .inr hv⟩

lemma Moves.challenged (hm : Moves P d target ix fx v key) (hv : v.status = .challenged) :
    .opened target ∉ fx ∧ (ix = .runOpenChallenge target
      ∨ ∃ w, d.verdicts.lookup target = some w ∧ w.status = .challenged) := by
  have hb : ∀ {verifier evidence selection opened w w'},
      Ballot P d verifier target evidence selection opened w w' → w'.status = .voting := by
    intro verifier evidence selection opened w w' hb
    obtain ⟨hs, _, _, _, rfl⟩ := castVote_inv hb.votes
    exact hs
  cases hm with
  | vote h =>
    rw [hb h] at hv
    cases hv
  | challenge _ _ => exact ⟨by simp, .inl rfl⟩
  | appeal hl h => exact ⟨by simp, .inr ⟨_, hl, (castAppeal_inv h).1⟩⟩
  | loser _ hs _ => cases hs.symm.trans hv
  | _ => cases hv

end Steps

section Runs
variable {P : Platform} {d : Deployment} {tr : Record}

/-- The target has opened a challenge since the account was cleared. -/
def ChallengedSince (target : Pubkey) : Record → Prop
  | [] => False
  | ev :: tr => .opened target ∉ ev.output ∧ (ev.input.2 = .runOpenChallenge target ∨ ChallengedSince target tr)

/-- A step that does not clear the account of a target with votes leaves it the evidence. -/
def EvidenceKept (target : Pubkey) (ev : Event Deployment (Clock × TreasurerInstruction) (List TreasurerEffect)) :
    Prop :=
  ∀ v, ev.before.verdicts.lookup target = some v → v.voters ≠ [] → .opened target ∉ ev.output →
    (ev.after.verdicts.lookup target).map AuditVerdict.evidence = some v.evidence

lemma recorded_of_run (r : (machine P).Run tr d) (target : Pubkey) (v : AuditVerdict)
    (hv : d.verdicts.lookup target = some v) :
    Recorded v ∧ (v.status = .challenged ∨ v.appealVoters ≠ [] → ChallengedSince target tr) := by
  induction r generalizing v with
  | init h =>
    obtain ⟨_, _, _, _, _, rfl⟩ := h
    cases hv
  | @accept tr d i d' fx _ st ih =>
    obtain ⟨he, ho⟩ | ⟨fx', w, key, hm, hw, ho⟩ := (process_inv st).verdict target
    · rw [he] at hv
      obtain ⟨hr, hc⟩ := ih v hv
      exact ⟨hr, fun h => ⟨ho, .inr (hc h)⟩⟩
    · rw [hw] at hv
      cases hv
      have hrec := hm.recorded fun v hv => (ih v hv).1
      refine ⟨hrec, ?_⟩
      rintro (hs | ha)
      · obtain ⟨hno, hix | ⟨w', hl, hs'⟩⟩ := hm.challenged hs
        · exact ⟨fun hmem => hno (ho.mp hmem), .inl hix⟩
        · exact ⟨fun hmem => hno (ho.mp hmem), .inr ((ih w' hl).2 (.inl hs'))⟩
      · obtain ⟨hno, w', hl, h⟩ := hm.appealVoters (fun v hv => (ih v hv).1) ha
        exact ⟨fun hmem => hno (ho.mp hmem), .inr ((ih w' hl).2 h)⟩
  | reject _ _ ih => exact ih v hv

/-- In every state of every run every account of a dispute is in order: it counts its voters, who are different and at most
64, and the votes on an appeal, which come after a challenge only; it has settled as many voters as it should; and its
evidence is that of the first vote until it is cleared. -/
theorem verdict_record (r : (machine P).Run tr d) (target : Pubkey) :
    (∀ v, d.verdicts.lookup target = some v → Recorded v ∧ (v.appealVoters ≠ [] → ChallengedSince target tr))
      ∧ ∀ ev ∈ tr, EvidenceKept target ev := by
  refine ⟨fun v hv => ?_, fun ev hev v hv hne ho => ?_⟩
  · obtain ⟨hr, hc⟩ := recorded_of_run r target v hv
    exact ⟨hr, fun h => hc (.inr h)⟩
  · obtain ⟨_, _, st⟩ := r.mem hev
    obtain ⟨he, _⟩ | ⟨fx', w, key, hm, hw, ho'⟩ := (process_inv st).verdict target
    · rw [he, hv]
      rfl
    · rw [hw, Option.map_some, hm.evidence hv hne fun hmem => ho (ho'.mpr hmem)]

/-- The verdict of two voters with one vote on its appeal, as it is recorded. -/
theorem verdict_record_appealed : ∃ v, (runOf appealed).2.verdicts.lookup 3 = some v ∧ v.voters = [4, 5]
    ∧ v.appealVoters = [1] ∧ Recorded v ∧ ChallengedSince 3 (runOf appealed).1
    ∧ ∀ ev ∈ (runOf appealed).1, EvidenceKept 3 ev := by
  have h : ((runOf appealed).2.verdicts.lookup 3).map (fun v => (v.voters, v.appealVoters)) = some ([4, 5], [1]) := by
    decide +kernel
  obtain ⟨v, hl, e⟩ := Option.map_eq_some_iff.mp h
  obtain ⟨hvoters, happeal⟩ := Prod.mk.inj e
  obtain ⟨hr, he⟩ := verdict_record (runOf_run appealed) 3
  obtain ⟨hrec, hc⟩ := hr v hl
  exact ⟨v, hl, hvoters, happeal, hrec, hc (by rw [happeal]; simp), he⟩

end Runs
end Leviathan.Deployment
