import Leviathan.Treasurer.Verdicts
import Leviathan.Treasurer.Draws

/-!
# The bench of an appeal

A challenge sends a conviction to the tie-breakers (`docs/DISPUTE_DESIGN.md`), whose votes `run_submit_appeal_verdict.rs`
counts. Who is a tie-breaker is looked up anew at every vote, in the round that is current then, and so is the quorum.
Three questions about this bench are answered here: is it neutral, is it one bench, and can it decide?
-/

namespace Leviathan
open Exec List

structure AppealVote where
  voter : Pubkey
  overturn : Bool
  bench : Bench
deriving DecidableEq, Repr

namespace Bench
variable {P : Platform} {bench : Bench} {votes : List AppealVote} {overturn : Bool}

/-- A client has a tie-breaker seat on a bench. -/
def Seats (P : Platform) (bench : Bench) (key : Pubkey) : Prop :=
  bench.Placed key ∧ bench.position P key < bench.tieBreakerNodes

/-- Two thirds of the seats of a bench have voted one way. -/
def Decides (P : Platform) (bench : Bench) (overturn : Bool) (votes : List AppealVote) : Prop :=
  ∃ seats : Finset Nat, seats.Nonempty ∧ 2 * bench.tieBreakerNodes ≤ 3 * seats.card
    ∧ ∀ seat ∈ seats, ∃ a ∈ votes, a.bench = bench ∧ a.overturn = overturn ∧ bench.Seats P a.voter
      ∧ bench.position P a.voter = seat

lemma decides_of_votes (hb : ∀ a ∈ votes, a.bench = bench ∧ bench.Seats P a.voter)
    (hn : (votes.map AppealVote.voter).Nodup) (hpos : 0 < votes.countP fun a => a.overturn == overturn)
    (hq : 2 * bench.tieBreakerNodes ≤ 3 * votes.countP fun a => a.overturn == overturn) :
    bench.Decides P overturn votes := by
  -- the votes that go this way, and the seats of their voters
  let cast := votes.filter fun a => a.overturn == overturn
  have hmem : ∀ {a}, a ∈ cast → a ∈ votes ∧ a.overturn = overturn := by
    intro a ha
    obtain ⟨ha, ho⟩ := mem_filter.mp ha
    exact ⟨ha, by simpa using ho⟩
  have hseats : (cast.map fun a => bench.position P a.voter).Nodup := by
    have hvoters : (cast.map AppealVote.voter).Nodup := hn.sublist (filter_sublist.map _)
    rw [show cast.map (fun a => bench.position P a.voter) = (cast.map AppealVote.voter).map (bench.position P) by simp]
    refine hvoters.map_on fun key hkey key' hkey' e => ?_
    obtain ⟨a, ha, rfl⟩ := mem_map.mp hkey
    obtain ⟨a', ha', rfl⟩ := mem_map.mp hkey'
    exact position_inj (hb a (hmem ha).1).2.1 (hb a' (hmem ha').1).2.1 e
  have hcard : (cast.map fun a => bench.position P a.voter).toFinset.card
      = votes.countP fun a => a.overturn == overturn := by
    rw [toFinset_card_of_nodup hseats, length_map, countP_eq_length_filter]
  refine ⟨(cast.map fun a => bench.position P a.voter).toFinset, ?_, ?_, fun seat hseat => ?_⟩
  · rw [← Finset.card_pos, hcard]
    exact hpos
  · rw [hcard]
    exact hq
  · obtain ⟨a, ha, rfl⟩ := mem_map.mp (mem_toFinset.mp hseat)
    obtain ⟨hv, ho⟩ := hmem ha
    exact ⟨a, hv, (hb a hv).1, ho, (hb a hv).2, rfl⟩

lemma Decides.count (h : bench.Decides P overturn votes) : ∃ a ∈ votes, a.bench = bench
    ∧ 2 * bench.tieBreakerNodes ≤ 3 * votes.countP fun x => x.bench == bench && x.overturn == overturn := by
  obtain ⟨seats, ⟨seat, hseat⟩, hq, hs⟩ := h
  obtain ⟨a, ha, hab, _⟩ := hs seat hseat
  refine ⟨a, ha, hab, hq.trans (Nat.mul_le_mul_left 3 ?_)⟩
  let cast := votes.filter fun x => x.bench == bench && x.overturn == overturn
  have hsub : seats ⊆ (cast.map fun a => bench.position P a.voter).toFinset := by
    intro s hs'
    obtain ⟨x, hx, hxb, hxo, _, rfl⟩ := hs s hs'
    exact mem_toFinset.mpr (mem_map.mpr ⟨x, mem_filter.mpr ⟨hx, by simp [hxb, hxo]⟩, rfl⟩)
  calc seats.card ≤ (cast.map fun a => bench.position P a.voter).toFinset.card := Finset.card_le_card hsub
    _ ≤ (cast.map fun a => bench.position P a.voter).length := toFinset_card_le _
    _ = votes.countP fun x => x.bench == bench && x.overturn == overturn := by
      rw [length_map, countP_eq_length_filter]

end Bench

/-- The client a dispute is about, in an instruction about a dispute. -/
def TreasurerInstruction.disputes : TreasurerInstruction → Option Pubkey
  | .runSubmitAuditVerdict _ target _ => some target
  | .runOpenChallenge target => some target
  | .runSubmitAppealVerdict _ target _ _ => some target
  | .runFinalizeSlash target _ => some target
  | .runSlashLosingVerifier target _ => some target
  | _ => none

namespace Deployment

section Votes
variable {P : Platform} {ix : TreasurerInstruction} {d d' : Deployment} {clock : Clock} {fx : List TreasurerEffect}
  {appellate target : Pubkey} {index quorum : Nat} {overturn : Bool} {v v' : AuditVerdict}

def bench (d : Deployment) : Bench := d.currentDraw.toBench

/-- The votes an appeal needs (in Rust `run_submit_appeal_verdict_processor`). -/
def appealQuorum (P : Platform) (d : Deployment) : Exec TreasurerError Panic Nat := do
  let selection ← Exec.mapErr (fun _ => .notTieBreaker)
    (CommitteeSelection.fromCoordinatorWithTieBreakers P d.account.coordinator 0 d.run.tieBreakerCommitteeSize)
  let twoThirds ← twoThirds selection.tieBreakerNodes
  .ok (max twoThirds 1)

def appealStatus (quorum : Nat) (v : AuditVerdict) : VerdictStatus :=
  if quorum ≤ v.overturnCount then .overturned else if quorum ≤ v.upholdCount then .upheld else v.status

/-- A vote on an appeal has been accepted: `v` is the verdict before and `v'` the verdict with the vote. -/
structure Appealed (P : Platform) (d : Deployment) (appellate target : Pubkey) (overturn : Bool) (quorum : Nat)
    (v v' : AuditVerdict) : Prop where
  stored : d.verdicts.lookup target = some v
  seated : ∃ selection, Seated P d appellate .tieBreaker selection
  quorum : d.appealQuorum P = .ok quorum
  votes : castAppeal v appellate overturn = .ok v'

lemma appealed_of_runSubmitAppealVerdict
    (h : d.runSubmitAppealVerdict P appellate target index overturn = .ok (d', fx)) :
    ∃ quorum v v', Appealed P d appellate target overturn quorum v v'
      ∧ d'.verdicts.lookup target = some { v' with status := appealStatus quorum v' } := by
  simp only [runSubmitAppealVerdict, bind_eq_ok, require_eq_ok, participant_eq_ok, verdict_eq_ok] at h
  obtain ⟨_, _, v, hv, _, _, ⟨_, selection⟩, hseat, _, rfl, _, _, n, hn, _, _, v', hcast, h⟩ := h
  have hseated := seatOf_inv hseat
  have hq : d.appealQuorum P = .ok (max n 1) := by
    simp only [appealQuorum, bind_eq_ok, mapErr_eq_ok]
    exact ⟨selection, hseated.1, n, hn, rfl⟩
  refine ⟨max n 1, v, v', ⟨hv, ⟨selection, hseated⟩, hq, hcast⟩, ?_⟩
  unfold appealStatus
  split at h
  · rename_i ho
    cases h
    rw [if_pos ho, setVerdict, AList.lookup_insert]
  · rename_i ho
    rw [if_neg ho]
    split at h
    · rename_i hu
      simp only [bind_eq_ok, ok_pair] at h
      obtain ⟨⟨d1, slashed⟩, hs, rfl, _⟩ := h
      obtain ⟨_, _, ⟨_, _, _, _, _, _, rfl⟩, _⟩ := slashClient_inv hs
      rw [if_pos hu]
      exact AList.lookup_insert _
    · rename_i hu
      cases h
      rw [if_neg hu, setVerdict, AList.lookup_insert]

lemma appealQuorum_eq (h : d.appealQuorum P = .ok quorum) :
    quorum = max ((2 * d.run.tieBreakerCommitteeSize + 2) / 3) 1 := by
  simp only [appealQuorum, twoThirds, bind_eq_ok, mapErr_eq_ok, mulU_eq_ok, Except.ok.injEq] at h
  obtain ⟨_, hnew, _, ⟨_, ⟨_, rfl⟩, rfl⟩, rfl⟩ := h
  rw [selection_eq hnew]
  rfl

/-- Who passes the check of the tie-breakers sits on the bench. -/
lemma Seated.bench {selection : CommitteeSelection} (h : Seated P d appellate .tieBreaker selection) :
    d.bench.Seats P appellate := by
  obtain ⟨hmem, _, hpos, hcom⟩ := h.place
  obtain rfl := selection_eq h.1
  obtain ⟨hlt, rfl⟩ := computeShuffledIndex_eq_ok _ _ hpos
  refine ⟨⟨hmem, hlt⟩, ?_⟩
  unfold CommitteeSelection.getCommitteeFromPosition at hcom
  split at hcom
  · assumption
  · split at hcom <;> cases hcom

lemma DisputeStep.moves (st : DisputeStep P ix d target fx d') : ∃ fx' v key, Moves P d target ix fx' v key
    ∧ d'.verdicts.lookup target = some v ∧ (.opened target ∈ fx ↔ .opened target ∈ fx') := by
  cases st with
  | quiet hm => exact ⟨_, _, _, hm, AList.lookup_insert _, .rfl⟩
  | slash hm hsl =>
    obtain ⟨_, _, _, _, _, _, rfl⟩ := hsl
    exact ⟨_, _, _, hm, AList.lookup_insert _, by simp⟩

lemma process_verdict (h : d.process P clock ix = .ok (d', fx)) (target : Pubkey) :
    (ix.disputes ≠ some target ∧ d'.verdicts.lookup target = d.verdicts.lookup target ∧ .opened target ∉ fx)
      ∨ ∃ fx' v key, Moves P d target ix fx' v key ∧ d'.verdicts.lookup target = some v
        ∧ (.opened target ∈ fx ↔ .opened target ∈ fx') := by
  by_cases ht : ix.disputes = some target
  · right
    cases ix with
    | runSubmitAuditVerdict _ _ _ => cases ht; exact (runSubmitAuditVerdict_inv h).moves
    | runOpenChallenge _ => cases ht; exact (runOpenChallenge_inv h).moves
    | runSubmitAppealVerdict _ _ _ _ => cases ht; exact (runSubmitAppealVerdict_inv h).moves
    | runFinalizeSlash _ _ => cases ht; exact (runFinalizeSlash_inv h).moves
    | runSlashLosingVerifier _ _ => cases ht; exact (runSlashLosingVerifier_inv h).moves
    | _ => cases ht
  · exact ((process_inv h).verdict target).imp_left fun h => ⟨ht, h⟩

/-- Whether an instruction is a vote of the target on its own appeal. -/
def isOwnAppeal : TreasurerInstruction → Bool
  | .runSubmitAppealVerdict appellate target _ _ => appellate == target
  | _ => false

/-- The client whose appeal an instruction is a vote on. -/
def appealOf : TreasurerInstruction → Option Pubkey
  | .runSubmitAppealVerdict _ target _ _ => some target
  | _ => none

/-- Nobody who has voted on a conviction, and not the convicted client, has voted on the appeal. -/
def Neutral (d : Deployment) : Prop :=
  ∀ target v, d.verdicts.lookup target = some v → ∀ key ∈ v.appealVoters, key ∉ v.voters ∧ key ≠ v.target

lemma neutral_castAppeal (h : ∀ key ∈ v.appealVoters, key ∉ v.voters ∧ key ≠ v.target)
    (ha : appellate ≠ v.target) (hc : castAppeal v appellate overturn = .ok v') :
    ∀ key ∈ v'.appealVoters, key ∉ v'.voters ∧ key ≠ v'.target := by
  obtain ⟨_, _, hv, _, rfl⟩ := castAppeal_eq hc
  intro key hkey
  obtain hkey | hkey := mem_append.mp hkey
  · exact h key hkey
  · rw [mem_singleton.mp hkey]
    exact ⟨hv, ha⟩

lemma Moves.neutral {key : Option Pubkey} (hm : Moves P d target ix fx v key) (ho : isOwnAppeal ix = false)
    (ht : Targeted d) (hr : ∀ v, d.verdicts.lookup target = some v → Recorded v) (h : Neutral d) :
    ∀ key ∈ v.appealVoters, key ∉ v.voters ∧ key ≠ v.target := by
  have ha : ∀ {w w' appellate index overturn}, ix = .runSubmitAppealVerdict appellate target index overturn →
      d.verdicts.lookup target = some w → castAppeal w appellate overturn = .ok w' →
      ∀ key ∈ w'.appealVoters, key ∉ w'.voters ∧ key ≠ w'.target := by
    intro w w' appellate index overturn hix hl hc
    refine neutral_castAppeal (h target w hl) ?_ hc
    rw [ht target w hl]
    rw [hix] at ho
    exact ne_of_beq_false ho
  cases hm with
  | vote hv | pend hv _ | convict hv _ => rw [hv.unappealed hr]; simp
  | challenge _ _ => simp
  | appeal hl hc => exact ha rfl hl hc
  | overturn hl hc | uphold hl hc => exact (ha rfl hl hc :)
  | finalize hl _ | loser hl _ _ => exact (h target _ hl :)

end Votes

section Runs
variable {P : Platform} {d : Deployment} {tr : Record}

lemma not_neutral_of_isOwnAppeal {d' : Deployment} {clock : Clock} {ix : TreasurerInstruction}
    {fx : List TreasurerEffect} (ht : Targeted d) (h : d.process P clock ix = .ok (d', fx))
    (ho : isOwnAppeal ix = true) : ¬ Neutral d' := by
  intro hn
  cases ix with
  | runSubmitAppealVerdict appellate target index overturn =>
    obtain rfl : appellate = target := by simpa [isOwnAppeal] using ho
    obtain ⟨_, v, v', ha, hl⟩ := appealed_of_runSubmitAppealVerdict h
    have hv := ht appellate v ha.stored
    obtain ⟨_, _, _, _, rfl⟩ := castAppeal_eq ha.votes
    exact (hn appellate _ hl appellate (by simp)).2 hv.symm
  | _ => cases ho

/-- In a run, whoever has voted on an appeal has neither voted on the conviction nor been convicted, in every state, if
and only if no convicted client has voted on its own appeal. -/
theorem appeal_bench_neutral_iff (r : (machine P).Run tr d) :
    (∀ ev ∈ tr, Neutral ev.after) ↔ ∀ ev ∈ tr, isOwnAppeal ev.input.2 = false := by
  constructor
  · intro h ev hev
    obtain ⟨_, r', st⟩ := r.mem hev
    exact Bool.eq_false_iff.mpr fun ho => not_neutral_of_isOwnAppeal (targeted_of_run r') st ho (h ev hev)
  · intro h
    -- the state before a step is the first one, or the state after an earlier step
    suffices hn : Neutral d ∧ ∀ ev ∈ tr, Neutral ev.after from hn.2
    induction r with
    | init hi =>
      obtain ⟨_, _, _, _, _, rfl⟩ := hi
      exact ⟨by rintro _ _ ⟨⟩, by simp⟩
    | @accept tr d i d' fx r st ih =>
      obtain ⟨hd, htr⟩ := ih fun ev hev => h ev (mem_cons_of_mem _ hev)
      have hd' : Neutral d' := by
        intro target v hv
        obtain ⟨he, _⟩ | ⟨_, w, _, hm, hw, _⟩ := (process_inv st).verdict target
        · rw [he] at hv
          exact hd target v hv
        · rw [hw] at hv
          cases hv
          exact hm.neutral (h _ mem_cons_self) (targeted_of_run r)
            (fun v hv => (recorded_of_run r target v hv).1) hd
      refine ⟨hd', fun ev hev => ?_⟩
      obtain rfl | hev := mem_cons.mp hev
      · exact hd'
      · exact htr ev hev
    | reject _ _ ih => exact ih h

/-- Neither of the two voters sits on the bench that hears the appeal. -/
theorem appeal_bench_neutral_iff_appealed : (∀ ev ∈ (runOf appealed).1, Neutral ev.after)
    ∧ ((runOf appealed).2.verdicts.lookup 3).map (fun v => (v.voters, v.appealVoters)) = some ([4, 5], [1]) :=
  ⟨(appeal_bench_neutral_iff (runOf_run appealed)).mpr (by decide +kernel), by decide +kernel⟩

/-- The first of three clients is the tie-breaker; it is convicted by the others and overturns the conviction. -/
def ownAppeal : List (Clock × TreasurerInstruction) :=
  trio ++ [(⟨16, 1⟩, .runSetChallengeConfig authority 10 1 0), (⟨16, 1⟩, .runSubmitAuditVerdict 2 1 ⟨0, 0, 1, 0, 1⟩),
    (⟨16, 1⟩, .runSubmitAuditVerdict 3 1 ⟨0, 0, 1, 0, 1⟩), (⟨17, 1⟩, .runOpenChallenge 1),
    (⟨18, 1⟩, .runSubmitAppealVerdict 1 1 0 true)]

/-- A convicted client has overturned its own conviction. -/
theorem appeal_by_target : ∃ v, (runOf ownAppeal).2.verdicts.lookup 1 = some v ∧ v.target = 1 ∧ v.appealVoters = [1]
    ∧ v.status = .overturned ∧ ¬ Neutral (runOf ownAppeal).2 := by
  have h : ((runOf ownAppeal).2.verdicts.lookup 1).map (fun v => (v.target, v.appealVoters, v.status))
      = some (1, [1], .overturned) := by
    decide +kernel
  obtain ⟨v, hl, e⟩ := Option.map_eq_some_iff.mp h
  obtain ⟨ht, hv, hs⟩ : v.target = 1 ∧ v.appealVoters = [1] ∧ v.status = .overturned := by simpa using e
  refine ⟨v, hl, ht, hv, hs, fun hn => (hn 1 v hl 1 ?_).2 ht.symm⟩
  rw [hv]
  exact mem_singleton_self 1

/-- The quorum an accepted vote on an appeal is counted against fits into the list of the votes if and only if there are at
most 96 tie-breakers. -/
theorem appeal_quorum_le_iff {d d' : Deployment} {appellate target : Pubkey} {index : Nat} {overturn : Bool}
    {fx : List TreasurerEffect} (h : d.runSubmitAppealVerdict P appellate target index overturn = .ok (d', fx)) :
    ∃ quorum, ∃ v : AuditVerdict, d.appealQuorum P = .ok quorum
      ∧ d'.verdicts.lookup target = some { v with status := appealStatus quorum v }
      ∧ (quorum ≤ maxAppealVoters ↔ d.run.tieBreakerCommitteeSize ≤ 96) := by
  obtain ⟨quorum, v, v', ha, hl⟩ := appealed_of_runSubmitAppealVerdict h
  refine ⟨quorum, v', ha.quorum, hl, ?_⟩
  rw [appealQuorum_eq ha.quorum, maxAppealVoters]
  omega

/-- A run with a number of clients and of tie-breakers, whose last client, which is no tie-breaker, is convicted by the two
before it and challenges them. -/
def crowd (clients size : Nat) : List (Clock × TreasurerInstruction) :=
  let last : Pubkey := BitVec.ofNat 256 clients
  [(⟨0, 0⟩, .runUpdate authority { RunUpdateParams.none with
      config := some { CoordinatorConfig.small with initMinClients := clients, globalBatchSizeEnd := 200 }
      model := some .small
      paused := some false }),
    (⟨0, 0⟩, .runSetChallengeConfig authority 10 size 0)]
  ++ (List.range clients).map (fun i =>
    (⟨5, 1⟩, .coordinator (.joinRun (BitVec.ofNat 256 (i + 1)) ⟨BitVec.ofNat 256 (i + 1), 0⟩)))
  ++ [1, last - 2, last - 1, last].map (fun key => (⟨5, 1⟩, .participantCreate key))
  ++ [(⟨15, 1⟩, .coordinator .tick), (⟨16, 1⟩, .runSubmitAuditVerdict (last - 2) last ⟨clients - 1, 0, 1, 0, 1⟩),
    (⟨16, 1⟩, .runSubmitAuditVerdict (last - 1) last ⟨clients - 1, 0, 1, 0, 1⟩), (⟨17, 1⟩, .runOpenChallenge last)]

/-- The state of a crowd when its first tie-breaker votes on the appeal. -/
def crowded (clients size : Nat) : Exec TreasurerError Panic (Deployment × List TreasurerEffect) :=
  (runOf (crowd clients size)).2.runSubmitAppealVerdict .zero 1 (BitVec.ofNat 256 clients) (clients - 1) true

/-- The quorum of a bench of two can be reached. -/
theorem appeal_quorum_le_iff_crowd : ∃ d' fx quorum, ∃ v : AuditVerdict, crowded 5 2 = .ok (d', fx)
    ∧ (runOf (crowd 5 2)).2.appealQuorum .zero = .ok quorum
    ∧ d'.verdicts.lookup 5 = some { v with status := appealStatus quorum v } ∧ quorum ≤ maxAppealVoters := by
  have hok : (crowded 5 2).isOk = true := by decide +kernel
  cases h : crowded 5 2 with
  | ok x =>
    obtain ⟨quorum, v, hq, hv, hle⟩ := appeal_quorum_le_iff h
    exact ⟨x.1, x.2, quorum, v, rfl, hq, hv, hle.mpr (by decide +kernel)⟩
  | error e =>
    rw [h] at hok
    cases hok

/-- With 97 tie-breakers a vote on an appeal is accepted although the list of the votes is shorter than the quorum. -/
theorem appeal_quorum_too_large : (crowded 100 97).isOk = true
    ∧ (runOf (crowd 100 97)).2.appealQuorum .zero = .ok 65 ∧ maxAppealVoters = 64 :=
  ⟨by decide +kernel, by decide +kernel, rfl⟩

/-- The votes on the appeal of a target since its dispute was opened or challenged, newest first, with their benches. -/
def appealVotes (target : Pubkey) : Record → List AppealVote
  | [] => []
  | ev :: tr =>
    if .opened target ∈ ev.output then
      []
    else
      match ev.input.2 with
      | .runOpenChallenge challenger => if challenger = target then [] else appealVotes target tr
      | .runSubmitAppealVerdict appellate target' _ overturn =>
        if target' = target then ⟨appellate, overturn, ev.before.bench⟩ :: appealVotes target tr
        else appealVotes target tr
      | _ => appealVotes target tr

/-- Every vote on an appeal is cast from the bench that the votes on it before were cast from. -/
def SteadyBench : Record → Prop
  | [] => True
  | ev :: tr => (∀ target ∈ appealOf ev.input.2, ∀ a ∈ appealVotes target tr, a.bench = ev.before.bench) ∧ SteadyBench tr

instance decidableSteadyBench : (tr : Record) → Decidable (SteadyBench tr)
  | [] => .isTrue trivial
  -- not by trying every key
  | ev :: tr => @instDecidableAnd _ _ (Option.decidableForallMem (appealOf ev.input.2)) (decidableSteadyBench tr)

/-- The account of a dispute lists and counts the votes on its appeal, which are cast by members of their benches. -/
structure Tallied (P : Platform) (votes : List AppealVote) (v : AuditVerdict) : Prop where
  voters : v.appealVoters = (votes.map AppealVote.voter).reverse
  overturns : v.overturnCount = votes.countP fun a => a.overturn == true
  upholds : v.upholdCount = votes.countP fun a => a.overturn == false
  seats : ∀ a ∈ votes, a.bench.Seats P a.voter

lemma Tallied.of_eq {votes : List AppealVote} {v v' : AuditVerdict} (h : Tallied P votes v)
    (hv : v'.appealVoters = v.appealVoters) (ho : v'.overturnCount = v.overturnCount)
    (hu : v'.upholdCount = v.upholdCount) : Tallied P votes v' :=
  ⟨hv.trans h.voters, ho.trans h.overturns, hu.trans h.upholds, h.seats⟩

lemma Tallied.castAppeal {votes : List AppealVote} {v v' : AuditVerdict} {appellate : Pubkey} {overturn : Bool}
    (h : Tallied P votes v) (hc : castAppeal v appellate overturn = .ok v') (hs : d.bench.Seats P appellate) :
    Tallied P (⟨appellate, overturn, d.bench⟩ :: votes) v' := by
  obtain ⟨_, _, _, _, rfl⟩ := castAppeal_eq hc
  refine ⟨?_, ?_, ?_, fun a ha => ?_⟩
  · rw [map_cons, reverse_cons, ← h.voters]
  · rw [countP_cons, ← h.overturns]
    cases overturn <;> rfl
  · rw [countP_cons, ← h.upholds]
    cases overturn <;> rfl
  · obtain rfl | ha := mem_cons.mp ha
    · exact hs
    · exact h.seats a ha

lemma appealVotes_cons_of_ne {ev : Event Deployment (Clock × TreasurerInstruction) (List TreasurerEffect)}
    {target : Pubkey} (hd : ev.input.2.disputes ≠ some target) (ho : .opened target ∉ ev.output) :
    appealVotes target (ev :: tr) = appealVotes target tr := by
  rw [appealVotes, if_neg ho]
  split
  · rename_i challenger hi
    rw [hi] at hd
    exact if_neg fun e => hd (congrArg some e)
  · rename_i target' _ _ hi
    rw [hi] at hd
    exact if_neg fun e => hd (congrArg some e)
  · rfl

lemma Ballot.tallied {verifier target : Pubkey} {evidence : Evidence} {selection : CommitteeSelection}
    {opened fx : List TreasurerEffect} {v v' : AuditVerdict} {clock : Clock} {d' : Deployment}
    (hb : Ballot P d verifier target evidence selection opened v v') (ho : .opened target ∈ fx ↔ .opened target ∈ opened)
    (h : ∀ v, d.verdicts.lookup target = some v → Tallied P (appealVotes target tr) v) :
    Tallied P (appealVotes target (⟨d, (clock, .runSubmitAuditVerdict verifier target evidence), fx, d'⟩ :: tr)) v' := by
  obtain ⟨_, _, _, _, rfl⟩ := castVote_inv hb.votes
  obtain ⟨rfl, ⟨key, rfl⟩, _⟩ | ⟨rfl, hl, _⟩ := openVerdict_inv hb.opens
  · rw [appealVotes, if_pos (ho.mpr mem_cons_self)]
    exact ⟨rfl, rfl, rfl, by simp⟩
  · rw [appealVotes, if_neg fun hmem => by simpa using ho.mp hmem]
    exact (h v hl).of_eq rfl rfl rfl

/-- The tally of an appeal is that of the accepted votes since it was opened. -/
lemma tallied_of_run (r : (machine P).Run tr d) (target : Pubkey) (v : AuditVerdict)
    (hv : d.verdicts.lookup target = some v) : Tallied P (appealVotes target tr) v := by
  induction r generalizing v with
  | init h =>
    obtain ⟨_, _, _, _, _, rfl⟩ := h
    cases hv
  | @accept tr d i d' fx _ st ih =>
    obtain ⟨clock, ix⟩ := i
    obtain ⟨hne, he, ho⟩ | ⟨fx', w, key, hm, hw, ho⟩ := process_verdict st target
    · rw [he] at hv
      rw [appealVotes_cons_of_ne hne ho]
      exact ih v hv
    · rw [hw] at hv
      cases hv
      -- what a vote on the appeal adds, and the steps that touch none
      have happeal : ∀ {w w' appellate index overturn}, ix = .runSubmitAppealVerdict appellate target index overturn →
          .opened target ∉ fx → d.verdicts.lookup target = some w → castAppeal w appellate overturn = .ok w' →
          Tallied P (appealVotes target (⟨d, (clock, ix), fx, d'⟩ :: tr)) w' := by
        rintro w w' appellate index overturn rfl ho hl hc
        obtain ⟨_, _, _, ha, _⟩ := appealed_of_runSubmitAppealVerdict st
        obtain ⟨_, hs⟩ := ha.seated
        rw [appealVotes, if_neg ho]
        simpa using (ih w hl).castAppeal hc hs.bench
      cases hm with
      | vote hb => exact hb.tallied (by simp [ho, ballotEffects]) ih
      | pend hb _ | convict hb _ => exact (hb.tallied (by simp [ho, ballotEffects]) ih).of_eq rfl rfl rfl
      | challenge _ _ =>
        rw [appealVotes, if_neg (by simp [ho])]
        simp only [if_true]
        exact ⟨rfl, rfl, rfl, by simp⟩
      | appeal hl hc => exact happeal rfl (by simp [ho]) hl hc
      | overturn hl hc | uphold hl hc => exact (happeal rfl (by simp [ho]) hl hc).of_eq rfl rfl rfl
      | finalize hl _ | loser hl _ _ =>
        rw [appealVotes, if_neg (by simp [ho])]
        exact (ih _ hl).of_eq rfl rfl rfl
  | reject _ _ ih => exact ih v hv

lemma bench_of_steadyBench {ev : Event Deployment (Clock × TreasurerInstruction) (List TreasurerEffect)}
    {appellate target : Pubkey} {index : Nat} {overturn : Bool} (hs : SteadyBench (ev :: tr))
    (hi : ev.input.2 = .runSubmitAppealVerdict appellate target index overturn) :
    ∀ a ∈ appealVotes target (ev :: tr), a.bench = ev.before.bench := by
  intro a ha
  rw [appealVotes, hi] at ha
  split at ha
  · cases ha
  · dsimp only at ha
    rw [if_pos rfl] at ha
    obtain rfl | ha := mem_cons.mp ha
    · rfl
    · exact hs.1 target (by rw [hi]; rfl) a ha

lemma SteadyBench.drop {tr1 tr2 : Record} (hs : SteadyBench (tr1 ++ tr2)) : SteadyBench tr2 := by
  induction tr1 with
  | nil => exact hs
  | cons _ _ ih => exact ih hs.2

lemma Tallied.decides {votes : List AppealVote} {v : AuditVerdict} {quorum : Nat} {overturn : Bool}
    (h : Tallied P votes v) (hr : Recorded v) (hb : ∀ a ∈ votes, a.bench = d.bench)
    (hq : d.appealQuorum P = .ok quorum) (hn : quorum ≤ votes.countP fun a => a.overturn == overturn) :
    d.bench.Decides P overturn votes := by
  have hquorum := appealQuorum_eq hq
  have hthird : 2 * d.bench.tieBreakerNodes ≤ 3 * ((2 * d.run.tieBreakerCommitteeSize + 2) / 3) := by
    show 2 * d.run.tieBreakerCommitteeSize ≤ _
    omega
  refine Bench.decides_of_votes (fun a ha => ⟨hb a ha, hb a ha ▸ h.seats a ha⟩) ?_ (by omega) (by omega)
  have := hr.appealNodup
  rw [h.voters, nodup_reverse] at this
  exact this

/-- In every run in which each vote on an appeal is cast from the bench that the earlier ones were cast from, a vote that
overturns or upholds a conviction completes two thirds of the seats of one bench. -/
theorem appeal_one_bench (r : (machine P).Run tr d) (hs : SteadyBench tr) :
    ∀ tr1 ev tr2, tr = tr1 ++ ev :: tr2 → ∀ appellate target index overturn,
      ev.input.2 = .runSubmitAppealVerdict appellate target index overturn →
      ∀ v, ev.after.verdicts.lookup target = some v →
        (v.status = .overturned → ∃ bench : Bench, bench.Decides P true (appealVotes target (ev :: tr2)))
          ∧ (v.status = .upheld → ∃ bench : Bench, bench.Decides P false (appealVotes target (ev :: tr2))) := by
  rintro tr1 ev tr2 rfl appellate target index overturn hi v hv
  obtain ⟨r', st⟩ := r.split
  have hrun : (machine P).Run (ev :: tr2) ev.after := .accept r' st
  have htally := tallied_of_run hrun target v hv
  have hrec := (recorded_of_run hrun target v hv).1
  have hbench := bench_of_steadyBench hs.drop hi
  have hst : ev.before.runSubmitAppealVerdict P appellate target index overturn = .ok (ev.after, ev.output) := by
    have : ev.before.process P ev.input.1 ev.input.2 = .ok (ev.after, ev.output) := st
    rwa [hi] at this
  obtain ⟨quorum, w, w', ha, hl⟩ := appealed_of_runSubmitAppealVerdict hst
  have hw' := (castAppeal_inv ha.votes).2.1
  rw [hl] at hv
  cases hv
  -- the votes that were counted are the votes of this appeal
  have hover := htally.overturns
  have hup := htally.upholds
  dsimp only at hover hup
  constructor
  · intro h
    refine ⟨_, htally.decides hrec hbench ha.quorum ?_⟩
    simp only [appealStatus] at h
    split at h
    · omega
    · split at h
      · cases h
      · rw [hw'] at h
        cases h
  · intro h
    refine ⟨_, htally.decides hrec hbench ha.quorum ?_⟩
    simp only [appealStatus] at h
    split at h
    · cases h
    · split at h
      · omega
      · rw [hw'] at h
        cases h

def secondVote : Clock × TreasurerInstruction := (⟨18, 1⟩, .runSubmitAppealVerdict 2 3 2 true)

/-- Two votes of one bench overturn the verdict. -/
theorem appeal_one_bench_secondVote : ∃ ev v,
    (machine .zero).Run (ev :: (runOf appealed).1) (runOf (appealed ++ [secondVote])).2
      ∧ (runOf (appealed ++ [secondVote])).2.verdicts.lookup 3 = some v ∧ v.status = .overturned
      ∧ ∃ bench : Bench, bench.Decides .zero true (appealVotes 3 (ev :: (runOf appealed).1)) := by
  obtain ⟨o, st⟩ := Machine.play_last (machine .zero) [] (created 100 authority 8 mint []) appealed secondVote
    (by decide +kernel)
  have hr : (machine .zero).Run
      (⟨(runOf appealed).2, secondVote, o, (runOf (appealed ++ [secondVote])).2⟩ :: (runOf appealed).1)
      (runOf (appealed ++ [secondVote])).2 := .accept (runOf_run appealed) st
  -- the first vote, the only one before, was cast from the same bench
  have hbench : ∀ a ∈ appealVotes 3 (runOf appealed).1, a.bench = (runOf appealed).2.bench := by decide +kernel
  have hsteady : SteadyBench (runOf appealed).1 := by decide +kernel
  have hs : ((runOf (appealed ++ [secondVote])).2.verdicts.lookup 3).map AuditVerdict.status = some .overturned := by
    decide +kernel
  obtain ⟨v, hv, hs⟩ := Option.map_eq_some_iff.mp hs
  refine ⟨_, v, hr, hv, hs, ?_⟩
  refine (appeal_one_bench hr ⟨?_, hsteady⟩ [] _ _ rfl 2 3 2 true rfl v hv).1 hs
  rintro _ ⟨⟩
  exact hbench

/-- After the first vote the first client is removed, and the second votes when the round is over. -/
def secondBench : List (Clock × TreasurerInstruction) :=
  appealed ++ [(⟨19, 1⟩, .runSlash authority 0), (⟨25, 1⟩, .coordinator .tick), (⟨35, 1⟩, .coordinator .tick)]

/-- A conviction is overturned by two votes from different benches, none of which has two thirds of its seats for it. -/
theorem appeal_two_benches :
    ((runOf secondBench).2.verdicts.lookup 3).map AuditVerdict.status = some .challenged
      ∧ ((runOf (secondBench ++ [(⟨36, 1⟩, .runSubmitAppealVerdict 2 3 1 true)])).2.verdicts.lookup 3).map
        AuditVerdict.status = some .overturned
      ∧ ∀ bench : Bench, ¬ bench.Decides .zero true
        (appealVotes 3 (runOf (secondBench ++ [(⟨36, 1⟩, .runSubmitAppealVerdict 2 3 1 true)])).1) := by
  refine ⟨by decide +kernel, by decide +kernel, fun bench h => ?_⟩
  obtain ⟨a, ha, rfl, hq⟩ := h.count
  have hall : ∀ a ∈ appealVotes 3 (runOf (secondBench ++ [(⟨36, 1⟩, .runSubmitAppealVerdict 2 3 1 true)])).1,
      3 * (appealVotes 3 (runOf (secondBench ++ [(⟨36, 1⟩, .runSubmitAppealVerdict 2 3 1 true)])).1).countP
        (fun x => x.bench == a.bench && x.overturn == true) < 2 * a.bench.tieBreakerNodes := by
    decide +kernel
  exact absurd hq (Nat.not_le.mpr (hall a ha))

end Runs
end Deployment
end Leviathan
