import Leviathan.Coordinator.AuditSelection
import Leviathan.Coordinator.Rounds

/-!
# Who audits whom

In a round every client on a verifier seat audits one batch of another client (in Rust `select_audits_for_current_round`).
The indices of the audits are the verifier seats, in order (`map_selectAuditsFrom`), of which there are as many as the draw
has verifiers (`length_verifierIndices`). What a verifier is told is an entry of the assignment of data under the same draw,
and the owner of an entry is on a trainer seat.
-/

namespace Leviathan.Coordinator
open Exec List
open CommitteeSelection
variable {ε : Type} {P : Platform} {c : Coordinator} {sel : CommitteeSelection}

def verifierIndices (P : Platform) (sel : CommitteeSelection) : List Nat :=
  (List.range sel.totalNodes).filter fun i => (sel.seat P i).committee = .verifier

lemma length_verifierIndices (h : sel.tieBreakerNodes + sel.verifierNodes ≤ sel.totalNodes) :
    (verifierIndices P sel).length = sel.verifierNodes := by
  unfold verifierIndices
  rw [← countP_eq_length_filter]
  exact (count_seat h .verifier).trans (Nat.add_sub_cancel_left _ _)

lemma map_selectAuditsFrom {targets : List (BatchId × NodeIdentity)} {i : Nat} {clients : List Client}
    {audits : List AuditAssignment} (ht : sel.totalNodes ≤ 2 ^ 63) (hi : i + clients.length ≤ sel.totalNodes)
    (h : (selectAuditsFrom P sel targets i clients : Exec ε Panic (List AuditAssignment)) = .ok audits) :
    audits.map (fun a => (a.verifier, a.verifierIndex))
      = ((clients.zipIdx i).filter fun x => (sel.seat P x.2).committee = .verifier).map fun x => (x.1.id, x.2) := by
  induction clients generalizing i audits with
  | nil =>
    cases h
    rfl
  | cons client clients ih =>
    rw [length_cons] at hi
    unfold selectAuditsFrom at h
    rw [getCommittee_eq ht (by omega), ok_bind] at h
    rw [zipIdx_cons, filter_cons]
    cases hseat : (sel.seat P i).committee with
    | verifier =>
      simp only [hseat, bind_eq_ok, Except.ok.injEq] at h
      obtain ⟨_, _, rest, hrest, rfl⟩ := h
      simp [ih (by omega) hrest]
    | trainer | tieBreaker =>
      rw [hseat] at h
      simp [ih (by omega) h]

/-- The clients are distinct, and the round counts them. -/
structure InRound (c : Coordinator) : Prop where
  clientsLen : c.epochState.clients.len = c.currentRound.clientsLen
  distinct : c.roster.Nodup

lemma inRound_of_run {tr : Record} (r : (machine P).Run tr c) (hs : c.runState = .roundTrain ∨ c.runState = .roundWitness) :
    InRound c := by
  have h := RosterInv.of_run r
  refine ⟨h.clientsLen hs, ?_⟩
  have hsigners : c.epochState.signers.Nodup := h.core.perm.nodup_iff.mpr h.core.nodup
  rw [CoordinatorEpochState.signers, CoordinatorEpochState.entries, map_append] at hsigners
  exact hsigners.of_append_left

/-- A verifier is told a batch of somebody else, who is on a trainer seat, has this batch and has no other. -/
structure ProperAudit (P : Platform) (c : Coordinator) (sel : CommitteeSelection) (m : SortedMap BatchId NodeIdentity)
    (a : AuditAssignment) : Prop where
  verifier : ∃ client, c.epochState.clients.get? a.verifierIndex = some client ∧ client.id = a.verifier
  target : ∃ i client, c.epochState.clients.get? i = some client ∧ client.id = a.target
    ∧ (sel.seat P i).committee = .trainer
  different : a.target.signer ≠ a.verifier.signer
  entry : (a.batchId, a.target) ∈ m
  owns : ∀ e ∈ m, e.2.signer = a.target.signer ↔ e = (a.batchId, a.target)

section Audits
variable {n batch tb : Nat}

lemma signer_ne_of_seat {i j : Nat} {x y : Client} (hd : c.roster.Nodup) (hx : c.epochState.clients.get? i = some x)
    (hy : c.epochState.clients.get? j = some y) (hne : (sel.seat P i).committee ≠ (sel.seat P j).committee) :
    x.id.signer ≠ y.id.signer := by
  intro he
  have hi : c.roster[i]? = some x.signer := by
    unfold roster
    rw [List.getElem?_map, show c.epochState.clients.toList[i]? = some x from hx]
    rfl
  have hj : c.roster[j]? = some y.signer := by
    unfold roster
    rw [List.getElem?_map, show c.epochState.clients.toList[j]? = some y from hy]
    rfl
  have hlt := (List.getElem?_eq_some_iff.mp hi).1
  have hij : i = j := (List.getElem?_inj hlt hd).mp (hi.trans (congrArg some he |>.trans hj.symm))
  exact hne (by rw [hij])

lemma owns_iff {m : SortedMap BatchId NodeIdentity} {b : BatchId} {target : NodeIdentity}
    (hn : (m.map fun e => e.2.signer).Nodup) (h : (b, target) ∈ m) (e : BatchId × NodeIdentity) (he : e ∈ m) :
    e.2.signer = target.signer ↔ e = (b, target) :=
  ⟨fun heq => inj_on_of_nodup_map hn he h heq, fun heq => by rw [heq]⟩

lemma assignment_ne_nil (start : Nat) (ht : sel.totalNodes = c.epochState.clients.len)
    (hn : (sel.getNumTrainerNodes : Exec ε Panic Nat) = .ok n) (hpos : 0 < n) (hbatch : 0 < batch) :
    tile start (shares batch n 0 (served P c sel)) ≠ [] := by
  intro hnil
  have htiles : Tiles start (start + batch) ((tile start (shares batch n 0 (served P c sel))).map Prod.fst) :=
    tiles_served start ht hn hpos
  rw [hnil] at htiles
  obtain ⟨_, hmem, _⟩ := htiles.mem_iff.mpr ⟨le_rfl, Nat.lt_add_of_pos_right hbatch⟩
  cases hmem

lemma owner_seat {start : Nat} {e : BatchId × NodeIdentity} (h : e ∈ tile start (shares batch n 0 (served P c sel))) :
    ∃ i client, c.epochState.clients.get? i = some client ∧ client.id = e.2 ∧ (sel.seat P i).committee = .trainer := by
  obtain ⟨client, hserved, hid⟩ := owner_served h
  obtain ⟨i, hi, hseat⟩ := mem_trainers ((deterministicShuffle_perm _ _).subset hserved)
  exact ⟨i, client, hi, hid, hseat⟩

section Spec
variable {targets : List (BatchId × NodeIdentity)} {audits : List AuditAssignment}
  (ht : sel.totalNodes = c.epochState.clients.len)
  (h : (selectAuditsFrom P sel targets 0 c.epochState.clients.toList : Exec ε Panic (List AuditAssignment)) = .ok audits)
include ht h

lemma map_selectAudits : audits.map (fun a => (a.verifier, a.verifierIndex))
    = ((c.epochState.clients.toList.zipIdx 0).filter fun x => (sel.seat P x.2).committee = .verifier).map
      fun x => (x.1.id, x.2) := by
  refine map_selectAuditsFrom (totalNodes_le ht) ?_ h
  rw [ht, Nat.zero_add]
  exact le_rfl

lemma map_verifierIndex : audits.map AuditAssignment.verifierIndex = verifierIndices P sel := by
  have hmap := congrArg (List.map Prod.snd) (map_selectAudits ht h)
  rw [map_map, map_map] at hmap
  refine Eq.trans hmap ?_
  have hrange : (c.epochState.clients.toList.zipIdx 0).map Prod.snd = List.range sel.totalNodes := by
    rw [zipIdx_map_snd, ht, range_eq_range']
    rfl
  unfold verifierIndices
  rw [← hrange, filter_map]
  rfl

lemma verifier_of_mem {a : AuditAssignment} (ha : a ∈ audits) :
    ∃ client, c.epochState.clients.get? a.verifierIndex = some client ∧ client.id = a.verifier
      ∧ (sel.seat P a.verifierIndex).committee = .verifier := by
  have hmem : (a.verifier, a.verifierIndex) ∈ audits.map fun a => (a.verifier, a.verifierIndex) :=
    mem_map_of_mem ha
  rw [map_selectAudits ht h] at hmem
  obtain ⟨⟨client, i⟩, hx, heq⟩ := mem_map.mp hmem
  obtain ⟨hzip, hseat⟩ := mem_filter.mp hx
  obtain ⟨hid, rfl⟩ := Prod.mk.inj heq
  exact ⟨client, mem_zipIdx_iff_getElem?.mp hzip, hid, of_decide_eq_true hseat⟩

end Spec

/-- In a round whose batch ends before the last data index, and with at least one trainer and one sample, the audits are one for
each verifier seat and none for the others, and each of them is proper. -/
theorem audits_one_per_verifier (h : InRound c) (hsel : fromCoordinatorWithTieBreakers P c 0 tb = .ok sel)
    (hn : (sel.getNumTrainerNodes : Exec CoordinatorError Panic Nat) = .ok n) (hpos : 0 < n)
    (hb : (c.getTargetGlobalBatchSize P (some c.currentRound) : Exec CoordinatorError Panic Nat) = .ok batch)
    (hbatch : 0 < batch) (hfit : c.currentRound.dataIndex + batch < 2 ^ 64) :
    ∃ audits m, selectAuditsForCurrentRound P c tb = .ok audits
      ∧ (c.assignDataForState P sel : Exec CoordinatorError Panic (SortedMap BatchId NodeIdentity)) = .ok m
      ∧ (∀ i < c.epochState.clients.len, (sel.getCommittee P i : Exec CoordinatorError Panic CommitteeProof)
        = .ok (sel.seat P i))
      ∧ audits.map AuditAssignment.verifierIndex = verifierIndices P sel ∧ audits.length = sel.verifierNodes
      ∧ ∀ a ∈ audits, ProperAudit P c sel m a := by
  have ht : sel.totalNodes = c.epochState.clients.len := by
    obtain ⟨_, _, hsel⟩ := new_eq_ok hsel
    rw [hsel, h.clientsLen]
  have hm := assignDataForState_eq (ε := CoordinatorError) ht hn hpos hb hfit
  have hne := assignment_ne_nil (P := P) c.currentRound.dataIndex ht hn hpos hbatch
  have hall : 0 + c.epochState.clients.toList.length ≤ sel.totalNodes := by
    rw [ht, Nat.zero_add]
    exact le_rfl
  obtain ⟨audits, haudits, hspec⟩ := selectAuditsFrom_spec (ε := CoordinatorError) (P := P) hne (totalNodes_le ht) hall
  have hindices := map_verifierIndex ht haudits
  refine ⟨audits, _, ?_, hm, fun i hi => getCommittee_eq (totalNodes_le ht) (ht ▸ hi), hindices, ?_, fun a ha => ?_⟩
  · simp only [selectAuditsForCurrentRound, hsel, hm, ok_bind, selectAudits, if_neg hne, haudits]
  · rw [← length_verifierIndices (seats_le hsel), ← hindices, length_map]
  · have hentry := hspec.entry a ha
    obtain ⟨x, hx, hxid, hxseat⟩ := verifier_of_mem ht haudits ha
    obtain ⟨j, y, hy, (hyid : y.id = a.target), hyseat⟩ := owner_seat hentry
    refine ⟨⟨x, hx, hxid⟩, ⟨j, y, hy, hyid, hyseat⟩, ?_, hentry, owns_iff (owners_nodup _ h.distinct) hentry⟩
    rw [← hyid, ← hxid]
    exact signer_ne_of_seat h.distinct hy hx (by rw [hyseat, hxseat]; rintro ⟨⟩)

/-- With one verifier among three clients there is one audit, of somebody else. -/
theorem audits_one_per_verifier_threeClients : ∃ audits, selectAuditsForCurrentRound .zero (threeClients 100) 0 = .ok audits
    ∧ audits.length = 1 ∧ ∀ a ∈ audits, a.target.signer ≠ a.verifier.signer := by
  obtain ⟨tr, r⟩ := run_threeClients 100
  have hsel : fromCoordinatorWithTieBreakers .zero (threeClients 100) 0 0 = .ok threeSeats := by decide +kernel
  have hbatch : ((threeClients 100).getTargetGlobalBatchSize .zero (some (threeClients 100).currentRound)
      : Exec CoordinatorError Panic Nat) = .ok 16 := by decide +kernel
  have hindex : (threeClients 100).currentRound.dataIndex = 100 := by decide +kernel
  obtain ⟨audits, _, hok, _, _, _, hlen, hproper⟩ := audits_one_per_verifier (n := 2)
    (inRound_of_run r (.inl (by decide +kernel))) hsel (by rfl) (by decide) hbatch (by decide) (by rw [hindex]; decide)
  exact ⟨audits, hok, hlen, fun a ha => (hproper a ha).different⟩

/-- A round whose data starts at the last index has no audits, although there are a verifier, two trainers and a batch. -/
theorem audits_overflow : (∃ tr, (machine .zero).Run tr (threeClients (2 ^ 64 - 1)))
    ∧ (threeClients (2 ^ 64 - 1)).runState = .roundTrain ∧ (threeClients (2 ^ 64 - 1)).roster = [1, 2, 3]
    ∧ fromCoordinatorWithTieBreakers .zero (threeClients (2 ^ 64 - 1)) 0 0 = .ok threeSeats
    ∧ threeSeats.verifierNodes = 1 ∧ (threeSeats.getNumTrainerNodes : Exec CoordinatorError Panic Nat) = .ok 2
    ∧ ((threeClients (2 ^ 64 - 1)).getTargetGlobalBatchSize .zero (some (threeClients (2 ^ 64 - 1)).currentRound)
      : Exec CoordinatorError Panic Nat) = .ok 16
    ∧ selectAuditsForCurrentRound .zero (threeClients (2 ^ 64 - 1)) 0 = .error (.panic .overflow) := by
  refine ⟨run_threeClients _, by decide +kernel, by decide +kernel, by decide +kernel, rfl, by rfl, by decide +kernel, ?_⟩
  rfl

end Audits
end Leviathan.Coordinator
