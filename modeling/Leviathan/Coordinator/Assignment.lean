import Leviathan.Coordinator.DataSelection
import Leviathan.Coordinator.Lottery

/-!
# The data of a round

Both loops of `shared/coordinator/src/data_selection.rs` cut the batch of a round evenly (`assignFrom_eq`,
`batchIdsFrom_eq`), the first one among the clients that the lottery put on trainer seats (`trainerNodesFrom_eq`), of
which there are as many as the draw has trainer seats (`length_trainers`). The second loop stops early, but only when
nothing is left to cut.
-/

namespace Leviathan.Coordinator
open Exec List
open CommitteeSelection
variable {ε : Type} {P : Platform} {c : Coordinator} {sel : CommitteeSelection}

section Trainers

/-- The clients on trainer seats, in order, from an index on. -/
def trainers (P : Platform) (sel : CommitteeSelection) (i : Nat) (clients : List Client) : List Client :=
  ((clients.zipIdx i).filter fun x => (sel.seat P x.2).committee == .trainer).map Prod.fst

lemma trainerNodesFrom_eq {i : Nat} {clients : List Client} (ht : sel.totalNodes ≤ 2 ^ 63)
    (hi : i + clients.length ≤ sel.totalNodes) :
    (trainerNodesFrom P sel i clients : Exec ε Panic (List Client)) = .ok (trainers P sel i clients) := by
  induction clients generalizing i with
  | nil => rfl
  | cons client clients ih =>
    rw [length_cons] at hi
    unfold trainerNodesFrom
    rw [getCommittee_eq ht (by omega), ok_bind, ih (by omega), ok_bind]
    unfold trainers
    rw [zipIdx_cons, filter_cons]
    cases hseat : (sel.seat P i).committee with
    | trainer => rfl
    | verifier => rfl
    | tieBreaker => rfl

lemma length_trainers {n : Nat} {clients : List Client} (hn : sel.totalNodes = clients.length)
    (h : (sel.getNumTrainerNodes : Exec ε Panic Nat) = .ok n) : (trainers P sel 0 clients).length = n := by
  simp only [getNumTrainerNodes, bind_eq_ok, subU_eq_ok] at h
  obtain ⟨_, ⟨htb, rfl⟩, hv, rfl⟩ := h
  have hcount := count_seat (P := P) (s := sel) (by omega) .trainer
  have hrange : (clients.zipIdx 0).map Prod.snd = List.range sel.totalNodes := by
    rw [zipIdx_map_snd, hn, range_eq_range']
  unfold trainers
  rw [length_map, ← countP_eq_length_filter]
  have hmap : (clients.zipIdx 0).countP (fun x => (sel.seat P x.2).committee == .trainer)
      = ((clients.zipIdx 0).map Prod.snd).countP fun i => decide ((sel.seat P i).committee = .trainer) := by
    rw [countP_map]
    rfl
  rw [hmap, hrange]
  exact hcount.trans (Nat.sub_add_eq _ _ _)

lemma mem_trainers {client : Client} {clients : List Client} (h : client ∈ trainers P sel 0 clients) :
    ∃ i, clients[i]? = some client ∧ (sel.seat P i).committee = .trainer := by
  obtain ⟨⟨_, i⟩, hx, rfl⟩ := mem_map.mp h
  obtain ⟨hmem, hseat⟩ := mem_filter.mp hx
  exact ⟨i, mem_zipIdx_iff_getElem?.mp hmem, by simpa using hseat⟩

lemma sublist_trainers (clients : List Client) : (trainers P sel 0 clients).Sublist clients := by
  have h := (filter_sublist (p := fun x => (sel.seat P x.2).committee == .trainer)
    (l := clients.zipIdx 0)).map Prod.fst
  rwa [zipIdx_map_fst] at h

end Trainers

section Loops
variable {total n : Nat}

lemma nextBatch_eq {i current : Nat} (h : current + evenSize total n i < 2 ^ 64) :
    (nextBatch (total / n) (total % n) i current : Exec ε Panic (Option (BatchId × Nat)))
      = .ok (if h : evenSize total n i = 0 then none
        else some (.ofSize current (evenSize total n i) h, current + evenSize total n i)) := by
  unfold nextBatch
  have hsize : (addU 64 (total / n) (if i < total % n then 1 else 0) : Exec ε Panic Nat)
      = .ok (evenSize total n i) := addU_eq_ok.mpr ⟨lt_of_le_of_lt (Nat.le_add_left _ _) h, rfl⟩
  rw [hsize, ok_bind]
  by_cases hz : evenSize total n i = 0
  · rw [dif_pos hz, if_neg (by omega)]
  · rw [dif_neg hz, if_pos (by omega), addU_eq_ok.mpr ⟨h, rfl⟩, ok_bind, subU_of_le (by omega), ok_bind]
    unfold ClosedInterval.new
    rw [dif_pos (by omega), ok_bind, addU_eq_ok.mpr ⟨by omega, rfl⟩, ok_bind]
    have hnext : current + evenSize total n i - 1 + 1 = current + evenSize total n i := by omega
    rw [hnext]
    rfl

lemma nextBatch_overflow {i current : Nat} (hc : current < 2 ^ 64) (h : 2 ^ 64 ≤ current + evenSize total n i) :
    (nextBatch (total / n) (total % n) i current : Exec ε Panic (Option (BatchId × Nat))) = .error (.panic .overflow) := by
  unfold nextBatch
  by_cases hsize : evenSize total n i < 2 ^ 64
  · have hadd : (addU 64 (total / n) (if i < total % n then 1 else 0) : Exec ε Panic Nat) = .ok (evenSize total n i) :=
      addU_eq_ok.mpr ⟨hsize, rfl⟩
    rw [hadd, ok_bind, if_pos (by omega), addU_overflow h]
    rfl
  · have hadd : (addU 64 (total / n) (if i < total % n then 1 else 0) : Exec ε Panic Nat) = .error (.panic .overflow) :=
      addU_overflow (not_lt.mp hsize)
    rw [hadd]
    rfl

/-- The pieces of an even cut for the trainers from `i` on. -/
def shares (total n i : Nat) (nodes : List Client) : List (Nat × NodeIdentity) :=
  (nodes.zipIdx i).map fun x => (evenSize total n x.2, x.1.id)

lemma shares_cons {i : Nat} {node : Client} {nodes : List Client} :
    shares total n i (node :: nodes) = (evenSize total n i, node.id) :: shares total n (i + 1) nodes := by
  unfold shares
  rw [zipIdx_cons, map_cons]

lemma map_fst_shares {i : Nat} {nodes : List Client} :
    (shares total n i nodes).map Prod.fst = (List.range' i nodes.length).map (evenSize total n) := by
  rw [← zipIdx_map_snd i nodes, map_map]
  exact map_map

lemma map_snd_shares {i : Nat} {nodes : List Client} : (shares total n i nodes).map Prod.snd = nodes.map Client.id := by
  conv_rhs => rw [← zipIdx_map_fst i nodes, map_map]
  exact map_map

lemma assignFrom_eq {i current : Nat} {m : SortedMap BatchId NodeIdentity} {nodes : List Client}
    (hm : ∀ e ∈ m, e.1.start < current)
    (hfit : current + ((shares total n i nodes).map Prod.fst).sum < 2 ^ 64) :
    (assignFrom (total / n) (total % n) i current m nodes : Exec ε Panic (SortedMap BatchId NodeIdentity))
      = .ok (m ++ tile current (shares total n i nodes)) := by
  induction nodes generalizing i current m with
  | nil =>
    show _ = Except.ok (m ++ [])
    rw [append_nil]
    rfl
  | cons node nodes ih =>
    rw [shares_cons, map_cons, sum_cons] at hfit
    unfold assignFrom
    rw [nextBatch_eq (by omega), ok_bind, shares_cons]
    unfold tile
    by_cases hz : evenSize total n i = 0
    · rw [dif_pos hz, dif_pos hz]
      exact ih hm (by omega)
    · rw [dif_neg hz, dif_neg hz]
      -- the new key is beyond the old ones
      have hlt : ∀ e ∈ m, e.1 < ClosedInterval.ofSize current (evenSize total n i) hz :=
        fun e he => ClosedInterval.lt_of_start_lt (hm e he)
      show assignFrom _ _ (i + 1) _ (SortedMap.insert _ node.id m) nodes = _
      rw [SortedMap.insert_of_forall_lt hlt, ih ?_ (by omega), append_assoc]
      · rfl
      · intro e he
        rcases mem_append.mp he with he | he
        · exact lt_of_lt_of_le (hm e he) (Nat.le_add_right _ _)
        · cases mem_singleton.mp he
          show current < current + evenSize total n i
          omega

lemma assignFrom_overflow {i current : Nat} {m : SortedMap BatchId NodeIdentity} {nodes : List Client}
    (hc : current < 2 ^ 64) (h : 2 ^ 64 ≤ current + ((shares total n i nodes).map Prod.fst).sum) :
    (assignFrom (total / n) (total % n) i current m nodes : Exec ε Panic (SortedMap BatchId NodeIdentity))
      = .error (.panic .overflow) := by
  induction nodes generalizing i current m with
  | nil => exact absurd hc (not_lt.mpr h)
  | cons node nodes ih =>
    rw [shares_cons, map_cons, sum_cons] at h
    unfold assignFrom
    by_cases hfit : current + evenSize total n i < 2 ^ 64
    · rw [nextBatch_eq hfit, ok_bind]
      by_cases hz : evenSize total n i = 0
      · rw [dif_pos hz]
        exact ih hc (by omega)
      · rw [dif_neg hz]
        exact ih hfit (by omega)
    · rw [nextBatch_overflow hc (not_lt.mp hfit)]
      rfl

/-- The loop of `get_batch_ids_for_round` lists the pieces; where it stops nothing is left to cut. -/
lemma batchIdsFrom_eq {end_ current : Nat} {is : List Nat}
    (hend : current + (is.map (evenSize total n)).sum = end_) (hfit : end_ < 2 ^ 64) :
    (batchIdsFrom (total / n) (total % n) end_ current is : Exec ε Panic (List BatchId))
      = .ok ((tile current (is.map fun i => (evenSize total n i, ()))).map Prod.fst) := by
  induction is generalizing current with
  | nil => rfl
  | cons i is ih =>
    rw [map_cons, sum_cons] at hend
    unfold batchIdsFrom
    rw [nextBatch_eq (by omega), ok_bind, map_cons]
    unfold tile
    by_cases hz : evenSize total n i = 0
    · rw [dif_pos hz, dif_pos hz]
      exact ih (by omega)
    · rw [dif_neg hz, dif_neg hz]
      show (if end_ ≤ current + evenSize total n i then _ else _) = _
      split
      · have hrest : ((is.map fun i => (evenSize total n i, ())).map Prod.fst).sum = 0 := by
          rw [map_map]
          show (is.map (evenSize total n)).sum = 0
          omega
        rw [tile_of_sum_eq_zero hrest]
        rfl
      · rw [ih (by omega)]
        rfl

end Loops

section Partition
variable {n batch : Nat}

lemma totalNodes_le (ht : sel.totalNodes = c.epochState.clients.len) : sel.totalNodes ≤ 2 ^ 63 := by
  rw [ht]
  exact c.epochState.clients.bound.trans (by decide)

/-- The trainers in the order in which they are served. -/
def served (P : Platform) (c : Coordinator) (sel : CommitteeSelection) : List Client :=
  deterministicShuffle (trainers P sel 0 c.epochState.clients.toList) c.currentRound.randomSeed

lemma length_served (ht : sel.totalNodes = c.epochState.clients.len)
    (hn : (sel.getNumTrainerNodes : Exec ε Panic Nat) = .ok n) : (served P c sel).length = n :=
  (deterministicShuffle_perm _ _).length_eq.trans (length_trainers ht hn)

lemma served_nodup (hd : (c.epochState.clients.toList.map fun x => x.id.signer).Nodup) :
    ((served P c sel).map fun x => x.id.signer).Nodup := by
  refine ((deterministicShuffle_perm _ _).map _).nodup_iff.mpr ?_
  exact hd.sublist ((sublist_trainers _).map _)

lemma served_seat {client : Client} (ht : sel.totalNodes = c.epochState.clients.len) (h : client ∈ served P c sel) :
    ∃ i proof, c.epochState.clients.get? i = some client
      ∧ (sel.getCommittee P i : Exec ε Panic CommitteeProof) = .ok proof ∧ proof.committee = .trainer := by
  obtain ⟨i, hi, hseat⟩ := mem_trainers ((deterministicShuffle_perm _ _).subset h)
  have hlt : i < sel.totalNodes := by
    rw [ht]
    exact (List.getElem?_eq_some_iff.mp hi).1
  exact ⟨i, _, hi, getCommittee_eq (totalNodes_le ht) hlt, hseat⟩

lemma owner_served {start : Nat} {e : ClosedInterval × NodeIdentity}
    (h : e ∈ tile start (shares batch n 0 (served P c sel))) : ∃ client ∈ served P c sel, client.id = e.2 := by
  have howners := sublist_tile start (shares batch n 0 (served P c sel))
  rw [map_snd_shares] at howners
  exact mem_map.mp (howners.subset (mem_map_of_mem h))

lemma owners_nodup (start : Nat) (hd : (c.epochState.clients.toList.map fun x => x.id.signer).Nodup) :
    ((tile start (shares batch n 0 (served P c sel))).map fun e => e.2.signer).Nodup := by
  have hsub := (sublist_tile start (shares batch n 0 (served P c sel))).map NodeIdentity.signer
  rw [map_snd_shares, map_map, map_map] at hsub
  exact (served_nodup hd).sublist hsub

lemma map_fst_shares_served (ht : sel.totalNodes = c.epochState.clients.len)
    (hn : (sel.getNumTrainerNodes : Exec ε Panic Nat) = .ok n) :
    (shares batch n 0 (served P c sel)).map Prod.fst = (List.range n).map (evenSize batch n) := by
  rw [map_fst_shares, length_served ht hn, range_eq_range']

lemma assignDataForState_eq (ht : sel.totalNodes = c.epochState.clients.len)
    (hn : (sel.getNumTrainerNodes : Exec ε Panic Nat) = .ok n) (hpos : 0 < n)
    (hb : (c.getTargetGlobalBatchSize P (some c.currentRound) : Exec ε Panic Nat) = .ok batch)
    (hfit : c.currentRound.dataIndex + batch < 2 ^ 64) :
    (c.assignDataForState P sel : Exec ε Panic (SortedMap BatchId NodeIdentity))
      = .ok (tile c.currentRound.dataIndex (shares batch n 0 (served P c sel))) := by
  have hlen := length_served (P := P) ht hn
  have hne : trainers P sel 0 c.epochState.clients.toList ≠ [] := by
    intro he
    have hlen : (trainers P sel 0 c.epochState.clients.toList).length = n := length_trainers ht hn
    rw [he, length_nil] at hlen
    omega
  unfold assignDataForState
  rw [trainerNodesFrom_eq (totalNodes_le ht) (by rw [ht, Nat.zero_add]; exact le_rfl), ok_bind, if_neg hne, hb, ok_bind]
  show assignFrom (batch / (served P c sel).length) (batch % (served P c sel).length) 0 _ [] (served P c sel) = _
  rw [hlen, assignFrom_eq (by simp)]
  · rfl
  · rwa [map_fst_shares_served ht hn, sum_evenSize hpos]

lemma assignDataForState_eq_nil (ht : sel.totalNodes = c.epochState.clients.len)
    (hn : (sel.getNumTrainerNodes : Exec ε Panic Nat) = .ok 0) :
    (c.assignDataForState P sel : Exec ε Panic (SortedMap BatchId NodeIdentity)) = .ok [] := by
  have hlen : (trainers P sel 0 c.epochState.clients.toList).length = 0 := length_trainers ht hn
  unfold assignDataForState
  rw [trainerNodesFrom_eq (totalNodes_le ht) (by rw [ht, Nat.zero_add]; exact le_rfl), ok_bind,
    if_pos (length_eq_zero_iff.mp hlen)]

lemma tiles_served (start : Nat) (ht : sel.totalNodes = c.epochState.clients.len)
    (hn : (sel.getNumTrainerNodes : Exec ε Panic Nat) = .ok n) (hpos : 0 < n) :
    Tiles start (start + batch) ((tile start (shares batch n 0 (served P c sel))).map Prod.fst) := by
  have htiles := tile_tiles start (shares batch n 0 (served P c sel))
  rwa [map_fst_shares_served ht hn, sum_evenSize hpos] at htiles

lemma getBatchIdsForRound_eq (hpos : 0 < n)
    (hb : (c.getTargetGlobalBatchSize P (some c.currentRound) : Exec ε Panic Nat) = .ok batch)
    (hfit : c.currentRound.dataIndex + batch < 2 ^ 64) :
    (c.getBatchIdsForRound P c.currentRound n : Exec ε Panic (List BatchId))
      = .ok ((tile c.currentRound.dataIndex ((List.range n).map fun i => (evenSize batch n i, ()))).map Prod.fst) := by
  unfold getBatchIdsForRound
  rw [hb, ok_bind, addU_eq_ok.mpr ⟨hfit, rfl⟩, ok_bind, ensure_of (by omega), ok_bind]
  exact batchIdsFrom_eq (by rw [sum_evenSize hpos]) hfit

/-- Where the batch of the round ends before the last data index, the assignment returns. Its batches lie side by side and
cover the batch of the round, each goes to another client on a trainer seat, their sizes differ by at most one, and they are
those that a client expects for as many trainers as there are trainer seats. -/
theorem assignment_partition (hd : (c.epochState.clients.toList.map fun x => x.id.signer).Nodup)
    (ht : sel.totalNodes = c.epochState.clients.len)
    (hn : (sel.getNumTrainerNodes : Exec ε Panic Nat) = .ok n) (hpos : 0 < n)
    (hb : (c.getTargetGlobalBatchSize P (some c.currentRound) : Exec ε Panic Nat) = .ok batch)
    (hfit : c.currentRound.dataIndex + batch < 2 ^ 64) :
    ∃ m : SortedMap BatchId NodeIdentity,
      (c.assignDataForState P sel : Exec ε Panic (SortedMap BatchId NodeIdentity)) = .ok m
      ∧ Tiles c.currentRound.dataIndex (c.currentRound.dataIndex + batch) (m.map Prod.fst)
      ∧ (m.map Prod.fst).Pairwise (fun i j => i.end_ < j.start)
      ∧ (∀ x, (∃ e ∈ m, x ∈ e.1) ↔ c.currentRound.dataIndex ≤ x ∧ x < c.currentRound.dataIndex + batch)
      ∧ (∀ e ∈ m, ∃ i client proof, c.epochState.clients.get? i = some client ∧ e.2 = client.id
        ∧ (sel.getCommittee P i : Exec ε Panic CommitteeProof) = .ok proof ∧ proof.committee = .trainer)
      ∧ (m.map fun e => e.2.signer).Nodup
      ∧ (∀ e ∈ m, ∀ e' ∈ m, e.1.size ≤ e'.1.size + 1)
      ∧ (c.getBatchIdsForRound P c.currentRound n : Exec ε Panic (List BatchId)) = .ok (m.map Prod.fst) := by
  have hsizes : (shares batch n 0 (served P c sel)).map Prod.fst = (List.range n).map (evenSize batch n) :=
    map_fst_shares_served ht hn
  have htiles : Tiles c.currentRound.dataIndex (c.currentRound.dataIndex + batch) (List.map Prod.fst
      (tile c.currentRound.dataIndex (shares batch n 0 (served P c sel)))) := tiles_served _ ht hn hpos
  refine ⟨_, assignDataForState_eq ht hn hpos hb hfit, htiles, htiles.pairwise, ?_, ?_, ?_, ?_, ?_⟩
  · intro x
    rw [← htiles.mem_iff]
    simp only [mem_map]
    constructor
    · rintro ⟨e, he, hx⟩
      exact ⟨e.1, ⟨e, he, rfl⟩, hx⟩
    · rintro ⟨_, ⟨e, he, rfl⟩, hx⟩
      exact ⟨e, he, hx⟩
  · intro e he
    obtain ⟨client, hmem, hid⟩ := owner_served he
    obtain ⟨i, proof, hi, hproof, hseat⟩ := served_seat ht hmem
    exact ⟨i, client, proof, hi, hid.symm, hproof, hseat⟩
  · exact owners_nodup _ hd
  · intro e he e' he'
    obtain ⟨x, _, hx⟩ := mem_map.mp (mem_tile e he)
    obtain ⟨x', _, hx'⟩ := mem_map.mp (mem_tile e' he')
    obtain ⟨hs, _⟩ := Prod.mk.inj hx
    obtain ⟨hs', _⟩ := Prod.mk.inj hx'
    rw [← hs, ← hs']
    exact evenSize_le _ _ _ _
  · rw [getBatchIdsForRound_eq hpos hb hfit]
    refine congrArg _ (map_fst_tile ?_)
    rw [hsizes, map_map]
    rfl

/-- A round of three clients, of which half are verifiers, whose data starts at an index. -/
def threeClients (dataIndex : Nat) : Coordinator :=
  ((machine .zero).play []
    { Coordinator.small with
      config := { CoordinatorConfig.small with verificationPercent := 50 }
      progress := ⟨0, 1, dataIndex⟩ }
    [.tick (some ⟨[⟨1, 0⟩, ⟨2, 0⟩, ⟨3, 0⟩], by decide⟩) 5 7, .tick none 15 7]).2

lemma run_threeClients (dataIndex : Nat) : ∃ tr, (machine .zero).Run tr (threeClients dataIndex) := by
  refine ⟨_, Machine.Run.play (Machine.Run.init ?_) _⟩
  exact ⟨rfl, rfl, rfl, .inl rfl⟩

/-- The draw of such a round. -/
def threeSeats : CommitteeSelection := ⟨0, 1, 3, 0, 0⟩

/-- The batches of three clients tile the sixteen samples of the round. -/
theorem assignment_partition_threeClients : (threeClients 100).runState = .roundTrain
    ∧ (fromCoordinator .zero (threeClients 100) 0) = .ok threeSeats
    ∧ ∃ m : SortedMap BatchId NodeIdentity,
      ((threeClients 100).assignDataForState .zero threeSeats
        : Exec CoordinatorError Panic (SortedMap BatchId NodeIdentity)) = .ok m ∧ Tiles 100 116 (m.map Prod.fst) := by
  have hindex : (threeClients 100).currentRound.dataIndex = 100 := by decide +kernel
  have hseats : threeSeats.totalNodes = (threeClients 100).epochState.clients.len := by decide +kernel
  have hbatch : ((threeClients 100).getTargetGlobalBatchSize .zero (some (threeClients 100).currentRound)
      : Exec CoordinatorError Panic Nat) = .ok 16 := by decide +kernel
  obtain ⟨m, hm, htiles, _⟩ := assignment_partition (n := 2) (by decide +kernel) hseats (by rfl) (by decide) hbatch
    (by rw [hindex]; decide)
  rw [hindex] at htiles
  exact ⟨by decide +kernel, by decide +kernel, m, hm, htiles⟩

/-- A round whose data starts at the last index has no assignment. -/
theorem assignment_overflow : (threeClients (2 ^ 64 - 1)).runState = .roundTrain
    ∧ ((threeClients (2 ^ 64 - 1)).epochState.clients.toList.map fun x => x.id.signer).Nodup
    ∧ (threeClients (2 ^ 64 - 1)).currentRound.clientsLen = (threeClients (2 ^ 64 - 1)).epochState.clients.len
    ∧ fromCoordinator .zero (threeClients (2 ^ 64 - 1)) 0 = .ok threeSeats
    ∧ (threeSeats.getNumTrainerNodes : Exec CoordinatorError Panic Nat) = .ok 2
    ∧ ((threeClients (2 ^ 64 - 1)).assignDataForState .zero threeSeats
      : Exec CoordinatorError Panic (SortedMap BatchId NodeIdentity)) = .error (.panic .overflow) := by
  refine ⟨by decide +kernel, by decide +kernel, by decide +kernel, by decide +kernel, by rfl, ?_⟩
  rfl

end Partition
end Leviathan.Coordinator
