import Leviathan.Core.Exchange
import Leviathan.Coordinator.AuditSelection
import Leviathan.Coordinator.Inversion

/-!
# Audits and training

Do the verifiers replay what the clients train with? The audits are drawn with the number of tie-breakers of the run,
the training with the one of the round, which no round sets (`RoundStarted.tieBreakerTasks`), from the same shuffle.
-/

namespace Leviathan.Coordinator
open Exec List
open CommitteeSelection

/-- The verifier seats of a draw (in Rust `CommitteeSelection::new`). -/
def verifierSeats (percent total tieBreakers : Nat) : Nat := (total - tieBreakers) * percent / 100

def trainerSeats (percent total tieBreakers : Nat) : Nat :=
  total - tieBreakers - verifierSeats percent total tieBreakers

/-- A round with given numbers of tie-breakers, witnesses, verifiers in percent, clients and samples. -/
structure Drawn (P : Platform) (c : Coordinator) (tasks witnesses percent total batch : Nat) : Prop where
  phase : c.runState = .roundTrain ∨ c.runState = .roundWitness
  tieBreakerTasks : c.currentRound.tieBreakerTasks = tasks
  witnessNodes : c.config.witnessNodes = witnesses
  verificationPercent : c.config.verificationPercent = percent
  clients : c.epochState.clients.len = total
  clientsLen : c.currentRound.clientsLen = total
  dataIndex : c.currentRound.dataIndex < 2 ^ 64
  batchSize : (c.getTargetGlobalBatchSize P (some c.currentRound) : Exec CoordinatorError Panic Nat) = .ok batch

section Agreement
variable {P : Platform} {c : Coordinator} {sel : CommitteeSelection} {tb tasks wn percent total batch seed : Nat}
  {audits : List AuditAssignment} {a : AuditAssignment}

lemma seats_of_new (h : CommitteeSelection.new P tb wn percent total seed = .ok sel) :
    sel.totalNodes = total ∧ sel.seed = P.sha256 (leBytes 8 seed)
      ∧ sel.tieBreakerNodes + sel.verifierNodes = total - trainerSeats percent total tb
      ∧ sel.verifierNodes = verifierSeats percent total tb
      ∧ (sel.getNumTrainerNodes : Exec CoordinatorError Panic Nat) = .ok (trainerSeats percent total tb) := by
  have hle := seats_le h
  obtain ⟨htb, _, rfl⟩ := new_eq_ok h
  have hseats : tb + verifierSeats percent total tb ≤ total := hle
  refine ⟨rfl, rfl, ?_, rfl, ?_⟩
  · show tb + verifierSeats percent total tb = _
    unfold trainerSeats
    omega
  · simp only [getNumTrainerNodes, bind_eq_ok, subU_eq_ok]
    refine ⟨_, ⟨htb, rfl⟩, ?_, rfl⟩
    show verifierSeats percent total tb ≤ total - tb
    omega

lemma audit_of_drawn (hd : Drawn P c tasks wn percent total batch)
    (h : selectAuditsForCurrentRound P c tb = .ok audits) (ha : a ∈ audits) :
    ∃ sel m, CommitteeSelection.new P tb wn percent total c.currentRound.randomSeed = .ok sel
      ∧ (c.assignDataForState P sel : Exec CoordinatorError Panic (SortedMap BatchId NodeIdentity)) = .ok m
      ∧ (a.batchId, a.target) ∈ m ∧ (sel.seat P a.verifierIndex).committee = .verifier := by
  simp only [selectAuditsForCurrentRound, bind_eq_ok] at h
  obtain ⟨sel, hsel, m, hm, h⟩ := h
  have hnew : CommitteeSelection.new P tb wn percent total c.currentRound.randomSeed = .ok sel := by
    rw [← hd.witnessNodes, ← hd.verificationPercent, ← hd.clientsLen]
    exact hsel
  have ht : sel.totalNodes = c.epochState.clients.len := (seats_of_new hnew).1.trans hd.clients.symm
  unfold selectAudits at h
  split at h
  · cases h
    cases ha
  · rename_i hne
    have hlen : 0 + c.epochState.clients.toList.length = c.epochState.clients.len := Nat.zero_add _
    obtain ⟨_, hok, hspec⟩ := selectAuditsFrom_spec (ε := CoordinatorError) (P := P) hne (totalNodes_le ht)
      (hlen.trans ht.symm).le
    cases hok.symm.trans h
    exact ⟨sel, m, hnew, hm, hspec.entry a ha, (hspec.verifier a ha).2.2⟩

lemma audits_agree (hd : Drawn P c tasks wn percent total batch)
    (hseats : trainerSeats percent total tb = trainerSeats percent total tasks
      ∨ trainerSeats percent total tb = 0 ∨ verifierSeats percent total tb = 0 ∨ batch = 0)
    (h : selectAuditsForCurrentRound P c tb = .ok audits) (ha : a ∈ audits) :
    ∃ m, trainingAssignments P c = .ok m ∧ (a.batchId, a.target) ∈ m := by
  obtain ⟨sel, m, hnew, hm, hentry, hverifier⟩ := audit_of_drawn hd h ha
  obtain ⟨htotal, hseed, hother, hver, hnum⟩ := seats_of_new hnew
  have ht : sel.totalNodes = c.epochState.clients.len := htotal.trans hd.clients.symm
  -- there is something to audit
  have htrainers : trainerSeats percent total tb ≠ 0 := by
    intro h0
    rw [h0] at hnum
    cases hm.symm.trans (assignDataForState_eq_nil ht hnum)
    cases hentry
  have hbatch : batch ≠ 0 := by
    rintro rfl
    have hpos : 0 < trainerSeats percent total tb := by omega
    cases hm.symm.trans (assignDataForState_eq ht hnum hpos hd.batchSize (by simpa using hd.dataIndex))
    rw [tile_of_sum_eq_zero (by rw [map_fst_shares_served ht hnum, sum_evenSize hpos])] at hentry
    cases hentry
  have hverifiers : verifierSeats percent total tb ≠ 0 := by
    intro h0
    exact (verifierNodes_pos hverifier).ne' (hver.trans h0)
  -- so both draws have as many trainer seats, which makes the same assignment
  obtain hseats | hseats | hseats | hseats := hseats
  · have hfew : total < 2 ^ 32 := by
      rw [← hd.clients]
      exact lt_of_le_of_lt c.epochState.clients.bound (by decide)
    have htasks : tasks ≤ total := by
      unfold trainerSeats at hseats htrainers
      omega
    have hnew' := new_of (P := P) c.currentRound.randomSeed hfew htasks (witnessNodes_le_of_new hnew)
      (new_eq_ok hnew).2.1
    obtain ⟨htotal', hseed', hother', _, _⟩ := seats_of_new hnew'
    refine ⟨m, ?_, hentry⟩
    unfold trainingAssignments
    rw [hd.tieBreakerTasks, hd.witnessNodes, hd.verificationPercent, hd.clients, hnew', ok_bind, ← hm]
    exact assignDataForState_congr ht (htotal'.trans hd.clients.symm) (hseed'.trans hseed.symm)
      (hother'.trans (hseats ▸ hother.symm))
  · exact absurd hseats htrainers
  · exact absurd hseats hverifiers
  · exact absurd hseats hbatch

end Agreement

section Disagreement
variable {a b count total i k : Nat} {P : Platform} {c : Coordinator} {client : Client}

/-- A platform whose shuffles exchange two indices. -/
def exchanging (a b count : Nat) : Platform := { Platform.zero with sha256 := exchangeHash a b count }

lemma auditDraw_exchanging (sel : CommitteeSelection) (i : Nat) : auditDraw (exchanging a b count) sel i = 0 := by
  have hlen : (sel.seed.bytes ++ auditSalt ++ leBytes 8 i).length = 45 := by
    simp only [length_append, Bytes32.bytes, length_leBytes]
    rfl
  show (exchangeHash a b count _).toNat % 2 ^ 64 = 0
  unfold exchangeHash
  rw [if_neg (by omega), if_neg (by omega)]
  rfl

/-- A client for every number. -/
def numbered (i : Nat) : Client := Client.new ⟨BitVec.ofNat 256 i, 0⟩

def numberedRound (tasks wn percent total batch : Nat) (h : total ≤ solanaMaxNumClients) : Coordinator :=
  ({ Coordinator.small with
      runState := .roundTrain
      config := { CoordinatorConfig.small with
        witnessNodes := wn
        verificationPercent := percent
        globalBatchSizeEnd := batch }
      epochState := { CoordinatorEpochState.zeroed with
        clients := ⟨(List.range total).map numbered, by simpa using h⟩ } } : Coordinator).setCurrentRound
    ⟨.new, 0, 0, 0, total, tasks⟩

variable {tb tasks wn percent batch : Nat} {h : total ≤ solanaMaxNumClients} {sel : CommitteeSelection}

lemma currentRound_numberedRound :
    (numberedRound tasks wn percent total batch h).currentRound = ⟨.new, 0, 0, 0, total, tasks⟩ :=
  currentRound_setCurrentRound _

lemma clients_numberedRound :
    (numberedRound tasks wn percent total batch h).epochState.clients.toList = (List.range total).map numbered := rfl

lemma drawn_numberedRound (P : Platform) :
    Drawn P (numberedRound tasks wn percent total batch h) tasks wn percent total batch := by
  refine ⟨.inl rfl, ?_, rfl, rfl, ?_, ?_, ?_, ?_⟩
  · rw [currentRound_numberedRound]
  · show ((List.range total).map numbered).length = total
    simp
  · rw [currentRound_numberedRound]
  · rw [currentRound_numberedRound]
    exact Nat.two_pow_pos 64
  · rw [currentRound_numberedRound]
    rfl

lemma getElem_numbered : ((List.range total).map numbered)[i]? = some client ↔ i < total ∧ client = numbered i := by
  rw [getElem?_map]
  by_cases hi : i < total
  · rw [getElem?_range hi, Option.map_some, Option.some.injEq]
    exact ⟨fun e => ⟨hi, e.symm⟩, fun e => e.2.symm⟩
  · rw [getElem?_eq_none (by simpa using hi)]
    simp [hi]

lemma numbered_inj {j : Nat} (hi : i < 256) (hj : j < 256) (e : (numbered i).id = (numbered j).id) : i = j := by
  have hkey : BitVec.ofNat 256 i = BitVec.ofNat 256 j := congrArg NodeIdentity.signer e
  have := congrArg BitVec.toNat hkey
  rw [BitVec.toNat_ofNat, BitVec.toNat_ofNat] at this
  omega

lemma position_exchanging (ha : a < total) (hb : b < total) (hc : total ≤ 256) (ht : sel.totalNodes = total)
    (hi : i < total) (salt : Bytes) :
    sel.position (exchanging a b total) salt i = if i = a then b else if i = b then a else i := by
  unfold CommitteeSelection.position
  rw [ht]
  exact shuffled_exchange ha hb hc hi

def lastServed (k total : Nat) : List Client :=
  deterministicShuffle ((((List.range total).map numbered).zipIdx.filter fun x => k ≤ x.2).map Prod.fst) 0

lemma served_exchanging (ha : a < total) (hb : b < total) (hka : k ≤ a) (hkb : k ≤ b)
    (ht : sel.totalNodes = total) (hk : sel.tieBreakerNodes + sel.verifierNodes = k) :
    served (exchanging a b total) (numberedRound tasks wn percent total batch h) sel = lastServed k total := by
  unfold served lastServed
  rw [currentRound_numberedRound, clients_numberedRound]
  refine congrArg (fun l => deterministicShuffle l 0) (congrArg _ (filter_congr fun x hx => ?_))
  have hlt : x.2 < total := by
    exact (getElem_numbered.mp (mem_zipIdx_iff_getElem?.mp hx)).1
  rw [Bool.eq_iff_iff, beq_iff_eq, decide_eq_true_iff, seat_trainer_iff, hk, position_exchanging ha hb h ht hlt]
  split
  · omega
  · split <;> omega

lemma lastServed_head (k total : Nat) (hk : k < total) :
    ∃ x rest, k ≤ x ∧ x < total ∧ lastServed k total = numbered x :: rest := by
  have hperm : (lastServed k total).Perm _ := deterministicShuffle_perm _ _
  cases hl : lastServed k total with
  | nil =>
    -- the client with number `k` is served
    have hmem : numbered k ∈ lastServed k total := by
      refine hperm.symm.subset (mem_map.mpr ⟨(numbered k, k), mem_filter.mpr ⟨?_, by simp⟩, rfl⟩)
      exact mem_zipIdx_iff_getElem?.mpr (getElem_numbered.mpr ⟨hk, rfl⟩)
    rw [hl] at hmem
    cases hmem
  | cons w rest =>
    have hmem : w ∈ lastServed k total := by simp [hl]
    obtain ⟨⟨_, x⟩, hx, rfl⟩ := mem_map.mp (hperm.subset hmem)
    obtain ⟨hget, hkx⟩ := mem_filter.mp hx
    obtain ⟨hlt, e⟩ := getElem_numbered.mp (mem_zipIdx_iff_getElem?.mp hget)
    exact ⟨x, rest, of_decide_eq_true hkx, hlt, congrArg (· :: rest) e⟩

lemma not_served_of_exchange {x : Nat} (hx : x < total) (hb : b < total) (hbk : b < k)
    (ht : sel.totalNodes = total) (hk : sel.tieBreakerNodes + sel.verifierNodes = k)
    (hmem : client ∈ served (exchanging b x total) (numberedRound tasks wn percent total batch h) sel) :
    client.id ≠ (numbered x).id := by
  intro e
  obtain ⟨i, hi, hseat⟩ := mem_trainers ((deterministicShuffle_perm _ _).subset hmem)
  obtain ⟨hit, rfl⟩ := getElem_numbered.mp hi
  cases numbered_inj (lt_of_lt_of_le hit h) (lt_of_lt_of_le hx h) e
  rw [seat_trainer_iff, hk, position_exchanging hb hx h ht hx] at hseat
  split at hseat
  · omega
  · rw [if_pos rfl] at hseat
    omega

lemma firstAudit (hd : Drawn P c tasks wn percent total batch) (hzero : ∀ i, auditDraw P sel i = 0)
    (hnew : CommitteeSelection.new P tb wn percent total c.currentRound.randomSeed = .ok sel)
    (hver : verifierSeats percent total tb ≠ 0) {e : BatchId × NodeIdentity}
    {rest : SortedMap BatchId NodeIdentity}
    (hm : (c.assignDataForState P sel : Exec CoordinatorError Panic (SortedMap BatchId NodeIdentity))
      = .ok (e :: rest)) :
    ∃ audits, selectAuditsForCurrentRound P c tb = .ok audits ∧ ∃ a ∈ audits, (a.batchId, a.target) = e := by
  obtain ⟨htotal, _, _, hverifiers, _⟩ := seats_of_new hnew
  have ht : sel.totalNodes = c.epochState.clients.len := htotal.trans hd.clients.symm
  have hlen : 0 + c.epochState.clients.toList.length = sel.totalNodes := (Nat.zero_add _).trans ht.symm
  obtain ⟨audits, hok, hspec⟩ := selectAuditsFrom_spec (ε := CoordinatorError) (P := P) (cons_ne_nil e rest)
    (totalNodes_le ht) hlen.le
  -- somebody is on a verifier seat
  have hcount := count_seat (P := P) (seats_le hnew) .verifier
  obtain ⟨i, hi, hseat⟩ : ∃ i < sel.totalNodes, (sel.seat P i).committee = .verifier := by
    rw [← Nat.count_ne_iff_exists, hcount]
    show sel.tieBreakerNodes + sel.verifierNodes - sel.tieBreakerNodes ≠ 0
    omega
  obtain ⟨a, ha, hpick⟩ := hspec.every i (Nat.zero_le _) (by omega) hseat
  rw [hzero, Nat.zero_mod, getElem?_cons_zero, Option.some.injEq] at hpick
  refine ⟨audits, ?_, a, ha, hpick.symm⟩
  have hsel : fromCoordinatorWithTieBreakers P c 0 tb = .ok sel := by
    rw [← hd.witnessNodes, ← hd.verificationPercent, ← hd.clientsLen] at hnew
    exact hnew
  unfold selectAuditsForCurrentRound
  rw [hsel, ok_bind, hm, ok_bind, selectAudits, if_neg (cons_ne_nil e rest), hok]

lemma assignDataForState_head {n : Nat} (hd : Drawn P c tasks wn percent total batch)
    (ht : sel.totalNodes = total) (hn : (sel.getNumTrainerNodes : Exec CoordinatorError Panic Nat) = .ok n)
    (hpos : 0 < n) (hbatch : batch ≠ 0) (hfit : c.currentRound.dataIndex + batch < 2 ^ 64) {w : Client}
    {ws : List Client} (hs : served P c sel = w :: ws) :
    (c.assignDataForState P sel : Exec CoordinatorError Panic (SortedMap BatchId NodeIdentity))
      = .ok ((.ofSize c.currentRound.dataIndex (evenSize batch n 0) (evenSize_first_ne_zero hpos hbatch), w.id)
        :: tile (c.currentRound.dataIndex + evenSize batch n 0) (shares batch n 1 ws)) := by
  rw [assignDataForState_eq (ht.trans hd.clients.symm) hn hpos hd.batchSize hfit, hs, shares_cons,
    tile_cons (evenSize_first_ne_zero hpos hbatch)]

lemma training_of_drawn {m : SortedMap BatchId NodeIdentity} (hd : Drawn P c tasks wn percent total batch)
    (hm : trainingAssignments P c = .ok m) :
    ∃ sel, CommitteeSelection.new P tasks wn percent total c.currentRound.randomSeed = .ok sel
      ∧ (c.assignDataForState P sel : Exec CoordinatorError Panic (SortedMap BatchId NodeIdentity)) = .ok m := by
  unfold trainingAssignments at hm
  rw [hd.tieBreakerTasks, hd.witnessNodes, hd.verificationPercent, hd.clients, bind_eq_ok] at hm
  exact hm

lemma exists_exchange (c : Coordinator) (hc : c = numberedRound tasks wn percent total batch h) (hk : k < total) :
    ∃ P w ws, (∀ sel i, auditDraw P sel i = 0)
      ∧ (∀ sel : CommitteeSelection, sel.totalNodes = total → sel.tieBreakerNodes + sel.verifierNodes = k →
        served P c sel = w :: ws)
      ∧ ∀ sel : CommitteeSelection, sel.totalNodes = total → k < sel.tieBreakerNodes + sel.verifierNodes →
        ∀ client ∈ served P c sel, client.id ≠ w.id := by
  subst hc
  obtain ⟨x, ws, hkx, hx, hhead⟩ := lastServed_head k total hk
  refine ⟨exchanging k x total, numbered x, ws, auditDraw_exchanging, fun sel ht hs => ?_, fun sel ht hs client hmem => ?_⟩
  · rw [served_exchanging hk hx le_rfl hkx ht hs, hhead]
  · exact not_served_of_exchange hx hk hs ht rfl hmem

lemma dataIndex_fits (hsmall : batch < 2 ^ 16) :
    (numberedRound tasks wn percent total batch h).currentRound.dataIndex + batch < 2 ^ 64 := by
  rw [currentRound_numberedRound]
  show 0 + batch < 2 ^ 64
  omega

lemma audits_disagree (h : total ≤ solanaMaxNumClients) (htb : tb ≤ total) (hw : wn ≤ total) (hv : percent ≤ 100)
    (hsmall : batch < 2 ^ 16) (hne : trainerSeats percent total tb ≠ trainerSeats percent total tasks)
    (htrainers : trainerSeats percent total tb ≠ 0) (hver : verifierSeats percent total tb ≠ 0) (hbatch : batch ≠ 0) :
    ∃ P c audits, Drawn P c tasks wn percent total batch ∧ selectAuditsForCurrentRound P c tb = .ok audits
      ∧ ∃ a ∈ audits, ∀ m, trainingAssignments P c = .ok m → (a.batchId, a.target) ∉ m := by
  have hle : ∀ t, trainerSeats percent total t ≤ total :=
    fun t => Nat.le_trans (Nat.sub_le _ _) (Nat.sub_le _ _)
  have hle1 := hle tb
  have hle2 := hle tasks
  obtain ⟨c, hc⟩ : ∃ c, c = numberedRound tasks wn percent total batch h := ⟨_, rfl⟩
  have hfit : c.currentRound.dataIndex + batch < 2 ^ 64 := hc ▸ dataIndex_fits hsmall
  -- the draw with more trainer seats serves `w` first, whom the other one does not serve
  obtain ⟨P, w, ws, hzero, hfirst, hother⟩ := exists_exchange
    (k := total - max (trainerSeats percent total tb) (trainerSeats percent total tasks)) c hc (by omega)
  have hd : Drawn P c tasks wn percent total batch := hc ▸ drawn_numberedRound P
  obtain ⟨sel, hnew⟩ : ∃ sel, CommitteeSelection.new P tb wn percent total c.currentRound.randomSeed = .ok sel :=
    ⟨_, new_of _ (lt_of_le_of_lt h (by decide)) htb hw hv⟩
  obtain ⟨ht, _, hseats, _, hnum⟩ := seats_of_new hnew
  -- the audited entry is the first one
  obtain ⟨w1, ws1, hserved⟩ : ∃ w1 ws1, served P c sel = w1 :: ws1 := by
    apply exists_cons_of_length_pos
    rw [length_served (ht.trans hd.clients.symm) hnum]
    omega
  obtain ⟨audits, hok, a, ha, he⟩ := firstAudit hd (hzero sel) hnew hver
    (assignDataForState_head hd ht hnum (by omega) hbatch hfit hserved)
  refine ⟨P, c, audits, hd, hok, a, ha, fun m hm hmem => ?_⟩
  obtain ⟨sel', hnew', hm⟩ := training_of_drawn hd hm
  obtain ⟨ht', _, hseats', _, hnum'⟩ := seats_of_new hnew'
  have htc := ht'.trans hd.clients.symm
  rw [he] at hmem
  rcases Nat.lt_or_gt_of_ne hne with hlt | hlt
  · -- in training the first entry is that of `w`
    have hw1 : w1.id ≠ w.id := hother sel ht (by omega) w1 (by rw [hserved]; exact mem_cons_self)
    cases hm.symm.trans (assignDataForState_head hd ht' hnum' (by omega) hbatch hfit (hfirst sel' ht' (by omega)))
    rcases mem_cons.mp hmem with e | hmem
    · exact hw1 (congrArg Prod.snd e)
    · have hlater := (tile_tiles _ _).bounds _ (mem_map_of_mem hmem)
      have hpos := evenSize_first_ne_zero (n := trainerSeats percent total tasks) (by omega) hbatch
      have hstart : c.currentRound.dataIndex + evenSize batch (trainerSeats percent total tasks) 0
          ≤ c.currentRound.dataIndex := hlater.1
      omega
  · -- `w` does not train
    cases (hfirst sel ht (by omega)).symm.trans hserved
    rcases Nat.eq_zero_or_pos (trainerSeats percent total tasks) with h0 | hpos
    · cases hm.symm.trans (assignDataForState_eq_nil htc (h0 ▸ hnum'))
      cases hmem
    · cases hm.symm.trans (assignDataForState_eq htc hnum' hpos hd.batchSize hfit)
      obtain ⟨client, hmem, hid⟩ := owner_served hmem
      exact hother sel' ht' (by omega) client hmem hid

end Disagreement

section Audits
variable {tb tasks wn percent total batch : Nat}

/-- Where the audits of a round can be drawn, they are entries of the training assignment whatever the hash, the seed and
the clients are, if and only if both numbers of tie-breakers leave as many trainer seats, or there is no trainer, no
verifier or no data. -/
theorem audits_agree_iff (h : total ≤ solanaMaxNumClients) (htb : tb ≤ total) (hw : wn ≤ total) (hv : percent ≤ 100)
    (hsmall : batch < 2 ^ 16) :
    (∀ P c audits, Drawn P c tasks wn percent total batch → selectAuditsForCurrentRound P c tb = .ok audits →
      ∀ a ∈ audits, ∃ m, trainingAssignments P c = .ok m ∧ (a.batchId, a.target) ∈ m)
    ↔ trainerSeats percent total tb = trainerSeats percent total tasks
      ∨ trainerSeats percent total tb = 0 ∨ verifierSeats percent total tb = 0 ∨ batch = 0 := by
  constructor
  · intro hagree
    by_contra hcond
    simp only [not_or] at hcond
    obtain ⟨hne, htrainers, hver, hbatch⟩ := hcond
    obtain ⟨P, c, audits, hd, hok, a, ha, hnot⟩ :=
      audits_disagree h htb hw hv hsmall hne htrainers hver hbatch
    obtain ⟨m, hm, hmem⟩ := hagree P c audits hd hok a ha
    exact hnot m hm hmem
  · intro hseats P c audits hd hok a ha
    exact audits_agree hd hseats hok ha

/-- The audited batch is one that the target trains in the round. -/
theorem audits_agree_iff_threeClients : ∃ audits, selectAuditsForCurrentRound .zero (threeClients 100) 0 = .ok audits
    ∧ audits.length = 1
    ∧ ∀ a ∈ audits, ∃ m, trainingAssignments .zero (threeClients 100) = .ok m ∧ (a.batchId, a.target) ∈ m := by
  have hd : Drawn .zero (threeClients 100) 0 0 50 3 16 :=
    ⟨.inl (by decide +kernel), by decide +kernel, by decide +kernel, by decide +kernel, by decide +kernel,
      by decide +kernel, by decide +kernel, by decide +kernel⟩
  have haudits : selectAuditsForCurrentRound .zero (threeClients 100) 0
      = .ok [⟨⟨1, 0⟩, 0, ⟨3, 0⟩, ⟨100, 107, by decide⟩⟩] := by rfl
  have hiff := @audits_agree_iff 0 0 0 50 3 16 (by decide) (by decide) (by decide) (by decide) (by decide)
  exact ⟨_, haudits, rfl, hiff.mpr (.inl rfl) _ _ _ hd haudits⟩

/-- With one tie-breaker the verifier among three clients replays the whole batch of the round, which was cut in two
for the training. -/
theorem audits_astray : (∃ tr, (machine .zero).Run tr (threeClients 100))
    ∧ (threeClients 100).runState = .roundTrain
    ∧ ∃ audits m, selectAuditsForCurrentRound .zero (threeClients 100) 1 = .ok audits
      ∧ trainingAssignments .zero (threeClients 100) = .ok m
      ∧ ∃ a ∈ audits, (a.batchId, a.target) ∉ m := by
  have haudits : selectAuditsForCurrentRound .zero (threeClients 100) 1
      = .ok [⟨⟨2, 0⟩, 1, ⟨3, 0⟩, ⟨100, 115, by decide⟩⟩] := by rfl
  have htraining : trainingAssignments .zero (threeClients 100)
      = .ok [(⟨100, 107, by decide⟩, ⟨3, 0⟩), (⟨108, 115, by decide⟩, ⟨2, 0⟩)] := by rfl
  exact ⟨run_threeClients 100, by decide +kernel, _, _, haudits, htraining, _, mem_cons_self, by simp⟩

end Audits
end Leviathan.Coordinator
