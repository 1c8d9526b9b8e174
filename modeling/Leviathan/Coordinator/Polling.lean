import Leviathan.Coordinator.AuditSeats
import Leviathan.Coordinator.History

/-!
# Asking for audits

The verifier daemon asks for the audits of the current round whatever the coordinator is doing (in Rust `audit_pass`).
The draw is over the clients that the round counts, and the loops go over the clients that are present. In every run
there are no more present clients than counted ones, or the round counts nobody (`counted_of_run`): from the beginning
of an epoch to its first round the current round is an empty slot. A draw over nobody that asks for nobody is not
refused, and then the first client has no place in the shuffle.
-/

namespace Leviathan.Coordinator
open Exec List
open CommitteeSelection
variable {ε : Type} {P : Platform} {c c' : Coordinator} {sel : CommitteeSelection}

/-- The round counts nobody, or everyone who is present. -/
def Counted (c : Coordinator) : Prop :=
  c.currentRound.clientsLen = 0 ∨ c.epochState.clients.len ≤ c.currentRound.clientsLen

section Counted

lemma Counted.stays (h : Counted c) (hk : Stays c c') : Counted c' := by
  have hlen : c'.epochState.clients.len ≤ c.epochState.clients.len := by
    simpa [roster, FixedVec.len] using hk.roster.length_le
  unfold Counted
  rw [hk.clientsLen]
  exact h.imp id hlen.trans

lemma Counted.roundStarted {now seed : Nat} (hr : c.RoundStarted P now seed c') : Counted c' := by
  right
  rw [hr.frame.1, hr.currentRound.1]

lemma Counted.congr (h : Counted c) (he : c'.epochState = c.epochState) : Counted c' := by
  have hround := (rounds_congr c c' (by rw [he]) (by rw [he])).1
  unfold Counted
  rw [hround, he]
  exact h

/-- Nobody is added to a round that has counted its clients. -/
lemma Counted.step (h : Counted c) (co : Course P c c') : Counted c' := by
  cases co with
  | begins _ _ _ hz => exact .inl (by rw [hz]; rfl)
  | stays _ hk => exact h.stays hk
  | updates _ _ he => exact h.congr he
  | aborts _ _ hr he => exact (Counted.roundStarted hr).congr he
  | first _ _ hr | next _ _ _ _ _ hr => exact .roundStarted hr

lemma counted_of_run {tr : Record} (r : (machine P).Run tr c) : Counted c := by
  refine history_of_steps (I := fun _ c => Counted c) ?_ (fun _ _ _ _ _ h st => h.step st.course) r
  rintro c ⟨hc, _⟩
  right
  rw [FixedVec.len, hc]
  exact Nat.zero_le _

end Counted

/-- The fields of a round are in the range of their types (`u16` and `u64`). -/
structure Typed (round : Round) : Prop where
  clientsLen : round.clientsLen < 2 ^ 16
  dataIndex : round.dataIndex < 2 ^ 64

/-- The round counts nobody although there are clients, and nobody is asked for. -/
def Uncounted (c : Coordinator) (tieBreakerNodes : Nat) : Prop :=
  c.currentRound.clientsLen = 0 ∧ c.epochState.clients.len ≠ 0 ∧ tieBreakerNodes = 0 ∧ c.config.witnessNodes = 0
    ∧ c.config.verificationPercent ≤ 100

/-- There is a draw, and a present client is on a trainer seat of it. -/
def HasTrainer (P : Platform) (c : Coordinator) (tieBreakerNodes : Nat) : Prop :=
  ∃ sel, fromCoordinatorWithTieBreakers P c 0 tieBreakerNodes = .ok sel ∧ trainers P sel 0 c.epochState.clients.toList ≠ []

section Safety

lemma assignFrom_safe_iff {nodes : List Client} {start batch : Nat} (hs : start < 2 ^ 64) (hpos : 0 < nodes.length) :
    (∀ p, (assignFrom (batch / nodes.length) (batch % nodes.length) 0 start [] nodes
      : Exec ε Panic (SortedMap BatchId NodeIdentity)) ≠ .error (.panic p)) ↔ start + batch < 2 ^ 64 := by
  have hsum : ((shares batch nodes.length 0 nodes).map Prod.fst).sum = batch := by
    rw [map_fst_shares, ← range_eq_range', sum_evenSize hpos]
  constructor
  · intro hsafe
    by_contra hge
    exact hsafe _ (assignFrom_overflow hs (by rw [hsum]; exact not_lt.mp hge))
  · intro hfit p hp
    rw [assignFrom_eq (by simp) (by rw [hsum]; exact hfit)] at hp
    cases hp

lemma assignDataForState_safe_iff (hd : c.currentRound.dataIndex < 2 ^ 64) (ht : sel.totalNodes ≤ 2 ^ 63)
    (hi : c.epochState.clients.len ≤ sel.totalNodes) :
    (∀ p, (c.assignDataForState P sel : Exec ε Panic (SortedMap BatchId NodeIdentity)) ≠ .error (.panic p))
      ↔ (trainers P sel 0 c.epochState.clients.toList ≠ [] → InRange P c) := by
  unfold assignDataForState
  rw [trainerNodesFrom_eq ht (by rw [Nat.zero_add]; exact hi), ok_bind]
  by_cases htr : trainers P sel 0 c.epochState.clients.toList = []
  · rw [if_pos htr]
    refine ⟨fun _ hn => absurd htr hn, fun _ p hp => ?_⟩
    cases hp
  · have hpos : 0 < (served P c sel).length := by
      rw [served, (deterministicShuffle_perm _ _).length_eq]
      exact length_pos_iff.mpr htr
    rw [if_neg htr, imp_iff_right htr]
    unfold getTargetGlobalBatchSize totalTokensProcessed InRange
    by_cases hmul : c.currentRound.dataIndex * c.getSequenceLength < 2 ^ 64
    · have htokens : (mulU 64 c.currentRound.dataIndex c.getSequenceLength : Exec ε Panic Nat) = .ok _ :=
        mulU_eq_ok.mpr ⟨hmul, rfl⟩
      rw [and_iff_right hmul, ← assignFrom_safe_iff (ε := ε) hd hpos]
      simp only [Option.map_some, Option.getD_some, htokens, ok_bind]
      exact Iff.rfl
    · have htokens : (mulU 64 c.currentRound.dataIndex c.getSequenceLength : Exec ε Panic Nat)
          = .error (.panic .overflow) := mulU_overflow (not_lt.mp hmul)
      refine ⟨fun hsafe => absurd ?_ (hsafe .overflow), fun hn => absurd hn.1 hmul⟩
      simp only [Option.map_some, Option.getD_some, htokens, error_bind]

lemma getCommittee_zero {i : Nat} (ht : sel.totalNodes = 0) :
    (sel.getCommittee P i : Exec ε Panic CommitteeProof) = .error (.panic .shuffleIndex) := by
  unfold getCommittee CommitteeSelection.computeShuffledIndex Leviathan.computeShuffledIndex
  rw [Exec.ensure, if_neg (by omega)]
  rfl

lemma assignDataForState_zero (ht : sel.totalNodes = 0) (hne : c.epochState.clients.len ≠ 0) :
    (c.assignDataForState P sel : Exec ε Panic (SortedMap BatchId NodeIdentity)) = .error (.panic .shuffleIndex) := by
  obtain ⟨client, rest, hclients⟩ : ∃ client rest, c.epochState.clients.toList = client :: rest :=
    exists_cons_of_ne_nil (length_pos_iff.mp (Nat.pos_of_ne_zero hne))
  unfold assignDataForState
  rw [hclients, trainerNodesFrom, getCommittee_zero ht]
  rfl

lemma selectAudits_ok {m : SortedMap BatchId NodeIdentity} (ht : sel.totalNodes ≤ 2 ^ 63)
    (hi : c.epochState.clients.len ≤ sel.totalNodes) :
    ∃ audits, (selectAudits P sel c.epochState.clients.toList m : Exec ε Panic (List AuditAssignment)) = .ok audits := by
  unfold selectAudits
  split
  case isTrue => exact ⟨[], rfl⟩
  case isFalse hne =>
    obtain ⟨audits, hok, _⟩ := selectAuditsFrom_spec (ε := ε) (P := P) hne ht (by rw [Nat.zero_add]; exact hi)
    exact ⟨audits, hok⟩

lemma uncounted_iff {tb : Nat} (h0 : c.currentRound.clientsLen = 0) (hne : c.epochState.clients.len ≠ 0) :
    Uncounted c tb ↔ ∃ sel, fromCoordinatorWithTieBreakers P c 0 tb = .ok sel := by
  show _ ↔ ∃ sel, CommitteeSelection.new P tb c.config.witnessNodes c.config.verificationPercent c.currentRound.clientsLen
    c.currentRound.randomSeed = .ok sel
  rw [h0]
  constructor
  · rintro ⟨_, _, rfl, hw, hv⟩
    exact ⟨_, new_of _ (by decide) le_rfl hw.le hv⟩
  · rintro ⟨sel, hsel⟩
    obtain ⟨htb, hv, _⟩ := new_eq_ok hsel
    exact ⟨h0, hne, Nat.le_zero.mp htb, Nat.le_zero.mp (witnessNodes_le_of_new hsel), hv⟩

/-- In every state of every run: asking for the audits with some number of tie-breakers never aborts if and only if the
round does not count nobody while there are clients and nobody is asked for, and, where there is a trainer, the data is in
range. -/
theorem polling_safe_iff {tr : Record} (r : (machine P).Run tr c) (hty : Typed c.currentRound) (tb : Nat) :
    (∀ p, selectAuditsForCurrentRound P c tb ≠ .error (.panic p))
      ↔ ¬ Uncounted c tb ∧ (HasTrainer P c tb → InRange P c) := by
  have hsafe : Exec.Safe (fun _ => True) (fromCoordinatorWithTieBreakers P c 0 tb) :=
    new_safe (hty.clientsLen.trans (by decide))
  unfold selectAuditsForCurrentRound
  cases hsel : fromCoordinatorWithTieBreakers P c 0 tb with
  | error f =>
    have hnone : ¬ ∃ sel, fromCoordinatorWithTieBreakers P c 0 tb = .ok sel := by
      rintro ⟨sel, hok⟩
      rw [hsel] at hok
      cases hok
    refine ⟨fun _ => ⟨fun hu => hnone ((uncounted_iff hu.1 hu.2.1).mp hu), ?_⟩, fun _ p hp => ?_⟩
    · rintro ⟨sel, hok, _⟩
      exact absurd ⟨sel, hok⟩ hnone
    · cases hp
      exact hsafe p hsel trivial
  | ok sel =>
    have ht : sel.totalNodes = c.currentRound.clientsLen := by
      obtain ⟨_, _, heq⟩ := new_eq_ok hsel
      rw [heq]
    have htrainer : HasTrainer P c tb ↔ trainers P sel 0 c.epochState.clients.toList ≠ [] := by
      refine ⟨?_, fun hne => ⟨sel, hsel, hne⟩⟩
      rintro ⟨sel', hsel', hne⟩
      cases hsel.symm.trans hsel'
      exact hne
    rw [ok_bind, htrainer]
    by_cases hz : c.currentRound.clientsLen = 0 ∧ c.epochState.clients.len ≠ 0
    · -- the first client is not in the draw
      have hu : Uncounted c tb := (uncounted_iff hz.1 hz.2).mpr ⟨sel, hsel⟩
      rw [assignDataForState_zero (ht.trans hz.1) hz.2]
      exact ⟨fun hsafe => absurd rfl (hsafe .shuffleIndex), fun hn => absurd hu hn.1⟩
    · have hle : c.epochState.clients.len ≤ sel.totalNodes := by
        rw [ht]
        obtain h0 | hle := counted_of_run r
        · have hempty : c.epochState.clients.len = 0 := by
            by_contra hne
            exact hz ⟨h0, hne⟩
          omega
        · exact hle
      have h63 : sel.totalNodes ≤ 2 ^ 63 := by
        have hlt := hty.clientsLen
        omega
      have hnot : ¬ Uncounted c tb := fun hu => hz ⟨hu.1, hu.2.1⟩
      rw [and_iff_right hnot, ← assignDataForState_safe_iff (ε := CoordinatorError) hty.dataIndex h63 hle]
      refine forall_congr' fun p => not_congr ?_
      rw [bind_eq_error, or_iff_left]
      rintro ⟨m, _, hp⟩
      obtain ⟨audits, hok⟩ := selectAudits_ok (ε := CoordinatorError) (P := P) h63 hle
      cases hok.symm.trans hp

instance (P : Platform) (c : Coordinator) : Decidable (InRange P c) := inferInstanceAs (Decidable (_ ∧ _))

/-- In the first round of three clients the audits can be polled for. -/
theorem polling_safe_iff_threeClients : (threeClients 100).currentRound.clientsLen = 3
    ∧ ∀ p, selectAuditsForCurrentRound .zero (threeClients 100) 0 ≠ .error (.panic p) := by
  obtain ⟨hlen, hindex, hrange⟩ : (threeClients 100).currentRound.clientsLen = 3
      ∧ (threeClients 100).currentRound.dataIndex < 2 ^ 64 ∧ InRange .zero (threeClients 100) := by
    decide +kernel
  obtain ⟨tr, r⟩ := run_threeClients 100
  refine ⟨hlen, (polling_safe_iff r ⟨by rw [hlen]; decide, hindex⟩ 0).mpr ⟨fun hu => ?_, fun _ => hrange⟩⟩
  rw [Uncounted, hlen] at hu
  cases hu.1

/-- Two clients in warmup. -/
def justBegun : Record × Coordinator := (machine .zero).play [] .small [.tick (some .two) 5 0]

/-- Two clients in warmup: the current round counts nobody, and asking for its audits aborts. -/
theorem polling_aborts : ∃ tr c, (machine .zero).Run tr c ∧ c.runState = .warmup ∧ c.config.check = true ∧ Typed c.currentRound
    ∧ c.epochState.clients.len = 2 ∧ selectAuditsForCurrentRound .zero c 0 = .error (.panic .shuffleIndex) := by
  obtain ⟨hs, hcheck, hlen, hindex, htwo⟩ : justBegun.2.runState = .warmup ∧ justBegun.2.config.check = true
      ∧ justBegun.2.currentRound.clientsLen = 0 ∧ justBegun.2.currentRound.dataIndex = 0
      ∧ justBegun.2.epochState.clients.len = 2 := by
    decide +kernel
  refine ⟨justBegun.1, justBegun.2, run_small _, hs, hcheck, ⟨by rw [hlen]; decide, by rw [hindex]; decide⟩, htwo, ?_⟩
  rfl

end Safety
end Leviathan.Coordinator
