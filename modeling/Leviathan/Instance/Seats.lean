import Leviathan.Coordinator.Polling
import Leviathan.Coordinator.Witnesses
import Leviathan.Instance.Progress
import Mathlib.Algebra.Order.Field.Rat

/-!
# The seats of a run

A round of an account is drawn without tie-breakers and over at least `min_clients` clients (`Seated`), with which
`check_error` compares the number of witnesses. So the draw of every round succeeds and leaves somebody to train, but
for the share of the verifiers, which `check_error` does not look at. There is data for them, since the ramp between two
batch sizes does not go below one.
-/

namespace Leviathan
open Exec

/-- `f64` rounds to a nearest number: it keeps the order, and whole numbers up to `2 ^ 53` as they are. -/
structure Platform.Rounds (P : Platform) : Prop where
  mono : Monotone P.f64
  exact : ∀ n : Nat, n ≤ 2 ^ 53 → P.f64 n = n

namespace CoordinatorConfig
variable {P : Platform} {c : CoordinatorConfig}

/-- A number from one on is rounded to one from one on. -/
lemma roundU16_pos {x : Rat} (h : 1 ≤ x) : 0 < roundU16 x := by
  have hfloor : 1 ≤ (x + 1 / 2).floor := Rat.le_floor_iff.mpr (h.trans (le_add_of_nonneg_right (div_nonneg zero_le_one zero_le_two)))
  unfold roundU16
  omega

/-- A checked configuration has a batch of some size at every time. -/
lemma getBatchSize_pos (hP : P.Rounds) (h : c.check = true) (tokens : Nat) : 0 < c.getBatchSize P tokens := by
  obtain ⟨hstart, hend, hle⟩ := (checked_of_check h).batchSize
  have hzero : ∀ x, 0 ≤ x → 0 ≤ P.f64 x := by
    intro x hx
    have hx := hP.mono hx
    rwa [← Nat.cast_zero, hP.exact 0 (Nat.zero_le _)] at hx
  have hone : ∀ x, 1 ≤ x → 1 ≤ P.f64 x := by
    intro x hx
    have hx := hP.mono hx
    rwa [← Nat.cast_one, hP.exact 1 (by decide)] at hx
  unfold getBatchSize
  split
  · exact Nat.pos_of_ne_zero hend
  · refine roundU16_pos (hone _ (le_add_of_le_of_nonneg (hone _ (Nat.one_le_cast.mpr (Nat.pos_of_ne_zero hstart))) (hzero _ (mul_nonneg ?_ ?_))))
    · exact hzero _ (sub_nonneg.mpr (hP.mono (Nat.cast_le.mpr hle)))
    · exact hzero _ (div_nonneg (hzero _ (Nat.cast_nonneg _)) (hzero _ (Nat.cast_nonneg _)))

end CoordinatorConfig

namespace Coordinator
variable {P : Platform} {c c' : Coordinator} {pending : Option (List NodeIdentity)} {now seed : Nat}
  {r : TickResult} {op : Operation}

/-- The round in progress was drawn over enough clients, and without tie-breakers. -/
def Seated (c : Coordinator) : Prop :=
  c.runState = .roundTrain ∨ c.runState = .roundWitness →
    c.currentRound.tieBreakerTasks = 0 ∧ c.config.minClients ≤ c.currentRound.clientsLen

lemma Seated.of_not_training (ht : c.runState ≠ .roundTrain) (hw : c.runState ≠ .roundWitness) : Seated c := by
  intro hs
  exact (hs.elim ht hw).elim

lemma Seated.between (c c' : Coordinator) (now : Nat) : Seated (c'.entered now c.betweenEpochs) := by
  obtain hb | hb := betweenEpochs_cases c
  · exact .of_not_training (by simp [entered, hb]) (by simp [entered, hb])
  · exact .of_not_training (by simp [entered, hb]) (by simp [entered, hb])

lemma RoundStarted.seated (h : c.RoundStarted P now seed c') (hmin : c.config.minClients ≤ c.epochState.clients.len) :
    Seated c' := by
  intro _
  rw [h.frame.2.1, h.currentRound.1]
  exact ⟨h.tieBreakerTasks, hmin⟩

lemma Seated.tick (h : Seated c) (st : c.TickStep P pending now seed c' r) : Seated c' := by
  cases st with
  | idle => exact h
  | beginEpoch _ _ _ _ hb =>
    rw [hb.eq]
    exact .of_not_training (by simp) (by simp)
  | warm hs => exact .of_not_training (by simp [setEpochState, hs]) (by simp [setEpochState, hs])
  | warmAbort | trainAbort | endEpoch => exact .between _ _ _
  | train _ _ hr hmin => exact hr.seated hmin
  | witness hs => exact fun _ => h (.inl hs)
  | coolEmpty | cool => exact .of_not_training (by simp [cooled, entered]) (by simp [cooled, entered])
  | nextRound _ _ _ _ _ hgo hr => exact hr.seated (cannotContinue_false hgo).1
  | endEpochPaused => exact .of_not_training (by simp [entered]) (by simp [entered])

/-- A call keeps the round in progress drawn over enough clients. -/
lemma Seated.call (h : Seated c) (hwarm : c.runState = .warmup → c.config.minClients ≤ c.epochState.clients.len)
    (st : CallStep P c op c') : Seated c' := by
  cases st with
  | report hc =>
    intro hs
    rw [hc.round, hc.config]
    exact h (hc.runState ▸ hs)
  | start hs hc hr => exact hr.seated (by rw [hc.config, hc.len]; exact hwarm hs)
  | @witnessed _ _ _ c1 hs hc =>
    intro _
    show c1.currentRound.tieBreakerTasks = 0 ∧ c1.config.minClients ≤ c1.currentRound.clientsLen
    rw [hc.round, hc.config]
    exact h (.inl hs)
  | pauseNow => exact .of_not_training (by simp [entered]) (by simp [entered])
  | resume => exact .between _ _ _
  | update hh =>
    have hne : ∀ st, c.runState = st → st ≠ .roundTrain ∧ st ≠ .roundWitness := by
      rintro st rfl
      constructor <;> intro hs <;> simp [halted, hs] at hh
    exact .of_not_training (hne _ rfl).1 (hne _ rfl).2

section Trainable
open CommitteeSelection
variable {sel : CommitteeSelection} {from_ : NodeIdentity} {w : Witness}

/-- A round can be trained: the draw succeeds and has a seat for a trainer, no report is refused for want of a draw, there
is data for somebody, and the batches are listed without a division by zero. -/
def Trainable (P : Platform) (c : Coordinator) : Prop :=
  ∃ sel n, fromCoordinator P c 0 = .ok sel ∧ (sel.getNumTrainerNodes : Exec CoordinatorError Panic Nat) = .ok n ∧ 0 < n
    ∧ (∀ from_ w now, c.witness P from_ w now ≠ Exec.fail .invalidCommitteeSelection)
    ∧ (∃ m : SortedMap BatchId NodeIdentity,
      (c.assignDataForState P sel : Exec CoordinatorError Panic (SortedMap BatchId NodeIdentity)) = .ok m ∧ m ≠ [])
    ∧ (c.getBatchIdsForRound P c.currentRound n : Exec CoordinatorError Panic (List BatchId))
      ≠ .error (.panic .divisionByZero)

/-- The senders of stored reports are looked up without an error. -/
lemma hasWitnessed_failsWith {good : CoordinatorError → Prop} (clients : List Client) (ws : List Witness) :
    FailsWith good (hasWitnessed clients from_ ws) := by
  induction ws with
  | nil => exact .ok _
  | cons w ws ih =>
    unfold hasWitnessed
    split
    · exact .abort _
    · split
      · exact .ok _
      · exact ih

/-- With a draw no report is refused for want of one. -/
lemma witness_failsWith_of_draw (h : fromCoordinator P c 0 = .ok sel) :
    FailsWith (fun e => e ≠ .invalidCommitteeSelection) (c.witness P from_ w now) := by
  refine .bind (.require _ (by rintro ⟨⟩)) fun _ => .bind (.require _ (by rintro ⟨⟩)) fun _ => ?_
  rw [h, ok_bind]
  refine .bind (verifyWitnessForClient_failsWith _ _ _ _) fun _ => .bind (.require _ (by rintro ⟨⟩)) fun _ => .bind ?_ fun _ => ?_
  · refine .bind (hasWitnessed_failsWith _ _) fun _ => .bind (.require _ (by rintro ⟨⟩)) fun _ => ?_
    exact .bind (.okOr _ (by rintro ⟨⟩)) fun _ => .ok _
  · split
    · exact .bind (.ensure _ _) fun _ => .ok _
    · exact .ok _

/-- With a checked configuration a round that was drawn without tie-breakers over enough clients can be trained if and only
if the verifiers do not take all seats and the data is in range. -/
lemma trainable_iff (hP : P.Rounds) (hc : c.config.check = true) (htb : c.currentRound.tieBreakerTasks = 0)
    (hmin : c.config.minClients ≤ c.currentRound.clientsLen) (hlen : c.epochState.clients.len = c.currentRound.clientsLen)
    (hd : c.currentRound.dataIndex < 2 ^ 64) :
    Trainable P c ↔ c.config.verificationPercent < 100 ∧ c.InRange P := by
  obtain ⟨_, _, hpos, hclients, hwitness, _⟩ := CoordinatorConfig.checked_of_check hc
  have hfew : c.currentRound.clientsLen ≤ 2 ^ 8 := hlen ▸ c.epochState.clients.bound
  have hdraw : fromCoordinator P c 0 = CommitteeSelection.new P 0 c.config.witnessNodes c.config.verificationPercent
      c.currentRound.clientsLen c.currentRound.randomSeed := by
    rw [← htb]
    rfl
  have htrainers : (∃ s n, fromCoordinator P c 0 = .ok s
        ∧ (s.getNumTrainerNodes : Exec CoordinatorError Panic Nat) = .ok n ∧ 0 < n)
      ↔ c.config.verificationPercent < 100 := by
    rw [hdraw]
    exact trainers_iff _ (hfew.trans_lt (by decide)) (by omega) (by omega)
  rw [← htrainers]
  constructor
  · rintro ⟨sel, n, hsel, hn, hn0, _, ⟨m, hm, _⟩, _⟩
    have ht := ((fromCoordinator_numbers hsel).1).trans hlen.symm
    refine ⟨⟨sel, n, hsel, hn, hn0⟩, (assignDataForState_safe_iff (ε := CoordinatorError) hd ?_ ht.ge).mp ?_ ?_⟩
    · rw [ht, hlen]
      exact hfew.trans (by decide)
    · intro p hp
      cases hm.symm.trans hp
    · exact List.ne_nil_of_length_pos ((length_trainers ht hn).symm ▸ hn0)
  · rintro ⟨⟨sel, n, hsel, hn, hn0⟩, hmul, hfit⟩
    have ht := ((fromCoordinator_numbers hsel).1).trans hlen.symm
    obtain ⟨batch, hbatch, hsize, hfit⟩ : ∃ batch, (c.getTargetGlobalBatchSize P (some c.currentRound)
        : Exec CoordinatorError Panic Nat) = .ok batch ∧ 0 < batch ∧ c.currentRound.dataIndex + batch < 2 ^ 64 :=
      ⟨_, bind_eq_ok.mpr ⟨_, mulU_eq_ok.mpr ⟨hmul, rfl⟩, rfl⟩, CoordinatorConfig.getBatchSize_pos hP hc _, hfit⟩
    refine ⟨sel, n, hsel, hn, hn0, fun _ _ _ he => witness_failsWith_of_draw hsel _ he rfl,
      ⟨_, assignDataForState_eq ht hn hn0 hbatch hfit, fun hnil => ?_⟩, ?_⟩
    · have htiles : Tiles c.currentRound.dataIndex (c.currentRound.dataIndex + batch) (List.map Prod.fst
          (tile c.currentRound.dataIndex (shares batch n 0 (served P c sel)))) := tiles_served _ ht hn hn0
      rw [hnil] at htiles
      obtain ⟨_, hi, _⟩ := htiles.mem_iff.mpr ⟨le_rfl, Nat.lt_add_of_pos_right hsize⟩
      exact List.not_mem_nil hi
    · rw [getBatchIdsForRound_eq hn0 hbatch hfit]
      rintro ⟨⟩

end Trainable
end Coordinator

namespace InstanceState
open Coordinator CommitteeSelection
variable {P : Platform} {s s' : InstanceState} {fx : List InstanceEffect} {tr : Record}

lemma InstanceStep.seated (hs : Sound s) (h : Seated s.coordinator) (st : InstanceStep P s fx s') :
    Seated s'.coordinator := by
  obtain ⟨_, _, _, _, ht⟩ | ⟨_, hc⟩ | ⟨_, _, hc⟩ := st.course
  · exact h.tick ht
  · exact h.call hs.warm hc
  · rw [hc]
    exact .between _ _ _

lemma seated_of_run (r : (machine P).Run tr s) : Sound s ∧ Seated s.coordinator := by
  refine run_history (Q := fun _ s => Seated s.coordinator) r ?_ ?_
  · intro v
    exact .of_not_training (by simp [created]) (by simp [created])
  · intro _ s _ s' hsound h st
    exact st.seated hsound h

/-- Every round of a run can be trained if and only if the verifiers do not take all seats and the data of the round is in
range. -/
theorem trainable_iff_verificationPercent (hP : P.Rounds) (r : (machine P).Run tr s)
    (hs : s.coordinator.runState = .roundTrain ∨ s.coordinator.runState = .roundWitness)
    (hd : s.coordinator.currentRound.dataIndex < 2 ^ 64) :
    Trainable P s.coordinator ↔ s.coordinator.config.verificationPercent < 100 ∧ s.coordinator.InRange P := by
  obtain ⟨hsound, hseated⟩ := seated_of_run r
  obtain ⟨htb, hmin⟩ := hseated hs
  obtain ⟨_, hroster, _⟩ := hsound.roster
  have hcheck : s.coordinator.config.check = true := by
    apply hsound.config
    obtain hs | hs := hs <;> simp [hs]
  exact trainable_iff hP hcheck htb hmin (hroster.clientsLen hs) hd

/-- A configuration of small runs with a share of verifiers. -/
def verifying (percent : Nat) : CoordinatorConfig := { CoordinatorConfig.small with verificationPercent := percent }

/-- A run of two clients into its first round. -/
def verifiedRun (percent : Nat) : Record × InstanceState := runOf
  [(⟨0, 0⟩, .update none (some (verifying percent)) (some .small) none), (⟨0, 0⟩, .setPaused false),
    (⟨5, 1⟩, .joinRun 1 ⟨1, 0⟩), (⟨5, 1⟩, .joinRun 2 ⟨2, 0⟩), (⟨15, 1⟩, .tick)]

/-- With half of the clients as verifiers there is somebody to train. -/
theorem trainable_half : (verifiedRun 50).2.coordinator.runState = .roundTrain
    ∧ Trainable .zero (verifiedRun 50).2.coordinator := by
  have hs : (verifiedRun 50).2.coordinator.runState = .roundTrain := by decide +kernel
  have hP : Platform.zero.Rounds := ⟨monotone_id, fun _ _ => rfl⟩
  exact ⟨hs, (trainable_iff_verificationPercent hP (runOf_run _) (.inl hs) (by decide +kernel)).mpr
    (by decide +kernel)⟩

/-- With a hundred percent of verifiers a round has no trainer and its batches cannot be listed; with more it cannot
even be drawn. Both configurations pass the sanity check. -/
theorem trainer_seats_missing :
    ((verifying 100).check = true ∧ (machine .zero).Run (verifiedRun 100).1 (verifiedRun 100).2
      ∧ (verifiedRun 100).2.coordinator.config = verifying 100
      ∧ (verifiedRun 100).2.coordinator.runState = .roundTrain
      ∧ ∃ sel, fromCoordinator .zero (verifiedRun 100).2.coordinator 0 = .ok sel
        ∧ (sel.getNumTrainerNodes : Exec CoordinatorError Panic Nat) = .ok 0
        ∧ ((verifiedRun 100).2.coordinator.getBatchIdsForRound .zero (verifiedRun 100).2.coordinator.currentRound 0
          : Exec CoordinatorError Panic (List BatchId)) = .error (.panic .divisionByZero))
    ∧ (verifying 101).check = true ∧ (machine .zero).Run (verifiedRun 101).1 (verifiedRun 101).2
      ∧ (verifiedRun 101).2.coordinator.config = verifying 101
      ∧ (verifiedRun 101).2.coordinator.runState = .roundTrain
      ∧ fromCoordinator .zero (verifiedRun 101).2.coordinator 0 = .error (.error .invalidCommitteeSelection) := by
  refine ⟨⟨by decide, runOf_run _, by decide +kernel, by decide +kernel, ⟨0, 2, 2, 0, 0⟩, ?_, by rfl, ?_⟩, by decide,
    runOf_run _, by decide +kernel, by decide +kernel, ?_⟩
  · decide +kernel
  · decide +kernel
  · decide +kernel

end InstanceState
end Leviathan
