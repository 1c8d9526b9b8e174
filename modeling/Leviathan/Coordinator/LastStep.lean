import Leviathan.Coordinator.Witnesses

/-!
# The last step of an epoch

When the time of an epoch is over, the round that is closed next fixes the last step: two steps ahead (in Rust
`tick_round_witness`). The epoch then ends with that step. The guard around it is to make sure that an epoch has at least four
rounds, but it compares the number of the step, which counts through all epochs.

`completed` counts the rounds of the current epoch that have been closed; `LastStepInv` relates this count, the step and the
last step.
-/

namespace Leviathan.Coordinator
open Exec
variable {P : Platform} {c c' : Coordinator}

/-- The time of the epoch is over (Rust `check_epoch_timeout`). -/
def EpochTimedOut (c : Coordinator) (now : Nat) : Prop :=
  c.epochState.startTimestamp ≠ now ∧ c.epochState.startTimestamp + c.config.epochTime ≤ now

instance (c : Coordinator) (now : Nat) : Decidable (c.EpochTimedOut now) := inferInstanceAs (Decidable (_ ∧ _))

lemma setLastStep_eq {now : Nat} (h : c.setLastStep now = .ok c') :
    c' = c.setEpochState { c.epochState with
      lastStep := if c.EpochTimedOut now ∧ c.epochState.lastStep = 0 ∧ 4 ≤ c.progress.step + 2 then c.progress.step + 2
        else c.epochState.lastStep } := by
  obtain ⟨timeout, ht, h⟩ := bind_eq_ok.mp h
  have hto : timeout = true ↔ c.EpochTimedOut now := by
    unfold checkEpochTimeout at ht
    split at ht
    case isTrue he =>
      cases ht
      exact ⟨fun hn => absurd hn Bool.false_ne_true, fun hn => absurd he hn.1⟩
    case isFalse hne =>
      simp only [bind_eq_ok, addU_eq_ok, Except.ok.injEq] at ht
      obtain ⟨_, ⟨_, rfl⟩, rfl⟩ := ht
      rw [decide_eq_true_iff]
      exact ⟨fun hle => ⟨hne, hle⟩, fun hn => hn.2⟩
  have hset : c.epochState.lastStepSet = false ↔ c.epochState.lastStep = 0 := by
    simp [CoordinatorEpochState.lastStepSet]
  split at h
  case isTrue hif =>
    simp only [Bool.and_eq_true, Bool.not_eq_true', hto, hset] at hif
    simp only [bind_eq_ok, addU_eq_ok, Except.ok.injEq] at h
    obtain ⟨_, ⟨_, rfl⟩, rfl⟩ := h
    by_cases h4 : 4 ≤ c.progress.step + 2
    · rw [if_pos h4, if_pos ⟨hif.1, hif.2, h4⟩]
    · rw [if_neg h4, if_neg fun hn => h4 hn.2.2]
      rfl
  case isFalse hif =>
    simp only [Bool.and_eq_true, Bool.not_eq_true', hto, hset] at hif
    rw [if_neg fun hn => hif ⟨hn.1, hn.2.1⟩]
    exact (Except.ok.inj h).symm

/-- The rounds of the epoch that have been closed. -/
def completed : Record → Nat
  | [] => 0
  | ev :: tr =>
    if ev.before.runState = .waitingForMembers ∧ ev.after.runState = .warmup then 0
    else if ev.before.runState = .roundWitness ∧ ev.after.runState ≠ .roundWitness then completed tr + 1
    else completed tr

/-- A tick closes a round that has witnesses when the time of the epoch is over, and not at the very first step. -/
def Late (c : Coordinator) : Operation → Prop
  | .tick _ now _ => c.currentRound.witnesses.len ≠ 0 ∧ c.EpochTimedOut now ∧ c.progress.step ≠ 0
  | _ => False

instance (c : Coordinator) (op : Operation) : Decidable (c.Late op) := by
  cases op <;> unfold Late <;> infer_instance

/-- The first round of the epoch was closed late. -/
def FirstLate : Record → Prop
  | [] => False
  | ev :: tr =>
    if ev.before.runState = .roundWitness ∧ ev.after.runState ≠ .roundWitness ∧ ev.before.currentRound.height = 0 then
      ev.before.Late ev.input
    else FirstLate tr

instance : DecidablePred FirstLate
  | [] => .isFalse id
  | _ :: tr =>
    have : Decidable (FirstLate tr) := instDecidablePredRecordFirstLate tr
    inferInstanceAs (Decidable (ite _ _ _))

/-- A step in which an epoch with witnesses ends with its last step. -/
def ReachedLastStep (ev : Event Coordinator Operation Unit) : Prop :=
  ev.before.runState = .roundWitness ∧ ev.after.runState = .cooldown ∧ ev.before.currentRound.witnesses.len ≠ 0
    ∧ ev.after.epochState.lastStep ≠ 0 ∧ ev.after.progress.step = ev.after.epochState.lastStep

instance : DecidablePred ReachedLastStep := fun _ => inferInstanceAs (Decidable (_ ∧ _))

/-- How the last step stands to the steps and the rounds of an epoch that has closed some rounds. -/
structure Pipeline (done : Nat) (late : Prop) (c : Coordinator) : Prop where
  completed : done = c.currentRound.height
  first : c.currentRound.height = 0 → c.epochState.lastStep = 0
  whenLate : c.currentRound.height ≠ 0 → late →
    c.epochState.lastStep + c.currentRound.height = c.progress.step + 3 ∧ c.epochState.lastStep ≠ 0
  otherwise : ¬ late → c.epochState.lastStep ≠ 0 → c.progress.step + 4 ≤ c.epochState.lastStep + c.currentRound.height

/-- In warmup nothing has happened yet, and in a round the last step stands as it should. -/
structure LastStepInv (tr : Record) (c : Coordinator) : Prop where
  warmup : c.runState = .warmup → completed tr = 0 ∧ c.epochState.lastStep = 0
  rounds : c.runState = .roundTrain ∨ c.runState = .roundWitness → Pipeline (completed tr) (FirstLate tr) c

section Steps
variable {tr : Record} {op : Operation} {done : Nat} {late : Prop}

lemma Pipeline.congr (h : Pipeline done late c) (hh : c'.currentRound.height = c.currentRound.height)
    (hl : c'.epochState.lastStep = c.epochState.lastStep) (hp : c'.progress = c.progress) : Pipeline done late c' := by
  obtain ⟨h1, h2, h3, h4⟩ := h
  constructor
  all_goals rw [hh]
  · exact h1
  · rwa [hl]
  · rwa [hl, hp]
  · rwa [hl, hp]

lemma Pipeline.first_round (hh : c.currentRound.height = 0) (hl : c.epochState.lastStep = 0) : Pipeline 0 late c :=
  ⟨hh.symm, fun _ => hl, fun hn => absurd hh hn, fun _ hn => absurd hl hn⟩

lemma Pipeline.next {late' timedOut : Prop} [Decidable timedOut] (h : Pipeline done late c)
    (hh : c'.currentRound.height = c.currentRound.height + 1) (hp : c'.progress.step = c.progress.step + 1)
    (hl : c'.epochState.lastStep = if timedOut ∧ c.epochState.lastStep = 0 ∧ 4 ≤ c.progress.step + 3
      then c.progress.step + 3 else c.epochState.lastStep)
    (hlate : late' ↔ if c.currentRound.height = 0 then timedOut ∧ c.progress.step ≠ 0 else late) :
    Pipeline (done + 1) late' c' := by
  have hdone := h.completed
  have hpos : c'.currentRound.height ≠ 0 := by omega
  refine ⟨by omega, fun h0 => absurd h0 hpos, fun _ hl' => ?_, fun hnl hne => ?_⟩
  · -- the first round was closed late: the last step was fixed then
    by_cases h0 : c.currentRound.height = 0
    · rw [hlate, if_pos h0] at hl'
      have hstep := hl'.2
      rw [if_pos ⟨hl'.1, h.first h0, by omega⟩] at hl
      omega
    · rw [hlate, if_neg h0] at hl'
      obtain ⟨heq, hne⟩ := h.whenLate h0 hl'
      rw [if_neg fun hn => hne hn.2.1] at hl
      omega
  · by_cases h0 : c.currentRound.height = 0
    · -- the first round was closed in time, so nothing is fixed yet
      rw [hlate, if_pos h0] at hnl
      rw [if_neg fun hn => hnl ⟨hn.1, by omega⟩, h.first h0] at hl
      exact absurd hl hne
    · rw [hlate, if_neg h0] at hnl
      split at hl
      · omega
      · have hold := h.otherwise hnl (by omega)
        omega

lemma RoundStarted.lastStep {now seed : Nat} (hr : c.RoundStarted P now seed c') :
    c'.epochState.lastStep = c.epochState.lastStep := by
  obtain ⟨_, _, _, _, _, rfl⟩ := hr
  rfl

lemma Compacted.lastStep {height : Nat} {e e' : CoordinatorEpochState} (h : Compacted height e e') :
    e'.lastStep = e.lastStep := by rw [h.eq]

lemma lastStep_of_roundClosed {e : CoordinatorEpochState} {lastStep now : Nat}
    (hc : Compacted c.currentRound.height { c.epochState with firstRound := false } e)
    (h : (c.roundClosed e e.lastStep).setLastStep now = .ok (c.roundClosed e lastStep)) :
    lastStep = if c.EpochTimedOut now ∧ c.epochState.lastStep = 0 ∧ 4 ≤ c.progress.step + 3
      then c.progress.step + 3 else c.epochState.lastStep := by
  have hlast := congrArg (fun d => d.epochState.lastStep) (setLastStep_eq h)
  have hto : (c.roundClosed e e.lastStep).EpochTimedOut now = c.EpochTimedOut now := by
    show (e.startTimestamp ≠ now ∧ e.startTimestamp + c.config.epochTime ≤ now) = _
    rw [hc.startTimestamp]
    rfl
  have hold : e.lastStep = c.epochState.lastStep := (Compacted.lastStep hc :)
  simp only [hto] at hlast
  rw [← hold]
  exact hlast

lemma completed_begin (h : c.runState = .waitingForMembers) (h' : c'.runState = .warmup) :
    completed (⟨c, op, (), c'⟩ :: tr) = 0 := if_pos ⟨h, h'⟩

lemma completed_close (h : c.runState = .roundWitness) (h' : c'.runState ≠ .roundWitness) :
    completed (⟨c, op, (), c'⟩ :: tr) = completed tr + 1 := by
  rw [completed, if_neg (by simp [h]), if_pos ⟨h, h'⟩]

lemma firstLate_close (h : c.runState = .roundWitness) (h' : c'.runState ≠ .roundWitness) :
    FirstLate (⟨c, op, (), c'⟩ :: tr) = if c.currentRound.height = 0 then c.Late op else FirstLate tr := by
  rw [FirstLate]
  by_cases h0 : c.currentRound.height = 0
  · rw [if_pos ⟨h, h', h0⟩, if_pos h0]
  · rw [if_neg fun hn => h0 hn.2.2, if_neg h0]

lemma completed_same (op : Operation) (tr : Record) (h : c'.runState = .warmup → c.runState ≠ .waitingForMembers)
    (h' : c.runState = .roundWitness → c'.runState = .roundWitness) :
    completed (⟨c, op, (), c'⟩ :: tr) = completed tr ∧ FirstLate (⟨c, op, (), c'⟩ :: tr) = FirstLate tr := by
  rw [completed, FirstLate, if_neg fun hn => h hn.2 hn.1, if_neg fun hn => hn.2 (h' hn.1),
    if_neg fun hn => hn.2.1 (h' hn.1)]
  exact ⟨rfl, rfl⟩

/-- Every step keeps the last step where the closed rounds have put it. -/
lemma LastStepInv.step (h : LastStepInv tr c) (hw : c.runState = .warmup → c.epochState.firstRound = true)
    (st : RoundStep P c op c') : LastStepInv (⟨c, op, (), c'⟩ :: tr) c' := by
  -- steps that stay where they are, steps that leave, and the first round
  have hkeep : (c'.runState = .warmup → c.runState = .warmup) →
      (c.runState = .roundWitness → c'.runState = .roundWitness) →
      (c'.runState = .roundTrain ∨ c'.runState = .roundWitness → c.runState = .roundTrain ∨ c.runState = .roundWitness) →
      c'.currentRound.height = c.currentRound.height → c'.epochState.lastStep = c.epochState.lastStep →
      c'.progress = c.progress → LastStepInv (⟨c, op, (), c'⟩ :: tr) c' := by
    intro hwarm hclose hrounds hh hl hp
    obtain ⟨hdone, hlate⟩ := completed_same op tr (fun hs => by rw [hwarm hs]; rintro ⟨⟩) hclose
    refine ⟨fun hs => ?_, fun hs => ?_⟩
    · rw [hdone, hl]
      exact h.warmup (hwarm hs)
    · rw [hdone, hlate]
      exact (h.rounds (hrounds hs)).congr hh hl hp
  have hout : c'.runState ≠ .warmup → c'.runState ≠ .roundTrain → c'.runState ≠ .roundWitness →
      LastStepInv (⟨c, op, (), c'⟩ :: tr) c' :=
    fun h1 h2 h3 => ⟨fun hn => absurd hn h1, fun hn => (hn.elim h2 h3).elim⟩
  have hfirst : c.runState = .warmup → c'.runState = .roundTrain → c'.currentRound.height = 0 →
      c'.epochState.lastStep = c.epochState.lastStep → LastStepInv (⟨c, op, (), c'⟩ :: tr) c' := by
    intro hs hs' hh hl
    obtain ⟨hzero, hlast⟩ := h.warmup hs
    have hdone : completed (⟨c, op, (), c'⟩ :: tr) = completed tr :=
      (completed_same op tr (by simp [hs]) (by simp [hs])).1
    refine ⟨fun hn => absurd hn (by simp [hs']), fun _ => ?_⟩
    rw [hdone, hzero]
    exact .first_round hh (hl.trans hlast)
  have hbetween := betweenEpochs_ne c
  cases st with
  | quiet _ hq =>
    refine hkeep ?_ ?_ ?_ (by rw [hq.currentRound]) hq.lastStep hq.progress
    all_goals rw [hq.runState]; exact id
  | ignored => exact hkeep id id id rfl rfl rfl
  | ticked ht =>
    cases ht with
    | idle => exact hkeep id id id rfl rfl rfl
    | beginEpoch hs _ _ _ hb =>
      have hrun : c'.runState = .warmup := by rw [hb.eq]
      have hlast : c'.epochState.lastStep = 0 := by
        rw [hb.eq]
        rfl
      exact ⟨fun _ => ⟨completed_begin hs hrun, hlast⟩, fun hn => absurd hn (by simp [hrun])⟩
    | warm hs hc =>
      have hround : (c.setEpochState _).currentRound = c.currentRound := (rounds_congr c _ hc.rounds hc.roundsHead).1
      exact hkeep id id id (by rw [hround]) (Compacted.lastStep hc) rfl
    | warmAbort | trainAbort | endEpoch => exact hout hbetween.1 hbetween.2.1 hbetween.2.2
    | train hs _ hr => exact hfirst hs hr.runState (hr.first (hw hs)) hr.lastStep
    | witness hs => exact hkeep (by rintro ⟨⟩) (fun _ => rfl) (fun _ => .inl hs) rfl rfl rfl
    | coolEmpty | cool | endEpochPaused => exact hout (by rintro ⟨⟩) (by rintro ⟨⟩) (by rintro ⟨⟩)
    | @nextRound e lastStep _ hs _ hc hlen hset _ hr =>
      have hne : c'.runState ≠ .roundWitness := by simp [hr.runState]
      have hcur : (c.roundClosed e lastStep).currentRound = c.currentRound :=
        (rounds_congr c _ hc.rounds hc.roundsHead).1
      refine ⟨fun hn => absurd hn (by simp [hr.runState]), fun _ => ?_⟩
      rw [completed_close hs hne, firstLate_close hs hne]
      refine (h.rounds (.inr hs)).next ?_ ?_ (hr.lastStep.trans (lastStep_of_roundClosed hc hset)) ?_
      · rw [(hr.later hc.firstRound).2, hcur]
      · rw [hr.frame.2.2]
        rfl
      · split
        · exact ⟨fun hn => hn.2, fun hn => ⟨hlen, hn⟩⟩
        · exact Iff.rfl
  | warmed hs _ hst =>
    obtain ⟨_, _, _, rfl⟩ := id hst
    exact hkeep id id id (Stays.witnessStored hst).height rfl rfl
  | warmedUp hs _ hst _ hr =>
    obtain ⟨_, _, _, rfl⟩ := hst
    exact hfirst hs hr.runState (hr.first (hw hs)) hr.lastStep
  | witnessed hs _ _ _ hst =>
    obtain ⟨_, _, _, rfl⟩ := id hst
    clear hout hfirst
    revert hkeep
    split
    · exact fun hkeep => hkeep (by rintro ⟨⟩) (fun _ => rfl) (fun _ => hs.symm) (Stays.witnessStored hst).height rfl rfl
    · exact fun hkeep => hkeep id id id (Stays.witnessStored hst).height rfl rfl
  | paused => exact hout (by rintro ⟨⟩) (by rintro ⟨⟩) (by rintro ⟨⟩)
  | resumed => exact hout hbetween.1 hbetween.2.1 hbetween.2.2
  | updated hh =>
    refine hout ?_ ?_ ?_
    all_goals exact fun hs => absurd hh (by simp [halted, show c.runState = _ from hs])

lemma lastStepInv_of_run (r : (machine P).Run tr c) : LastStepInv tr c := by
  refine history_of_steps (I := LastStepInv) ?_ ?_ r
  · rintro c ⟨_, _, _, hw⟩
    refine ⟨fun hs => ?_, fun hs => ?_⟩
    · exact absurd hw (by simp [halted, hs])
    · exact absurd hw (by obtain hs | hs := hs <;> simp [halted, hs])
  · intro tr c op c' r h st
    exact h.step (RosterInv.of_run r).warmup st

lemma lastStep_of_cooldown (hs : c.runState = .roundWitness) (hs' : c'.runState = .cooldown)
    (hlen : c.currentRound.witnesses.len ≠ 0) (st : RoundStep P c op c') :
    c'.progress.step = c.progress.step + 1
      ∧ (c'.epochState.lastStep = c.progress.step + 3 ∨ c'.epochState.lastStep = c.epochState.lastStep) := by
  cases st with
  | quiet _ hq => exact absurd (hq.runState.symm.trans hs') (by simp [hs])
  | ignored hi => exact absurd hs (by simp [hi])
  | ticked ht =>
    cases ht with
    | idle => exact absurd hs' (by simp [hs])
    | cool _ _ hc _ hset =>
      refine ⟨rfl, ?_⟩
      show (_ = _) ∨ (_ = _)
      have hlast := lastStep_of_roundClosed hc hset
      split at hlast
      · exact .inl hlast
      · exact .inr hlast
    | coolEmpty _ _ _ h0 => exact absurd h0 hlen
    | nextRound _ _ _ _ _ _ hr => exact absurd hs' (by simp [hr.runState])
    | beginEpoch h | warm h | warmAbort h | train h | trainAbort h | witness h | endEpoch h | endEpochPaused h =>
      exact absurd hs (by simp [h])
  | warmed h | warmedUp h | resumed h => exact absurd hs (by simp [h])
  | witnessed _ _ _ _ hst =>
    split at hs'
    · cases hs'
    · exact absurd (hst.runState.symm.trans hs') (by simp [hs])
  | paused => cases hs'
  | updated hh => exact absurd hh (by simp [halted, hs])

/-- In every run, an epoch that ends with its last step has had at least four rounds if and only if its first round was not
closed late. -/
theorem four_rounds_iff {tr1 tr2 : Record} {ev : Event Coordinator Operation Unit}
    (r : (machine P).Run (tr1 ++ ev :: tr2) c) (hev : ReachedLastStep ev) :
    4 ≤ completed (ev :: tr2) ↔ ¬ FirstLate tr2 := by
  obtain ⟨hs, hs', hlen, hne, hreached⟩ := hev
  obtain ⟨r', st⟩ := r.split
  obtain ⟨hstep, hlast⟩ := lastStep_of_cooldown hs hs' hlen (roundStep_of_machine st)
  have hp := (lastStepInv_of_run r').rounds (.inr hs)
  have hdone : completed (ev :: tr2) = completed tr2 + 1 := completed_close hs (by simp [hs'])
  have hfixed : ev.after.epochState.lastStep = ev.before.epochState.lastStep := by
    -- a last step that has just been fixed lies ahead
    obtain hnew | hold := hlast
    · omega
    · exact hold
  have hpos : ev.before.currentRound.height ≠ 0 := by
    intro h0
    exact hne (hfixed.trans (hp.first h0))
  have hheight := hp.completed
  by_cases hl : FirstLate tr2
  · obtain ⟨hthree, _⟩ := hp.whenLate hpos hl
    exact ⟨fun h4 => by omega, fun hn => absurd hl hn⟩
  · have hfour := hp.otherwise hl (by omega)
    exact ⟨fun _ => hl, fun _ => by omega⟩

/-- Two clients of which the first reports on each round. The epoch begins at second five and has a hundred; its rounds are
closed at the given times. -/
def pipelined (closings : List Nat) : Record × Coordinator :=
  (machine .zero).play [] .small (.tick (some .two) 5 0 :: .tick none 15 0 :: closings.flatMap fun now =>
    [.witness ⟨1, 0⟩ (report 0 0) (now - 19), .tick none (now - 10) 0, .tick none now 0])

lemma run_pipelined {closings : List Nat} {ev : Event Coordinator Operation Unit}
    (h : (pipelined closings).1.head? = some ev) :
    (machine .zero).Run (ev :: (pipelined closings).1.tail) (pipelined closings).2 := by
  rw [← List.eq_cons_of_mem_head? h]
  exact run_small _

/-- The time of the epoch is over in its second round, and it has four. -/
theorem four_rounds_iff_secondLate : ∃ ev tr c, (machine .zero).Run (ev :: tr) c ∧ ReachedLastStep ev
    ∧ 4 ≤ completed (ev :: tr) := by
  obtain ⟨⟨ev, hev, hreached⟩, hlate⟩ : (∃ ev ∈ (pipelined [35, 110, 130, 150]).1.head?, ReachedLastStep ev)
      ∧ ¬ FirstLate (pipelined [35, 110, 130, 150]).1.tail := by
    decide +kernel
  have hrun := run_pipelined hev
  exact ⟨ev, _, _, hrun, hreached, (four_rounds_iff (show (machine .zero).Run ([] ++ ev :: _) _ from hrun) hreached).mpr hlate⟩

/-- The time of the epoch is over when its first round is closed, and it ends after its third round. -/
theorem three_rounds : ∃ ev tr c, (machine .zero).Run (ev :: tr) c ∧ ReachedLastStep ev ∧ completed (ev :: tr) = 3 := by
  obtain ⟨⟨ev, hev, hreached⟩, hdone⟩ : (∃ ev ∈ (pipelined [200, 220, 240]).1.head?, ReachedLastStep ev)
      ∧ completed (pipelined [200, 220, 240]).1 = 3 := by
    decide +kernel
  refine ⟨ev, _, _, run_pipelined hev, hreached, ?_⟩
  rwa [← List.eq_cons_of_mem_head? hev]

end Steps
end Leviathan.Coordinator
