import Leviathan.Coordinator.Steps

/-!
# Calls between ticks

What the operations of a coordinator other than `tick` do to its course: its phase, its counters, the round in progress
and the pause that may be pending (`shared/coordinator/src/coordinator.rs`). `CallStep` has one constructor for each way
a call can change the course; all calls that do not are `CallStep.report`. With `TickStep` it is what invariants of the
course are proved from (`perform_inv`).
-/

namespace Leviathan.Coordinator
open Exec

/-- The outcomes of the calls other than `tick`. -/
inductive CallStep (P : Platform) (c : Coordinator) : Operation → Coordinator → Prop where
  | report {op c'} :
    SameCourse c c' →
    CallStep P c op c'
  | start {from_ w now seed c1 c'} :
    c.runState = .warmup →
    SameCourse c c1 →
    c1.RoundStarted P now seed c' →
    CallStep P c (.warmupWitness from_ w now seed) c'
  | witnessed {from_ w now c1} :
    c.runState = .roundTrain →
    SameCourse c c1 →
    CallStep P c (.witness from_ w now) (c1.entered now .roundWitness)
  | pauseNow {now} :
    c.runState = .waitingForMembers ∨ c.runState = .warmup →
    CallStep P c (.pause now)
      ((c.withdrawn.setEpochState { c.withdrawn.epochState with coldStartEpoch := true }).entered now .paused)
  | resume {now} :
    c.runState = .paused →
    CallStep P c (.resume now) (c.entered now c.betweenEpochs)
  | update {config model progress} :
    c.halted = true →
    CallStep P c (.update config model progress) { c with config, model, progress }

section Calls
variable {P : Platform} {c c' : Coordinator} {op : Operation} {from_ : NodeIdentity} {w : Witness}

lemma SameCourse.dataIndex (h : SameCourse c c') : c'.currentRound.dataIndex = c.currentRound.dataIndex := by
  rw [h.round]

lemma WitnessStored.sameCourse (h : c.WitnessStored from_ w c') : SameCourse c c' := by
  obtain ⟨_, ws, _, rfl⟩ := h
  refine ⟨rfl, rfl, rfl, rfl, rfl, .inl rfl, rfl, rfl, rfl, ?_, rfl⟩
  rw [currentRound_setCurrentRound]

/-- An accepted operation that is no tick is one of the calls. -/
lemma RoundStep.call (st : RoundStep P c op c') :
    (∃ pending now seed r, op = .tick pending now seed
        ∧ TickStep P c (pending.map PendingClients.ids) now seed c' r)
      ∨ CallStep P c op c' := by
  cases st with
  | quiet _ hq => exact .inr (.report hq.toSameCourse)
  | ignored => exact .inr (.report (.refl c))
  | ticked ht => exact .inl ⟨_, _, _, _, rfl, ht⟩
  | warmed _ _ hst => exact .inr (.report hst.sameCourse)
  | warmedUp hs _ hst _ hr => exact .inr (.start hs hst.sameCourse hr)
  | witnessed hs _ _ _ hst =>
    split
    case isTrue hlast => exact .inr (.witnessed (hs.resolve_left hlast.2) hst.sameCourse)
    case isFalse => exact .inr (.report hst.sameCourse)
  | paused hs => exact .inr (.pauseNow hs)
  | resumed hs => exact .inr (.resume hs)
  | updated hh => exact .inr (.update hh)

/-- Every accepted operation is a tick or one of the calls. -/
lemma perform_inv (h : c.perform P op = .ok c') :
    (∃ pending now seed r, op = .tick pending now seed
        ∧ c.tick P (pending.map PendingClients.ids) now seed = .ok (c', r))
      ∨ CallStep P c op c' := by
  obtain ⟨pending, now, seed, _, rfl, _⟩ | hc := (roundStep_of_perform h).call
  · simp only [perform, bind_eq_ok, Except.ok.injEq] at h
    obtain ⟨⟨_, r⟩, ht, rfl⟩ := h
    exact .inl ⟨pending, now, seed, r, rfl, ht⟩
  · exact .inr hc

lemma perform_of_step {c0 : Coordinator} {o : Unit} (st : (machineFrom P c0).step c op = .ok (c', o)) :
    c.perform P op = .ok c' := by
  simp only [machineFrom, machine, bind_eq_ok, ok_pair] at st
  obtain ⟨_, hp, rfl, _⟩ := st
  exact hp

end Calls
end Leviathan.Coordinator
