import Leviathan.Coordinator.Progress

/-!
# Pausing

What follows a call of `pause` (`shared/coordinator/src/coordinator.rs`). Between epochs and in warmup the run is paused
at once. While a round is going on only a flag is set, which the exits of the witness phase and the end of the cooldown
look at. `Pausing` is what holds from the call on, and what everything but `resume` keeps: the flag is set while the
epoch goes on, and once it is over the run is paused.
-/

namespace Leviathan
open List

def Operation.isResume : Operation → Bool
  | .resume _ => true
  | _ => false

namespace Coordinator

/-- A pause has been asked for: the epoch goes on until it can be paused, or it is paused. -/
def Pausing (c : Coordinator) : Prop :=
  (c.active = true ∧ c.pendingPause = true)
    ∨ (c.runState = .paused ∧ c.pendingPause = false ∧ c.epochState.coldStartEpoch = true)

/-- No round and no epoch is started: the round is the same up to its witnesses, and neither warmup nor `RoundTrain` is
entered. -/
structure StartsNothing (c c' : Coordinator) : Prop where
  head : c'.epochState.roundsHead = c.epochState.roundsHead
  round : c'.currentRound = { c.currentRound with witnesses := c'.currentRound.witnesses }
  fromWarmup : c.runState ≠ .warmup
  warmup : c'.runState ≠ .warmup
  train : c'.runState = .roundTrain → c.runState = .roundTrain

section Pausing
variable {P : Platform} {c c' c0 : Coordinator} {pending : Option (List NodeIdentity)} {now seed : Nat}
  {r : TickResult} {op : Operation}

lemma ne_warmup_of_active (h : c.active = true) : c.runState ≠ .warmup := by
  intro hw
  simp [active, hw] at h

lemma Pausing.ne_warmup (h : Pausing c) : c.runState ≠ .warmup := by
  obtain ⟨ha, _⟩ | ⟨hs, _⟩ := h
  · exact ne_warmup_of_active ha
  · simp [hs]

lemma Pausing.of_tick (h : Pausing c) (st : c.TickStep P pending now seed c' r) :
    c.active = true ∧ c.pendingPause = true := by
  refine h.resolve_right ?_
  rintro ⟨hs, _⟩
  cases st with
  | idle hs' | beginEpoch hs' | warm hs' | warmAbort hs' | train hs' | trainAbort hs' | witness hs' | coolEmpty hs'
  | cool hs' | nextRound hs' | endEpoch hs' | endEpochPaused hs' => simp [hs] at hs'

lemma startsNothing_cooled {c1 : Coordinator} (hs : c.runState = .roundWitness)
    (hh : c1.epochState.roundsHead = c.epochState.roundsHead) (hr : c1.currentRound = c.currentRound) :
    StartsNothing c (c1.cooled now) := by
  have hcur : (c1.cooled now).currentRound = { c1.currentRound with witnesses := .new } :=
    currentRound_setCurrentRound _
  refine ⟨hh, ?_, by simp [hs], by simp [cooled, entered], by simp [cooled, entered]⟩
  rw [hcur, hr]

/-- A tick of a run that is being paused starts nothing. -/
lemma Pausing.tick (h : Pausing c) (st : c.TickStep P pending now seed c' r) :
    Pausing c' ∧ StartsNothing c c' := by
  obtain ⟨ha, hp⟩ := h.of_tick st
  have hw := ne_warmup_of_active ha
  cases st with
  | idle => exact ⟨h, rfl, rfl, hw, hw, id⟩
  | beginEpoch hs => simp [active, hs] at ha
  | warm hs | warmAbort hs | train hs | trainAbort hs => exact absurd hs hw
  | witness hs => exact ⟨.inl ⟨rfl, hp⟩, rfl, rfl, hw, by simp [entered], by simp [entered]⟩
  | @coolEmpty e hs _ hc =>
    exact ⟨.inl ⟨rfl, hp⟩, startsNothing_cooled hs hc.roundsHead (currentRound_roundClosed hc e.lastStep)⟩
  | cool hs _ hc =>
    exact ⟨.inl ⟨rfl, hp⟩, startsNothing_cooled hs hc.roundsHead (currentRound_roundClosed hc _)⟩
  | nextRound _ _ _ _ _ hgo =>
    -- the pending pause is one of the reasons not to go on
    have hp' : c.pendingPause = false := (cannotContinue_false hgo).2.2
    simp [hp] at hp'
  | endEpoch _ _ _ hp' => simp [hp] at hp'
  | @endEpochPaused e dataIndex _ _ hc =>
    have hcur : (c.epochClosed e dataIndex).currentRound = c.currentRound :=
      (rounds_congr _ _ hc.rounds hc.roundsHead).1
    refine ⟨.inr ⟨rfl, rfl, rfl⟩, hc.roundsHead, ?_, hw, by simp [entered], by simp [entered]⟩
    exact hcur.trans (by rw [← hcur]; rfl)

lemma SameCourse.pausing (h : SameCourse c c') (hp : c.pendingPause = true) : c'.pendingPause = true := by
  obtain he | ⟨_, hp'⟩ := h.pendingPause
  · exact he.trans hp
  · exact hp'

lemma SameCourse.notPausing (h : SameCourse c c') (hs : c.runState = .paused) (hp : c.pendingPause = false) :
    c'.pendingPause = false := by
  obtain he | ⟨ha, _⟩ := h.pendingPause
  · exact he.trans hp
  · simp [active, hs] at ha

/-- Neither does a call other than `resume`. -/
lemma Pausing.call (h : Pausing c) (hop : op.isResume = false) (st : CallStep P c op c') :
    Pausing c' ∧ StartsNothing c c' := by
  have hw := h.ne_warmup
  cases st with
  | report hc =>
    have hp : Pausing c' := by
      unfold Pausing active
      rw [hc.runState, hc.coldStart]
      exact h.imp (And.imp_right hc.pausing) fun h => ⟨h.1, hc.notPausing h.1 h.2.1, h.2.2⟩
    exact ⟨hp, hc.head, hc.round, hw, hp.ne_warmup, fun ht => hc.runState ▸ ht⟩
  | start hs => exact absurd hs hw
  | witnessed hs hc =>
    obtain ⟨_, hp⟩ | ⟨hs', _⟩ := h
    · exact ⟨.inl ⟨rfl, hc.pausing hp⟩, hc.head, hc.round, hw, by simp [entered], by simp [entered]⟩
    · simp [hs] at hs'
  | pauseNow hs =>
    obtain hs | hs := hs
    · obtain ⟨ha, _⟩ | ⟨hs', _⟩ := h
      · simp [active, hs] at ha
      · simp [hs] at hs'
    · exact absurd hs hw
  | resume => cases hop
  | update hh => exact ⟨h, rfl, rfl, hw, hw, id⟩

/-- A pause is pending only while a round or its cooldown goes on. -/
def PendingActive (c : Coordinator) : Prop := c.pendingPause = true → c.active = true

lemma PendingActive.outside (h : PendingActive c) (hs : c.active = false) (hp : c'.pendingPause = c.pendingPause) :
    PendingActive c' := by
  intro hp'
  have ha := h (hp ▸ hp')
  simp [hs] at ha

lemma PendingActive.tick (h : PendingActive c) (st : c.TickStep P pending now seed c' r) : PendingActive c' := by
  have hwarm : c.runState = .warmup → c.active = false := by
    intro hs
    simp [active, hs]
  cases st with
  | idle => exact h
  | beginEpoch hs _ _ _ hb => exact h.outside (by simp [active, hs]) (by rw [hb.eq])
  | warm hs | warmAbort hs => exact h.outside (hwarm hs) rfl
  | train _ _ hr | nextRound _ _ _ _ _ _ hr => exact fun _ => hr.active
  | trainAbort hs _ hr =>
    obtain ⟨_, _, _, _, _, rfl⟩ := hr
    exact h.outside (hwarm hs) rfl
  | witness | coolEmpty | cool => exact fun _ => rfl
  | endEpoch _ _ _ hp =>
    intro hp'
    cases hp.symm.trans hp'
  | endEpochPaused =>
    intro hp'
    cases hp'

/-- A call leaves a pause pending only in a round or its cooldown. -/
lemma PendingActive.call (h : PendingActive c) (st : CallStep P c op c') : PendingActive c' := by
  cases st with
  | report hc =>
    intro hp
    rw [active, hc.runState]
    obtain he | ⟨ha, _⟩ := hc.pendingPause
    · exact h (he.symm.trans hp)
    · exact ha
  | start _ _ hr => exact fun _ => hr.active
  | witnessed => exact fun _ => rfl
  | pauseNow hs =>
    refine h.outside ?_ rfl
    obtain hs | hs := hs <;> simp [active, hs]
  | resume hs => exact h.outside (by simp [active, hs]) rfl
  | update => exact h

lemma PendingActive.of_run {tr : Record} (h0 : PendingActive c0) (r : (machineFrom P c0).Run tr c) :
    PendingActive c := by
  refine r.invariant ?_ fun c op c' _ h st => ?_
  · rintro c rfl
    exact h0
  · obtain ⟨pending, now, seed, r, rfl, ht⟩ | hc := perform_inv (perform_of_step st)
    · exact h.tick (tick_inv ht)
    · exact h.call hc

lemma pausing_of_pause (h : PendingActive c) (hp : c.pause now = .ok c') : Pausing c' := by
  obtain ⟨ha, rfl⟩ | ⟨hs, rfl⟩ := pause_inv hp
  · exact .inl ⟨ha, rfl⟩
  · refine .inr ⟨rfl, Bool.eq_false_iff.mpr fun hp' => ?_, rfl⟩
    have ha := h hp'
    obtain hs | hs := hs <;> simp [active, hs] at ha

/-- From an accepted `pause` on, nothing is started until the run is resumed. -/
lemma pausing_of_run {tr1 tr2 : Record} {ev : Event Coordinator Operation Unit} (h0 : PendingActive c0)
    (r : (machineFrom P c0).Run (tr1 ++ ev :: tr2) c) (hev : ev.input = .pause now)
    (hops : ∀ ev' ∈ tr1, ev'.input.isResume = false) :
    Pausing c ∧ ∀ ev' ∈ tr1, StartsNothing ev'.before ev'.after := by
  induction tr1 generalizing c with
  | nil =>
    obtain ⟨r', st, rfl⟩ := r.cons_inv
    have hp := perform_of_step st
    rw [hev] at hp
    exact ⟨pausing_of_pause (PendingActive.of_run h0 r') hp, by simp⟩
  | cons ev' tr1 ih =>
    obtain ⟨r', st, rfl⟩ := r.cons_inv
    obtain ⟨h, hall⟩ := ih r' fun e he => hops e (mem_cons_of_mem _ he)
    have hstep : Pausing ev'.after ∧ StartsNothing ev'.before ev'.after := by
      obtain ⟨pending, now, seed, r, _, ht⟩ | hc := perform_inv (perform_of_step st)
      · exact h.tick (tick_inv ht)
      · exact h.call (hops ev' mem_cons_self) hc
    refine ⟨hstep.1, fun e he => ?_⟩
    obtain rfl | he := mem_cons.mp he
    · exact hstep.2
    · exact hall e he

/-- In every run a pause is pending only in rounds and cooldowns. After an accepted `pause`, until the run is resumed, no
call starts a round or an epoch, and the only halted phase the run comes to is `Paused`, with the flag cleared and a cold
start ahead. -/
theorem pause_takes_effect {c0 : Coordinator} {tr : Record} (r : (machineFrom P c0).Run tr c)
    (h0 : c0.pendingPause = true → c0.active = true) :
    (c.pendingPause = true →
      c.runState = .roundTrain ∨ c.runState = .roundWitness ∨ c.runState = .cooldown)
    ∧ ∀ tr1 ev tr2 now, tr = tr1 ++ ev :: tr2 → ev.input = .pause now →
      (∀ ev' ∈ tr1, ev'.input.isResume = false) →
      (∀ ev' ∈ tr1, StartsNothing ev'.before ev'.after)
        ∧ c.runState ≠ .warmup
        ∧ (c.halted = true →
          c.runState = .paused ∧ c.pendingPause = false ∧ c.epochState.coldStartEpoch = true) := by
  constructor
  · intro hp
    have ha := PendingActive.of_run h0 r hp
    unfold active at ha
    cases hs : c.runState <;> simp [hs] at ha ⊢
  · rintro tr1 ev tr2 now rfl hev hops
    obtain ⟨h, hall⟩ := pausing_of_run h0 r hev hops
    refine ⟨hall, h.ne_warmup, fun hh => ?_⟩
    obtain ⟨ha, _⟩ | hpaused := h
    · unfold halted at hh
      unfold active at ha
      cases hs : c.runState <;> simp [hs] at ha hh
    · exact hpaused

/-- A run that is asked to pause in its first round, and whose epoch then ends. -/
def pausedLater : Record × Coordinator :=
  (machineFrom .zero .small).play [] .small
    [.tick (some .two) 5 0, .tick none 15 0, .pause 15,
      .witness ⟨1, 0⟩ ⟨⟨0, 0, true⟩, .empty, .empty, 0⟩ 16, .tick none 25 0, .tick none 35 0, .tick none 45 0]

lemma pausedLater_length : 4 < pausedLater.1.length := by decide +kernel

/-- A pause that is asked for in a round takes effect when the epoch is over. -/
theorem pause_takes_effect_pausedLater : pausedLater.2.halted = true
    ∧ pausedLater.2.runState = .paused ∧ pausedLater.2.epochState.coldStartEpoch = true := by
  have hsplit : pausedLater.1
      = pausedLater.1.take 4 ++ pausedLater.1.get ⟨4, pausedLater_length⟩ :: pausedLater.1.drop 5 := by
    rw [get_eq_getElem, ← drop_eq_getElem_cons, take_append_drop]
  have hrun : (machineFrom .zero .small).Run pausedLater.1 pausedLater.2 := (Machine.Run.init rfl).play _
  have hh : pausedLater.2.halted = true := by decide +kernel
  have hev : (pausedLater.1.get ⟨4, pausedLater_length⟩).input = .pause 15 := by rfl
  obtain ⟨_, _, h⟩ := (pause_takes_effect hrun (by decide)).2 _ _ _ 15 hsplit hev (by decide +kernel)
  obtain ⟨hs, _, hcold⟩ := h hh
  exact ⟨hh, hs, hcold⟩

end Pausing
end Coordinator
end Leviathan
