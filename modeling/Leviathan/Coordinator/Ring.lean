import Leviathan.Coordinator.Witnesses
import Leviathan.Lib.Ring

/-!
# The ring buffer of rounds

The rounds of an epoch are stored in a ring buffer of four slots (in Rust `rounds` and `rounds_head`). `finished` reads from the
record of a run how each earlier round of the epoch was left, and `Ring` says that the slots hold the youngest of them, that the
height of the current round counts them, and that the head is the height modulo four (`ring_of_run`).

The accessors tell the first rounds of an epoch from later ones by the head and the height.
-/

namespace Leviathan.Coordinator
open List
variable {P : Platform} {c c' : Coordinator}

/-- The earlier rounds of the epoch as they were left, newest first; nothing before the first epoch. -/
def finished : Record → Option (List Round)
  | [] => none
  | ev :: tr =>
    if ev.before.runState = .waitingForMembers ∧ ev.after.runState = .warmup then
      some []
    else if ev.before.runState = .roundWitness ∧ ev.after.runState = .roundTrain then
      (finished tr).map fun l => ev.before.currentRound :: l
    else
      finished tr

/-- The slots hold the rounds of the epoch. -/
structure Ring (l : List Round) (c : Coordinator) : Prop where
  height : c.currentRound.height = l.length
  head : c.epochState.roundsHead.val = l.length % numStoredRounds
  recent : Recent c.epochState.rounds c.epochState.roundsHead (c.currentRound :: l)
  heights : ∀ k round, l[k]? = some round → round.height + k + 1 = l.length

section Ring
variable {l : List Round} {now seed : Nat}

lemma Ring.congr (h : Ring l c) (hr : c'.epochState.rounds = c.epochState.rounds)
    (hh : c'.epochState.roundsHead = c.epochState.roundsHead) : Ring l c' := by
  have hcur := (rounds_congr c c' hr hh).1
  refine ⟨?_, ?_, ?_, h.heights⟩
  · rw [hcur]
    exact h.height
  · rw [hh]
    exact h.head
  · rw [hr, hh, hcur]
    exact h.recent

/-- What begins no round keeps the ring. -/
lemma Ring.stays (h : Ring l c) (hk : Stays c c') : Ring l c' := by
  obtain ⟨round, _, hr⟩ := hk.rounds
  have hcur : c'.currentRound = round := by
    simp [Coordinator.currentRound, hr, hk.head]
  refine ⟨?_, ?_, ?_, h.heights⟩
  · rw [hk.height]
    exact h.height
  · rw [hk.head]
    exact h.head
  · rw [hr, hk.head, hcur]
    exact h.recent.update round

lemma RoundStarted.slot (hr : c.RoundStarted P now seed c') :
    c'.epochState.rounds = c.epochState.rounds.set c'.epochState.roundsHead c'.currentRound c'.epochState.roundsHead.isLt
      ∧ c'.epochState.roundsHead = if c.epochState.firstRound then 0 else c.epochState.roundsHead + 1 := by
  obtain ⟨_, head, height, dataIndex, hn, rfl⟩ := hr
  refine ⟨by simp [Coordinator.currentRound, entered, setEpochState], ?_⟩
  show head = _
  unfold nextRound at hn
  split at hn
  case isTrue hf =>
    cases hn
    rw [if_pos hf]
  case isFalse hf =>
    simp only [Exec.bind_eq_ok, Exec.ok_pair] at hn
    obtain ⟨_, _, _, _, _, _, rfl, _⟩ := hn
    rw [if_neg hf]

lemma Ring.first (hr : c.RoundStarted P now seed c') (hf : c.epochState.firstRound = true) : Ring [] c' := by
  obtain ⟨_, hhead⟩ := hr.slot
  rw [if_pos hf] at hhead
  exact ⟨hr.first hf, by rw [hhead]; rfl, .single rfl, fun _ _ hk => by cases hk⟩

/-- A later round is pushed on the ring. -/
lemma Ring.later (h : Ring l c) (hr : c.RoundStarted P now seed c') (hf : c.epochState.firstRound = false) :
    Ring (c.currentRound :: l) c' := by
  obtain ⟨hslot, hhead⟩ := hr.slot
  rw [if_neg (by simp [hf])] at hhead
  refine ⟨?_, ?_, ?_, ?_⟩
  · rw [(hr.later hf).2, h.height, length_cons]
  · have hval : ∀ i : Fin numStoredRounds, (i + 1).val = (i.val + 1) % numStoredRounds := by decide
    rw [hhead, hval, h.head, length_cons, Nat.mod_add_mod]
  · have hpush := h.recent.push c'.currentRound
    rw [hslot]
    simp only [hhead]
    exact hpush
  · intro k round hk
    cases k with
    | zero =>
      cases hk
      rw [h.height, length_cons]
    | succ k =>
      rw [length_cons, ← h.heights k round hk]
      omega

lemma Ring.begun (hh : c.epochState.roundsHead = 0) (hr : c.currentRound = .zeroed) : Ring [] c :=
  ⟨by rw [hr]; rfl, by rw [hh]; rfl, .single rfl, fun _ _ hk => by cases hk⟩

section Finished
variable {tr : Record} {op : Operation}

lemma finished_begin (h : c.runState = .waitingForMembers) (h' : c'.runState = .warmup) :
    finished (⟨c, op, (), c'⟩ :: tr) = some [] := if_pos ⟨h, h'⟩

lemma finished_next (h : c.runState = .roundWitness) (h' : c'.runState = .roundTrain) :
    finished (⟨c, op, (), c'⟩ :: tr) = (finished tr).map fun l => c.currentRound :: l := by
  rw [finished, if_neg (by simp [h]), if_pos ⟨h, h'⟩]

lemma finished_same (h : c'.runState = .warmup → c.runState ≠ .waitingForMembers)
    (h' : c'.runState = .roundTrain → c.runState ≠ .roundWitness) :
    finished (⟨c, op, (), c'⟩ :: tr) = finished tr := by
  rw [finished, if_neg fun hn => h hn.2 hn.1, if_neg fun hn => h' hn.2 hn.1]

end Finished

/-- In an epoch the slots hold its rounds, and in warmup there are none yet. -/
def InRing (l : Option (List Round)) (c : Coordinator) : Prop :=
  ∀ rounds, l = some rounds → Ring rounds c ∧ (c.runState = .warmup → rounds = [])

/-- A started round takes the next place of the ring; every other step leaves the ring alone. -/
lemma InRing.step {tr : Record} {op : Operation} (h : InRing (finished tr) c)
    (hw : c.runState = .warmup → c.epochState.firstRound = true) (co : Course P c c') :
    InRing (finished (⟨c, op, (), c'⟩ :: tr)) c' := by
  -- an epoch that is in warmup has no earlier rounds
  have hfirst : c.runState = .warmup → Ring [] c' → c'.runState ≠ .warmup →
      InRing (finished (⟨c, op, (), c'⟩ :: tr)) c' := by
    intro hs hr hne l hl
    rw [finished_same (fun hn => absurd hn hne) (fun _ => by simp [hs])] at hl
    rw [(h l hl).2 hs]
    exact ⟨hr, fun hn => absurd hn hne⟩
  cases co with
  | begins hs hs' hhead hround =>
    rw [finished_begin hs hs']
    rintro l ⟨⟩
    exact ⟨.begun hhead hround, fun _ => rfl⟩
  | stays hl hk =>
    intro l hf
    rw [finished_same (fun hs => by simp [hl.warmup hs]) (fun hs => by simp [hl.roundTrain hs])] at hf
    obtain ⟨hr, hnil⟩ := h l hf
    exact ⟨hr.stays hk, fun hs => hnil (hl.warmup hs)⟩
  | updates hh hs he =>
    intro l hf
    rw [finished_same (fun hn => by simp [← hs, hn]) (fun hn => by simp [← hs, hn])] at hf
    obtain ⟨hr, hnil⟩ := h l hf
    exact ⟨hr.congr (by rw [he]) (by rw [he]), fun hn => hnil (hs.symm.trans hn)⟩
  | aborts hs hs' hr he =>
    refine hfirst hs ((Ring.first hr (hw hs)).congr (by rw [he]) (by rw [he])) ?_
    obtain hs' | hs' := hs' <;> simp [hs']
  | first hs hf hr =>
    exact hfirst hs (.first hr (hf.trans (hw hs))) (by simp [hr.runState])
  | next hs hk _ hcur hf hr =>
    intro l hl
    rw [finished_next hs hr.runState] at hl
    obtain ⟨l, hfin, rfl⟩ := Option.map_eq_some_iff.mp hl
    exact ⟨hcur ▸ ((h l hfin).1.stays hk).later hr hf, fun hn => by simp [hr.runState] at hn⟩

lemma ring_of_run {tr : Record} (r : (machine P).Run tr c) (hl : finished tr = some l) : Ring l c := by
  refine (history_of_steps (I := fun tr c => InRing (finished tr) c) ?_ ?_ r l hl).1
  · rintro c _ l ⟨⟩
  · intro tr c op c' r h st
    exact h.step (RosterInv.of_run r).warmup st.course

/-- The accessors give the two rounds before the current one as they were left, where there are such rounds. -/
def Windowed (l : List Round) (c : Coordinator) : Prop :=
  c.epochState.roundsHead.val = c.currentRound.height % numStoredRounds
    ∧ c.previousRound = (if 1 ≤ c.currentRound.height then l[0]? else none)
    ∧ c.previousPreviousRound = if 2 ≤ c.currentRound.height then l[1]? else none

lemma Ring.previousRound (h : Ring l c) : c.previousRound = if 1 ≤ c.currentRound.height then l[0]? else none := by
  unfold Coordinator.previousRound
  by_cases h1 : 1 ≤ c.currentRound.height
  · rw [if_neg (by omega), if_pos h1]
    have hk : (1 : Fin numStoredRounds).val < (c.currentRound :: l).length := by
      rw [length_cons, ← h.height]
      exact Nat.lt_succ_of_le h1
    exact (h.recent.at hk).symm
  · have hzero : l.length = 0 := by rw [← h.height]; omega
    have hhead : c.epochState.roundsHead = 0 := Fin.ext (by rw [h.head, hzero]; rfl)
    rw [if_pos ⟨hhead, by omega⟩, if_neg h1]

lemma Ring.previousPreviousRound_iff (h : Ring l c) :
    c.previousPreviousRound = (if 2 ≤ c.currentRound.height then l[1]? else none) ↔ c.currentRound.height ≠ 1 := by
  unfold Coordinator.previousPreviousRound
  by_cases h2 : 2 ≤ c.currentRound.height
  · rw [if_neg (by omega), if_pos h2]
    have hk : (2 : Fin numStoredRounds).val < (c.currentRound :: l).length := by
      rw [length_cons, ← h.height]
      exact Nat.lt_succ_of_le h2
    exact ⟨fun _ => by omega, fun _ => (h.recent.at hk).symm⟩
  · rw [if_neg h2]
    have hhead : c.epochState.roundsHead = 0 ↔ c.currentRound.height = 0 := by
      have hlt : l.length < numStoredRounds := by
        rw [← h.height]
        exact lt_of_not_ge fun hge => h2 (le_trans (by decide) hge)
      rw [Fin.ext_iff, h.head, h.height, Nat.mod_eq_of_lt hlt]
      rfl
    by_cases h0 : c.currentRound.height = 0
    · rw [if_pos ⟨hhead.mpr h0, by omega⟩]
      exact ⟨fun _ => by omega, fun _ => rfl⟩
    · -- the head is one here, and the slot two back has not been written in this epoch
      rw [if_neg fun hn => h0 (hhead.mp hn.1)]
      refine ⟨fun hn => ?_, fun hn => by omega⟩
      cases hn

/-- In every state of every epoch the height counts the earlier rounds and the head is the height modulo four; the accessors
give the two rounds before the current one as they were left if and only if this is not the second round. -/
theorem ring_window_iff {tr : Record} (r : (machine P).Run tr c) (hl : finished tr = some l) :
    c.currentRound.height = l.length ∧ (∀ k round, l[k]? = some round → round.height + k + 1 = l.length)
      ∧ (Windowed l c ↔ c.currentRound.height ≠ 1) := by
  have h := ring_of_run r hl
  refine ⟨h.height, h.heights, fun hw => h.previousPreviousRound_iff.mp hw.2.2, fun hne => ?_⟩
  refine ⟨?_, h.previousRound, h.previousPreviousRound_iff.mpr hne⟩
  rw [h.head, h.height]

/-- Two clients that have begun a number of rounds, in each of which the first has reported. -/
def begun (rounds : Nat) : Record × Coordinator :=
  (machine .zero).play [] .small (.tick (some .two) 5 0 :: .tick none 15 0 :: (List.range rounds).flatMap fun i =>
    [.witness ⟨1, 0⟩ (report 0 0) (20 * i + 16), .tick none (20 * i + 25) 0, .tick none (20 * i + 35) 0])

lemma run_begun (rounds : Nat) : (machine .zero).Run (begun rounds).1 (begun rounds).2 := run_small _

/-- The heights of the earlier rounds. -/
def finishedHeights (tr : Record) : Option (List Nat) := (finished tr).map fun l => l.map Round.height

/-- In the third round the ring holds the two rounds that are finished. -/
theorem ring_window_iff_third : ∃ l, finished (begun 2).1 = some l ∧ l.map Round.height = [1, 0] ∧ Windowed l (begun 2).2 := by
  obtain ⟨hfin, hheight⟩ : finishedHeights (begun 2).1 = some [1, 0] ∧ (begun 2).2.currentRound.height = 2 := by
    decide +kernel
  obtain ⟨l, hl, hmap⟩ := Option.map_eq_some_iff.mp hfin
  exact ⟨l, hl, hmap, (ring_window_iff (run_begun 2) hl).2.2.mpr (by rw [hheight]; decide)⟩

/-- In the second round of an epoch there is only one earlier round, and yet the accessor returns one before it. -/
theorem ring_window_second : ∃ tr c l, (machine .zero).Run tr c ∧ finished tr = some l ∧ l.length = 1
    ∧ c.currentRound.height = 1 ∧ (∃ round, c.previousPreviousRound = some round) ∧ ¬ Windowed l c := by
  obtain ⟨hfin, hheight, hsome⟩ : finishedHeights (begun 1).1 = some [0] ∧ (begun 1).2.currentRound.height = 1
      ∧ (begun 1).2.previousPreviousRound.isSome = true := by
    decide +kernel
  obtain ⟨l, hl, hmap⟩ := Option.map_eq_some_iff.mp hfin
  obtain ⟨round, hround⟩ := Option.isSome_iff_exists.mp hsome
  refine ⟨_, _, l, run_begun 1, hl, by simpa using congrArg List.length hmap, hheight, ⟨round, hround⟩, fun hw => ?_⟩
  have hnone := hw.2.2
  rw [hheight, hround] at hnone
  cases hnone

end Ring
end Leviathan.Coordinator
