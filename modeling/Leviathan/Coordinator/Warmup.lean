import Leviathan.Coordinator.Witnesses

/-!
# The witnesses of a warmup

In warmup every client may report once that it has loaded the model (Rust `warmup_witness`). Its report is stored under the
index it has then, and a later report is a duplicate if one of the stored indices names its sender. But a tick in warmup takes
out those who have left and moves the others up (Rust `tick_warmup`), while the stored indices stay.

`accepted` reads from the record of a run who has been accepted in the current warmup. As long as a tick finds everyone
healthy up to the last stored index, the stored indices go on naming the accepted clients.
-/

namespace Leviathan.Coordinator
open Exec List
variable {P : Platform} {c c' : Coordinator} {from_ : NodeIdentity} {keys : List Pubkey} {tr : Record} {w : Witness}
  {now seed : Nat}

/-- The clients accepted in the current warmup, newest first. -/
def accepted : Record → List Pubkey
  | [] => []
  | ev :: tr =>
    match ev.input with
    | .tick _ _ _ => if ev.before.runState ≠ .warmup ∧ ev.after.runState = .warmup then [] else accepted tr
    | .warmupWitness from_ _ _ _ => if ev.before.runState = .warmup then from_.signer :: accepted tr else accepted tr
    | _ => accepted tr

section Accepted
variable {tr : Record} {pending : Option PendingClients} {from_ : NodeIdentity} {w : Witness} {now seed : Nat}

lemma accepted_begin (h : c.runState ≠ .warmup) (h' : c'.runState = .warmup) :
    accepted (⟨c, .tick pending now seed, (), c'⟩ :: tr) = [] := if_pos ⟨h, h'⟩

lemma accepted_tick (h : c.runState = .warmup) :
    accepted (⟨c, .tick pending now seed, (), c'⟩ :: tr) = accepted tr := if_neg fun hn => hn.1 h

lemma accepted_report (h : c.runState = .warmup) :
    accepted (⟨c, .warmupWitness from_ w now seed, (), c'⟩ :: tr) = from_.signer :: accepted tr := if_pos h

end Accepted

/-- Reports in warmup are counted by client. -/
def CountsByClient (P : Platform) (keys : List Pubkey) (c : Coordinator) : Prop :=
  keys.Nodup ∧ ∀ from_ w now seed,
    c.warmupWitness P from_ w now seed ≠ Exec.abort .indexOutOfBounds
      ∧ (∀ c', c.warmupWitness P from_ w now seed = .ok c' → from_.signer ∉ keys)
      ∧ (c.warmupWitness P from_ w now seed = Exec.fail .duplicateWitness → from_.signer ∈ keys)

/-- A tick in warmup finds everyone healthy up to each stored index. -/
def Undisturbed (c : Coordinator) : Operation → Prop
  | .tick _ _ _ => c.runState = .warmup → ∀ w ∈ c.currentRound.witnesses.toList,
      ∀ x ∈ c.epochState.clients.toList.take (w.proof.index + 1), x.state = .healthy
  | _ => True

lemma getElem?_filter_of_take {α : Type} {p : α → Bool} {l : List α} {i : Nat} (h : ∀ x ∈ l.take (i + 1), p x = true) :
    (l.filter p)[i]? = l[i]? := by
  have hsplit : l.filter p = l.take (i + 1) ++ (l.drop (i + 1)).filter p := by
    conv_lhs => rw [← take_append_drop (i + 1) l]
    rw [filter_append, filter_eq_self.mpr h]
  rw [hsplit]
  by_cases hi : i < l.length
  · rw [getElem?_append_left (by rw [length_take]; omega), getElem?_take_of_lt (Nat.lt_succ_self i)]
  · have hdrop : l.drop (i + 1) = [] := drop_eq_nil_of_le (by omega)
    rw [hdrop, filter_nil, append_nil, getElem?_take_of_lt (Nat.lt_succ_self i)]

lemma Named.compacted {height : Nat} {e e' : CoordinatorEpochState} {ws : List Witness}
    (h : Named (e.clients.toList.map Client.signer) ws keys) (hc : Compacted height e e')
    (hw : ∀ w ∈ ws, ∀ x ∈ e.clients.toList.take (w.proof.index + 1), x.state = .healthy) :
    Named (e'.clients.toList.map Client.signer) ws keys := by
  unfold Named at h ⊢
  rw [← h]
  refine map_congr_left fun w hmem => ?_
  rw [getElem?_map, getElem?_map, hc.clients, getElem?_filter_of_take fun x hx => ?_]
  exact beq_iff_eq.mpr (hw w hmem x hx)

/-- In warmup the stored indices name those who have been accepted. -/
structure WarmupInv (tr : Record) (c : Coordinator) : Prop where
  named : Named c.roster c.currentRound.witnesses.toList (accepted tr).reverse
  nodup : (accepted tr).Nodup

/-- An undisturbed step keeps the stored indices with those they name. -/
lemma WarmupInv.step {op : Operation} (h : c.runState = .warmup → WarmupInv tr c) (hu : c.Undisturbed op)
    (st : RoundStep P c op c') (hs : c'.runState = .warmup) : WarmupInv (⟨c, op, (), c'⟩ :: tr) c' := by
  cases st with
  | quiet hop hq =>
    have hw : c.runState = .warmup := hq.runState.symm.trans hs
    have hacc : accepted (⟨c, op, (), c'⟩ :: tr) = accepted tr := by
      cases op with
      | warmupWitness | witness => cases hop
      | tick => exact accepted_tick hw
      | healthCheck | checkpoint | withdraw | eject | pause | resume | update => rfl
    refine ⟨?_, ?_⟩
    · rw [hacc, hq.roster, hq.currentRound]
      exact (h hw).named
    · rw [hacc]
      exact (h hw).nodup
  | ignored hi =>
    rw [hi] at hs
    cases hs
  | ticked ht =>
    cases ht with
    | beginEpoch hw _ _ _ hb =>
      have hnew : c'.currentRound = .zeroed := by
        rw [hb.eq]
        rfl
      have hne : c.runState ≠ .warmup := by
        rw [hw]
        rintro ⟨⟩
      refine ⟨?_, ?_⟩
      · rw [accepted_begin hne hs, hnew]
        exact .nil
      · rw [accepted_begin hne hs]
        exact nodup_nil
    | warm hw hc _ =>
      have hround : (c.setEpochState _).currentRound = c.currentRound := (rounds_congr c _ hc.rounds hc.roundsHead).1
      refine ⟨?_, ?_⟩
      · rw [accepted_tick hw, hround]
        exact (h hw).named.compacted hc (hu hw)
      · rw [accepted_tick hw]
        exact (h hw).nodup
    | idle hi => exact absurd hi (by simp [hs])
    | warmAbort | trainAbort | endEpoch => exact absurd hs (by have := betweenEpochs_ne c; simp [entered, this])
    | train _ _ hr | nextRound _ _ _ _ _ _ hr => exact absurd hs (by rw [hr.runState]; rintro ⟨⟩)
    | witness | coolEmpty | cool | endEpochPaused => exact absurd hs (by simp [cooled, entered])
  | @warmed from_ _ _ _ _ hw hv hst =>
    obtain ⟨hnamed, hnodup⟩ := h hw
    have hfresh : from_.signer ∉ accepted tr := by
      have hf := hst.fresh
      rw [hnamed.hasWitnessed] at hf
      simpa using of_decide_eq_false (Except.ok.inj hf)
    refine ⟨?_, ?_⟩
    · obtain ⟨_, ws, hws, rfl⟩ := hst
      rw [accepted_report hw, currentRound_setCurrentRound, hws, reverse_cons]
      exact hnamed.snoc (getElem?_of_verifyClient hv)
    · rw [accepted_report hw]
      exact nodup_cons.mpr ⟨hfresh, hnodup⟩
  | warmedUp _ _ _ _ hr => exact absurd hs (by rw [hr.runState]; rintro ⟨⟩)
  | witnessed hw _ _ _ hst =>
    split at hs
    · cases hs
    · rw [hst.runState] at hs
      exact absurd hw (by simp [hs])
  | paused => cases hs
  | resumed => exact absurd hs (betweenEpochs_ne c).1
  | updated hh =>
    have hs : c.runState = .warmup := hs
    exact absurd hh (by simp [halted, hs])

lemma warmupInv_of_run (r : (machine P).Run tr c) (hu : ∀ ev ∈ tr, ev.before.Undisturbed ev.input)
    (hs : c.runState = .warmup) : WarmupInv tr c := by
  refine history_of_steps (I := fun tr c => (∀ ev ∈ tr, ev.before.Undisturbed ev.input) → c.runState = .warmup →
    WarmupInv tr c) ?_ ?_ r hu hs
  · rintro c ⟨_, _, _, hw⟩ _ hs
    exact absurd hw (by simp [halted, hs])
  · intro tr c op c' _ h st hu hs
    have hpast := h fun ev hev => hu ev (mem_cons_of_mem _ hev)
    exact WarmupInv.step hpast (hu _ mem_cons_self) st hs

lemma startRoundTrain_inBounds (now seed tb : Nat) :
    Exec.Safe (fun p => p = .indexOutOfBounds) (c.startRoundTrain P now seed tb) := by
  have hover : ¬ Panic.overflow = .indexOutOfBounds := by rintro ⟨⟩
  refine .bind ?_ fun _ _ => .bind (.ensure fun _ => by rintro ⟨⟩) fun _ _ => .ok _
  unfold nextRound
  split
  · exact .ok _
  · refine .bind (mulU_safe hover _ _ _) fun _ _ => .bind (addU_safe hover _ _ _) fun _ _ => ?_
    exact .bind (addU_safe hover _ _ _) fun _ _ => .ok _

lemma startRoundTrain_failsWith {good : CoordinatorError → Prop} (now seed tb : Nat) :
    Exec.FailsWith good (c.startRoundTrain P now seed tb) := by
  refine .bind ?_ fun _ => .bind (.ensure _ _) fun _ => .ok _
  unfold nextRound
  split
  · exact .ok _
  · exact .bind (.checked _ _ _) fun _ => .bind (.checked _ _ _) fun _ => .bind (.checked _ _ _) fun _ => .ok _

lemma warmupWitness_inBounds {dup : Bool}
    (h : hasWitnessed c.epochState.clients.toList from_ c.currentRound.witnesses.toList = .ok dup) :
    Exec.Safe (fun p => p = .indexOutOfBounds) (c.warmupWitness P from_ w now seed) := by
  unfold warmupWitness
  split
  · exact .fail _
  · split
    · exact .ok _
    · refine .bind (.require _ _) fun _ _ => .bind (.require _ _) fun _ _ => .bind ?_ fun _ _ => ?_
      · unfold pushWitness
        rw [h, ok_bind]
        exact .bind (.require _ _) fun _ _ => .bind (.okOr _ _) fun _ _ => .ok _
      · split
        · exact startRoundTrain_inBounds _ _ _
        · exact .ok _

lemma warmupWitness_not_duplicate
    (h : hasWitnessed c.epochState.clients.toList from_ c.currentRound.witnesses.toList = .ok false) :
    Exec.FailsWith (fun e => e ≠ .duplicateWitness) (c.warmupWitness P from_ w now seed) := by
  unfold warmupWitness
  split
  · exact .fail (by rintro ⟨⟩)
  · split
    · exact .ok _
    · refine .bind (.require _ (by rintro ⟨⟩)) fun _ => .bind (.require _ (by rintro ⟨⟩)) fun _ => .bind ?_ fun _ => ?_
      · unfold pushWitness
        rw [h, ok_bind, (require_eq_ok (u := ())).mpr rfl, ok_bind]
        exact .bind (.okOr _ (by rintro ⟨⟩)) fun _ => .ok _
      · split
        · exact startRoundTrain_failsWith _ _ _
        · exact .ok _

lemma countsByClient_of_named (hs : c.runState = .warmup)
    (hnamed : Named c.roster c.currentRound.witnesses.toList keys.reverse) (hn : keys.Nodup) :
    CountsByClient P keys c := by
  refine ⟨hn, fun from_ w now seed => ?_⟩
  have hdup : hasWitnessed c.epochState.clients.toList from_ c.currentRound.witnesses.toList
      = .ok (decide (from_.signer ∈ keys)) := by
    rw [hnamed.hasWitnessed from_]
    simp
  refine ⟨fun h => warmupWitness_inBounds hdup _ h rfl, ?_, ?_⟩
  · intro c' h
    obtain ⟨ht, _⟩ | ⟨_, _, c1, hst, _⟩ := warmupWitness_inv h
    · rw [hs] at ht
      cases ht
    · have hf := hst.fresh
      rw [hdup] at hf
      exact of_decide_eq_false (Except.ok.inj hf)
  · intro h
    by_contra hnot
    rw [decide_eq_false hnot] at hdup
    exact warmupWitness_not_duplicate hdup _ h rfl

/-- In every run whose ticks in warmup find everyone healthy up to the last stored index, reports in warmup are counted by
client. -/
theorem warmup_counted {tr : Record} (r : (machine P).Run tr c) (hu : ∀ ev ∈ tr, ev.before.Undisturbed ev.input)
    (hs : c.runState = .warmup) : CountsByClient P (accepted tr) c := by
  obtain ⟨hnamed, hnodup⟩ := warmupInv_of_run r hu hs
  exact countsByClient_of_named hs hnamed hnodup

/-- Three clients in warmup and what happens to them. -/
def warming (ops : List Operation) : Record × Coordinator :=
  (machine .zero).play [] .small (.tick (some threePending) 5 0 :: ops)

instance (c : Coordinator) : (op : Operation) → Decidable (c.Undisturbed op)
  | .tick .. => inferInstanceAs (Decidable (_ → _))
  | .warmupWitness .. | .witness .. | .healthCheck .. | .checkpoint .. | .withdraw .. | .eject .. | .pause ..
  | .resume .. | .update .. => .isTrue trivial

/-- The second client has reported, and the third has left. -/
def thirdLeft : Record × Coordinator := warming [.warmupWitness ⟨2, 0⟩ (report 0 1) 6 0, .eject 2, .tick none 7 0]

/-- The report of the second client stays its own when the third one leaves. -/
theorem warmup_counted_thirdLeft : thirdLeft.2.runState = .warmup ∧ thirdLeft.2.roster = [1, 2]
    ∧ accepted thirdLeft.1 = [2] ∧ CountsByClient .zero [2] thirdLeft.2 := by
  obtain ⟨hs, hroster, hacc, hu⟩ : thirdLeft.2.runState = .warmup ∧ thirdLeft.2.roster = [1, 2]
      ∧ accepted thirdLeft.1 = [2] ∧ ∀ ev ∈ thirdLeft.1, ev.before.Undisturbed ev.input := by
    decide +kernel
  exact ⟨hs, hroster, hacc, hacc ▸ warmup_counted (run_small _) hu hs⟩

/-- What a report in warmup returns, without the state. -/
def outcome (c : Coordinator) (from_ : NodeIdentity) (index : Nat) : Exec CoordinatorError Panic Unit := do
  let _ ← c.warmupWitness .zero from_ (report 0 index) 8 0
  .ok ()

lemma error_of_outcome {index : Nat} {f : Fault CoordinatorError Panic} (h : c.outcome from_ index = .error f) :
    c.warmupWitness .zero from_ (report 0 index) 8 0 = .error f := by
  obtain h | ⟨_, _, h⟩ := bind_eq_error.mp h
  · exact h
  · cases h

/-- The second client has reported, and the first has left. -/
def firstLeft : Record × Coordinator := warming [.warmupWitness ⟨2, 0⟩ (report 0 1) 6 0, .eject 0, .tick none 7 0]

/-- The third client has reported, and the first has left. -/
def namesNobody : Record × Coordinator := warming [.warmupWitness ⟨3, 0⟩ (report 0 2) 6 0, .eject 0, .tick none 7 0]

/-- The second client has reported, and the first has left: the second may report again, and the third, which has not
reported, is refused. If it was the third that has reported, the next call aborts. -/
theorem warmup_miscounted :
    (∃ tr c, (machine .zero).Run tr c ∧ c.runState = .warmup ∧ accepted tr = [2]
      ∧ (∃ w now seed c', c.warmupWitness .zero ⟨2, 0⟩ w now seed = .ok c')
      ∧ (∃ w now seed, c.warmupWitness .zero ⟨3, 0⟩ w now seed = Exec.fail .duplicateWitness)
      ∧ ¬ CountsByClient .zero (accepted tr) c)
      ∧ ∃ tr c, (machine .zero).Run tr c ∧ c.runState = .warmup
        ∧ ∃ from_ w now seed, c.warmupWitness .zero from_ w now seed = Exec.abort .indexOutOfBounds := by
  obtain ⟨hs, hacc, hok, hdup⟩ : firstLeft.2.runState = .warmup ∧ accepted firstLeft.1 = [2]
      ∧ outcome firstLeft.2 ⟨2, 0⟩ 0 = .ok () ∧ outcome firstLeft.2 ⟨3, 0⟩ 1 = Exec.fail .duplicateWitness := by
    decide +kernel
  obtain ⟨hs', hout⟩ : namesNobody.2.runState = .warmup
      ∧ outcome namesNobody.2 ⟨2, 0⟩ 0 = Exec.abort .indexOutOfBounds := by
    decide +kernel
  obtain ⟨c', hok, _⟩ := bind_eq_ok.mp hok
  have hdup := error_of_outcome hdup
  refine ⟨⟨firstLeft.1, firstLeft.2, run_small _, hs, hacc, ⟨_, _, _, c', hok⟩, ⟨_, _, _, hdup⟩, fun hcount => ?_⟩,
    namesNobody.1, namesNobody.2, run_small _, hs', _, _, _, _, error_of_outcome hout⟩
  have hmem := (hcount.2 ⟨3, 0⟩ (report 0 1) 8 0).2.2 hdup
  rw [hacc] at hmem
  exact absurd hmem (by decide)

end Leviathan.Coordinator
