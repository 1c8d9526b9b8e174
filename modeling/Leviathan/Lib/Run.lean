import Mathlib.Algebra.BigOperators.Group.List.Basic
import Mathlib.Algebra.Order.Ring.Int

/-!
# Machines and their runs

A `Machine` is a set of initial states and a step function that accepts or rejects an input. A run
`m.Run tr s` is a derivation that `m` can be in state `s` after some sequence of inputs; `tr` records
the accepted steps, newest first. A rejected input changes neither the state nor the record.

`Run.invariant` is the rule for state invariants, `Run.history` the one for statements about the state and the record,
and `Run.always_iff` the one for what holds in just those runs whose steps are all good. `play` executes a list of
inputs, so that a concrete run is obtained by evaluation.

A step that is a sequence of smaller ones is described by a `Chain` of them. Where a step outputs the
effects it had, `log` lists the effects of a whole run, newest first, and `tally` adds up what they are worth.
-/

namespace Leviathan
open List

/-- One accepted step of a machine. -/
structure Event (σ ι ω : Type) where
  before : σ
  input : ι
  output : ω
  after : σ

/-- A machine that accepts or rejects inputs. -/
structure Machine (σ ι ω φ : Type) where
  init : σ → Prop
  step : σ → ι → Except φ (σ × ω)

namespace Machine
variable {σ ι ω φ : Type} {m : Machine σ ι ω φ} {P : List (Event σ ι ω) → σ → Prop} {ev : Event σ ι ω}

/-- The runs of a machine; the record lists the accepted steps, newest first. -/
inductive Run (m : Machine σ ι ω φ) : List (Event σ ι ω) → σ → Prop where
  | init {s} :
    m.init s →
    Run m [] s
  | accept {tr s i s' o} :
    Run m tr s →
    m.step s i = .ok (s', o) →
    Run m (⟨s, i, o, s'⟩ :: tr) s'
  | reject {tr s i e} :
    Run m tr s →
    m.step s i = .error e →
    Run m tr s

/-- What holds initially and is kept by every accepted step holds in every state of every run. -/
lemma Run.invariant {I : σ → Prop} {tr s}
    (h0 : ∀ s, m.init s → I s)
    (hs : ∀ s i s' o, I s → m.step s i = .ok (s', o) → I s')
    (r : m.Run tr s) : I s := by
  induction r with
  | init h => exact h0 _ h
  | accept _ st ih => exact hs _ _ _ _ ih st
  | reject _ _ ih => exact ih

/-- The history rule: a relation between record and state that every accepted step extends. -/
lemma Run.history {tr s} (h0 : ∀ s, m.init s → P [] s)
    (hs : ∀ tr s i s' o, m.Run tr s → P tr s → m.step s i = .ok (s', o) → P (⟨s, i, o, s'⟩ :: tr) s')
    (r : m.Run tr s) : P tr s := by
  induction r with
  | init h => exact h0 _ h
  | accept r st ih => exact hs _ _ _ _ _ r ih st
  | reject _ _ ih => exact ih

lemma Run.cons_inv {tr s} (r : m.Run (ev :: tr) s) :
    m.Run tr ev.before ∧ m.step ev.before ev.input = .ok (ev.after, ev.output) ∧ s = ev.after := by
  generalize e : ev :: tr = tr' at r
  induction r with
  | init _ => cases e
  | accept r st _ =>
    cases e
    exact ⟨r, st, rfl⟩
  | reject _ _ ih => exact ih e

/-- Each event of a run is a step from the state that the run before it reaches. -/
lemma Run.split {tr1 tr2 s} (r : m.Run (tr1 ++ ev :: tr2) s) :
    m.Run tr2 ev.before ∧ m.step ev.before ev.input = .ok (ev.after, ev.output) := by
  induction tr1 generalizing s with
  | nil =>
    obtain ⟨r', st, _⟩ := r.cons_inv
    exact ⟨r', st⟩
  | cons ev' tr1 ih =>
    obtain ⟨r', _, _⟩ := r.cons_inv
    exact ih r'

lemma Run.mem {tr s} (r : m.Run tr s) (hm : ev ∈ tr) :
    ∃ tr', m.Run tr' ev.before ∧ m.step ev.before ev.input = .ok (ev.after, ev.output) := by
  obtain ⟨tr1, tr2, rfl⟩ := append_of_mem hm
  exact ⟨tr2, r.split⟩

/-- What holds after every step of a record. -/
def Always (P : List (Event σ ι ω) → σ → Prop) (tr : List (Event σ ι ω)) : Prop :=
  ∀ later ev earlier, tr = later ++ ev :: earlier → P (ev :: earlier) ev.after

lemma Run.of_always {tr s} (h0 : ∀ s, m.init s → P [] s) (r : m.Run tr s) (h : Always P tr) : P tr s := by
  refine r.history (P := fun tr s => Always P tr → P tr s) (fun s hs _ => h0 s hs) ?_ h
  intro tr s i s' o _ _ _ h
  exact h [] _ _ rfl

/-- What every good step keeps and every other step breaks holds after every step of a run just if all of them are good. -/
lemma Run.always_iff {Q : Event σ ι ω → List (Event σ ι ω) → Prop} {tr s} (h0 : ∀ s, m.init s → P [] s)
    (hs : ∀ tr (ev : Event σ ι ω), m.Run tr ev.before → P tr ev.before →
      m.step ev.before ev.input = .ok (ev.after, ev.output) → (P (ev :: tr) ev.after ↔ Q ev tr))
    (r : m.Run tr s) : Always P tr ↔ ∀ later ev earlier, tr = later ++ ev :: earlier → Q ev earlier := by
  constructor
  · rintro h later ev earlier rfl
    obtain ⟨r, st⟩ := r.split
    have hbefore : Always P earlier := by
      rintro later' ev' earlier' rfl
      exact h (later ++ ev :: later') ev' earlier' (by simp)
    exact (hs _ ev r (r.of_always h0 hbefore) st).mp (h later ev earlier rfl)
  · rintro h later ev earlier rfl
    obtain ⟨r, st⟩ := r.split
    have hbefore : P earlier ev.before := by
      refine r.history (P := fun tr s => (∃ later, earlier = later ++ tr) → P tr s) (fun s hs _ => h0 s hs) ?_ ⟨[], rfl⟩
      rintro tr s i s' o r' ih st ⟨later', rfl⟩
      refine (hs tr ⟨s, i, o, s'⟩ r' (ih ⟨later' ++ [⟨s, i, o, s'⟩], by simp⟩) st).mpr ?_
      exact h (later ++ ev :: later') _ tr (by simp)
    exact (hs _ ev r hbefore st).mpr (h later ev earlier rfl)

lemma Run.always_iff_forall_mem {Q : Event σ ι ω → Prop} {tr s} (h0 : ∀ s, m.init s → P [] s)
    (hs : ∀ tr (ev : Event σ ι ω), m.Run tr ev.before → P tr ev.before →
      m.step ev.before ev.input = .ok (ev.after, ev.output) → (P (ev :: tr) ev.after ↔ Q ev))
    (r : m.Run tr s) : Always P tr ↔ ∀ ev ∈ tr, Q ev := by
  refine (r.always_iff h0 hs).trans ⟨?_, ?_⟩
  · intro h ev hev
    obtain ⟨later, earlier, rfl⟩ := append_of_mem hev
    exact h later ev earlier rfl
  · rintro h later ev earlier rfl
    exact h ev (by simp)

/-- Execute a list of inputs, oldest first, extending a record. -/
def play (m : Machine σ ι ω φ) : List (Event σ ι ω) → σ → List ι → List (Event σ ι ω) × σ
  | tr, s, [] => (tr, s)
  | tr, s, i :: is =>
    match m.step s i with
    | .ok (s', o) => m.play (⟨s, i, o, s'⟩ :: tr) s' is
    | .error _ => m.play tr s is

/-- Playing inputs from a run gives a run. -/
lemma Run.play {tr s} (r : m.Run tr s) (is : List ι) :
    m.Run (m.play tr s is).1 (m.play tr s is).2 := by
  induction is generalizing tr s with
  | nil => exact r
  | cons i is ih =>
    unfold Machine.play
    split
    · rename_i st
      exact ih (.accept r st)
    · exact ih r

lemma play_append (tr : List (Event σ ι ω)) (s : σ) (is js : List ι) :
    m.play tr s (is ++ js) = m.play (m.play tr s is).1 (m.play tr s is).2 js := by
  induction is generalizing tr s with
  | nil => rfl
  | cons i is ih =>
    simp only [cons_append, play]
    split
    · exact ih _ _
    · exact ih _ _

lemma input_of_mem_play {tr : List (Event σ ι ω)} {s : σ} {is : List ι} (h : ev ∈ (m.play tr s is).1) :
    ev ∈ tr ∨ ev.input ∈ is := by
  induction is generalizing tr s with
  | nil => exact .inl h
  | cons i is ih =>
    unfold play at h
    split at h
    · rcases ih h with h | h
      · cases h with
        | head => exact .inr mem_cons_self
        | tail _ h => exact .inl h
      · exact .inr (mem_cons_of_mem _ h)
    · rcases ih h with h | h
      · exact .inl h
      · exact .inr (mem_cons_of_mem _ h)

lemma play_last (m : Machine σ ι ω φ) (tr : List (Event σ ι ω)) (s : σ) (is : List ι) (i : ι)
    (h : (m.step (m.play tr s is).2 i).isOk = true) :
    ∃ o, m.step (m.play tr s is).2 i = .ok ((m.play tr s (is ++ [i])).2, o) := by
  rw [play_append]
  simp only [play]
  cases hs : m.step (m.play tr s is).2 i with
  | ok a => exact ⟨a.2, rfl⟩
  | error e =>
    rw [hs] at h
    cases h

lemma eq_take_append_get (tr : List (Event σ ι ω)) (i : Fin tr.length) :
    tr = tr.take i ++ tr.get i :: tr.drop (i + 1) := by
  rw [get_eq_getElem, ← drop_eq_getElem_cons, take_append_drop]

end Machine

section Chain
variable {σ ι ω φ : Type} {R : σ → List ω → σ → Prop} {P : List ω → σ → Prop}

/-- A sequence of small steps and the effects they had, in order. -/
inductive Chain (R : σ → List ω → σ → Prop) : σ → List ω → σ → Prop where
  | nil {s} :
    Chain R s [] s
  | snoc {s fx s' fx' s''} :
    Chain R s fx s' →
    R s' fx' s'' →
    Chain R s (fx ++ fx') s''

lemma Chain.single {s fx s'} (h : R s fx s') : Chain R s fx s' := by
  simpa using Chain.snoc .nil h

lemma Chain.append {s fx s' fx' s''} (h : Chain R s fx s') (h' : Chain R s' fx' s'') :
    Chain R s (fx ++ fx') s'' := by
  induction h' with
  | nil => simpa using h
  | snoc _ st ih =>
    rw [← append_assoc]
    exact .snoc ih st

lemma Chain.mono {R' : σ → List ω → σ → Prop} (hR : ∀ s fx s', R s fx s' → R' s fx s') {s fx s'}
    (h : Chain R s fx s') : Chain R' s fx s' := by
  induction h with
  | nil => exact .nil
  | snoc _ st ih => exact .snoc ih (hR _ _ _ st)

lemma Chain.invariant {I : σ → Prop} (hs : ∀ s fx s', I s → R s fx s' → I s')
    {s fx s'} (h : I s) (c : Chain R s fx s') : I s' := by
  induction c with
  | nil => exact h
  | snoc _ st ih => exact hs _ _ _ ih st

/-- What each step keeps about the log, a chain keeps. -/
lemma Chain.history (hs : ∀ log s fx s', P log s → R s fx s' → P (fx.reverse ++ log) s') {log s fx s'}
    (h : P log s) (c : Chain R s fx s') : P (fx.reverse ++ log) s' := by
  induction c with
  | nil => exact h
  | snoc _ st ih =>
    rw [reverse_append, append_assoc]
    exact hs _ _ _ _ ih st

/-- The effects of the recorded steps, newest first. -/
def log (tr : List (Event σ ι (List ω))) : List ω := tr.flatMap fun ev => ev.output.reverse

@[simp] lemma log_cons (ev : Event σ ι (List ω)) (tr : List (Event σ ι (List ω))) :
    log (ev :: tr) = ev.output.reverse ++ log tr := rfl

lemma mem_log {e : ω} {tr : List (Event σ ι (List ω))} : e ∈ log tr ↔ ∃ ev ∈ tr, e ∈ ev.output := by
  simp only [log, mem_flatMap, mem_reverse]

lemma Machine.Run.log_history {m : Machine σ ι (List ω) φ} {tr s}
    (hcut : ∀ s i s' fx, m.step s i = .ok (s', fx) → Chain R s fx s') (h0 : ∀ s, m.init s → P [] s)
    (hs : ∀ log s fx s', P log s → R s fx s' → P (fx.reverse ++ log) s') (r : m.Run tr s) : P (log tr) s :=
  r.history (P := fun tr s => P (log tr) s) h0 fun _ _ _ _ _ _ h st => (hcut _ _ _ _ st).history hs h

end Chain

section Tally
variable {ω : Type} {f : ω → Nat} {log : List ω}

/-- What the effects of a log add up to. -/
def tally (f : ω → Nat) (log : List ω) : Nat := (log.map f).sum

@[simp] lemma tally_nil : tally f [] = 0 := rfl

@[simp] lemma tally_cons (e : ω) (log : List ω) : tally f (e :: log) = f e + tally f log := by
  simp [tally]

@[simp] lemma tally_append (log log' : List ω) : tally f (log ++ log') = tally f log + tally f log' := by
  simp [tally]

@[simp] lemma tally_reverse (log : List ω) : tally f log.reverse = tally f log := by
  simp [tally, sum_reverse]

lemma tally_eq_zero (h : ∀ e ∈ log, f e = 0) : tally f log = 0 := by
  refine sum_eq_zero fun n hn => ?_
  obtain ⟨e, he, rfl⟩ := mem_map.mp hn
  exact h e he

lemma tally_le {g : ω → Nat} (h : ∀ e ∈ log, f e ≤ g e) : tally f log ≤ tally g log := by
  induction log with
  | nil => exact Nat.le_refl _
  | cons e log ih =>
    rw [tally_cons, tally_cons]
    exact Nat.add_le_add (h e mem_cons_self) (ih fun e' he' => h e' (mem_cons_of_mem _ he'))

end Tally
end Leviathan
