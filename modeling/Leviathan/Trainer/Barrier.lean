import Leviathan.Lib.Run

/-!
# The barrier of the model threads

`shared/core/src/cancellable_barrier.rs`, by which the model threads of a trainer wait for each other. A call of `wait`
holds the lock except while it waits for the condition variable, so it takes a step up to there and one each time it
is woken (`goOn`). The steps of all calls come in any order. A condition variable may wake a call for no reason, so any
call may go on at any time; `asleep` says that nothing has woken it. A generation that does not fit into a `usize` is a
panic, so there is none in a run.

`reset` ends a generation and wakes nobody, so what holds of the others need not hold of one that is reset.
-/

namespace Leviathan
open List

structure BarrierState where
  count : Nat
  total : Nat
  generation : Nat
  cancelled : Bool
deriving DecidableEq

/-- A call of `wait` that is waiting, with the generation it has read. -/
structure WaitCall where
  generation : Nat
  asleep : Bool
deriving DecidableEq

structure CancellableBarrier where
  state : BarrierState
  calls : List WaitCall
deriving DecidableEq

inductive BarrierInput where
  | wait
  | goOn (call : Nat)
  | cancel
  | reset

/-- What becomes of a generation: a call counts for it, returns `Ok` or `Err`, or it is reset. -/
inductive BarrierEffect where
  | arrived (generation : Nat)
  | passed (generation : Nat)
  | refused (generation : Nat)
  | reset (generation : Nat)
deriving DecidableEq

namespace CancellableBarrier

def new (n : Nat) : CancellableBarrier := ⟨⟨0, n, 0, false⟩, []⟩

def notifyAll (calls : List WaitCall) : List WaitCall := calls.map fun w => { w with asleep := false }

/-- The condition of the loop of `wait`. -/
def keepsWaiting (state : BarrierState) (w : WaitCall) : Bool :=
  state.count < state.total && state.generation == w.generation && !state.cancelled

/-- Rust `wait`. The lock is held, so the condition of the loop is true the first time. -/
def wait (b : CancellableBarrier) : CancellableBarrier × List BarrierEffect :=
  let generation := b.state.generation
  if b.state.cancelled then
    (b, [.refused generation])
  else if b.state.count + 1 < b.state.total then
    (⟨{ b.state with count := b.state.count + 1 }, b.calls ++ [⟨generation, true⟩]⟩, [.arrived generation])
  else
    (⟨{ b.state with count := 0, generation := generation + 1 }, notifyAll b.calls⟩,
      [.arrived generation, .passed generation])

/-- The rest of the loop of `wait`, after a call has been woken. -/
def goOn (b : CancellableBarrier) (i : Nat) (w : WaitCall) : CancellableBarrier × List BarrierEffect :=
  if keepsWaiting b.state w then
    ({ b with calls := b.calls.set i { w with asleep := true } }, [])
  else
    ({ b with calls := b.calls.eraseIdx i },
      [if b.state.cancelled then .refused w.generation else .passed w.generation])

def step (b : CancellableBarrier) : BarrierInput → Except Unit (CancellableBarrier × List BarrierEffect)
  | .wait => if b.wait.1.state.generation < 2 ^ 64 then .ok b.wait else .error ()
  | .goOn i =>
    match b.calls[i]? with
    | none => .error ()
    | some w => .ok (b.goOn i w)
  | .cancel => .ok (⟨{ b.state with cancelled := true }, notifyAll b.calls⟩, [])
  | .reset =>
    if b.state.generation + 1 < 2 ^ 64 then
      .ok (⟨{ b.state with cancelled := false, count := 0, generation := b.state.generation + 1 }, b.calls⟩,
        [.reset b.state.generation])
    else .error ()

/-- A barrier for `n` threads, of which there is at least one (the assertion of `new`). -/
def machine (n : Nat) : Machine CancellableBarrier BarrierInput (List BarrierEffect) Unit where
  init b := 0 < n ∧ n < 2 ^ 64 ∧ b = new n
  step := step

/-- Every generation has been reset or is complete, but for the current one, and only calls of that one may sleep. -/
structure InStep (n : Nat) (past : List BarrierEffect) (b : CancellableBarrier) : Prop where
  total : b.state.total = n
  count : b.state.count < n
  arrived : past.count (.arrived b.state.generation) = b.state.count
  later : ∀ g, b.state.generation < g → .arrived g ∉ past
  ended : ∀ g < b.state.generation, past.count (.arrived g) ≤ n ∧ (.reset g ∈ past ∨ past.count (.arrived g) = n)
  passed : ∀ g, .passed g ∈ past → g < b.state.generation
  calls : ∀ w ∈ b.calls, w.generation ≤ b.state.generation ∧ (w.asleep = true → .reset w.generation ∈ past
    ∨ w.generation = b.state.generation ∧ b.state.cancelled = false)

variable {n : Nat} {past : List BarrierEffect} {b b' : CancellableBarrier} {fx : List BarrierEffect}

lemma mem_notifyAll {calls : List WaitCall} {w : WaitCall} (h : w ∈ notifyAll calls) :
    w.asleep = false ∧ ∃ w' ∈ calls, w'.generation = w.generation := by
  obtain ⟨w', hw', rfl⟩ := mem_map.mp h
  exact ⟨rfl, w', hw', rfl⟩

lemma InStep.wait (h : InStep n past b) : InStep n (b.wait.2.reverse ++ past) b.wait.1 := by
  obtain ⟨htotal, hcount, harrived, hlater, hended, hpassed, hcalls⟩ := h
  rw [CancellableBarrier.wait]
  split_ifs with hc hlt
  · constructor <;> grind
  · constructor <;> grind
  · -- the last call completes the generation and wakes the others, so no call sleeps
    have hfull : b.state.count + 1 = n := by omega
    constructor <;> grind [mem_notifyAll]

lemma InStep.goOn {i : Nat} {w : WaitCall} (h : InStep n past b) (hw : w ∈ b.calls) :
    InStep n ((b.goOn i w).2.reverse ++ past) (b.goOn i w).1 := by
  obtain ⟨htotal, hcount, harrived, hlater, hended, hpassed, hcalls⟩ := h
  rw [CancellableBarrier.goOn]
  split_ifs with hk hc
  · have hsame : b.state.generation = w.generation ∧ b.state.cancelled = false := by grind [keepsWaiting]
    constructor <;> grind [mem_or_eq_of_mem_set]
  · constructor <;> grind [mem_of_mem_eraseIdx]
  · have hover : w.generation < b.state.generation := by grind [keepsWaiting]
    constructor <;> grind [mem_of_mem_eraseIdx]

/-- Arrivals of a generation are counted until the last one ends it. -/
lemma InStep.step {i : BarrierInput} (h : InStep n past b) (st : b.step i = .ok (b', fx)) :
    InStep n (fx.reverse ++ past) b' := by
  cases i with
  | wait =>
    rw [CancellableBarrier.step] at st
    split at st
    · obtain ⟨rfl, rfl⟩ := Prod.mk.inj (Except.ok.inj st)
      exact h.wait
    · cases st
  | goOn i =>
    rw [CancellableBarrier.step] at st
    split at st
    · cases st
    · rename_i w hw
      obtain ⟨rfl, rfl⟩ := Prod.mk.inj (Except.ok.inj st)
      exact h.goOn (mem_of_getElem? hw)
  | cancel =>
    cases st
    obtain ⟨htotal, hcount, harrived, hlater, hended, hpassed, hcalls⟩ := h
    constructor <;> grind [mem_notifyAll]
  | reset =>
    rw [CancellableBarrier.step] at st
    split at st
    · cases st
      obtain ⟨htotal, hcount, harrived, hlater, hended, hpassed, hcalls⟩ := h
      constructor <;> grind
    · cases st

lemma inStep_of_run {tr : List (Event _ _ _)} (r : (machine n).Run tr b) : InStep n (log tr) b := by
  refine r.history (P := fun tr b => InStep n (log tr) b) ?_ ?_
  · rintro _ ⟨hn, _, rfl⟩
    constructor <;> simp [new, log, hn]
  · intro tr b i b' fx _ h st
    exact h.step st

/-- A call passes only a generation that all of its threads have reached, and no generation is reached by more. No wake-up is
lost: a call sleeps only while the loop of `wait` would keep it waiting. Generations that are reset are excepted. -/
theorem passed_together {tr : List (Event _ _ _)} (r : (machine n).Run tr b) :
    (∀ g, .passed g ∈ log tr → .reset g ∈ log tr ∨ (log tr).count (.arrived g) = n)
      ∧ (∀ g, (log tr).count (.arrived g) ≤ n)
      ∧ ∀ w ∈ b.calls, w.asleep = true → .reset w.generation ∈ log tr ∨ keepsWaiting b.state w = true := by
  have h := inStep_of_run r
  refine ⟨fun g hg => (h.ended g (h.passed g hg)).2, ?_, ?_⟩
  · intro g
    obtain hlt | rfl | hgt := lt_trichotomy g b.state.generation
    · exact (h.ended g hlt).1
    · exact h.arrived ▸ h.count.le
    · rw [count_eq_zero.mpr (h.later g hgt)]
      exact n.zero_le
  · intro w hw hasleep
    refine ((h.calls w hw).2 hasleep).imp_right ?_
    rintro ⟨hgen, hc⟩
    simp [keepsWaiting, hgen, hc, h.total, h.count]

def twoPass := (machine 2).play [] (new 2) [.wait, .wait, .goOn 0]

/-- The first of two threads goes on when both have arrived. -/
theorem passed_together_twoPass : .passed 0 ∈ log twoPass.1 ∧ (log twoPass.1).count (.arrived 0) = 2 := by
  have r : (machine 2).Run twoPass.1 twoPass.2 :=
    (Machine.Run.init (m := machine 2) ⟨by decide, by decide, rfl⟩).play _
  exact ⟨by decide, ((passed_together r).1 0 (by decide)).resolve_left (by decide)⟩

-- a call that was woken by `cancel` passes alone if the barrier is reset before it goes on
example : log ((machine 2).play [] (new 2) [.wait, .cancel, .reset, .goOn 0]).1
    = [.passed 0, .reset 0, .arrived 0] := by
  decide

end CancellableBarrier
end Leviathan
