import Mathlib.Algebra.BigOperators.Group.List.Basic
import Mathlib.Algebra.Order.Ring.Int

/-!
# Fallible computations

The result type of the modelled functions. A Rust function that returns `Result<T, E>` and may also abort (an overflow
check, an `unwrap`, an assertion) becomes a function into `Exec ε π T`: the fault is either an error value `ε` or a
panic `π`. In both cases the caller sees no new state, as after a failed transaction.

The lemmas read a successful computation backwards. `Safe bad x` says that `x` does not end in a panic of the kind
`bad`, and its rules follow the shape of a computation; `FailsWith good x` says that its error values are all of the
kind `good`.
-/

namespace Leviathan
open List

/-- Why a computation produced no result: an error value or a panic. -/
inductive Fault (ε π : Type) where
  | error (e : ε)
  | panic (p : π)
deriving DecidableEq, Repr

/-- A computation that yields a value or a fault. -/
abbrev Exec (ε π α : Type) := Except (Fault ε π) α

namespace Exec
variable {ε ε' π α β : Type} {a : α} {o : Option α} {l : List α} {l' : List β} {x : Exec ε π α} {f : α → Exec ε π β}
  {b : β} {e : ε} {p : π} {u : Unit} {g : ε → ε'}

@[simp] lemma bind_eq_ok : (x >>= f) = .ok b ↔ ∃ a, x = .ok a ∧ f a = .ok b := by
  cases x with
  | ok a =>
    refine ⟨fun h => ⟨a, rfl, h⟩, ?_⟩
    rintro ⟨a', e, h⟩
    cases e
    exact h
  | error e =>
    refine ⟨fun h => ?_, ?_⟩
    · cases h
    · rintro ⟨a, e, _⟩
      cases e

@[simp] lemma ok_bind : ((Except.ok a : Exec ε π α) >>= f) = f a := rfl

@[simp] lemma error_bind {e : Fault ε π} : ((Except.error e : Exec ε π α) >>= f) = .error e := rfl

@[simp] lemma pure_eq : (pure a : Exec ε π α) = .ok a := rfl

lemma ok_pair {a' : α} {b' : β} : (.ok (a, b) : Exec ε π (α × β)) = .ok (a', b') ↔ a = a' ∧ b = b' := by
  rw [Except.ok.injEq, Prod.mk.injEq]

lemma bind_eq_error {e : Fault ε π} : (x >>= f) = .error e ↔ x = .error e ∨ ∃ a, x = .ok a ∧ f a = .error e := by
  cases x with
  | ok a =>
    refine ⟨fun h => .inr ⟨a, rfl, h⟩, ?_⟩
    rintro (h | ⟨a', e, h⟩)
    · cases h
    · cases e
      exact h
  | error e' =>
    refine ⟨fun h => ?_, ?_⟩
    · cases h
      exact .inl rfl
    · rintro (h | ⟨a, h, _⟩)
      · cases h
        rfl
      · cases h

def fail (e : ε) : Exec ε π α := .error (.error e)

def abort (p : π) : Exec ε π α := .error (.panic p)

@[simp] lemma fail_ne_ok : ¬ (fail e : Exec ε π α) = .ok a := by rintro ⟨⟩

@[simp] lemma abort_ne_ok : ¬ (abort p : Exec ε π α) = .ok a := by rintro ⟨⟩

/-- Continue only if `c` holds (Rust `if !c { return Err(e) }`). -/
def require (c : Prop) [Decidable c] (e : ε) : Exec ε π Unit :=
  if c then .ok () else fail e

@[simp] lemma require_eq_ok {c : Prop} [Decidable c] : (require c e : Exec ε π Unit) = .ok u ↔ c := by
  unfold require
  split <;> simp [*]

lemma require_of {c : Prop} [Decidable c] (h : c) : (require c e : Exec ε π Unit) = .ok () := if_pos h

/-- Abort unless `c` holds (Rust `assert!(c)`). -/
def ensure (c : Prop) [Decidable c] (p : π) : Exec ε π Unit :=
  if c then .ok () else abort p

@[simp] lemma ensure_eq_ok {c : Prop} [Decidable c] : (ensure c p : Exec ε π Unit) = .ok u ↔ c := by
  unfold ensure
  split <;> simp [*]

lemma checked_eq_ok {c : Prop} [Decidable c] {x : α} :
    ((if c then .ok x else abort p : Exec ε π α) = .ok a) ↔ c ∧ a = x := by
  split
  · simp only [Except.ok.injEq, true_and, *]
    exact eq_comm
  · simp [*]

lemma ensure_of {c : Prop} [Decidable c] (h : c) : (ensure c p : Exec ε π Unit) = .ok () := by
  simp [ensure, h]

/-- The value of an option, or an error. -/
def okOr (o : Option α) (e : ε) : Exec ε π α :=
  match o with
  | some a => .ok a
  | none => fail e

@[simp] lemma okOr_eq_ok : (okOr o e : Exec ε π α) = .ok a ↔ o = some a := by
  cases o <;> simp [okOr]

@[simp] lemma okOr_eq_panic : ¬ (okOr o e : Exec ε π α) = .error (.panic p) := by
  cases o <;> simp [okOr, fail]

/-- The value of an option, or a panic. -/
def unwrap (o : Option α) (p : π) : Exec ε π α :=
  match o with
  | some a => .ok a
  | none => abort p

@[simp] lemma unwrap_eq_ok : (unwrap o p : Exec ε π α) = .ok a ↔ o = some a := by
  cases o <;> simp [unwrap]

@[simp] lemma unwrap_some : (unwrap (some a) p : Exec ε π α) = .ok a := rfl

/-- Change the error values of a computation, keeping its panics. -/
def mapErr (g : ε → ε') : Exec ε π α → Exec ε' π α
  | .ok a => .ok a
  | .error (.error e) => .error (.error (g e))
  | .error (.panic p) => .error (.panic p)

@[simp] lemma mapErr_eq_ok : mapErr g x = .ok a ↔ x = .ok a := by
  rcases x with (e | p) | b <;> simp [mapErr]

@[simp] lemma mapErr_eq_panic : mapErr g x = .error (.panic p) ↔ x = .error (.panic p) := by
  rcases x with (e | p) | b <;> simp [mapErr]

lemma mapM_eq_ok : l.mapM f = .ok l' ↔ List.Forall₂ (fun a b => f a = .ok b) l l' := by
  induction l generalizing l' with
  | nil =>
    rw [mapM_nil, List.forall₂_nil_left_iff, pure_eq, Except.ok.injEq]
    exact eq_comm
  | cons a l ih =>
    rw [mapM_cons]
    simp only [bind_eq_ok, pure_eq, Except.ok.injEq, ih, List.forall₂_cons_left_iff]
    constructor
    · rintro ⟨b, hb, bs, hbs, rfl⟩
      exact ⟨b, bs, hb, hbs, rfl⟩
    · rintro ⟨b, bs, hb, hbs, rfl⟩
      exact ⟨b, hb, bs, hbs, rfl⟩

lemma mapM_eq_ok_map {p : α → Prop} {g : α → β} (hf : ∀ a b, f a = .ok b ↔ p a ∧ b = g a) :
    l.mapM f = .ok l' ↔ (∀ a ∈ l, p a) ∧ l' = l.map g := by
  rw [mapM_eq_ok]
  simp only [hf]
  induction l generalizing l' with
  | nil =>
    rw [List.forall₂_nil_left_iff, map_nil]
    exact ⟨fun h => ⟨fun a ha => absurd ha not_mem_nil, h⟩, fun h => h.2⟩
  | cons a l ih =>
    simp only [List.forall₂_cons_left_iff, ih, forall_mem_cons, map_cons]
    constructor
    · rintro ⟨b, bs, ⟨ha, rfl⟩, ⟨hl, rfl⟩, rfl⟩
      exact ⟨⟨ha, hl⟩, rfl⟩
    · rintro ⟨⟨ha, hl⟩, rfl⟩
      exact ⟨g a, _, ⟨ha, rfl⟩, ⟨hl, rfl⟩, rfl⟩

lemma mapM_eq_map {g : α → β} (hf : ∀ a ∈ l, f a = .ok (g a)) : l.mapM f = .ok (l.map g) := by
  rw [mapM_eq_ok, List.forall₂_map_right_iff, List.forall₂_same]
  exact hf

lemma exists_foldlM {f : β → α → Exec ε π β} {I : List α → β → Prop} (h0 : I [] b)
    (hstep : ∀ done a rest, l = done ++ a :: rest → ∀ b, I done b → ∃ b', f b a = .ok b' ∧ I (done ++ [a]) b') :
    ∃ b', l.foldlM f b = .ok b' ∧ I l b' := by
  suffices ∀ rest done, l = done ++ rest → ∀ b, I done b → ∃ b', rest.foldlM f b = .ok b' ∧ I l b' from
    this l [] rfl b h0
  clear h0
  intro rest
  induction rest with
  | nil =>
    intro done hl b hb
    rw [append_nil] at hl
    exact ⟨b, rfl, hl ▸ hb⟩
  | cons a rest ih =>
    intro done hl b hb
    obtain ⟨b1, h1, hb1⟩ := hstep done a rest hl b hb
    rw [append_cons] at hl
    obtain ⟨b2, h2, hb2⟩ := ih (done ++ [a]) hl b1 hb1
    exact ⟨b2, by rw [foldlM_cons, h1, ok_bind, h2], hb2⟩

/-- The computation does not end in a panic of a certain kind. -/
def Safe (bad : π → Prop) (x : Exec ε π α) : Prop := ∀ p, x = .error (.panic p) → ¬ bad p

namespace Safe
variable {bad : π → Prop} {p : π} {x : Exec ε π α} {f : α → Exec ε π β}

lemma ok (a : α) : Safe bad (.ok a : Exec ε π α) := by
  intro _ h
  cases h

lemma fail (e : ε) : Safe bad (Exec.fail e : Exec ε π α) := by
  intro _ h
  cases h

lemma abort (h : ¬ bad p) : Safe bad (Exec.abort p : Exec ε π α) := by
  intro p' e
  cases e
  exact h

lemma bind (hx : Safe bad x) (hf : ∀ a, x = .ok a → Safe bad (f a)) : Safe bad (x >>= f) := by
  intro p e
  obtain e | ⟨a, ha, e⟩ := bind_eq_error.mp e
  · exact hx p (by rw [e])
  · exact hf a ha p e

lemma require (c : Prop) [Decidable c] (e : ε) : Safe bad (Exec.require c e : Exec ε π Unit) := by
  unfold Exec.require
  split
  · exact ok ()
  · exact fail e

lemma ensure {c : Prop} [Decidable c] (h : ¬ c → ¬ bad p) : Safe bad (Exec.ensure c p : Exec ε π Unit) := by
  unfold Exec.ensure
  split
  · exact ok ()
  · exact abort (h ‹_›)

lemma checked {c : Prop} [Decidable c] (x : α) (h : bad p → c) :
    Safe bad (if c then .ok x else Exec.abort p : Exec ε π α) := by
  split
  · exact ok x
  · exact abort fun hp => ‹¬ c› (h hp)

lemma okOr (o : Option α) (e : ε) : Safe bad (Exec.okOr o e : Exec ε π α) := by
  cases o with
  | none => exact fail e
  | some a => exact ok a

lemma unwrap (h : o ≠ none) : Safe bad (Exec.unwrap o p : Exec ε π α) := by
  cases o with
  | none => exact absurd rfl h
  | some a => exact ok a

lemma mapErr {g : ε → ε'} (h : Safe bad x) : Safe bad (Exec.mapErr g x) := by
  intro p e
  exact h p (mapErr_eq_panic.mp e)

lemma foldlM {f : β → α → Exec ε π β} (hf : ∀ b a, Safe bad (f b a)) (l : List α) (b : β) :
    Safe bad (l.foldlM f b) := by
  induction l generalizing b with
  | nil => exact ok b
  | cons a l ih =>
    rw [foldlM_cons]
    exact bind (hf b a) fun b' _ => ih b'

lemma mapM (hf : ∀ a ∈ l, Safe bad (f a)) : Safe bad (l.mapM f) := by
  induction l with
  | nil => exact ok []
  | cons a l ih =>
    obtain ⟨ha, hl⟩ := forall_mem_cons.mp hf
    rw [mapM_cons]
    exact bind ha fun b _ => bind (ih hl) fun bs _ => ok (b :: bs)

end Safe

/-- The computation fails with errors of a certain kind only. -/
def FailsWith (good : ε → Prop) (x : Exec ε π α) : Prop := ∀ e, x = .error (.error e) → good e

namespace FailsWith
variable {good : ε → Prop} {e : ε} {x : Exec ε π α} {f : α → Exec ε π β}

lemma ok (a : α) : FailsWith good (.ok a : Exec ε π α) := by
  intro _ h
  cases h

lemma fail (h : good e) : FailsWith good (Exec.fail e : Exec ε π α) := by
  intro e' he
  cases he
  exact h

lemma abort (p : π) : FailsWith good (Exec.abort p : Exec ε π α) := by
  intro _ h
  cases h

lemma bind_of (hx : FailsWith good x) (hf : ∀ a, x = .ok a → FailsWith good (f a)) : FailsWith good (x >>= f) := by
  intro e h
  obtain h | ⟨a, ha, h⟩ := bind_eq_error.mp h
  · exact hx e (by rw [h])
  · exact hf a ha e h

lemma bind (hx : FailsWith good x) (hf : ∀ a, FailsWith good (f a)) :
    FailsWith good (x >>= f) := bind_of hx fun a _ => hf a

lemma require (c : Prop) [Decidable c] (h : good e) : FailsWith good (Exec.require c e : Exec ε π Unit) := by
  unfold Exec.require
  split
  · exact ok ()
  · exact fail h

lemma ensure (c : Prop) [Decidable c] (p : π) : FailsWith good (Exec.ensure c p : Exec ε π Unit) := by
  unfold Exec.ensure
  split
  · exact ok ()
  · exact abort p

lemma checked (c : Prop) [Decidable c] (p : π) (x : α) :
    FailsWith good (if c then .ok x else Exec.abort p : Exec ε π α) := by
  split
  · exact ok x
  · exact abort p

lemma okOr (o : Option α) (h : good e) : FailsWith good (Exec.okOr o e : Exec ε π α) := by
  cases o with
  | none => exact fail h
  | some a => exact ok a

lemma mapErr {g : ε' → ε} (h : ∀ e, good (g e)) (x : Exec ε' π α) : FailsWith good (Exec.mapErr g x) := by
  intro e he
  cases x with
  | ok a => cases he
  | error f =>
    cases f with
    | error e' =>
      cases he
      exact h e'
    | panic p => cases he

lemma foldlM {f : β → α → Exec ε π β} (hf : ∀ b a, FailsWith good (f b a)) (l : List α) (b : β) :
    FailsWith good (l.foldlM f b) := by
  induction l generalizing b with
  | nil => exact ok b
  | cons a l ih =>
    rw [foldlM_cons]
    exact bind (hf b a) ih

end FailsWith
end Exec
end Leviathan
