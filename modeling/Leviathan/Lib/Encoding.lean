import Mathlib.Algebra.Order.Ring.Int
import Mathlib.Algebra.Order.Ring.Nat

/-!
# Prefix-free encodings

An encoding is prefix-free if what follows an encoded value can be told from it (`PrefixFree`), so that encoded values
may be written one after the other. The lemmas follow the ways in which encodings are put together: values of a fixed
width (`PrefixFree.of_length`), a record as its fields (`PrefixFree.append`, `PrefixFree.prod`), a list behind its
length (`PrefixFree.counted`), and an injective change of the value (`PrefixFree.comp`).
-/

namespace Leviathan
open List

/-- An encoded value determines the value and what follows it. -/
def PrefixFree {α β : Type} (enc : α → List β) : Prop :=
  ∀ a b r s, enc a ++ r = enc b ++ s → a = b ∧ r = s

namespace PrefixFree
variable {α β γ δ : Type} {enc : α → List β} {enc' : γ → List β}

lemma injective (h : PrefixFree enc) : Function.Injective enc := by
  intro a b e
  exact (h a b [] [] (by rw [e])).1

lemma of_length {n : Nat} (hl : ∀ a, (enc a).length = n) (hi : Function.Injective enc) : PrefixFree enc := by
  intro a b r s e
  obtain ⟨he, hr⟩ := append_inj e ((hl a).trans (hl b).symm)
  exact ⟨hi he, hr⟩

lemma comp (h : PrefixFree enc) {f : γ → α} (hf : Function.Injective f) : PrefixFree fun c => enc (f c) := by
  intro a b r s e
  obtain ⟨he, hr⟩ := h _ _ _ _ e
  exact ⟨hf he, hr⟩

lemma append {f : δ → α} {g : δ → γ} (h : PrefixFree enc) (h' : PrefixFree enc')
    (hi : ∀ a b, f a = f b → g a = g b → a = b) : PrefixFree fun d => enc (f d) ++ enc' (g d) := by
  intro a b r s e
  simp only [append_assoc] at e
  obtain ⟨hf, e⟩ := h _ _ _ _ e
  obtain ⟨hg, hr⟩ := h' _ _ _ _ e
  exact ⟨hi a b hf hg, hr⟩

lemma prod (h : PrefixFree enc) (h' : PrefixFree enc') : PrefixFree fun p : α × γ => enc p.1 ++ enc' p.2 :=
  h.append h' fun _ _ => Prod.ext

lemma flatMap (h : PrefixFree enc) {l l' : List α} {r s : List β} (hl : l.length = l'.length)
    (e : l.flatMap enc ++ r = l'.flatMap enc ++ s) : l = l' ∧ r = s := by
  induction l generalizing l' with
  | nil =>
    rw [eq_nil_of_length_eq_zero hl.symm] at e ⊢
    exact ⟨rfl, e⟩
  | cons a l ih =>
    cases l' with
    | nil => cases hl
    | cons b l' =>
      simp only [flatMap_cons, append_assoc] at e
      obtain ⟨rfl, he⟩ := h _ _ _ _ e
      obtain ⟨rfl, hr⟩ := ih (Nat.succ.inj hl) he
      exact ⟨rfl, hr⟩

lemma counted {N : Nat} {count : Fin N → List β} (hc : PrefixFree count) (h : PrefixFree enc) :
    PrefixFree fun l : { l : List α // l.length < N } => count ⟨l.1.length, l.2⟩ ++ l.1.flatMap enc := by
  intro a b r s e
  simp only [append_assoc] at e
  obtain ⟨hl, e⟩ := hc _ _ _ _ e
  obtain ⟨hl, hr⟩ := h.flatMap (congrArg Fin.val hl) e
  exact ⟨Subtype.ext hl, hr⟩

end PrefixFree
end Leviathan
