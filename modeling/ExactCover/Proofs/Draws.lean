import ExactCover.Random.Draw
import Mathlib.Data.List.Forall2
import Mathlib.Tactic.Lemma

/-!
# What draws yield

The words of a source may be any words, so a statement about a draw is one about every value that the
draw can have. `Yields` makes such statements, with one rule for each way to put draws together. A
number is drawn from below its range, whatever words were rejected before (`yields_below64`), and a
shuffled array holds the entries that it held before (`yields_shuffle`).
-/

namespace ExactCover.Random

variable {σ α β : Type} {P P' : α → Prop} {Q : β → Prop}

/-- Every value that the computation has, from whatever state of the source, has the property. -/
def Yields (x : Draw σ α) (P : α → Prop) : Prop :=
  ∀ s a s', x.run s = some (a, s') → P a

/-- What is yielded has every weaker property too. -/
lemma Yields.mono {x : Draw σ α} (hx : Yields x P) (h : ∀ a, P a → P' a) : Yields x P' := by
  intro s a s' e
  exact h a (hx s a s' e)

/-- A value is all that it yields. -/
lemma Yields.pure {a : α} (h : P a) : Yields (pure a : Draw σ α) P := by
  intro s b s' e
  cases e
  exact h

/-- What comes of two computations in a row, the second one in the state that the first one left. -/
lemma run_bind_eq_some_iff {x : Draw σ α} {f : α → Draw σ β} {s s'' : σ} {b : β} :
    (x >>= f).run s = some (b, s'') ↔
      ∃ a s', x.run s = some (a, s') ∧ (f a).run s' = some (b, s'') := by
  rw [StateT.run_bind]
  exact Option.bind_eq_some_iff.trans Prod.exists

/-- What the rest yields from every value of the first part is yielded in the end. -/
lemma Yields.bind {x : Draw σ α} {f : α → Draw σ β} (hx : Yields x P)
    (hf : ∀ a, P a → Yields (f a) Q) : Yields (x >>= f) Q := by
  intro s b s'' e
  obtain ⟨a, s', first, rest⟩ := run_bind_eq_some_iff.mp e
  exact hf a (hx s a s' first) s' b s'' rest

/-- One draw for each entry of a list yields one value for each. -/
lemma Yields.mapM {R : α → β → Prop} {f : α → Draw σ β} (hf : ∀ a, Yields (f a) (R a))
    (as : List α) : Yields (as.mapM f) (List.Forall₂ R as) := by
  induction as with
  | nil =>
    rw [List.mapM_nil]
    exact .pure .nil
  | cons a as ih =>
    rw [List.mapM_cons]
    refine .bind (hf a) fun b hb => .bind ih fun bs hbs => ?_
    exact .pure (.cons hb hbs)

variable (patience : Nat)

/-- A value that is tried for comes from one of the attempts. -/
lemma yields_retry {attempt : σ → Option α × σ} (h : ∀ s a s', attempt s = (some a, s') → P a) :
    Yields (retry attempt patience) P := by
  intro s a s' e
  change retry attempt patience s = some (a, s') at e
  induction patience generalizing s with
  | zero => cases e
  | succ patience ih =>
    rw [retry] at e
    split at e
    · rename_i settled
      cases e
      exact h s a s' settled
    · rename_i rejected _
      exact ih _ e

/-- A draw with words of 64 bits stays below the end of the range. -/
lemma yields_below64 [WordSource σ] (range : Nat) :
    Yields (below64 patience range : Draw σ Nat) (· < range) := by
  apply yields_retry
  intro s n s' e
  obtain ⟨settled, _⟩ := Prod.mk.inj e
  refine lt_of_scale? ?_ settled
  rw [Nat.one_shiftLeft]
  exact UInt64.toNat_lt _

/-! ## Shuffling -/

/-- A swap only changes the order. -/
lemma swapIfInBounds_perm (xs : Array α) (i j : Nat) :
    (xs.swapIfInBounds i j).toList.Perm xs.toList := by
  unfold Array.swapIfInBounds
  split
  · split
    · exact (Array.swap_perm _ _).toList
    · exact .refl _
  · exact .refl _

variable [WordSource σ]

/-- Each swap leaves the entries as they were, so the whole run does. -/
lemma yields_shuffleFrom (i : Nat) (xs : Array α) :
    Yields (shuffleFrom patience i xs : Draw σ (Array α)) fun ys => ys.toList.Perm xs.toList := by
  induction i generalizing xs with
  | zero => exact .pure (.refl _)
  | succ i ih =>
    rw [shuffleFrom]
    -- whatever place is drawn, the swap stays within the array
    have any : Yields (place patience (i + 2) : Draw σ Nat) fun _ => True := fun _ _ _ _ => trivial
    refine any.bind fun j _ => (ih _).mono fun ys perm => ?_
    exact perm.trans (swapIfInBounds_perm xs (i + 1) j)

/-- A shuffle only changes the order. -/
lemma yields_shuffle (xs : Array α) :
    Yields (shuffle patience xs : Draw σ (Array α)) fun ys => ys.toList.Perm xs.toList :=
  yields_shuffleFrom patience _ xs

end ExactCover.Random
