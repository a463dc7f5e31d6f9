import ExactCover.Proofs.Draws

/-!
# Draws without end

A draw takes words until one is accepted, and nothing says that one ever is. Its patience makes it
a computation, but what is drawn does not depend on it: either there is a patience from which on the
computation has a value, always the same one, or it has none with any patience, and then it comes to
a draw that rejects every word there is (`Outcome`). `Steady` says this of a computation from all
states, with one rule for each way to put draws together.

A draw from an empty range would reject every word as well. `Stalls` speaks of ranges that are not
empty, so the rules also show that no other range is drawn from.
-/

namespace ExactCover.Random

variable {σ α β : Type} [WordSource σ]

/-- The second state comes after the first, with the words in between taken. -/
inductive Reaches : σ → σ → Prop where
  | refl {s} :
    Reaches s s
  | word32 {s s'} :
    Reaches (WordSource.next32 s).2 s' →
    Reaches s s'
  | word64 {s s'} :
    Reaches (WordSource.next64 s).2 s' →
    Reaches s s'

/-- The words from here on are rejected, all of them, by a draw from a range with numbers in it. -/
inductive Stalls (s : σ) : Prop where
  | draw32 {range} :
    0 < range →
    (∀ patience, (below32 patience range : Draw σ Nat).run s = none) →
    Stalls s
  | draw64 {range} :
    0 < range →
    (∀ patience, (below64 patience range : Draw σ Nat).run s = none) →
    Stalls s

/-- What becomes of a computation that is given more and more patience. -/
inductive Outcome (x : Nat → Draw σ α) (s : σ) : Prop where
  | settles {s'} (bound : Nat) (a : α) :
    Reaches s s' →
    (∀ patience, (x patience).run s = if bound ≤ patience then some (a, s') else none) →
    Outcome x s
  | stalls {s'} :
    Reaches s s' → Stalls s' →
    (∀ patience, (x patience).run s = none) →
    Outcome x s

/-- The computation has an outcome, whatever words come. -/
def Steady (x : Nat → Draw σ α) : Prop :=
  ∀ s, Outcome x s

/-- What comes after a later state comes after the first one. -/
lemma Reaches.trans {s s' s'' : σ} (h : Reaches s s') (h' : Reaches s' s'') : Reaches s s'' := by
  induction h with
  | refl => exact h'
  | word32 _ ih => exact .word32 (ih h')
  | word64 _ ih => exact .word64 (ih h')

/-! ## Putting draws together -/

/-- A value needs no words. -/
lemma Steady.pure (a : α) : Steady fun _ => (pure a : Draw σ α) := by
  intro s
  refine .settles 0 a .refl fun patience => ?_
  rw [if_pos (Nat.zero_le patience)]
  rfl

/-- A computation that goes on with its value has an outcome if both parts have one. -/
lemma Steady.bind {x : Nat → Draw σ α} {f : Nat → α → Draw σ β} (hx : Steady x)
    (hf : ∀ a, Steady fun patience => f patience a) :
    Steady fun patience => x patience >>= f patience := by
  intro s
  cases hx s with
  | stalls reaches stalls none =>
    refine .stalls reaches stalls fun patience => ?_
    rw [StateT.run_bind, none]
    rfl
  | @settles s' bound a reaches value =>
    cases hf a s' with
    | stalls reaches' stalls none =>
      refine .stalls (reaches.trans reaches') stalls fun patience => ?_
      rw [StateT.run_bind, value]
      split
      · exact none patience
      · rfl
    | settles bound' b reaches' value' =>
      refine .settles (max bound bound') b (reaches.trans reaches') fun patience => ?_
      rw [StateT.run_bind, value]
      by_cases enough : bound ≤ patience
      · rw [if_pos enough]
        refine (value' patience).trans ?_
        simp only [Nat.max_le, enough, true_and]
      · rw [if_neg enough, if_neg fun h => enough (Nat.max_le.mp h).1]
        rfl

/-- One draw for each entry of a list. -/
lemma Steady.mapM {f : Nat → α → Draw σ β} (hf : ∀ a, Steady fun patience => f patience a)
    (as : List α) : Steady fun patience => as.mapM (f patience) := by
  induction as with
  | nil =>
    simp only [List.mapM_nil]
    exact .pure []
  | cons a as ih =>
    simp only [List.mapM_cons]
    exact .bind (hf a) fun b => .bind ih fun bs => .pure (b :: bs)

/-! ## Runs that end -/

/-- A run that ends would have ended in the same way with any other patience that suffices. -/
lemma Steady.run_eq {x : Nat → Draw σ α} (hx : Steady x) {patience : Nat} {s s' : σ} {a : α}
    (h : (x patience).run s = some (a, s')) :
    Reaches s s' ∧ ∃ bound, ∀ q, (x q).run s = if bound ≤ q then some (a, s') else none := by
  cases hx s with
  | stalls _ _ none =>
    rw [none] at h
    cases h
  | settles bound b reaches value =>
    have known := value patience
    rw [h] at known
    split at known
    · cases known
      exact ⟨reaches, bound, value⟩
    · cases known

/-- Two runs from one state that both end have the same value and leave the same state. -/
lemma Steady.run_unique {x : Nat → Draw σ α} (hx : Steady x) {patience patience' : Nat}
    {s s₁ s₂ : σ} {a b : α} (ha : (x patience).run s = some (a, s₁))
    (hb : (x patience').run s = some (b, s₂)) : a = b ∧ s₁ = s₂ := by
  obtain ⟨_, _, value⟩ := hx.run_eq ha
  rw [value] at hb
  split at hb
  · cases hb
    exact ⟨rfl, rfl⟩
  · cases hb

/-! ## Single draws -/

/-- The attempt that has a value is the same one for every patience that suffices for it. -/
lemma retry_of_eq_some {attempt : σ → Option α × σ} (step : ∀ s, Reaches s (attempt s).2)
    {patience : Nat} {s s' : σ} {a : α} (h : retry attempt patience s = some (a, s')) :
    Reaches s s' ∧ ∃ bound, ∀ q, retry attempt q s = if bound ≤ q then some (a, s') else none := by
  -- every attempt that is rejected takes one from the patience, and so adds one to the bound
  induction patience generalizing s with
  | zero => cases h
  | succ patience ih =>
    have reaches := step s
    rw [retry] at h
    split at h
    · rename_i first
      cases h
      rw [first] at reaches
      refine ⟨reaches, 1, fun q => ?_⟩
      cases q with
      | zero => rfl
      | succ q => rw [retry, first, if_pos (Nat.le_add_left 1 q)]
    · rename_i s'' rejected
      rw [rejected] at reaches
      obtain ⟨reaches', bound, later⟩ := ih h
      refine ⟨reaches.trans reaches', bound + 1, fun q => ?_⟩
      cases q with
      | zero => rfl
      | succ q =>
        rw [retry, rejected]
        refine (later q).trans ?_
        simp only [Nat.add_le_add_iff_right]

/-- Trying either has a value at some attempt or none at any. -/
lemma steady_retry {attempt : σ → Option α × σ} (step : ∀ s, Reaches s (attempt s).2)
    (stall : ∀ s, (∀ patience, retry attempt patience s = none) → Stalls s) :
    Steady (retry attempt) := by
  intro s
  by_cases none : ∀ patience, retry attempt patience s = none
  · exact .stalls .refl (stall s none) none
  · obtain ⟨patience, h⟩ := not_forall.mp none
    obtain ⟨⟨a, s'⟩, h⟩ := Option.ne_none_iff_exists'.mp h
    obtain ⟨reaches, bound, value⟩ := retry_of_eq_some step h
    exact .settles bound a reaches value

variable {range : Nat}

/-- A draw with words of 32 bits has an outcome, if there is a number to draw. -/
lemma steady_below32 (pos : 0 < range) :
    Steady fun patience => (below32 patience range : Draw σ Nat) :=
  steady_retry (fun _ => .word32 .refl) fun _ none => .draw32 pos none

/-- A draw with words of 64 bits has an outcome, if there is a number to draw. -/
lemma steady_below64 (pos : 0 < range) :
    Steady fun patience => (below64 patience range : Draw σ Nat) :=
  steady_retry (fun _ => .word64 .refl) fun _ none => .draw64 pos none

/-- The draw of a place has an outcome, if there is one. -/
lemma steady_place (pos : 0 < range) :
    Steady fun patience => (place patience range : Draw σ Nat) := by
  unfold place
  split
  · exact steady_below32 pos
  · exact steady_below64 pos

/-! ## Shuffling -/

/-- Every step of a shuffle draws from a range with numbers in it. -/
lemma steady_shuffleFrom (i : Nat) (xs : Array α) :
    Steady fun patience => (shuffleFrom patience i xs : Draw σ (Array α)) := by
  induction i generalizing xs with
  | zero => exact .pure xs
  | succ i ih =>
    simp only [shuffleFrom]
    exact .bind (steady_place (Nat.succ_pos _)) fun j => ih _

/-- A shuffle has an outcome, even one of nothing. -/
lemma steady_shuffle (xs : Array α) :
    Steady fun patience => (shuffle patience xs : Draw σ (Array α)) :=
  steady_shuffleFrom _ xs

end ExactCover.Random
