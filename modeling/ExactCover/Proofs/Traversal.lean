import Mathlib.Data.List.Forall2
import Mathlib.Tactic.Lemma

/-!
# Traversals that may fail

A check that is run on each entry of a list either succeeds on all of them or stops at the first
entry that it refuses. `mapM_eq_ok_iff` turns a successful run into a relation between the entries
and the results, which the lemmas on the single check can then rewrite; `mapM_eq_error_iff` finds the
entry that a failed run stopped at.
-/

namespace ExactCover.Traversal

variable {α β ε : Type}

/-- A check with a result goes on to what follows it. -/
lemma bind_eq_ok_iff {x : Except ε α} {f : α → Except ε β} {b : β} :
    x >>= f = .ok b ↔ ∃ a, x = .ok a ∧ f a = .ok b := by
  cases x with
  | error e => exact ⟨nofun, nofun⟩
  | ok a =>
    constructor
    · intro h
      exact ⟨a, rfl, h⟩
    · rintro ⟨a', e, h⟩
      cases e
      exact h

/-- A check with an error has it from its first step, or from what follows the step. -/
lemma bind_eq_error_iff {x : Except ε α} {f : α → Except ε β} {e : ε} :
    x >>= f = .error e ↔ x = .error e ∨ ∃ a, x = .ok a ∧ f a = .error e := by
  cases x with
  | error e' =>
    constructor
    · intro h
      cases h
      exact .inl rfl
    · rintro (h | ⟨a, h, _⟩)
      · cases h
        rfl
      · cases h
  | ok a =>
    constructor
    · intro h
      exact .inr ⟨a, rfl, h⟩
    · rintro (h | ⟨a', h, e'⟩)
      · cases h
      · cases h
        exact e'

/-- A check whose result is mapped succeeds exactly if the check does. -/
lemma map_eq_ok_iff {x : Except ε α} {f : α → β} {b : β} :
    x.map f = .ok b ↔ ∃ a, x = .ok a ∧ f a = b := by
  cases x with
  | error e => exact ⟨nofun, nofun⟩
  | ok a =>
    constructor
    · intro h
      cases h
      exact ⟨a, rfl, rfl⟩
    · rintro ⟨a', e, rfl⟩
      cases e
      rfl

/-- A check whose result is mapped fails exactly if the check does. -/
lemma map_eq_error_iff {x : Except ε α} {f : α → β} {e : ε} :
    x.map f = .error e ↔ x = .error e := by
  cases x with
  | error e' => exact ⟨fun h => by cases h; rfl, fun h => by cases h; rfl⟩
  | ok a => exact ⟨nofun, nofun⟩

/-- A traversal succeeds exactly if the check does on each entry, with the results in order. -/
lemma mapM_eq_ok_iff {f : α → Except ε β} {as : List α} {bs : List β} :
    as.mapM f = .ok bs ↔ List.Forall₂ (fun a b => f a = .ok b) as bs := by
  induction as generalizing bs with
  | nil =>
    rw [List.mapM_nil, List.forall₂_nil_left_iff]
    constructor
    · intro h
      cases h
      rfl
    · rintro rfl
      rfl
  | cons a as ih =>
    rw [List.mapM_cons, bind_eq_ok_iff, List.forall₂_cons_left_iff]
    constructor
    · rintro ⟨b, hb, h⟩
      obtain ⟨bs', hbs, e⟩ := bind_eq_ok_iff.mp h
      cases e
      exact ⟨b, bs', hb, ih.mp hbs, rfl⟩
    · rintro ⟨b, bs', hb, hbs, rfl⟩
      exact ⟨b, hb, bind_eq_ok_iff.mpr ⟨bs', ih.mpr hbs, rfl⟩⟩

/-- If not all entries of a list have a property, one without it comes first. -/
lemma exists_first {P : α → Prop} {as : List α} (h : ¬∀ a ∈ as, P a) :
    ∃ before a after, as = before ++ a :: after ∧ (∀ b ∈ before, P b) ∧ ¬P a := by
  induction as with
  | nil => exact absurd nofun h
  | cons a as ih =>
    by_cases fine : P a
    · have later : ¬∀ b ∈ as, P b := fun all => h (List.forall_mem_cons.mpr ⟨fine, all⟩)
      obtain ⟨before, b, after, rfl, all, out⟩ := ih later
      exact ⟨a :: before, b, after, rfl, List.forall_mem_cons.mpr ⟨fine, all⟩, out⟩
    · exact ⟨[], a, as, rfl, nofun, fine⟩

/-- A traversal stops at the first entry that the check refuses, with the error found there. -/
lemma mapM_eq_error_iff {f : α → Except ε β} {as : List α} {e : ε} :
    as.mapM f = .error e ↔ ∃ before a after, as = before ++ a :: after ∧
      (∀ x ∈ before, ∃ b, f x = .ok b) ∧ f a = .error e := by
  induction as with
  | nil =>
    rw [List.mapM_nil]
    constructor
    · intro h
      cases h
    · rintro ⟨before, a, after, h, _⟩
      cases before <;> cases h
  | cons a as ih =>
    rw [List.mapM_cons, bind_eq_error_iff]
    constructor
    · rintro (h | ⟨b, hb, h⟩)
      · exact ⟨[], a, as, rfl, nofun, h⟩
      · rcases bind_eq_error_iff.mp h with h | ⟨bs, _, h⟩
        · obtain ⟨before, a', after, rfl, fine, refused⟩ := ih.mp h
          exact ⟨a :: before, a', after, rfl, List.forall_mem_cons.mpr ⟨⟨b, hb⟩, fine⟩, refused⟩
        · cases h
    · rintro ⟨before, a', after, split, fine, refused⟩
      cases before with
      | nil =>
        cases split
        exact .inl refused
      | cons x before =>
        cases split
        obtain ⟨⟨b, hb⟩, fine⟩ := List.forall_mem_cons.mp fine
        have later := ih.mpr ⟨before, a', after, rfl, fine, refused⟩
        exact .inr ⟨b, hb, bind_eq_error_iff.mpr (.inl later)⟩

/-- A traversal succeeds exactly if the check refuses no entry. -/
lemma exists_mapM_eq_ok_iff {f : α → Except ε β} {as : List α} :
    (∃ bs, as.mapM f = .ok bs) ↔ ∀ a ∈ as, ∃ b, f a = .ok b := by
  constructor
  · rintro ⟨bs, h⟩
    have each : List.Forall₂ (fun a b => (∃ b, f a = .ok b) ∧ f a = .ok b) as bs :=
      (mapM_eq_ok_iff.mp h).imp fun a b accepted => ⟨⟨b, accepted⟩, accepted⟩
    exact ((List.forall₂_and_left as bs).mp each).1
  · intro fine
    cases h : as.mapM f with
    | ok bs => exact ⟨bs, rfl⟩
    | error e =>
      obtain ⟨before, a, after, rfl, _, refused⟩ := mapM_eq_error_iff.mp h
      obtain ⟨b, accepted⟩ := fine a (List.mem_append_right before List.mem_cons_self)
      rw [refused] at accepted
      cases accepted

/-- A check that only refuses entries, and else has a result that it computes, maps the list. -/
lemma mapM_eq_ok_iff_map {f : α → Except ε β} {P : α → Prop} {g : α → β}
    (check : ∀ a b, f a = .ok b ↔ P a ∧ b = g a) {as : List α} {bs : List β} :
    as.mapM f = .ok bs ↔ (∀ a ∈ as, P a) ∧ bs = as.map g := by
  rw [mapM_eq_ok_iff]
  constructor
  · intro h
    induction h with
    | nil => exact ⟨nofun, rfl⟩
    | cons head _ ih =>
      obtain ⟨ha, rfl⟩ := (check _ _).mp head
      obtain ⟨has, rfl⟩ := ih
      exact ⟨List.forall_mem_cons.mpr ⟨ha, has⟩, rfl⟩
  · rintro ⟨h, rfl⟩
    induction as with
    | nil => exact .nil
    | cons a as ih =>
      obtain ⟨ha, has⟩ := List.forall_mem_cons.mp h
      exact .cons ((check _ _).mpr ⟨ha, rfl⟩) (ih has)

/-! ## Renaming errors -/

section Renaming

variable {α' ε' : Type} {k : ε → ε'}

/-- The errors of two steps are renamed step by step. -/
lemma mapError_bind (x : Except ε α) (f : α → Except ε β) :
    (x >>= f).mapError k = x.mapError k >>= fun a => (f a).mapError k := by
  cases x with
  | error e => rfl
  | ok a => rfl

/-- A check that answers on changed entries as another one does, but for the names of errors, does
so on a list. -/
lemma mapM_map_eq_mapError {f : α → Except ε β} {f' : α' → Except ε' β} {h : α → α'}
    (check : ∀ a, f' (h a) = (f a).mapError k) (as : List α) :
    (as.map h).mapM f' = (as.mapM f).mapError k := by
  induction as with
  | nil => rfl
  | cons a as ih =>
    rw [List.map_cons, List.mapM_cons, List.mapM_cons, check, ih]
    cases f a with
    | error e => rfl
    | ok b =>
      cases as.mapM f with
      | error e => rfl
      | ok bs => rfl

end Renaming

end ExactCover.Traversal
