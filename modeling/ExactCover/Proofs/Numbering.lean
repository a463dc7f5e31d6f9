import ExactCover.GroundSet
import Mathlib.Data.List.Basic
import Mathlib.Tactic.Lemma

/-!
# Numbering of tokens

How a ground set grows. A token enters at the end unless it is there already, so the tokens of a
list become the elements of a ground set, in their order, exactly if they are distinct
(`exists_ofDistinct_iff`, `tokens_of_ofDistinct`), and the number of a token is its first place in
the list of tokens (`indexOf?_of_mem`).
-/

namespace ExactCover.GroundSet

variable {g g' : GroundSet} {t : String} {ts : List String}

/-! ## Numbers -/

/-- The tokens with a place are those that are listed. -/
lemma mem_places_iff : t ∈ g.places ↔ t ∈ g.tokens.toList := by
  rw [Std.HashMap.mem_iff_isSome_getElem?, Option.isSome_iff_exists, List.mem_iff_getElem?]
  constructor
  · rintro ⟨n, h⟩
    exact ⟨n, by rw [Array.getElem?_toList]; exact (g.getElem?_places t n).mp h⟩
  · rintro ⟨n, h⟩
    rw [Array.getElem?_toList] at h
    exact ⟨n, (g.getElem?_places t n).mpr h⟩

/-- The number of a token is its place among the tokens. -/
lemma indexOf?_of_mem (h : t ∈ g.tokens.toList) :
    g.indexOf? t = some (g.tokens.toList.idxOf t) := by
  rw [indexOf?_eq_some_iff, element?, ← Array.getElem?_toList]
  exact List.getElem?_idxOf h

/-- A token has no number exactly if it is not there. -/
lemma indexOf?_eq_none_iff : g.indexOf? t = none ↔ t ∉ g.tokens.toList := by
  rw [← mem_places_iff, indexOf?, Std.HashMap.mem_iff_isSome_getElem?, Bool.not_eq_true,
    Option.isSome_eq_false_iff, Option.isNone_iff_eq_none]

/-! ## Growth -/

/-- A token is refused exactly if it is there. -/
lemma insert?_eq_none_iff : g.insert? t = none ↔ t ∈ g.tokens.toList := by
  rw [← mem_places_iff]
  obtain ⟨tokens, places, agree⟩ := g
  rw [insert?]
  split
  · rename_i h
    exact ⟨fun _ => h, fun _ => rfl⟩
  · rename_i h
    exact ⟨nofun, fun there => absurd there h⟩

/-- A token that is not refused comes last. -/
lemma tokens_of_insert? (h : g.insert? t = some g') : g'.tokens = g.tokens.push t := by
  obtain ⟨tokens, places, agree⟩ := g
  rw [insert?] at h
  split at h
  · cases h
  · cases h
    rfl

/-- The ground set with one more token, which must be new. -/
def insertNew (g : GroundSet) (t : String) : Except String GroundSet :=
  match g.insert? t with
  | some g' => .ok g'
  | none => .error t

/-- Distinct tokens enter one after another. -/
lemma ofDistinct_eq_foldlM : ofDistinct ts = ts.foldlM insertNew empty :=
  rfl

/-- A new token comes last. -/
lemma tokens_of_insertNew (h : g.insertNew t = .ok g') :
    g'.tokens.toList = g.tokens.toList ++ [t] := by
  unfold insertNew at h
  split at h
  · rename_i e
    cases h
    rw [tokens_of_insert? e, Array.toList_push]
  · cases h

/-- A token that is not there can enter. -/
lemma exists_insertNew (h : t ∉ g.tokens.toList) : ∃ g', g.insertNew t = .ok g' := by
  rw [← insert?_eq_none_iff] at h
  obtain ⟨g', e⟩ := Option.ne_none_iff_exists'.mp h
  exact ⟨g', by rw [insertNew, e]⟩

/-- Tokens that all enter stand behind those that were there. -/
lemma tokens_of_foldlM (h : ts.foldlM insertNew g = .ok g') :
    g'.tokens.toList = g.tokens.toList ++ ts := by
  induction ts generalizing g with
  | nil =>
    cases h
    rw [List.append_nil]
  | cons t ts ih =>
    rw [List.foldlM_cons] at h
    cases e : g.insertNew t with
    | error _ =>
      rw [e] at h
      cases h
    | ok g₁ =>
      rw [e] at h
      rw [ih h, tokens_of_insertNew e, List.append_assoc]
      rfl

/-- Tokens enter if they are distinct from each other and from those that are there. -/
lemma exists_foldlM (distinct : (g.tokens.toList ++ ts).Nodup) :
    ∃ g', ts.foldlM insertNew g = .ok g' := by
  induction ts generalizing g with
  | nil => exact ⟨g, rfl⟩
  | cons t ts ih =>
    have new : t ∉ g.tokens.toList := fun h =>
      (List.nodup_append.mp distinct).2.2 t h t List.mem_cons_self rfl
    obtain ⟨g₁, e⟩ := exists_insertNew new
    have distinct₁ : (g₁.tokens.toList ++ ts).Nodup := by
      rw [tokens_of_insertNew e, List.append_assoc]
      exact distinct
    obtain ⟨g', h⟩ := ih distinct₁
    refine ⟨g', ?_⟩
    rw [List.foldlM_cons, e]
    exact h

/-- The tokens of a ground set are the tokens it was made from. -/
lemma tokens_of_ofDistinct (h : ofDistinct ts = .ok g) : g.tokens.toList = ts := by
  rw [ofDistinct_eq_foldlM] at h
  exact tokens_of_foldlM h

/-- A ground set has as many elements as it was made from tokens. -/
lemma size_of_ofDistinct (h : ofDistinct ts = .ok g) : g.size = ts.length := by
  rw [size, ← Array.length_toList, tokens_of_ofDistinct h]

/-- The elements of a ground set keep the order of the tokens it was made from. -/
lemma element?_of_ofDistinct (h : ofDistinct ts = .ok g) (k : Nat) : g.element? k = ts[k]? := by
  rw [element?, ← Array.getElem?_toList, tokens_of_ofDistinct h]

/-- A list of tokens makes a ground set exactly if the tokens are distinct. -/
lemma exists_ofDistinct_iff : (∃ g, ofDistinct ts = .ok g) ↔ ts.Nodup := by
  constructor
  · rintro ⟨g, h⟩
    rw [← tokens_of_ofDistinct h]
    exact g.nodup_tokens
  · intro distinct
    exact exists_foldlM distinct

end ExactCover.GroundSet
