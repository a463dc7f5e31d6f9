import Std.Data.HashMap.Lemmas

/-!
# Ground sets

The ground set of an instance: distinct tokens, numbered from zero in the order in which they came.
A table finds the number of a token; the type carries the proof that the table and the list of
tokens say the same, so the numbering is a bijection between the tokens and the numbers below the
size (`getElem?_places`), and the tokens are pairwise distinct (`nodup_tokens`).
-/

namespace ExactCover

/-- Distinct tokens with their numbers. -/
structure GroundSet where
  /-- The tokens in order; a token's number is its place here. -/
  tokens : Array String
  /-- The number of each token. -/
  places : Std.HashMap String Nat
  /-- The table numbers exactly the listed tokens by their places. -/
  getElem?_places : ∀ (t : String) (i : Nat), places[t]? = some i ↔ tokens[i]? = some t

namespace GroundSet

/-- The ground set without elements. -/
def empty : GroundSet where
  tokens := #[]
  places := ∅
  getElem?_places := by simp

instance : Inhabited GroundSet := ⟨empty⟩

/-- The number of elements. -/
def size (g : GroundSet) : Nat :=
  g.tokens.size

/-- The token with a number. -/
def element? (g : GroundSet) (i : Nat) : Option String :=
  g.tokens[i]?

/-- The number of a token. -/
def indexOf? (g : GroundSet) (t : String) : Option Nat :=
  g.places[t]?

/-- A new token takes the next place, in the table and in the list alike. -/
theorem getElem?_insert_push {tokens : Array String} {places : Std.HashMap String Nat}
    (agree : ∀ (t : String) (i : Nat), places[t]? = some i ↔ tokens[i]? = some t)
    {t : String} (new : t ∉ places) (u : String) (i : Nat) :
    (places.insert t tokens.size)[u]? = some i ↔ (tokens.push t)[i]? = some u := by
  have unlisted : places[t]? = none := Std.HashMap.getElem?_eq_none new
  rw [Std.HashMap.getElem?_insert, Array.getElem?_push]
  by_cases hu : t = u <;> by_cases hi : i = tokens.size
  · simp [hu, hi]
  · have : ¬tokens[i]? = some t := fun e => by
      rw [(agree t i).mpr e] at unlisted
      cases unlisted
    simp [← hu, hi, this, Ne.symm hi]
  · have : ¬places[u]? = some tokens.size := fun e => by
      have := (agree u tokens.size).mp e
      simp at this
    simp [hu, hi, this]
  · simp [hu, hi, agree]

/-- The ground set with one more token at its end, if the token is new. -/
def insert? : GroundSet → String → Option GroundSet
  | ⟨tokens, places, agree⟩, t =>
    if h : t ∈ places then
      none
    else
      let number := tokens.size
      some ⟨tokens.push t, places.insert t number, getElem?_insert_push agree h⟩

/-- The ground set of a list of tokens; a token that came before is passed over. -/
def ofTokens (ts : List String) : GroundSet :=
  ts.foldl (fun g t => (g.insert? t).getD g) empty

/-- The ground set of distinct tokens, or else the first token that repeats an earlier one. -/
def ofDistinct (ts : List String) : Except String GroundSet :=
  ts.foldlM (fun g t => match g.insert? t with
    | some g' => .ok g'
    | none => .error t) empty

/-- Numbers and tokens determine each other. -/
theorem indexOf?_eq_some_iff {g : GroundSet} {t : String} {i : Nat} :
    g.indexOf? t = some i ↔ g.element? i = some t :=
  g.getElem?_places t i

/-- No token is listed twice. -/
theorem nodup_tokens (g : GroundSet) : g.tokens.toList.Nodup := by
  refine List.pairwise_iff_getElem.mpr fun i j hi hj hij e => ?_
  have hi' : g.tokens[i]? = some g.tokens.toList[i] := by simp at hi; simp [hi]
  have hj' : g.tokens[j]? = some g.tokens.toList[j] := by simp at hj; simp [hj]
  have h := (g.getElem?_places _ i).mpr hi'
  rw [e, (g.getElem?_places _ j).mpr hj'] at h
  simp only [Option.some.injEq] at h
  omega

end GroundSet

end ExactCover
