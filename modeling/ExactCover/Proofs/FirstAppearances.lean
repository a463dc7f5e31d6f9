import ExactCover.Proofs.Numbering
import Mathlib.Data.Finset.Card
import Mathlib.Data.List.Induction

/-!
# Numbers by first appearance

Tokens are pushed into a ground set one after another, and a token that was pushed before is
refused. So after any tokens the ground set holds the distinct ones among them, in the order in
which each appeared first (`tokens_ofTokens`).

A ground set can also be kept in a table of pairs that is searched from either side and refuses a
pair if one of its sides is taken, be it the token or the number. The number of a new token is the
size of the table then, and nothing in the table keeps this number free. What does is the history:
all pairs came in this way, so the numbers that are taken are those below the size. A table with
such a history answers every question as the ground set does (`PairTable.agrees_ofTokens`).
-/

namespace ExactCover.GroundSet

variable {g g' : GroundSet} {t : String} {ts : List String}

/-! ## Single pushes -/

/-- There are elements at the numbers below the size and at no others. -/
lemma element?_eq_none_iff {i : Nat} : g.element? i = none ↔ g.size ≤ i :=
  Array.getElem?_eq_none_iff

/-- A token that is accepted makes one element more. -/
lemma size_of_insert? (h : g.insert? t = some g') : g'.size = g.size + 1 := by
  rw [size, tokens_of_insert? h, Array.size_push]
  rfl

/-- A token that is accepted gets the next number, and the other numbers keep theirs. -/
lemma element?_of_insert? (h : g.insert? t = some g') (i : Nat) :
    g'.element? i = if i = g.size then some t else g.element? i := by
  rw [element?, tokens_of_insert? h, Array.getElem?_push]
  rfl

/-- A token that is accepted is found under the next number, and the others as before. -/
lemma indexOf?_of_insert? (h : g.insert? t = some g') (u : String) :
    g'.indexOf? u = if u = t then some g.size else g.indexOf? u := by
  obtain ⟨tokens, places, agree⟩ := g
  rw [insert?] at h
  split at h
  · cases h
  · cases h
    rw [indexOf?, Std.HashMap.getElem?_insert]
    simp only [beq_iff_eq, eq_comm (a := t)]
    rfl

/-- A push adds a new token at the end and leaves a known one where it is. -/
lemma tokens_getD_insert? (g : GroundSet) (t : String) :
    ((g.insert? t).getD g).tokens.toList =
      if t ∈ g.tokens.toList then g.tokens.toList else g.tokens.toList ++ [t] := by
  split
  · rename_i old
    rw [insert?_eq_none_iff.mpr old, Option.getD_none]
  · rename_i new
    obtain ⟨g', e⟩ := Option.ne_none_iff_exists'.mp fun none => new (insert?_eq_none_iff.mp none)
    rw [e, Option.getD_some, tokens_of_insert? e, Array.toList_push]

/-! ## Histories -/

/-- Later pushes go on from the set that the earlier ones leave. -/
lemma ofTokens_append (ts later : List String) :
    ofTokens (ts ++ later) = later.foldl (fun g t => (g.insert? t).getD g) (ofTokens ts) :=
  List.foldl_append

/-- The tokens of a ground set are the distinct ones of its history, each where it came first. -/
lemma tokens_ofTokens (ts : List String) : (ofTokens ts).tokens.toList = ts.eraseDups := by
  induction ts using List.reverseRecOn with
  | nil => rfl
  | append_singleton ts t ih =>
    rw [ofTokens_append, List.foldl_cons, List.foldl_nil, tokens_getD_insert?, ih,
      List.eraseDups_append]
    by_cases old : t ∈ ts
    · simp [List.removeAll, old]
    · simp [List.removeAll, old, List.eraseDups_cons]

/-- A push is accepted exactly if the token has not been pushed before. -/
lemma isSome_insert?_ofTokens_iff : ((ofTokens ts).insert? t).isSome = true ↔ t ∉ ts := by
  rw [Option.isSome_iff_ne_none, Ne, insert?_eq_none_iff, tokens_ofTokens, List.mem_eraseDups]

/-- A refused push leaves no trace. -/
lemma ofTokens_append_of_mem (old : t ∈ ts) (later : List String) :
    ofTokens (ts ++ t :: later) = ofTokens (ts ++ later) := by
  have refused : (ofTokens ts).insert? t = none := by
    rw [insert?_eq_none_iff, tokens_ofTokens, List.mem_eraseDups]
    exact old
  rw [ofTokens_append, List.foldl_cons, refused, Option.getD_none, ← ofTokens_append]

/-- The size is the number of different tokens. -/
lemma size_ofTokens (ts : List String) : (ofTokens ts).size = ts.toFinset.card := by
  have same : (ofTokens ts).tokens.toList.toFinset = ts.toFinset := by
    ext t
    rw [tokens_ofTokens, List.mem_toFinset, List.mem_toFinset, List.mem_eraseDups]
  rw [← same, List.toFinset_card_of_nodup (ofTokens ts).nodup_tokens, Array.length_toList]
  rfl

/-- The elements are the tokens without their repetitions. -/
lemma element?_ofTokens (ts : List String) (i : Nat) :
    (ofTokens ts).element? i = ts.eraseDups[i]? := by
  rw [element?, ← Array.getElem?_toList, tokens_ofTokens]

end ExactCover.GroundSet

namespace ExactCover

/-! ## Tables of pairs -/

/-- How to keep pairs of a token and a number so that each side is found by the other. A pair is
refused if its token or its number is in the table. -/
structure PairTable (τ : Type) where
  empty : τ
  size : τ → Nat
  number? : τ → String → Option Nat
  token? : τ → Nat → Option String
  /-- The table with one more pair. -/
  insert? : τ → String → Nat → Option τ
  size_empty : size empty = 0
  number?_empty : ∀ t, number? empty t = none
  token?_empty : ∀ n, token? empty n = none
  insert?_eq_none_iff : ∀ {b t n}, insert? b t n = none ↔ number? b t ≠ none ∨ token? b n ≠ none
  size_of_insert? : ∀ {b b' t n}, insert? b t n = some b' → size b' = size b + 1
  number?_of_insert? : ∀ {b b' t n}, insert? b t n = some b' →
    ∀ u, number? b' u = if u = t then some n else number? b u
  token?_of_insert? : ∀ {b b' t n}, insert? b t n = some b' →
    ∀ m, token? b' m = if m = n then some t else token? b m

namespace PairTable

variable {τ : Type} {T : PairTable τ} {b b' : τ} {g g' : GroundSet} {t : String}

/-- The table with a token under the next number. -/
def push? (T : PairTable τ) (b : τ) (t : String) : Option τ :=
  T.insert? b t (T.size b)

/-- The table after tokens were pushed; it stays as it is when one is refused. -/
def ofTokens (T : PairTable τ) (ts : List String) : τ :=
  ts.foldl (fun b t => (T.push? b t).getD b) T.empty

/-- The table answers as the ground set does. -/
structure Agrees (T : PairTable τ) (b : τ) (g : GroundSet) : Prop where
  size_eq : T.size b = g.size
  number?_eq : ∀ t, T.number? b t = g.indexOf? t
  token?_eq : ∀ i, T.token? b i = g.element? i

/-- The empty table agrees with the empty set. -/
lemma agrees_empty (T : PairTable τ) : T.Agrees T.empty .empty where
  size_eq := T.size_empty
  number?_eq t := by
    rw [T.number?_empty]
    exact (GroundSet.indexOf?_eq_none_iff.mpr List.not_mem_nil).symm
  token?_eq i := by
    rw [T.token?_empty]
    rfl

/-- The next number is free, so nothing but its token can keep a pair out. -/
lemma Agrees.push?_eq_none_iff (h : T.Agrees b g) : T.push? b t = none ↔ g.insert? t = none := by
  have free : T.token? b (T.size b) = none := by
    rw [h.token?_eq, h.size_eq, GroundSet.element?_eq_none_iff]
  have old : g.insert? t = none ↔ T.number? b t ≠ none := by
    rw [h.number?_eq, Ne, GroundSet.indexOf?_eq_none_iff, not_not, GroundSet.insert?_eq_none_iff]
  rw [push?, T.insert?_eq_none_iff, old]
  exact or_iff_left fun taken => taken free

/-- A token that both accept keeps them in agreement. -/
lemma Agrees.push? (h : T.Agrees b g) (hb : T.push? b t = some b') (hg : g.insert? t = some g') :
    T.Agrees b' g' where
  size_eq := by
    rw [T.size_of_insert? hb, GroundSet.size_of_insert? hg, h.size_eq]
  number?_eq u := by
    rw [T.number?_of_insert? hb, GroundSet.indexOf?_of_insert? hg, h.size_eq, h.number?_eq]
  token?_eq i := by
    rw [T.token?_of_insert? hb, GroundSet.element?_of_insert? hg, h.size_eq, h.token?_eq]

/-- Whether the token is refused or not, the two sides agree after the push. -/
lemma Agrees.getD_push? (h : T.Agrees b g) (t : String) :
    T.Agrees ((T.push? b t).getD b) ((g.insert? t).getD g) := by
  cases hb : T.push? b t with
  | none =>
    rw [h.push?_eq_none_iff.mp hb]
    exact h
  | some b' =>
    cases hg : g.insert? t with
    | none =>
      rw [h.push?_eq_none_iff.mpr hg] at hb
      cases hb
    | some g' => exact h.push? hb hg

/-- After any pushes the table agrees with the set. -/
lemma agrees_ofTokens (T : PairTable τ) (ts : List String) :
    T.Agrees (T.ofTokens ts) (.ofTokens ts) := by
  -- for any two sides that agree, since each push goes on from where the one before it ended
  suffices ∀ b g, T.Agrees b g → T.Agrees (ts.foldl (fun b t => (T.push? b t).getD b) b)
      (ts.foldl (fun g t => (g.insert? t).getD g) g) from this _ _ T.agrees_empty
  induction ts with
  | nil => exact fun b g h => h
  | cons t ts ih => exact fun b g h => ih _ _ (h.getD_push? t)

/-- After any pushes the table accepts the tokens that the set accepts. -/
lemma isSome_push?_ofTokens (T : PairTable τ) (ts : List String) (t : String) :
    (T.push? (T.ofTokens ts) t).isSome = ((GroundSet.ofTokens ts).insert? t).isSome := by
  rw [Bool.eq_iff_iff, Option.isSome_iff_ne_none, Option.isSome_iff_ne_none]
  exact not_congr (T.agrees_ofTokens ts).push?_eq_none_iff

/-- Pairs in a list. -/
def ofPairs : PairTable (List (String × Nat)) where
  empty := []
  size := List.length
  number? b t := (b.find? (·.1 == t)).map Prod.snd
  token? b n := (b.find? (·.2 == n)).map Prod.fst
  insert? b t n := if ∃ p ∈ b, p.1 = t ∨ p.2 = n then none else some ((t, n) :: b)
  size_empty := rfl
  number?_empty _ := rfl
  token?_empty _ := rfl
  insert?_eq_none_iff {b t n} := by
    rw [Option.ne_none_iff_isSome, Option.ne_none_iff_isSome, Option.isSome_map, Option.isSome_map,
      List.find?_isSome, List.find?_isSome]
    split
    · rename_i taken
      obtain ⟨p, hp, same⟩ := taken
      refine iff_of_true rfl ?_
      exact same.imp (fun e => ⟨p, hp, beq_iff_eq.mpr e⟩) fun e => ⟨p, hp, beq_iff_eq.mpr e⟩
    · rename_i free
      refine iff_of_false (Option.some_ne_none _) ?_
      rintro (⟨p, hp, e⟩ | ⟨p, hp, e⟩)
      · exact free ⟨p, hp, .inl (beq_iff_eq.mp e)⟩
      · exact free ⟨p, hp, .inr (beq_iff_eq.mp e)⟩
  size_of_insert? h := by
    obtain ⟨_, e⟩ := Option.ite_none_left_eq_some.mp h
    cases e
    rfl
  number?_of_insert? {b b' t n} h u := by
    obtain ⟨_, e⟩ := Option.ite_none_left_eq_some.mp h
    cases e
    by_cases same : u = t
    · simp [same]
    · simp [same, Ne.symm same]
  token?_of_insert? {b b' t n} h m := by
    obtain ⟨_, e⟩ := Option.ite_none_left_eq_some.mp h
    cases e
    by_cases same : m = n
    · simp [same]
    · simp [same, Ne.symm same]

end PairTable

/-! ## What pushes leave -/

namespace GroundSet

/-- After any pushes, a ground set numbers the distinct tokens among them in the order in which
each appeared first. A push succeeds if its token was not pushed before, and otherwise it might as
well not have been made. The numbers are those below the size, and numbers and tokens find each
other. A table of pairs, which would refuse a number too, never refuses one and gives the same
answers throughout. -/
theorem ofTokens_numbers_first_appearances (ts : List String) :
    (∀ t, ((ofTokens ts).insert? t).isSome = true ↔ t ∉ ts) ∧
    (ofTokens ts).size = ts.toFinset.card ∧
    (∀ i, (ofTokens ts).element? i = ts.eraseDups[i]?) ∧
    (∀ i, (ofTokens ts).element? i = none ↔ (ofTokens ts).size ≤ i) ∧
    (∀ t i, (ofTokens ts).indexOf? t = some i ↔ (ofTokens ts).element? i = some t) ∧
    (∀ t ∈ ts, ∀ later, ofTokens (ts ++ t :: later) = ofTokens (ts ++ later)) ∧
    ∀ (τ : Type) (T : PairTable τ), T.Agrees (T.ofTokens ts) (ofTokens ts) ∧
      ∀ t, (T.push? (T.ofTokens ts) t).isSome = ((ofTokens ts).insert? t).isSome :=
  ⟨fun _ => isSome_insert?_ofTokens_iff, size_ofTokens ts, element?_ofTokens ts,
    fun _ => element?_eq_none_iff, fun _ _ => indexOf?_eq_some_iff,
    fun _ old later => ofTokens_append_of_mem old later,
    fun _ T => ⟨T.agrees_ofTokens ts, T.isSome_push?_ofTokens ts⟩⟩

/-- The third of four pushes is refused, and the token after it has the number two, in a ground
set and in a list of pairs. -/
theorem ofTokens_numbers_first_appearances_four_pushes :
    ((ofTokens ["b", "a", "b", "c"]).insert? "a").isSome = false ∧
    (ofTokens ["b", "a", "b", "c"]).size = 3 ∧
    (ofTokens ["b", "a", "b", "c"]).element? 2 = some "c" ∧
    (ofTokens ["b", "a", "b", "c"]).indexOf? "c" = some 2 ∧
    (ofTokens ["b", "a", "b", "c"]).element? 3 = none ∧
    ofTokens (["b", "a"] ++ "b" :: ["c"]) = ofTokens (["b", "a"] ++ ["c"]) ∧
    PairTable.ofPairs.number? (PairTable.ofPairs.ofTokens ["b", "a", "b", "c"]) "c" = some 2 := by
  obtain ⟨succeeds, size, elements, ends, numbers, _, tables⟩ :=
    ofTokens_numbers_first_appearances ["b", "a", "b", "c"]
  obtain ⟨_, _, _, _, _, noTrace, _⟩ := ofTokens_numbers_first_appearances ["b", "a"]
  have refused := (succeeds "a").not.mpr (by decide)
  have third := (numbers "c" 2).mpr ((elements 2).trans rfl)
  have agrees := (tables _ PairTable.ofPairs).1
  refine ⟨Bool.eq_false_of_not_eq_true refused, size, elements 2, third, ?_, ?_, ?_⟩
  · exact (ends 3).mpr (Nat.le_of_eq size)
  · exact noTrace "b" (by decide) ["c"]
  · exact (agrees.number?_eq "c").trans third

end GroundSet

end ExactCover
