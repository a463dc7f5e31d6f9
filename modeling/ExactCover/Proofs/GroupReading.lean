import ExactCover.Brace.Family
import ExactCover.Proofs.Grammar

/-!
# Reading brace groups

The readers of lines and families accept the texts of the grammar and no others, and they find the
tokens that the grammar describes: `singleText_iff` and `familyText_iff`.

The readers know a group as the text between its braces, so the way there has two halves. First the
grammar is taken with such plain groups as its items (`readSingle_eq_ok_iff`,
`readFamily_eq_ok_iff`): a plain group is read wherever it stands, because no character that may
stand inside a group closes it, and a run of groups ends before the brace that closes the family.
Then the groups are relabelled by their tokens. The three ways in which reading a family ends are said
once (`readFamily_cases`).
-/

namespace ExactCover.Brace
open Text

/-! ## Spacing -/

/-- Spacing in front of a text is skipped with the spacing that the text begins with. -/
lemma skipSpacing_append {ws cs : List Char} (h : IsSpace ws) :
    skipSpacing (ws ++ cs) = skipSpacing cs :=
  List.dropWhile_append_of_pos h

/-- All the spacing in front of a text without any at its front is skipped, and no more. -/
lemma skipSpacing_append_stop {ws cs : List Char} (h : IsSpace ws) (stop : Stops isSpacing cs) :
    skipSpacing (ws ++ cs) = cs :=
  dropWhile_append_stop h stop

/-- Behind the spacing that is skipped there is no more of it. -/
lemma stops_skipSpacing (cs : List Char) : Stops isSpacing (skipSpacing cs) :=
  stops_dropWhile isSpacing cs

/-- What is skipped is spacing. -/
lemma exists_eq_append_skipSpacing (cs : List Char) :
    ∃ ws, IsSpace ws ∧ cs = ws ++ skipSpacing cs :=
  ⟨cs.takeWhile isSpacing, fun _ hc => List.mem_takeWhile_imp hc,
    List.takeWhile_append_dropWhile.symm⟩

/-- All of a text is skipped exactly if it is spacing. -/
lemma skipSpacing_eq_nil_iff {cs : List Char} : skipSpacing cs = [] ↔ IsSpace cs :=
  List.dropWhile_eq_nil_iff

/-! ## Reading a group -/

/-- Only token characters and spacing stand between the braces. -/
def Group.IsPlain (g : Group) : Prop :=
  ∀ c ∈ g.inner, isInnerChar c = true

/-- The text of a group. -/
def Group.text (g : Group) : List Char :=
  '{' :: g.inner ++ ['}']

/-- A group as the readers keep it. -/
def PlainText (g : Group) (cs : List Char) : Prop :=
  g.IsPlain ∧ cs = g.text

/-- The tokens of a group, with the text between its braces. -/
def Group.contents (g : Group) : List String × List Char :=
  (g.tokens, g.inner)

/-- A group of tokens is a plain group with these tokens. -/
lemma bracedText_iff (b : List String × List Char) (cs : List Char) :
    BracedText b cs ↔ ∃ g, PlainText g cs ∧ g.contents = b := by
  constructor
  · rintro ⟨inner⟩
    obtain ⟨plain, e⟩ := innerText_iff.mp inner
    refine ⟨⟨_⟩, ⟨plain, rfl⟩, ?_⟩
    rw [Group.contents, Group.tokens, e, List.map_map, String.ofList_comp_toList, List.map_id]
  · rintro ⟨g, ⟨plain, rfl⟩, rfl⟩
    refine .mk (innerText_iff.mpr ⟨plain, ?_⟩)
    rw [Group.tokens, List.map_map, String.toList_comp_ofList, List.map_id]

/-- The text of a group of tokens is that of a plain group with these tokens. -/
lemma groupText_iff (ts : List String) (cs : List Char) :
    GroupText ts cs ↔ ∃ g, PlainText g cs ∧ g.tokens = ts := by
  constructor
  · rintro ⟨inner⟩
    obtain ⟨g, plain, e⟩ := (bracedText_iff _ _).mp (.mk inner)
    exact ⟨g, plain, congrArg Prod.fst e⟩
  · rintro ⟨g, plain, rfl⟩
    have braced : BracedText (g.tokens, g.inner) cs := (bracedText_iff _ _).mpr ⟨g, plain, rfl⟩
    cases braced with
    | mk inner => exact .mk inner

/-- The text between the braces of a plain group ends at the closing brace. -/
lemma readGroup_text_append {g : Group} (plain : g.IsPlain) (rest : List Char) :
    readGroup (g.text ++ rest) = .ok (g, rest) := by
  have close : Stops isInnerChar ('}' :: rest) := by
    intro c hc
    cases hc
    decide
  rw [show g.text ++ rest = '{' :: (g.inner ++ '}' :: rest) by simp [Group.text], readGroup,
    dropWhile_append_stop plain close, takeWhile_append_stop plain close]
  rfl

/-- A group is read where a plain group stands, and nowhere else. -/
lemma readGroup_eq_ok_iff {cs rest : List Char} {g : Group} :
    readGroup cs = .ok (g, rest) ↔ g.IsPlain ∧ cs = g.text ++ rest := by
  constructor
  · intro h
    unfold readGroup at h
    split at h
    · rename_i cs
      split at h
      · rename_i rest' e
        cases h
        refine ⟨fun c hc => List.mem_takeWhile_imp hc, ?_⟩
        have whole := List.takeWhile_append_dropWhile (p := isInnerChar) (l := cs)
        rw [e] at whole
        simp [Group.text, whole]
      · cases h
    · cases h
  · rintro ⟨plain, rfl⟩
    exact readGroup_text_append plain rest

/-- A group does not begin with spacing. -/
lemma skipSpacing_text_append (g : Group) (rest : List Char) :
    skipSpacing (g.text ++ rest) = g.text ++ rest :=
  rfl

/-! ## Reading lines and families -/

/-- The end is reached exactly if only spacing is left. -/
lemma atEnd_eq_ok_iff {α : Type} {a b : α} {rest : List Char} :
    atEnd a rest = .ok b ↔ a = b ∧ IsSpace rest := by
  rw [← skipSpacing_eq_nil_iff]
  unfold atEnd
  split
  · rename_i e
    rw [Except.ok.injEq]
    exact ⟨fun h => ⟨h, e⟩, fun h => h.1⟩
  · rename_i stuck
    exact ⟨nofun, fun h => absurd h.2 stuck⟩

/-- A line is read exactly if it is a plain group with spacing around it. -/
lemma readSingle_eq_ok_iff {cs : List Char} {g : Group} :
    readSingle cs = .ok g ↔ Single PlainText g cs := by
  constructor
  · intro h
    unfold readSingle at h
    split at h
    · rename_i g' rest e
      obtain ⟨rfl, space'⟩ := atEnd_eq_ok_iff.mp h
      obtain ⟨plain, e⟩ := readGroup_eq_ok_iff.mp e
      obtain ⟨ws, space, whole⟩ := exists_eq_append_skipSpacing cs
      rw [whole, e, ← List.append_assoc]
      exact .mk space ⟨plain, rfl⟩ space'
    · cases h
  · rintro ⟨space, ⟨plain, rfl⟩, space'⟩
    rw [readSingle, List.append_assoc, skipSpacing_append space, skipSpacing_text_append,
      readGroup_text_append plain]
    exact atEnd_eq_ok_iff.mpr ⟨rfl, space'⟩

/-- A run of plain groups is read to its end. -/
lemma readGroups_append {gs : List Group} {cs : List Char} (run : Sequence PlainText gs cs)
    (rest : List Char) :
    readGroups (cs ++ rest) = (gs ++ (readGroups rest).1, (readGroups rest).2) := by
  induction run with
  | nil => rfl
  | @cons g gs ws cs run space item _ ih =>
    obtain ⟨plain, rfl⟩ := item
    have head : readGroup (skipSpacing (ws ++ g.text ++ run ++ rest)) = .ok (g, run ++ rest) := by
      rw [List.append_assoc, List.append_assoc, skipSpacing_append space,
        skipSpacing_text_append, readGroup_text_append plain]
    rw [readGroups]
    split
    · rename_i e
      rw [head] at e
      cases e
      rw [ih]
      rfl
    · rename_i e
      rw [head] at e
      cases e

/-- Where a group begins after the spacing, the run of groups goes on behind it. -/
lemma readGroups_of_ok {cs rest : List Char} {g : Group}
    (h : readGroup (skipSpacing cs) = .ok (g, rest)) :
    readGroups cs = (g :: (readGroups rest).1, (readGroups rest).2) := by
  obtain ⟨plain, front⟩ := readGroup_eq_ok_iff.mp h
  obtain ⟨ws, space, whole⟩ := exists_eq_append_skipSpacing cs
  -- read off `readGroups_append` for this one group, since the definition matches under a proof
  have read := readGroups_append (.cons space ⟨plain, rfl⟩ .nil) rest
  rw [List.append_nil, List.append_assoc, ← front, ← whole] at read
  exact read

/-- Where no group begins after the spacing, the run of groups ends. -/
lemma readGroups_of_error {cs stuck : List Char} (h : readGroup (skipSpacing cs) = .error stuck) :
    readGroups cs = ([], skipSpacing cs) := by
  rw [readGroups]
  split
  · rename_i e
    rw [h] at e
    cases e
  · rfl

/-- What is read of a run of groups stands at the front of the text, and spacing behind it. -/
lemma exists_eq_append_readGroups (cs : List Char) :
    ∃ run ws, Sequence PlainText (readGroups cs).1 run ∧ IsSpace ws ∧
      cs = run ++ ws ++ (readGroups cs).2 := by
  induction cs using readGroups.induct with
  | case1 cs g rest h _ _ _ ih =>
    obtain ⟨run, ws', groups, space', e⟩ := ih
    obtain ⟨plain, front⟩ := readGroup_eq_ok_iff.mp h
    obtain ⟨ws, space, whole⟩ := exists_eq_append_skipSpacing cs
    refine ⟨ws ++ g.text ++ run, ws', ?_, space', ?_⟩
    · rw [readGroups_of_ok h]
      exact .cons space ⟨plain, rfl⟩ groups
    · rw [readGroups_of_ok h]
      calc cs = ws ++ (g.text ++ rest) := by rw [← front, ← whole]
        _ = ws ++ (g.text ++ (run ++ ws' ++ (readGroups rest).2)) := by rw [← e]
        _ = ws ++ g.text ++ run ++ ws' ++ (readGroups rest).2 := by simp
  | case2 cs stuck h =>
    obtain ⟨ws, space, whole⟩ := exists_eq_append_skipSpacing cs
    refine ⟨[], ws, ?_, space, ?_⟩
    · rw [readGroups_of_error h]
      exact .nil
    · rw [readGroups_of_error h]
      exact whole

/-- Without an opening brace there is no family. -/
lemma readFamily_of_unopened {cs : List Char} (first : (skipSpacing cs).head? ≠ some '{') :
    readFamily cs = .error (skipSpacing cs) := by
  unfold readFamily
  split
  · rename_i opened
    rw [opened] at first
    exact absurd rfl first
  · rfl

section Opened

variable {cs inner : List Char} (opened : skipSpacing cs = '{' :: inner)
include opened

/-- Without a closing brace behind the groups the family breaks off there. -/
lemma readFamily_of_unclosed (close : (readGroups inner).2.head? ≠ some '}') :
    readFamily cs = .error (readGroups inner).2 := by
  simp only [readFamily, opened]
  split
  · rename_i read
    rw [read] at close
    exact absurd rfl close
  · rename_i read
    rw [read]

/-- Behind the closing brace only the end of the text may follow. -/
lemma readFamily_of_closed {rest : List Char} (close : (readGroups inner).2 = '}' :: rest) :
    readFamily cs = atEnd (readGroups inner).1 rest := by
  simp only [readFamily, opened]
  split
  · rename_i read
    rw [read] at close ⊢
    cases close
    rfl
  · rename_i unclosed read
    rw [read] at close
    exact (unclosed _ close).elim

end Opened

/-- Reading a family breaks off where its opening or its closing brace is missing; with both, what is
behind it decides. -/
lemma readFamily_cases (cs : List Char) :
    ((skipSpacing cs).head? ≠ some '{' ∧ readFamily cs = .error (skipSpacing cs)) ∨
      ∃ inner, skipSpacing cs = '{' :: inner ∧
        (((readGroups inner).2.head? ≠ some '}' ∧ readFamily cs = .error (readGroups inner).2) ∨
          ∃ rest, (readGroups inner).2 = '}' :: rest ∧
            readFamily cs = atEnd (readGroups inner).1 rest) := by
  by_cases first : (skipSpacing cs).head? = some '{'
  · obtain ⟨inner, opened⟩ := List.head?_eq_some_iff.mp first
    refine .inr ⟨inner, opened, ?_⟩
    by_cases close : (readGroups inner).2.head? = some '}'
    · obtain ⟨rest, closed⟩ := List.head?_eq_some_iff.mp close
      exact .inr ⟨rest, closed, readFamily_of_closed opened closed⟩
    · exact .inl ⟨close, readFamily_of_unclosed opened close⟩
  · exact .inl ⟨first, readFamily_of_unopened first⟩

/-- A family is read exactly if it is a family of plain groups. -/
lemma readFamily_eq_ok_iff {cs : List Char} {gs : List Group} :
    readFamily cs = .ok gs ↔ Family PlainText gs cs := by
  constructor
  · intro h
    rcases readFamily_cases cs with ⟨_, read⟩ | ⟨inner, opened, ⟨_, read⟩ | ⟨rest, closed, read⟩⟩
    · rw [read] at h
      cases h
    · rw [read] at h
      cases h
    · rw [read] at h
      obtain ⟨rfl, space''⟩ := atEnd_eq_ok_iff.mp h
      obtain ⟨ws, space, whole⟩ := exists_eq_append_skipSpacing cs
      obtain ⟨run, ws', groups, space', inner_eq⟩ := exists_eq_append_readGroups inner
      rw [closed] at inner_eq
      rw [opened, inner_eq] at whole
      rw [whole]
      exact .mk space groups space' space''
  · rintro ⟨space, groups, space', space''⟩
    rename_i ws cs ws' ws''
    have open_ : skipSpacing (ws ++ '{' :: (cs ++ ws' ++ '}' :: ws'')) =
        '{' :: (cs ++ ws' ++ '}' :: ws'') := skipSpacing_append space
    -- the run of groups stops at the closing brace, since no group begins there
    have close : readGroups (ws' ++ '}' :: ws'') = ([], '}' :: ws'') := by
      have brace : skipSpacing (ws' ++ '}' :: ws'') = '}' :: ws'' := skipSpacing_append space'
      rw [readGroups_of_error (by rw [brace]; rfl), brace]
    have read : readGroups (cs ++ ws' ++ '}' :: ws'') = (gs, '}' :: ws'') := by
      rw [List.append_assoc, readGroups_append groups, close, List.append_nil]
    rw [readFamily_of_closed open_ (congrArg Prod.snd read), read]
    exact atEnd_eq_ok_iff.mpr ⟨rfl, space''⟩

/-! ## Tokens in place of groups -/

section Relabel

variable {α β : Type} {Item : α → List Char → Prop} {Item' : β → List Char → Prop} {f : β → α}

/-- An item with spacing around it may be named by what it stands for. -/
lemma Single.relabel_iff (item : ∀ a cs, Item a cs ↔ ∃ b, Item' b cs ∧ f b = a) {a : α}
    {cs : List Char} : Single Item a cs ↔ ∃ b, Single Item' b cs ∧ f b = a := by
  constructor
  · rintro ⟨space, h, space'⟩
    obtain ⟨b, hb, rfl⟩ := (item _ _).mp h
    exact ⟨b, .mk space hb space', rfl⟩
  · rintro ⟨b, ⟨space, hb, space'⟩, rfl⟩
    exact .mk space ((item _ _).mpr ⟨b, hb, rfl⟩) space'

/-- Items one after another may be named by what they stand for. -/
lemma Sequence.relabel_iff (item : ∀ a cs, Item a cs ↔ ∃ b, Item' b cs ∧ f b = a) {as : List α}
    {cs : List Char} : Sequence Item as cs ↔ ∃ bs, Sequence Item' bs cs ∧ bs.map f = as := by
  constructor
  · intro run
    induction run with
    | nil => exact ⟨[], .nil, rfl⟩
    | cons space h _ ih =>
      obtain ⟨b, hb, rfl⟩ := (item _ _).mp h
      obtain ⟨bs, hbs, rfl⟩ := ih
      exact ⟨b :: bs, .cons space hb hbs, rfl⟩
  · rintro ⟨bs, run, rfl⟩
    induction run with
    | nil => exact .nil
    | cons space hb _ ih => exact .cons space ((item _ _).mpr ⟨_, hb, rfl⟩) ih

/-- The items of a family may be named by what they stand for. -/
lemma Family.relabel_iff (item : ∀ a cs, Item a cs ↔ ∃ b, Item' b cs ∧ f b = a) {as : List α}
    {cs : List Char} : Family Item as cs ↔ ∃ bs, Family Item' bs cs ∧ bs.map f = as := by
  constructor
  · rintro ⟨space, run, space', space''⟩
    obtain ⟨bs, hbs, e⟩ := (Sequence.relabel_iff item).mp run
    exact ⟨bs, .mk space hbs space' space'', e⟩
  · rintro ⟨bs, ⟨space, run, space', space''⟩, e⟩
    exact .mk space ((Sequence.relabel_iff item).mpr ⟨bs, run, e⟩) space' space''

end Relabel

/-- A line is one group of tokens exactly if it is read as a group with these tokens. -/
lemma singleText_iff {ts : List String} {cs : List Char} :
    SingleText ts cs ↔ ∃ g, readSingle cs = .ok g ∧ g.tokens = ts := by
  simp only [readSingle_eq_ok_iff]
  exact Single.relabel_iff groupText_iff

/-- A text is a family of groups of tokens exactly if it is read as groups with these tokens. -/
lemma familyText_iff {tss : List (List String)} {cs : List Char} :
    FamilyText tss cs ↔ ∃ gs, readFamily cs = .ok gs ∧ gs.map Group.tokens = tss := by
  simp only [readFamily_eq_ok_iff]
  exact Family.relabel_iff groupText_iff

/-- A family of groups is read, and the text between their braces is kept. -/
lemma familyBracedText_iff {bs : List (List String × List Char)} {cs : List Char} :
    Family BracedText bs cs ↔ ∃ gs, readFamily cs = .ok gs ∧ gs.map Group.contents = bs := by
  simp only [readFamily_eq_ok_iff]
  exact Family.relabel_iff bracedText_iff

end ExactCover.Brace
