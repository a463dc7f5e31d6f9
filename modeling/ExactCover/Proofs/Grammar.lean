import ExactCover.Brace.Group
import ExactCover.Proofs.Runs

/-!
# The grammar of brace groups

The two forms of text that hold groups of tokens, described without a reader: a line with one group
(`SingleText`) and a family of groups (`FamilyText`). A description relates a text to the tokens it
lists, and leaves open how much spacing stands where spacing is allowed.

The last lemma, `innerText_iff`, says what the description comes to between the braces of a group:
any text of token characters and spacing is a run of tokens with spacing around it, and the tokens
are its words.
-/

namespace ExactCover.Brace
open Text

/-! ## The texts -/

/-- Any run of spaces, tabs, carriage returns and line feeds. -/
def IsSpace (cs : List Char) : Prop :=
  ∀ c ∈ cs, isSpacing c = true

/-- A non-empty run of characters that are neither white space nor braces. -/
def IsToken (cs : List Char) : Prop :=
  cs ≠ [] ∧ ∀ c ∈ cs, isTokenChar c = true

/-- Tokens one after another, with spacing between any two. -/
inductive TokenRun : List (List Char) → List Char → Prop where
  | nil :
    TokenRun [] []
  | last {t} :
    IsToken t →
    TokenRun [t] t
  | cons {t u ts ws cs} :
    IsToken t →
    IsSpace ws → ws ≠ [] →
    TokenRun (u :: ts) cs →
    TokenRun (t :: u :: ts) (t ++ ws ++ cs)

/-- What stands between the braces of a group: tokens with spacing around them. -/
inductive InnerText : List (List Char) → List Char → Prop where
  | mk {ts ws cs ws'} :
    IsSpace ws →
    TokenRun ts cs →
    IsSpace ws' →
    InnerText ts (ws ++ cs ++ ws')

/-- A group of tokens between braces. -/
inductive GroupText : List String → List Char → Prop where
  | mk {ts cs} :
    InnerText (ts.map String.toList) cs →
    GroupText ts ('{' :: cs ++ ['}'])

/-- A group of tokens between braces, with the text between them. -/
inductive BracedText : List String × List Char → List Char → Prop where
  | mk {ts cs} :
    InnerText (ts.map String.toList) cs →
    BracedText (ts, cs) ('{' :: cs ++ ['}'])

/-- Items one after another, each with spacing before it or without. -/
inductive Sequence {α : Type} (Item : α → List Char → Prop) : List α → List Char → Prop where
  | nil :
    Sequence Item [] []
  | cons {a as ws cs rest} :
    IsSpace ws →
    Item a cs →
    Sequence Item as rest →
    Sequence Item (a :: as) (ws ++ cs ++ rest)

/-- An item with spacing around it. -/
inductive Single {α : Type} (Item : α → List Char → Prop) : α → List Char → Prop where
  | mk {a ws cs ws'} :
    IsSpace ws →
    Item a cs →
    IsSpace ws' →
    Single Item a (ws ++ cs ++ ws')

/-- Items between braces, with spacing wherever it is allowed. -/
inductive Family {α : Type} (Item : α → List Char → Prop) : List α → List Char → Prop where
  | mk {as ws cs ws' ws''} :
    IsSpace ws →
    Sequence Item as cs →
    IsSpace ws' →
    IsSpace ws'' →
    Family Item as (ws ++ '{' :: (cs ++ ws' ++ '}' :: ws''))

/-- A line that holds one group of tokens. -/
abbrev SingleText : List String → List Char → Prop :=
  Single GroupText

/-- A family of groups of tokens. -/
abbrev FamilyText : List (List String) → List Char → Prop :=
  Family GroupText

/-! ## Classes of characters -/

/-- Spacing is not part of tokens. -/
lemma isTokenChar_of_isSpacing {c : Char} (h : isSpacing c = true) : isTokenChar c = false := by
  simp [isTokenChar, isWhiteSpace_of_isSpacing h]

/-- Tokens have no spacing. -/
lemma isSpacing_of_isTokenChar {c : Char} (h : isTokenChar c = true) : isSpacing c = false := by
  by_contra spacing
  rw [Bool.not_eq_false] at spacing
  rw [isTokenChar_of_isSpacing spacing] at h
  cases h

/-- The empty text is spacing. -/
lemma IsSpace.nil : IsSpace [] :=
  nofun

/-- Spacing behind spacing is spacing. -/
lemma IsSpace.append {ws ws' : List Char} (h : IsSpace ws) (h' : IsSpace ws') :
    IsSpace (ws ++ ws') := by
  intro c hc
  rcases List.mem_append.mp hc with hc | hc
  · exact h c hc
  · exact h' c hc

/-- Spacing may stand between braces. -/
lemma IsSpace.isInnerChar {ws : List Char} (h : IsSpace ws) : ∀ c ∈ ws, isInnerChar c = true := by
  intro c hc
  simp [Brace.isInnerChar, h c hc]

/-- Tokens may stand between braces. -/
lemma IsToken.isInnerChar {t : List Char} (h : IsToken t) : ∀ c ∈ t, isInnerChar c = true := by
  intro c hc
  simp [Brace.isInnerChar, h.2 c hc]

/-- Tokens have no white space of any kind. -/
lemma IsToken.isWhiteSpace {t : List Char} (h : IsToken t) :
    ∀ c ∈ t, Text.isWhiteSpace c = false := by
  intro c hc
  have := h.2 c hc
  simp only [isTokenChar, Bool.and_eq_true, Bool.not_eq_true'] at this
  exact this.1.1

/-! ## Words -/

/-- Spacing ends a word. Everything about words follows from this equation. -/
lemma words_append_cons {c : Char} (h : isSpacing c = true) (cs cs' : List Char) :
    words (cs ++ c :: cs') = words cs ++ words cs' := by
  rw [words, List.splitOnP_append_cons cs cs' h, List.filter_append]
  rfl

/-- Spacing in front adds no words. -/
lemma words_space_append {ws : List Char} (h : IsSpace ws) (cs : List Char) :
    words (ws ++ cs) = words cs := by
  induction ws with
  | nil => rfl
  | cons c ws ih =>
    have rest := ih fun c hc => h c (List.mem_cons_of_mem _ hc)
    rw [List.cons_append, ← List.nil_append (c :: (ws ++ cs)),
      words_append_cons (h c List.mem_cons_self), rest]
    rfl

/-- There are no words in spacing. -/
lemma words_space {ws : List Char} (h : IsSpace ws) : words ws = [] := by
  rw [← List.append_nil ws, words_space_append h]
  rfl

/-- Words on both sides of a gap are found apart. -/
lemma words_append_space_append {ws : List Char} (h : IsSpace ws) (ne : ws ≠ [])
    (cs cs' : List Char) : words (cs ++ ws ++ cs') = words cs ++ words cs' := by
  cases ws with
  | nil => exact absurd rfl ne
  | cons c ws =>
    rw [List.append_assoc, List.cons_append, words_append_cons (h c List.mem_cons_self),
      words_space_append fun c hc => h c (List.mem_cons_of_mem _ hc)]

/-- Spacing at the end adds no words. -/
lemma words_append_space {ws : List Char} (h : IsSpace ws) (cs : List Char) :
    words (cs ++ ws) = words cs := by
  cases ws with
  | nil => rw [List.append_nil]
  | cons c ws =>
    rw [words_append_cons (h c List.mem_cons_self),
      words_space fun c hc => h c (List.mem_cons_of_mem _ hc), List.append_nil]

/-- A token is a single word. -/
lemma words_token {t : List Char} (h : IsToken t) : words t = [t] := by
  rw [words, List.splitOnP_eq_singleton fun c hc => isSpacing_of_isTokenChar (h.2 c hc)]
  simp [h.1]

/-- The words of a run of tokens are the tokens. -/
lemma TokenRun.words_eq {ts cs} (run : TokenRun ts cs) : words cs = ts := by
  induction run with
  | nil => rfl
  | last token => exact words_token token
  | cons token gap apart _ ih =>
    rw [words_append_space_append gap apart, words_token token, ih]
    rfl

/-- A run of tokens may stand between braces. -/
lemma TokenRun.isInnerChar {ts cs} (run : TokenRun ts cs) : ∀ c ∈ cs, isInnerChar c = true := by
  induction run with
  | nil => exact nofun
  | last token => exact token.isInnerChar
  | cons token gap _ _ ih =>
    rw [List.forall_mem_append, List.forall_mem_append]
    exact ⟨⟨token.isInnerChar, gap.isInnerChar⟩, ih⟩

/-- A run with a token in it is not empty. -/
lemma TokenRun.ne_nil {t ts cs} (run : TokenRun (t :: ts) cs) : cs ≠ [] := by
  cases run with
  | last token => exact token.1
  | cons token _ _ _ =>
    exact List.append_ne_nil_of_left_ne_nil (List.append_ne_nil_of_left_ne_nil token.1 _) _

/-- A run of tokens begins with no white space. -/
lemma TokenRun.stops {ts cs} (run : TokenRun ts cs) : Stops Text.isWhiteSpace cs := by
  cases run with
  | nil => exact nofun
  | last token => exact .of_forall token.isWhiteSpace
  | cons token _ _ _ =>
    rw [List.append_assoc]
    exact (Stops.of_forall token.isWhiteSpace).append token.1 _

/-- A run of tokens ends with no white space. -/
lemma TokenRun.stops_reverse {ts cs} (run : TokenRun ts cs) :
    Stops Text.isWhiteSpace cs.reverse := by
  induction run with
  | nil => exact nofun
  | last token => exact .of_forall fun c hc => token.isWhiteSpace c (List.mem_reverse.mp hc)
  | cons _ _ _ run ih =>
    rw [List.reverse_append]
    exact ih.append (List.reverse_ne_nil_iff.mpr run.ne_nil) _

/-- A token character in front of an inner text begins a token or extends the first one. -/
lemma InnerText.cons_token {ts cs c} (inner : InnerText ts cs) (h : isTokenChar c = true) :
    ∃ ts', InnerText ts' (c :: cs) := by
  have token : IsToken [c] := ⟨nofun, fun d hd => List.mem_singleton.mp hd ▸ h⟩
  have extend : ∀ {t}, IsToken t → IsToken (c :: t) := fun ht =>
    ⟨nofun, fun d hd => by
      rcases List.mem_cons.mp hd with rfl | hd
      · exact h
      · exact ht.2 d hd⟩
  cases inner with
  | @mk ws cs ws' space run space' =>
    cases ws with
    -- with nothing between them the character belongs to the first token, if there is one
    | nil =>
      cases run with
      | nil => exact ⟨_, .mk .nil (.last token) space'⟩
      | last ht => exact ⟨_, .mk .nil (.last (extend ht)) space'⟩
      | cons ht gap apart rest => exact ⟨_, .mk .nil (.cons (extend ht) gap apart rest) space'⟩
    -- behind spacing it is a token of its own
    | cons w ws =>
      cases run with
      | nil =>
        have := InnerText.mk .nil (.last token) (space.append space')
        exact ⟨_, by simpa using this⟩
      | last ht =>
        have := InnerText.mk .nil (.cons token space nofun (.last ht)) space'
        exact ⟨_, by simpa using this⟩
      | cons ht gap apart rest =>
        have := InnerText.mk .nil (.cons token space nofun (.cons ht gap apart rest)) space'
        exact ⟨_, by simpa using this⟩

/-- A text of token characters and spacing is a run of tokens with spacing around it. -/
lemma exists_innerText {cs : List Char} (h : ∀ c ∈ cs, isInnerChar c = true) :
    ∃ ts, InnerText ts cs := by
  induction cs with
  | nil => exact ⟨[], .mk .nil .nil .nil⟩
  | cons c cs ih =>
    obtain ⟨ts, inner⟩ := ih fun c hc => h c (List.mem_cons_of_mem _ hc)
    have hc := h c List.mem_cons_self
    rw [Brace.isInnerChar, Bool.or_eq_true] at hc
    rcases hc with hc | hc
    · exact inner.cons_token hc
    · cases inner with
      | @mk ws _ _ space run space' =>
        have space'' : IsSpace (c :: ws) := by
          intro d hd
          rcases List.mem_cons.mp hd with rfl | hd
          · exact hc
          · exact space d hd
        exact ⟨ts, .mk space'' run space'⟩

/-- Between braces may stand token characters and spacing, and the tokens are the words. -/
lemma innerText_iff {ts : List (List Char)} {cs : List Char} :
    InnerText ts cs ↔ (∀ c ∈ cs, isInnerChar c = true) ∧ words cs = ts := by
  have forward : ∀ {ts}, InnerText ts cs → (∀ c ∈ cs, isInnerChar c = true) ∧ words cs = ts := by
    rintro ts ⟨space, run, space'⟩
    constructor
    · rw [List.forall_mem_append, List.forall_mem_append]
      exact ⟨⟨space.isInnerChar, run.isInnerChar⟩, space'.isInnerChar⟩
    · rw [words_append_space space', words_space_append space, run.words_eq]
  constructor
  · exact forward
  · rintro ⟨inner, rfl⟩
    -- some tokens make up the text, and by the other direction they can only be the words
    obtain ⟨ts, text⟩ := exists_innerText inner
    rw [(forward text).2]
    exact text

/-! ## Tokens of a text -/

/-- A run of tokens lists nothing else. -/
lemma TokenRun.isToken {ts cs} (run : TokenRun ts cs) : ∀ t ∈ ts, IsToken t := by
  induction run with
  | nil => exact nofun
  | last token => exact List.forall_mem_singleton.mpr token
  | cons token _ _ _ ih => exact List.forall_mem_cons.mpr ⟨token, ih⟩

/-- The group of a line lists tokens. -/
lemma SingleText.isToken {ts : List String} {cs : List Char} (h : SingleText ts cs) :
    ∀ t ∈ ts, IsToken t.toList := by
  obtain ⟨_, ⟨⟨_, run, _⟩⟩, _⟩ := h
  exact List.forall_mem_map.mp run.isToken

/-! ## Texts that are written -/

/-- A blank is spacing. -/
lemma isSpace_blank : IsSpace [' '] := by
  simp [IsSpace, isSpacing]

/-- A line feed is spacing. -/
lemma isSpace_feed : IsSpace ['\n'] := by
  simp [IsSpace, isSpacing]

/-- Tokens with single blanks between them are a run of tokens. -/
lemma tokenRun_intercalate {ts : List String} (tokens : ∀ t ∈ ts, IsToken t.toList) :
    TokenRun (ts.map String.toList) (" ".intercalate ts).toList := by
  induction ts with
  | nil => exact .nil
  | cons t ts ih =>
    obtain ⟨token, later⟩ := List.forall_mem_cons.mp tokens
    cases ts with
    | nil =>
      rw [String.intercalate_singleton]
      exact .last token
    | cons u ts =>
      rw [String.intercalate_cons_cons, String.toList_append, String.toList_append]
      exact .cons token isSpace_blank nofun (ih later)

section Lines

variable {α : Type} {Item : α → List Char → Prop} {text : α → List Char} {as : List α}
  {lead ws ws₁ ws₂ ws₃ : List Char}

/-- Items on lines of their own, with spacing in front of all: each item has spacing before it, and
the end of the last line is left. -/
lemma exists_sequence_lines (space : IsSpace ws) (indent : IsSpace lead)
    (item : ∀ a ∈ as, Item a (text a)) :
    ∃ cs ws', Sequence Item as cs ∧ IsSpace ws' ∧
      ws ++ as.flatMap (fun a => lead ++ text a ++ ['\n']) = cs ++ ws' := by
  induction as generalizing ws with
  | nil => exact ⟨[], ws, .nil, space, List.append_nil ws⟩
  | cons a as ih =>
    obtain ⟨first, later⟩ := List.forall_mem_cons.mp item
    obtain ⟨cs, ws', run, space', split⟩ := ih isSpace_feed later
    refine ⟨_, ws', .cons (space.append indent) first run, space', ?_⟩
    rw [List.append_assoc, ← split, List.flatMap_cons]
    simp only [List.append_assoc]

/-- Items on lines of their own between braces are a family. -/
lemma Family.of_lines (space : IsSpace ws) (space₁ : IsSpace ws₁) (space₂ : IsSpace ws₂)
    (space₃ : IsSpace ws₃) (indent : IsSpace lead) (item : ∀ a ∈ as, Item a (text a)) :
    Family Item as (ws ++ '{' ::
      (ws₁ ++ as.flatMap (fun a => lead ++ text a ++ ['\n']) ++ ws₂ ++ '}' :: ws₃)) := by
  obtain ⟨cs, ws', run, space', split⟩ := exists_sequence_lines space₁ indent item
  rw [split, List.append_assoc cs]
  exact .mk space run (space'.append space₂) space₃

end Lines

/-! ## White space of other kinds -/

/-- All white space in a text is spacing. -/
def OnlySpacing (cs : List Char) : Prop :=
  ∀ c ∈ cs, isWhiteSpace c = true → isSpacing c = true

/-- Two texts without other white space have none together. -/
lemma OnlySpacing.append {cs cs' : List Char} (h : OnlySpacing cs) (h' : OnlySpacing cs') :
    OnlySpacing (cs ++ cs') := by
  intro c hc
  rcases List.mem_append.mp hc with hc | hc
  · exact h c hc
  · exact h' c hc

/-- A character that is no other white space may come in front. -/
lemma OnlySpacing.cons {c : Char} {cs : List Char} (hc : isWhiteSpace c = true → isSpacing c = true)
    (h : OnlySpacing cs) : OnlySpacing (c :: cs) :=
  List.forall_mem_cons.mpr ⟨hc, h⟩

/-- Spacing is no other white space. -/
lemma IsSpace.onlySpacing {ws : List Char} (h : IsSpace ws) : OnlySpacing ws :=
  fun c hc _ => h c hc

/-- A group has no white space but spacing. -/
lemma GroupText.onlySpacing {ts : List String} {cs : List Char} (h : GroupText ts cs) :
    OnlySpacing cs := by
  obtain ⟨inner⟩ := h
  have plain : OnlySpacing _ := fun c hc blank => by
    have hc := (innerText_iff.mp inner).1 c hc
    rw [Brace.isInnerChar, isTokenChar, blank] at hc
    exact hc
  exact (OnlySpacing.cons (by decide) plain).append (.cons (by decide) nofun)

/-- A line with one group has no white space but spacing. -/
lemma SingleText.onlySpacing {ts : List String} {cs : List Char} (h : SingleText ts cs) :
    OnlySpacing cs := by
  obtain ⟨space, group, space'⟩ := h
  exact (space.onlySpacing.append group.onlySpacing).append space'.onlySpacing

/-- Groups one after another have no white space but spacing. -/
lemma onlySpacing_of_sequence {tss : List (List String)} {cs : List Char}
    (h : Sequence GroupText tss cs) : OnlySpacing cs := by
  induction h with
  | nil => exact nofun
  | cons gap group _ ih => exact (gap.onlySpacing.append group.onlySpacing).append ih

/-- A family has no white space but spacing. -/
lemma FamilyText.onlySpacing {tss : List (List String)} {cs : List Char} (h : FamilyText tss cs) :
    OnlySpacing cs := by
  obtain ⟨space, groups, space', space''⟩ := h
  have inner := (onlySpacing_of_sequence groups).append space'.onlySpacing
  refine space.onlySpacing.append (.cons (by decide) ?_)
  exact inner.append (.cons (by decide) space''.onlySpacing)

end ExactCover.Brace
