import ExactCover.Proofs.GroupReading

/-!
# Where reading breaks off

The places at which a line or a family cannot be read on. `SingleBreak` and `FamilyBreak` describe
them: what stands in front of the place, and what behind it keeps the text from going on. The readers
break off at such places and at no others (`readSingle_eq_error_iff`, `readFamily_eq_error_iff`).

Of a line the text in front of a break is as much as can be completed to a line with one group
(`SingleBreak.longest`), for the next character alone decides that reading breaks off there. In a
family a group that fails is given up from its opening brace, so in front of the break stands the
longest run of whole groups.

A group fails at the same place if its tokens are read one after another (`readGroupByTokens_eq`).
-/

namespace ExactCover.Brace
open Text

/-! ## Breaks -/

/-- Reading a line as one group breaks off behind `front`, with `rest` still to read. -/
inductive SingleBreak : List Char → List Char → Prop where
  | unopened {ws rest} :
    IsSpace ws → Stops isSpacing rest →
    rest.head? ≠ some '{' →
    SingleBreak ws rest
  | unclosed {ws inner rest} :
    IsSpace ws →
    (∀ c ∈ inner, isInnerChar c = true) → Stops isInnerChar rest →
    rest.head? ≠ some '}' →
    SingleBreak (ws ++ '{' :: inner) rest
  | trailing {ts front rest} :
    SingleText ts front → Stops isSpacing rest →
    rest ≠ [] →
    SingleBreak front rest

/-- A group begins the text. -/
def BeginsGroup (cs : List Char) : Prop :=
  ∃ ts group rest, GroupText ts group ∧ cs = group ++ rest

/-- The longest sequence of groups that begins the text. -/
structure LongestRun (run cs : List Char) : Prop where
  groups : ∃ tss, Sequence GroupText tss run
  begins : run <+: cs
  longest : ∀ tss run', Sequence GroupText tss run' → run' <+: cs → run' <+: run

/-- Reading a family breaks off behind `front`, with `rest` still to read. -/
inductive FamilyBreak : List Char → List Char → Prop where
  | unopened {ws rest} :
    IsSpace ws → Stops isSpacing rest →
    rest.head? ≠ some '{' →
    FamilyBreak ws rest
  | unclosed {ws run ws' rest} :
    IsSpace ws →
    LongestRun run (run ++ ws' ++ rest) →
    IsSpace ws' → Stops isSpacing rest →
    rest.head? ≠ some '}' → ¬BeginsGroup rest →
    FamilyBreak (ws ++ '{' :: (run ++ ws')) rest
  | trailing {tss front rest} :
    FamilyText tss front → Stops isSpacing rest →
    rest ≠ [] →
    FamilyBreak front rest

/-- The text can be completed to a line with one group. -/
def BeginsSingle (cs : List Char) : Prop :=
  ∃ more ts, '\n' ∉ more ∧ SingleText ts (cs ++ more)

/-- The text can be completed to a family of groups. -/
def BeginsFamily (cs : List Char) : Prop :=
  ∃ more tss, FamilyText tss (cs ++ more)

variable {cs front rest : List Char}

/-! ## Failing groups -/

/-- A text begins with a group exactly if one can be read from it. -/
lemma beginsGroup_iff : BeginsGroup cs ↔ ∃ read, readGroup cs = .ok read := by
  constructor
  · rintro ⟨ts, group, rest, text, rfl⟩
    obtain ⟨g, ⟨plain, rfl⟩, _⟩ := (groupText_iff ts group).mp text
    exact ⟨_, readGroup_text_append plain rest⟩
  · rintro ⟨⟨g, rest⟩, read⟩
    obtain ⟨plain, rfl⟩ := readGroup_eq_ok_iff.mp read
    exact ⟨g.tokens, g.text, rest, (groupText_iff _ _).mpr ⟨g, ⟨plain, rfl⟩, rfl⟩, rfl⟩

/-- A text begins with no group exactly if reading one fails. -/
lemma not_beginsGroup_iff : ¬BeginsGroup cs ↔ ∃ stuck, readGroup cs = .error stuck := by
  rw [beginsGroup_iff]
  cases readGroup cs with
  | error stuck => exact ⟨fun _ => ⟨stuck, rfl⟩, fun _ => nofun⟩
  | ok read => exact ⟨fun h => absurd ⟨read, rfl⟩ h, nofun⟩

/-- A group fails at its first character, or where the longest run of characters that may stand
between braces is not closed. -/
lemma readGroup_eq_error_iff : readGroup cs = .error rest ↔
    cs = rest ∧ rest.head? ≠ some '{' ∨
      ∃ inner, cs = '{' :: (inner ++ rest) ∧ (∀ c ∈ inner, isInnerChar c = true) ∧
        Stops isInnerChar rest ∧ rest.head? ≠ some '}' := by
  constructor
  · intro h
    unfold readGroup at h
    split at h
    case h_1 cs =>
      split at h
      case h_1 => cases h
      case h_2 open_ =>
        cases h
        refine .inr ⟨cs.takeWhile isInnerChar, ?_, fun c hc => List.mem_takeWhile_imp hc,
          stops_dropWhile _ _, fun close => ?_⟩
        · rw [List.takeWhile_append_dropWhile]
        · obtain ⟨behind, e⟩ := List.head?_eq_some_iff.mp close
          exact open_ behind e
    case h_2 closed =>
      cases h
      refine .inl ⟨rfl, fun first => ?_⟩
      obtain ⟨behind, rfl⟩ := List.head?_eq_some_iff.mp first
      exact closed behind rfl
  · rintro (⟨rfl, first⟩ | ⟨inner, rfl, plain, stop, close⟩)
    · unfold readGroup
      split
      · exact absurd rfl first
      · rfl
    · rw [readGroup, dropWhile_append_stop plain stop]
      split
      · exact absurd rfl close
      · rfl

/-! ## Groups token by token -/

/-- The tokens from here on, each with the spacing behind it, and the text after them. -/
def readTokens (cs : List Char) : List (List Char) × List Char :=
  match _h : cs.takeWhile isTokenChar with
  | [] => ([], cs)
  | c :: t =>
    let (ts, stuck) := readTokens (skipSpacing (cs.dropWhile isTokenChar))
    ((c :: t) :: ts, stuck)
termination_by cs.length
decreasing_by
  have whole := congrArg List.length (List.takeWhile_append_dropWhile (p := isTokenChar) (l := cs))
  have shorter := (List.dropWhile_suffix isSpacing (l := cs.dropWhile isTokenChar)).length_le
  rw [_h, List.length_append, List.length_cons] at whole
  simp only [skipSpacing] at *
  omega

/-- Reads a group whose tokens are taken one after another. -/
def readGroupByTokens : List Char → Except (List Char) (List String × List Char)
  | '{' :: cs =>
    match readTokens (skipSpacing cs) with
    | (ts, '}' :: rest) => .ok (ts.map String.ofList, rest)
    | (_, stuck) => .error stuck
  | stuck => .error stuck

/-- Where no token begins none is read. -/
lemma readTokens_of_stops (stop : Stops isTokenChar cs) : readTokens cs = ([], cs) := by
  have none := takeWhile_of_stops stop
  rw [readTokens]
  split
  case h_1 => rfl
  case h_2 token =>
    rw [none] at token
    cases token

/-- A token in front is read first, then those behind the spacing. -/
lemma readTokens_append {t : List Char} (token : IsToken t) (stop : Stops isTokenChar rest) :
    readTokens (t ++ rest) =
      (t :: (readTokens (skipSpacing rest)).1, (readTokens (skipSpacing rest)).2) := by
  have first := takeWhile_append_stop token.2 stop
  have behind := dropWhile_append_stop token.2 stop
  rw [readTokens]
  split
  case h_1 none =>
    rw [first] at none
    exact absurd none token.1
  case h_2 c t' read =>
    rw [first] at read
    rw [behind, read]

/-- What is neither a token nor spacing does not go on between braces. -/
lemma stops_isInnerChar (token : Stops isTokenChar cs) (space : Stops isSpacing cs) :
    Stops isInnerChar cs := by
  intro c hc
  rw [isInnerChar, token c hc, space c hc]
  rfl

/-- The tokens are the words of the longest run of characters that may stand between braces, and
they end with it. -/
lemma readTokens_eq (stop : Stops isSpacing cs) :
    readTokens cs = (words (cs.takeWhile isInnerChar), cs.dropWhile isInnerChar) := by
  induction cs using readTokens.induct with
  | case1 cs none =>
    have whole := List.takeWhile_append_dropWhile (p := isTokenChar) (l := cs)
    have outside := stops_dropWhile isTokenChar cs
    rw [none, List.nil_append] at whole
    rw [whole] at outside
    have inner := stops_isInnerChar outside stop
    rw [readTokens_of_stops outside, takeWhile_of_stops inner, dropWhile_of_stops inner]
    rfl
  | case2 cs c t read _ _ _ ih =>
    have whole := List.takeWhile_append_dropWhile (p := isTokenChar) (l := cs)
    have outside := stops_dropWhile isTokenChar cs
    have token : IsToken (c :: t) :=
      ⟨nofun, fun d hd => List.mem_takeWhile_imp (p := isTokenChar) (l := cs) (read ▸ hd)⟩
    rw [read] at whole
    generalize cs.dropWhile isTokenChar = behind at whole outside ih
    obtain ⟨ws, space, split⟩ := exists_eq_append_skipSpacing behind
    have later := stops_skipSpacing behind
    have words_eq : words (c :: t ++ ws ++ (skipSpacing behind).takeWhile isInnerChar) =
        (c :: t) :: words ((skipSpacing behind).takeWhile isInnerChar) := by
      cases ws with
      -- no spacing behind the token means that the run ends with it
      | nil =>
        rw [List.nil_append] at split
        rw [split] at outside
        rw [takeWhile_of_stops (stops_isInnerChar outside later), List.append_nil, List.append_nil,
          words_token token]
        rfl
      | cons w ws =>
        rw [words_append_space_append space nofun, words_token token]
        rfl
    have inner : ∀ d ∈ c :: t ++ ws, isInnerChar d = true :=
      List.forall_mem_append.mpr ⟨token.isInnerChar, space.isInnerChar⟩
    have front : cs = c :: t ++ ws ++ skipSpacing behind := by
      rw [← whole, List.append_assoc, ← split]
    rw [← whole, readTokens_append token outside, ih later, whole, front,
      List.takeWhile_append_of_pos inner, List.dropWhile_append_of_pos inner, words_eq]

/-- Token by token the words up to the next brace are read. -/
lemma readTokens_skipSpacing (cs : List Char) :
    readTokens (skipSpacing cs) = (words (cs.takeWhile isInnerChar), cs.dropWhile isInnerChar) := by
  obtain ⟨ws, space, whole⟩ := exists_eq_append_skipSpacing cs
  have front : cs.takeWhile isInnerChar = ws ++ (skipSpacing cs).takeWhile isInnerChar :=
    calc cs.takeWhile isInnerChar
      _ = (ws ++ skipSpacing cs).takeWhile isInnerChar := by rw [← whole]
      _ = ws ++ (skipSpacing cs).takeWhile isInnerChar :=
        List.takeWhile_append_of_pos space.isInnerChar
  have behind : cs.dropWhile isInnerChar = (skipSpacing cs).dropWhile isInnerChar :=
    calc cs.dropWhile isInnerChar
      _ = (ws ++ skipSpacing cs).dropWhile isInnerChar := by rw [← whole]
      _ = (skipSpacing cs).dropWhile isInnerChar := List.dropWhile_append_of_pos space.isInnerChar
  rw [front, behind, words_space_append space]
  exact readTokens_eq (stops_skipSpacing cs)

/-- Reading a group token by token comes to the same, also in where it fails. -/
lemma readGroupByTokens_eq (cs : List Char) :
    readGroupByTokens cs = (readGroup cs).map fun (g, rest) => (g.tokens, rest) := by
  unfold readGroupByTokens
  split
  case h_1 cs =>
    rw [readTokens_skipSpacing, readGroup]
    generalize tail : cs.dropWhile isInnerChar = stuck
    split
    case h_1 e =>
      cases e
      rfl
    case h_2 open_ e =>
      cases e
      split
      · exact (open_ _ rfl).elim
      · rfl
  case h_2 closed =>
    unfold readGroup
    split
    · exact (closed _ rfl).elim
    · rfl

/-! ## Lines -/

/-- The end is missed exactly if something is left behind the spacing. -/
lemma atEnd_eq_error_iff {α : Type} {a : α} :
    atEnd a cs = .error rest ↔ skipSpacing cs = rest ∧ rest ≠ [] := by
  unfold atEnd
  split
  case h_1 ended =>
    rw [ended]
    exact ⟨nofun, fun h => absurd h.1.symm h.2⟩
  case h_2 more =>
    rw [Except.error.injEq]
    exact ⟨fun e => ⟨e, e ▸ more⟩, fun h => h.1⟩

/-- Where reading a line breaks off there is a break. -/
lemma exists_singleBreak_of_readSingle (h : readSingle cs = .error rest) :
    ∃ front, cs = front ++ rest ∧ SingleBreak front rest := by
  obtain ⟨ws, space, whole⟩ := exists_eq_append_skipSpacing cs
  unfold readSingle at h
  split at h
  case h_1 g behind read =>
    obtain ⟨skipped, more⟩ := atEnd_eq_error_iff.mp h
    obtain ⟨plain, group⟩ := readGroup_eq_ok_iff.mp read
    obtain ⟨ws', space', behind_eq⟩ := exists_eq_append_skipSpacing behind
    have stop := stops_skipSpacing behind
    rw [skipped] at behind_eq stop
    have line := readSingle_eq_ok_iff.mpr (.mk space ⟨plain, rfl⟩ space')
    refine ⟨_, ?_, .trailing (singleText_iff.mpr ⟨g, line, rfl⟩) stop more⟩
    rw [whole, group, behind_eq]
    simp
  case h_2 stuck read =>
    cases h
    rcases readGroup_eq_error_iff.mp read with ⟨skipped, first⟩ | ⟨inner, group, plain, stop, close⟩
    · have stop := stops_skipSpacing cs
      rw [skipped] at whole stop
      exact ⟨ws, whole, .unopened space stop first⟩
    · refine ⟨ws ++ '{' :: inner, ?_, .unclosed space plain stop close⟩
      rw [whole, group]
      simp

/-- Reading a line breaks off at a break. -/
lemma SingleBreak.readSingle_eq (h : SingleBreak front rest) :
    readSingle (front ++ rest) = .error rest := by
  cases h with
  | unopened space stop first =>
    rw [readSingle, skipSpacing_append_stop space stop,
      readGroup_eq_error_iff.mpr (.inl ⟨rfl, first⟩)]
  | @unclosed ws inner _ space plain stop close =>
    have skipped : skipSpacing (ws ++ '{' :: inner ++ rest) = '{' :: (inner ++ rest) := by
      rw [List.append_assoc, skipSpacing_append space]
      rfl
    rw [readSingle, skipped, readGroup_eq_error_iff.mpr (.inr ⟨inner, rfl, plain, stop, close⟩)]
  | trailing text stop more =>
    obtain ⟨g, read, _⟩ := singleText_iff.mp text
    obtain ⟨space, ⟨plain, rfl⟩, space'⟩ := readSingle_eq_ok_iff.mp read
    rename_i ws ws'
    have skipped : skipSpacing (ws ++ g.text ++ ws' ++ rest) = g.text ++ (ws' ++ rest) := by
      rw [List.append_assoc, List.append_assoc, skipSpacing_append space, skipSpacing_text_append]
    rw [readSingle, skipped, readGroup_text_append plain]
    exact atEnd_eq_error_iff.mpr ⟨skipSpacing_append_stop space' stop, more⟩

/-- Reading a line breaks off at a break, and at no other place. -/
lemma readSingle_eq_error_iff :
    readSingle cs = .error rest ↔ ∃ front, cs = front ++ rest ∧ SingleBreak front rest := by
  refine ⟨exists_singleBreak_of_readSingle, ?_⟩
  rintro ⟨front, rfl, broken⟩
  exact broken.readSingle_eq

/-- The character behind a break decides that it is one, whatever comes after it. -/
lemma SingleBreak.of_cons {c : Char} {rest' : List Char} (h : SingleBreak front (c :: rest)) :
    SingleBreak front (c :: rest') := by
  cases h with
  | unopened space stop first => exact .unopened space stop first
  | unclosed space plain stop close => exact .unclosed space plain stop close
  | trailing text stop _ => exact .trailing text stop nofun

/-- Any text of characters that may stand between braces makes up a group. -/
lemma exists_groupText {inner : List Char} (plain : ∀ c ∈ inner, isInnerChar c = true) :
    ∃ ts, GroupText ts ('{' :: inner ++ ['}']) :=
  ⟨_, (groupText_iff _ _).mpr ⟨⟨inner⟩, ⟨plain, rfl⟩, rfl⟩⟩

/-- What stands in front of a break can be completed. -/
lemma SingleBreak.beginsSingle (h : SingleBreak front rest) : BeginsSingle front := by
  cases h with
  | unopened space _ _ =>
    have none : ∀ c ∈ ([] : List Char), isInnerChar c = true := nofun
    obtain ⟨ts, group⟩ := exists_groupText none
    have line := Single.mk space group .nil
    rw [List.append_nil] at line
    exact ⟨['{', '}'], ts, by decide, line⟩
  | unclosed space plain _ _ =>
    obtain ⟨ts, group⟩ := exists_groupText plain
    have line := Single.mk space group .nil
    rw [List.append_nil, ← List.append_assoc] at line
    exact ⟨['}'], ts, by decide, line⟩
  | @trailing ts _ _ text _ _ =>
    rw [← List.append_nil front] at text
    exact ⟨[], ts, nofun, text⟩

/-- No more of the line can be completed than what stands in front of the break. -/
lemma SingleBreak.longest (h : SingleBreak front rest) {front' more : List Char} {ts : List String}
    (begins : front' <+: front ++ rest) (text : SingleText ts (front' ++ more)) :
    front' <+: front := by
  rcases List.prefix_or_prefix_of_prefix begins (List.prefix_append front rest) with shorter | longer
  · exact shorter
  -- otherwise the text that is completed runs over the break, and reading it breaks off there too
  · obtain ⟨beyond, rfl⟩ := longer
    obtain ⟨behind, e⟩ := begins
    rw [List.append_assoc] at e
    have rest_eq := List.append_cancel_left e
    cases beyond with
    | nil => exact (List.append_nil front).symm ▸ List.prefix_rfl
    | cons c beyond =>
      rw [← rest_eq] at h
      have broken : SingleBreak front (c :: (beyond ++ more)) := h.of_cons
      obtain ⟨g, read, _⟩ := singleText_iff.mp text
      rw [List.append_assoc, List.cons_append, broken.readSingle_eq] at read
      cases read

/-! ## Families -/

/-- Spacing and the group behind it are found again in the text that they begin. -/
lemma space_text_append_inj {ws ws' cs' : List Char} {g g' : Group} (space : IsSpace ws)
    (space' : IsSpace ws') (plain : g.IsPlain) (plain' : g'.IsPlain)
    (e : ws ++ g.text ++ cs = ws' ++ g'.text ++ cs') : ws = ws' ∧ g = g' ∧ cs = cs' := by
  have groups : g.text ++ cs = g'.text ++ cs' := by
    have skipped := congrArg skipSpacing e
    rw [List.append_assoc, List.append_assoc, skipSpacing_append space, skipSpacing_append space',
      skipSpacing_text_append, skipSpacing_text_append] at skipped
    exact skipped
  have read := readGroup_text_append plain cs
  rw [groups, readGroup_text_append plain'] at read
  cases read
  rw [List.append_assoc, List.append_assoc] at e
  exact ⟨List.append_cancel_right e, rfl, rfl⟩

/-- Where no group begins behind a sequence of groups and spacing, no longer sequence begins the
text. -/
lemma prefix_of_not_beginsGroup {gs gs' : List Group} {run run' ws rest back : List Char}
    (groups : Sequence PlainText gs run) (space : IsSpace ws) (stop : Stops isSpacing rest)
    (noGroup : ¬BeginsGroup rest) (groups' : Sequence PlainText gs' run')
    (e : run ++ ws ++ rest = run' ++ back) : run' <+: run := by
  induction groups generalizing gs' run' with
  | nil =>
    cases groups' with
    | nil => exact List.nil_prefix
    | @cons g _ ws₁ group run₁ space₁ item₁ _ =>
      obtain ⟨plain, rfl⟩ := item₁
      have group_first : rest = g.text ++ (run₁ ++ back) := by
        have skipped := congrArg skipSpacing e
        rw [List.nil_append, List.append_assoc, List.append_assoc, skipSpacing_append space₁,
          skipSpacing_text_append] at skipped
        rw [← skipped]
        exact (skipSpacing_append_stop space stop).symm
      refine absurd (beginsGroup_iff.mpr ⟨(g, run₁ ++ back), ?_⟩) noGroup
      rw [group_first]
      exact readGroup_text_append plain _
  | @cons g gs ws₀ group run₀ space₀ item₀ _ ih =>
    obtain ⟨plain₀, rfl⟩ := item₀
    cases groups' with
    | nil => exact List.nil_prefix
    | @cons g₁ _ ws₁ group run₁ space₁ item₁ groups₁ =>
      obtain ⟨plain₁, rfl⟩ := item₁
      have same : ws₀ ++ g.text ++ (run₀ ++ ws ++ rest) = ws₁ ++ g₁.text ++ (run₁ ++ back) := by
        simpa only [List.append_assoc] using e
      obtain ⟨rfl, rfl, behind⟩ := space_text_append_inj space₀ space₁ plain₀ plain₁ same
      exact (List.prefix_append_right_inj _).mpr (ih groups₁ behind)

/-- A sequence of groups is the longest one if no group follows behind the spacing. -/
lemma longestRun_append {gs : List Group} {run ws : List Char} (groups : Sequence PlainText gs run)
    (space : IsSpace ws) (stop : Stops isSpacing rest) (noGroup : ¬BeginsGroup rest) :
    LongestRun run (run ++ ws ++ rest) where
  groups := ⟨_, (Sequence.relabel_iff groupText_iff).mpr ⟨gs, groups, rfl⟩⟩
  begins := by
    rw [List.append_assoc]
    exact List.prefix_append run _
  longest := by
    rintro tss run' groups' ⟨back, e⟩
    obtain ⟨gs', groups', _⟩ := (Sequence.relabel_iff groupText_iff).mp groups'
    exact prefix_of_not_beginsGroup groups space stop noGroup groups' e.symm

/-- A run of groups is read up to where no group begins. -/
lemma readGroups_stuck (cs : List Char) :
    Stops isSpacing (readGroups cs).2 ∧ ¬BeginsGroup (readGroups cs).2 := by
  induction cs using readGroups.induct with
  | case1 cs g rest h _ _ _ ih =>
    rw [readGroups_of_ok h]
    exact ih
  | case2 cs stuck h =>
    rw [readGroups_of_error h]
    exact ⟨stops_skipSpacing cs, not_beginsGroup_iff.mpr ⟨stuck, h⟩⟩

/-- Groups are read as a sequence up to where no group begins. -/
lemma readGroups_eq {gs : List Group} {run ws : List Char} (groups : Sequence PlainText gs run)
    (space : IsSpace ws) (stop : Stops isSpacing rest) (noGroup : ¬BeginsGroup rest) :
    readGroups (run ++ ws ++ rest) = (gs, rest) := by
  have skipped := skipSpacing_append_stop space stop
  obtain ⟨stuck, fails⟩ := not_beginsGroup_iff.mp noGroup
  rw [← skipped] at fails
  rw [List.append_assoc, readGroups_append groups, readGroups_of_error fails, skipped,
    List.append_nil]

/-- A group does not begin with the brace that closes a family. -/
lemma not_beginsGroup_close (cs : List Char) : ¬BeginsGroup ('}' :: cs) :=
  not_beginsGroup_iff.mpr ⟨_, rfl⟩

/-- Where reading a family breaks off there is a break. -/
lemma exists_familyBreak_of_readFamily (h : readFamily cs = .error rest) :
    ∃ front, cs = front ++ rest ∧ FamilyBreak front rest := by
  obtain ⟨ws, space, whole⟩ := exists_eq_append_skipSpacing cs
  rcases readFamily_cases cs with ⟨first, read⟩ | ⟨inner, opened, closing⟩
  · rw [read] at h
    cases h
    exact ⟨ws, whole, .unopened space (stops_skipSpacing cs) first⟩
  · rw [opened] at whole
    obtain ⟨run, ws', groups, space', inner_eq⟩ := exists_eq_append_readGroups inner
    obtain ⟨stop, noGroup⟩ := readGroups_stuck inner
    rcases closing with ⟨close, read⟩ | ⟨behind, closed, read⟩
    · rw [read] at h
      cases h
      have longest := longestRun_append groups space' stop noGroup
      refine ⟨ws ++ '{' :: (run ++ ws'), ?_, .unclosed space longest space' stop close noGroup⟩
      rw [List.append_assoc, List.cons_append, ← inner_eq, ← whole]
    · rw [read] at h
      obtain ⟨skipped, more⟩ := atEnd_eq_error_iff.mp h
      obtain ⟨ws'', space'', behind_eq⟩ := exists_eq_append_skipSpacing behind
      have stop' := stops_skipSpacing behind
      rw [skipped] at behind_eq stop'
      have family := readFamily_eq_ok_iff.mpr (.mk space groups space' space'')
      refine ⟨_, ?_, .trailing (familyText_iff.mpr ⟨_, family, rfl⟩) stop' more⟩
      rw [whole, inner_eq, closed, behind_eq]
      simp

/-- Reading a family breaks off at a break. -/
lemma FamilyBreak.readFamily_eq (h : FamilyBreak front rest) :
    readFamily (front ++ rest) = .error rest := by
  cases h with
  | unopened space stop first =>
    have skipped := skipSpacing_append_stop space stop
    rw [readFamily_of_unopened (by rwa [skipped]), skipped]
  | @unclosed ws run ws' _ space longest space' stop close noGroup =>
    obtain ⟨tss, groups⟩ := longest.groups
    obtain ⟨gs, groups, _⟩ := (Sequence.relabel_iff groupText_iff).mp groups
    have opened : skipSpacing (ws ++ '{' :: (run ++ ws') ++ rest) = '{' :: (run ++ ws' ++ rest) := by
      rw [List.append_assoc, skipSpacing_append space]
      rfl
    have read := readGroups_eq groups space' stop noGroup
    rw [readFamily_of_unclosed opened (by rwa [read]), read]
  | trailing text stop more =>
    obtain ⟨gs, read, _⟩ := familyText_iff.mp text
    obtain ⟨space, groups, space', space''⟩ := readFamily_eq_ok_iff.mp read
    rename_i ws run ws' ws''
    have opened : skipSpacing (ws ++ '{' :: (run ++ ws' ++ '}' :: ws'') ++ rest) =
        '{' :: (run ++ ws' ++ '}' :: (ws'' ++ rest)) := by
      rw [List.append_assoc, skipSpacing_append space, List.cons_append, List.append_assoc]
      rfl
    have closed : Stops isSpacing ('}' :: (ws'' ++ rest)) := by
      intro c hc
      cases hc
      decide
    have read := readGroups_eq groups space' closed (not_beginsGroup_close _)
    rw [readFamily_of_closed opened (congrArg Prod.snd read)]
    exact atEnd_eq_error_iff.mpr ⟨skipSpacing_append_stop space'' stop, more⟩

/-- Reading a family breaks off at a break, and at no other place. -/
lemma readFamily_eq_error_iff :
    readFamily cs = .error rest ↔ ∃ front, cs = front ++ rest ∧ FamilyBreak front rest := by
  refine ⟨exists_familyBreak_of_readFamily, ?_⟩
  rintro ⟨front, rfl, broken⟩
  exact broken.readFamily_eq

/-- What stands in front of a break can be completed. -/
lemma FamilyBreak.beginsFamily (h : FamilyBreak front rest) : BeginsFamily front := by
  cases h with
  | unopened space _ _ =>
    have family : FamilyText [] (front ++ '{' :: ([] ++ [] ++ '}' :: [])) :=
      .mk space .nil .nil .nil
    exact ⟨_, _, family⟩
  | unclosed space longest space' _ _ _ =>
    obtain ⟨tss, groups⟩ := longest.groups
    have family : FamilyText tss _ := .mk space groups space' .nil
    refine ⟨['}'], tss, ?_⟩
    simpa using family
  | @trailing tss _ _ text _ _ =>
    rw [← List.append_nil front] at text
    exact ⟨[], tss, text⟩

end ExactCover.Brace
