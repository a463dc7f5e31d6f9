import ExactCover.Proofs.LineByLine
import ExactCover.Proofs.Locations
import ExactCover.Proofs.ModelReading

/-!
# Line ends

An instance text with a carriage return in front of every line feed is read like the text without
them (`parse_withReturns`). The classes of characters that the readers go by do not tell carriage
returns from line feeds, so each reader takes the one text apart where it takes the other apart
(`Stops.addReturns`), and it answers with the same pieces, carriage returns added. Words have no
line feeds, and trimming takes the carriage return off the end of a quoted line.

The first line stands apart: its carriage return is not part of what ends it, so it is read as a
character of the line. It is spacing there and comes last.
-/

namespace ExactCover.Text

/-- The text with a carriage return in front of every line feed. -/
def addReturns (cs : List Char) : List Char :=
  cs.flatMap fun c => if c = '\n' then ['\r', '\n'] else [c]

@[inherit_doc addReturns]
def withReturns (text : String) : String :=
  String.ofList (addReturns text.toList)

variable {p : Char → Bool} {c : Char} {line cs : List Char}

/-! ## Pieces -/

/-- The empty text stays empty. -/
@[simp]
lemma addReturns_nil : addReturns [] = [] :=
  rfl

/-- Carriage returns are added to a text as to its characters. -/
lemma withReturns_ofList (cs : List Char) :
    withReturns (String.ofList cs) = String.ofList (addReturns cs) := by
  rw [withReturns, String.toList_ofList]

/-- A line feed gets its carriage return. -/
lemma addReturns_feed_cons (cs : List Char) :
    addReturns ('\n' :: cs) = '\r' :: '\n' :: addReturns cs :=
  rfl

/-- Any other character stays as it is. -/
lemma addReturns_cons_of_ne (h : c ≠ '\n') (cs : List Char) :
    addReturns (c :: cs) = c :: addReturns cs := by
  rw [addReturns, List.flatMap_cons, if_neg h]
  rfl

/-- Only the empty text becomes empty. -/
lemma addReturns_eq_nil_iff : addReturns cs = [] ↔ cs = [] := by
  cases cs with
  | nil => exact ⟨fun _ => rfl, fun _ => rfl⟩
  | cons c cs =>
    rw [addReturns, List.flatMap_cons, List.append_eq_nil_iff]
    refine ⟨fun h => ?_, nofun⟩
    split at h
    · cases h.1
    · cases h.1

/-- Carriage returns are added piece by piece. -/
lemma addReturns_append (cs cs' : List Char) :
    addReturns (cs ++ cs') = addReturns cs ++ addReturns cs' :=
  List.flatMap_append

/-- A line stays as it is. -/
lemma addReturns_of_not_mem (fresh : '\n' ∉ line) : addReturns line = line := by
  induction line with
  | nil => rfl
  | cons c line ih =>
    rw [List.mem_cons, not_or] at fresh
    rw [addReturns_cons_of_ne (Ne.symm fresh.1), ih fresh.2]

/-- The first line of a longer text gets a carriage return at its end. -/
lemma addReturns_append_feed (fresh : '\n' ∉ line) (rest : List Char) :
    addReturns (line ++ '\n' :: rest) = line ++ ['\r'] ++ '\n' :: addReturns rest := by
  rw [addReturns_append, addReturns_of_not_mem fresh, addReturns_feed_cons, List.append_assoc,
    List.singleton_append]

/-- A carriage return at its end puts no line feed into a line. -/
lemma not_mem_append_return (fresh : '\n' ∉ line) : '\n' ∉ line ++ ['\r'] :=
  List.not_mem_append fresh (by decide)

/-- The first character stays, unless a carriage return comes in front of it. -/
lemma head?_addReturns (cs : List Char) :
    (addReturns cs).head? = cs.head?.map fun c => if c = '\n' then '\r' else c := by
  cases cs with
  | nil => rfl
  | cons c cs =>
    by_cases feed : c = '\n'
    · rw [feed]
      rfl
    · rw [addReturns_cons_of_ne feed, List.head?_cons, List.head?_cons, Option.map_some,
        if_neg feed]

/-- No character but a carriage return comes to the front. -/
lemma head?_addReturns_ne (h : cs.head? ≠ some c) (ne : c ≠ '\r') :
    (addReturns cs).head? ≠ some c := by
  rw [head?_addReturns]
  intro first
  obtain ⟨d, hd, e⟩ := Option.map_eq_some_iff.mp first
  split at e
  · exact ne e.symm
  · exact h (e ▸ hd)

/-- What holds of the characters of a text, and of carriage returns if of line feeds, holds of the
characters of the text with carriage returns. -/
lemma forall_mem_addReturns (hp : p '\r' = p '\n') (h : ∀ c ∈ cs, p c = true) :
    ∀ c ∈ addReturns cs, p c = true := by
  intro c hc
  obtain ⟨d, hd, hc⟩ := List.mem_flatMap.mp hc
  have holds := h d hd
  split at hc
  case isTrue feed =>
    subst feed
    rcases List.mem_pair.mp hc with rfl | rfl
    · rw [hp, holds]
    · exact holds
  case isFalse =>
    rw [List.mem_singleton.mp hc]
    exact holds

/-- A class stops at the same place, if it does not tell carriage returns from line feeds. -/
lemma Stops.addReturns (hp : p '\r' = p '\n') (stop : Stops p cs) :
    Stops p (addReturns cs) := by
  intro c hc
  rw [head?_addReturns] at hc
  obtain ⟨d, hd, rfl⟩ := Option.map_eq_some_iff.mp hc
  have out := stop d hd
  split
  · rename_i feed
    rw [hp, ← feed, out]
  · exact out

/-- A class that does not tell the two line ends apart is dropped from both texts alike. -/
lemma dropWhile_addReturns (hp : p '\r' = p '\n') (cs : List Char) :
    (addReturns cs).dropWhile p = addReturns (cs.dropWhile p) := by
  conv_lhs => rw [← List.takeWhile_append_dropWhile (p := p) (l := cs), addReturns_append]
  exact dropWhile_append_stop
    (forall_mem_addReturns hp fun c hc => List.mem_takeWhile_imp hc)
    ((stops_dropWhile p cs).addReturns hp)

/-! ## Trimming and quoting -/

/-- Carriage returns inside a trimmed text leave it trimmed. -/
lemma IsTrimmed.addReturns (trimmed : IsTrimmed cs) : IsTrimmed (addReturns cs) := by
  refine ⟨trimmed.stops.addReturns (by decide), ?_⟩
  obtain rfl | ⟨front, last, rfl⟩ := List.eq_nil_or_concat' cs
  · exact nofun
  · have written := trimmed.stops_reverse
    rw [List.reverse_concat] at written
    have feed : last ≠ '\n' := by
      rintro rfl
      cases written _ rfl
    rw [addReturns_append, addReturns_cons_of_ne feed, addReturns_nil, List.reverse_concat]
    exact written

/-- Trimming takes the carriage returns at the ends off with their line feeds. -/
lemma trim_addReturns (cs : List Char) : trim (addReturns cs) = addReturns (trim cs) := by
  obtain ⟨trimmed, ws, ws', blank, blank', whole⟩ := exists_eq_trim cs
  obtain ⟨first, last⟩ := trimmed.addReturns
  conv_lhs => rw [whole, addReturns_append, addReturns_append]
  exact trim_append (forall_mem_addReturns (by decide) blank)
    (forall_mem_addReturns (by decide) blank') first last

/-- White space at the end is trimmed. -/
lemma trim_append_singleton (blank : isWhiteSpace c = true) (cs : List Char) :
    trim (cs ++ [c]) = trim cs := by
  obtain ⟨⟨first, last⟩, ws, ws', front, back, whole⟩ := exists_eq_trim cs
  conv_lhs => rw [whole, List.append_assoc]
  exact trim_append front (List.forall_mem_append.mpr ⟨back, List.forall_mem_singleton.mpr blank⟩)
    first last

/-- A carriage return at the end of a line is trimmed off anyway. -/
lemma trim_dropCarriageReturn (line : List Char) : trim (dropCarriageReturn line) = trim line := by
  rcases Model.dropCarriageReturn_cases line with e | e
  · rw [e]
  · conv_rhs => rw [e]
    exact (trim_append_singleton (by decide) _).symm

/-- A carriage return at the end of a line does not matter to its quotation. -/
lemma excerpt_append_return (fresh : '\n' ∉ line) : excerpt (line ++ ['\r']) = excerpt line := by
  have fresh' := not_mem_append_return fresh
  cases line with
  | nil => rfl
  | cons c line =>
    rw [excerpt, excerpt, firstWrittenLine?, firstWrittenLine?, lines_of_not_mem fresh,
      lines_of_not_mem fresh']
    simp only [List.cons_append, List.isEmpty_cons, Bool.false_eq_true, if_false, List.map_cons,
      List.map_nil]
    rw [← List.cons_append, trim_append_singleton (by decide)]

/-- The trimmed lines are the same. -/
lemma map_trim_lines_addReturns (cs : List Char) :
    (lines (addReturns cs)).map trim = (lines cs).map trim := by
  induction cs using rowInduction '\n' with
  | last row fresh => rw [addReturns_of_not_mem fresh]
  | append row rest fresh ih =>
    rw [addReturns_append_feed fresh, lines_append (not_mem_append_return fresh),
      lines_append fresh, List.map_cons, List.map_cons, ih, trim_dropCarriageReturn,
      trim_append_singleton (by decide), trim_dropCarriageReturn]

/-- The quoted line is the same. -/
lemma excerpt_addReturns (cs : List Char) : excerpt (addReturns cs) = excerpt cs := by
  rw [excerpt, excerpt, firstWrittenLine?, firstWrittenLine?, map_trim_lines_addReturns]

end ExactCover.Text

namespace ExactCover.Brace
open Text

variable {cs line rest stuck : List Char} {g : Group}

/-! ## Groups -/

/-- The group with carriage returns. -/
def Group.addReturns (g : Group) : Group :=
  ⟨Text.addReturns g.inner⟩

/-- The words are the same, for carriage returns only stand where words end. -/
lemma words_addReturns (cs : List Char) : words (addReturns cs) = words cs := by
  -- behind each row the carriage return ends the word that the line feed would end
  induction cs using rowInduction '\n' with
  | last row fresh => rw [addReturns_of_not_mem fresh]
  | append row rest fresh ih =>
    rw [addReturns_append_feed fresh, List.append_assoc, List.singleton_append,
      words_append_cons (by decide), words_append_cons (by decide), ← ih,
      ← List.nil_append ('\n' :: addReturns rest), words_append_cons (by decide)]
    rfl

/-- The group lists the same tokens. -/
lemma Group.tokens_addReturns (g : Group) : g.addReturns.tokens = g.tokens := by
  rw [tokens, tokens, addReturns, words_addReturns]

/-- No brace comes in with the carriage returns. -/
lemma Group.IsPlain.addReturns (plain : g.IsPlain) : g.addReturns.IsPlain :=
  forall_mem_addReturns (by decide) plain

/-- The text of the group is its text with carriage returns. -/
lemma Group.text_addReturns (g : Group) : g.addReturns.text = Text.addReturns g.text := by
  rw [text, text, Text.addReturns_append, Text.addReturns_cons_of_ne (by decide)]
  rfl

/-- Spacing is skipped in both texts alike. -/
lemma skipSpacing_addReturns (cs : List Char) :
    skipSpacing (addReturns cs) = addReturns (skipSpacing cs) :=
  dropWhile_addReturns (by decide) cs

/-- A group is read with its carriage returns, and what is behind it keeps its own. -/
lemma readGroup_addReturns_of_ok (read : readGroup cs = .ok (g, rest)) :
    readGroup (addReturns cs) = .ok (g.addReturns, addReturns rest) := by
  obtain ⟨plain, rfl⟩ := readGroup_eq_ok_iff.mp read
  rw [addReturns_append, ← g.text_addReturns]
  exact readGroup_text_append plain.addReturns _

/-- Where there is no group, reading breaks off at the same place. -/
lemma readGroup_addReturns_of_error (read : readGroup cs = .error stuck) :
    readGroup (addReturns cs) = .error (addReturns stuck) := by
  rw [readGroup_eq_error_iff] at read ⊢
  rcases read with ⟨rfl, first⟩ | ⟨inner, rfl, plain, stop, close⟩
  · exact .inl ⟨rfl, head?_addReturns_ne first (by decide)⟩
  · refine .inr ⟨addReturns inner, ?_, forall_mem_addReturns (by decide) plain,
      stop.addReturns (by decide), head?_addReturns_ne close (by decide)⟩
    rw [addReturns_cons_of_ne (by decide), addReturns_append]

/-! ## Families -/

/-- The same groups are read one after the other. -/
lemma readGroups_addReturns (cs : List Char) :
    readGroups (addReturns cs) =
      ((readGroups cs).1.map Group.addReturns, addReturns (readGroups cs).2) := by
  induction cs using readGroups.induct with
  | case1 cs g rest h _ _ _ ih =>
    have h' := readGroup_addReturns_of_ok h
    rw [← skipSpacing_addReturns] at h'
    rw [readGroups_of_ok h', readGroups_of_ok h, ih, List.map_cons]
  | case2 cs stuck h =>
    have h' := readGroup_addReturns_of_error h
    rw [← skipSpacing_addReturns] at h'
    rw [readGroups_of_error h', readGroups_of_error h, skipSpacing_addReturns]
    rfl

/-- The end of the text is where it was. -/
lemma atEnd_addReturns {α β : Type} (f : α → β) (a : α) (rest : List Char) :
    atEnd (f a) (addReturns rest) = ((atEnd a rest).map f).mapError addReturns := by
  by_cases ended : skipSpacing rest = []
  · have ended' : skipSpacing (addReturns rest) = [] := by
      rw [skipSpacing_addReturns, ended, addReturns_nil]
    rw [atEnd_eq_ok_iff.mpr ⟨rfl, skipSpacing_eq_nil_iff.mp ended⟩,
      atEnd_eq_ok_iff.mpr ⟨rfl, skipSpacing_eq_nil_iff.mp ended'⟩]
    rfl
  · have more : addReturns (skipSpacing rest) ≠ [] := mt addReturns_eq_nil_iff.mp ended
    rw [atEnd_eq_error_iff.mpr ⟨rfl, ended⟩,
      atEnd_eq_error_iff.mpr ⟨skipSpacing_addReturns rest, more⟩]
    rfl

/-- A family is read as before, or fails at the same place. -/
lemma readFamily_addReturns (cs : List Char) :
    readFamily (addReturns cs) =
      ((readFamily cs).map (List.map Group.addReturns)).mapError addReturns := by
  have skipped := skipSpacing_addReturns cs
  rcases readFamily_cases cs with ⟨first, read⟩ | ⟨inner, opened, closing⟩
  · have first' : (skipSpacing (addReturns cs)).head? ≠ some '{' := by
      rw [skipped]
      exact head?_addReturns_ne first (by decide)
    rw [read, readFamily_of_unopened first', skipped]
    rfl
  · have groups := readGroups_addReturns inner
    have opened' : skipSpacing (addReturns cs) = '{' :: addReturns inner := by
      rw [skipped, opened, addReturns_cons_of_ne (by decide)]
    rcases closing with ⟨close, read⟩ | ⟨rest, closed, read⟩
    · have close' : (readGroups (addReturns inner)).2.head? ≠ some '}' := by
        rw [groups]
        exact head?_addReturns_ne close (by decide)
      rw [read, readFamily_of_unclosed opened' close', groups]
      rfl
    · have closed' : (readGroups (addReturns inner)).2 = '}' :: addReturns rest := by
        rw [groups, closed, addReturns_cons_of_ne (by decide)]
      rw [read, readFamily_of_closed opened' closed', groups]
      exact atEnd_addReturns (List.map Group.addReturns) _ _

/-! ## Lines -/

/-- A carriage return is spacing. -/
lemma isSpace_return : IsSpace ['\r'] := by
  simp [IsSpace, isSpacing]

/-- A break at the end of a line moves with it. -/
lemma SingleBreak.append_return (broken : SingleBreak cs []) : SingleBreak (cs ++ ['\r']) [] := by
  cases broken with
  | unopened before stop first => exact .unopened (before.append isSpace_return) stop first
  | unclosed before plain stop close =>
    rw [List.append_assoc, List.cons_append]
    exact .unclosed before (List.forall_mem_append.mpr ⟨plain, isSpace_return.isInnerChar⟩) stop
      close
  | trailing _ _ more => exact absurd rfl more

/-- A carriage return at the end of a line is read with it. Where reading breaks off within the
line, it stays behind. -/
lemma readSingle_append_return (line : List Char) :
    (∀ g, readSingle line = .ok g → readSingle (line ++ ['\r']) = .ok g) ∧
      (∀ stuck, readSingle line = .error stuck →
        ∃ stuck', readSingle (line ++ ['\r']) = .error stuck' ∧
          (stuck' = stuck ∨ stuck' = stuck ++ ['\r'])) := by
  constructor
  · intro g read
    obtain ⟨before, plain, behind⟩ := readSingle_eq_ok_iff.mp read
    rw [readSingle_eq_ok_iff, List.append_assoc]
    exact .mk before plain (behind.append isSpace_return)
  · intro stuck read
    obtain ⟨front, rfl, broken⟩ := readSingle_eq_error_iff.mp read
    cases stuck with
    | nil =>
      refine ⟨[], readSingle_eq_error_iff.mpr ⟨front ++ ['\r'], ?_, broken.append_return⟩, .inl rfl⟩
      rw [List.append_nil, List.append_nil]
    | cons c stuck =>
      refine ⟨c :: stuck ++ ['\r'], readSingle_eq_error_iff.mpr ⟨front, ?_, broken.of_cons⟩,
        .inr rfl⟩
      rw [List.append_assoc]

end ExactCover.Brace

namespace ExactCover

/-- The same error, but with carriage returns in the quotation of a subset. -/
def FormatError.withReturns : FormatError → FormatError
  | duplicateSubsetElement token subset => duplicateSubsetElement token (Text.withReturns subset)
  | e => e

end ExactCover

namespace ExactCover.Instance
open Brace Text

variable {line rest : List Char} {ground : GroundSet}

/-! ## Instances -/

/-- A carriage return at the end of the first line does not matter. -/
lemma readGround_append_return (fresh : '\n' ∉ line) :
    readGround (line ++ ['\r']) = readGround line := by
  obtain ⟨accepted, refused⟩ := readSingle_append_return line
  cases read : readSingle line with
  | ok g => rw [readGround, readGround, accepted g read, read]
  | error stuck =>
    obtain ⟨front, whole, _⟩ := readSingle_eq_error_iff.mp read
    have fresh' : '\n' ∉ stuck := fun h => fresh (whole ▸ List.mem_append_right front h)
    obtain ⟨stuck', read', e⟩ := refused stuck read
    have quoted : excerpt stuck' = excerpt stuck := by
      rcases e with rfl | rfl
      · rfl
      · exact excerpt_append_return fresh'
    rw [readGround, readGround, read', read]
    exact congrArg (Except.error ∘ FormatError.malformedGroundSet) quoted

/-- The ground set is not what an error with a quotation of a subset is about. -/
lemma mapError_readGround (line : List Char) :
    (readGround line).mapError FormatError.withReturns = readGround line := by
  unfold readGround
  split
  · rfl
  · split
    · rfl
    · split
      · rfl
      · rfl

/-- The elements of a group are read alike, and refused alike but for the quotation. -/
lemma readElements_addReturns (g : Group) (seen : List Nat) (ts : List String) :
    readElements ground g.addReturns seen ts =
      (readElements ground g seen ts).mapError FormatError.withReturns := by
  induction ts generalizing seen with
  | nil => rfl
  | cons t ts ih =>
    rw [readElements, readElements]
    split
    · rfl
    · split
      · rw [Group.addReturns, trim_addReturns, ← withReturns_ofList]
        rfl
      · exact ih _

/-- A subset is read alike, and refused alike but for the quotation. -/
lemma readSubset_addReturns (g : Group) :
    readSubset ground g.addReturns = (readSubset ground g).mapError FormatError.withReturns := by
  rw [readSubset, readSubset, g.tokens_addReturns, readElements_addReturns]
  cases readElements ground g [] g.tokens with
  | error e => rfl
  | ok es => rfl

/-- A family is read alike, and refused alike but for a quotation. -/
lemma readSubsets_addReturns (rest : List Char) :
    readSubsets ground (Text.addReturns rest) =
      (readSubsets ground rest).mapError FormatError.withReturns := by
  rw [readSubsets, readSubsets, readFamily_addReturns]
  cases readFamily rest with
  | error stuck =>
    refine congrArg (fun near => Except.error (FormatError.malformedFamily near)) ?_
    exact excerpt_addReturns stuck
  | ok gs => exact Traversal.mapM_map_eq_mapError readSubset_addReturns gs

/-- The first line is read as before, and the text behind it has carriage returns of its own. -/
lemma cutFirstLine_addReturns (cs : List Char) :
    readGround (cutFirstLine (Text.addReturns cs)).1 = readGround (cutFirstLine cs).1 ∧
      (cutFirstLine (Text.addReturns cs)).2 = Text.addReturns (cutFirstLine cs).2 := by
  by_cases h : '\n' ∈ cs
  · obtain ⟨fresh, whole⟩ := eq_cutFirstLine_append h
    generalize (cutFirstLine cs).1 = line at fresh whole ⊢
    generalize (cutFirstLine cs).2 = rest at whole ⊢
    rw [whole, addReturns_append_feed fresh, cutFirstLine_append (not_mem_append_return fresh)]
    exact ⟨readGround_append_return fresh, rfl⟩
  · rw [addReturns_of_not_mem h, cutFirstLine_of_not_mem h]
    exact ⟨rfl, rfl⟩

/-- With a carriage return in front of every line feed a text is the same instance, or is refused
with the same error. Only a quotation of a subset has the carriage returns too. -/
theorem parse_withReturns (text : String) :
    parse (withReturns text) = (parse text).mapError FormatError.withReturns := by
  obtain ⟨first, behind⟩ := cutFirstLine_addReturns text.toList
  rw [parse_eq, parse_eq, withReturns, String.toList_ofList, first, behind,
    Traversal.mapError_bind, mapError_readGround]
  congr 1
  funext ground
  rw [Traversal.mapError_bind, readSubsets_addReturns]
  rfl

end ExactCover.Instance
