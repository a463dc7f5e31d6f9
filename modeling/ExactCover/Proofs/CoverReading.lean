import ExactCover.Cover.Printer
import ExactCover.Proofs.Diagnosis
import ExactCover.Proofs.DimacsText
import ExactCover.Proofs.Safety
import Mathlib.Data.String.Basic

/-!
# Reading printed covers back

A printed cover is brace notation again: behind the banner each line is a group, and between braces
the lines are a family of these groups (`familyText_lines`). With the ground set on a line before it
this is an instance text, and it is read as the family of the selected subsets
(`printed_cover_reads_back`).

Between a printer that joins with single blanks and a reader that splits at spacing there is one
thing to rely on: what is joined are tokens, since the entries of a selection only reorder groups
that were read. So the print tells selections apart.
-/

namespace ExactCover.Cover
open Brace

/-! ## The lines of a print -/

/-- The lines below the banner. -/
def lines (selection : List (List String)) : String :=
  String.join (selection.map fun ts => subsetLine ts ++ "\n")

variable {ts : List String} {sel sel' : List (List String)} {ws ws₁ ws₂ ws₃ : List Char}

/-- A print is the banner and the lines below it. -/
lemma print_eq (sel : List (List String)) :
    print sel = String.join (banner.map (· ++ "\n")) ++ lines sel := by
  apply String.toList_injective
  simp [print, lines, List.flatMap_map]

/-- The line of some tokens has them between braces, with single blanks. -/
lemma toList_subsetLine (ts : List String) :
    (subsetLine ts).toList = '{' :: (" ".intercalate ts).toList ++ ['}'] := by
  simp [subsetLine]

/-- The line of some tokens is the group of them. -/
lemma groupText_subsetLine (tokens : ∀ t ∈ ts, IsToken t.toList) :
    GroupText ts (subsetLine ts).toList := by
  have inner := InnerText.mk .nil (tokenRun_intercalate tokens) .nil
  rw [List.nil_append, List.append_nil] at inner
  rw [toList_subsetLine]
  exact .mk inner

/-- The line of some tokens is a single line, since neither blanks nor tokens break it. -/
lemma not_mem_subsetLine (tokens : ∀ t ∈ ts, IsToken t.toList) :
    '\n' ∉ (subsetLine ts).toList := by
  have words : ∀ t ∈ ts, Formula.IsWord t := by
    intro t ht c hc
    have token := isSpacing_of_isTokenChar ((tokens t ht).2 c hc)
    constructor
    · rintro rfl
      cases token
    · rintro rfl
      cases token
  rw [toList_subsetLine, List.mem_append, List.mem_cons, not_or, not_or]
  exact ⟨⟨by decide, Formula.not_mem_line words⟩, by decide⟩

/-- The lines between braces are the family of the groups on them. -/
lemma familyText_lines (tokens : ∀ ts ∈ sel, ∀ t ∈ ts, IsToken t.toList) (space : IsSpace ws)
    (space₁ : IsSpace ws₁) (space₂ : IsSpace ws₂) (space₃ : IsSpace ws₃) :
    FamilyText sel (ws ++ '{' :: (ws₁ ++ (lines sel).toList ++ ws₂ ++ '}' :: ws₃)) := by
  have split : (lines sel).toList = sel.flatMap fun ts => [] ++ (subsetLine ts).toList ++ ['\n'] := by
    simp [lines, List.flatMap_map]
  rw [split]
  exact Family.of_lines space space₁ space₂ space₃ .nil fun ts hts =>
    groupText_subsetLine (tokens ts hts)

/-- The print of lists of tokens determines them. -/
lemma eq_of_print_eq (tokens : ∀ ts ∈ sel, ∀ t ∈ ts, IsToken t.toList)
    (tokens' : ∀ ts ∈ sel', ∀ t ∈ ts, IsToken t.toList) (same : print sel = print sel') :
    sel = sel' := by
  rw [print_eq, print_eq] at same
  have same_lines : lines sel = lines sel' := (String.append_right_inj _).mp same
  have family := familyText_lines tokens .nil .nil .nil .nil
  rw [same_lines] at family
  exact family.unique (familyText_lines tokens' .nil .nil .nil .nil)

end ExactCover.Cover

namespace ExactCover.Instance
open Brace

/-! ## Selections -/

section Selected

variable {i : Instance} {m : Model} {ts us : List String} {tss sel : List (List String)}
  {text : String}

/-- Each entry of a selection has the tokens of a subset, in another order. -/
lemma exists_tokens?_of_mem_selected (h : i.selected m = .ok sel) (mem : us ∈ sel) :
    ∃ p ts, i.tokens? p = some ts ∧ us.Perm ts := by
  obtain ⟨known, rfl⟩ := selected_eq_ok_iff.mp h
  obtain ⟨p, hp, rfl⟩ := List.mem_map.mp mem
  obtain ⟨ts, tokens, sorted⟩ :=
    selectAt_eq_ok_iff_tokens.mp (selectAt_eq_ok_iff.mpr ⟨known p hp, rfl⟩)
  rw [sorted]
  exact ⟨p, ts, tokens, List.mergeSort_perm ts _⟩

/-- The tokens at a position are those of a group. -/
lemma mem_of_tokens? (form : InstanceText ts tss text) (h : parse text = .ok i) {p : Nat}
    (tokens : i.tokens? p = some us) : us ∈ tss := by
  cases p with
  | zero => cases tokens
  | succ n =>
    rw [tokens?_of_parse form h] at tokens
    exact List.mem_of_getElem? tokens

/-- What is selected names subsets of the ground set that was read. -/
lemma meaningful_of_selected (form : InstanceText ts tss text) (h : parse text = .ok i)
    (selected : i.selected m = .ok sel) : Meaningful ts sel := by
  obtain ⟨ok, _, _⟩ := contents_of_parse form h
  have group : ∀ us ∈ sel, ∃ vs ∈ tss, us.Perm vs := by
    intro us mem
    obtain ⟨p, vs, tokens, perm⟩ := exists_tokens?_of_mem_selected selected mem
    exact ⟨vs, mem_of_tokens? form h tokens, perm⟩
  refine ⟨ok.nonempty, ok.distinct, fun us mem => ?_, fun us mem t ht => ?_⟩
  · obtain ⟨vs, hvs, perm⟩ := group us mem
    exact perm.nodup_iff.mpr (ok.distinct_of_mem vs hvs)
  · obtain ⟨vs, hvs, perm⟩ := group us mem
    exact ok.known_of_mem vs hvs t (perm.mem_iff.mp ht)

/-- The elements that a text lists are tokens. -/
lemma InstanceText.isToken (form : InstanceText ts tss text) : ∀ t ∈ ts, IsToken t.toList := by
  obtain ⟨_, _, single, _⟩ := form
  exact single.isToken

/-- A selection holds tokens only. -/
lemma isToken_of_selected (h : parse text = .ok i) (selected : i.selected m = .ok sel) :
    ∀ us ∈ sel, ∀ t ∈ us, IsToken t.toList := by
  obtain ⟨ts, tss, form, _⟩ := parse_eq_ok_iff.mp h
  have ok := meaningful_of_selected form h selected
  exact fun us mem t ht => form.isToken t (ok.known_of_mem us mem t ht)

end Selected

/-! ## Reading a print -/

/-- The text is read as the subsets with the listed tokens, of the given ground set. -/
def ReadsAs (text : String) (ground : GroundSet) (tss : List (List String)) : Prop :=
  ∃ i, parse text = .ok i ∧ i.ground = ground ∧ i.subsetCount = tss.length ∧
    ∀ k, i.tokens? (k + 1) = tss[k]?

/-- A line with the tokens of the ground set, and behind it lines between braces, with spacing
wherever it is allowed. -/
inductive Framed (ts : List String) (lines : String) : String → Prop where
  | mk {line ws ws₁ ws₂ ws₃ text} :
    SingleText ts line → '\n' ∉ line →
    IsSpace ws → IsSpace ws₁ → IsSpace ws₂ → IsSpace ws₃ →
    text.toList = line ++ '\n' :: (ws ++ '{' :: (ws₁ ++ lines.toList ++ ws₂ ++ '}' :: ws₃)) →
    Framed ts lines text

section Framed

variable {ts : List String} {tss : List (List String)} {text : String}

/-- The ground set may be written like the subsets. -/
lemma framed_subsetLine (tokens : ∀ t ∈ ts, IsToken t.toList) (lines : String) :
    Framed ts lines (Cover.subsetLine ts ++ "\n\x7b" ++ lines ++ "\x7d") := by
  have single := Single.mk .nil (Cover.groupText_subsetLine tokens) .nil
  rw [List.nil_append, List.append_nil] at single
  refine .mk single (Cover.not_mem_subsetLine tokens) .nil .nil .nil .nil ?_
  simp

/-- Printed lines in their frame are an instance text that lists the selection. -/
lemma instanceText_of_framed (tokens : ∀ us ∈ tss, ∀ t ∈ us, IsToken t.toList)
    (framed : Framed ts (Cover.lines tss) text) : InstanceText ts tss text := by
  obtain ⟨single, fresh, space, space₁, space₂, space₃, split⟩ := framed
  exact .mk split fresh single (Cover.familyText_lines tokens space space₁ space₂ space₃)

/-- A text that lists subsets of the ground set is read as them. -/
lemma readsAs_of_instanceText {ground : GroundSet} (form : InstanceText ts tss text)
    (ok : Meaningful ts tss) (made : GroundSet.ofDistinct ts = .ok ground) :
    ReadsAs text ground tss := by
  obtain ⟨i, h⟩ := exists_parse_eq_ok form ok
  obtain ⟨_, made', _⟩ := contents_of_parse form h
  exact ⟨i, h, Except.ok.inj (made'.symm.trans made), subsetCount_of_parse form h,
    tokens?_of_parse form h⟩

end Framed

/-- A printed cover reads back as the selection. The lines below the banner, put between braces below
the ground set, are read as an instance with the same ground set and with one subset for each entry
of the selection, which has the tokens of the entry in the printed order. Spacing in the other places
that allow it makes no difference. So selections with the same print are the same, also those of
different instances. -/
theorem printed_cover_reads_back :
    (∀ (text : String) (i : Instance) (m : Model) (sel : List (List String)),
      parse text = .ok i → i.selected m = .ok sel →
        Cover.print sel = String.join (Cover.banner.map (· ++ "\n")) ++ Cover.lines sel ∧
        ReadsAs (Cover.subsetLine i.ground.tokens.toList ++ "\n\x7b" ++ Cover.lines sel ++ "\x7d")
          i.ground sel ∧
        ∀ text', Framed i.ground.tokens.toList (Cover.lines sel) text' →
          ReadsAs text' i.ground sel) ∧
    ∀ (text text' : String) (i i' : Instance) (m m' : Model) (sel sel' : List (List String)),
      parse text = .ok i → i.selected m = .ok sel →
      parse text' = .ok i' → i'.selected m' = .ok sel' →
      Cover.print sel = Cover.print sel' → sel = sel' := by
  constructor
  · intro text i m sel h selected
    obtain ⟨ts, tss, form, _, made, _⟩ := parse_eq_ok_iff.mp h
    rw [GroundSet.tokens_of_ofDistinct made]
    have ok := meaningful_of_selected form h selected
    have reads : ∀ text', Framed ts (Cover.lines sel) text' → ReadsAs text' i.ground sel :=
      fun text' framed => readsAs_of_instanceText
        (instanceText_of_framed (isToken_of_selected h selected) framed) ok made
    exact ⟨Cover.print_eq sel, reads _ (framed_subsetLine form.isToken _), reads⟩
  · intro text text' i i' m m' sel sel' h selected h' selected' same
    exact Cover.eq_of_print_eq (isToken_of_selected h selected) (isToken_of_selected h' selected')
      same

/-- A subset that is not in order, an empty one, and one that is not selected. What has the same print
in the family that is read back is the same selection. -/
theorem printed_cover_reads_back_two_subsets :
    ∃ i i' : Instance, parse "\x7bé b a\x7d\n\x7b\x7bé a\x7d \x7b\x7d \x7bb\x7d\x7d" = .ok i ∧
      i.selected ⟨[.ofVariable 2 true (by decide), .ofVariable 1 true (by decide)]⟩ =
        .ok [["a", "é"], []] ∧
      parse "\x7bé b a\x7d\n\x7b\x7ba é\x7d\n\x7b\x7d\n\x7d" = .ok i' ∧
      i'.ground = i.ground ∧ i'.subsetCount = 2 ∧
      i'.tokens? 1 = some ["a", "é"] ∧ i'.tokens? 2 = some [] ∧
      ∀ m sel, i'.selected m = .ok sel → Cover.print [["a", "é"], []] = Cover.print sel →
        [["a", "é"], []] = sel := by
  obtain ⟨reads, same⟩ := printed_cover_reads_back
  have form : InstanceText ["é", "b", "a"] [["é", "a"], [], ["b"]]
      "\x7bé b a\x7d\n\x7b\x7bé a\x7d \x7b\x7d \x7bb\x7d\x7d" :=
    instanceText_iff_read.mpr ⟨by decide +kernel, by decide +kernel⟩
  obtain ⟨i, h⟩ := exists_parse_eq_ok form ⟨by decide, by decide, by decide, by decide⟩
  have selected : i.selected ⟨[.ofVariable 2 true (by decide), .ofVariable 1 true (by decide)]⟩ =
      .ok [["a", "é"], []] := by
    have sorted : ["é", "a"].mergeSort (fun a b => decide (a ≤ b)) = ["a", "é"] := by
      have ascending := List.pairwise_mergeSort' (· ≤ ·) ["é", "a"]
      exact ((List.mergeSort_perm _ _).trans (.swap "a" "é" [])).eq_of_pairwise
        (fun _ _ _ _ => le_antisymm) ascending (show ["a", "é"].Pairwise (· ≤ ·) by decide)
    have vars : Model.trueVars ⟨[.ofVariable 2 true (by decide),
        .ofVariable 1 true (by decide)]⟩ = [1, 2] := rfl
    rw [Instance.selected, vars]
    refine Traversal.mapM_eq_ok_iff.mpr (.cons ?_ (.cons ?_ .nil))
    · rw [tokens?_of_parse form h]
      exact congrArg Except.ok sorted
    · rw [tokens?_of_parse form h]
      exact congrArg Except.ok List.mergeSort_nil
  obtain ⟨_, ⟨i', h', ground, count, tokens⟩, _⟩ := reads _ i _ _ h selected
  obtain ⟨_, made, _⟩ := contents_of_parse form h
  rw [GroundSet.tokens_of_ofDistinct made] at h'
  exact ⟨i, i', h, selected, h', ground, count, tokens 0, tokens 1,
    fun m sel selected' => same _ _ i i' _ m _ sel h selected h' selected'⟩

end ExactCover.Instance
