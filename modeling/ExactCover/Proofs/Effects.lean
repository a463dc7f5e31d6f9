import ExactCover.Proofs.Courses

/-!
# What a run changes

A run of the solving program writes one file or none. If the input has no formula, the files stay as
they are and nothing is started or printed. If it has one and the output can be written, then the
output holds the DIMACS text and nothing but that, whatever was there before, and the solver is
started on those files (`run_changes_only_the_output`). It does not matter whether the output is also
the input: the input is read to its end before anything is written.
-/

namespace ExactCover

/-- The formula of an instance decides its DIMACS text. -/
lemma Instance.reduce_of_encodedAs {text : String} {i : Instance} {f : Formula}
    (parsed : Instance.parse text = .ok i) (encoded : i.EncodedAs f) :
    Instance.reduce text = .ok f.dimacs := by
  obtain ⟨index, found, encoded⟩ := encoded
  rw [reduce, parsed]
  dsimp only
  rw [toDimacs, found]
  dsimp only
  rw [encoded]

/-- Too many subsets have none. -/
lemma Instance.reduce_of_lt {text : String} {i : Instance} (parsed : Instance.parse text = .ok i)
    (big : maxVariable < i.subsetCount) :
    Instance.reduce text = .error (.encoding (.tooManySubsets i.subsetCount)) := by
  have inGround := Instance.inGround_of_parse parsed
  have index := occurrences?_eq_some inGround
  rw [reduce, parsed]
  dsimp only
  rw [toDimacs, index]
  dsimp only
  rw [(encode_eq_error_iff inGround index).mpr ⟨big, rfl⟩]

/-- Bytes are of one text. -/
lemma toUTF8_inj {text text' : String} (h : text.toUTF8 = text'.toUTF8) : text = text' :=
  String.toByteArray_inj.mp h

namespace CommandLine.Solve

variable {env : Environment} {files files' : FileTree} {path text dimacs : String} {i : Instance}
  {f : Formula} {given : Given} {arguments : List String} {outcome : Outcome} {final : Machine}

/-! ## Inputs without a formula -/

/-- There is no text at the path, or one that is not reduced. -/
inductive HasNoFormula (files : FileTree) (path : String) : Prop where
  | unreadable {reason} :
    files.read path = .error reason →
    HasNoFormula files path
  | noText {bytes} :
    files.read path = .ok bytes →
    (∀ text : String, text.toUTF8 ≠ bytes) →
    HasNoFormula files path
  | rejected {text reason} :
    files.read path = .ok text.toUTF8 →
    Instance.reduce text = .error reason →
    HasNoFormula files path

/-- A path has one text. -/
lemma text_unique {text' : String} (read : files.read path = .ok text.toUTF8)
    (read' : files.read path = .ok text'.toUTF8) : text = text' := by
  rw [read, Except.ok.injEq] at read'
  exact toUTF8_inj read'

/-- A text without a formula is not reduced to one. -/
lemma HasNoFormula.reduce_ne (h : HasNoFormula files path)
    (read : files.read path = .ok text.toUTF8) : Instance.reduce text ≠ .ok dimacs := by
  intro reduced
  cases h with
  | unreadable missing =>
    rw [read] at missing
    cases missing
  | noText bytes none =>
    rw [read] at bytes
    cases bytes
    exact none text rfl
  | rejected read' refused =>
    cases text_unique read read'
    rw [reduced] at refused
    cases refused

/-- A failure before the formula comes from the input alone and ends the process with 1. -/
lemma Input.hasNoFormula {failure : Failure} (h : Input files path (.error failure)) :
    HasNoFormula files path ∧ failure.status = .exited 1 := by
  cases h with
  | unreadable missing => exact ⟨.unreadable missing, rfl⟩
  | noText read none => exact ⟨.noText read none, rfl⟩
  | @malformed text reason read refused =>
    have rejected : Instance.reduce text = .error (.format reason) := by
      rw [Instance.reduce, refused]
    exact ⟨.rejected read rejected, rfl⟩
  | tooLarge read parsed big => exact ⟨.rejected read (Instance.reduce_of_lt parsed big), rfl⟩

/-- The formula of the session is the one that the text is reduced to. -/
lemma Input.reduce_eq (h : Input files path (.ok (i, f))) :
    ∃ text, files.read path = .ok text.toUTF8 ∧ Instance.reduce text = .ok f.dimacs := by
  cases h with
  | formula read parsed encoded => exact ⟨_, read, Instance.reduce_of_encodedAs parsed encoded⟩

/-- The formula is that of the text. -/
lemma Input.dimacs_eq (h : Input files path (.ok (i, f))) (read : files.read path = .ok text.toUTF8)
    (reduced : Instance.reduce text = .ok dimacs) : dimacs = f.dimacs := by
  obtain ⟨text', read', reduced'⟩ := h.reduce_eq
  cases text_unique read read'
  rw [reduced] at reduced'
  exact Except.ok.inj reduced'

/-! ## Runs -/

/-- Without a formula a run changes nothing and ends with 1. With one that can be written, the output
holds the DIMACS text from then on, no other place is touched, and the solver is started on these
files if there is a file for it to read. -/
theorem run_changes_only_the_output (asked : scan specs [] arguments = .ok (.run given))
    (ran : (Machine.fresh files).perform env (run arguments) = (outcome, final)) :
    (HasNoFormula files (Options.ofGiven given).input →
      final.files = files ∧ final.launches = [] ∧ final.printed = "" ∧
        outcome.status = .exited 1) ∧
    ∀ text dimacs files',
      files.read (Options.ofGiven given).input = .ok text.toUTF8 →
      Instance.reduce text = .ok dimacs →
      files.write (Options.ofGiven given).output dimacs.toUTF8 = .ok files' →
      final.files = files' ∧
      (∃ target, files.resolve (Options.ofGiven given).output = .ok target ∧
        ∀ l, l ≠ target.location → files'.node? l = files.node? l) ∧
      (files'.isFile (Options.ofGiven given).output = true →
        files'.read (Options.ofGiven given).output = .ok dimacs.toUTF8) ∧
      final.launches =
        if files'.isFile (Options.ofGiven given).output then
          [((Options.ofGiven given).command files', files')]
        else [] := by
  obtain ⟨r, rfl, course⟩ := course_of_run asked ran
  -- the text at the input is one, so it cannot have a formula on the course and none otherwise
  constructor
  · intro noFormula
    rcases course.effects with ⟨failure, input, rfl, same, idle, silent⟩ | ⟨i, f, input, _⟩
    · exact ⟨same, idle, silent, input.hasNoFormula.2⟩
    · obtain ⟨text, read, reduced⟩ := input.reduce_eq
      exact absurd reduced (noFormula.reduce_ne read)
  · intro text dimacs files' read reduced write
    rcases course.effects with ⟨failure, input, _⟩ | ⟨i, f, input, after⟩
    · exact absurd reduced (input.hasNoFormula.1.reduce_ne read)
    · rw [input.dimacs_eq read reduced] at write ⊢
      obtain ⟨same, started⟩ := after files' write
      exact ⟨same, FileTree.exists_frame_of_write write, FileTree.read_of_write write, started⟩

/-- An instance of one element and one subset has a formula. -/
lemma exists_formula_one_group :
    ∃ i f, Instance.parse "\x7ba\x7d\n\x7b\x7ba\x7d\x7d" = .ok i ∧ i.subsetCount = 1 ∧
      i.EncodedAs f := by
  have form : Instance.InstanceText ["a"] [["a"]] "\x7ba\x7d\n\x7b\x7ba\x7d\x7d" :=
    Instance.instanceText_iff_read.mpr ⟨by decide +kernel, by decide +kernel⟩
  obtain ⟨i, parsed⟩ := Instance.exists_parse_eq_ok form ⟨by decide, by decide, by decide, by decide⟩
  have count : i.subsetCount = 1 := Instance.subsetCount_of_parse form parsed
  have fits : i.subsetCount ≤ maxVariable := by
    rw [count]
    decide
  obtain ⟨f, encoded, _⟩ := Instance.exists_encodedAs (Instance.inGround_of_parse parsed) fits
  exact ⟨i, f, parsed, count, encoded⟩

/-- A run without an input file, and one whose output takes the place of its input. -/
theorem run_changes_only_the_output_missing_and_replaced :
    (∃ outcome final,
      (Machine.fresh (.empty ["w"])).perform ⟨fun _ _ => .error .notFound, 0⟩ (run []) =
        (outcome, final) ∧
      final.files = .empty ["w"] ∧ final.launches = [] ∧ outcome.status = .exited 1) ∧
    ∃ dimacs outcome final command,
      Instance.reduce "\x7ba\x7d\n\x7b\x7ba\x7d\x7d" = .ok dimacs ∧
      (Machine.fresh ((FileTree.empty ["w"]).put ["w", "same"]
          (.file "\x7ba\x7d\n\x7b\x7ba\x7d\x7d".toUTF8 false))).perform
        ⟨fun _ _ => .error .notFound, 0⟩ (run ["-i", "same", "-o", "same"]) = (outcome, final) ∧
      final.files.read "same" = .ok dimacs.toUTF8 ∧ final.launches = [(command, final.files)] := by
  constructor
  · obtain ⟨outcome, final, ran⟩ : ∃ outcome final, (Machine.fresh (.empty ["w"])).perform
        ⟨fun _ _ => .error .notFound, 0⟩ (run []) = (outcome, final) :=
      ⟨_, _, rfl⟩
    obtain ⟨nothing, _⟩ := run_changes_only_the_output rfl ran
    obtain ⟨same, idle, _, status⟩ := nothing (.unreadable rfl)
    exact ⟨outcome, final, ran, same, idle, status⟩
  · obtain ⟨i, f, parsed, _, encoded⟩ := exists_formula_one_group
    have reduced := Instance.reduce_of_encodedAs parsed encoded
    obtain ⟨outcome, final, ran⟩ : ∃ outcome final,
        (Machine.fresh ((FileTree.empty ["w"]).put ["w", "same"]
          (.file "\x7ba\x7d\n\x7b\x7ba\x7d\x7d".toUTF8 false))).perform
            ⟨fun _ _ => .error .notFound, 0⟩ (run ["-i", "same", "-o", "same"]) =
          (outcome, final) :=
      ⟨_, _, rfl⟩
    have asked : scan specs [] ["-i", "same", "-o", "same"] =
        .ok (.run [("input", "same"), ("output", "same")]) := by
      decide +kernel
    have write : ((FileTree.empty ["w"]).put ["w", "same"]
        (.file "\x7ba\x7d\n\x7b\x7ba\x7d\x7d".toUTF8 false)).write "same" f.dimacs.toUTF8 =
        .ok (((FileTree.empty ["w"]).put ["w", "same"]
          (.file "\x7ba\x7d\n\x7b\x7ba\x7d\x7d".toUTF8 false)).put ["w", "same"]
            (.file f.dimacs.toUTF8 false)) :=
      rfl
    obtain ⟨_, written⟩ := run_changes_only_the_output asked ran
    obtain ⟨same, _, holds, started⟩ := written _ _ _ rfl reduced write
    have isFile : final.files.isFile "same" = true := by
      rw [same]
      rfl
    rw [← same] at holds started
    exact ⟨f.dimacs, outcome, final, _, reduced, ran, holds isFile, started.trans (if_pos isFile)⟩

end CommandLine.Solve

end ExactCover
