import ExactCover.Proofs.Effects

/-!
# How a run ends

What a run shows of the solver once that has ended: the text on the standard output, the exit code and
the warning that a model selects no cover. The text is the output of the solver and, behind it, the
cover that an answer selects, an answer being a model without variables beyond the family (`Answers`).
A run fails with 1 if the solver promises a model and the output spoils it (`Spoilt`), and ends with 0
whenever there is nothing promised. Whether the model is an exact cover matters for the warning only.
-/

namespace ExactCover

/-- What is selected can be listed if no variable lies beyond the family. -/
lemma Instance.exists_selected_iff {i : Instance} {m : Model} :
    (∃ selection, i.selected m = .ok selection) ↔ ∀ v, m.isTrue v = true → v ≤ i.subsetCount := by
  constructor
  · rintro ⟨selection, h⟩ v hv
    have inside := (selected_eq_ok_iff.mp h).1 v (Model.mem_trueVars.mpr hv)
    exact (mem_positions.mp inside).2
  · intro known
    refine ⟨_, selected_eq_ok_iff.mpr ⟨fun v hv => ?_, rfl⟩⟩
    have isTrue := Model.mem_trueVars.mp hv
    exact mem_positions.mpr ⟨Model.pos_of_isTrue isTrue, known v isTrue⟩

namespace CommandLine.Solve

variable {env : Environment} {files : FileTree} {i : Instance} {m : Model} {run : SolverRun}
  {r : Except Failure Unit} {text : String} {es : List Log.Event} {final : Machine}

/-- The solver found a model, and all of its true variables belong to subsets. -/
structure Answers (i : Instance) (run : SolverRun) (m : Model) : Prop where
  found : run.status = .exited 10
  parsed : Model.parse run.output = .ok m
  known : ∀ v, m.isTrue v = true → v ≤ i.subsetCount

/-- The solver says that it found a model, but there is none in its output or one with a true variable
beyond the family. -/
inductive Spoilt (i : Instance) (run : SolverRun) : Prop where
  | rejected {reason} :
    run.status = .exited 10 →
    Model.parse run.output = .error reason →
    Spoilt i run
  | beyond {m v} :
    run.status = .exited 10 →
    Model.parse run.output = .ok m →
    m.isTrue v = true →
    i.subsetCount < v →
    Spoilt i run

/-- The answer is the only model in the output. -/
lemma Answers.unique {m' : Model} (h : Answers i run m) (h' : Model.parse run.output = .ok m') :
    m = m' := by
  have parsed := h.parsed
  rw [h'] at parsed
  exact (Except.ok.inj parsed).symm

/-- An answer is not spoilt. -/
lemma Answers.not_spoilt (h : Answers i run m) : ¬Spoilt i run := by
  intro spoilt
  cases spoilt with
  | rejected _ refused =>
    rw [h.parsed] at refused
    cases refused
  | beyond _ parsed isTrue big =>
    cases h.unique parsed
    exact absurd (h.known _ isTrue) (Nat.not_le_of_lt big)

/-! ## Reports -/

/-- A report shows the selection of an answer, and otherwise the output of the solver alone. -/
lemma Reported.text_cases (h : Reported i run r text es) :
    (∃ m selection, Answers i run m ∧ i.selected m = .ok selection ∧
      text = Text.echo run.output ++ Cover.print selection) ∨
    (∀ m, ¬Answers i run m) ∧ text = Text.echo run.output := by
  cases h with
  | noModel other => exact .inr ⟨fun m answer => other answer.found, rfl⟩
  | unreadable _ refused =>
    refine .inr ⟨fun m answer => ?_, rfl⟩
    have parsed := answer.parsed
    rw [refused] at parsed
    cases parsed
  | unselected _ parsed refused =>
    -- an answer could be listed, but nothing was
    refine .inr ⟨fun m answer => ?_, rfl⟩
    cases answer.unique parsed
    obtain ⟨selection, selected⟩ := Instance.exists_selected_iff.mpr answer.known
    rw [refused] at selected
    cases selected
  | selected found parsed selected =>
    exact .inl ⟨_, _, ⟨found, parsed, Instance.exists_selected_iff.mp ⟨_, selected⟩⟩, selected, rfl⟩

/-- A report fails exactly if the model is spoilt. -/
lemma Reported.status_cases (h : Reported i run r text es) :
    Spoilt i run ∧ (outcomeOf r).status = .exited 1 ∨
      ¬Spoilt i run ∧ (outcomeOf r).status = .exited 0 := by
  cases h with
  | noModel other =>
    refine .inr ⟨fun spoilt => ?_, rfl⟩
    cases spoilt with
    | rejected found => exact other found
    | beyond found => exact other found
  | unreadable found refused => exact .inl ⟨.rejected found refused, rfl⟩
  | unselected found parsed refused =>
    obtain ⟨v, least, _⟩ := Instance.selected_eq_error_iff.mp refused
    exact .inl ⟨.beyond found parsed least.1.1 least.1.2, rfl⟩
  | selected found parsed selected =>
    have answer : Answers i run _ :=
      ⟨found, parsed, Instance.exists_selected_iff.mp ⟨_, selected⟩⟩
    exact .inr ⟨answer.not_spoilt, rfl⟩

/-- The warning is about a model that fails verification, and gives the reason. -/
lemma notACover_mem_warnings_iff {reason : CoverError} :
    .notACover reason ∈ warnings i m ↔ i.verify m = .error reason := by
  unfold warnings
  cases i.verify m with
  | ok _ => simp
  | error e => simp [eq_comm]

/-- The warning is raised exactly if a model does not pass verification. -/
lemma Reported.warns_iff (h : Reported i run r text es) {reason : CoverError} :
    .notACover reason ∈ es ↔ run.status = .exited 10 ∧
      ∃ m, Model.parse run.output = .ok m ∧ i.verify m = .error reason := by
  -- with a model found, the report raises the warnings about it
  have ofModel : ∀ {m}, run.status = .exited 10 → Model.parse run.output = .ok m →
      (.notACover reason ∈ warnings i m ↔ run.status = .exited 10 ∧
        ∃ m, Model.parse run.output = .ok m ∧ i.verify m = .error reason) := by
    intro m found parsed
    rw [notACover_mem_warnings_iff]
    constructor
    · intro failed
      exact ⟨found, m, parsed, failed⟩
    · rintro ⟨_, m', parsed', failed⟩
      cases parsed.symm.trans parsed'
      exact failed
  cases h with
  | noModel other quiet => exact ⟨fun mem => absurd mem (quiet reason), fun h => absurd h.1 other⟩
  | unreadable _ refused quiet =>
    refine ⟨fun mem => absurd mem (quiet reason), ?_⟩
    rintro ⟨_, m, parsed, _⟩
    cases refused.symm.trans parsed
  | unselected found parsed => exact ofModel found parsed
  | selected found parsed => exact ofModel found parsed

/-! ## Runs -/

/-- A course on which the solver ended is one with a report. -/
lemma Course.reported_of_mem {o : Options} {command : Command} {seen : FileTree} {ended : Ended}
    (h : Course env o files r final) (started : (command, seen) ∈ final.launches)
    (launched : env.launch command seen = .ok ended) :
    ∃ i f es text es', Input files o.input (.ok (i, f)) ∧ Quiet es ∧
      Reported i (.ofEnded ended) r text es' ∧ final.printed = text ∧
      final.events.toList = es ++ es' := by
  cases h with
  | refused => cases started
  | unwritable => cases started
  | missing =>
    have idle : (command, seen) ∈ ((Machine.fresh files).written _ _ _).launches := started
    rw [Machine.launches_written] at idle
    cases idle
  | unstarted _ _ _ refused =>
    cases List.mem_singleton.mp started
    cases refused.symm.trans launched
  | reported input _ _ ended' quiet said =>
    cases List.mem_singleton.mp started
    cases launched.symm.trans ended'
    refine ⟨_, _, _, _, _, input, quiet, said, String.empty_append, ?_⟩
    simp [Machine.log, Machine.print, Machine.start, Machine.fresh]

/-- The end of a run on which the solver ended, whatever the solver printed. The standard output
repeats the text of the solver and goes on with the cover that an answer selects, or stops there. The
exit code tells whether a promised model was spoilt, and the warning whether one failed verification.
-/
theorem run_ends_as_the_solver_did {given : Given} {arguments : List String} {outcome : Outcome}
    {command : Command} {seen : FileTree} {ended : Ended}
    (asked : scan specs [] arguments = .ok (.run given))
    (ran : (Machine.fresh files).perform env (Solve.run arguments) = (outcome, final))
    (started : (command, seen) ∈ final.launches) (launched : env.launch command seen = .ok ended) :
    ∃ text i, files.read (Options.ofGiven given).input = .ok text.toUTF8 ∧
      Instance.parse text = .ok i ∧
      (∀ m, Answers i (.ofEnded ended) m → ∃ selection, i.selected m = .ok selection ∧
        final.printed =
          Text.echo (Text.Utf8.decodeLossy ended.output) ++ Cover.print selection) ∧
      ((∀ m, ¬Answers i (.ofEnded ended) m) →
        final.printed = Text.echo (Text.Utf8.decodeLossy ended.output)) ∧
      (outcome.status = .exited 1 ↔ Spoilt i (.ofEnded ended)) ∧
      (outcome.status = .exited 0 ↔ ¬Spoilt i (.ofEnded ended)) ∧
      ∀ reason, .notACover reason ∈ final.events ↔ ended.status = .exited 10 ∧
        ∃ m, Model.parse (Text.Utf8.decodeLossy ended.output) = .ok m ∧
          i.verify m = .error reason := by
  obtain ⟨r, rfl, course⟩ := course_of_run asked ran
  obtain ⟨i, f, es, text, es', input, quiet, said, rfl, events⟩ :=
    course.reported_of_mem started launched
  cases input with
  | formula read parsed =>
    refine ⟨_, i, read, parsed, ?_, ?_, ?_, ?_, ?_⟩
    · intro m answer
      rcases said.text_cases with ⟨m', selection, answer', selected, shown⟩ | ⟨none, _⟩
      · cases answer.unique answer'.parsed
        exact ⟨selection, selected, shown⟩
      · exact absurd answer (none m)
    · intro none
      rcases said.text_cases with ⟨m, _, answer, _⟩ | ⟨_, shown⟩
      · exact absurd answer (none m)
      · exact shown
    · rcases said.status_cases with ⟨spoilt, status⟩ | ⟨fine, status⟩
      · exact iff_of_true status spoilt
      · rw [status]
        exact iff_of_false (by decide) fine
    · rcases said.status_cases with ⟨spoilt, status⟩ | ⟨fine, status⟩
      · rw [status]
        exact iff_of_false (by decide) (not_not_intro spoilt)
      · exact iff_of_true status fine
    · intro reason
      -- all that was reported before the report is quiet
      rw [← Array.mem_toList_iff, events, List.mem_append, or_iff_right (quiet reason)]
      exact said.warns_iff

/-- Any solver can be reached on an instance with one group. -/
lemma exists_run_one_group (ended : Ended) :
    ∃ files outcome final command seen,
      files.read "input.in" = .ok "\x7ba\x7d\n\x7b\x7ba\x7d\x7d".toUTF8 ∧
      (Machine.fresh files).perform ⟨fun _ _ => .ok ended, 0⟩ (Solve.run []) = (outcome, final) ∧
      (command, seen) ∈ final.launches := by
  obtain ⟨files, known⟩ : ∃ files, files = (FileTree.empty ["w"]).put ["w", "input.in"]
      (.file "\x7ba\x7d\n\x7b\x7ba\x7d\x7d".toUTF8 false) :=
    ⟨_, rfl⟩
  have read : files.read "input.in" = .ok "\x7ba\x7d\n\x7b\x7ba\x7d\x7d".toUTF8 := by
    rw [known]
    rfl
  have write (bytes : ByteArray) : files.write "output.cnf" bytes =
      .ok (files.put ["w", "output.cnf"] (.file bytes false)) := by
    rw [known]
    rfl
  have isFile (bytes : ByteArray) :
      (files.put ["w", "output.cnf"] (.file bytes false)).isFile "output.cnf" = true := by
    rw [known]
    rfl
  obtain ⟨outcome, final, ran⟩ : ∃ outcome final, (Machine.fresh files).perform
      ⟨fun _ _ => .ok ended, 0⟩ (Solve.run []) = (outcome, final) :=
    ⟨_, _, rfl⟩
  obtain ⟨r, _, course⟩ := course_of_run rfl ran
  obtain ⟨i, f, parsed, _, encoded⟩ := exists_formula_one_group
  have reduced := Instance.reduce_of_encodedAs parsed encoded
  rcases course.effects with ⟨failure, input, _⟩ | ⟨j, g, input, after⟩
  · exact absurd reduced (input.hasNoFormula.1.reduce_ne read)
  · obtain ⟨_, started⟩ := after _ (write _)
    have once := started.trans (if_pos (isFile _))
    exact ⟨files, outcome, final, _, _, read, ran, once ▸ List.mem_singleton_self _⟩

/-- The model that sets the only subset is shown, and one that sets a second subset is not. -/
theorem run_ends_as_the_solver_did_one_group :
    ∃ i, Instance.parse "\x7ba\x7d\n\x7b\x7ba\x7d\x7d" = .ok i ∧
      (∃ files outcome final selection,
        files.read "input.in" = .ok "\x7ba\x7d\n\x7b\x7ba\x7d\x7d".toUTF8 ∧
        (Machine.fresh files).perform ⟨fun _ _ => .ok ⟨.exited 10, "v 1 0\n".toUTF8⟩, 0⟩
          (Solve.run []) = (outcome, final) ∧
        i.selected ⟨[.ofVariable 1 true (by decide)]⟩ = .ok selection ∧
        final.printed = Text.echo "v 1 0\n" ++ Cover.print selection ∧
        outcome.status = .exited 0) ∧
      ∃ files outcome final,
        files.read "input.in" = .ok "\x7ba\x7d\n\x7b\x7ba\x7d\x7d".toUTF8 ∧
        (Machine.fresh files).perform ⟨fun _ _ => .ok ⟨.exited 10, "v 2 0\n".toUTF8⟩, 0⟩
          (Solve.run []) = (outcome, final) ∧
        final.printed = Text.echo "v 2 0\n" ∧ outcome.status = .exited 1 := by
  obtain ⟨i, _, parsed, count, _⟩ := exists_formula_one_group
  refine ⟨i, parsed, ?_, ?_⟩
  · have model : Model.parse "v 1 0\n" = .ok ⟨[.ofVariable 1 true (by decide)]⟩ := by
      decide +kernel
    obtain ⟨files, outcome, final, command, seen, read, ran, started⟩ :=
      exists_run_one_group ⟨.exited 10, "v 1 0\n".toUTF8⟩
    obtain ⟨text, j, read', parsed', shown, _, _, ends, _⟩ :=
      run_ends_as_the_solver_did rfl ran started rfl
    cases text_unique read read'
    cases parsed.symm.trans parsed'
    have answer : Answers i (.ofEnded ⟨.exited 10, "v 1 0\n".toUTF8⟩)
        ⟨[.ofVariable 1 true (by decide)]⟩ := by
      refine ⟨rfl, model, fun v hv => ?_⟩
      have only : v ∈ [1] := Model.mem_trueVars.mpr hv
      rw [count]
      exact (List.mem_singleton.mp only).le
    obtain ⟨selection, selected, printed⟩ := shown _ answer
    exact ⟨files, outcome, final, selection, read, ran, selected, printed,
      ends.mpr answer.not_spoilt⟩
  · have model : Model.parse "v 2 0\n" = .ok ⟨[.ofVariable 2 true (by decide)]⟩ := by
      decide +kernel
    obtain ⟨files, outcome, final, command, seen, read, ran, started⟩ :=
      exists_run_one_group ⟨.exited 10, "v 2 0\n".toUTF8⟩
    obtain ⟨text, j, read', parsed', _, silent, fails, _⟩ :=
      run_ends_as_the_solver_did rfl ran started rfl
    cases text_unique read read'
    cases parsed.symm.trans parsed'
    have spoilt : Spoilt i (.ofEnded ⟨.exited 10, "v 2 0\n".toUTF8⟩) := by
      refine .beyond (v := 2) rfl model rfl ?_
      rw [count]
      decide
    exact ⟨files, outcome, final, read, ran, silent fun m answer => answer.not_spoilt spoilt,
      fails.mpr spoilt⟩

end CommandLine.Solve

end ExactCover
