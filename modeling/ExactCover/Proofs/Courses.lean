import ExactCover.Proofs.Offences
import ExactCover.Proofs.Reports
import ExactCover.Proofs.Safety

/-!
# Courses of the solving program

Everything that a run of the solving program can do, said once. What the input file holds decides
whether there is a formula (`Input`). If there is one, it is written, and the run takes one of four
courses from there: the output cannot be written, there is no file afterwards, the solver cannot be
started, or the solver ends and is reported on. `Course` lists them with the result and the machine at
the end, and `course_of_run` says that every run with accepted arguments follows one of them.
-/

namespace ExactCover.CommandLine.Solve

/-! ## The input -/

/-- What the file at a path leads to: a failure, or an instance and its formula. -/
inductive Input (files : FileTree) (path : String) : Except Failure (Instance × Formula) → Prop where
  | unreadable {reason} :
    files.read path = .error reason →
    Input files path (.error (.unreadableInstance path reason))
  | noText {bytes} :
    files.read path = .ok bytes →
    (∀ text : String, text.toUTF8 ≠ bytes) →
    Input files path (.error (.unreadableInstance path .invalidText))
  | malformed {text reason} :
    files.read path = .ok text.toUTF8 →
    Instance.parse text = .error reason →
    Input files path (.error (.invalidInstance path reason))
  | tooLarge {text i} :
    files.read path = .ok text.toUTF8 →
    Instance.parse text = .ok i →
    maxVariable < i.subsetCount →
    Input files path (.error (.encoding (.tooManySubsets i.subsetCount)))
  | formula {text i f} :
    files.read path = .ok text.toUTF8 →
    Instance.parse text = .ok i →
    i.EncodedAs f →
    Input files path (.ok (i, f))

variable {env : Environment} {w final : Machine} {files files' : FileTree} {path text : String}
  {bytes : ByteArray} {i : Instance} {f : Formula} {o : Options} {s : Solver}

/-! ## Reading the instance -/

/-- The bytes of a text are read as the text. -/
lemma fromUTF8?_toUTF8 (text : String) : String.fromUTF8? text.toUTF8 = some text :=
  dif_pos text.isValidUTF8

/-- Bytes that are of no text are not read. -/
lemma fromUTF8?_eq_none (h : ∀ text : String, text.toUTF8 ≠ bytes) :
    String.fromUTF8? bytes = none := by
  refine dif_neg fun valid => ?_
  exact h (String.fromUTF8 bytes valid) rfl

/-- A file with the bytes of a text is read as the text. -/
lemma ends_readText (h : w.files.read path = .ok text.toUTF8) :
    Ends env w (readText path) (.ok text) w := by
  refine .bind (ends_read path) (.bind (ends_orFail h) ?_)
  rw [fromUTF8?_toUTF8]
  exact .pure text

/-- A file that cannot be read fails with the reason. -/
lemma ends_readText_unreadable {reason : FileError} (h : w.files.read path = .error reason) :
    Ends env w (readText path) (.error (.unreadableInstance path reason)) w :=
  .bind (ends_read path) (.bind_error (ends_orFail_error h))

/-- A file that holds no text fails as such. -/
lemma ends_readText_noText (h : w.files.read path = .ok bytes)
    (noText : ∀ text : String, text.toUTF8 ≠ bytes) :
    Ends env w (readText path) (.error (.unreadableInstance path .invalidText)) w := by
  refine .bind (ends_read path) (.bind (ends_orFail h) ?_)
  rw [fromUTF8?_eq_none noText]
  exact .throw _

/-- Without a text there is no instance. -/
lemma observes_readInstance_error {e : Failure}
    (h : ∀ es, Ends env (w.log es) (readText path) (.error e) (w.log es)) :
    Observes env w (readInstance path) (.error e) :=
  (observes_record (by simp)).bind fun es => (h es).observes.bind_error

/-- What the session reads of a text is what parsing answers. -/
lemma observes_readInstance (h : w.files.read path = .ok text.toUTF8) :
    Observes env w (readInstance path)
      ((Instance.parse text).mapError (.invalidInstance path)) := by
  refine (observes_record (by simp)).bind fun es => ?_
  refine (ends_readText (w := w.log es) h).observes.bind fun _ => ?_
  rw [Instance.parse_eq]
  -- the session takes the two steps of parsing, with a report between them
  cases Text.cutFirstLine text.toList with
  | mk line rest =>
    cases first : Instance.readGround line with
    | error reason => exact (ends_orFail_error first).observes.bind_error
    | ok ground =>
      refine (ends_orFail first).observes.bind fun _ => (observes_record (by simp)).bind fun _ => ?_
      change Observes env _ _ (Except.mapError _ (Instance.readSubsets ground rest >>=
        fun subsets => .ok (Instance.mk ground subsets.toArray)))
      cases Instance.readSubsets ground rest with
      | error reason => exact (ends_orFail_error rfl).observes.bind_error
      | ok subsets =>
        refine (ends_orFail rfl).observes.bind fun _ => (observes_record (by simp)).bind fun _ => ?_
        exact (Ends.pure _).observes

/-! ## Encoding it -/

/-- Encoding reports the formula, and the session goes on with it. -/
lemma observes_encode (h : i.EncodedAs f) : Observes env w (encode i) (.ok f) := by
  obtain ⟨index, found, encoded⟩ := h
  rw [encode, found]
  exact (ends_orFail encoded).observes.bind fun _ =>
    (observes_record (by simp)).bind fun _ => (Ends.pure f).observes

/-- A family with more subsets than there are variables ends the session. -/
lemma observes_encode_error (inGround : i.InGround) (big : maxVariable < i.subsetCount) :
    Observes env w (encode i) (.error (.encoding (.tooManySubsets i.subsetCount))) := by
  have index := Instance.occurrences?_eq_some inGround
  have refused := (Instance.encode_eq_error_iff inGround index).mpr ⟨big, rfl⟩
  rw [encode, index]
  exact (ends_orFail_error refused).observes.bind_error

/-! ## Up to the formula -/

/-- The session up to the formula. -/
def prepare (path : String) : ExceptT Failure OnMachine (Instance × Formula) := do
  let i ← readInstance path
  record (.instanceRead i.ground.size i.subsetCount)
  let f ← encode i
  return (i, f)

/-- Up to the formula a session only reports. -/
lemma exists_input (env : Environment) (w : Machine) (path : String) :
    ∃ r, Input w.files path r ∧ Observes env w (prepare path) r := by
  cases read : w.files.read path with
  | error reason =>
    refine ⟨_, .unreadable read, (observes_readInstance_error fun es => ?_).bind_error⟩
    exact ends_readText_unreadable (w := w.log es) read
  | ok bytes =>
    by_cases valid : ∃ text : String, text.toUTF8 = bytes
    · obtain ⟨text, rfl⟩ := valid
      have begins : Observes env w (readInstance path) _ := observes_readInstance read
      cases parsed : Instance.parse text with
      | error reason =>
        rw [parsed] at begins
        exact ⟨_, .malformed read parsed, begins.bind_error⟩
      | ok i =>
        rw [parsed] at begins
        by_cases fits : i.subsetCount ≤ maxVariable
        · obtain ⟨f, encoded, _⟩ := Instance.exists_encodedAs (Instance.inGround_of_parse parsed) fits
          refine ⟨_, .formula read parsed encoded, begins.bind fun _ => ?_⟩
          refine (observes_record (by simp)).bind fun _ => ?_
          exact (observes_encode encoded).bind fun _ => (Ends.pure _).observes
        · have big := Nat.lt_of_not_le fits
          refine ⟨_, .tooLarge read parsed big, begins.bind fun _ => ?_⟩
          refine (observes_record (by simp)).bind fun _ => ?_
          exact (observes_encode_error (Instance.inGround_of_parse parsed) big).bind_error
    · refine ⟨_, .noText read (not_exists.mp valid), ?_⟩
      refine (observes_readInstance_error fun es => ?_).bind_error
      exact ends_readText_noText (w := w.log es) read (not_exists.mp valid)

/-! ## Running the solver -/

/-- The command that runs the solver, with the files as they are. -/
def commandOn (s : Solver) (files : FileTree) (cnf : String) : Command :=
  s.command (files.isFile s.program) cnf

/-- Without a file the solver is not started. -/
lemma perform_run_missing {cnf : String} (h : w.files.isFile cnf = false) :
    w.perform env (s.run cnf) = (.error (.missingCnf cnf), w) := by
  rw [Solver.run, Machine.perform_then (Machine.perform_isFile cnf), h]
  rfl

/-- On a file the solver is started, once. -/
lemma perform_run {cnf : String} (h : w.files.isFile cnf = true) :
    w.perform env (s.run cnf) =
      match env.launch (commandOn s w.files cnf) w.files with
      | .error reason => (.error (.spawn s.program reason),
          (w.start (commandOn s w.files cnf)).log [.solverStarting s.program cnf])
      | .ok ended => (.ok (.ofEnded ended),
          (w.start (commandOn s w.files cnf)).log
            [.solverStarting s.program cnf, .solverEnded ended.status]) := by
  rw [Solver.run, Machine.perform_then (Machine.perform_isFile cnf), h, if_neg (by decide),
    Machine.perform_then (Machine.perform_record _), Machine.perform_then (Machine.perform_isFile _),
    Machine.perform_then (Machine.perform_launch _), Machine.log_start, Machine.files_log, ← commandOn]
  cases env.launch (commandOn s w.files cnf) w.files with
  | error reason => rfl
  | ok ended =>
    dsimp only
    rw [Machine.perform_then (Machine.perform_record _), Machine.log_log]
    rfl

/-! ## The courses -/

/-- The solver that the options ask for. -/
def Options.toSolver (o : Options) : Solver :=
  ⟨o.solver, o.verbosity⟩

/-- The command that starts it. -/
def Options.command (o : Options) (files : FileTree) : Command :=
  commandOn o.toSolver files o.output

/-- The courses of a session that begins on a fresh machine, with the result and the machine at the
end. -/
inductive Course (env : Environment) (o : Options) (files : FileTree) :
    Except Failure Unit → Machine → Prop where
  | refused {failure es} :
    Input files o.input (.error failure) →
    Course env o files (.error failure) ((Machine.fresh files).log es)
  | unwritable {i f reason es} :
    Input files o.input (.ok (i, f)) →
    files.write o.output f.dimacs.toUTF8 = .error reason →
    Course env o files (.error (.unwritable o.output reason)) ((Machine.fresh files).log es)
  | missing {i f files' es} :
    Input files o.input (.ok (i, f)) →
    files.write o.output f.dimacs.toUTF8 = .ok files' →
    files'.isFile o.output = false →
    Course env o files (.error (.solver (.missingCnf o.output)))
      (((Machine.fresh files).written o.output f.dimacs.toUTF8 files').log es)
  | unstarted {i f files' reason es} :
    Input files o.input (.ok (i, f)) →
    files.write o.output f.dimacs.toUTF8 = .ok files' →
    files'.isFile o.output = true →
    env.launch (o.command files') files' = .error reason →
    Course env o files (.error (.solver (.spawn o.solver reason)))
      (((Machine.fresh files').start (o.command files')).log es)
  | reported {i f files' ended r text es es'} :
    Input files o.input (.ok (i, f)) →
    files.write o.output f.dimacs.toUTF8 = .ok files' →
    files'.isFile o.output = true →
    env.launch (o.command files') files' = .ok ended →
    Quiet es →
    Reported i (.ofEnded ended) r text es' →
    Course env o files r
      ((((Machine.fresh files').start (o.command files')).print text).log (es ++ es'))

/-- The session from the formula on. -/
def finish (o : Options) (i : Instance) (f : Formula) : ExceptT Failure OnMachine Unit := do
  save f o.output
  let run ← orFail .solver (← ExceptT.lift (o.toSolver.run o.output))
  report i run

/-- A session is its two parts in a row. -/
lemma session_eq (o : Options) :
    session o = prepare o.input >>= fun (i, f) => finish o i f := by
  simp only [session, prepare, finish, bind_assoc, pure_bind]
  rfl

/-- Saving a formula writes its text and reports its size. -/
lemma ends_save (h : w.files.write o.output f.dimacs.toUTF8 = .ok files') :
    Ends env w (save f o.output) (.ok ())
      ((w.written o.output f.dimacs.toUTF8 files').log [.formulaWritten f.size f.vars o.output]) :=
  (ends_writeFile h).bind (ends_record _)

section Finish

variable {w' : Machine} (saved : Ends env w (save f o.output) (.ok ()) w')
include saved

/-- Without a file after the write the session fails before anything is started. -/
lemma ends_finish_missing (h : w'.files.isFile o.output = false) :
    Ends env w (finish o i f) (.error (.solver (.missingCnf o.output))) w' :=
  saved.bind ((ends_lift (perform_run_missing h)).bind (ends_orFail_error rfl).bind_error)

/-- A solver that cannot be started fails with the reason, after the launch was tried. -/
lemma ends_finish_unstarted (h : w'.files.isFile o.output = true) {reason : FileError}
    (launched : env.launch (o.command w'.files) w'.files = .error reason) :
    ∃ es, Ends env w (finish o i f) (.error (.solver (.spawn o.solver reason)))
      ((w'.start (o.command w'.files)).log es) := by
  have started : w'.perform env (o.toSolver.run o.output) = _ := perform_run h
  rw [← Options.command, launched] at started
  exact ⟨_, saved.bind ((ends_lift started).bind (ends_orFail_error rfl).bind_error)⟩

/-- A solver that has ended is reported on. -/
lemma exists_ends_finish (h : w'.files.isFile o.output = true) {ended : Ended}
    (launched : env.launch (o.command w'.files) w'.files = .ok ended) :
    ∃ r text es es', Quiet es ∧ Reported i (.ofEnded ended) r text es' ∧
      Ends env w (finish o i f) r (((w'.start (o.command w'.files)).print text).log (es ++ es')) := by
  have started : w'.perform env (o.toSolver.run o.output) = _ := perform_run h
  rw [← Options.command, launched] at started
  obtain ⟨r, text, es', said, reported⟩ := exists_reported env
    ((w'.start (o.command w'.files)).log [.solverStarting o.solver o.output, .solverEnded ended.status])
    i (.ofEnded ended)
  rw [Machine.log_print, Machine.log_log] at reported
  have quiet : Quiet ([.solverStarting o.solver o.output] ++ [.solverEnded ended.status]) :=
    .append (.singleton (by simp)) (.singleton (by simp))
  exact ⟨r, text, _, es', quiet, said,
    saved.bind ((ends_lift started).bind ((ends_orFail rfl).bind reported))⟩

end Finish

/-- With a formula one of the last four courses is followed. -/
lemma exists_course_of_formula {es : List Log.Event} (env : Environment) (quiet : Quiet es)
    (input : Input files o.input (.ok (i, f))) :
    ∃ r final, Course env o files r final ∧
      Ends env ((Machine.fresh files).log es) (finish o i f) r final := by
  cases write : files.write o.output f.dimacs.toUTF8 with
  | error reason =>
    have stops : Ends env ((Machine.fresh files).log es) (writeFile o.output _) _ _ :=
      ends_writeFile_error write
    exact ⟨_, _, .unwritable input write, .bind_error (.bind_error stops)⟩
  | ok files' =>
    have saved : Ends env ((Machine.fresh files).log es) (save f o.output) _ _ := ends_save write
    rw [Machine.log_written, Machine.log_log] at saved
    cases isFile : files'.isFile o.output with
    | false =>
      have missing := (Machine.files_written (.fresh files) o.output f.dimacs.toUTF8 files').symm ▸
        isFile
      exact ⟨_, _, .missing input write isFile, ends_finish_missing saved missing⟩
    | true =>
      -- with a file there nothing was printed, and the machine is fresh but for its files
      rw [Machine.written_of_isFile (w := .fresh files) write isFile] at saved
      cases launched : env.launch (o.command files') files' with
      | error reason =>
        obtain ⟨es', stops⟩ := ends_finish_unstarted (i := i) saved isFile launched
        rw [Machine.log_start, Machine.log_log] at stops
        exact ⟨_, _, .unstarted input write isFile launched, stops⟩
      | ok ended =>
        obtain ⟨r, text, es', es'', quiet', said, ends⟩ :=
          exists_ends_finish (i := i) saved isFile launched
        rw [Machine.log_start, Machine.log_print, Machine.log_log, ← List.append_assoc] at ends
        refine ⟨_, _, .reported input write isFile launched (.append ?_ quiet') said, ends⟩
        exact quiet.append (.singleton (by simp))

/-- Every session follows a course. -/
lemma exists_course (env : Environment) (o : Options) (files : FileTree) :
    ∃ r final, Course env o files r final ∧ Ends env (Machine.fresh files) (session o) r final := by
  obtain ⟨r, input, es, quiet, prepared⟩ := exists_input env (Machine.fresh files) o.input
  rw [session_eq]
  cases r with
  | error failure => exact ⟨_, _, .refused input, prepared.bind_error⟩
  | ok pair =>
    cases pair with
    | mk i f =>
      obtain ⟨r, final, course, ends⟩ := exists_course_of_formula env quiet input
      exact ⟨r, final, course, prepared.bind ends⟩

/-- The files after a course and the commands started on it, by whether there is a formula. -/
lemma Course.effects {o : Options} {r : Except Failure Unit} (h : Course env o files r final) :
    (∃ failure, Input files o.input (.error failure) ∧ r = .error failure ∧ final.files = files ∧
      final.launches = [] ∧ final.printed = "") ∨
    ∃ i f, Input files o.input (.ok (i, f)) ∧
      ∀ files', files.write o.output f.dimacs.toUTF8 = .ok files' →
        final.files = files' ∧
        final.launches =
          if files'.isFile o.output then [(o.command files', files')] else [] := by
  cases h with
  | refused input => exact .inl ⟨_, input, rfl, rfl, rfl, rfl⟩
  | unwritable input refused =>
    refine .inr ⟨_, _, input, fun files' write => ?_⟩
    rw [refused] at write
    cases write
  | missing input write missing =>
    refine .inr ⟨_, _, input, fun files' write' => ?_⟩
    cases write.symm.trans write'
    rw [if_neg (Bool.eq_false_iff.mp missing)]
    exact ⟨Machine.files_written _ _ _ _, Machine.launches_written _ _ _ _⟩
  | unstarted input write isFile =>
    refine .inr ⟨_, _, input, fun files' write' => ?_⟩
    cases write.symm.trans write'
    rw [if_pos isFile]
    exact ⟨rfl, rfl⟩
  | reported input write isFile =>
    refine .inr ⟨_, _, input, fun files' write' => ?_⟩
    cases write.symm.trans write'
    rw [if_pos isFile]
    exact ⟨rfl, rfl⟩

/-- How a run ends whose session has a result. -/
def outcomeOf : Except Failure Unit → Outcome
  | .ok () => .done
  | .error failure => .failed failure

/-- Every run with accepted arguments follows a course. -/
lemma course_of_run {given : Given} {arguments : List String} {outcome : Outcome}
    (asked : scan specs [] arguments = .ok (.run given))
    (ran : (Machine.fresh files).perform env (run arguments) = (outcome, final)) :
    ∃ r, outcome = outcomeOf r ∧ Course env (.ofGiven given) files r final := by
  obtain ⟨r, final', course, ends⟩ := exists_course env (.ofGiven given) files
  have performed : (Machine.fresh files).perform env (run arguments) = (outcomeOf r, final') := by
    rw [run, start, asked]
    dsimp only
    rw [Machine.perform_then ends]
    cases r with
    | ok _ => rfl
    | error failure => rfl
  obtain ⟨rfl, rfl⟩ := Prod.mk.inj (ran.symm.trans performed)
  exact ⟨r, rfl, course⟩

end ExactCover.CommandLine.Solve
