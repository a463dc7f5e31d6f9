import ExactCover.CommandLine.Solve
import ExactCover.Proofs.Sessions

/-!
# Reports on a solver

What the solving program prints and reports once the solver has ended. `Reported` lists the four ways:
there is no model to look for, the output holds none, the model sets a variable that no subset has,
or its selection is printed. The output of the solver is repeated in each of them, and a cover is
printed in the last one only. The warning that a model selects no cover depends on verification alone
and does not keep the selection from being printed.
-/

namespace ExactCover

/-- A solver says that there is a model by its exit code 10, and in no other way. -/
lemma SolverRun.verdict_eq_satisfiable_iff {run : SolverRun} :
    run.verdict = .satisfiable ↔ run.status = .exited 10 := by
  have code : run.status.code? = some 10 ↔ run.status = .exited 10 := by
    cases run.status with
    | exited c => simp [ExitStatus.code?]
    | signaled n => simp [ExitStatus.code?]
  rw [← code, SolverRun.verdict, Verdict.ofCode]
  split
  · rename_i found
    exact ⟨fun _ => found, fun _ => rfl⟩
  · rename_i other
    refine ⟨fun h => ?_, fun h => absurd h other⟩
    split at h
    · cases h
    · cases h

namespace CommandLine

namespace Solve

variable {env : Environment} {w : Machine} {i : Instance} {m : Model} {run : SolverRun}

/-- The warning about a model that selects no cover. -/
def warnings (i : Instance) (m : Model) : List Log.Event :=
  match i.verify m with
  | .ok () => []
  | .error reason => [.notACover reason]

/-- The result of a report, with what is printed and reported. -/
inductive Reported (i : Instance) (run : SolverRun) :
    Except Failure Unit → String → List Log.Event → Prop where
  | noModel {es} :
    run.status ≠ .exited 10 →
    Quiet es →
    Reported i run (.ok ()) (Text.echo run.output) es
  | unreadable {reason es} :
    run.status = .exited 10 →
    Model.parse run.output = .error reason →
    Quiet es →
    Reported i run (.error (.invalidModel reason)) (Text.echo run.output) es
  | unselected {m reason} :
    run.status = .exited 10 →
    Model.parse run.output = .ok m →
    i.selected m = .error reason →
    Reported i run (.error (.cover reason)) (Text.echo run.output) (warnings i m)
  | selected {m selection} :
    run.status = .exited 10 →
    Model.parse run.output = .ok m →
    i.selected m = .ok selection →
    Reported i run (.ok ()) (Text.echo run.output ++ Cover.print selection) (warnings i m)

/-! ## Reading the model -/

/-- A model in the output is read without a trace. -/
lemma ends_readModel {output : String} (h : Model.parse output = .ok m) :
    Ends env w (readModel output) (.ok m) w := by
  rw [readModel, h]
  exact .pure m

/-- The place where a value line was left is reported, and then the model is refused. -/
lemma observes_readModel {output : String} {reason : ModelError}
    (h : Model.parse output = .error reason) :
    Observes env w (readModel output) (.error (.invalidModel reason)) := by
  rw [readModel, h]
  dsimp only
  cases reason.near? with
  | none => exact (Ends.throw _).observes
  | some near => exact (observes_record (by simp)).bind fun _ => (Ends.throw _).observes

/-! ## Printing the cover -/

/-- The warning comes first, whatever follows it. -/
lemma ends_printCover {r : Except Failure Unit} {w' : Machine}
    (rest : Ends env (w.log (warnings i m))
      (orFail .cover (i.selected m) >>= fun selection =>
        ExceptT.lift (Host.print (Cover.print selection))) r w') :
    Ends env w (printCover i m) r w' := by
  unfold warnings at rest
  unfold printCover
  cases verified : i.verify m with
  | ok _ =>
    rw [verified] at rest
    dsimp only at rest
    rw [Machine.log_nil] at rest
    exact rest
  | error reason =>
    rw [verified] at rest
    exact .bind (ends_record _) rest

/-! ## The whole report -/

/-- A report repeats the output of the solver and goes on in one of the four ways. -/
lemma exists_reported (env : Environment) (w : Machine) (i : Instance) (run : SolverRun) :
    ∃ r text es, Reported i run r text es ∧
      Ends env w (report i run) r ((w.print text).log es) := by
  have other : run.verdict ≠ .satisfiable → run.status ≠ .exited 10 :=
    fun ne found => ne (SolverRun.verdict_eq_satisfiable_iff.mpr found)
  cases verdict : run.verdict with
  | satisfiable =>
    have found := SolverRun.verdict_eq_satisfiable_iff.mp verdict
    cases parsed : Model.parse run.output with
    | error reason =>
      obtain ⟨es, quiet, refused⟩ :
          Observes env (w.print (Text.echo run.output)) (readModel run.output) _ :=
        observes_readModel parsed
      refine ⟨_, _, es, .unreadable found parsed quiet, .bind (ends_print _) ?_⟩
      rw [verdict]
      exact refused.bind_error
    | ok m =>
      cases selected : i.selected m with
      | error reason =>
        refine ⟨_, _, _, .unselected found parsed selected, .bind (ends_print _) ?_⟩
        rw [verdict]
        exact (ends_readModel parsed).bind (ends_printCover (ends_orFail_error selected).bind_error)
      | ok selection =>
        refine ⟨_, _, _, .selected found parsed selected, .bind (ends_print _) ?_⟩
        rw [verdict, ← Machine.print_log_print]
        exact (ends_readModel parsed).bind
          (ends_printCover ((ends_orFail selected).bind (ends_print _)))
  | unsatisfiable =>
    rw [verdict] at other
    have quiet : Quiet [.noCoverExists] := .singleton (by simp)
    refine ⟨_, _, _, .noModel (other nofun) quiet, .bind (ends_print _) ?_⟩
    rw [verdict]
    exact ends_record .noCoverExists
  | unknown code =>
    rw [verdict] at other
    have quiet : Quiet [.noVerdict code] := .singleton (by simp)
    refine ⟨_, _, _, .noModel (other nofun) quiet, .bind (ends_print _) ?_⟩
    rw [verdict]
    exact ends_record (.noVerdict code)

end Solve

end CommandLine

end ExactCover
