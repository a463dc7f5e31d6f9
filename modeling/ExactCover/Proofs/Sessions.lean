import ExactCover.CommandLine.Session
import ExactCover.Proofs.Files

/-!
# Sessions on a machine

How a session runs on a machine, as a relation: `Ends` holds of the machine at the beginning, the result
and the machine at the end. There is one rule for each call on the host and two for going on, after a
result and after a failure; so the run of a whole session is derived call by call. Where only the log
grows, `Observes` leaves out what is reported.
-/

namespace ExactCover

namespace Machine

/-- What a program computes on a machine, and the machine after it. -/
def perform {α : Type} (w : Machine) (env : Environment) (p : OnMachine α) : α × Machine :=
  (p.run env).run w

/-- The machine with more events in its log. -/
def log (w : Machine) (es : List Log.Event) : Machine :=
  { w with events := w.events ++ es.toArray }

/-- The machine with more text on its standard output. -/
def print (w : Machine) (text : String) : Machine :=
  { w with printed := w.printed ++ text }

/-- The machine with one more command started. -/
def start (w : Machine) (command : Command) : Machine :=
  { w with launches := w.launches ++ [(command, w.files)] }

/-- Reporting nothing leaves the machine as it is. -/
@[simp]
lemma log_nil (w : Machine) : w.log [] = w := by
  rw [log, Array.append_empty]

/-- Two reports in a row are one report of all the events. -/
@[simp]
lemma log_log (w : Machine) (es es' : List Log.Event) : (w.log es).log es' = w.log (es ++ es') := by
  simp [log]

/-- A report does not touch the files. -/
@[simp]
lemma files_log (w : Machine) (es : List Log.Event) : (w.log es).files = w.files :=
  rfl

/-- A report and a launch may change places. -/
lemma log_start (w : Machine) (es : List Log.Event) (command : Command) :
    (w.log es).start command = (w.start command).log es :=
  rfl

/-- A report and a print may change places. -/
lemma log_print (w : Machine) (es : List Log.Event) (text : String) :
    (w.log es).print text = (w.print text).log es :=
  rfl

/-- What is printed after a report joins what was printed before it. -/
lemma print_log_print (w : Machine) (text text' : String) (es : List Log.Event) :
    ((w.print text).log es).print text' = (w.print (text ++ text')).log es := by
  simp [log, print, String.append_assoc]

/-- A file takes what is written to it without anything being printed. -/
lemma written_of_isFile {w : Machine} {path : String} {bytes : ByteArray} {files : FileTree}
    (h : w.files.write path bytes = .ok files) (isFile : files.isFile path = true) :
    w.written path bytes files = { w with files } := by
  rw [written, FileTree.device?_of_isFile h isFile]

/-- A report and a write may change places. -/
lemma log_written (w : Machine) (es : List Log.Event) (path : String) (bytes : ByteArray)
    (files : FileTree) :
    (w.log es).written path bytes files = (w.written path bytes files).log es := by
  unfold written
  rw [files_log]
  split
  · rfl
  · rfl
  · rfl

/-- After a write the machine has the files that the write made. -/
lemma files_written (w : Machine) (path : String) (bytes : ByteArray) (files : FileTree) :
    (w.written path bytes files).files = files := by
  unfold written
  split
  · rfl
  · rfl
  · rfl

/-- A write starts no command. -/
lemma launches_written (w : Machine) (path : String) (bytes : ByteArray) (files : FileTree) :
    (w.written path bytes files).launches = w.launches := by
  unfold written
  split
  · rfl
  · rfl
  · rfl

/-! ## Programs -/

section Perform

variable {α β : Type} {env : Environment} {w w' : Machine}

/-- The second program goes on from the machine that the first one left. -/
lemma perform_then {p : OnMachine α} {f : α → OnMachine β} {a : α}
    (first : w.perform env p = (a, w')) : w.perform env (p >>= f) = w'.perform env (f a) := by
  -- the layers of the monad compute, the environment staying the same
  have unfolded : w.perform env (p >>= f) =
      (w.perform env p).2.perform env (f (w.perform env p).1) :=
    rfl
  rw [unfolded, first]

/-- A reported event comes last in the log. -/
lemma perform_record (e : Log.Event) : w.perform env (Host.record e) = ((), w.log [e]) := by
  rw [log, ← Array.push_eq_append]
  rfl

/-- Printed text comes last on the standard output. -/
lemma perform_print (text : String) : w.perform env (Host.print text) = ((), w.print text) :=
  rfl

/-- Reading asks the files and changes nothing. -/
lemma perform_read (path : String) :
    w.perform env (Host.read path) = (w.files.read path, w) :=
  rfl

/-- Asking for a file changes nothing. -/
lemma perform_isFile (path : String) :
    w.perform env (Host.isFile path) = (w.files.isFile path, w) :=
  rfl

/-- A launch is answered by the environment, which sees the files as they are. -/
lemma perform_launch (command : Command) :
    w.perform env (Host.launch command) = (env.launch command w.files, w.start command) :=
  rfl

/-- A write is done to the files; one that is refused leaves the machine as it was. -/
lemma perform_write (path : String) (bytes : ByteArray) :
    w.perform env (Host.write path bytes) =
      match w.files.write path bytes with
      | .ok files => (.ok (), w.written path bytes files)
      | .error e => (.error e, w) := by
  have unfolded : w.perform env (Host.write path bytes) = w.perform env
      (match w.files.write path bytes with
        | .ok files => do
          modify (·.written path bytes files)
          return .ok ()
        | .error e => return .error e) :=
    rfl
  rw [unfolded]
  cases w.files.write path bytes with
  | ok files => rfl
  | error e => rfl

end Perform

end Machine

namespace CommandLine

open Machine

variable {α β : Type} {env : Environment} {w w' w'' : Machine}

/-- A session that begins on one machine ends with a result on another. -/
def Ends (env : Environment) (w : Machine) (s : ExceptT Failure OnMachine α) (r : Except Failure α)
    (w' : Machine) : Prop :=
  w.perform env s.run = (r, w')

/-! ## Going on -/

/-- A session that only returns a result changes nothing. -/
lemma Ends.pure (a : α) : Ends env w (pure a) (.ok a) w :=
  rfl

/-- A session that only fails changes nothing. -/
lemma Ends.throw (f : Failure) : Ends env w (throw f : ExceptT Failure OnMachine α) (.error f) w :=
  rfl

/-- After a result the session goes on from where it stands. -/
lemma Ends.bind {s : ExceptT Failure OnMachine α} {f : α → ExceptT Failure OnMachine β} {a : α}
    {r : Except Failure β} (first : Ends env w s (.ok a) w') (rest : Ends env w' (f a) r w'') :
    Ends env w (s >>= f) r w'' := by
  rw [Ends, ExceptT.run_bind, perform_then first]
  exact rest

/-- A failure ends the session. -/
lemma Ends.bind_error {s : ExceptT Failure OnMachine α} {f : α → ExceptT Failure OnMachine β}
    {e : Failure} (first : Ends env w s (.error e) w') : Ends env w (s >>= f) (.error e) w' := by
  rw [Ends, ExceptT.run_bind, perform_then first]
  rfl

/-! ## Calls -/

/-- A call on the host is a session without failures. -/
lemma ends_lift {p : OnMachine α} {a : α} (h : w.perform env p = (a, w')) :
    Ends env w (ExceptT.lift p) (.ok a) w' := by
  rw [Ends, ExceptT.run_lift, ← bind_pure_comp, perform_then h]
  rfl

/-- A session reports an event by one entry in the log. -/
lemma ends_record (e : Log.Event) : Ends env w (record e) (.ok ()) (w.log [e]) :=
  ends_lift (perform_record e)

/-- A session prints by adding to the standard output. -/
lemma ends_print (text : String) :
    Ends env w (ExceptT.lift (Host.print text)) (.ok ()) (w.print text) :=
  ends_lift (perform_print text)

section Results

variable {ε : Type} {failure : ε → Failure} {x : Except ε α}

/-- A result that is there is passed on. -/
lemma ends_orFail {a : α} (h : x = .ok a) : Ends env w (orFail failure x) (.ok a) w := by
  rw [h]
  rfl

/-- An error ends the session as the failure that it is taken for. -/
lemma ends_orFail_error {e : ε} (h : x = .error e) :
    Ends env w (orFail failure x) (.error (failure e)) w := by
  rw [h]
  rfl

end Results

/-- A session reads a file without a trace. -/
lemma ends_read (path : String) :
    Ends env w (ExceptT.lift (Host.read path)) (.ok (w.files.read path)) w :=
  ends_lift (perform_read path)

/-- A session goes on after a write that succeeds. -/
lemma ends_writeFile {path : String} {bytes : ByteArray} {files : FileTree}
    (h : w.files.write path bytes = .ok files) :
    Ends env w (writeFile path bytes) (.ok ()) (w.written path bytes files) := by
  have call : w.perform env (Host.write path bytes) = _ := perform_write path bytes
  rw [h] at call
  exact (ends_lift call).bind (ends_orFail rfl)

/-- A session fails with the path and the reason if a write is refused. -/
lemma ends_writeFile_error {path : String} {bytes : ByteArray} {e : FileError}
    (h : w.files.write path bytes = .error e) :
    Ends env w (writeFile path bytes) (.error (.unwritable path e)) w := by
  have call : w.perform env (Host.write path bytes) = _ := perform_write path bytes
  rw [h] at call
  exact (ends_lift call).bind (ends_orFail_error rfl)

/-! ## Sessions that only report -/

/-- None of the events is the warning that a model selects no cover. -/
def Quiet (es : List Log.Event) : Prop :=
  ∀ reason, .notACover reason ∉ es

/-- No events hold no warning. -/
lemma Quiet.nil : Quiet [] :=
  fun _ => List.not_mem_nil

/-- Quiet events after quiet events are quiet. -/
lemma Quiet.append {es es' : List Log.Event} (h : Quiet es) (h' : Quiet es') : Quiet (es ++ es') := by
  intro reason mem
  cases List.mem_append.mp mem with
  | inl mem => exact h reason mem
  | inr mem => exact h' reason mem

/-- A single event is quiet unless it is the warning. -/
lemma Quiet.singleton {e : Log.Event} (h : ∀ reason, e ≠ .notACover reason) : Quiet [e] :=
  fun reason mem => h reason (List.mem_singleton.mp mem).symm

/-- A session ends with a result and leaves no trace but in the log, and no warning there. -/
def Observes (env : Environment) (w : Machine) (s : ExceptT Failure OnMachine α)
    (r : Except Failure α) : Prop :=
  ∃ es, Quiet es ∧ Ends env w s r (w.log es)

section Observes

variable {s : ExceptT Failure OnMachine α} {f : α → ExceptT Failure OnMachine β}

/-- What leaves no trace at all leaves none but in the log. -/
lemma Ends.observes {r : Except Failure α} (h : Ends env w s r w) : Observes env w s r := by
  refine ⟨[], .nil, ?_⟩
  rw [Machine.log_nil]
  exact h

/-- Reporting anything but the warning only shows in the log. -/
lemma observes_record {e : Log.Event} (h : ∀ reason, e ≠ .notACover reason) :
    Observes env w (record e) (.ok ()) :=
  ⟨[e], .singleton h, ends_record e⟩

/-- A session goes on after a result whatever has been reported so far. -/
lemma Observes.bind {a : α} {r : Except Failure β} (first : Observes env w s (.ok a))
    (rest : ∀ es, Observes env (w.log es) (f a) r) : Observes env w (s >>= f) r := by
  obtain ⟨es, quiet, first⟩ := first
  obtain ⟨es', quiet', rest⟩ := rest es
  rw [Machine.log_log] at rest
  exact ⟨es ++ es', quiet.append quiet', first.bind rest⟩

/-- A failure ends the session, whatever has been reported. -/
lemma Observes.bind_error {e : Failure} (first : Observes env w s (.error e)) :
    Observes env w (s >>= f) (.error e) := by
  obtain ⟨es, quiet, first⟩ := first
  exact ⟨es, quiet, first.bind_error⟩

end Observes

end CommandLine

end ExactCover
