import ExactCover.Proofs.Decoding
import ExactCover.Proofs.ModelReading
import ExactCover.Solver.Run

/-!
# The rows that decide on a model

What a solver prints is bytes, and they need not be text. The model is read from the rows that begin
with the byte of the letter `v`, whatever stands around them: the value lines of the decoded output
are these rows, decoded one by one (`valueLinesAmong_decode`). So two solvers that print the same
such rows are read alike (`model_depends_on_value_rows`).
-/

namespace ExactCover.Model
open Text Text.Utf8

/-- The byte of the letter that value lines begin with. -/
def letter : UInt8 := 0x76

/-- The rows of some bytes that begin like a value line. Rows end at the bytes of line feeds. -/
def valueRows (bytes : ByteArray) : List (List UInt8) :=
  (bytes.data.toList.splitOn feed).filter (·.head? = some letter)

/-- Bytes made up of rows, with the byte of a line feed between any two. -/
def ofRows (rows : List (List UInt8)) : ByteArray :=
  ⟨([feed].intercalate rows).toArray⟩

/-- The model in what a solver printed. -/
def printedModel (e : Ended) : Except ModelError Model :=
  parse (SolverRun.ofEnded e).output

variable {rows before other other' after : List (List UInt8)}

/-! ## Rows -/

/-- The value lines of a decoded output are its value rows, each decoded by itself. -/
lemma valueLinesAmong_decode (bytes : ByteArray) :
    valueLinesAmong (lines (decodeLossy bytes).toList) =
      (valueRows bytes).map fun row => trimEnd (decodeFrom .boundary row) := by
  have begins : ∀ row, (decodeFrom .boundary row).head? = some 'v' ↔ row.head? = some letter := by
    intro row
    rw [head?_decodeFrom row (by decide)]
    cases row with
    | nil => exact ⟨nofun, nofun⟩
    | cons b row =>
      rw [List.head?_cons, Option.map_some, Option.some_inj, Option.some_inj, ← UInt8.toNat_inj]
      rfl
  rw [decodeLossy, String.toList_ofList, valueLinesAmong_lines, splitOn_decodeFrom]
  simp only [valueLinesAmong, List.filter_map, List.map_map, Function.comp_def, begins, valueRows]

/-- The model of a run is read from its value rows, each decoded by itself. -/
lemma printedModel_eq (e : Ended) :
    printedModel e = ((valueRows e.output).map fun row =>
      trimEnd (decodeFrom .boundary row)).mapM readLine >>= fun vss => ofValues vss.flatten := by
  rw [← valueLinesAmong_decode]
  exact parse_eq _

/-- Rows without line feeds are found again. -/
lemma valueRows_ofRows (fresh : ∀ row ∈ rows, feed ∉ row) :
    valueRows (ofRows rows) = rows.filter (·.head? = some letter) := by
  cases rows with
  | nil => rfl
  | cons row rows => rw [valueRows, ofRows, List.splitOn_intercalate feed fresh nofun]

/-- Rows of other kinds are passed over. -/
lemma valueRows_of_other (fresh : ∀ row ∈ before ++ other ++ after, feed ∉ row)
    (kind : ∀ row ∈ other, row.head? ≠ some letter) :
    valueRows (ofRows (before ++ other ++ after)) =
      (before ++ after).filter (·.head? = some letter) := by
  have none : other.filter (·.head? = some letter) = [] :=
    List.filter_eq_nil_iff.mpr fun row hrow => by simpa using kind row hrow
  rw [valueRows_ofRows fresh, List.filter_append, List.filter_append, none, List.append_nil,
    List.filter_append]

/-- A line feed at the end ends the last row and begins an empty one. -/
lemma valueRows_push (bytes : ByteArray) : valueRows (bytes.push feed) = valueRows bytes := by
  have pushed : (bytes.push feed).data.toList = bytes.data.toList ++ feed :: [] :=
    Array.toList_push
  rw [valueRows, pushed, List.splitOn_append_cons_self, List.filter_append]
  exact List.append_nil _

/-- The model, or the error in place of one, is read from the value rows of an output, each decoded
by itself. So these rows decide on it: rows of other kinds can be put in, taken away or exchanged for
others, whatever bytes they hold, and the last row may or may not end with a line feed. -/
theorem model_depends_on_value_rows :
    (∀ e : Ended, printedModel e = ((valueRows e.output).map fun row =>
      trimEnd (decodeFrom .boundary row)).mapM readLine >>= fun vss => ofValues vss.flatten) ∧
    (∀ e e' : Ended, valueRows e.output = valueRows e'.output → printedModel e = printedModel e') ∧
    (∀ status before other other' after,
      (∀ row ∈ before ++ other ++ after, feed ∉ row) →
      (∀ row ∈ before ++ other' ++ after, feed ∉ row) →
      (∀ row ∈ other, row.head? ≠ some letter) → (∀ row ∈ other', row.head? ≠ some letter) →
      printedModel ⟨status, ofRows (before ++ other ++ after)⟩ =
        printedModel ⟨status, ofRows (before ++ other' ++ after)⟩) ∧
    (∀ status bytes, printedModel ⟨status, bytes.push feed⟩ = printedModel ⟨status, bytes⟩) := by
  have decided : ∀ e e' : Ended, valueRows e.output = valueRows e'.output →
      printedModel e = printedModel e' := by
    intro e e' same
    rw [printedModel_eq, printedModel_eq, same]
  refine ⟨printedModel_eq, decided, ?_, fun status bytes => decided _ _ (valueRows_push bytes)⟩
  intro status before other other' after fresh fresh' kind kind'
  refine decided _ _ ?_
  rw [valueRows_of_other fresh kind, valueRows_of_other fresh' kind']

/-- A row that breaks off within a character, right before a value row, and a byte of no character
right behind it are as good as none. -/
theorem model_depends_on_value_rows_cut_short :
    printedModel ⟨.exited 10, ofRows [[0xe2, 0x82], [0x76, 0x20, 0x31, 0x20, 0x30], [0xff]]⟩ =
      .ok ⟨[.ofVariable 1 true (by decide)]⟩ ∧
    printedModel ⟨.exited 10, ofRows [[0xe2, 0x82], [0x76, 0x20, 0x31, 0x20, 0x30]]⟩ =
      printedModel ⟨.exited 10, ofRows [[0xf0, 0x9f], [0x73], [0x76, 0x20, 0x31, 0x20, 0x30]]⟩ ∧
    printedModel ⟨.exited 10, (ofRows [[0x76, 0x20, 0x31, 0x20, 0x30]]).push feed⟩ =
      printedModel ⟨.exited 10, ofRows [[0x76, 0x20, 0x31, 0x20, 0x30]]⟩ := by
  obtain ⟨_, decided, exchanged, ended⟩ := model_depends_on_value_rows
  refine ⟨?_, ?_, ended _ _⟩
  · calc printedModel ⟨.exited 10, ofRows [[0xe2, 0x82], [0x76, 0x20, 0x31, 0x20, 0x30], [0xff]]⟩
        = printedModel ⟨.exited 10, ofRows [[0x76, 0x20, 0x31, 0x20, 0x30]]⟩ :=
          decided _ _ (by decide +kernel)
      _ = .ok ⟨[.ofVariable 1 true (by decide)]⟩ := by decide +kernel
  · exact exchanged (.exited 10) [] [[0xe2, 0x82]] [[0xf0, 0x9f], [0x73]]
      [[0x76, 0x20, 0x31, 0x20, 0x30]] (by decide) (by decide) (by decide) (by decide)

end ExactCover.Model
