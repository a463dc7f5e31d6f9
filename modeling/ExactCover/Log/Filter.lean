import ExactCover.Log.Directive

/-!
# Log filters

A filter is a list of directives, separated by commas. Of several directives that apply to an event
the one with the longest path decides, of these one with a field, and of these the last. A target
without a directive is silent. A word that is no directive is ignored with a complaint, and a filter
without directives logs errors only.
-/

namespace ExactCover.Log

/-- The directives in effect. -/
structure Filter where
  directives : List Directive
  deriving DecidableEq, Repr

namespace Filter

/-- The filter that logs errors only. -/
def errorsOnly : Filter := ⟨[⟨[], none, Level.error.rank⟩]⟩

/-- The words of a filter text. -/
def words (text : String) : List (List Char) :=
  (text.toList.splitOn ',').filter (!·.isEmpty)

/-- The text is fit for a program to run with: no word of it is cut inside a character. -/
def isSound (text : String) : Bool :=
  (words text).all fun word => !(Directive.ofWord word matches .error .cutCharacter)

/-- The filter that a text states. -/
def ofString (text : String) : Filter :=
  match (words text).filterMap fun word => (Directive.ofWord word).toOption.join with
  | [] => errorsOnly
  | directives => ⟨directives⟩

/-- What is said about the words of a filter text that are ignored, a line for each. -/
def complaints (text : String) : List String :=
  (words text).filterMap fun word =>
    match Directive.ofWord word with
    | .ok _ => none
    | .error e => some ("ignoring `" ++ String.ofList word ++ "`: " ++ e.message)

/-- The rank up to which a target is logged. -/
def rankFor (f : Filter) (target : Target) : Nat :=
  let best := (f.directives.filter (·.applies target)).foldl (fun best d =>
    match best with
    | some b => if b.yieldsTo d then some d else some b
    | none => some d) none
  (best.map Directive.rank).getD 0

/-- The filter lets an event through. -/
def admits (f : Filter) (e : Event) : Bool :=
  e.level.rank ≤ f.rankFor e.target

end Filter

end ExactCover.Log
