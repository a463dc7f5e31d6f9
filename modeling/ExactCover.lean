import ExactCover.Main
import ExactCover.Random.SplitMix
import ExactCover.Proofs.Traversal
import ExactCover.Proofs.Satisfaction
import ExactCover.Proofs.Grammar
import ExactCover.Proofs.Incidence
import ExactCover.Proofs.GroupReading
import ExactCover.Proofs.Numbering
import ExactCover.Proofs.Parsing
import ExactCover.Proofs.Reduction
import ExactCover.Proofs.Verification
import ExactCover.Proofs.CompleteInvariant
import ExactCover.Proofs.ModelReading
import ExactCover.Proofs.Offences
import ExactCover.Proofs.Rendering
import ExactCover.Proofs.Selection
import ExactCover.Proofs.Draws
import ExactCover.Proofs.Families
import ExactCover.Proofs.Guarantee
import ExactCover.Proofs.Storage
import ExactCover.Proofs.DimacsReading
import ExactCover.Proofs.Safety
import ExactCover.Proofs.Files
import ExactCover.Proofs.Sessions
import ExactCover.Proofs.Reports
import ExactCover.Proofs.Courses
import ExactCover.Proofs.Effects
import ExactCover.Proofs.Outcomes
import ExactCover.Proofs.Indexing
import ExactCover.Proofs.Encodability
import ExactCover.Proofs.Multiplicity
import ExactCover.Proofs.Pairs
import ExactCover.Proofs.Diagnosis
import ExactCover.Proofs.Breaks
import ExactCover.Proofs.Locations
import ExactCover.Proofs.Coverage
import ExactCover.Proofs.TrueVariables
import ExactCover.Proofs.CoverReading
import ExactCover.Proofs.LineByLine
import ExactCover.Proofs.Echo
import ExactCover.Proofs.Decoding
import ExactCover.Proofs.ValueRows
import ExactCover.Proofs.LineEndings
import ExactCover.Proofs.Patience
import ExactCover.Proofs.Shapes
import ExactCover.Proofs.SameWords
import ExactCover.Proofs.FirstAppearances
import ExactCover.Proofs.ClauseLists
