import LabelFilter.Expression.Json
import LabelFilter.Matching
import LabelFilter.Query
import LabelFilter.Selector.Json
import LabelFilter.Session
import LabelFilter.Settings
import LabelFilter.View.Expressions
import LabelFilter.Proofs.Grammar.Automaton
import LabelFilter.Proofs.Grammar.Simulation
import LabelFilter.Proofs.Grammar.Language
import LabelFilter.Proofs.Reading
import LabelFilter.Proofs.RoundTrip
import LabelFilter.Proofs.Backend.Compile
import LabelFilter.Proofs.Backend.Document
import LabelFilter.Proofs.WrittenForm
import LabelFilter.Proofs.LabelSet.Delimited
import LabelFilter.Proofs.Backend.Collection
import LabelFilter.Proofs.Expression.Defect
import LabelFilter.Proofs.Json.Strings
import LabelFilter.Proofs.Selector.Json
import LabelFilter.Proofs.Predicate.Rendering
import LabelFilter.Proofs.Backend.Literals
import LabelFilter.Proofs.Selector.Joining
import LabelFilter.Proofs.Selector.Building
import LabelFilter.Proofs.Backend.Decision
import LabelFilter.Proofs.View.Rendering
import LabelFilter.Proofs.Spacing
import LabelFilter.Proofs.Store
import LabelFilter.Proofs.View.Merging
import LabelFilter.Proofs.View.Visiting
import LabelFilter.Proofs.Session
import LabelFilter.Proofs.Json.Members
import LabelFilter.Proofs.Json.Records
import LabelFilter.Proofs.Selector.Pinpointing
import LabelFilter.Proofs.Selector.Caret
import LabelFilter.Proofs.Predicate.Folded
import LabelFilter.Proofs.StrayCharacters
import LabelFilter.Proofs.Predicate.Trace
import LabelFilter.Proofs.Backend.Shape
import LabelFilter.Proofs.Predicate.Reading
import LabelFilter.Proofs.Backend.Names
import LabelFilter.Proofs.View.Labels
import LabelFilter.Proofs.View.Repeats
import LabelFilter.Proofs.LabelSet.Splitting
import LabelFilter.Proofs.Json.Order
import LabelFilter.Proofs.LabelSet.Maps
import LabelFilter.Proofs.Labels
