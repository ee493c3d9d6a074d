import LabelFilter.Backend.Collection
import LabelFilter.Proofs.LabelSet.Delimited
import LabelFilter.Proofs.Sql.Like
import LabelFilter.Proofs.Sql.Reading

/-!
# Names in SQL

In SQL a collection has a name if one of its labels is the name or is like a pattern of the name and the delimiter. This is
the condition that is read from the text of the test, with its literals decoded (`LabelCondition.pieces`), and it holds of
a label exactly if the label has the name (`CollectionTest.condition_of_hasName`). No character of the name or of the
delimiter is taken for a wildcard.
-/

namespace LabelFilter

open Sql

/-- The condition on a label that it is a text or matches a pattern. -/
structure LabelCondition where
  text : String
  pattern : String

namespace LabelCondition

/-- What is read of the condition: the code and the two literals. -/
def pieces (c : LabelCondition) : List Piece :=
  "label = ".toList.map .code ++ .literal c.text :: (" OR label LIKE ".toList.map .code ++ [.literal c.pattern])

/-- The label satisfies the condition. -/
def Holds (c : LabelCondition) (label : String) : Prop := label = c.text ∨ Like c.pattern.toList label.toList

end LabelCondition

namespace CollectionTest

/-- The condition of a name, as it is written. -/
def nameCondition (delimiter name : String) : String :=
  "label = " ++ literal .standard name ++ " OR label LIKE " ++ literal .standard (namePattern delimiter name)

/-- The test of a name searches the column for a label that satisfies the condition. -/
theorem sql_hasName (delimiter column name : String) : (hasName name).sql delimiter column =
    "EXISTS (SELECT 1 FROM unnest(" ++ column ++ ") AS label WHERE " ++ nameCondition delimiter name ++ ")" := by
  have hwhere : ") AS label WHERE label = " = ") AS label WHERE " ++ "label = " := by decide
  calc (hasName name).sql delimiter column
      = "EXISTS (SELECT 1 FROM unnest(" ++ column ++ ") AS label WHERE label = " ++ literal .standard name ++
          " OR label LIKE " ++ literal .standard (namePattern delimiter name) ++ ")" := rfl
    _ = _ := by simp only [hwhere, nameCondition, String.append_assoc, -String.reduceAppend]

/-- The condition is read back, with the name and its pattern in the literals. -/
theorem read_nameCondition (delimiter name : String) :
    Sql.read .standard (nameCondition delimiter name) =
      some (LabelCondition.pieces ⟨name, namePattern delimiter name⟩) := by
  have hpattern : readFrom .standard .outside (literal .standard (namePattern delimiter name)).toList =
      some [.literal (namePattern delimiter name)] := by
    have hempty : Apart "" := Unquoted.apart (by decide)
    have h := readFrom_literal (q := .standard) (namePattern delimiter name) hempty
    rwa [String.append_empty] at h
  have hlike : Apart (" OR label LIKE " ++ literal .standard (namePattern delimiter name)) :=
    Apart.append_of_ne_empty (Unquoted.apart (by decide)) (by decide) _
  rw [Sql.read, nameCondition, String.append_assoc, String.append_assoc, String.toList_append, readFrom_code (by decide),
    readFrom_literal name hlike, String.toList_append, readFrom_code (by decide), hpattern]
  rfl

/-- The pattern of a name matches the labels that join the name to some value. -/
theorem like_namePattern_iff (delimiter name label : String) :
    Like (namePattern delimiter name).toList label.toList ↔ ∃ value, label = Delimited.join delimiter name value := by
  simp only [namePattern, String.toList_append, List.append_assoc, like_escape_append_iff, ← String.toList_inj,
    Delimited.toList_join]
  constructor
  · rintro ⟨_, hname, value, rfl, -⟩
    exact ⟨String.ofList value, by rw [hname, String.toList_ofList]⟩
  · rintro ⟨value, hlabel⟩
    exact ⟨_, hlabel, _, rfl, like_any _⟩

/-- The condition of a name holds of the labels that have the name. -/
theorem holds_nameCondition_iff (delimiter name label : String) :
    LabelCondition.Holds ⟨name, namePattern delimiter name⟩ label ↔ Delimited.isNamed delimiter name label := by
  rw [LabelCondition.Holds, like_namePattern_iff, Delimited.isNamed_iff]

/-- **Names in SQL are names in memory.** The test of a name is written as the search of the column for a label that
satisfies a condition. The literals of the condition are decoded to a text and a pattern, and the condition holds of a
label exactly if the collection of this label passes the test. So a collection passes exactly if the search succeeds. -/
theorem condition_of_hasName (delimiter column name : String) : ∃ (condition : String) (c : LabelCondition),
    (hasName name).sql delimiter column =
      "EXISTS (SELECT 1 FROM unnest(" ++ column ++ ") AS label WHERE " ++ condition ++ ")" ∧
    Sql.read .standard condition = some c.pieces ∧
    (∀ label, c.Holds label ↔ (hasName name).holds delimiter [label]) ∧
    ∀ labels, (∃ label ∈ labels, c.Holds label) ↔ (hasName name).holds delimiter labels := by
  have hholds : ∀ labels, (∃ label ∈ labels, LabelCondition.Holds ⟨name, namePattern delimiter name⟩ label) ↔
      (hasName name).holds delimiter labels := by
    intro labels
    simp only [holds, Delimited.labelSet, List.any_eq_true, holds_nameCondition_iff]
  refine ⟨nameCondition delimiter name, _, sql_hasName delimiter column name, read_nameCondition delimiter name, ?_, hholds⟩
  intro label
  simp only [← hholds, List.mem_singleton, exists_eq_left]

/-- A wildcard in a name is escaped, and the one behind the delimiter is not. -/
example : namePattern ":" "my_label" = "my\\_label:%" := by decide

end CollectionTest

end LabelFilter
