import LabelFilter.Expression.Json
import LabelFilter.Proofs.Json.Members
import LabelFilter.Settings

/-!
# Expressions and settings through JSON

A record is written as an object of its fields, and reading takes the fields one after the other into a draft. Every
expression is read back from its JSON text, whatever its strings are and however many values it has, though no values
are not written at all. Settings are read back if their delimiter is not empty, and refused for it otherwise
(`records_roundTrip`).
-/

namespace LabelFilter

open Json Reader

namespace Json.Reader

/-! ## Fields -/

theorem string_text (s : String) (rest : List Char) :
    Reader.string ((Json.string s).text.toList ++ rest) = .ok (s, rest) := string_stringText s rest

/-- A name that is known is read as what it stands for. -/
theorem variant_text {α : Type} {known : List (String × α)} {name : String} {a : α} (h : known.lookup name = some a)
    (rest : List Char) : variant known ((Json.string name).text.toList ++ rest) = .ok (a, rest) := by
  have hchoose : choose known name = .ok a := by rw [choose, h]
  have htext : (Json.string name).text.toList ++ rest = '"' :: (name.toList.flatMap escapeChar ++ '"' :: rest) := by
    rw [text, toList_stringText]
    simp
  have hquote : skipSpace ('"' :: (name.toList.flatMap escapeChar ++ '"' :: rest)) =
      '"' :: (name.toList.flatMap escapeChar ++ '"' :: rest) := rfl
  rw [htext, variant, hquote]
  simp only [bind, Except.bind, stringBody_escaped, hchoose]
  rfl

/-- A field that has not come yet is read behind its colon. -/
theorem once_colon {α : Type} (field : String) (reader : Reader α) (cs : List Char) :
    once field none reader (':' :: cs) = reader cs := rfl

/-- A text that is read to its end is read as a whole. -/
theorem whole_eq_ok {α : Type} {reader : Reader α} {text : String} {a : α} (h : reader text.toList = .ok (a, [])) :
    whole reader text = .ok a := by
  rw [whole, h]
  rfl

end Json.Reader

/-! ## Expressions -/

namespace Expression

theorem lookup_jsonName (operator : Operator) : Operator.names.lookup operator.jsonName = some operator := by
  cases operator <;> rfl

/-- The fields that are written are read into a draft of the expression. -/
theorem reads_toJson (e : Expression) :
    ∃ values?, values?.getD [] = e.values ∧
      Reads readField ⟨none, none, none⟩ e.toJson.members ⟨some e.name, some e.operator, values?⟩ := by
  obtain ⟨name, operator, values⟩ := e
  have hname : ∀ rest, readField "name" ⟨none, none, none⟩ (':' :: ((Json.string name).text.toList ++ rest)) =
      .ok (⟨some name, none, none⟩, rest) := by
    intro rest
    rw [readField, if_pos rfl, once_colon, string_text]
    rfl
  have hoperator : ∀ rest, readField "operator" ⟨some name, none, none⟩
      (':' :: ((Json.string operator.jsonName).text.toList ++ rest)) =
      .ok (⟨some name, some operator, none⟩, rest) := by
    intro rest
    rw [readField, if_neg (by decide), if_pos rfl, once_colon, variant_text (lookup_jsonName operator)]
    rfl
  have hvalues : ∀ rest, readField "values" ⟨some name, some operator, none⟩
      (':' :: ((Json.array (values.map .string)).text.toList ++ rest)) =
      .ok (⟨some name, some operator, some values⟩, rest) := by
    intro rest
    rw [readField, if_neg (by decide), if_neg (by decide), if_pos rfl, once_colon, strings_text]
    rfl
  cases values with
  | nil => exact ⟨none, rfl, .cons hname (.cons hoperator (.nil _))⟩
  | cons v vs => exact ⟨some (v :: vs), rfl, .cons hname (.cons hoperator (.cons hvalues (.nil _)))⟩

/-- An expression is read back from its JSON text. -/
theorem reader_jsonText (e : Expression) : reader e.jsonText.toList = .ok (e, []) := by
  obtain ⟨values?, hvalues, hreads⟩ := reads_toJson e
  obtain ⟨cs, htext, hmembers⟩ := members_text hreads []
  have hjson : e.jsonText.toList = '{' :: cs := (List.append_nil _).symm.trans htext
  have hbrace : skipSpace ('{' :: cs) = '{' :: cs := rfl
  have hdraft : ofDraft ⟨some e.name, some e.operator, values?⟩ = .ok e := by rw [ofDraft, hvalues]
  rw [hjson, reader, hbrace]
  simp only [bind, Except.bind, hmembers, hdraft]
  rfl

end Expression

/-! ## Settings -/

theorem Dialect.lookup_jsonName (dialect : Dialect) : Dialect.names.lookup dialect.jsonName = some dialect := by
  cases dialect <;> rfl

namespace Settings

/-- The fields are read into a draft of the settings. -/
theorem reads_toJson (s : Settings) :
    Reads readField ⟨none, none⟩ s.toJson.members ⟨some s.delimiter, some s.dialect⟩ := by
  obtain ⟨delimiter, dialect⟩ := s
  have hdelimiter : ∀ rest, readField "delimiter" ⟨none, none⟩ (':' :: ((Json.string delimiter).text.toList ++ rest)) =
      .ok (⟨some delimiter, none⟩, rest) := by
    intro rest
    rw [readField, if_pos rfl, once_colon, string_text]
    rfl
  have hdialect : ∀ rest, readField "json_dialect" ⟨some delimiter, none⟩
      (':' :: ((Json.string dialect.jsonName).text.toList ++ rest)) = .ok (⟨some delimiter, some dialect⟩, rest) := by
    intro rest
    rw [readField, if_neg (by decide), if_pos rfl, once_colon, variant_text dialect.lookup_jsonName]
    rfl
  exact .cons hdelimiter (.cons hdialect (.nil _))

/-- Settings are read back from their JSON text, whatever the delimiter is. -/
theorem reader_jsonText (s : Settings) : reader s.jsonText.toList = .ok (s, []) := by
  obtain ⟨cs, htext, hmembers⟩ := members_text s.reads_toJson []
  have hjson : s.jsonText.toList = '{' :: cs := (List.append_nil _).symm.trans htext
  have hbrace : skipSpace ('{' :: cs) = '{' :: cs := rfl
  rw [hjson, reader, hbrace]
  simp only [bind, Except.bind, hmembers]
  rfl

end Settings

/-- **Records are read back from JSON.** Every expression is read back from its JSON text. Settings are, too, unless
their delimiter is empty: those are refused for it. -/
theorem records_roundTrip :
    (∀ e : Expression, Expression.ofJsonText e.jsonText = .ok e) ∧
    ∀ s : Settings, Settings.ofJsonText s.jsonText = if s.delimiter = "" then .error .emptyDelimiter else .ok s := by
  constructor
  · intro e
    exact whole_eq_ok e.reader_jsonText
  · intro s
    rw [Settings.ofJsonText, whole_eq_ok s.reader_jsonText]
    simp only [String.isEmpty_iff]

end LabelFilter
