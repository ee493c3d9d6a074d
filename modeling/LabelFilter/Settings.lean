import LabelFilter.Backend.Collection
import LabelFilter.Backend.Document
import LabelFilter.Json.Reading

/-!
# Settings

How labels are laid out where they are stored: the delimiter of collections and the dialect of documents. Settings are
read from a JSON object, or from an array of the fields in order; a missing field has its default, an unknown one is
refused, and the delimiter must not be empty.
-/

namespace LabelFilter

namespace Dialect

/-- The names of the dialects in JSON. -/
def names : List (String × Dialect) := [("postgres", postgres), ("mysql", mysql)]

def jsonName : Dialect → String
  | postgres => "postgres"
  | mysql => "mysql"

end Dialect

structure Settings where
  delimiter : String
  dialect : Dialect
  deriving DecidableEq, Repr

namespace Settings

open Json Reader

/-- Why settings cannot be loaded. -/
inductive LoadFault
  | json (fault : Json.Fault)
  | emptyDelimiter
  deriving DecidableEq, Repr

def emptyDelimiterMessage : String := "label delimiter must not be empty"

def default : Settings := ⟨Delimited.defaultDelimiter, .postgres⟩

def toJson (s : Settings) : Json :=
  .object [("delimiter", .string s.delimiter), ("json_dialect", .string s.dialect.jsonName)]

def jsonText (s : Settings) : String := s.toJson.text

/-- The fields that have been read so far. -/
structure Draft where
  delimiter? : Option String
  dialect? : Option Dialect

/-- Reads the member of a name. -/
def readField (field : String) (d : Draft) : Reader Draft := fun cs => do
  if field = "delimiter" then
    let (delimiter, cs) ← once field d.delimiter? Reader.string cs
    return ({ d with delimiter? := some delimiter }, cs)
  else if field = "json_dialect" then
    let (dialect, cs) ← once field d.dialect? (variant Dialect.names) cs
    return ({ d with dialect? := some dialect }, cs)
  else .error (.unfit (.unknownField field ["delimiter", "json_dialect"]))

/-- The fields in order; those at the end may be missing. -/
def readArray (cs : List Char) : Except Fault (Settings × List Char) := do
  match ← nextElement true cs with
  | none => return (default, ← closeArray cs)
  | some cs =>
    let (delimiter, cs) ← Reader.string cs
    match ← nextElement false cs with
    | none => return (⟨delimiter, default.dialect⟩, ← closeArray cs)
    | some cs =>
      let (dialect, cs) ← variant Dialect.names cs
      return (⟨delimiter, dialect⟩, ← closeArray cs)

def reader : Reader Settings := fun cs =>
  match skipSpace cs with
  | [] => .error .cutOff
  | '[' :: rest => readArray rest
  | '{' :: rest => do
    let (d, rest) ← Reader.members stringBody readField ⟨none, none⟩ rest
    return (⟨d.delimiter?.getD default.delimiter, d.dialect?.getD default.dialect⟩, rest)
  | cs => refuse "struct Settings" cs

/-- The settings of a JSON text. -/
def ofJsonText (text : String) : Except LoadFault Settings :=
  match Reader.whole reader text with
  | .error e => .error (.json e)
  | .ok s => if s.delimiter.isEmpty then .error .emptyDelimiter else .ok s

/-- The backend of collections with these settings. -/
def collectionBackend (s : Settings) : Backend CollectionTest (List String) := .collection s.delimiter

/-- The backend of documents with these settings. -/
def documentBackend (s : Settings) : Backend DocumentTest Json := .document s.dialect

end Settings

end LabelFilter
