import LabelFilter.Json.Reader

/-!
# Reading values

Readers for the values that are asked for: any value (`Reader.value`), a text, a list of texts, one name of several
(`Reader.variant`), or a value that nobody wants (`Reader.skipValue`). A value of another type is refused with the
type that was found and the one that was wanted. `Reader.whole` reads a text that holds one value and nothing
after it.
-/

namespace LabelFilter.Json

namespace Reader

/-- The first characters of a text are those of a number. -/
def startsNumber : List Char → Bool
  | c :: _ => c == '-' || c.isDigit
  | [] => false

/-- A value that holds no other values. -/
def scalar (cs : List Char) : Except Fault (Json × List Char) :=
  match skipSpace cs with
  | [] => .error .cutOff
  | 'n' :: rest => (fun rest => (.null, rest)) <$> literal "ull".toList rest
  | 't' :: rest => (fun rest => (.boolean true, rest)) <$> literal "rue".toList rest
  | 'f' :: rest => (fun rest => (.boolean false, rest)) <$> literal "alse".toList rest
  | '"' :: rest => (fun p => (.string p.1, p.2)) <$> stringBody rest
  | cs => if startsNumber cs then (fun p => (.number p.1, p.2)) <$> number cs else .error .malformed

/-- Any value in which arrays and objects are nested at most so deep. -/
def value : (depth : Nat) → Reader Json
  | 0, cs => scalar cs
  | depth + 1, cs =>
    match skipSpace cs with
    | '[' :: rest => do
      let item (es : List Json) : Reader (List Json) := fun cs => do
        let (e, cs) ← value depth cs
        return (e :: es, cs)
      let (es, rest) ← elements item [] rest
      return (.array es.reverse, rest)
    | '{' :: rest => do
      let item (name : String) (ms : List (String × Json)) : Reader (List (String × Json)) := fun cs => do
        let (v, cs) ← value depth (← colon cs)
        return (insert name v ms, cs)
      let (ms, rest) ← members stringBody item [] rest
      return (.object ms, rest)
    | cs => scalar cs

/-- The end of a value that nobody wants. -/
def skipScalar (cs : List Char) : Except Fault (List Char) :=
  match skipSpace cs with
  | [] => .error .cutOff
  | 'n' :: rest => literal "ull".toList rest
  | 't' :: rest => literal "rue".toList rest
  | 'f' :: rest => literal "alse".toList rest
  | '"' :: rest => skipString rest
  | cs => if startsNumber cs then skipNumber cs else .error .malformed

/-- The end of a value that nobody wants, nested at most so deep. -/
def skipNested : (depth : Nat) → List Char → Except Fault (List Char)
  | 0, cs => skipScalar cs
  | depth + 1, cs =>
    match skipSpace cs with
    | '[' :: rest =>
      let item (_ : Unit) : Reader Unit := fun cs => ((), ·) <$> skipNested depth cs
      Prod.snd <$> elements item () rest
    | '{' :: rest =>
      let name : Reader Unit := fun cs => ((), ·) <$> skipString cs
      let item (_ _ : Unit) : Reader Unit := fun cs => do
        return ((), ← skipNested depth (← colon cs))
      Prod.snd <$> members name item () rest
    | cs => skipScalar cs

/-- The end of a value that nobody wants. No value is nested deeper than it is long. -/
def skipValue (cs : List Char) : Except Fault (List Char) := skipNested cs.length cs

/-! ## Values of a type -/

/-- What stands at the front of a text, as far as a message about it needs to know. -/
def found (cs : List Char) : Except Fault Found :=
  match cs with
  | 'n' :: rest => (fun _ => .null) <$> literal "ull".toList rest
  | 't' :: rest => (fun _ => .boolean true) <$> literal "rue".toList rest
  | 'f' :: rest => (fun _ => .boolean false) <$> literal "alse".toList rest
  | '"' :: rest => (fun p => .string p.1) <$> stringBody rest
  | '[' :: _ => .ok .sequence
  | '{' :: _ => .ok .map
  | cs => if startsNumber cs then (fun p => .number p.1) <$> number cs else .error .malformed

/-- Refuses a value of the wrong type. -/
def refuse {α : Type} (wanted : String) (cs : List Char) : Except Fault α := do
  .error (.unfit (.wrongType (← found cs) wanted))

def string (cs : List Char) : Except Fault (String × List Char) :=
  match skipSpace cs with
  | [] => .error .cutOff
  | '"' :: rest => stringBody rest
  | cs => refuse "a string" cs

/-- An array of strings. -/
def strings (cs : List Char) : Except Fault (List String × List Char) :=
  match skipSpace cs with
  | [] => .error .cutOff
  | '[' :: rest =>
    let item (ts : List String) : Reader (List String) := fun cs => do
      let (t, cs) ← string cs
      return (ts ++ [t], cs)
    elements item [] rest
  | cs => refuse "a sequence" cs

/-- The value of one of the known names. -/
def choose {α : Type} (known : List (String × α)) (name : String) : Except Fault α :=
  match known.lookup name with
  | some a => .ok a
  | none => .error (.unfit (.unknownVariant name (known.map Prod.fst)))

/-- A literal `null`, where nothing else is of use. -/
def nothing (cs : List Char) : Except Fault (List Char) :=
  match skipSpace cs with
  | [] => .error .cutOff
  | 'n' :: rest => literal "ull".toList rest
  | cs => refuse "unit" cs

/-- The name of the one member of an object, after its brace. -/
def soleName (cs : List Char) : Except Fault (String × List Char) :=
  match skipSpace cs with
  | [] => .error .cutOff
  | '"' :: rest => stringBody rest
  | _ => .error .malformed

/-- One of the known names, as a string or as the one member of an object, whose value is `null`. -/
def variant {α : Type} (known : List (String × α)) (cs : List Char) : Except Fault (α × List Char) :=
  match skipSpace cs with
  | [] => .error .cutOff
  | '"' :: rest => do
    let (name, rest) ← stringBody rest
    return (← choose known name, rest)
  | '{' :: rest => do
    let (name, rest) ← soleName rest
    let a ← choose known name
    let rest ← nothing (← colon rest)
    match skipSpace rest with
    | [] => .error .cutOff
    | '}' :: rest => return (a, rest)
    | _ => .error .malformed
  | _ => .error .malformed

/-- The value of a field that may come once, from its colon on. -/
def once {α : Type} (field : String) (before : Option α) (reader : Reader α) : Reader α := fun cs => do
  if before.isSome then .error (.unfit (.repeatedField field))
  reader (← colon cs)

/-- The value of a text that holds nothing else. -/
def whole {α : Type} (reader : Reader α) (text : String) : Except Fault α := do
  let (a, rest) ← reader text.toList
  if (skipSpace rest).isEmpty then .ok a else .error .malformed

end Reader

/-- The depth to which values may be nested. -/
def nestingLimit : Nat := 127

/-- The value of a JSON text. -/
def ofText (text : String) : Except Fault Json := Reader.whole (Reader.value nestingLimit) text

end LabelFilter.Json
