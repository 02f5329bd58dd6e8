import RowShape.Definition
import RowShape.Document.Fault
import RowShape.Json.Reader
import RowShape.Number.Decimal
import RowShape.Sql.Dialect

/-!
Reading definitions from documents. Every fault is found before anything is
fetched. Objects under `$context` stand for values of the context that is given
here, or for their defaults; nothing else of that context is looked at.
-/

namespace RowShape.Document

/-- Appends a window of rows to SQL text. -/
abbrev Pager := String → Option Nat → Option Nat → String

/-- What documents may rely on. -/
structure Settings where
  hasClient : Bool
  pager : Option Pager

/-- The tag that decides what a tagged object is. -/
inductive Primary where
  | provider (kind : ProviderKind)
  | field
  | context
deriving DecidableEq, Repr

namespace Primary

def all : List Primary :=
  [provider .collection, provider .entity, provider .column, provider .value, field, context]

def tag : Primary → Tag
  | provider .collection => .collection
  | provider .entity => .entity
  | provider .column => .column
  | provider .value => .value
  | field => .field
  | context => .context

/-- The tags that may stand beside a primary tag with this value. -/
def companions (v : Json) : Primary → List Tag
  | provider .collection => [.params, .definition, .key, .limit, .offset]
  | provider .column => [.params, .definition, .limit, .offset]
  | provider .entity => [.params, .definition]
  | provider .value => [.params, .definition]
  | context => [.default]
  | field =>
    match v with
    | .str "csv" => [.key, .delimiter]
    | .str "format" => [.key, .format]
    | .str "value" => [.key, .value]
    | _ => [.key]

end Primary

def get? (members : Row) (t : Tag) : Option Json := members.get? t.text

/-- The primary tags of an object and their values. Beside `$field`, `$value` is the
constant of the field. -/
def primaries (members : Row) : List (Primary × Json) :=
  Primary.all.filterMap fun p =>
    if p = .provider .value ∧ (get? members .field).isSome then none
    else (get? members p.tag).map (p, ·)

def expectText (t : Tag) (wanted : Wanted) : Json → Except Fault String
  | .str s => .ok s
  | v => Fault.here (.mistyped t.text wanted v.kind)

def count? (members : Row) (t : Tag) : Except Fault (Option Nat) :=
  match get? members t with
  | none => .ok none
  | some (.num (.int i)) =>
    if 0 ≤ i then .ok (some i.toNat) else Fault.here (.mistyped t.text .nonNegative .number)
  | some v => Fault.here (.mistyped t.text .nonNegative v.kind)

def contextValue (context : Option Context) (members : Row) (v : Json) : Except Fault Json := do
  let key ← expectText .context .contextKey v
  match Context.lookup? context key with
  | some found => return found
  | none => return (get? members .default).getD .null

/-- A parameter: a constant, `$ref` alone, or `$context` with an optional `$default`. -/
def readArgument (context : Option Context) : Json → Except Fault Argument
  | .arr _ => Fault.here .arrayParameter
  | .obj members =>
    match Row.get? members referenceKey with
    | some v =>
      if members.length ≠ 1 then Fault.here .crowdedReference
      else match v with
        | .str key => .ok (.reference key)
        | other => Fault.here (.mistyped referenceKey .contextKey other.kind)
    | none =>
      match get? members .context with
      | none => Fault.here .plainParameter
      | some v =>
        match members.find? fun m => !(m.1 == Tag.context.text || m.1 == Tag.default.text) with
        | some stray => Fault.here (.strayKey stray.1 .context)
        | none => do return .literal (← contextValue context members v)
  | v => .ok (.literal v)

def readNamed (context : Option Context) : Row → Except Fault (List Parameter)
  | [] => .ok []
  | (name, v) :: rest => do
    let value ← Fault.under name (readArgument context v)
    let others ← readNamed context rest
    return ⟨some name, value⟩ :: others

/-- Parameters by position; a fault is found under the index. -/
def readPositional (context : Option Context) : Nat → List Json → Except Fault (List Parameter)
  | _, [] => .ok []
  | index, v :: rest => do
    let value ← Fault.under (String.ofList (natText index)) (readArgument context v)
    let others ← readPositional context (index + 1) rest
    return ⟨none, value⟩ :: others

/-- The parameters of a provider: an object names them, an array orders them. -/
def readParams (context : Option Context) : Json → Except Fault (List Parameter)
  | .obj members => readNamed context members
  | .arr items => readPositional context 0 items
  | v => Fault.here (.mistyped Tag.params.text .objectOrArray v.kind)

def readTransform (members : Row) (kind : String) : Except Fault Transform :=
  match kind with
  | "boolean" => .ok .boolean
  | "integer" => .ok .integer
  | "number" => .ok .number
  | "json" => .ok .json
  | "datetime" => .ok .datetime
  | "csv" =>
    match get? members .delimiter with
    | none => .ok (.csv Transform.defaultDelimiter)
    | some v => do return .csv (← expectText .delimiter .string v)
  | "format" =>
    match get? members .format with
    | none => Fault.here .patternMissing
    | some v => do return .format ⟨← expectText .format .string v⟩
  | other => Fault.here (.unknownField other)

/-- The column of a field: the one under `$key`, or else the one named as the field itself. -/
def readKey (members : Row) (kind : String) (enclosing : Option String) : Except Fault String :=
  match get? members .key, enclosing with
  | some v, _ => expectText .key .columnName v
  | none, some name => .ok name
  | none, none => Fault.here (.keyMissing kind)

def readField (members : Row) (v : Json) (enclosing : Option String) : Except Fault Field := do
  let kind ← expectText .field .fieldKind v
  if kind = "value" then
    match get? members .value with
    | none => Fault.here .constantMissing
    | some constant => return .constant constant
  else
    let key ← readKey members kind enclosing
    return .keyed key (← readTransform members kind)

/-- The SQL text of a provider, with its window when one is asked for. -/
def readQuery (settings : Settings) (members : Row) (sql : String) : Except Fault String := do
  let limit ← count? members .limit
  let offset ← count? members .offset
  if limit.isNone && offset.isNone then return sql
  else match settings.pager with
    | none => Fault.here .pagerMissing
    | some paginate => return paginate sql limit offset

def readRowKey (members : Row) : Except Fault (Option RowKey) :=
  match get? members .key with
  | none => .ok none
  | some v => do return some (.column (← expectText .key .columnName v))

/-- Only collections look at `$key`. -/
def readShape (members : Row) : ProviderKind → Except Fault Provider
  | .value => .ok .value
  | .entity => .ok .entity
  | .column => .ok .column
  | .collection => do return .collection (← readRowKey members) none

def requireClient (settings : Settings) (t : Tag) : Except Fault Unit :=
  if settings.hasClient then .ok () else Fault.here (.clientMissing t)

/-- The definition of the rows, given what was read under `$definition`. Without that tag
every row stands as it was fetched. -/
def readEach : Option (Except Fault Definition) → Except Fault Definition
  | none => .ok .row
  | some inner => Fault.under Tag.definition.text inner

def readParamsOf (context : Option Context) (members : Row) : Except Fault (List Parameter) :=
  match get? members .params with
  | none => .ok []
  | some v => Fault.under Tag.params.text (readParams context v)

/-- A provider; `inner` is what was read under `$definition`, when that tag is there. -/
def readProvider (settings : Settings) (context : Option Context) (members : Row)
    (kind : ProviderKind) (v : Json) (inner : Option (Except Fault Definition)) :
    Except Fault Definition := do
  let sql ← expectText (Primary.provider kind).tag .sqlText v
  requireClient settings (Primary.provider kind).tag
  let each ← readEach inner
  let query ← readQuery settings members sql
  let params ← readParamsOf context members
  let shape ← readShape members kind
  return .provider shape (.query query) params each

/-- An object all of whose keys are reserved. -/
def readTagged (settings : Settings) (context : Option Context) (members : Row)
    (inner : Option (Except Fault Definition)) (enclosing : Option String) :
    Except Fault Definition :=
  match members.find? fun m => !Tag.isKnown m.1 with
  | some unknown => Fault.here (.unknownTag unknown.1)
  | none =>
    match primaries members with
    | (p, _) :: (q, _) :: _ => Fault.here (.exclusive p.tag q.tag)
    | [] =>
      match members with
      | [(_, .str column)] =>
        if (get? members .key).isSome then .ok (.scalar (.str column))
        else Fault.here .noPrimaryTag
      | [(_, other)] =>
        if (get? members .key).isSome then
          Fault.here (.mistyped Tag.key.text .string other.kind)
        else Fault.here .noPrimaryTag
      | _ => Fault.here .noPrimaryTag
    | [(p, v)] =>
      match members.find? fun m =>
          m.1 != p.tag.text && !(p.companions v).any fun t => t.text == m.1 with
      | some stray => Fault.here (.strayKey stray.1 p.tag)
      | none =>
        match p with
        | .field => do return .field (← readField members v enclosing)
        | .context => do return .field (.constant (← contextValue context members v))
        | .provider kind => readProvider settings context members kind v inner

/-- Reads a definition that stands under an enclosing key, or under none. -/
abbrev Reader := Option String → Except Fault Definition

/-- The children of an object without reserved keys, each read under its own key. -/
def readChildren : List (String × Reader) → Except Fault (List (String × Definition))
  | [] => .ok []
  | (key, reader) :: rest => do
    let d ← Fault.under key (reader (some key))
    let others ← readChildren rest
    return (key, d) :: others

def readObject (settings : Settings) (context : Option Context) (members : Row)
    (readers : List (String × Reader)) : Reader := fun enclosing =>
  if !members.any fun m => isReserved m.1 then do return .map (← readChildren readers)
  else
    match members.find? fun m => !isReserved m.1 with
    | some plain => Fault.here (.mixedKeys plain.1)
    | none =>
      readTagged settings context members
        ((readers.lookup Tag.definition.text).map fun reader => reader none) enclosing

mutual

def read (settings : Settings) (context : Option Context) : Json → Reader
  | .str column => fun _ => .ok (.scalar (.str column))
  | .arr _ => fun _ => Fault.here .arrayDefinition
  | .obj members => readObject settings context members (readers settings context members)
  | v => fun _ => .ok (.scalar v)
termination_by structural v => v

def readers (settings : Settings) (context : Option Context) :
    List (String × Json) → List (String × Reader)
  | [] => []
  | (key, v) :: rest => (key, read settings context v) :: readers settings context rest
termination_by structural members => members

end

/-- Reads a whole document, which stands under no key. -/
def readDocument (settings : Settings) (context : Option Context) (document : Json) :
    Except Error Definition :=
  (read settings context document none).mapError Fault.toError

def readText (settings : Settings) (context : Option Context) (text : String) :
    Except Error Definition :=
  match Json.read? text.toList with
  | none => .error .json
  | some document => readDocument settings context document

end RowShape.Document
