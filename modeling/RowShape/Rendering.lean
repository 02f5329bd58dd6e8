import RowShape.Definition
import RowShape.Fetching

/-!
Rendering a definition. Children are rendered depth first and from left to right,
each with all of its fetches before the next; the first error ends the whole.
-/

namespace RowShape

/-- The data of a source for bound parameters; a query gives an array of rows. -/
def Source.fetch (params : List Bound) : Source → Fetching Json
  | query sql => do
    let rows ← Fetching.query ⟨sql, params⟩
    return .arr (rows.map .obj)
  | fixed v => .done v
  | callable run => .ofExcept (run params)

namespace Provider

variable (renderRow : Row → Fetching Json)

def row (kind : ProviderKind) : Json → Fetching Row
  | .obj members => .done members
  | v => .fail (.shape (.notRow kind v.kind))

def rows (kind : ProviderKind) : Json → Fetching (List Json)
  | .arr items => .done items
  | v => .fail (.shape (.notRows kind v.kind))

theorem row_obj (kind : ProviderKind) (members : Row) : row kind (.obj members) = pure members :=
  rfl

theorem rows_arr (kind : ProviderKind) (items : List Json) : rows kind (.arr items) = pure items :=
  rfl

def first (kind : ProviderKind) : List Json → Fetching Json
  | [] => .done .null
  | v :: _ => do renderRow (← row kind v)

theorem first_obj (kind : ProviderKind) (members : Row) (rest : List Json) :
    first renderRow kind (.obj members :: rest) = renderRow members :=
  Fetching.done_bind members renderRow

def every (kind : ProviderKind) (items : List Json) : Fetching (List Json) :=
  Fetching.each (fun v => do renderRow (← row kind v)) items

def everyKeyed (key : RowKey) (items : List Json) : Fetching (List (String × Json)) :=
  Fetching.each
    (fun v => do
      let members ← row .collection v
      let name ← Fetching.ofExcept (key.of members)
      return (name, ← renderRow members))
    items

def collect (key : Option RowKey) (items : List Json) : Fetching Collected :=
  match key with
  | none => return .list (← every renderRow .collection items)
  | some key => return .keyed (Row.ofList (← everyKeyed renderRow key items))

/-- The output when nothing was fetched; filters do not see it. -/
def ofNothing : Provider → Json
  | value => .null
  | entity => .null
  | column => .arr []
  | collection none _ => .arr []
  | collection (some _) _ => .obj []

def ofData (data : Json) : Provider → Fetching Json
  | value =>
    match data with
    | .obj members => renderRow members
    | .arr items => first renderRow .value items
    | scalar => .done scalar
  | entity =>
    match data with
    | .arr items => first renderRow .entity items
    | v => do renderRow (← row .entity v)
  | column => do
    let items ← rows .column data
    return .arr (← every renderRow .column items)
  | collection key filter => do
    let items ← rows .collection data
    let collected ← collect renderRow key items
    match filter with
    | none => return collected.toJson
    | some f => return (← Fetching.ofExcept (f collected)).toJson

theorem entity_obj (members : Row) : ofData renderRow (.obj members) entity = renderRow members :=
  Fetching.done_bind members renderRow

/-- The output for fetched data, with `renderRow` for its rows. -/
def assemble (provider : Provider) (data : Json) : Fetching Json :=
  if data.carriesNothing then .done provider.ofNothing else provider.ofData renderRow data

end Provider

namespace Definition

mutual

/-- Renders a definition in a context, or without one at the root. -/
def render (context : Option Context) : Definition → Fetching Json
  | .scalar (.str name) =>
    match context with
    | none => .done (.str name)
    | some c =>
      match c.lookup name with
      | some v => .done v
      | none => .fail (.unknownKey name)
  | .scalar v => .done v
  | .field f => .ofExcept (f.apply (context.getD (.ofJson .null)))
  | .provider shape source params each => do
    let bound ← Fetching.ofExcept (resolveAll context params)
    let data ← source.fetch bound
    shape.assemble (fun r => each.render (some (.ofRow r))) data
  | .map entries => do return .obj (Row.ofList (← renderEntries context entries))
  | .row =>
    match context.bind (·.row) with
    | some members => .done (.obj members)
    | none => .done .null
termination_by structural d => d

def renderEntries (context : Option Context) :
    List (String × Definition) → Fetching (List (String × Json))
  | [] => .done []
  | (name, d) :: rest => do
    let v ← d.render context
    let others ← renderEntries context rest
    return (name, v) :: others
termination_by structural entries => entries

end

end Definition

end RowShape
