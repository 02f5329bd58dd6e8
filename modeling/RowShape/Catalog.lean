import RowShape.Config
import RowShape.Document.Reading
import RowShape.Rendering

/-!
A directory of named definition documents. A document is read anew each time it
is asked for, and its name can only lead into that directory.
-/

namespace RowShape

inductive CatalogError where
  | config (e : ConfigError)
  | rendering (e : Error)
  | notFound (path : String)
  | unreadable (path : String)
  | invalidName (name : String)
  | missingDatabase
  | unsupportedDialect (dialect : Dialect)
deriving DecidableEq, Repr

def CatalogError.message : CatalogError → String
  | .config e => e.message
  | .rendering e => e.message
  | .notFound path => "definition not found: " ++ path
  | .unreadable path => "failed to read " ++ path
  | .invalidName name => s!"invalid definition name '{name}'"
  | .missingDatabase => "config has no database"
  | .unsupportedDialect dialect => s!"no built-in client for the {dialect.name} dialect"

/-- A directory of documents and the dialect of their windows. -/
structure Catalog where
  directory : String
  dialect : Dialect
deriving DecidableEq, Repr

namespace Catalog

/-- Documents may fetch, and their windows are those of the dialect. -/
def settings (c : Catalog) : Document.Settings := ⟨true, some c.dialect.paginate⟩

def isNameChar (c : Char) : Bool := c.isAlphanum || c == '_' || c == '-' || c == '.'

/-- Names are not empty, have ASCII letters, digits, `_`, `-` and `.` only, and do not start
with a point. -/
def isName (name : String) : Bool :=
  !name.isEmpty && name.toList.all isNameChar && name.toList.head? != some '.'

def pathOf (c : Catalog) (name : String) : Except CatalogError String :=
  if isName name then .ok (Path.join c.directory (name ++ ".json"))
  else .error (.invalidName name)

def definition (c : Catalog) (files : FileSystem) (context : Option Context) (name : String) :
    Except CatalogError Definition := do
  let path ← c.pathOf name
  match files.read path with
  | .error .missing => .error (.notFound path)
  | .error .unreadable => .error (.unreadable path)
  | .ok text => (Document.readText c.settings context text).mapError .rendering

/-- Renders the definition of a name. The context is that of its `$context` objects and of
the root alike. -/
def render (c : Catalog) (files : FileSystem) (client : Client) (context : Option Context)
    (name : String) : Except CatalogError Json × List Call :=
  match c.definition files context name with
  | .error e => (.error e, [])
  | .ok d =>
    let (outcome, calls) := (d.render context).run client
    (outcome.mapError .rendering, calls)

/-- The database of a configuration, for the one dialect that has a client. -/
def databaseOf (config : Config) : Except CatalogError Location :=
  if config.dialect ≠ .sqlite then .error (.unsupportedDialect config.dialect)
  else match config.location with
    | none => .error .missingDatabase
    | some location => .ok location

def ofConfig (config : Config) : Catalog := ⟨config.directory, config.dialect⟩

end Catalog

end RowShape
