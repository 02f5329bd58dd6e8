import RowShape.Json.Basic

/-!
What can go wrong while a definition is read or rendered, and the one wording of
each cause.
-/

namespace RowShape

/-- The four ways fetched data is turned into output. -/
inductive ProviderKind where
  | value | entity | column | collection
deriving DecidableEq, Repr

def ProviderKind.name : ProviderKind → String
  | .value => "value"
  | .entity => "entity"
  | .column => "column"
  | .collection => "collection"

/-- Fetched data that a provider cannot use. -/
inductive ShapeFault where
  | notRows (provider : ProviderKind) (found : Json.Kind)
  | notRow (provider : ProviderKind) (found : Json.Kind)
  | keyNotScalar (column : String) (found : Json.Kind)
  | other (detail : String)
deriving DecidableEq, Repr

def ShapeFault.detail : ShapeFault → String
  | .notRows provider found =>
    s!"{provider.name} provider expected a sequence of rows, found {found.name}"
  | .notRow provider found => s!"{provider.name} provider expected a row, found {found.name}"
  | .keyNotScalar column found =>
    s!"collection key '{column}' must be a scalar, found {found.name}"
  | .other detail => detail

/-- A database that refuses to open, to prepare a statement or to run it. -/
inductive DatabaseFault where
  | parameterCount (given needed : Nat)
  | malformed
  | unknownTable (name : String)
  | unknownColumn (name : String)
  | notADatabase
  | cannotOpen
deriving DecidableEq, Repr

def DatabaseFault.detail : DatabaseFault → String
  | .parameterCount given needed =>
    s!"Wrong number of parameters passed to query. Got {given}, needed {needed}"
  | .malformed => "syntax error"
  | .unknownTable name => s!"no such table: {name}"
  | .unknownColumn name => s!"no such column: {name}"
  | .notADatabase => "file is not a database"
  | .cannotOpen => "unable to open database file"

inductive Error where
  | configuration (detail : String)
  /-- A parameter refers to a key that the context lacks. -/
  | reference (name : String)
  /-- A column is missing from the context. -/
  | unknownKey (name : String)
  | shape (fault : ShapeFault)
  | callback (detail : String)
  | fetch (detail : String)
  | json
  | database (fault : DatabaseFault)
deriving DecidableEq, Repr

def Error.message : Error → String
  | .configuration detail => "Configuration error: " ++ detail
  | .reference name => s!"Reference error: '{name}' is not present in the current context"
  | .unknownKey name => s!"Unknown context key: '{name}'"
  | .shape fault => "Shape error: " ++ fault.detail
  | .callback detail => "Callback error: " ++ detail
  | .fetch detail => "Fetch error: " ++ detail
  | .json => "JSON error: malformed text"
  | .database fault => "Rusqlite error: " ++ fault.detail

end RowShape
