import RowShape.Files.Basic
import RowShape.Path
import RowShape.Sql.Dialect
import RowShape.Toml.Reader

/-!
Configuration: the dialect, the database and the directory of definitions. The
paths of a configuration file are relative to the directory of that file.
-/

namespace RowShape

structure Config where
  dialect : Dialect
  database : Option String
  definitions : String
  /-- The directory to which relative paths belong. -/
  base : Option String
deriving DecidableEq, Repr

inductive Location where
  | memory
  | file (path : String)
deriving DecidableEq, Repr

inductive ConfigError where
  | notFound (path : String)
  | unreadable (path : String)
  | malformedFile (path : String)
  | malformed
deriving DecidableEq, Repr

def ConfigError.message : ConfigError → String
  | .notFound path => "config not found: " ++ path
  | .unreadable path => "failed to read " ++ path
  | .malformedFile path => "failed to parse " ++ path
  | .malformed => "failed to parse config"

namespace Config

def fileName : String := "sculpt.config.toml"

/-- The database name that stands for a private one in memory. -/
def memoryName : String := ":memory:"

def defaultDefinitions : String := "./definitions"

/-- A key that has to hold text where it is present. -/
def textEntry (table : Toml.Table) (key : String) : Option (Option String) :=
  match table.lookup key with
  | none => some none
  | some (.text s) => some (some s)
  | some _ => none

/-- The name of the dialect, which is a text, or the one key of a table that holds nothing
under it. -/
def dialectName? (table : Toml.Table) : Option (Option String) :=
  match table.lookup "dialect" with
  | none => some none
  | some (.text s) => some (some s)
  | some (.table _ [(name, .table _ [])]) => some (some name)
  | some (.table _ [(name, .array [])]) => some (some name)
  | some _ => none

/-- Dialects are written by their exact names; unknown keys have no meaning. -/
def ofTable? (table : Toml.Table) : Option Config := do
  let dialect ← match ← dialectName? table with
    | none => some Dialect.fallback
    | some name => Dialect.ofExactName? name
  let database ← textEntry table "database"
  let definitions ← textEntry table "definitions"
  return ⟨dialect, database, definitions.getD defaultDefinitions, none⟩

def ofText (text : String) : Except ConfigError Config :=
  match (Toml.read? text.toList).bind ofTable? with
  | some c => .ok c
  | none => .error .malformed

def withBase (c : Config) (base : String) : Config := { c with base := some base }

def resolve (c : Config) (path : String) : String :=
  match c.base with
  | some base => Path.join base path
  | none => path

def location (c : Config) : Option Location :=
  c.database.map fun name => if name = memoryName then .memory else .file (c.resolve name)

def directory (c : Config) : String := c.resolve c.definitions

def load (files : FileSystem) (path : String) : Except ConfigError Config :=
  match files.read path with
  | .error .missing => .error (.notFound path)
  | .error .unreadable => .error (.unreadable path)
  | .ok text =>
    match ofText text with
    | .ok c => .ok (c.withBase ((Path.parent? path).getD "."))
    | .error _ => .error (.malformedFile path)

/-- Loads the nearest configuration file in a directory or above it. -/
def discover (files : FileSystem) (directory : String) : Except ConfigError Config :=
  match ((Path.ancestors directory).map fun d => Path.join d fileName).find? files.isFile with
  | some path => load files path
  | none => .error (.notFound (Path.join directory fileName))

end Config

end RowShape
