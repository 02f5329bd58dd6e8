import RowShape.Number.Bounds
import RowShape.Number.Decimal
import RowShape.Text.Blank
import RowShape.Text.Search

/-!
SQL dialects: their names, and the clause with which each of them asks for a
window of rows.
-/

namespace RowShape

inductive Dialect where
  | sqlite | postgresql | mysql
deriving DecidableEq, Repr

namespace Dialect

def all : List Dialect := [sqlite, postgresql, mysql]

def name : Dialect → String
  | sqlite => "sqlite"
  | postgresql => "postgresql"
  | mysql => "mysql"

/-- Every name of a dialect, its own first. -/
def names : Dialect → List String
  | sqlite => ["sqlite", "turso", "libsql"]
  | postgresql => ["postgresql", "postgres", "pg"]
  | mysql => ["mysql", "mariadb"]

def fallback : Dialect := sqlite

def ofExactName? (s : String) : Option Dialect := all.find? fun d => d.names.contains s

/-- The dialect of a name in any mixture of ASCII cases. -/
def ofName? (s : String) : Option Dialect :=
  all.find? fun d => d.names.any fun n => equalFoldingCase n.toList s.toList

/-- The largest row count of a MySQL window, which stands for all rows. -/
def mysqlAllRows : Nat := uint64Max

/-- The clause for at most `limit` rows after the first `offset`; empty without either. -/
def limitClause (dialect : Dialect) (limit offset : Option Nat) : List Char :=
  match dialect, limit, offset with
  | _, none, none => []
  | _, some n, none => "LIMIT ".toList ++ natText n
  | mysql, some n, some m => "LIMIT ".toList ++ natText m ++ ", ".toList ++ natText n
  | mysql, none, some m =>
    "LIMIT ".toList ++ natText m ++ ", ".toList ++ natText mysqlAllRows
  | _, some n, some m => "LIMIT ".toList ++ natText n ++ " OFFSET ".toList ++ natText m
  | sqlite, none, some m => "LIMIT -1 OFFSET ".toList ++ natText m
  | postgresql, none, some m => "OFFSET ".toList ++ natText m

/-- A query without blanks at its end, then without semicolons there, then again without
blanks. -/
def withoutTerminator (sql : List Char) : List Char :=
  trimEnd (dropEndWhile (· == ';') (trimEnd sql))

def paginate (dialect : Dialect) (sql : String) (limit offset : Option Nat) : String :=
  let base := withoutTerminator sql.toList
  match dialect.limitClause limit offset with
  | [] => String.ofList base
  | clause => String.ofList (base ++ ' ' :: clause)

end Dialect

end RowShape
