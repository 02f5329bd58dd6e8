import RowShape.Number.Double

/-!
TOML values, and tables into which keys and headers lead. What may still be
added to a table depends on how the table came to be.
-/

namespace RowShape.Toml

inductive Origin where
  /-- Named by headers only on the way to tables below it. -/
  | implied
  /-- Named by a key of several parts. -/
  | dotted
  /-- Opened by a header of its own; the document as a whole counts as opened. -/
  | header
  /-- Written in braces, and complete. -/
  | inline
deriving DecidableEq, Repr

inductive Value where
  | text (s : String)
  | integer (i : Int)
  | float (x : Double)
  | boolean (b : Bool)
  /-- A date, a time, or both, as it is written. -/
  | moment (s : String)
  | array (items : List Value)
  | table (origin : Origin) (entries : List (String × Value))
  /-- The tables that headers in double brackets have opened, the last one first. -/
  | tables (last : List (String × Value)) (others : List (List (String × Value)))

abbrev Table := List (String × Value)

namespace Table

def replace (key : String) (v : Value) : Table → Table
  | [] => [(key, v)]
  | (k, w) :: rest => if k = key then (k, v) :: rest else (k, w) :: replace key v rest

/-- Changes the table to which a path leads. Missing tables on the way are made with the
origin `via`, and an array of tables stands for its last one. Nothing is added to inline
tables, and keys do not lead into tables with headers. -/
def update (via : Origin) (change : Origin → Table → Option Table) :
    List String → Origin → Table → Option Table
  | [], origin, t => change origin t
  | key :: rest, _, t =>
    match t.lookup key with
    | none => (update via change rest via []).map fun inner => t ++ [(key, .table via inner)]
    | some (.table origin inner) =>
      if origin = .inline ∨ (via = .dotted ∧ origin = .header) then none
      else (update via change rest origin inner).map fun inner =>
        replace key (.table origin inner) t
    | some (.tables last others) =>
      (update via change rest .header last).map fun last =>
        replace key (.tables last others) t
    | some _ => none

def add (key : String) (v : Value) (t : Table) : Option Table :=
  if (t.lookup key).isSome then none else some (t ++ [(key, v)])

/-- Adds a value under a key of one part or more. The table that receives the value of a key
of several parts must come from such keys itself. -/
def addAt (path : List String) (v : Value) (origin : Origin) (t : Table) : Option Table :=
  match path.getLast? with
  | none => none
  | some key =>
    update .dotted
      (fun o t => if path.length = 1 ∨ o = .dotted then add key v t else none)
      path.dropLast origin t

/-- Opens the table of a header: a new one, or one that was only implied. -/
def openTable (key : String) (t : Table) : Option Table :=
  match t.lookup key with
  | none => some (t ++ [(key, .table .header [])])
  | some (.table .implied inner) => some (replace key (.table .header inner) t)
  | some _ => none

def openElement (key : String) (t : Table) : Option Table :=
  match t.lookup key with
  | none => some (t ++ [(key, .tables [] [])])
  | some (.tables last others) => some (replace key (.tables [] (last :: others)) t)
  | some _ => none

/-- Opens what a header names with the last part of its path. -/
def openAt (openKey : String → Table → Option Table) (path : List String) (t : Table) :
    Option Table :=
  match path.getLast? with
  | none => none
  | some key => update .implied (fun _ t => openKey key t) path.dropLast .header t

end Table

end RowShape.Toml
