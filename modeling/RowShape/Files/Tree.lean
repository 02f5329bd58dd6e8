import RowShape.Files.Basic
import RowShape.Path
import RowShape.Sqlite.Database
import RowShape.Text.Utf8

/-!
A tree of files held in memory. Names lead to numbered files, so that an open
database stays what it is when its name is removed.
-/

namespace RowShape

inductive FileContent where
  | bytes (content : List Nat)
  | database (db : Sqlite.Database)

inductive FileNode where
  | directory
  | file (number : Nat)
deriving DecidableEq, Repr

/-- Places are lists of names from the top, which is always a directory. -/
structure FileTree where
  nodes : List (List String × FileNode)
  contents : List FileContent

namespace FileTree

def empty : FileTree := ⟨[], []⟩

def node? (t : FileTree) : List String → Option FileNode
  | [] => some .directory
  | place => t.nodes.lookup place

def nameLimit : Nat := 255

/-- Goes one part further; a point stays and two points go up, in directories only. -/
def step (t : FileTree) (place : List String) (part : String) :
    Except ReadFault (List String) :=
  match t.node? place with
  | none => .error .missing
  | some (.file _) => .error .unreadable
  | some .directory =>
    if part = "" ∨ part = "." then .ok place
    else if part = ".." then .ok place.dropLast
    else if nameLimit < part.utf8ByteSize then .error .unreadable
    else .ok (place ++ [part])

/-- The place of a path, at which something need not stand. -/
def resolve (t : FileTree) (path : String) : Except ReadFault (List String) :=
  if path.isEmpty then .error .missing
  else if path.toList.contains '\x00' then .error .unreadable
  else (Path.parts path).foldlM t.step []

def find (t : FileTree) (path : String) : Except ReadFault FileNode := do
  match t.node? (← t.resolve path) with
  | some node => return node
  | none => .error .missing

def content? (t : FileTree) (number : Nat) : Option FileContent := t.contents[number]?

def read (t : FileTree) (path : String) : Except ReadFault String := do
  match ← t.find path with
  | .directory => .error .unreadable
  | .file number =>
    match t.content? number with
    | some (.bytes content) =>
      match Utf8.strict? content with
      | some s => return String.ofList s
      | none => .error .unreadable
    | _ => .error .unreadable

def isFile (t : FileTree) (path : String) : Bool :=
  match t.find path with
  | .ok (.file _) => true
  | _ => false

def view (t : FileTree) : FileSystem := ⟨t.read, t.isFile⟩

def create (t : FileTree) (place : List String) (content : FileContent) : FileTree :=
  ⟨(place, .file t.contents.length) :: t.nodes, t.contents ++ [content]⟩

/-- Makes a directory and all directories above it where nothing stands. -/
def makePlace (t : FileTree) (place : List String) : FileTree :=
  (List.range place.length).foldl
    (fun t i =>
      let here := place.take (i + 1)
      if (t.node? here).isSome then t else ⟨(here, .directory) :: t.nodes, t.contents⟩)
    t

/-- The place that a path names when missing directories are made on the way. -/
def placeOf (path : String) : List String :=
  (Path.parts path).foldl
    (fun place part =>
      if part = "" ∨ part = "." then place
      else if part = ".." then place.dropLast
      else place ++ [part])
    []

def makeDirectory (t : FileTree) (path : String) : FileTree := t.makePlace (placeOf path)

def write (t : FileTree) (path : String) (content : FileContent) : FileTree :=
  let place := placeOf path
  let t := t.makePlace place.dropLast
  match t.node? place with
  | some (.file number) => ⟨t.nodes, t.contents.set number content⟩
  | _ => t.create place content

/-- Removes what stands under a path, with everything below. -/
def remove (t : FileTree) (path : String) : FileTree :=
  let place := placeOf path
  ⟨t.nodes.filter fun n => !place.isPrefixOf n.1, t.contents⟩

/-- The tables in a file: none in an empty file, and no database in other bytes. -/
def database? (t : FileTree) (number : Nat) : Option Sqlite.Database :=
  match t.content? number with
  | some (.database db) => some db
  | some (.bytes []) => some []
  | _ => none

def seed (t : FileTree) (path : String) (db : Sqlite.Database) : FileTree :=
  match t.find path with
  | .ok (.file number) => t.write path (.database ((t.database? number).getD [] ++ db))
  | _ => t.write path (.database db)

/-- Opens a database file by its number; a missing file is made in a directory that
exists. -/
def openDatabase (t : FileTree) (path : String) : Except Error (FileTree × Nat) :=
  match t.resolve path with
  | .error _ => .error (.database .cannotOpen)
  | .ok place =>
    match t.node? place with
    | some (.file number) => .ok (t, number)
    | some .directory => .error (.database .cannotOpen)
    | none =>
      match t.node? place.dropLast with
      | some .directory => .ok (t.create place (.bytes []), t.contents.length)
      | _ => .error (.database .cannotOpen)

/-- The client of an open database file. Only statements over a table need the file. -/
def client (t : FileTree) (number : Nat) : Client := fun call =>
  match t.database? number with
  | some db => db.answer call
  | none =>
    if ((Sqlite.Statement.ofText? call.sql).bind (·.selection)).any (·.table.isSome) then
      .error (.database .notADatabase)
    else Sqlite.Database.answer [] call

end FileTree

end RowShape
