import RowShape.Toml.Scalar
import RowShape.Toml.Text

/-!
Reading TOML text: lines that hold a key and its value, a table header, or
nothing but a comment.
-/

namespace RowShape.Toml

/-- Keys have no more parts than this, and brackets and braces are not nested deeper. -/
def depthLimit : Nat := 80

def skipBlanks (s : List Char) : List Char := s.dropWhile isBlank

/-- What follows the end of the line, after blanks and an optional comment. -/
def lineEnd? (s : List Char) : Option (List Char) :=
  let s := match skipBlanks s with
    | '#' :: rest => rest.dropWhile isAllowed
    | rest => rest
  match s with
  | [] => some []
  | '\n' :: rest => some rest
  | '\r' :: '\n' :: rest => some rest
  | _ => none

/-- Skips blanks, comments and line ends; each round drops a line. -/
def skipLines : Nat → List Char → List Char
  | 0, s => skipBlanks s
  | fuel + 1, s =>
    match skipBlanks s, lineEnd? s with
    | [], _ => []
    | _, some rest => skipLines fuel rest
    | s, none => s

def skipSpace (s : List Char) : List Char := skipLines s.length s

def isKeyChar (c : Char) : Bool := c.isAlphanum || c == '-' || c == '_'

def keyPart? (s : List Char) : Option (String × List Char) :=
  match s with
  | '"' :: rest => (basic 0 rest).map fun (k, r) => (String.ofList k, r)
  | '\'' :: rest => (literal rest).map fun (k, r) => (String.ofList k, r)
  | s =>
    match s.takeWhile isKeyChar with
    | [] => none
    | k => some (String.ofList k, s.dropWhile isKeyChar)

/-- A key of one to `room` parts with points between them, and what follows it after
blanks. -/
def keyWithin? : Nat → List Char → Option (List String × List Char)
  | 0, _ => none
  | room + 1, s => do
    let (part, rest) ← keyPart? (skipBlanks s)
    match skipBlanks rest with
    | '.' :: more =>
      let (parts, r) ← keyWithin? room more
      return (part :: parts, r)
    | r => return ([part], r)

def key? (s : List Char) : Option (List String × List Char) := keyWithin? depthLimit s

mutual

/-- A value with at most `room` brackets and braces open at once. Every bracket, key and item
takes a character from the text, so its length is fuel enough. -/
def value? : Nat → Nat → List Char → Option (Value × List Char)
  | 0, _, _ => none
  | fuel + 1, room, s =>
    match s, room with
    | '"' :: _, _ => (quoted? s).map fun (t, r) => (.text (String.ofList t), r)
    | '\'' :: _, _ => (quoted? s).map fun (t, r) => (.text (String.ofList t), r)
    | '[' :: rest, room + 1 => (items? fuel room rest).map fun (vs, r) => (.array vs, r)
    | '\x7b' :: rest, room + 1 =>
      (entries? fuel room [] rest).map fun (t, r) => (.table .inline t, r)
    | s, _ => scalar? s
termination_by structural fuel => fuel

def items? : Nat → Nat → List Char → Option (List Value × List Char)
  | 0, _, _ => none
  | fuel + 1, room, s =>
    match skipSpace s with
    | ']' :: rest => some ([], rest)
    | s => do
      let (v, rest) ← value? fuel room s
      match skipSpace rest with
      | ',' :: more =>
        let (vs, r) ← items? fuel room more
        return (v :: vs, r)
      | ']' :: r => return ([v], r)
      | _ => none
termination_by structural fuel => fuel

/-- The entries of an inline table up to its closing brace. Lines may end between them and
around their equals signs. -/
def entries? : Nat → Nat → Table → List Char → Option (Table × List Char)
  | 0, _, _, _ => none
  | fuel + 1, room, t, s =>
    match skipSpace s with
    | '\x7d' :: rest => some (t, rest)
    | s => do
      let (path, rest) ← key? s
      match skipSpace rest with
      | '=' :: rest =>
        let (v, rest) ← value? fuel room (skipSpace rest)
        let t ← Table.addAt path v .header t
        match skipSpace rest with
        | ',' :: more => entries? fuel room t more
        | '\x7d' :: r => some (t, r)
        | _ => none
      | _ => none
termination_by structural fuel => fuel

end

/-- What has been read: the table as a whole, and the path of the header in force. -/
structure Document where
  table : Table
  header : List String

/-- A table header behind its first bracket. -/
def header? (d : Document) (s : List Char) : Option (Document × List Char) :=
  match s with
  | '[' :: rest => do
    let (path, rest) ← key? rest
    match rest with
    | ']' :: ']' :: r => return (⟨← Table.openAt Table.openElement path d.table, path⟩, r)
    | _ => none
  | s => do
    let (path, rest) ← key? s
    match rest with
    | ']' :: r => return (⟨← Table.openAt Table.openTable path d.table, path⟩, r)
    | _ => none

/-- A key and its value, which belong to the table of the header in force. -/
def entry? (d : Document) (s : List Char) : Option (Document × List Char) := do
  let (path, rest) ← key? s
  match rest with
  | '=' :: rest =>
    let (v, r) ← value? rest.length depthLimit (skipBlanks rest)
    let table ← Table.update .implied (Table.addAt path v) d.header .header d.table
    return (⟨table, d.header⟩, r)
  | _ => none

def lines? : Nat → Document → List Char → Option Table
  | 0, d, s => if s.isEmpty then some d.table else none
  | fuel + 1, d, s =>
    match skipSpace s with
    | [] => some d.table
    | c :: rest => do
      let (next, r) ← if c = '[' then header? d rest else entry? d (c :: rest)
      lines? fuel next (← lineEnd? r)

/-- A byte order mark at the start belongs to no line. -/
def dropByteOrderMark : List Char → List Char
  | '\uFEFF' :: rest => rest
  | s => s

def read? (s : List Char) : Option Table :=
  let s := dropByteOrderMark s
  lines? s.length ⟨[], []⟩ s

end RowShape.Toml
