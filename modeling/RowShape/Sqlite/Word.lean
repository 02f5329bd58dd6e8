import RowShape.Number.Numeral
import RowShape.Text.Search

/-!
The words of SQL text: names, numbers, quoted texts and blobs, placeholders and
marks, with blanks between them.
-/

namespace RowShape.Sqlite

inductive Word where
  | name (s : String)
  | number (n : Numeral)
  | hex (n : Nat)
  | text (s : String)
  | blob (bytes : List Nat)
  /-- `?` with the number behind it, if any. -/
  | numbered (n : Option Nat)
  | named (s : String)
  | mark (c : Char)
  | different
deriving DecidableEq, Repr

namespace Word

def isNameStart (c : Char) : Bool := c.isAlpha || c == '_' || 0x80 ≤ c.toNat

def isNameChar (c : Char) : Bool := isNameStart c || c.isDigit || c == '$'

/-- The characters of a quoted text and what follows it; a quote inside is written twice. -/
def scanQuoted : List Char → Option (List Char × List Char)
  | [] => none
  | '\'' :: '\'' :: rest => (scanQuoted rest).map fun (s, r) => ('\'' :: s, r)
  | '\'' :: rest => some ([], rest)
  | c :: rest => (scanQuoted rest).map fun (s, r) => (c :: s, r)

def hexBytes? : List Char → Option (List Nat)
  | [] => some []
  | a :: b :: rest => do
    let high ← hexValue? a
    let low ← hexValue? b
    return (16 * high + low) :: (← hexBytes? rest)
  | [_] => none

def largestSlot : Nat := 32766

def numbered? (digits : List Char) : Option Word :=
  if digits.isEmpty then some (numbered none)
  else
    let n := digitsValue digits
    if 1 ≤ n ∧ n ≤ largestSlot then some (numbered (some n)) else none

/-- Takes out the underscores that stand between two digits, up to the first character that
is no part of a number. -/
def dropSeparators (isDigit isPart : Char → Bool) : List Char → List Char
  | c :: '_' :: d :: rest =>
    if isDigit c && isDigit d then c :: dropSeparators isDigit isPart (d :: rest)
    else c :: '_' :: d :: rest
  | c :: rest => if isPart c then c :: dropSeparators isDigit isPart rest else c :: rest
  | [] => []

/-- What follows a number, which no name may do without a blank. -/
def endNumber? (rest : List Char) : Option (List Char) :=
  if rest.head?.any isNameChar then none else some rest

def scanDecimal (s : List Char) : Option (Word × List Char) := do
  let isPart (c : Char) : Bool := c.isDigit || ".eE".toList.contains c || isSign c
  let (n, rest) ← Numeral.scan (dropSeparators Char.isDigit isPart s)
  return (number n, ← endNumber? rest)

/-- A number of base sixteen, behind its mark. -/
def scanHex (s : List Char) : Option (Word × List Char) := do
  let isHex (c : Char) : Bool := (hexValue? c).isSome
  let plain := dropSeparators isHex isHex s
  let values ← (plain.takeWhile isHex).mapM hexValue?
  return (hex (values.foldl (fun n d => 16 * n + d) 0), ← endNumber? (plain.dropWhile isHex))

/-- The word at the start of a text that does not start with a blank. -/
def scan : List Char → Option (Word × List Char)
  | [] => none
  | '\'' :: rest => (scanQuoted rest).map fun (s, r) => (text (String.ofList s), r)
  | '<' :: '>' :: rest => some (different, rest)
  | '?' :: rest => do
    let word ← numbered? (rest.takeWhile Char.isDigit)
    return (word, rest.dropWhile Char.isDigit)
  | c :: rest =>
    if (c == 'x' || c == 'X') && rest.head? == some '\'' then do
      let (s, r) ← scanQuoted rest.tail
      return (blob (← hexBytes? s), r)
    else if isNameStart c then
      some (name (String.ofList (c :: rest.takeWhile isNameChar)), rest.dropWhile isNameChar)
    else if c == ':' || c == '@' || c == '$' then
      match rest.takeWhile isNameChar with
      | [] => none
      | s => some (named (String.ofList (c :: s)), rest.dropWhile isNameChar)
    else if "*,()=<>-;".toList.contains c then some (mark c, rest)
    else if isSign c then none
    else match c, rest with
      | '0', m :: d :: more =>
        if (m == 'x' || m == 'X') && (hexValue? d).isSome then scanHex (d :: more)
        else scanDecimal (c :: rest)
      | _, _ => scanDecimal (c :: rest)

def isSpace (c : Char) : Bool :=
  c == ' ' || c == '\n' || c == '\t' || c == '\r' || c == '\x0c'

/-- The words of a text. Every word takes a character, so the length is fuel enough. -/
def scanAll : Nat → List Char → Option (List Word)
  | 0, s => if s.isEmpty then some [] else none
  | fuel + 1, s =>
    match s.dropWhile isSpace with
    | [] => some []
    | c :: rest => do
      let (word, r) ← scan (c :: rest)
      return word :: (← scanAll fuel r)

/-- Whether a word is a keyword, in any mixture of cases. -/
def isKeyword (keyword : String) : Word → Bool
  | name s => equalFoldingCase s.toList keyword.toList
  | _ => false

/-- The keywords that name nothing unless they are quoted. -/
def reserved : List String :=
  ["add", "all", "alter", "and", "as", "autoincrement", "between", "case", "check", "collate",
    "commit", "constraint", "create", "default", "deferrable", "delete", "distinct", "drop",
    "else", "escape", "except", "exists", "foreign", "from", "group", "having", "in", "index",
    "insert", "intersect", "into", "is", "isnull", "join", "limit", "not", "nothing", "notnull",
    "null", "on", "or", "order", "primary", "references", "returning", "select", "set", "table",
    "then", "to", "transaction", "union", "unique", "update", "using", "values", "when",
    "where"]

/-- The keywords that start an expression of their own, and so name no column in one. -/
def operators : List String := ["cast", "raise"]

def isAmong (keywords : List String) (s : String) : Bool :=
  keywords.any fun k => equalFoldingCase s.toList k.toList

end Word

end RowShape.Sqlite
