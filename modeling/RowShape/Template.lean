import RowShape.Context
import RowShape.Json.Writer

/-!
Templates whose placeholders, a name in braces, read from the context. A pattern
is cut once into holes and the literals between them; what is filled in is never
cut again.
-/

namespace RowShape

/-- A placeholder and the literal text before it. -/
structure Hole where
  before : List Char
  name : List Char
deriving DecidableEq, Repr

def Hole.text (h : Hole) : List Char := h.before ++ '\x7b' :: h.name ++ ['\x7d']

structure Template where
  pattern : String
deriving DecidableEq, Repr

namespace Template

/-- Names start with an ASCII letter or an underscore; digits may follow. -/
def continuesName (name : List Char) (c : Char) : Bool :=
  c.isAlpha || c == '_' || (c.isDigit && !name.isEmpty)

/-- The holes of a text and the literal after the last one. The literal before the next
hole is kept reversed, and so is the name read so far when a brace is open. -/
def cut (literal : List Char) : Option (List Char) → List Char → List Hole × List Char
  | none, [] => ([], literal.reverse)
  | some name, [] => ([], (name ++ '\x7b' :: literal).reverse)
  | none, c :: cs =>
    if c = '\x7b' then cut literal (some []) cs else cut (c :: literal) none cs
  | some name, c :: cs =>
    if c = '\x7d' ∧ name ≠ [] then
      let (holes, rest) := cut [] none cs
      (⟨literal.reverse, name.reverse⟩ :: holes, rest)
    else if continuesName name c then cut literal (some (c :: name)) cs
    else if c = '\x7b' then cut (name ++ '\x7b' :: literal) (some []) cs
    else cut (c :: name ++ '\x7b' :: literal) none cs

/-- Cutting loses nothing, whether or not a brace is open. -/
theorem cut_text (cs literal : List Char) (name : Option (List Char)) :
    (cut literal name cs).1.flatMap Hole.text ++ (cut literal name cs).2
      = literal.reverse
        ++ (match name with | some n => '\x7b' :: n.reverse | none => []) ++ cs := by
  fun_induction cut literal name cs <;> simp_all [Hole.text]

def holes (t : Template) : List Hole := (cut [] none t.pattern.toList).1

def ending (t : Template) : List Char := (cut [] none t.pattern.toList).2

theorem holes_append_ending (t : Template) :
    t.holes.flatMap Hole.text ++ t.ending = t.pattern.toList := by
  simpa [holes, ending] using cut_text t.pattern.toList [] none

/-- The names of the placeholders in order, repetitions included. -/
def placeholders (t : Template) : List String := t.holes.map fun h => String.ofList h.name

/-- What stands for a placeholder: nothing where the value is missing or null. -/
def display : Option Json → List Char
  | none => []
  | some .null => []
  | some v => v.plain

def render (t : Template) (context : Context) : String :=
  String.ofList
    (t.holes.flatMap (fun h => h.before ++ display (context.lookup (String.ofList h.name)))
      ++ t.ending)

end Template

end RowShape
