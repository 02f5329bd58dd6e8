/-!
Prefixes, occurrences and splitting of texts, and comparison without regard to
the case of ASCII letters.
-/

namespace RowShape

def stripLead? : List Char → List Char → Option (List Char)
  | [], s => some s
  | _ :: _, [] => none
  | p :: ps, c :: cs => if p = c then stripLead? ps cs else none

def occursIn (part : List Char) : List Char → Bool
  | [] => part.isEmpty
  | c :: cs => part.isPrefixOf (c :: cs) || occursIn part cs

/-- Cuts at the occurrences of a delimiter from the left. `skip` counts the delimiter's
characters that are still to be passed over, and `piece` is the current piece, reversed. -/
def splitFrom (delimiter : List Char) : Nat → List Char → List Char → List (List Char)
  | _, piece, [] => [piece.reverse]
  | skip + 1, piece, _ :: cs => splitFrom delimiter skip piece cs
  | 0, piece, c :: cs =>
    if delimiter.isPrefixOf (c :: cs) then
      piece.reverse :: splitFrom delimiter (delimiter.length - 1) [] cs
    else splitFrom delimiter 0 (c :: piece) cs

/-- The pieces between leftmost occurrences of a non-empty delimiter. -/
def splitOn (delimiter s : List Char) : List (List Char) := splitFrom delimiter 0 [] s

def foldCase (s : List Char) : List Char := s.map Char.toLower

def equalFoldingCase (s t : List Char) : Bool := foldCase s == foldCase t

end RowShape
