/-!
What the library reads from files: the text under a path, and whether a path
leads to a file.
-/

namespace RowShape

inductive ReadFault where
  | missing
  /-- Something stands there or on the way that cannot be read as text. -/
  | unreadable
deriving DecidableEq, Repr

structure FileSystem where
  read : String → Except ReadFault String
  isFile : String → Bool

end RowShape
