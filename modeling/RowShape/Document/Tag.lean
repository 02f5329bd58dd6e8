/-!
The reserved keys of definition documents. Every key that starts with a dollar
sign is reserved, whether it has a meaning or not.
-/

namespace RowShape.Document

/-- The keys that a definition may carry. -/
inductive Tag where
  | collection | entity | column | value | field | params | definition | key
  | delimiter | format | limit | offset | context | default
deriving DecidableEq, Repr

namespace Tag

def text : Tag → String
  | collection => "$collection"
  | entity => "$entity"
  | column => "$column"
  | value => "$value"
  | field => "$field"
  | params => "$params"
  | definition => "$definition"
  | key => "$key"
  | delimiter => "$delimiter"
  | format => "$format"
  | limit => "$limit"
  | offset => "$offset"
  | context => "$context"
  | default => "$default"

def all : List Tag :=
  [collection, entity, column, value, field, params, definition, key, delimiter, format,
    limit, offset, context, default]

def isKnown (key : String) : Bool := all.any fun t => t.text == key

end Tag

def referenceKey : String := "$ref"

def isReserved (key : String) : Bool := key.toList.head? == some '$'

end RowShape.Document
