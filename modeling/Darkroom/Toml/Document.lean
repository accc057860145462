import Darkroom.Toml.Section

/-!
# TOML documents

A document is the table that the sections of a text make up.

## Main definitions

* `addSection` : a section put into a table.
* `read?` : the table of a text.
-/

namespace Darkroom.Toml

/-- The members of a table with entries added in order. -/
def addEntries (members : Members) (entries : List (List String × Value)) : Option Members :=
  entries.foldlM addEntry members

/-- Puts the table of a header in single brackets under a name.  A table that was only implied so
far is completed; any other may not be there yet. -/
def addTable (name : String) (entries : List (List String × Value)) (members : Members) :
    Option Members :=
  match members.lookup name with
  | none => do return members.set name (.table .header (← addEntries [] entries))
  | some (.table .implied inner) => do
    return members.set name (.table .header (← addEntries inner entries))
  | some _ => none

/-- Puts the table of a header in double brackets at the end of the list under a name. -/
def addElement (name : String) (entries : List (List String × Value)) (members : Members) :
    Option Members :=
  match members.lookup name with
  | none => do return members.set name (.list true [.table .header (← addEntries [] entries)])
  | some (.list true items) => do
    return members.set name (.list true (items ++ [.table .header (← addEntries [] entries)]))
  | some _ => none

/-- Puts a section into the table of a document. -/
def addSection (members : Members) (part : Section) : Option Members :=
  let below (path : List String) (change : String → Members → Option Members) : Option Members :=
    match path.getLast? with
    | some name => within false (fun _ inner => change name inner) path.dropLast .header members
    | none => none
  match part.heading with
  | .root => addEntries members part.entries
  | .table path => below path fun name => addTable name part.entries
  | .element path => below path fun name => addElement name part.entries

/-- The table of a text; `none` where the text is not well formed or its parts do not fit. -/
def read? (s : String) : Option Members := do
  (← sections? s.toList).foldlM addSection []

end Darkroom.Toml
