/-!
The formats in which tokens can be reported, and their names.
-/

namespace LineTokens

/-- `list` shows the line and a list literal, `json` a JSON array, and
`lines` each token on a line of its own. -/
inductive Format where
  | list
  | json
  | lines
  deriving DecidableEq, Repr

namespace Format

def name : Format → String
  | list => "list"
  | json => "json"
  | lines => "lines"

/-- All formats, in the order in which they are offered. -/
def all : List Format := [list, json, lines]

def ofName? (name : String) : Option Format :=
  all.find? (·.name = name)

@[simp] theorem ofName?_name (f : Format) : ofName? f.name = some f := by
  cases f <;> decide

/-- The format of that name, where every unknown name means `list`. -/
def ofName (name : String) : Format :=
  (ofName? name).getD list

end Format

end LineTokens
