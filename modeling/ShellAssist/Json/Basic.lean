import ShellAssist.Number.Double

namespace ShellAssist

/-!
# JSON values

Objects keep their members in order and hold each name once: a name written twice keeps the place of
the first and the value of the last.
-/

open Number (Double)

/-- A JSON value; whole numbers are of any size, all others are doubles. -/
inductive Json where
  | null
  | bool (value : Bool)
  | int (value : Int)
  | float (value : Double)
  | str (value : String)
  | arr (items : List Json)
  | obj (members : List (String × Json))
  deriving Inhabited, Repr

/-- The members of an object. -/
abbrev Members := List (String × Json)

namespace Members

variable {κ ν : Type} [DecidableEq κ]

/-- The members with `name` set to `value`: in place if the name is there, else at the end. -/
def set (name : κ) (value : ν) : List (κ × ν) → List (κ × ν)
  | [] => [(name, value)]
  | (n, v) :: rest => if n = name then (n, value) :: rest else (n, v) :: set name value rest

/-- The value of a name. -/
def get? (members : List (κ × ν)) (name : κ) : Option ν :=
  members.lookup name

/-- The members of a list of pairs, a later pair overriding an earlier one of the same name. -/
def ofList (pairs : List (κ × ν)) : List (κ × ν) :=
  pairs.foldl (fun ms p => Members.set p.1 p.2 ms) []

end Members

namespace Json

/-- The member of an object with this name. -/
def get? (name : String) : Json → Option Json
  | .obj members => Members.get? members name
  | _ => none

/-- A whole number or nothing. -/
def ofInt? (n : Option Int) : Json :=
  n.elim .null .int

/-- A text or nothing. -/
def ofString? (s : Option String) : Json :=
  s.elim .null .str

/-- The word for the type of a value. -/
def typeName : Json → String
  | .null => "NoneType"
  | .bool _ => "bool"
  | .int _ => "int"
  | .float _ => "float"
  | .str _ => "str"
  | .arr _ => "list"
  | .obj _ => "dict"

end Json

end ShellAssist
