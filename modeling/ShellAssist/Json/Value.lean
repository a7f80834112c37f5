import ShellAssist.Json.Printer
import ShellAssist.Failure

namespace ShellAssist

/-!
# Values of a program

What a program may hand over to be stored or shown. Beside the values of JSON there are tuples, keys of
mappings that are no texts, and values of other types. A tuple is written as a list and a key by its
text; nothing is written for a value that holds one of another type, or a whole number with too many
digits, or lists and mappings that are nested too deep.

* `Value.toJson` — the JSON value that is written;
* `Value.encode` — its text;
* `Value.ofJson` — what a JSON value is read as.
-/

open Number

/-- What the values of a mapping are found by. -/
inductive Key where
  | null
  | bool (value : Bool)
  | int (value : Int)
  | float (value : Double)
  | str (value : String)
  /-- Of another type, which has this name. -/
  | other (type : String)
  deriving DecidableEq, Inhabited, Repr

/-- A text is a key. -/
instance : Coe String Key := ⟨.str⟩

/-- A value of a program. -/
inductive Value where
  | null
  | bool (value : Bool)
  | int (value : Int)
  | float (value : Double)
  | str (value : String)
  | list (items : List Value)
  | tuple (items : List Value)
  | dict (members : List (Key × Value))
  /-- Of another type, which has this name; a condition may take it as present or not. -/
  | other (type : String) (present : Bool)
  deriving Inhabited, Repr

/-- The text that is written for a key. -/
def Key.text : Key → Except Failure String
  | .null => .ok "null"
  | .bool true => .ok "true"
  | .bool false => .ok "false"
  | .int n =>
    if Decimal.isWritable n then .ok (String.ofList (Number.Decimal.ofInt n))
    else .error .wholeTooLong
  | .float d => .ok (String.ofList (Number.Decimal.shortest Json.floatNames d))
  | .str s => .ok s
  | .other type => .error (.keyNotWritable type)

namespace Value

/-- A whole number or nothing. -/
def ofInt? (n : Option Int) : Value :=
  n.elim .null .int

/-- A text or nothing. -/
def ofString? (s : Option String) : Value :=
  s.elim .null .str

/-- Whether a value counts as present in a condition: not null, false, zero or empty. -/
def isTruthy : Value → Bool
  | .null => false
  | .bool b => b
  | .int n => n ≠ 0
  | .float d => d.magnitudeBits ≠ 0
  | .str s => s ≠ ""
  | .list items | .tuple items => !items.isEmpty
  | .dict members => !members.isEmpty
  | .other _ present => present

/-! ### Writing -/

mutual

/-- The JSON value that is written where `room` more levels of nesting are allowed. The first part of a
value that cannot be written makes it fail. -/
def toJson (room : Nat) : Value → Except Failure Json
  | .null => .ok .null
  | .bool b => .ok (.bool b)
  | .int n => if Decimal.isWritable n then .ok (.int n) else .error .wholeTooLong
  | .float d => .ok (.float d)
  | .str s => .ok (.str s)
  | .list items =>
    match room with
    | 0 => .error .valueTooDeep
    | room + 1 => (itemsToJson room items).map .arr
  | .tuple items =>
    match room with
    | 0 => .error .valueTooDeep
    | room + 1 => (itemsToJson room items).map .arr
  | .dict members =>
    match room with
    | 0 => .error .valueTooDeep
    | room + 1 => (membersToJson room members).map .obj
  | .other type _ => .error (.valueNotWritable type)

/-- The items of the array that is written. -/
def itemsToJson (room : Nat) : List Value → Except Failure (List Json)
  | [] => .ok []
  | item :: items => do
    let first ← toJson room item
    let rest ← itemsToJson room items
    return first :: rest

/-- The members of the object that is written, several of one name if their keys have the same text. -/
def membersToJson (room : Nat) : List (Key × Value) → Except Failure Members
  | [] => .ok []
  | (key, value) :: members => do
    let name ← key.text
    let first ← toJson room value
    let rest ← membersToJson room members
    return (name, first) :: rest

end

/-- The JSON text of a value, whose lists and mappings may be nested `nesting` levels deep. -/
def encode (nesting : Nat) (value : Value) (layout : Json.Layout := .line) : Except Failure String :=
  (value.toJson nesting).map (·.render layout)

/-! ### What is read -/

mutual

/-- The value that a JSON value is read as. -/
def ofJson : Json → Value
  | .null => .null
  | .bool b => .bool b
  | .int n => .int n
  | .float d => .float d
  | .str s => .str s
  | .arr items => .list (ofItems items)
  | .obj members => .dict (ofMembers members)

/-- The items of an array as values. -/
def ofItems : List Json → List Value
  | [] => []
  | item :: items => ofJson item :: ofItems items

/-- The members of an object as those of a mapping. -/
def ofMembers : Members → List (Key × Value)
  | [] => []
  | (name, value) :: members => (.str name, ofJson value) :: ofMembers members

end

end Value

/-- The JSON text of a JSON value, if it can be written. -/
def Json.encode (nesting : Nat) (value : Json) (layout : Json.Layout := .line) :
    Except Failure String :=
  (Value.ofJson value).encode nesting layout

end ShellAssist
