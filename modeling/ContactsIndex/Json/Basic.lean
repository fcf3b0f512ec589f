import ContactsIndex.Bytes

/-!
# JSON values

A number keeps how it was written: one without fraction and exponent is an
integer of any size, and every other one is no integer, whatever its value.
-/

namespace ContactsIndex

inductive Json where
  | null
  | bool (value : Bool)
  | int (value : Int)
  /-- A number written with a fraction or an exponent, or as minus zero. -/
  | inexact
  | string (value : String)
  | array (items : List Json)
  | object (members : List (String × Json))

namespace Json

def member? (name : String) (members : List (String × Json)) : Option Json :=
  (members.find? (·.1 = name)).map (·.2)

/-- The members with others put in the place of those of the same names. -/
def overwrite (members changes : List (String × Json)) : List (String × Json) :=
  members.filter (fun m => changes.all (·.1 ≠ m.1)) ++ changes

/-! ## Reading values of one kind -/

def bool? : Json → Option Bool
  | bool b => some b
  | _ => none

def string? : Json → Option String
  | string s => some s
  | _ => none

def intIn? (low high : Int) : Json → Option Int
  | int n => if low ≤ n ∧ n ≤ high then some n else none
  | _ => none

def word? (width : Nat) (json : Json) : Option Nat :=
  (json.intIn? 0 (LittleEndian.span width - 1)).map Int.toNat

def stamp? (json : Json) : Option Int :=
  json.intIn? (-(LittleEndian.span 8 / 2)) (LittleEndian.span 8 / 2 - 1)

def orNull? {α : Type} (read : Json → Option α) : Json → Option (Option α)
  | null => some none
  | json => (read json).map some

def list? {α : Type} (read : Json → Option α) : Json → Option (List α)
  | array items => items.mapM read
  | _ => none

/-! ## Writing values -/

def strings (values : List String) : Json :=
  array (values.map string)

def nat (n : Nat) : Json :=
  int n

def orNull {α : Type} (write : α → Json) : Option α → Json
  | none => null
  | some a => write a

end Json

/-!
## Records

A record is written as an object. It may also be read from a list of its fields in
their order, which then has to hold no more than them. Members that are not
fields are passed over. An optional field may be left out of the object, not out
of the list.
-/

namespace Json

/-- A record that is being read. -/
inductive Form where
  | members (members : List (String × Json))
  | fields (items : List Json)

def form? (size : Nat) : Json → Option Form
  | object members => some (.members members)
  | array items => if items.length ≤ size then some (.fields items) else none
  | _ => none

namespace Form

variable {α : Type}

def field? (form : Form) (place : Nat) (name : String) : Option Json :=
  match form with
  | members ms => member? name ms
  | fields items => items[place]?

def required (form : Form) (place : Nat) (name : String) (read : Json → Option α) : Option α :=
  (form.field? place name).bind read

def optional (form : Form) (place : Nat) (name : String) (read : Json → Option α) : Option (Option α) :=
  match form, form.field? place name with
  | members _, none => some none
  | fields _, none => none
  | _, some json => json.orNull? read

def withDefault (form : Form) (place : Nat) (name : String) (default : α) (read : Json → Option α) : Option α :=
  match form.field? place name with
  | none => some default
  | some json => read json

end Form

end Json

end ContactsIndex
