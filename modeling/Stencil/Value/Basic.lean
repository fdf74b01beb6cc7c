/- Values of variables and expressions, and how they read as text. -/
import Stencil.Number.Basic
import Stencil.Text.Quoted

namespace Stencil

/-- Fields stand in the order of their names, each name once. -/
inductive Value where
  | null
  | bool (b : Bool)
  | number (n : Number)
  | text (t : Text)
  | array (items : List Value)
  | object (fields : List (Text × Value))

namespace Value

instance : Inhabited Value := ⟨.null⟩

/-- Puts a field in its place; a field of that name gives way. -/
def insertField (name : Text) (value : Value) : List (Text × Value) → List (Text × Value)
  | [] => [(name, value)]
  | (n, v) :: fields =>
    match Text.order name n with
    | .lt => (name, value) :: (n, v) :: fields
    | .eq => (name, value) :: fields
    | .gt => (n, v) :: insertField name value fields

/-- The object with the given fields in any order, the last of one name standing. -/
def ofFields (fields : List (Text × Value)) : Value :=
  .object (fields.foldl (fun done f => insertField f.1 f.2 done) [])

def ofNat (n : Nat) : Value := .number (.int n)

def boolText (b : Bool) : Text := if b then "true".toList else "false".toList

section Notation

variable (p : Platform)

mutual

/-- Compact JSON. -/
def json : Value → Text
  | .null => "null".toList
  | .bool b => boolText b
  | .number n => n.text p
  | .text t => t.json
  | .array items => '[' :: jsonItems items ++ [']']
  | .object fields => '\x7b' :: jsonFields fields ++ ['\x7d']

def jsonItems : List Value → Text
  | [] => []
  | [v] => v.json
  | v :: vs => v.json ++ ',' :: jsonItems vs

def jsonFields : List (Text × Value) → Text
  | [] => []
  | [(n, v)] => n.json ++ ':' :: v.json
  | (n, v) :: fs => n.json ++ ':' :: v.json ++ ',' :: jsonFields fs

end

/-- The text that a value inserts. -/
def render : Value → Text
  | .null => []
  | .bool b => boolText b
  | .number n => n.text p
  | .text t => t
  | .array items => json p (.array items)
  | .object fields => json p (.object fields)

end Notation

/-- Empty values, zero and the text `0` do not hold. -/
def isTruthy : Value → Bool
  | .null => false
  | .bool b => b
  | .number n => n.units != 0
  | .text t => !t.isEmpty && t != ['0']
  | .array items => !items.isEmpty
  | .object fields => !fields.isEmpty

/-- The position that a text names in a list: digits with an optional plus. -/
def indexOfText? (t : Text) : Option Nat :=
  let ds :=
    match t with
    | '+' :: ds => ds
    | ds => ds
  if ds.isEmpty || !Double.isDigits ds then none else some (Nat.ofDigitChars 10 ds 0)

def index? : Value → Option Nat
  | .number n => n.index?
  | .text t => indexOfText? t
  | _ => none

/-- The item or field of a value at a key, `null` where there is none. -/
def member (p : Platform) (target key : Value) : Value :=
  match target with
  | .array items => (key.index?.bind (items[·]?)).getD .null
  | .object fields => (fields.lookup (key.render p)).getD .null
  | _ => .null

end Value

end Stencil
