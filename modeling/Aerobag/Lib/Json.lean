import Aerobag.Lib.Bytes

/-!
# JSON

Values as `serde_json` has them: the members of an object stand in the order of their keys, a number
is kept as its text. Values are written without whitespace; the strings of a written value need no
escapes.
-/

namespace Json

def object (members : List (String × Bytes)) : Bytes :=
  123 :: [44].intercalate (members.map fun member =>
    34 :: strBytes member.1 ++ [34, 58] ++ member.2) ++ [125]

def array (values : List Bytes) : Bytes := 91 :: [44].intercalate values ++ [93]

def string (text : String) : Bytes := 34 :: strBytes text ++ [34]

def option {α : Type} (write : α → Bytes) (value : Option α) : Bytes :=
  value.elim (strBytes "null") write

def number {α : Type} [ToString α] (n : α) : Bytes := strBytes (toString n)

theorem object_head? (ms : List (String × Bytes)) : (object ms).head? ≠ some 0 := by simp [object]

inductive Value where
  | null
  | bool (b : Bool)
  | number (text : String)
  | string (text : String)
  | array (items : List Value)
  | object (members : List (String × Value))

namespace Value

def asStr? : Value → Option String
  | string text => some text
  | _ => none

def asArray? : Value → Option (List Value)
  | array items => some items
  | _ => none

def asObject? : Value → Option (List (String × Value))
  | object members => some members
  | _ => none

def member? (key : String) (members : List (String × Value)) : Option Value :=
  (members.find? (·.1 = key)).map (·.2)

def removeMember (key : String) (members : List (String × Value)) : List (String × Value) :=
  members.filter (·.1 ≠ key)

def insertMember (key : String) (value : Value) (members : List (String × Value)) :
    List (String × Value) :=
  members.filter (·.1 < key) ++ (key, value) :: members.filter (key < ·.1)

def get? (key : String) (value : Value) : Option Value := value.asObject?.bind (member? key)

mutual

def write : Value → Bytes
  | null => strBytes "null"
  | bool b => strBytes (if b then "true" else "false")
  | number text => strBytes text
  | string text => Json.string text
  | array items => Json.array (writeItems items)
  | object members => Json.object (writeMembers members)

def writeItems : List Value → List Bytes
  | [] => []
  | item :: items => write item :: writeItems items

def writeMembers : List (String × Value) → List (String × Bytes)
  | [] => []
  | (key, value) :: members => (key, write value) :: writeMembers members

end

end Value

end Json
