import Mathlib.Data.String.Basic

/-!
# JSON values

`serde_json::Value` with the text `serde_json::to_vec` writes for it. The members of an
object stand in the order of its map, which is the order of their names.
-/

namespace InstagramArchive

/-- A JSON value. An integer that fits neither `u64` nor `i64` is read as a float. -/
inductive Json where
  | null
  | bool (b : Bool)
  | int (n : Int)
  | float (text : String)
  | str (s : String)
  | arr (values : List Json)
  | obj (members : List (String × Json))

/-! ## Text -/

def hexNibble (n : Nat) : Char := "0123456789abcdef".toList.getD (n % 16) '0'

/-- One character of a JSON string, as `serde_json` writes it. -/
def jsonChar (c : Char) : List Char :=
  if c = '"' then ['\\', '"']
  else if c = '\\' then ['\\', '\\']
  else if c = '\n' then ['\\', 'n']
  else if c = '\r' then ['\\', 'r']
  else if c = '\t' then ['\\', 't']
  else if c.toNat = 8 then ['\\', 'b']
  else if c.toNat = 12 then ['\\', 'f']
  else if c.toNat < 32 then ['\\', 'u', '0', '0', hexNibble (c.toNat / 16), hexNibble c.toNat]
  else [c]

def jsonString (s : String) : String :=
  "\"" ++ String.ofList (s.toList.flatMap jsonChar) ++ "\""

/-- A JSON object of already rendered members. -/
def jsonObject (members : List (String × String)) : String :=
  "\x7b" ++ String.intercalate "," (members.map fun m => jsonString m.1 ++ ":" ++ m.2) ++ "\x7d"

def jsonOption : Option String → String
  | none => "null"
  | some s => jsonString s

namespace Json

mutual

/-- The compact text of a value. -/
def render : Json → String
  | null => "null"
  | bool b => if b then "true" else "false"
  | int n => toString n
  | float text => text
  | str s => jsonString s
  | arr values => "[" ++ String.intercalate "," (renderAll values) ++ "]"
  | obj members => jsonObject (renderMembers members)

def renderAll : List Json → List String
  | [] => []
  | v :: rest => v.render :: renderAll rest

def renderMembers : List (String × Json) → List (String × String)
  | [] => []
  | (name, v) :: rest => (name, v.render) :: renderMembers rest

end

/-- Whether a text holds the character that PostgreSQL stores in no text. -/
def textHasNul (s : String) : Bool := s.toList.any fun c => c.toNat = 0

mutual

/-- Whether a string or a name of the value holds U+0000, which `jsonb` refuses. -/
def hasNul : Json → Bool
  | str s => textHasNul s
  | arr values => anyNul values
  | obj members => membersHaveNul members
  | _ => false

def anyNul : List Json → Bool
  | [] => false
  | v :: rest => v.hasNul || anyNul rest

def membersHaveNul : List (String × Json) → Bool
  | [] => false
  | (name, v) :: rest => textHasNul name || v.hasNul || membersHaveNul rest

end

/-- The member of an object with a name, and the object without it. -/
def removeMember (name : String) (members : List (String × Json)) :
    Option (Json × List (String × Json)) :=
  (members.find? fun m => m.1 = name).map fun m => (m.2, members.filter fun m => m.1 ≠ name)

end Json

end InstagramArchive
