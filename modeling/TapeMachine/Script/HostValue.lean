/-
Values that a host lends to scripts.

Values are taken over by their shape: records become dictionaries of their fields in order, references
become what they lead to, functions on whole numbers can be called.

* `HostValue.place` takes a value over into the store of a script;
* `HostValue.foreign?` finds something of a shape that scripts do not have.
-/
import TapeMachine.Script.Compare

namespace TapeMachine.Script

/-- A value of the host. -/
inductive HostValue where
  | nothing
  | flag (value : Bool)
  | text (value : Bytes)
  | bytes (value : Bytes)
  | whole (value : Int)
  /-- A floating point number of 64 bits. -/
  | float (bits : Nat)
  | sequence (items : List HostValue)
  | mapping (entries : List (HostValue × HostValue))
  | record (fields : List (String × HostValue))
  | reference (target : HostValue)
  | function (apply : Int → Int)
  /-- A value of a shape that scripts do not have. -/
  | foreign (type : String)
deriving Inhabited

/-- The message for a value of a shape that scripts do not have. -/
def foreignMessage (type : String) : String :=
  "unsupported type for starlark: " ++ type

namespace HostValue

mutual

/-- The type of the first part of a value that scripts do not have. -/
def foreign? : HostValue → Option String
  | sequence items => foreignItem? items
  | mapping entries => foreignEntry? entries
  | record fields => foreignField? fields
  | reference target => foreign? target
  | foreign type => some type
  | _ => none

/-- The type of the first part of several values that scripts do not have. -/
def foreignItem? : List HostValue → Option String
  | [] => none
  | item :: items => foreign? item <|> foreignItem? items

/-- The type of the first part of entries that scripts do not have. -/
def foreignEntry? : List (HostValue × HostValue) → Option String
  | [] => none
  | (key, value) :: entries => foreign? key <|> foreign? value <|> foreignEntry? entries

/-- The type of the first part of fields that scripts do not have. -/
def foreignField? : List (String × HostValue) → Option String
  | [] => none
  | (_, value) :: fields => foreign? value <|> foreignField? fields

end

/-- A function of the host under a new number. -/
def lend (apply : Int → Int) : Work Value :=
  modifyGet fun s => (.host s.hosts.size, { s with hosts := s.hosts.push apply })

mutual

/-- Takes a value over. A part of a shape that scripts do not have becomes nothing. -/
def place : HostValue → Work Value
  | nothing => return .none
  | flag value => return .bool value
  | text value => return .text value
  | bytes value => return .bytes value
  | whole value => return .int value
  | float bits => return .float bits
  | sequence items => do Work.newList (← placeItems items)
  | mapping entries => do Work.newDict (← placeEntries entries)
  | record fields => do Work.newDict (← placeFields fields)
  | reference target => place target
  | function apply => lend apply
  | foreign _ => return .none

/-- Takes the items of a sequence over. -/
def placeItems : List HostValue → Work (List Value)
  | [] => return []
  | item :: items => return (← place item) :: (← placeItems items)

/-- Takes the entries of a mapping over, without those whose key cannot be one in a script. -/
def placeEntries : List (HostValue × HostValue) → Work (List (Value × Value))
  | [] => return []
  | (key, value) :: entries => do
    let key ← place key
    let value ← place value
    let rest ← placeEntries entries
    return if key.unhashable?.isNone then (key, value) :: rest else rest

/-- Takes the fields of a record over. -/
def placeFields : List (String × HostValue) → Work (List (Value × Value))
  | [] => return []
  | (label, value) :: fields => return (.text (utf8 label), ← place value) :: (← placeFields fields)

end

end HostValue

/-- The names that a host gives values to. -/
abbrev Globals := List (String × HostValue)

end TapeMachine.Script
