import WorkoutBoard.Directory
import WorkoutBoard.Json.Document
import WorkoutBoard.Text.Base64

/-!
# Attributes

The values that an item of a table holds. In JSON an attribute is an object with one member, whose
name tells its kind; numbers are written as text, and binary values are kept as the text that stands
for them. `toJson` writes this form. `ofDocument?` also takes members that hold nothing or name the
type, and an attribute of a kind that it does not know. It is told for how many containers there is
room; values that it passes over need none.
-/

namespace WorkoutBoard.Store

inductive Attribute where
  | text (value : String)
  | number (value : String)
  | binary (value : String)
  | boolean (value : Bool)
  | null (value : Bool)
  | list (elements : List Attribute)
  | fields (entries : List (String × Attribute))
  | texts (values : List String)
  | numbers (values : List String)
  | binaries (values : List String)
  | unknown
deriving Inhabited

namespace Attribute

open Json (Document Spelling Value)

mutual

def toJson : Attribute → Value
  | .text value => .object [("S", .text value)]
  | .number value => .object [("N", .text value)]
  | .binary value => .object [("B", .text value)]
  | .boolean value => .object [("BOOL", .boolean value)]
  | .null value => .object [("NULL", .boolean value)]
  | .list elements => .object [("L", .list (elementsToJson elements))]
  | .fields entries => .object [("M", .object (entriesToJson entries))]
  | .texts values => .object [("SS", .list (values.map .text))]
  | .numbers values => .object [("NS", .list (values.map .text))]
  | .binaries values => .object [("BS", .list (values.map .text))]
  | .unknown => .object []

def elementsToJson : List Attribute → List Value
  | [] => []
  | head :: rest => head.toJson :: elementsToJson rest

def entriesToJson : List (String × Attribute) → List (String × Value)
  | [] => []
  | (name, head) :: rest => (name, head.toJson) :: entriesToJson rest

end

def kinds : List String := ["S", "N", "B", "BOOL", "NULL", "L", "M", "SS", "NS", "BS"]

def ofUnknown? (value : Document) : Option Attribute :=
  if value.isIgnorable then some .unknown else none

/-- The text that stands for bytes, which is taken as it is written. -/
def binary? : Document → Option String
  | .text spelling =>
      if Text.Base64.isEncoded spelling.written.toList then some spelling.written else none
  | _ => none

mutual

def ofDocument? : (room : Nat) → Document → Option Attribute
  | room + 1, .object members => ofVariants? room none members
  | _, _ => none

/-- The attribute that members tell, unless there is one already. -/
def ofVariants? (room : Nat) (found : Option Attribute) :
    List (Spelling × Document) → Option Attribute
  | [] => found
  | (name, value) :: rest =>
      if value.isNull then ofVariants? room found rest
      else
        match name.text? with
        | none => none
        | some kind =>
            if kind = "__type" then
              if value.isIgnorable then ofVariants? room found rest else none
            else if found.isSome then none
            else
              match if kinds.contains kind then ofKind? room kind value else ofUnknown? value with
              | none => none
              | some variant => ofVariants? room (some variant) rest

def ofKind? : (room : Nat) → (kind : String) → Document → Option Attribute
  | _, kind, .text spelling =>
      if kind = "S" then spelling.text?.map .text
      else if kind = "N" then spelling.text?.map .number
      else if kind = "B" then (binary? (.text spelling)).map .binary
      else none
  | _, kind, .boolean value =>
      if kind = "BOOL" then some (.boolean value)
      else if kind = "NULL" then some (.null value)
      else none
  | room + 1, kind, .list elements =>
      if kind = "L" then (ofElements? room elements).map .list
      else if kind = "SS" then (elements.mapM Document.text?).map .texts
      else if kind = "NS" then (elements.mapM Document.text?).map .numbers
      else if kind = "BS" then (elements.mapM binary?).map .binaries
      else none
  | room + 1, kind, .object members =>
      if kind = "M" then
        (ofMembers? room members).map fun entries => .fields (Directory.ofList entries).toList
      else none
  | _, _, _ => none

def ofElements? (room : Nat) : List Document → Option (List Attribute)
  | [] => some []
  | value :: rest =>
      match ofDocument? room value with
      | none => none
      | some head => (ofElements? room rest).map (head :: ·)

def ofMembers? (room : Nat) : List (Spelling × Document) → Option (List (String × Attribute))
  | [] => some []
  | (name, value) :: rest =>
      match name.text?, ofDocument? room value with
      | some key, some head => (ofMembers? room rest).map ((key, head) :: ·)
      | _, _ => none

end

end Attribute

abbrev Item := Directory Attribute

namespace Item

def toJson (item : Item) : Json.Value := .object (Attribute.entriesToJson item.toList)

def ofDocument? : (room : Nat) → Json.Document → Option Item
  | room + 1, .object members => (Attribute.ofMembers? room members).map Directory.ofList
  | _, _ => none

end Item

end WorkoutBoard.Store
