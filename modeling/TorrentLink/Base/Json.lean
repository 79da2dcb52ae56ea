import Mathlib.Algebra.Order.Ring.Rat
import Mathlib.Data.List.Sort
import TorrentLink.Base.QByteArray

/-!
# JSON values

The values of `QJsonDocument`, with the accessors the program uses: each falls back to a default when
the value is of another type or the member is missing. Parsing belongs to Qt.
-/

namespace TorrentLink

inductive Json
  | null
  | bool (b : Bool)
  | num (x : Rat)
  | str (s : String)
  | arr (elems : List Json)
  | obj (members : List (String × Json))

/-- `QJsonObject`: every key at most once. -/
abbrev JsonObject := List (String × Json)

/-- `QJsonDocument`: `none` stands for a text that is not JSON, or no object and no array. -/
inductive JsonDocument
  | null
  | object (o : JsonObject)
  | array (elems : List Json)

/-- `QJsonObject::value` -/
def JsonObject.value (o : JsonObject) (key : String) : Json := (o.lookup key).getD .null

def Json.toText : Json → String
  | .str s => s
  | _ => ""

def Json.toArray : Json → List Json
  | .arr elems => elems
  | _ => []

/-- `QJsonValue::toBool` -/
def Json.toBool (default : Bool) : Json → Bool
  | .bool b => b
  | _ => default

/-- `QJsonValue::toObject`, where the value is one. -/
def Json.object? : Json → Option JsonObject
  | .obj o => some o
  | _ => none

/-- `QJsonValue::toInt`: the default unless the number is an `int`. -/
def Json.toInt (default : Int) : Json → Int
  | .num x => if x.den = 1 ∧ -2 ^ 31 ≤ x.num ∧ x.num < 2 ^ 31 then x.num else default
  | _ => default

/-! ### Printing -/

/-- A byte of a printed string. -/
def jsonEscape (b : UInt8) : Bytes :=
  if b = 0x22 ∨ b = 0x5c then [0x5c, b]
  else if 0x20 ≤ b then [b]
  else
    let escape : List Char :=
      match b.toNat with
      | 0x08 => ['b']
      | 0x09 => ['t']
      | 0x0a => ['n']
      | 0x0c => ['f']
      | 0x0d => ['r']
      | n => ['u', '0', '0', Nat.digitChar (n / 16), Nat.digitChar (n % 16)]
    0x5c :: escape.map Char.toUInt8

def jsonQuoted (s : String) : Bytes := 0x22 :: s.toUTF8.data.toList.flatMap jsonEscape ++ [0x22]

/-- The elements of an array or an object between its brackets. -/
def jsonLines (compact : Bool) (indent : Nat) (lines : List Bytes) : Bytes :=
  let comma := Char.toUInt8 ','
  if compact then [comma].intercalate lines
  else
    let newline := Char.toUInt8 '\n'
    let blanks (n : Nat) := List.replicate (4 * n) (Char.toUInt8 ' ')
    let ended := if lines = [] then [] else [newline]
    newline :: [comma, newline].intercalate (lines.map (blanks (indent + 1) ++ ·)) ++ ended ++ blanks indent

mutual

/-- The text of a value whose numbers are whole. An object has its keys in order. -/
def Json.print (compact : Bool) (indent : Nat) : Json → Bytes
  | .null => latin1 "null"
  | .bool b => latin1 (if b then "true" else "false")
  | .num x => byteNumber x.num
  | .str s => jsonQuoted s
  | .arr elems => 0x5b :: jsonLines compact indent (Json.printElems compact (indent + 1) elems) ++ [0x5d]
  | .obj members =>
    let sorted := (Json.printMembers compact (indent + 1) members).insertionSort (·.1 ≤ ·.1)
    0x7b :: jsonLines compact indent (sorted.map (·.2)) ++ [0x7d]

def Json.printElems (compact : Bool) (indent : Nat) : List Json → List Bytes
  | [] => []
  | elem :: elems => elem.print compact indent :: Json.printElems compact indent elems

/-- The lines of the members, behind their keys. -/
def Json.printMembers (compact : Bool) (indent : Nat) : List (String × Json) → List (Bytes × Bytes)
  | [] => []
  | (key, value) :: members =>
    let colon := if compact then [0x3a] else [0x3a, 0x20]
    (key.toUTF8.data.toList, jsonQuoted key ++ colon ++ value.print compact indent) ::
      Json.printMembers compact indent members

end

/-- `QJsonDocument::toJson(QJsonDocument::Compact)` of an array. -/
def jsonCompact (elems : List Json) : Bytes := (Json.arr elems).print true 0

/-- `QJsonDocument::toJson(QJsonDocument::Indented)` of an object. -/
def jsonIndented (o : JsonObject) : Bytes := (Json.obj o).print false 0 ++ [0x0a]

theorem jsonIndented_ne_nil (o : JsonObject) : jsonIndented o ≠ [] :=
  List.append_ne_nil_of_right_ne_nil _ (List.cons_ne_nil _ _)

example : jsonCompact [.obj [("b", .num 5), ("a", .arr [.str "x"])]] =
    toUtf8 "[\x7b\"a\":[\"x\"],\"b\":5\x7d]" := by
  decide +kernel

end TorrentLink
