import GuestHarness.Json.Number
import GuestHarness.Json.Printer
import GuestHarness.Signature
import GuestHarness.Emission

/-! JSON forms of types, values, signatures and emissions. Values and emissions are a tag with a
content: an object with these two keys in any order among others, or an array of the two. -/
namespace GuestHarness
open Decimal

namespace Json

/-- The members whose key is `key`. -/
def membersAt (key : String) (members : List (JsonText × Json)) : List Json :=
  members.filterMap fun (k, v) => if k = some key then some v else none

/-- The values of two keys, each of which occurs once. No key may lack a text. -/
def pair? (first second : String) : Json → Option (Json × Json)
  | .array [a, b] => some (a, b)
  | .object members =>
    if members.any fun (k, _) => k.isNone then none
    else match membersAt first members, membersAt second members with
      | [a], [b] => some (a, b)
      | _, _ => none
  | _ => none

/-- A name that stands alone: a string, or an object with this one key and the value null. -/
def name? : Json → Option String
  | .string s => s
  | .object [(k, .null)] => k
  | _ => none

/-- Numbers are written so between these exponents. -/
def layoutOf (F : BinaryFormat) : Layout :=
  if F = binary32 then ⟨fun e => -6 ≤ e ∧ e ≤ 12, true, .toEven⟩
  else ⟨fun e => -5 ≤ e ∧ e ≤ 15, true, .toEven⟩

def integer (n : Int) : Json := .number (Value.integerText n)

/-- What is not a finite number has no numeral. -/
def ofFloat (F : BinaryFormat) (bits : Nat) : Json :=
  if F.infinity ≤ F.magnitude bits then .null
  else .number (F.finiteText (layoutOf F) bits)

def optional (f : α → Json) : Option α → Json
  | some a => f a
  | none => .null

end Json

open Json

namespace ValueType

def toJson (t : ValueType) : Json := .text t.name

def ofJson? (j : Json) : Option ValueType := (name? j).bind ofName?

end ValueType

namespace Value

def contentJson : Value → Json
  | i32 v => integer v.toInt
  | i64 v => integer v.toInt
  | f32 b => ofFloat binary32 b.toNat
  | f64 b => ofFloat binary64 b.toNat

def toJson (v : Value) : Json := .record [("type", v.type.toJson), ("value", v.contentJson)]

/-- The content at a type: integers within the range of the type, and any number as a float. -/
def ofContent? : ValueType → Json → Option Value
  | .i32, j => (intIn? (-twoTo 31) (twoTo 31 - 1) j).map fun n => .i32 (Int32.ofInt n)
  | .i64, j => (intIn? (-twoTo 63) (twoTo 63 - 1) j).map fun n => .i64 (Int64.ofInt n)
  | .f32, j => (float? binary32 j).map fun b => .f32 (.ofNat b)
  | .f64, j => (float? binary64 j).map fun b => .f64 (.ofNat b)

def ofJson? (j : Json) : Option Value := do
  let (tag, content) ← pair? "type" "value" j
  ofContent? (← ValueType.ofJson? tag) content

end Value

namespace Signature

def toJson (s : Signature) : Json :=
  .record [("params", .array (s.params.map ValueType.toJson)),
    ("results", .array (s.results.map ValueType.toJson))]

def typesOfJson? : Json → Option (List ValueType)
  | .array items => items.mapM ValueType.ofJson?
  | _ => none

def ofJson? (j : Json) : Option Signature := do
  let (params, results) ← pair? "params" "results" j
  return ⟨← typesOfJson? params, ← typesOfJson? results⟩

end Signature

namespace Emission

def toJson : Emission → Json
  | integer v => .record [("kind", .text "integer"), ("value", Json.integer v.toInt)]
  | text s => .record [("kind", .text "text"), ("value", .text s)]

def ofContent? (kind : String) (j : Json) : Option Emission :=
  if kind = "integer" then
    (intIn? (-twoTo 63) (twoTo 63 - 1) j).map fun n => .integer (Int64.ofInt n)
  else if kind = "text" then j.text?.map .text
  else none

def ofJson? (j : Json) : Option Emission := do
  let (tag, content) ← pair? "kind" "value" j
  ofContent? (← name? tag) content

end Emission
end GuestHarness
