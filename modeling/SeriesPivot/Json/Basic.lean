import SeriesPivot.Assoc
import SeriesPivot.Binary64.Basic

/-!
# JSON values

A JSON value with two kinds of numbers: integers, which are those between `-2 ^ 63` and `2 ^ 64 - 1`
written without fraction or exponent, and doubles. The fields of an object are a list; a value read
from text has them in increasing order of their names (`Json.ofFields`), while a value that the
library builds for printing may list them in an order of its own.

* `Json.get? name` is a field of an object.
* `Json.asInt64?` is a number as a signed 64-bit integer.
-/

namespace SeriesPivot

namespace Json

/-- A JSON number. -/
inductive Number where
  | int (n : Int)
  | float (x : Binary64)
  deriving DecidableEq, Repr, Inhabited

end Json

/-- A JSON value. -/
inductive Json where
  | null
  | bool (b : Bool)
  | number (n : Json.Number)
  | string (s : String)
  | array (items : List Json)
  | object (fields : List (String × Json))
  deriving Repr, Inhabited

namespace Json

mutual

/-- Equality of JSON values is decidable. -/
def decEq : (a b : Json) → Decidable (a = b)
  | .null, b => match b with
    | .null => isTrue rfl
    | .bool _ | .number _ | .string _ | .array _ | .object _ => isFalse nofun
  | .bool x, b => match b with
    | .bool y => if h : x = y then isTrue (h ▸ rfl) else isFalse fun e => h (Json.bool.inj e)
    | .null | .number _ | .string _ | .array _ | .object _ => isFalse nofun
  | .number x, b => match b with
    | .number y => if h : x = y then isTrue (h ▸ rfl) else isFalse fun e => h (Json.number.inj e)
    | .null | .bool _ | .string _ | .array _ | .object _ => isFalse nofun
  | .string x, b => match b with
    | .string y => if h : x = y then isTrue (h ▸ rfl) else isFalse fun e => h (Json.string.inj e)
    | .null | .bool _ | .number _ | .array _ | .object _ => isFalse nofun
  | .array x, b => match b with
    | .array y => match decEqItems x y with
      | isTrue h => isTrue (h ▸ rfl)
      | isFalse h => isFalse fun e => h (Json.array.inj e)
    | .null | .bool _ | .number _ | .string _ | .object _ => isFalse nofun
  | .object x, b => match b with
    | .object y => match decEqFields x y with
      | isTrue h => isTrue (h ▸ rfl)
      | isFalse h => isFalse fun e => h (Json.object.inj e)
    | .null | .bool _ | .number _ | .string _ | .array _ => isFalse nofun

/-- Equality of lists of JSON values is decidable. -/
def decEqItems : (a b : List Json) → Decidable (a = b)
  | [], [] => isTrue rfl
  | [], _ :: _ => isFalse nofun
  | _ :: _, [] => isFalse nofun
  | a :: as, b :: bs => match decEq a b, decEqItems as bs with
    | isTrue h, isTrue hs => isTrue (h ▸ hs ▸ rfl)
    | isFalse h, _ => isFalse fun e => h (List.cons.inj e).1
    | _, isFalse hs => isFalse fun e => hs (List.cons.inj e).2

/-- Equality of lists of fields is decidable. -/
def decEqFields : (a b : List (String × Json)) → Decidable (a = b)
  | [], [] => isTrue rfl
  | [], _ :: _ => isFalse nofun
  | _ :: _, [] => isFalse nofun
  | (k, a) :: as, (j, b) :: bs =>
    if hk : k = j then
      match decEq a b, decEqFields as bs with
      | isTrue h, isTrue hs => isTrue (hk ▸ h ▸ hs ▸ rfl)
      | isFalse h, _ => isFalse fun e => h (Prod.mk.inj (List.cons.inj e).1).2
      | _, isFalse hs => isFalse fun e => hs (List.cons.inj e).2
    else isFalse fun e => hk (Prod.mk.inj (List.cons.inj e).1).1

end

instance : DecidableEq Json := decEq

/-- The integer `n`. -/
def ofInt (n : Int) : Json := .number (.int n)

/-- The object with these fields; of two with one name the later counts. -/
def ofFields (fields : List (String × Json)) : Json :=
  .object (Assoc.ofList fields)

/-- The value of a field; `none` for other values and absent fields. -/
def get? (name : String) : Json → Option Json
  | .object fields => Assoc.find? name fields
  | _ => none

/-- The value of a field, `null` where there is none. -/
def get (name : String) (j : Json) : Json :=
  (j.get? name).getD .null

/-- The text of a string. -/
def string? : Json → Option String
  | .string s => some s
  | _ => none

/-- The items of an array. -/
def array? : Json → Option (List Json)
  | .array items => some items
  | _ => none

/-- The fields of an object. -/
def object? : Json → Option (List (String × Json))
  | .object fields => some fields
  | _ => none

/-- Neither an array nor an object. -/
def isScalar : Json → Bool
  | .array _ | .object _ => false
  | _ => true

/-- An integer within the signed 64-bit range. -/
def Number.asInt64? : Number → Option Int
  | .int n => if n < 0x8000000000000000 then some n else none
  | .float _ => none

/-- A number as the nearest double. -/
def Number.toBinary64 : Number → Binary64
  | .int n => Binary64.ofInt n
  | .float x => x

/-- A number as a signed 64-bit integer: fractions are cut off, and a number out of range becomes the
end of the range that it is beyond. -/
def Number.clampInt64 : Number → Int
  | .int n => max (-0x8000000000000000) (min n 0x7fffffffffffffff)
  | .float x => max (-0x8000000000000000) (min x.truncate 0x7fffffffffffffff)

end Json

end SeriesPivot
