import SeriesPivot.Json.Source

/-!
# Decoding JSON

Decoders from the tree of a text to typed values. They read the tree in the order of the text and stop
at the first fault.

* A leaf of another kind than asked for is a fault of shape, unless the leaf itself is not well formed.
* `optional` takes `null` for the absent value.
* `record` reads a structure from an object by the names of its fields or from an array by their
  positions. Unknown names are skipped, a repeated name is a fault, and a field may be absent from an
  object, or from the end of an array, if it is not required. An item too many is a fault of the text,
  unless surplus items are allowed.
* `variant` reads a token of a closed set from a string, or from an object with the token as its only
  name and `null` under it.
-/

namespace SeriesPivot.Json

/-- A decoder of values of type `α`. -/
abbrev Decoder (α : Type) := Source → Except Fault α

namespace Decode

/-- The fault of a value of another kind than asked for. -/
def mismatch : Source → Fault
  | .number none | .string none | .broken => .malformed
  | _ => .shape

/-- A string. -/
def string : Decoder String
  | .string (some s) => .ok s
  | s => .error (mismatch s)

/-- A truth value. -/
def bool : Decoder Bool
  | .bool b => .ok b
  | s => .error (mismatch s)

/-- A natural number below `bound`. -/
def natBelow (bound : Nat) : Decoder Nat
  | .number (some (.int n)) => if 0 ≤ n ∧ n < bound then .ok n.toNat else .error .shape
  | s => .error (mismatch s)

/-- Any value. -/
def json : Decoder Json := Source.toJson

/-- A value where `null` stands for none. -/
def optional {α : Type} (d : Decoder α) : Decoder (Option α)
  | .null => .ok none
  | s => (d s).map some

/-- The items of a list, one after another. -/
def items {α : Type} (d : Decoder α) : List Source → Except Fault (List α)
  | [] => .ok []
  | s :: rest => do
    let a ← d s
    let as ← items d rest
    return a :: as

/-- An array with items of one type. -/
def listOf {α : Type} (d : Decoder α) : Decoder (List α)
  | .array sources => items d sources
  | .tooDeep _ => .error .malformed
  | s => .error (mismatch s)

/-- The members of a dictionary in order of appearance. -/
def entries {α : Type} (d : Decoder α) :
    List (Option String × Source) → Except Fault (List (String × α))
  | [] => .ok []
  | (none, _) :: _ => .error .malformed
  | (some k, s) :: rest => do
    let a ← d s
    let as ← entries d rest
    return (k, a) :: as

/-- An object with values of one type; of two members with one name the later counts. -/
def dictionary {α : Type} (d : Decoder α) : Decoder (List (String × α))
  | .object members => (entries d members).map Assoc.ofList
  | .tooDeep _ => .error .malformed
  | s => .error (mismatch s)

/-- A field of a record: its name, whether it has to be there, and how its value is put into the record. -/
structure Field (α : Type) where
  name : String
  required : Bool
  read : α → Source → Except Fault α

/-- Read members by name. `seen` holds the names read so far. -/
def recordMembers {α : Type} (fields : List (Field α)) (seen : List String) (a : α) :
    List (Option String × Source) → Except Fault α
  | [] =>
    if fields.all fun f => !f.required || seen.contains f.name then .ok a else .error .shape
  | (none, _) :: _ => .error .malformed
  | (some k, s) :: rest =>
    match fields.find? (fun f => f.name == k) with
    | none => if s.intact then recordMembers fields seen a rest else .error .malformed
    | some f =>
      if seen.contains k then .error .shape
      else do
        let a ← f.read a s
        recordMembers fields (k :: seen) a rest

/-- Read items by position. -/
def recordItems {α : Type} (surplus : Bool) (a : α) :
    List (Field α) → List Source → Except Fault α
  | [], [] => .ok a
  | [], _ :: _ => if surplus then .ok a else .error .malformed
  | fields, [] => if fields.any (·.required) then .error .shape else .ok a
  | f :: fields, s :: rest => do
    let a ← f.read a s
    recordItems surplus a fields rest

/-- A record with these fields. `blank` has the values of absent fields. -/
def record {α : Type} (surplus : Bool) (fields : List (Field α)) (blank : α) : Decoder α
  | .object members => recordMembers fields [] blank members
  | .array sources => recordItems surplus blank fields sources
  | .tooDeep _ => .error .malformed
  | s => .error (mismatch s)

/-- A token of a closed set. -/
def variant {α : Type} (token : String → Option α) : Decoder α
  | .string (some s) => match token s with
    | some a => .ok a
    | none => .error .shape
  | .object ((some k, s) :: rest) => match token k with
    | none => .error .shape
    | some a => match s, rest with
      | .null, [] => .ok a
      | .null, _ :: _ => .error .malformed
      | s, _ => .error (mismatch s)
  | _ => .error .malformed

/-- Decode a JSON value. -/
def fromJson? {α : Type} (d : Decoder α) (j : Json) : Option α :=
  (d (Source.ofJson j)).toOption

/-- Decode a text that holds one value. -/
def fromText? {α : Type} (d : Decoder α) (text : String) : Option α :=
  match Source.read text with
  | (source, true) => (d source).toOption
  | (_, false) => none

/-- Decode the value at the front of a text, whatever follows it. -/
def fromFront {α : Type} (d : Decoder α) (text : String) : Except Fault α :=
  d (Source.readFront text).1

end Decode

end SeriesPivot.Json
