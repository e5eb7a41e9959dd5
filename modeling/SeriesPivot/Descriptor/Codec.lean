import SeriesPivot.Descriptor.Basic
import SeriesPivot.Json.Decode

/-!
# Descriptors as JSON

Each type of a descriptor has a decoder `decode` and an encoder `toJson`.

* Absent values are not written, except that an absent bound of a range of time is written as `null`.
* A timeframe is a number of items if it has a field `last_n_items` that is a 64-bit natural number, and
  any other object is a range of time.
-/

namespace SeriesPivot

open Json (Decoder Source Fault)
open Json.Decode (Field record optional listOf)

/-- A field that is written only when there is a value. -/
def optionalField (name : String) (value : Option Json) : List (String × Json) :=
  match value with
  | some j => [(name, j)]
  | none => []

namespace Filter

/-- A filter is an array of field, operator and value. -/
def decode : Decoder Filter
  | .array [] => throw .shape
  | .array (f :: rest) => do
    let field ← Json.Decode.string f
    match rest with
    | [] => throw .shape
    | o :: rest =>
      let operator ← Json.Decode.variant Operator.ofFilterToken? o
      match rest with
      | [] => throw .shape
      | v :: rest =>
        let value ← v.toJson
        if rest.isEmpty then return ⟨field, operator, value⟩ else throw .malformed
  | .tooDeep _ => throw .malformed
  | s => throw (Json.Decode.mismatch s)

/-- A filter as an array. -/
def toJson (f : Filter) : Json :=
  .array [.string f.field, .string f.operator.name, f.value]

end Filter

namespace CollectionRef

/-- A collection from its key and the name of its measurement. -/
def decode : Decoder CollectionRef :=
  record false
    [⟨"key", true, fun c s => do return { c with key := ← Json.Decode.string s }⟩,
     ⟨"storeKey", false, fun c s => do
       return { c with storeKey := ← optional Json.Decode.string s }⟩]
    ⟨"", none⟩

/-- A collection as an object. -/
def toJson (c : CollectionRef) : Json :=
  .object (("key", .string c.key) :: optionalField "storeKey" (c.storeKey.map .string))

end CollectionRef

namespace Dimension

/-- A dimension from its fields. -/
def decode : Decoder Dimension :=
  record false
    [⟨"key", true, fun d s => do return { d with key := ← Json.Decode.string s }⟩,
     ⟨"datatype", true, fun d s => do
       return { d with datatype := DimensionType.ofName (← Json.Decode.string s) }⟩,
     ⟨"attribute", false, fun d s => do
       return { d with source := ← optional Json.Decode.string s }⟩,
     ⟨"collection", false, fun d s => do
       return { d with collection := ← optional CollectionRef.decode s }⟩]
    ⟨"", .unknown "", none, none⟩

/-- A dimension as an object. -/
def toJson (d : Dimension) : Json :=
  .object (("key", .string d.key) :: ("datatype", .string d.datatype.name) ::
    (optionalField "attribute" (d.source.map .string) ++
      optionalField "collection" (d.collection.map CollectionRef.toJson)))

end Dimension

namespace Metric

/-- A metric from its fields. -/
def decode : Decoder Metric :=
  record false
    [⟨"key", true, fun m s => do return { m with key := ← Json.Decode.string s }⟩,
     ⟨"aggregation", false, fun m s => do
       return { m with
         aggregation := (← optional Json.Decode.string s).map Aggregation.ofName }⟩,
     ⟨"attribute", false, fun m s => do
       return { m with source := ← optional Json.Decode.string s }⟩,
     ⟨"collection", false, fun m s => do
       return { m with collection := ← optional CollectionRef.decode s }⟩,
     ⟨"filter", false, fun m s => do return { m with filter := ← listOf Filter.decode s }⟩,
     ⟨"formula", false, fun m s => do return { m with formula := ← optional Source.toJson s }⟩]
    (named "")

/-- A metric as an object. -/
def toJson (m : Metric) : Json :=
  .object (("key", .string m.key) ::
    (optionalField "aggregation" (m.aggregation.map fun a => .string a.name) ++
      optionalField "attribute" (m.source.map .string) ++
      optionalField "collection" (m.collection.map CollectionRef.toJson) ++
      (if m.filter.isEmpty then [] else [("filter", .array (m.filter.map Filter.toJson))]) ++
      optionalField "formula" m.formula))

end Metric

namespace Timeframe

/-- The only member of a name, `none` if there is none; two are a fault. -/
def single (name : String) (members : List (Option String × Source)) :
    Except Fault (Option Source) :=
  match members.filter fun m => m.1 == some name with
  | [] => .ok none
  | [m] => .ok (some m.2)
  | _ => .error .shape

/-- The number of items, of an object that has it. -/
def decodeLastItems (members : List (Option String × Source)) : Except Fault Timeframe := do
  match ← single "last_n_items" members with
  | some s => return .lastItems (← Json.Decode.natBelow UInt64.size s)
  | none => throw .shape

/-- A bound of a range; `null` is no bound. -/
def decodeBound : Option Source → Except Fault (Option Json)
  | none => .ok none
  | some s => optional Source.toJson s

/-- The bounds of a range. -/
def decodeRange (members : List (Option String × Source)) : Except Fault Timeframe := do
  let start ← single "start" members
  let stop ← single "end" members
  return .range (← decodeBound start) (← decodeBound stop)

/-- A timeframe from an object, which must be well formed throughout. -/
def decode : Decoder Timeframe := fun s => do
  let _ ← s.toJson
  match s with
  | .object members =>
    match decodeLastItems members with
    | .ok t => .ok t
    | .error _ => decodeRange members
  | _ => throw .shape

/-- A timeframe as an object. -/
def toJson : Timeframe → Json
  | .lastItems count => .object [("last_n_items", .ofInt count)]
  | .range start stop => .object [("start", start.getD .null), ("end", stop.getD .null)]

end Timeframe

namespace QueryDescriptor

/-- A query from its fields. -/
def decode : Decoder QueryDescriptor :=
  record false
    [⟨"dimensions", false, fun q s => do
       return { q with dimensions := ← listOf Dimension.decode s }⟩,
     ⟨"metrics", false, fun q s => do return { q with metrics := ← listOf Metric.decode s }⟩,
     ⟨"filter", false, fun q s => do return { q with filter := ← listOf Filter.decode s }⟩,
     ⟨"timeframe", false, fun q s => do
       return { q with timeframe := ← optional Timeframe.decode s }⟩,
     ⟨"interval", false, fun q s => do
       return { q with interval := (← optional Json.Decode.string s).map Interval.ofToken }⟩,
     ⟨"collection", false, fun q s => do
       return { q with collection := ← optional CollectionRef.decode s }⟩]
    empty

/-- A query as an object. -/
def toJson (q : QueryDescriptor) : Json :=
  .object (("dimensions", .array (q.dimensions.map Dimension.toJson)) ::
    ("metrics", .array (q.metrics.map Metric.toJson)) ::
    ("filter", .array (q.filter.map Filter.toJson)) ::
    (optionalField "timeframe" (q.timeframe.map Timeframe.toJson) ++
      optionalField "interval" (q.interval.map fun i => .string i.token) ++
      optionalField "collection" (q.collection.map CollectionRef.toJson)))

/-- The query that a JSON value describes. -/
def ofJson? (j : Json) : Option QueryDescriptor :=
  Json.Decode.fromJson? decode j

end QueryDescriptor

end SeriesPivot
