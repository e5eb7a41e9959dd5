import SeriesPivot.Plan.Compile
import SeriesPivot.Proofs.Descriptor.Normal
import SeriesPivot.Proofs.Json.ReadBack

/-!
# Descriptors are read as they are written

A record is written field by field, without the fields that have no value, and tokens by one of the names
that they are read from. Decoders and encoders are apart, so for each type its decoder is shown to read what
its encoder writes.

* `only names` is a record with its fields of these names only, which is what has been read of it once these
  names have been met; `slots` are its fields with the values that are written.
* `QueryDescriptor.reads_decode`: a normal query is read from what it is written as.
* `QueryDescriptor.read_again`: so is every query that was read from anything.
-/

namespace SeriesPivot

open Json.Decode (Reads Slot present reads_string reads_natBelow reads_variant reads_json reads_optional
  reads_optional_string reads_optional_json reads_optional_getD ite_none_eq_self ite_nil_eq_self)

/-! ### Fields that may be absent -/

theorem present_cons (name : String) (value : Option Json) (slots : List (String × Option Json)) :
    present ((name, value) :: slots) = optionalField name value ++ present slots := by
  cases value <;> rfl

theorem map_map_eq_self {τ : Type} {read : String → τ} {write : τ → String} {o : Option τ}
    (h : ∀ t ∈ o, read (write t) = t) : (o.map write).map read = o := by
  rw [Option.map_map]
  exact (Option.map_congr h).trans Option.map_id'

/-! ### Filters -/

theorem Operator.ofFilterToken?_name (o : Operator) : ofFilterToken? o.name = some o := by
  cases o <;> decide

theorem Filter.reads_decode {f : Filter} (hf : f.Normal) : Reads decode f.toJson f := by
  intro j' h
  cases h with
  | array h =>
    simp only [List.forall₂_cons_right_iff, List.forall₂_nil_right_iff] at h
    obtain ⟨field, -, hf₁, ⟨operator, -, hf₂, ⟨value, -, hf₃, rfl, rfl⟩, rfl⟩, rfl⟩ := h
    have hfield := reads_string f.field field hf₁
    have hoperator := reads_variant f.operator.ofFilterToken?_name operator hf₂
    have hvalue : (Json.Source.ofJson value).toJson = .ok f.value := reads_json hf value hf₃
    simp only [Json.Source.ofJson, Json.Source.ofItems, decode, hfield, hoperator, hvalue]
    rfl

/-! ### Collections -/

namespace CollectionRef

variable (c : CollectionRef)

/-- The collection with its fields of these names only. -/
def only (names : List String) : CollectionRef :=
  ⟨if "key" ∈ names then c.key else "", if "storeKey" ∈ names then c.storeKey else none⟩

/-- The fields of a collection with their values. -/
def slots : List (String × Option Json) :=
  [("key", some (.string c.key)), ("storeKey", c.storeKey.map .string)]

theorem toJson_eq : c.toJson = .object (present c.slots) := by
  simp [toJson, slots, present_cons, optionalField]

theorem reads_decode : Reads decode c.toJson c := by
  rw [toJson_eq]
  refine Reads.record c.only ?_ (by simp [slots]) rfl fun names hnames => ?_
  · simp only [slots, List.forall₂_cons, List.Forall₂.nil, and_true]
    refine ⟨.written rfl fun names => ?_, .optional rfl rfl fun j hj names => ?_⟩
    · exact (reads_string c.key).map (by simp [only])
    · exact (reads_optional_string j hj).map (by simp [only])
  · simp only [slots, List.forall_mem_cons] at hnames
    obtain ⟨hkey, hstore, -⟩ := hnames
    rw [only, if_pos (hkey rfl), ite_none_eq_self (by simpa using hstore)]

theorem reads_optional_decode {o : Option CollectionRef} :
    ∀ j ∈ o.map toJson, Reads (Json.Decode.optional decode) j o :=
  reads_optional toJson (by simp [toJson]) fun c _ => c.reads_decode

end CollectionRef

/-! ### Dimensions -/

namespace Dimension

variable (d : Dimension)

/-- The dimension with its fields of these names only. -/
def only (names : List String) : Dimension :=
  ⟨if "key" ∈ names then d.key else "", if "datatype" ∈ names then d.datatype else .unknown "",
    if "attribute" ∈ names then d.source else none, if "collection" ∈ names then d.collection else none⟩

/-- The fields of a dimension with their values. -/
def slots : List (String × Option Json) :=
  [("key", some (.string d.key)), ("datatype", some (.string d.datatype.name)),
    ("attribute", d.source.map .string), ("collection", d.collection.map CollectionRef.toJson)]

theorem toJson_eq : d.toJson = .object (present d.slots) := by
  simp [toJson, slots, present_cons, optionalField]

variable {d}

theorem reads_decode (hd : d.Normal) : Reads decode d.toJson d := by
  rw [toJson_eq]
  refine Reads.record d.only ?_ (by simp [slots]) rfl fun names hnames => ?_
  · simp only [slots, List.forall₂_cons, List.Forall₂.nil, and_true]
    refine ⟨.written rfl fun names => ?_, .written rfl fun names => ?_,
      .optional rfl rfl fun j hj names => ?_, .optional rfl rfl fun j hj names => ?_⟩
    · exact (reads_string d.key).map (by simp [only])
    · have htype : DimensionType.ofName d.datatype.name = d.datatype := hd
      exact (reads_string d.datatype.name).map (by simp [only, htype])
    · exact (reads_optional_string j hj).map (by simp [only])
    · exact (CollectionRef.reads_optional_decode j hj).map (by simp [only])
  · simp only [slots, List.forall_mem_cons] at hnames
    obtain ⟨hkey, htype, hsource, hcollection, -⟩ := hnames
    rw [only, if_pos (hkey rfl), if_pos (htype rfl), ite_none_eq_self (by simpa using hsource),
      ite_none_eq_self (by simpa using hcollection)]

end Dimension

/-! ### Metrics -/

namespace Metric

variable (m : Metric)

/-- The metric with its fields of these names only. -/
def only (names : List String) : Metric :=
  ⟨if "key" ∈ names then m.key else "", if "aggregation" ∈ names then m.aggregation else none,
    if "attribute" ∈ names then m.source else none, if "collection" ∈ names then m.collection else none,
    if "filter" ∈ names then m.filter else [], if "formula" ∈ names then m.formula else none, false⟩

/-- The fields of a metric with their values. -/
def slots : List (String × Option Json) :=
  [("key", some (.string m.key)), ("aggregation", (m.aggregation.map Aggregation.name).map .string),
    ("attribute", m.source.map .string), ("collection", m.collection.map CollectionRef.toJson),
    ("filter", if m.filter.isEmpty then none else some (.array (m.filter.map Filter.toJson))),
    ("formula", m.formula)]

theorem toJson_eq : m.toJson = .object (present m.slots) := by
  cases h : m.filter.isEmpty <;>
    simp [toJson, slots, present_cons, optionalField, h, Function.comp_def]

variable {m}

theorem reads_decode (hm : m.Normal) : Reads decode m.toJson m := by
  rw [toJson_eq]
  refine Reads.record m.only ?_ (by simp [slots]) rfl fun names hnames => ?_
  · simp only [slots, List.forall₂_cons, List.Forall₂.nil, and_true]
    refine ⟨.written rfl fun names => ?_, .optional rfl rfl fun j hj names => ?_,
      .optional rfl rfl fun j hj names => ?_, .optional rfl rfl fun j hj names => ?_,
      .optional rfl rfl fun j hj names => ?_, .optional rfl rfl fun j hj names => ?_⟩
    · exact (reads_string m.key).map (by simp [only])
    · have haggregation : (m.aggregation.map Aggregation.name).map Aggregation.ofName = m.aggregation :=
        map_map_eq_self hm.aggregation
      exact (reads_optional_string j hj).map (by simp [only, haggregation])
    · exact (reads_optional_string j hj).map (by simp [only])
    · exact (CollectionRef.reads_optional_decode j hj).map (by simp [only])
    · have hfilter := Reads.listOf fun f hf => Filter.reads_decode (hm.filter f hf)
      split_ifs at hj
      · cases hj
      · cases hj
        exact hfilter.map (by simp [only])
    · have hformula : Reads (Json.Decode.optional Json.Source.toJson) j m.formula :=
        reads_optional_json hm.formula j hj
      exact hformula.map (by simp [only])
  · simp only [slots, List.forall_mem_cons] at hnames
    obtain ⟨hkey, haggregation, hsource, hcollection, hfilter, hformula, -⟩ := hnames
    rw [only, if_pos (hkey rfl), ite_none_eq_self (by simpa using haggregation),
      ite_none_eq_self (by simpa using hsource), ite_none_eq_self (by simpa using hcollection),
      ite_nil_eq_self (by simpa using hfilter), ite_none_eq_self hformula, ← hm.isPlaceholder]

end Metric

/-! ### Timeframes -/

namespace Timeframe

theorem toJson_ne_null (t : Timeframe) : t.toJson ≠ .null := by
  cases t <;> simp [toJson]

/-- The members of a name in an object that is written. -/
theorem filter_ofFields (name : String) (written : List (String × Json)) :
    ((Json.Source.ofFields written).filter fun m => m.1 == some name) =
      (written.filter fun field => field.1 == name).map fun field =>
        (some field.1, Json.Source.ofJson field.2) := by
  rw [Json.Source.ofFields_eq_map, List.filter_map]
  rfl

section Single

variable {written : List (String × Json)}

theorem filter_name_eq_nil {name : String} (hname : name ∉ written.map Prod.fst) :
    (written.filter fun field => field.1 == name) = [] := by
  rw [List.filter_eq_nil_iff]
  intro field hf hn
  exact hname (beq_iff_eq.1 hn ▸ List.mem_map_of_mem hf)

theorem filter_name_eq_singleton (hnames : (written.map Prod.fst).Nodup) {field : String × Json}
    (hf : field ∈ written) : (written.filter fun f => f.1 == field.1) = [field] := by
  induction written with
  | nil => cases hf
  | cons f written ih =>
    rw [List.map_cons, List.nodup_cons] at hnames
    rcases List.mem_cons.1 hf with rfl | hf
    · rw [List.filter_cons_of_pos (by simp), filter_name_eq_nil hnames.1]
    · have hne : f.1 ≠ field.1 := fun he => hnames.1 (he ▸ List.mem_map_of_mem hf)
      rw [List.filter_cons_of_neg (by simpa using hne), ih hnames.2 hf]

theorem single_ofFields (hnames : (written.map Prod.fst).Nodup) {field : String × Json}
    (hf : field ∈ written) :
    single field.1 (Json.Source.ofFields written) = .ok (some (Json.Source.ofJson field.2)) := by
  rw [single, filter_ofFields, filter_name_eq_singleton hnames hf]
  rfl

theorem single_ofFields_of_not_mem {name : String} (hname : name ∉ written.map Prod.fst) :
    single name (Json.Source.ofFields written) = .ok none := by
  rw [single, filter_ofFields, filter_name_eq_nil hname]
  rfl

end Single

/-- An object that is written is well formed, so only its names tell the kind of timeframe. -/
theorem decode_ofFields (written : List (String × Json)) :
    decode (Json.Source.ofJson (.object written)) =
      match decodeLastItems (Json.Source.ofFields written) with
      | .ok t => .ok t
      | .error _ => decodeRange (Json.Source.ofFields written) := by
  obtain ⟨v, hv⟩ := Json.Source.exists_toJson_ofJson (.object written)
  rw [Json.Source.ofJson] at hv ⊢
  rw [decode, hv]
  rfl

theorem reads_lastItems {count : ℕ} (hcount : count < UInt64.size) :
    Reads decode (lastItems count).toJson (lastItems count) := by
  intro j' h
  cases h with
  | @object written moved _ h hmoved =>
    have hnodup := (Json.perm_names h hmoved).nodup_iff.2 (by simp)
    obtain ⟨_, hmem, ⟨_, hr⟩⟩ := Json.exists_reordering h hmoved (List.mem_singleton_self _)
    rw [decode_ofFields, decodeLastItems, single_ofFields hnodup hmem]
    change (match (Json.Decode.natBelow _ _ >>= _ : Except Json.Fault Timeframe) with
      | .ok t => _
      | .error _ => _) = _
    rw [reads_natBelow hcount _ hr]
    rfl

theorem reads_range {start stop : Option Json} (hstart : ∀ j ∈ start, j.Present)
    (hstop : ∀ j ∈ stop, j.Present) : Reads decode (range start stop).toJson (range start stop) := by
  intro j' h
  cases h with
  | @object written moved _ h hmoved =>
    have hnames := Json.perm_names h hmoved
    have hnodup := hnames.nodup_iff.2 (by simp)
    have hcount : "last_n_items" ∉ written.map Prod.fst := by
      rw [hnames.mem_iff]
      simp
    obtain ⟨⟨_, first⟩, hmem₁, ⟨_, hr₁⟩⟩ := Json.exists_reordering h hmoved List.mem_cons_self
    obtain ⟨⟨_, last⟩, hmem₂, ⟨_, hr₂⟩⟩ :=
      Json.exists_reordering h hmoved (List.mem_cons_of_mem _ List.mem_cons_self)
    have hfirst : decodeBound (some (Json.Source.ofJson first)) = .ok start :=
      reads_optional_getD hstart _ hr₁
    have hlast : decodeBound (some (Json.Source.ofJson last)) = .ok stop :=
      reads_optional_getD hstop _ hr₂
    rw [decode_ofFields, decodeLastItems, single_ofFields_of_not_mem hcount]
    change decodeRange _ = _
    rw [decodeRange, single_ofFields hnodup hmem₁, single_ofFields hnodup hmem₂]
    change (decodeBound _ >>= fun a => decodeBound _ >>= fun b => pure (range a b)) = _
    rw [hfirst, hlast]
    rfl

theorem reads_decode {t : Timeframe} (ht : t.Normal) : Reads decode t.toJson t := by
  cases t with
  | lastItems count => exact reads_lastItems ht
  | range start stop => exact reads_range ht.1 ht.2

end Timeframe

/-! ### Queries -/

namespace QueryDescriptor

variable (q : QueryDescriptor)

/-- The query with its fields of these names only. -/
def only (names : List String) : QueryDescriptor :=
  ⟨if "dimensions" ∈ names then q.dimensions else [], if "metrics" ∈ names then q.metrics else [],
    if "filter" ∈ names then q.filter else [], if "timeframe" ∈ names then q.timeframe else none,
    if "interval" ∈ names then q.interval else none, if "collection" ∈ names then q.collection else none⟩

/-- The fields of a query with their values. -/
def slots : List (String × Option Json) :=
  [("dimensions", some (.array (q.dimensions.map Dimension.toJson))),
    ("metrics", some (.array (q.metrics.map Metric.toJson))),
    ("filter", some (.array (q.filter.map Filter.toJson))), ("timeframe", q.timeframe.map Timeframe.toJson),
    ("interval", (q.interval.map Interval.token).map .string),
    ("collection", q.collection.map CollectionRef.toJson)]

theorem toJson_eq : q.toJson = .object (present q.slots) := by
  simp [toJson, slots, present_cons, optionalField, Function.comp_def]

variable {q}

theorem reads_decode (hq : q.Normal) : Reads decode q.toJson q := by
  rw [toJson_eq]
  refine Reads.record q.only ?_ (by simp [slots]) rfl fun names hnames => ?_
  · have hdimensions := Reads.listOf fun d hd => Dimension.reads_decode (hq.dimensions d hd)
    have hmetrics := Reads.listOf fun m hm => Metric.reads_decode (hq.metrics m hm)
    have hfilter := Reads.listOf fun f hf => Filter.reads_decode (hq.filter f hf)
    simp only [slots, List.forall₂_cons, List.Forall₂.nil, and_true]
    refine ⟨.written rfl fun names => ?_, .written rfl fun names => ?_, .written rfl fun names => ?_,
      .optional rfl rfl fun j hj names => ?_, .optional rfl rfl fun j hj names => ?_,
      .optional rfl rfl fun j hj names => ?_⟩
    · exact hdimensions.map (by simp [only])
    · exact hmetrics.map (by simp [only])
    · exact hfilter.map (by simp [only])
    · have htimeframe := reads_optional _ Timeframe.toJson_ne_null
        (fun t ht => Timeframe.reads_decode (hq.timeframe t ht)) j hj
      exact htimeframe.map (by simp [only])
    · have hinterval : (q.interval.map Interval.token).map Interval.ofToken = q.interval :=
        map_map_eq_self hq.interval
      exact (reads_optional_string j hj).map (by simp [only, hinterval])
    · exact (CollectionRef.reads_optional_decode j hj).map (by simp [only])
  · simp only [slots, List.forall_mem_cons] at hnames
    obtain ⟨hdimensions, hmetrics, hfilter, htimeframe, hinterval, hcollection, -⟩ := hnames
    rw [only, if_pos (hdimensions rfl), if_pos (hmetrics rfl), if_pos (hfilter rfl),
      ite_none_eq_self (by simpa using htimeframe), ite_none_eq_self (by simpa using hinterval),
      ite_none_eq_self (by simpa using hcollection)]

/-- A query is read from what it is written as if and only if it is normal. -/
theorem normal_iff : q.Normal ↔ ofJson? q.toJson = some q := by
  constructor
  · intro hq
    exact toOption_eq_some_iff.2 (reads_decode hq _ (.refl _))
  · intro h
    exact normal_of_decode (toOption_eq_some_iff.1 h)

/-- The identifier of a plan is not in its sub-queries. -/
theorem subQueries_compile (hash : String → String) (defaultInterval : Interval) (uid uid' : String)
    (q : QueryDescriptor) :
    (QueryPlan.compile hash defaultInterval uid q).map QueryPlan.subQueries =
      (QueryPlan.compile hash defaultInterval uid' q).map QueryPlan.subQueries := by
  unfold QueryPlan.compile
  split <;> rfl

/-- Whatever value or text a query was read from, and in whatever order the fields of its objects are
written, be it the order of `toJson`: it is read again from what it is written as, it is written again
alike, and its plans have the same sub-queries. -/
theorem read_again {s : Json.Source} (h : decode s = .ok q) {written : Json}
    (hw : written.Reorders q.toJson) :
    ofJson? written = some q ∧ (ofJson? written).map toJson = some q.toJson ∧
      ∀ hash defaultInterval uid uid',
        (ofJson? written).map
            (fun r => (QueryPlan.compile hash defaultInterval uid r).map QueryPlan.subQueries) =
          some ((QueryPlan.compile hash defaultInterval uid' q).map QueryPlan.subQueries) := by
  have hread : ofJson? written = some q :=
    toOption_eq_some_iff.2 (reads_decode (normal_of_decode h) written hw)
  refine ⟨hread, by rw [hread]; rfl, fun hash defaultInterval uid uid' => ?_⟩
  rw [hread, Option.map_some, subQueries_compile hash defaultInterval uid uid' q]

/-- A request with many of the forms in which a query may be given. -/
def report : Json :=
  .object
    [("interval", .string "36h"),
      ("dimensions", .array
        [.object [("attribute", .null), ("datatype", .string "date"), ("key", .string "day")],
          .array [.string "place", .string "region"]]),
      ("timeframe", .object [("start", .string "2024-01-01")]),
      ("metrics", .array
        [.array [.string "load", .string "Average", .null, .array [.string "hosts"]],
          .object [("key", .string "users"), ("aggregation", .string "ucount"),
            ("filter", .array [.array [.string "land", .string "$eq", .string "at"]])],
          .object [("note", .bool true), ("key", .string "peak"), ("aggregation", .string "P99")],
          .object [("key", .string "ratio"),
            ("formula", .object [("over", .string "users"), ("of", .string "load")])]]),
      ("filter", .array [.array [.string "age", .object [("$gte", .null)], .number (.int 18)]])]

/-- The query of that request. -/
def reportQuery : QueryDescriptor where
  dimensions := [⟨"day", .date, none, none⟩, ⟨"place", .unknown "region", none, none⟩]
  metrics :=
    [{ Metric.named "load" with aggregation := some .mean, collection := some ⟨"hosts", none⟩ },
      { Metric.named "users" with aggregation := some .distinct, filter := [⟨"land", .eq, .string "at"⟩] },
      { Metric.named "peak" with aggregation := some (.other "P99") },
      { Metric.named "ratio" with
        formula := some (.object [("of", .string "load"), ("over", .string "users")]) }]
  filter := [⟨"age", .gte, .number (.int 18)⟩]
  timeframe := some (.range (some (.string "2024-01-01")) none)
  interval := some (.raw "36h")
  collection := none

theorem read_again_report :
    decode (.ofJson report) = .ok reportQuery ∧
      ofJson? (.object (present reportQuery.slots).reverse) = some reportQuery := by
  have h : decode (.ofJson report) = .ok reportQuery := by decide +kernel
  have hw : Json.Reorders (.object (present reportQuery.slots).reverse) reportQuery.toJson := by
    rw [toJson_eq]
    exact .object (List.forall₂_same.2 fun field _ => .intro field.1 (.refl field.2)) (List.reverse_perm _)
  exact ⟨h, (read_again h hw).1⟩

end QueryDescriptor

end SeriesPivot
