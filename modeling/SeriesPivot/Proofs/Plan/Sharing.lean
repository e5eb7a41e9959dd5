import SeriesPivot.Proofs.Json.Quotation
import SeriesPivot.Proofs.Plan.Serving
import Mathlib.Data.Set.Card

/-!
# Which metrics share a sub-query

A sub-query is told apart from others by the hash of its collection, an underscore and the text of its
conditions. Under a hash without collisions, two metrics share a sub-query if and only if they read one
collection under the same conditions, whatever their names and values are made of.

* `Match.shape` are conditions with their numbers as they are written.
* `SubQuery.needs` is what a metric needs of its sub-query.
* `keyFor_eq_iff`: metrics have one key if and only if they have the same needs.
-/

namespace SeriesPivot

/-- Conditions with the numbers of their values as they are written. -/
def Match.shape (m : Match) : List (String × List (Operator × Json.Shape)) :=
  m.map fun onField => (onField.1, onField.2.map fun condition => (condition.1, condition.2.shape))

theorem Operator.name_injective : Function.Injective Operator.name := by
  intro a b h
  cases a <;> cases b <;> first | rfl | (revert h; decide)

/-- The text of conditions tells them up to the way in which numbers are written. -/
theorem Match.shape_toJson_eq_iff {m n : Match} : m.toJson.shape = n.toJson.shape ↔ m.shape = n.shape := by
  let object (conditions : List (Operator × Json.Shape)) : Json.Shape :=
    .object (conditions.map fun condition => (condition.1.name, condition.2))
  have hobject : Function.Injective object := by
    intro c d h
    refine List.map_injective_iff.2 ?_ (Json.Shape.object.inj h)
    rintro ⟨o, v⟩ ⟨p, w⟩ he
    obtain ⟨hname, hvalue⟩ := Prod.mk.inj he
    exact Prod.ext (Operator.name_injective hname) hvalue
  have hshape : ∀ m : Match,
      m.toJson.shape = .object (m.shape.map fun onField => (onField.1, object onField.2)) := by
    intro m
    simp [Match.toJson, Match.shape, Json.shape, Json.shapeFields_eq_map, object, Function.comp_def]
  rw [hshape, hshape, Json.Shape.object.injEq]
  refine (List.map_injective_iff.2 ?_).eq_iff
  rintro ⟨f, c⟩ ⟨g, d⟩ he
  obtain ⟨hfield, hconditions⟩ := Prod.mk.inj he
  exact Prod.ext hfield (hobject hconditions)

namespace SubQuery

/-- What a metric needs of its sub-query: the collection and the conditions. -/
def needs (base : Clauses) (item : Metric × CollectionRef) :
    String × List (String × List (Operator × Json.Shape)) :=
  (item.2.key, (base.conditions.restrict item.1.filter).shape)

/-- Under a hash without collisions, metrics have one key if and only if they have the same needs. -/
theorem keyFor_eq_iff {hash : String → String} (hhash : Function.Injective hash) (base : Clauses)
    (a b : Metric × CollectionRef) :
    keyFor hash base a.1 a.2 = keyFor hash base b.1 b.2 ↔ needs base a = needs base b := by
  unfold keyFor identity needs
  simp only [clausesFor, Clauses.withFilters_eq]
  rw [hhash.eq_iff, Prod.mk.injEq, ← Match.shape_toJson_eq_iff]
  constructor
  · exact Json.labelled_compress_inj
  · rintro ⟨hkey, hshape⟩
    rw [hkey, Json.compress_eq_iff.2 hshape]

end SubQuery

/-- Functions that tell the same points of a set apart have images of one size. -/
theorem ncard_image_eq_of_eq_iff {α β γ : Type} {s : Set α} {f : α → β} {g : α → γ}
    (h : ∀ a ∈ s, ∀ b ∈ s, f a = f b ↔ g a = g b) : (f '' s).ncard = (g '' s).ncard := by
  -- each point of the one image has a preimage, which stands for a point of the other
  choose pick hpick hf using fun y : f '' s => y.2
  refine Set.ncard_congr (fun y hy => g (pick ⟨y, hy⟩)) ?_ ?_ ?_
  · intro y hy
    exact ⟨pick ⟨y, hy⟩, hpick _, rfl⟩
  · intro y z hy hz he
    exact ((hf ⟨y, hy⟩).symm.trans ((h _ (hpick _) _ (hpick _)).2 he)).trans (hf ⟨z, hz⟩)
  · rintro z ⟨a, ha, rfl⟩
    exact ⟨f a, ⟨a, ha, rfl⟩, (h _ (hpick _) _ ha).1 (hf ⟨f a, a, ha, rfl⟩)⟩

/-! ### Metrics and their sub-queries -/

namespace SubQuery

/-- A sub-query serves the metrics of its group and no other. -/
theorem mem_metrics_iff {base : Clauses} {limit : Option Nat} {key : String}
    {group : List (Metric × CollectionRef)} {s : SubQuery} (h : ofGroup base limit key group = some s)
    (name : String) : name ∈ s.metrics ↔ ∃ item ∈ group, item.1.key = name := by
  cases group with
  | nil => cases h
  | cons first rest =>
    cases h
    simp only [List.mem_eraseDups, List.mem_map]

/-- The sub-query of a group has what the first metric of the group needs. -/
theorem exists_first {base : Clauses} {limit : Option Nat} {key : String}
    {group : List (Metric × CollectionRef)} {s : SubQuery} (h : ofGroup base limit key group = some s) :
    ∃ first ∈ group, s.key = key ∧ s.collection = first.2.key ∧
      s.clauses.conditions = base.conditions.restrict first.1.filter := by
  cases group with
  | nil => cases h
  | cons first rest =>
    cases h
    exact ⟨first, by simp, rfl, rfl, rfl⟩

end SubQuery

namespace QueryPlan

/-- The sub-query that serves a metric. -/
def serving? (hash : String → String) (base : Clauses) (plan : QueryPlan)
    (item : Metric × CollectionRef) : Option SubQuery :=
  Assoc.find? (SubQuery.keyFor hash base item.1 item.2) plan.subQueries

/-- What a query is compiled to. -/
theorem eq_of_compile_eq_ok {hash : String → String} {defaultInterval : Interval} {uid : String}
    {q : QueryDescriptor} {plan : QueryPlan} (h : compile hash defaultInterval uid q = .ok plan) :
    plan = ⟨uid, q.executables.foldl
      (SubQuery.serve hash (Clauses.shared defaultInterval q) q.limit) [], q.dimensions, q.metrics,
      q.limit, q.dimensions.any fun d => d.datatype == .date⟩ := by
  rw [compile_eq] at h
  cases hu : q.unknownDimension? with
  | some e => simp [hu] at h
  | none => simpa [hu, eq_comm] using h

variable {hash : String → String} {defaultInterval : Interval} {uid : String} {q : QueryDescriptor}
  {plan : QueryPlan}

/-- The sub-query under a key of a compiled plan is the one of its group. -/
theorem find?_subQueries (h : compile hash defaultInterval uid q = .ok plan) (key : String) :
    Assoc.find? key plan.subQueries = SubQuery.ofGroup (Clauses.shared defaultInterval q) q.limit key
      (SubQuery.groupOf hash (Clauses.shared defaultInterval q) q.executables key) := by
  rw [eq_of_compile_eq_ok h]
  exact SubQuery.find?_foldl_serve hash _ _ _ _

theorem sorted_subQueries (h : compile hash defaultInterval uid q = .ok plan) :
    Assoc.Sorted plan.subQueries := by
  rw [eq_of_compile_eq_ok h]
  exact SubQuery.sorted_foldl_serve hash _ _ _

/-- Every metric is served under its key. -/
theorem exists_serving?_eq (h : compile hash defaultInterval uid q = .ok plan)
    {item : Metric × CollectionRef} (hi : item ∈ q.executables) :
    ∃ s, plan.serving? hash (Clauses.shared defaultInterval q) item = some s ∧
      s.key = SubQuery.keyFor hash (Clauses.shared defaultInterval q) item.1 item.2 ∧
      item.1.key ∈ s.metrics := by
  unfold serving?
  rw [find?_subQueries h]
  set base := Clauses.shared defaultInterval q
  set group := SubQuery.groupOf hash base q.executables (SubQuery.keyFor hash base item.1 item.2)
    with hgroup
  have hmem : item ∈ group := by simp [hgroup, SubQuery.groupOf, hi]
  obtain ⟨s, hs⟩ := Option.isSome_iff_exists.1
    ((SubQuery.ofGroup_isSome_iff base q.limit (SubQuery.keyFor hash base item.1 item.2) group).2
      (List.ne_nil_of_mem hmem))
  obtain ⟨_, _, hkey, _⟩ := SubQuery.exists_first hs
  exact ⟨s, hs, hkey, (SubQuery.mem_metrics_iff hs _).2 ⟨item, hmem, rfl⟩⟩

/-- Metrics are served by one sub-query if and only if they have one key. -/
theorem serving?_eq_iff_keyFor_eq (h : compile hash defaultInterval uid q = .ok plan)
    {a b : Metric × CollectionRef} (ha : a ∈ q.executables) (hb : b ∈ q.executables) :
    plan.serving? hash (Clauses.shared defaultInterval q) a =
        plan.serving? hash (Clauses.shared defaultInterval q) b ↔
      SubQuery.keyFor hash (Clauses.shared defaultInterval q) a.1 a.2 =
        SubQuery.keyFor hash (Clauses.shared defaultInterval q) b.1 b.2 := by
  obtain ⟨s, hs, hkey, _⟩ := exists_serving?_eq h ha
  obtain ⟨t, ht, htkey, _⟩ := exists_serving?_eq h hb
  refine ⟨fun he => ?_, fun he => by rw [serving?, serving?, he]⟩
  rw [hs, ht, Option.some.injEq] at he
  rw [← hkey, ← htkey, he]

/-- The sub-query that serves a metric has what the metric needs. -/
theorem needs_serving? (hhash : Function.Injective hash)
    (h : compile hash defaultInterval uid q = .ok plan) {item : Metric × CollectionRef}
    {s : SubQuery} (hs : plan.serving? hash (Clauses.shared defaultInterval q) item = some s) :
    (s.collection, s.clauses.conditions.shape) =
      SubQuery.needs (Clauses.shared defaultInterval q) item := by
  rw [serving?, find?_subQueries h] at hs
  obtain ⟨first, hfirst, -, hcollection, hconditions⟩ := SubQuery.exists_first hs
  have hkey := (List.mem_filter.1 hfirst).2
  rw [beq_iff_eq, SubQuery.keyFor_eq_iff hhash] at hkey
  rw [hcollection, hconditions]
  exact hkey

/-- Under a hash without collisions, metrics are served by one sub-query if and only if they read one
collection under the same conditions, so there are as many sub-queries as such pairs. -/
theorem serving?_eq_iff (hhash : Function.Injective hash)
    (h : compile hash defaultInterval uid q = .ok plan) :
    let base := Clauses.shared defaultInterval q
    (∀ item ∈ q.executables, ∃ s, plan.serving? hash base item = some s ∧ item.1.key ∈ s.metrics ∧
      (s.collection, s.clauses.conditions.shape) = SubQuery.needs base item) ∧
    (∀ a ∈ q.executables, ∀ b ∈ q.executables,
      plan.serving? hash base a = plan.serving? hash base b ↔
        SubQuery.needs base a = SubQuery.needs base b) ∧
    plan.subQueries.length = (SubQuery.needs base '' {item | item ∈ q.executables}).ncard := by
  intro base
  refine ⟨fun item hi => ?_, fun a ha b hb => ?_, ?_⟩
  · obtain ⟨s, hs, -, hmem⟩ := exists_serving?_eq h hi
    exact ⟨s, hs, hmem, needs_serving? hhash h hs⟩
  · rw [serving?_eq_iff_keyFor_eq h ha hb, SubQuery.keyFor_eq_iff hhash]
  · have hkeys := (SubQuery.keys_foldl_serve hash base q.limit q.executables).length_eq
    rw [List.length_map] at hkeys
    rw [eq_of_compile_eq_ok h, hkeys, ← ncard_image_eq_of_eq_iff
      (f := fun item : Metric × CollectionRef => SubQuery.keyFor hash base item.1 item.2)
      fun a _ b _ => SubQuery.keyFor_eq_iff hhash base a b]
    rw [← List.toFinset_card_of_nodup (nodup_eraseDups _), ← Set.ncard_coe_finset]
    congr 1
    ext key
    simp

/-- Two metrics over one collection under one condition, and one over a collection that is named like
the two of them. -/
def lookalikes : QueryDescriptor :=
  let onA : Metric := { Metric.named "sum" with
    collection := some ⟨"a", none⟩, filter := [⟨"x", .eq, .string "b_\"\\"⟩] }
  { QueryDescriptor.empty with
    metrics := [onA, { Metric.named "other" with
      collection := some ⟨"a_\x7b\"x\":\x7b\"eq\":\"b_\\\"\\\\\"\x7d\x7d", none⟩ },
      { onA with key := "mean" }] }

theorem serving?_eq_iff_lookalikes :
    ∃ plan, compile id .day "uid" lookalikes = .ok plan ∧ Function.Injective (id : String → String) ∧
    plan.subQueries.length = 2 ∧
    let base := Clauses.shared .day lookalikes
    (∀ item ∈ lookalikes.executables, ∃ s, plan.serving? id base item = some s ∧
      item.1.key ∈ s.metrics ∧
      (s.collection, s.clauses.conditions.shape) = SubQuery.needs base item) ∧
    (∀ a ∈ lookalikes.executables, ∀ b ∈ lookalikes.executables,
      plan.serving? id base a = plan.serving? id base b ↔
        SubQuery.needs base a = SubQuery.needs base b) ∧
    plan.subQueries.length = (SubQuery.needs base '' {item | item ∈ lookalikes.executables}).ncard :=
  ⟨_, rfl, Function.injective_id, by decide, serving?_eq_iff Function.injective_id rfl⟩

end QueryPlan

end SeriesPivot
