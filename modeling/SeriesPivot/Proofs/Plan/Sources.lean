import SeriesPivot.Proofs.Descriptor.Normal
import SeriesPivot.Proofs.Plan.Sharing
import SeriesPivot.Statement

/-!
# Where a metric is read, and under which conditions

A metric is restricted by the bounds of time of its query, the filters of its query and its own filters,
in this order. The conditions of a sub-query keep one value for each field and operator, and its
measurement is the one of the metric that came first.

* `Filter.InEffect`: no later filter of a list is about the same field and operator.
* `mem_predicates_restrict_iff`: conditions hold exactly the filters in effect.
* `QueryPlan.serving?_restricted`: a metric is read under exactly the filters in effect on it.
* `QueryPlan.serving?_measurement`: a metric is read from the measurement of the first metric with its
  needs.
-/

namespace SeriesPivot

/-! ### Filters in effect -/

namespace Filter

/-- Whether a filter is about the field and the operator of another one. -/
def Replaces (g f : Filter) : Prop :=
  g.field = f.field ∧ g.operator = f.operator

/-- A filter of a list that no later one replaces. -/
def InEffect (f : Filter) (filters : List Filter) : Prop :=
  ∃ before after, filters = before ++ f :: after ∧ ∀ g ∈ after, ¬ g.Replaces f

theorem InEffect.mem {f : Filter} {filters : List Filter} (h : f.InEffect filters) : f ∈ filters := by
  obtain ⟨before, after, rfl, -⟩ := h
  simp

theorem not_inEffect_nil (f : Filter) : ¬ f.InEffect [] := fun h => by simpa using h.mem

/-- One more filter is in effect, and it ends the effect of those that it replaces. -/
theorem inEffect_concat_iff (f g : Filter) (filters : List Filter) :
    f.InEffect (filters ++ [g]) ↔ f = g ∨ ¬ g.Replaces f ∧ f.InEffect filters := by
  constructor
  · rintro ⟨before, after, heq, hafter⟩
    rcases List.eq_nil_or_concat after with rfl | ⟨after, last, rfl⟩
    · obtain ⟨-, hfg⟩ := List.append_inj' heq rfl
      exact .inl (List.singleton_inj.1 hfg).symm
    · rw [List.concat_eq_append, ← List.cons_append, ← List.append_assoc] at heq
      obtain ⟨rfl, hlast⟩ := List.append_inj' heq rfl
      obtain rfl := List.singleton_inj.1 hlast
      refine .inr ⟨hafter _ (by simp), before, after, rfl, fun r hr => hafter r (by simp [hr])⟩
  · rintro (rfl | ⟨hg, before, after, rfl, hafter⟩)
    · exact ⟨filters, [], rfl, by simp⟩
    · refine ⟨before, after ++ [g], by simp, ?_⟩
      simp only [List.mem_append, List.mem_singleton]
      rintro r (hr | rfl)
      · exact hafter r hr
      · exact hg

end Filter

/-! ### Conditions by field and operator -/

namespace Match

/-- The value that a field is compared with by an operator. -/
def value? (field : String) (operator : Operator) (m : Match) : Option Json :=
  (Assoc.find? field m).bind (Assoc.find? operator)

/-- Fields increase, and so do the operators on each of them. -/
def Ordered (m : Match) : Prop :=
  Assoc.Sorted m ∧ ∀ onField ∈ m, Assoc.Sorted onField.2

theorem ordered_nil : Ordered [] := ⟨Assoc.sorted_nil, by simp⟩

/-- The conditions of ordered conditions are the values that they hold. -/
theorem mem_predicates_iff {m : Match} (h : m.Ordered) {field : String} {operator : Operator}
    {value : Json} :
    (field, operator, value) ∈ Statement.predicates m ↔ m.value? field operator = some value := by
  simp only [Statement.predicates, List.mem_flatMap, List.mem_map, Prod.mk.injEq, value?,
    Option.bind_eq_some_iff]
  constructor
  · rintro ⟨⟨field', conditions⟩, hfield, ⟨operator', value'⟩, hcondition, rfl, rfl, rfl⟩
    exact ⟨conditions, (Assoc.find?_eq_some_iff (Assoc.nodup_keys h.1)).2 hfield,
      (Assoc.find?_eq_some_iff (Assoc.nodup_keys (h.2 _ hfield))).2 hcondition⟩
  · rintro ⟨conditions, hfield, hcondition⟩
    exact ⟨(field, conditions), Assoc.mem_of_find? hfield, (operator, value),
      Assoc.mem_of_find? hcondition, rfl, rfl, rfl⟩

theorem value?_put (m : Match) (f : Filter) (field : String) (operator : Operator) :
    (m.put f).value? field operator =
      if f.field = field ∧ f.operator = operator then some f.value else m.value? field operator := by
  unfold put value?
  rw [Assoc.find?_insert]
  by_cases hfield : field = f.field
  · subst hfield
    rw [if_pos rfl, Option.bind_some, Assoc.find?_insert]
    by_cases hoperator : operator = f.operator
    · simp [hoperator]
    · rw [if_neg hoperator, if_neg fun h => hoperator h.2.symm]
      cases Assoc.find? f.field m <;> rfl
  · rw [if_neg hfield, if_neg fun h => hfield h.1.symm]

theorem Ordered.put {m : Match} (h : m.Ordered) (f : Filter) : (m.put f).Ordered := by
  refine ⟨Assoc.sorted_insert _ _ h.1, fun onField hmem => ?_⟩
  rcases Assoc.mem_insert hmem with rfl | hmem
  · refine Assoc.sorted_insert _ _ ?_
    cases hfield : Assoc.find? f.field m with
    | none => exact Assoc.sorted_nil
    | some conditions => exact h.2 _ (Assoc.mem_of_find? hfield)
  · exact h.2 onField hmem

theorem ordered_restrict (filters : List Filter) : (restrict [] filters).Ordered := by
  induction filters using List.reverseRecOn with
  | nil => exact ordered_nil
  | append_singleton filters f ih =>
    rw [restrict_concat]
    exact ih.put f

/-- After any filters, the conditions hold exactly those in effect. -/
theorem mem_predicates_restrict_iff (filters : List Filter) (f : Filter) :
    (f.field, f.operator, f.value) ∈ Statement.predicates (restrict [] filters) ↔
      f.InEffect filters := by
  rw [mem_predicates_iff (ordered_restrict filters)]
  induction filters using List.reverseRecOn with
  | nil => simpa [value?, restrict] using Filter.not_inEffect_nil f
  | append_singleton filters g ih =>
    rw [restrict_concat, value?_put, Filter.inEffect_concat_iff, ← ih]
    split_ifs with hg
    · -- the new filter is the only one about this field and operator
      have hsame : f = g ↔ g.value = f.value := by
        cases f
        cases g
        simp_all [Filter.mk.injEq, eq_comm]
      simp [hsame, Filter.Replaces, hg]
    · have hne : f ≠ g := by
        rintro rfl
        exact hg ⟨rfl, rfl⟩
      simp [hne, Filter.Replaces, hg]

end Match

/-! ### The filters on a metric -/

/-- The filters on a metric: the bounds of time, the filters of the query and its own. -/
def QueryDescriptor.filtersOn (q : QueryDescriptor) (m : Metric) : List Filter :=
  (q.timeframe.map Timeframe.filters).getD [] ++ q.filter ++ m.filter

namespace Clauses

/-- Dimensions leave the conditions that are there. -/
theorem foldl_addDimension_eq (interval : Interval) (dimensions : List Dimension) (c : Clauses)
    (m : Match) : dimensions.foldl (addDimension interval) { c with conditions := m } =
      { dimensions.foldl (addDimension interval) c with conditions := m } := by
  induction dimensions generalizing c with
  | nil => rfl
  | cons d dimensions ih =>
    have hstep : addDimension interval { c with conditions := m } d =
        { addDimension interval c d with conditions := m } := by
      unfold addDimension
      cases d.datatype <;> rfl
    rw [List.foldl_cons, hstep, ih, List.foldl_cons]

end Clauses

/-- The filters on a metric decide the conditions of its clauses and nothing else. -/
theorem SubQuery.clausesFor_shared (defaultInterval : Interval) (q : QueryDescriptor) (m : Metric) :
    clausesFor (Clauses.shared defaultInterval q) m =
      { q.dimensions.foldl (Clauses.addDimension (q.interval.getD defaultInterval)) Clauses.empty with
        conditions := Match.restrict [] (q.filtersOn m) } := by
  have hshared : Clauses.shared defaultInterval q =
      { q.dimensions.foldl (Clauses.addDimension (q.interval.getD defaultInterval)) Clauses.empty with
        conditions := Match.restrict [] ((q.timeframe.map Timeframe.filters).getD [] ++ q.filter) } :=
    Clauses.foldl_addDimension_eq (q.interval.getD defaultInterval) q.dimensions Clauses.empty _
  rw [clausesFor, Clauses.withFilters_eq, hshared, QueryDescriptor.filtersOn,
    Match.restrict_append [] _ m.filter]

/-- The conditions that a metric needs come from the filters on it and from nothing else. -/
theorem Clauses.restrict_shared (defaultInterval : Interval) (q : QueryDescriptor) (m : Metric) :
    (shared defaultInterval q).conditions.restrict m.filter = Match.restrict [] (q.filtersOn m) := by
  have hclauses := SubQuery.clausesFor_shared defaultInterval q m
  rw [SubQuery.clausesFor, withFilters_eq] at hclauses
  exact congrArg Clauses.conditions hclauses

/-! ### Queries as they are kept -/

open Json.Decode (Keeps)

theorem Filter.keeps_decode : Keeps Filter.decode fun f => f.value.Canonical :=
  keepsOn_decode Json.Decode.hereditary_canonical Json.Decode.keeps_json

/-- The values of all filters of a query are canonical. -/
structure QueryDescriptor.Kept (q : QueryDescriptor) : Prop where
  filter : ∀ f ∈ q.filter, f.value.Canonical
  metrics : ∀ m ∈ q.metrics, ∀ f ∈ m.filter, f.value.Canonical

theorem Metric.keeps_decode : Keeps Metric.decode fun m => ∀ f ∈ m.filter, f.value.Canonical := by
  refine Keeps.record (by simp [named]) ?_
  simp only [List.forall_mem_cons]
  refine ⟨fun m hm => ?_, fun m hm => ?_, fun m hm => ?_, fun m hm => ?_, fun m _ => ?_,
    fun m hm => ?_, by simp⟩
  · exact (Json.Decode.keeps_true _).map fun _ _ => hm
  · exact (Json.Decode.keeps_true _).map fun _ _ => hm
  · exact (Json.Decode.keeps_true _).map fun _ _ => hm
  · exact (Json.Decode.keeps_true _).map fun _ _ => hm
  · exact Filter.keeps_decode.listOf.map fun _ h => h
  · exact (Json.Decode.keeps_true _).map fun _ _ => hm

theorem QueryDescriptor.keeps_decode : Keeps QueryDescriptor.decode QueryDescriptor.Kept := by
  refine Keeps.record ⟨by simp [empty], by simp [empty]⟩ ?_
  simp only [List.forall_mem_cons]
  refine ⟨fun q hq => ?_, fun q hq => ?_, fun q hq => ?_, fun q hq => ?_, fun q hq => ?_,
    fun q hq => ?_, by simp⟩
  · exact (Json.Decode.keeps_true _).map fun _ _ => ⟨hq.filter, hq.metrics⟩
  · exact Metric.keeps_decode.listOf.map fun _ h => ⟨hq.filter, h⟩
  · exact Filter.keeps_decode.listOf.map fun _ h => ⟨h, hq.metrics⟩
  · exact (Json.Decode.keeps_true _).map fun _ _ => ⟨hq.filter, hq.metrics⟩
  · exact (Json.Decode.keeps_true _).map fun _ _ => ⟨hq.filter, hq.metrics⟩
  · exact (Json.Decode.keeps_true _).map fun _ _ => ⟨hq.filter, hq.metrics⟩

/-- Every query that is read from a text is kept so. -/
theorem QueryDescriptor.kept_of_fromText? {text : String} {q : QueryDescriptor}
    (h : Json.Decode.fromText? decode text = some q) : q.Kept :=
  keeps_decode.fromText? h

/-- A metric that is read from the store is one of the query's, or a stand-in without filters. -/
theorem QueryDescriptor.mem_metrics_or_filter_eq_nil {q : QueryDescriptor}
    {item : Metric × CollectionRef} (hi : item ∈ q.executables) :
    item.1 ∈ q.metrics ∨ item.1.filter = [] := by
  by_cases hmetrics : q.metrics = []
  · rw [executables_eq_served, served, hmetrics] at hi
    obtain ⟨c, -, rfl⟩ := Option.map_eq_some_iff.1 (Option.mem_toList.1 hi)
    exact .inr rfl
  · exact .inl (mem_executables hmetrics hi).1

theorem Timeframe.canonical_filters (t : Timeframe) : ∀ f ∈ t.filters, f.value.Canonical := by
  cases t with
  | lastItems count => simp [filters]
  | range start stop =>
    intro f hf
    -- the value of a bound is a text
    rcases List.mem_append.1 hf with hf | hf <;>
      obtain ⟨t, -, rfl⟩ := Option.map_eq_some_iff.1 (Option.mem_toList.1 hf)
    · exact .string _
    · exact .string _

/-- The values of all filters on a metric are canonical. -/
theorem QueryDescriptor.Kept.filtersOn {q : QueryDescriptor} (hq : q.Kept)
    {item : Metric × CollectionRef} (hi : item ∈ q.executables) :
    ∀ f ∈ q.filtersOn item.1, f.value.Canonical := by
  intro f hf
  unfold QueryDescriptor.filtersOn at hf
  rcases List.mem_append.1 hf with hf | hf
  · rcases List.mem_append.1 hf with hf | hf
    · cases ht : q.timeframe with
      | none => simp [ht] at hf
      | some t => exact t.canonical_filters f (by simpa [ht] using hf)
    · exact hq.filter f hf
  · rcases q.mem_metrics_or_filter_eq_nil hi with hm | hnil
    · exact hq.metrics item.1 hm f hf
    · simp [hnil] at hf

/-- Conditions are canonical if the filters are that they come from. -/
theorem Match.canonical_restrict {filters : List Filter} (h : ∀ f ∈ filters, f.value.Canonical) :
    ∀ onField ∈ restrict [] filters, ∀ condition ∈ onField.2, condition.2.Canonical := by
  rintro ⟨field, conditions⟩ hfield ⟨operator, value⟩ hcondition
  have hmem : (field, operator, value) ∈ Statement.predicates (restrict [] filters) :=
    List.mem_flatMap.2 ⟨_, hfield, List.mem_map.2 ⟨_, hcondition, rfl⟩⟩
  exact h _ ((mem_predicates_restrict_iff filters ⟨field, operator, value⟩).1 hmem).mem

/-- Conditions with canonical values are told by their shapes. -/
theorem Match.eq_of_shape_eq {m n : Match}
    (hm : ∀ onField ∈ m, ∀ condition ∈ onField.2, condition.2.Canonical)
    (hn : ∀ onField ∈ n, ∀ condition ∈ onField.2, condition.2.Canonical) (h : m.shape = n.shape) :
    m = n := by
  refine Json.eq_of_map_eq (fun a ha b hb hab => ?_) h
  obtain ⟨hfield, hconditions⟩ := Prod.mk.inj hab
  refine Prod.ext hfield (Json.eq_of_map_eq (fun c hc d hd hcd => ?_) hconditions)
  obtain ⟨hoperator, hvalue⟩ := Prod.mk.inj hcd
  exact Prod.ext hoperator (Json.eq_of_shape_eq (hm a ha c hc) (hn b hb d hd) hvalue)

namespace QueryPlan

variable {hash : String → String} {defaultInterval : Interval} {uid : String} {q : QueryDescriptor}
  {plan : QueryPlan}

/-! ### Conditions -/

/-- The conditions of the sub-query that serves a metric are those of the filters on the metric. -/
theorem conditions_of_serving? (hhash : Function.Injective hash) (hq : q.Kept)
    (h : compile hash defaultInterval uid q = .ok plan) {item : Metric × CollectionRef}
    (hi : item ∈ q.executables) {s : SubQuery}
    (hs : plan.serving? hash (Clauses.shared defaultInterval q) item = some s) :
    s.clauses.conditions = Match.restrict [] (q.filtersOn item.1) := by
  have hshape := (Prod.mk.inj (needs_serving? hhash h hs)).2
  rw [serving?, find?_subQueries h] at hs
  obtain ⟨first, hfirst, -, -, hconditions⟩ := SubQuery.exists_first hs
  rw [hconditions, Clauses.restrict_shared, Clauses.restrict_shared] at hshape
  rw [hconditions, Clauses.restrict_shared]
  exact Match.eq_of_shape_eq
    (Match.canonical_restrict (hq.filtersOn (List.mem_of_mem_filter hfirst)))
    (Match.canonical_restrict (hq.filtersOn hi)) hshape

/-- Under a hash without collisions, the sub-query that serves a metric is restricted by exactly the
filters in effect on the metric, so a point that satisfies its conditions satisfies all of them. -/
theorem serving?_restricted (hhash : Function.Injective hash) (hq : q.Kept)
    (h : compile hash defaultInterval uid q = .ok plan) {item : Metric × CollectionRef}
    (hi : item ∈ q.executables) :
    ∃ s, plan.serving? hash (Clauses.shared defaultInterval q) item = some s ∧
      item.1.key ∈ s.metrics ∧
      (∀ f : Filter, (f.field, f.operator, f.value) ∈ Statement.predicates s.clauses.conditions ↔
        f.InEffect (q.filtersOn item.1)) ∧
      ∀ satisfied : String × Operator × Json → Prop,
        (∀ p ∈ Statement.predicates s.clauses.conditions, satisfied p) ↔
          ∀ f : Filter, f.InEffect (q.filtersOn item.1) → satisfied (f.field, f.operator, f.value) := by
  obtain ⟨s, hs, -, hmem⟩ := exists_serving?_eq h hi
  have hiff : ∀ f : Filter,
      (f.field, f.operator, f.value) ∈ Statement.predicates s.clauses.conditions ↔
        f.InEffect (q.filtersOn item.1) := by
    intro f
    rw [conditions_of_serving? hhash hq h hi hs]
    exact Match.mem_predicates_restrict_iff _ f
  refine ⟨s, hs, hmem, hiff, fun satisfied => ⟨fun hall f hf => ?_, fun hall p hp => ?_⟩⟩
  · exact hall _ ((hiff f).2 hf)
  · exact hall ⟨p.1, p.2.1, p.2.2⟩ ((hiff _).1 hp)

/-- A query with two filters on one field by one operator, of which the second is wider. -/
def repeated : QueryDescriptor :=
  { QueryDescriptor.empty with
    metrics := [{ Metric.named "visits" with
      aggregation := some .count, collection := some ⟨"events", none⟩ }]
    filter := [⟨"duration", .gt, .ofInt 10⟩, ⟨"duration", .gt, .ofInt 5⟩] }

theorem serving?_restricted_repeated :
    ∃ plan, compile id .day "uid" repeated = .ok plan ∧ Function.Injective (id : String → String) ∧
    repeated.Kept ∧ ∀ item ∈ repeated.executables, ∃ s,
      plan.serving? id (Clauses.shared .day repeated) item = some s ∧ item.1.key ∈ s.metrics ∧
      (∀ f : Filter, (f.field, f.operator, f.value) ∈ Statement.predicates s.clauses.conditions ↔
        f.InEffect (repeated.filtersOn item.1)) ∧
      ∀ satisfied : String × Operator × Json → Prop,
        (∀ p ∈ Statement.predicates s.clauses.conditions, satisfied p) ↔
          ∀ f : Filter, f.InEffect (repeated.filtersOn item.1) →
            satisfied (f.field, f.operator, f.value) := by
  have hkept : repeated.Kept := ⟨by decide, by decide⟩
  exact ⟨_, rfl, Function.injective_id, hkept,
    fun item hi => serving?_restricted Function.injective_id hkept rfl hi⟩

/-- The first of the two filters is lost. -/
theorem repeated_loses_filter :
    ∃ plan, compile id .day "uid" repeated = .ok plan ∧
    ∃ item ∈ repeated.executables, ∃ f ∈ repeated.filtersOn item.1, ∀ s,
      plan.serving? id (Clauses.shared .day repeated) item = some s →
        (f.field, f.operator, f.value) ∉ Statement.predicates s.clauses.conditions := by
  refine ⟨_, rfl, _, List.mem_cons_self, ⟨"duration", .gt, .ofInt 10⟩, by decide, ?_⟩
  rintro s hs
  cases hs
  decide

/-! ### Measurements -/

/-- The sub-query that serves a metric was started by the first metric with the same needs. -/
theorem exists_first_of_serving? (hhash : Function.Injective hash)
    (h : compile hash defaultInterval uid q = .ok plan) {item : Metric × CollectionRef} {s : SubQuery}
    (hs : plan.serving? hash (Clauses.shared defaultInterval q) item = some s) :
    let base := Clauses.shared defaultInterval q
    ∃ before first after, q.executables = before ++ first :: after ∧
      SubQuery.needs base first = SubQuery.needs base item ∧
      (∀ earlier ∈ before, SubQuery.needs base earlier ≠ SubQuery.needs base item) ∧
      s.measurement = first.2.storeKey.getD first.2.key := by
  intro base
  rw [serving?, find?_subQueries h] at hs
  cases hgroup : SubQuery.groupOf hash base q.executables (SubQuery.keyFor hash base item.1 item.2) with
  | nil =>
    rw [hgroup] at hs
    cases hs
  | cons first rest =>
    rw [hgroup] at hs
    cases hs
    obtain ⟨before, after, hsplit, hbefore, hfirst, -⟩ := List.filter_eq_cons_iff.1 hgroup
    refine ⟨before, first, after, hsplit, ?_, fun earlier he => ?_, rfl⟩
    · rwa [beq_iff_eq, SubQuery.keyFor_eq_iff hhash] at hfirst
    · have hne := hbefore earlier he
      rwa [beq_iff_eq, SubQuery.keyFor_eq_iff hhash] at hne

/-- Under a hash without collisions, a metric is read from the measurement of the first metric with the
same needs. So all metrics are read from their own measurements if and only if metrics with the same
needs have the same measurement. -/
theorem serving?_measurement (hhash : Function.Injective hash)
    (h : compile hash defaultInterval uid q = .ok plan) :
    let base := Clauses.shared defaultInterval q
    (∀ item ∈ q.executables, ∃ s before first after, plan.serving? hash base item = some s ∧
      item.1.key ∈ s.metrics ∧
      (s.collection, s.clauses.conditions.shape) = SubQuery.needs base item ∧
      q.executables = before ++ first :: after ∧ SubQuery.needs base first = SubQuery.needs base item ∧
      (∀ earlier ∈ before, SubQuery.needs base earlier ≠ SubQuery.needs base item) ∧
      s.measurement = first.2.storeKey.getD first.2.key ∧
      ∀ fillZero, Statement.render fillZero s =
        "select " ++ Statement.renderProject s.clauses ++
          " from " ++ Statement.quoteIdent (first.2.storeKey.getD first.2.key) ++
          Statement.renderGroups fillZero s.clauses ++
          Statement.renderConditions s.clauses.conditions) ∧
    ((∀ item ∈ q.executables, ∀ s, plan.serving? hash base item = some s →
        s.measurement = item.2.storeKey.getD item.2.key) ↔
      ∀ a ∈ q.executables, ∀ b ∈ q.executables, SubQuery.needs base a = SubQuery.needs base b →
        a.2.storeKey.getD a.2.key = b.2.storeKey.getD b.2.key) := by
  intro base
  refine ⟨fun item hi => ?_, fun hown a ha b hb hab => ?_, fun hsame item hi s hs => ?_⟩
  · obtain ⟨s, hs, -, hmem⟩ := exists_serving?_eq h hi
    obtain ⟨before, first, after, hsplit, hfirst, hbefore, hmeasurement⟩ :=
      exists_first_of_serving? hhash h hs
    refine ⟨s, before, first, after, hs, hmem, needs_serving? hhash h hs, hsplit, hfirst, hbefore,
      hmeasurement, fun fillZero => ?_⟩
    rw [Statement.render, hmeasurement]
  · -- one sub-query serves both
    obtain ⟨s, hs, -⟩ := exists_serving?_eq h ha
    have hboth := (serving?_eq_iff_keyFor_eq h ha hb).2 ((SubQuery.keyFor_eq_iff hhash base a b).2 hab)
    rw [← hown a ha s hs, ← hown b hb s (hboth ▸ hs)]
  · obtain ⟨before, first, after, hsplit, hfirst, -, hmeasurement⟩ :=
      exists_first_of_serving? hhash h hs
    rw [hmeasurement]
    exact hsame first (by simp [hsplit]) item hi hfirst

/-- Two metrics on one collection that name different measurements. -/
def renamed : QueryDescriptor :=
  { QueryDescriptor.empty with
    metrics := [{ Metric.named "old" with collection := some ⟨"events", some "events_v1"⟩ },
      { Metric.named "new" with collection := some ⟨"events", some "events_v2"⟩ }] }

theorem serving?_measurement_renamed :
    ∃ plan, compile id .day "uid" renamed = .ok plan ∧ Function.Injective (id : String → String) ∧
    let base := Clauses.shared .day renamed
    (∀ item ∈ renamed.executables, ∃ s before first after, plan.serving? id base item = some s ∧
      item.1.key ∈ s.metrics ∧
      (s.collection, s.clauses.conditions.shape) = SubQuery.needs base item ∧
      renamed.executables = before ++ first :: after ∧
      SubQuery.needs base first = SubQuery.needs base item ∧
      (∀ earlier ∈ before, SubQuery.needs base earlier ≠ SubQuery.needs base item) ∧
      s.measurement = first.2.storeKey.getD first.2.key ∧
      ∀ fillZero, Statement.render fillZero s =
        "select " ++ Statement.renderProject s.clauses ++
          " from " ++ Statement.quoteIdent (first.2.storeKey.getD first.2.key) ++
          Statement.renderGroups fillZero s.clauses ++
          Statement.renderConditions s.clauses.conditions) ∧
    ((∀ item ∈ renamed.executables, ∀ s, plan.serving? id base item = some s →
        s.measurement = item.2.storeKey.getD item.2.key) ↔
      ∀ a ∈ renamed.executables, ∀ b ∈ renamed.executables,
        SubQuery.needs base a = SubQuery.needs base b →
          a.2.storeKey.getD a.2.key = b.2.storeKey.getD b.2.key) :=
  ⟨_, rfl, Function.injective_id, serving?_measurement Function.injective_id rfl⟩

/-- The second of the two metrics is read from the measurement of the first. -/
theorem renamed_shares_measurement :
    ∃ plan, compile id .day "uid" renamed = .ok plan ∧
    ∃ item ∈ renamed.executables, ∃ s,
      plan.serving? id (Clauses.shared .day renamed) item = some s ∧ item.1.key ∈ s.metrics ∧
      s.measurement ≠ item.2.storeKey.getD item.2.key ∧
      Statement.render true s = "select sum(old) as old, sum(new) as new from events_v1" := by
  refine ⟨_, rfl, _, List.mem_cons_of_mem _ List.mem_cons_self, _, rfl, ?_, ?_, ?_⟩ <;> decide

end QueryPlan

end SeriesPivot
