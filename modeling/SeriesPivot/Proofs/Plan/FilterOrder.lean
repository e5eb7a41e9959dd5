import SeriesPivot.Proofs.Plan.Sources
import Mathlib.Data.List.Forall2

/-!
# The order of filters

Filters are put in one after another, first those of the query and then those of a metric, and conditions
keep one value for each field and operator. Filters about different fields or operators may be put in in any
order, so a query is compiled to the same sub-queries however its filters are listed, unless two filters on
one metric are about the same field and operator.

* `Match.put_comm`: two filters may change places.
* `Match.restrict_eq_of_perm`: so may any number of them.
* `QueryDescriptor.Reordered` relates queries that list their filters in another order.
* `QueryPlan.compile_reordered`: such queries have the same sub-queries.
-/

namespace SeriesPivot

namespace Assoc

variable {κ α : Type} [LT κ] [DecidableLT κ] [DecidableEq κ] [IsStrictTotalOrder κ (· < ·)]
  {m : List (κ × α)}

/-- Different keys may be bound in any order. -/
theorem insert_comm {k j : κ} (h : k ≠ j) (v w : α) (hm : Sorted m) :
    insert k v (insert j w m) = insert j w (insert k v m) := by
  refine eq_of_find?_eq (sorted_insert k v (sorted_insert j w hm))
    (sorted_insert j w (sorted_insert k v hm)) fun i => ?_
  simp only [find?_insert]
  by_cases hk : i = k
  · rw [if_pos hk, if_neg fun hj => h (hk.symm.trans hj), if_pos hk]
  · rw [if_neg hk, if_neg hk]

/-- The last value that a key is bound to counts. -/
theorem insert_insert (k : κ) (v w : α) (hm : Sorted m) :
    insert k v (insert k w m) = insert k v m := by
  refine eq_of_find?_eq (sorted_insert k v (sorted_insert k w hm)) (sorted_insert k v hm) fun i => ?_
  simp only [find?_insert]
  split_ifs <;> rfl

end Assoc

/-! ### Filters change places -/

/-- What a filter is about: a field, compared in one way. -/
def Filter.subject (f : Filter) : String × Operator :=
  (f.field, f.operator)

/-- The operators on each field increase, also on a field without conditions. -/
theorem Match.Ordered.sorted_getD {m : Match} (h : m.Ordered) (field : String) :
    Assoc.Sorted ((Assoc.find? field m).getD []) := by
  cases hfield : Assoc.find? field m with
  | none => exact Assoc.sorted_nil
  | some conditions => exact h.2 _ (Assoc.mem_of_find? hfield)

namespace Match

/-- Filters about different fields or operators may change places. -/
theorem put_comm {m : Match} (hm : m.Ordered) {f g : Filter} (h : f.subject ≠ g.subject) :
    (m.put f).put g = (m.put g).put f := by
  obtain ⟨field, operator, value⟩ := f
  obtain ⟨field', operator', value'⟩ := g
  simp only [put]
  by_cases hfield : field = field'
  · subst hfield
    have hoperator : operator ≠ operator' := fun he => h (by rw [Filter.subject, Filter.subject, he])
    have hsorted := hm.sorted_getD field
    simp only [Assoc.find?_insert_self, Option.getD_some]
    rw [Assoc.insert_insert _ _ _ hm.1, Assoc.insert_insert _ _ _ hm.1,
      Assoc.insert_comm hoperator _ _ hsorted]
  · rw [Assoc.find?_insert_of_ne hfield, Assoc.find?_insert_of_ne (Ne.symm hfield),
      Assoc.insert_comm hfield _ _ hm.1]

/-- Filters about different fields or operators may be put in in any order. -/
theorem restrict_eq_of_perm {m : Match} (hm : m.Ordered) {filters filters' : List Filter}
    (h : filters.Perm filters') (hdistinct : (filters.map Filter.subject).Nodup) :
    m.restrict filters = m.restrict filters' := by
  induction h generalizing m with
  | nil => rfl
  | cons f _ ih =>
    rw [List.map_cons, List.nodup_cons] at hdistinct
    exact ih (hm.put f) hdistinct.2
  | swap f g rest =>
    have hne : g.subject ≠ f.subject := by
      rw [List.map_cons, List.map_cons, List.nodup_cons] at hdistinct
      exact fun he => hdistinct.1 (he ▸ List.mem_cons_self)
    change ((m.put g).put f).restrict rest = ((m.put f).put g).restrict rest
    rw [put_comm hm hne]
  | trans h _ ih ih' =>
    exact (ih hm hdistinct).trans (ih' hm ((h.map Filter.subject).nodup_iff.1 hdistinct))

end Match

/-! ### Queries with their filters in another order -/

/-- Two metrics are the same but for the order of their filters. -/
structure Metric.Reordered (m m' : Metric) : Prop where
  filter : m.filter.Perm m'.filter
  rest : m' = { m with filter := m'.filter }

/-- Two queries are the same but for the order of their filters and of those of each metric. -/
structure QueryDescriptor.Reordered (q q' : QueryDescriptor) : Prop where
  filter : q.filter.Perm q'.filter
  metrics : List.Forall₂ Metric.Reordered q.metrics q'.metrics
  rest : q' = { q with filter := q'.filter, metrics := q'.metrics }

/-- No two filters on a metric that is read are about the same field and operator. -/
def QueryDescriptor.Distinct (q : QueryDescriptor) : Prop :=
  ∀ item ∈ q.executables, ((q.filtersOn item.1).map Filter.subject).Nodup

instance (q : QueryDescriptor) : Decidable q.Distinct :=
  inferInstanceAs (Decidable (∀ item ∈ q.executables, _))

namespace Metric

theorem Reordered.refl (m : Metric) : m.Reordered m :=
  ⟨.refl _, rfl⟩

/-- Metrics that differ in the order of filters read the same. -/
theorem Reordered.reading? {m m' : Metric} (h : m.Reordered m') :
    Option.Rel (fun a b => a.1.Reordered b.1 ∧ a.2 = b.2) m.reading? m'.reading? := by
  have hcollection : m'.collection = m.collection := by rw [h.rest]
  have hformula : m'.formula = m.formula := by rw [h.rest]
  unfold Metric.reading?
  rw [hcollection, hformula]
  split_ifs
  · cases m.collection with
    | none => exact .none
    | some c => exact .some ⟨h, rfl⟩
  · exact .none

end Metric

namespace QueryDescriptor

variable {q q' : QueryDescriptor}

theorem Reordered.filtersOn_perm (h : q.Reordered q') {m m' : Metric} (hm : m.Reordered m') :
    (q.filtersOn m).Perm (q'.filtersOn m') := by
  have htimeframe : q'.timeframe = q.timeframe := by rw [h.rest]
  unfold filtersOn
  rw [htimeframe]
  exact (h.filter.append_left _).append hm.filter

/-- Queries that differ in the order of filters read the same metrics, each with its collection. -/
theorem Reordered.executables (h : q.Reordered q') :
    List.Forall₂ (fun a b => a.1.Reordered b.1 ∧ a.2 = b.2) q.executables q'.executables := by
  have hcollection : q'.collection.or (q'.dimensions.head?.bind (·.collection)) =
      q.collection.or (q.dimensions.head?.bind (·.collection)) := by
    rw [h.rest]
  have hmetrics := h.metrics
  rw [executables_eq_served, executables_eq_served, served, served, hcollection]
  generalize q.metrics = metrics, q'.metrics = metrics' at hmetrics ⊢
  cases hmetrics with
  | nil =>
    cases q.collection.or (q.dimensions.head?.bind (·.collection)) with
    | none => exact .nil
    | some c => exact .cons ⟨.refl _, rfl⟩ .nil
  | cons hm hrest =>
    have hall := List.Forall₂.cons hm hrest
    exact List.rel_filterMap (fun _ _ hm => Metric.Reordered.reading? hm) hall

end QueryDescriptor

namespace SubQuery

/-- Metrics that differ in the order of filters are served alike under the same clauses. -/
theorem serve_reordered (hash : String → String) {base base' : Clauses} (limit : Option Nat)
    {m m' : Metric} (hm : m.Reordered m') (hclauses : clausesFor base m = clausesFor base' m')
    (c : CollectionRef) (subQueries : List (String × SubQuery)) :
    serve hash base limit subQueries (m, c) = serve hash base' limit subQueries (m', c) := by
  have hkey : m'.key = m.key := by rw [hm.rest]
  have hmetric : ∀ c : Clauses, c.withMetric m' = c.withMetric m := fun c => by
    rw [hm.rest]
    rfl
  simp only [serve, keyFor, start, join, hclauses, hkey, hmetric]

end SubQuery

namespace QueryPlan

variable {q q' : QueryDescriptor}

/-- Under distinct filters, the order of filters does not matter to the sub-queries. -/
theorem foldl_serve_reordered (hash : String → String) (defaultInterval : Interval) (limit : Option Nat)
    (h : q.Reordered q') (hdistinct : q.Distinct) :
    q'.executables.foldl (SubQuery.serve hash (Clauses.shared defaultInterval q') limit) [] =
      q.executables.foldl (SubQuery.serve hash (Clauses.shared defaultInterval q) limit) [] := by
  have hclauses : ∀ m m' : Metric, m.Reordered m' → ((q.filtersOn m).map Filter.subject).Nodup →
      SubQuery.clausesFor (Clauses.shared defaultInterval q) m =
        SubQuery.clausesFor (Clauses.shared defaultInterval q') m' := by
    intro m m' hm hnodup
    rw [SubQuery.clausesFor_shared, SubQuery.clausesFor_shared,
      Match.restrict_eq_of_perm Match.ordered_nil (h.filtersOn_perm hm) hnodup, h.rest]
  have hitems := h.executables
  unfold QueryDescriptor.Distinct at hdistinct
  generalize q.executables = items, q'.executables = items' at hitems hdistinct ⊢
  generalize ([] : List (String × SubQuery)) = subQueries
  -- along both lists at once, from any sub-queries that are there already
  induction hitems generalizing subQueries with
  | nil => rfl
  | @cons a b as bs hab _ ih =>
    rw [List.forall_mem_cons] at hdistinct
    obtain ⟨m, c⟩ := a
    obtain ⟨m', c'⟩ := b
    obtain ⟨hm, rfl⟩ : m.Reordered m' ∧ c = c' := hab
    rw [List.foldl_cons, List.foldl_cons,
      SubQuery.serve_reordered hash limit hm (hclauses m m' hm hdistinct.1)]
    exact ih hdistinct.2 _

/-- Queries that list their filters in different orders are compiled to the same sub-queries, and so to the
same statements, if no two filters on one metric are about the same field and operator. -/
theorem compile_reordered (hash : String → String) (defaultInterval : Interval) (uid uid' : String)
    (h : q.Reordered q') (hdistinct : q.Distinct) :
    match q.unknownDimension? with
    | some (key, datatype) =>
      compile hash defaultInterval uid q = .error (.unknownDimensionType key datatype) ∧
      compile hash defaultInterval uid' q' = .error (.unknownDimensionType key datatype)
    | none =>
      ∃ plan plan', compile hash defaultInterval uid q = .ok plan ∧
        compile hash defaultInterval uid' q' = .ok plan' ∧
        plan'.subQueries = plan.subQueries ∧
        (∀ fillZero, plan'.statements fillZero = plan.statements fillZero) ∧
        plan' = { plan with uid := uid', metrics := q'.metrics } := by
  have hunknown : q'.unknownDimension? = q.unknownDimension? := by
    rw [h.rest]
    rfl
  have hsubQueries := foldl_serve_reordered hash defaultInterval q.limit h hdistinct
  have hlimit : q'.limit = q.limit := by
    rw [h.rest]
    rfl
  have hdimensions : q'.dimensions = q.dimensions := by rw [h.rest]
  rw [compile_eq, compile_eq, hunknown]
  cases q.unknownDimension? with
  | some e => exact ⟨rfl, rfl⟩
  | none =>
    refine ⟨_, _, rfl, rfl, ?_, fun fillZero => ?_, ?_⟩
    · rw [← hsubQueries, hlimit]
    · unfold statements
      rw [← hsubQueries, hlimit]
    · rw [← hsubQueries, hlimit, hdimensions]

/-- Visits and views of a year, with filters on several fields, and on one field by several operators. -/
def filtered : QueryDescriptor :=
  { QueryDescriptor.empty with
    dimensions := [⟨"country", .string, none, none⟩]
    metrics := [{ Metric.named "visits" with
        collection := some ⟨"events", none⟩
        filter := [⟨"duration", .gt, .ofInt 10⟩, ⟨"page", .eq, .string "/"⟩] },
      { Metric.named "views" with
        collection := some ⟨"events", none⟩
        filter := [⟨"page", .eq, .string "/"⟩, ⟨"duration", .gt, .ofInt 10⟩] }]
    filter := [⟨"time", .gte, .ofInt 0⟩, ⟨"duration", .lt, .ofInt 60⟩, ⟨"country", .eq, .string "US"⟩]
    timeframe := some (.range (some (.ofInt 1704067200000)) (some (.ofInt 1735689600000))) }

/-- The same query with its filters in another order. -/
def refiltered : QueryDescriptor :=
  { filtered with
    metrics := filtered.metrics.map fun m => { m with filter := m.filter.reverse }
    filter := filtered.filter.rotate 1 }

theorem compile_reordered_refiltered :
    filtered.Reordered refiltered ∧ filtered.Distinct ∧ filtered.filter ≠ refiltered.filter ∧
    ∃ plan plan', compile id .day "uid" filtered = .ok plan ∧
      compile id .day "uid'" refiltered = .ok plan' ∧
      plan'.subQueries = plan.subQueries ∧
      (∀ fillZero, plan'.statements fillZero = plan.statements fillZero) ∧
      plan' = { plan with uid := "uid'", metrics := refiltered.metrics } := by
  have hreordered : filtered.Reordered refiltered := by
    refine ⟨(List.rotate_perm _ 1).symm, ?_, rfl⟩
    rw [refiltered, List.forall₂_map_right_iff]
    exact List.forall₂_same.2 fun m _ => ⟨m.filter.reverse_perm.symm, rfl⟩
  have hdistinct : filtered.Distinct := by decide
  exact ⟨hreordered, hdistinct, by decide, compile_reordered id .day "uid" "uid'" hreordered hdistinct⟩

end QueryPlan

end SeriesPivot
