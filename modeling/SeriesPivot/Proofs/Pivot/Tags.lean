import SeriesPivot.Proofs.Pivot.Tuples
import SeriesPivot.Proofs.Plan.Sharing

/-!
# Tags of grouped series

A store that groups by columns answers with series whose tags are named like these columns, and all rows
of a series share its tags. So the tags should be what identifies the rows. They are, as far as names
allow: a column with the name of a tag takes its place, and of several columns that have one name in
documents the last one counts.

* `Series.IsGrouped` says which tags and columns the series of a sub-query have.
* `Dimension.ShownBy` says that the names of a series leave a dimension its tag.
* `find?_normalizeRow_of_last`: the last column with a name decides what a document has under it.
* `find?_identity_eq_tag`: rows of a grouped series are identified by its tags.
-/

namespace SeriesPivot

open Pivot

/-- A series has a tag for the column of each plain dimension and no others, and its columns are the time
and metrics of its sub-query. -/
@[mk_iff]
structure Series.IsGrouped (q : QueryDescriptor) (s : SubQuery) (series : Series) : Prop where
  sorted : Assoc.Sorted series.tags
  tag_of_plain : ∀ d ∈ q.dimensions, d.isPlain = true → d.column ∈ series.tags.map Prod.fst
  plain_of_tag : ∀ name ∈ series.tags.map Prod.fst,
    ∃ d ∈ q.dimensions, d.isPlain = true ∧ d.column = name
  time : "time" ∈ series.columns
  columns : ∀ column ∈ series.columns, column = "time" ∨ column ∈ s.metrics

instance (q : QueryDescriptor) (s : SubQuery) (series : Series) : Decidable (series.IsGrouped q s) :=
  have : Decidable (Assoc.Sorted series.tags) := inferInstanceAs (Decidable (List.Pairwise _ _))
  decidable_of_iff _ (Series.isGrouped_iff q s series).symm

/-- No other column of a series takes the place of the column of a dimension in documents. -/
@[mk_iff]
structure Dimension.ShownBy (d : Dimension) (series : Series) : Prop where
  not_column : d.column ∉ series.columns
  last : ∀ column ∈ series.tags.map Prod.fst ++ series.columns,
    documentColumn column = documentColumn d.column → ¬ d.column < column

instance (d : Dimension) (series : Series) : Decidable (d.ShownBy series) :=
  decidable_of_iff _ (Dimension.shownBy_iff d series).symm

/-! ### Rows of series -/

/-- A tag stays what it is if no column has its name. -/
theorem Series.find?_row {series : Series} {name : String} (h : name ∉ series.columns)
    (values : List Json) : Assoc.find? name (series.row values) = Assoc.find? name series.tags := by
  have hnone : Assoc.find? name (series.columns.zip values).reverse = none := by
    rw [Assoc.find?_eq_none_iff, List.map_reverse, List.mem_reverse]
    intro hmem
    obtain ⟨cell, hcell, rfl⟩ := List.mem_map.1 hmem
    exact h (List.of_mem_zip hcell).1
  rw [Series.row, Assoc.find?_insertAll, hnone, Option.none_or]

/-- Every name in a row is one of a tag or a column. -/
theorem Series.mem_names_of_mem_row {series : Series} {values : List Json} {name : String}
    (h : name ∈ (series.row values).map Prod.fst) :
    name ∈ series.tags.map Prod.fst ++ series.columns := by
  obtain ⟨cell, hcell, rfl⟩ := List.mem_map.1 h
  rw [List.mem_append]
  rcases Assoc.mem_insertAll hcell with hzip | htag
  · exact .inr (List.of_mem_zip hzip).1
  · exact .inl (List.mem_map.2 ⟨cell, htag, rfl⟩)

namespace Pivot

/-- The last column with a name in documents decides what a document has under that name. -/
theorem find?_normalizeRow_of_last {row : Row} (hrow : Assoc.Sorted row) {column : String} {v : Json}
    (hv : Assoc.find? column row = some v)
    (hlast : ∀ c ∈ row.map Prod.fst, documentColumn c = documentColumn column → ¬ column < c) :
    Assoc.find? (documentColumn column) (normalizeRow row) = some (normalizeCell (column, v)).2 := by
  obtain ⟨before, after, rfl⟩ := List.append_of_mem (Assoc.mem_of_find? hv)
  have hafter : ∀ cell ∈ after, column < cell.1 :=
    (List.pairwise_cons.1 (List.pairwise_append.1 hrow).2.1).1
  have hnone : Assoc.find? (documentColumn column) (after.map normalizeCell).reverse = none := by
    rw [Assoc.find?_eq_none_iff, List.map_reverse, List.mem_reverse, List.map_map]
    intro hmem
    obtain ⟨cell, hcell, hname⟩ := List.mem_map.1 hmem
    refine hlast cell.1 ?_ ((normalizeCell_fst cell).symm.trans hname) (hafter cell hcell)
    exact List.mem_map.2 ⟨cell, by simp [hcell], rfl⟩
  rw [normalizeRow, Assoc.find?_ofList, List.map_append, List.map_cons, List.reverse_append,
    List.reverse_cons, List.append_assoc, Assoc.find?_append, hnone, Option.none_or,
    List.singleton_append, Assoc.find?_cons, if_pos (normalizeCell_fst (column, v)).symm]

/-- A plain dimension is looked for under its column first. -/
theorem Dimension.value?_of_column {d : Dimension} (hplain : d.isPlain = true) {row : Row} {v : Json}
    (h : Assoc.find? (normalizeColumn d.column) row = some v) : d.value? row = some v := by
  rw [Dimension.value?_of_ne_date (Dimension.ne_date_of_isPlain hplain), h, Option.some_or]

theorem Dimension.isKeyed_of_isPlain {d : Dimension} (h : d.isPlain = true) : d.isKeyed = true := by
  unfold Dimension.isPlain at h
  unfold Dimension.isKeyed
  cases hd : d.datatype <;> simp_all

/-- The rows of a grouped series are identified by its tags, as far as its names allow. -/
theorem find?_identity_eq_tag {hash : String → String} {defaultInterval : Interval} {uid : String}
    {q : QueryDescriptor} {plan : QueryPlan}
    (hkeys : ((q.dimensions.map (·.key) ++ q.metrics.map (·.key)).map normalizeColumn).Nodup)
    (hplan : QueryPlan.compile hash defaultInterval uid q = .ok plan) :
    ∀ p ∈ plan.subQueries, ∀ series : Series, series.IsGrouped q p.2 →
      ∀ row ∈ series.rows, ∀ d ∈ q.dimensions, d.isPlain = true → d.ShownBy series →
        ∃ v, Assoc.find? d.column series.tags = some v ∧
          Assoc.find? (normalizeColumn d.key)
            (identity (start plan.dimensions plan.metrics).sources (normalizeRow row)) = some v := by
  intro p _ series hseries row hrow d hd hplain hshown
  obtain ⟨values, -, rfl⟩ := List.mem_map.1 hrow
  obtain ⟨v, hv⟩ := Option.isSome_iff_exists.1
    (Assoc.find?_isSome_iff.2 (hseries.tag_of_plain d hd hplain))
  refine ⟨v, hv, ?_⟩
  have htime : d.column ≠ "time" := fun he => hshown.not_column (he ▸ hseries.time)
  have hdocument : Assoc.find? (normalizeColumn d.column) (normalizeRow (series.row values)) = some v := by
    have hlast := find?_normalizeRow_of_last (Assoc.sorted_insertAll _ hseries.sorted)
      ((Series.find?_row hshown.not_column values).trans hv)
      fun c hc => hshown.last c (Series.mem_names_of_mem_row hc)
    have hcell : (normalizeCell (d.column, v)).2 = v := by
      simp [normalizeCell, timeColumn, htime]
    rw [normalizeColumn_eq]
    rwa [hcell, documentColumn, if_neg htime] at hlast
  have hdimensions : plan.dimensions = q.dimensions := by
    rw [QueryPlan.eq_of_compile_eq_ok hplan]
  change Assoc.find? _ (identity (sourcesOf plan.dimensions) _) = _
  rw [identity_sourcesOf, hdimensions, find?_rowId (QueryDescriptor.nodup_keyed_of_nodup hkeys) _ hd
    (Dimension.isKeyed_of_isPlain hplain), Dimension.value?_of_column hplain hdocument, Option.getD_some]

/-- Visits by two columns that have one name in documents, by a column that is named like a metric, and
by one that is told from all others. -/
def byAgents : QueryDescriptor :=
  { QueryDescriptor.empty with
    dimensions := [⟨"hour", .date, none, none⟩, ⟨"browser", .string, some "ua.browser", none⟩,
      ⟨"agent", .string, some "ua_browser", none⟩, ⟨"length", .number, some "duration", none⟩,
      ⟨"os", .string, none, none⟩]
    metrics := [{ Metric.named "visits" with
        aggregation := some .count, collection := some ⟨"events", none⟩ },
      { Metric.named "duration" with
        aggregation := some .mean, collection := some ⟨"events", none⟩ }] }

/-- A series that is grouped so. -/
def agentSeries : Series :=
  ⟨"events", [("duration", .string "60"), ("os", .string "linux"), ("ua.browser", .string "firefox"),
    ("ua_browser", .string "mozilla")], ["time", "visits", "duration"],
    [[.ofInt 0, .ofInt 15, .ofInt 42], [.ofInt 3600000, .ofInt 2, .ofInt 7]]⟩

theorem find?_identity_eq_tag_agents :
    ((byAgents.dimensions.map (·.key) ++ byAgents.metrics.map (·.key)).map normalizeColumn).Nodup ∧
    ∃ plan, QueryPlan.compile id .day "uid" byAgents = .ok plan ∧
    ∃ p ∈ plan.subQueries, agentSeries.IsGrouped byAgents p.2 ∧ agentSeries.rows.length = 2 ∧
    ∀ row ∈ agentSeries.rows, ∀ d ∈ byAgents.dimensions, d.key = "agent" ∨ d.key = "os" →
      ∃ v, Assoc.find? d.column agentSeries.tags = some v ∧
        Assoc.find? (normalizeColumn d.key)
          (identity (start plan.dimensions plan.metrics).sources (normalizeRow row)) = some v := by
  have hkeys : ((byAgents.dimensions.map (·.key) ++
      byAgents.metrics.map (·.key)).map normalizeColumn).Nodup := by decide
  have hgrouped : ∀ plan, QueryPlan.compile id .day "uid" byAgents = .ok plan →
      ∀ p ∈ plan.subQueries, agentSeries.IsGrouped byAgents p.2 := by
    intro plan hplan
    cases hplan
    decide
  have hshown : ∀ d ∈ byAgents.dimensions, d.key = "agent" ∨ d.key = "os" →
      d.isPlain = true ∧ d.ShownBy agentSeries := by decide
  refine ⟨hkeys, _, rfl, _, List.mem_cons_self, hgrouped _ rfl _ List.mem_cons_self, rfl,
    fun row hrow d hd hd' => ?_⟩
  obtain ⟨hplain, hseries⟩ := hshown d hd hd'
  exact find?_identity_eq_tag hkeys rfl _ List.mem_cons_self agentSeries
    (hgrouped _ rfl _ List.mem_cons_self) row hrow d hd hplain hseries

/-- The browser takes the tag of the agent, whose name comes later, and the length takes the value of the
metric that is named like its column. -/
theorem names_override_tags :
    ((byAgents.dimensions.map (·.key) ++ byAgents.metrics.map (·.key)).map normalizeColumn).Nodup ∧
    ∃ plan, QueryPlan.compile id .day "uid" byAgents = .ok plan ∧
    ∃ p ∈ plan.subQueries, agentSeries.IsGrouped byAgents p.2 ∧
    ∃ row ∈ agentSeries.rows, ∃ browser ∈ byAgents.dimensions, ∃ length ∈ byAgents.dimensions,
      let id := identity (start plan.dimensions plan.metrics).sources (normalizeRow row)
      browser.isPlain = true ∧
      Assoc.find? browser.column agentSeries.tags = some (.string "firefox") ∧
      Assoc.find? (normalizeColumn browser.key) id = some (.string "mozilla") ∧
      length.isPlain = true ∧
      Assoc.find? length.column agentSeries.tags = some (.string "60") ∧
      Assoc.find? (normalizeColumn length.key) id = some (.ofInt 42) := by
  refine ⟨by decide, _, rfl, _, List.mem_cons_self, by decide, _, List.mem_cons_self,
    ⟨"browser", .string, some "ua.browser", none⟩, by decide,
    ⟨"length", .number, some "duration", none⟩, by decide, ?_⟩
  decide

end Pivot

end SeriesPivot
