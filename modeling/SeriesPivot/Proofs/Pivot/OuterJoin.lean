import SeriesPivot.Proofs.Pivot.Tuples
import SeriesPivot.Proofs.Plan.Sharing

/-!
# Pivoting is a full outer join

The results of the sub-queries of a clean query are joined by the tuples of their rows.

* `Returns` says that a sub-query of a plan answered with a row, and `ResultFits` what a result is like
  that answers a sub-query.
* `IsJoined` says what the document of a tuple holds: the values of the tuple, and for each metric the
  value that the sub-query which serves it returned with that tuple, or null.
* `merge_isOuterJoin`: pivoting the results of a compiled clean query gives one such document for each
  tuple, and nothing is noted.
-/

namespace SeriesPivot

/-- A result answers a sub-query: its rows fit, and no two of them have one tuple. -/
@[mk_iff]
structure ResultFits (q : QueryDescriptor) (s : SubQuery) (raw : RawResult) : Prop where
  rows : ∀ row ∈ raw.rows, RowFits q s row
  nodup : (raw.rows.map (Pivot.tuple q.dimensions)).Nodup

instance (q : QueryDescriptor) (s : SubQuery) (raw : RawResult) : Decidable (ResultFits q s raw) :=
  decidable_of_iff _ (resultFits_iff q s raw).symm

namespace QueryPlan

/-- A sub-query of a plan answered with a row. -/
def Returns (plan : QueryPlan) (results : List (String × RawResult)) (s : SubQuery) (row : Row) :
    Prop :=
  ∃ key raw, (key, s) ∈ plan.subQueries ∧ Assoc.find? key results = some raw ∧ row ∈ raw.rows

/-- The results of the sub-queries of a plan, in the order of the plan. -/
def answers (plan : QueryPlan) (results : List (String × RawResult)) : List (String × RawResult) :=
  plan.subQueries.filterMap fun p => (Assoc.find? p.1 results).map fun raw => (p.1, raw)

/-- The rows that the sub-queries of a plan answered with. -/
def answerRows (plan : QueryPlan) (results : List (String × RawResult)) : List Row :=
  (plan.answers results).flatMap fun r => r.2.rows

theorem mem_answerRows {plan : QueryPlan} {results : List (String × RawResult)} {row : Row} :
    row ∈ plan.answerRows results ↔ ∃ s, plan.Returns results s row := by
  unfold answerRows answers Returns
  constructor
  · intro h
    obtain ⟨r, hr, hrow⟩ := List.mem_flatMap.1 h
    obtain ⟨p, hp, hraw⟩ := List.mem_filterMap.1 hr
    obtain ⟨raw, hfind, rfl⟩ := Option.map_eq_some_iff.1 hraw
    exact ⟨p.2, p.1, raw, hp, hfind, hrow⟩
  · rintro ⟨s, key, raw, hp, hfind, hrow⟩
    refine List.mem_flatMap.2 ⟨(key, raw), List.mem_filterMap.2 ⟨(key, s), hp, ?_⟩, hrow⟩
    simp [hfind]

end QueryPlan

namespace Pivot

/-- What the document of a tuple holds. -/
structure IsJoined (q : QueryDescriptor) (plan : QueryPlan) (results : List (String × RawResult))
    (t : List (Option Json)) (document : Row) : Prop where
  dimensions : ((q.dimensions.filter (·.isKeyed)).map fun d =>
    Assoc.find? (underscored d.key) document) = t
  /-- A metric has the value of the row with the tuple. -/
  metric : ∀ m ∈ q.metrics, m.isPlaceholder = false → ∀ s row, plan.Returns results s row →
    m.key ∈ s.metrics → tuple q.dimensions row = t →
      ∃ v, Assoc.find? m.key row = some v ∧
        Assoc.find? (underscored m.key) document = some v
  /-- A metric is null where there is no such row. -/
  metric_null : ∀ m ∈ q.metrics, m.isPlaceholder = false →
    (∀ s row, plan.Returns results s row → m.key ∈ s.metrics → tuple q.dimensions row ≠ t) →
      Assoc.find? (underscored m.key) document = some .null
  /-- Nothing else is in a document than the tuple, the metrics, and what else a row with the tuple has. -/
  only : ∀ column ∈ document.map Prod.fst, column = "_id" ∨ column = "key" ∨
    isDimensionKey q.dimensions column = true ∨
      (∃ m ∈ q.metrics, m.isPlaceholder = false ∧ underscored m.key = column) ∨
      ∃ s row, plan.Returns results s row ∧ tuple q.dimensions row = t ∧
        ∃ c ∈ row.map Prod.fst, documentColumn c = column

theorem merge_eq (hash : String → String) (plan : QueryPlan) (results : List (String × RawResult)) :
    merge hash plan results =
      (foldAll hash (start plan.dimensions plan.metrics) (plan.answers results)).finish := by
  simp only [merge, foldAll, QueryPlan.answers, List.foldl_map, List.foldl_filterMap]
  congr 2
  funext p r
  cases Assoc.find? r.1 results <;> rfl

theorem map_snd_rowsOf (plan : QueryPlan) (results : List (String × RawResult)) :
    (rowsOf (plan.answers results)).map Prod.snd = (plan.answerRows results).map normalizeRow := by
  rw [rowsOf_eq]
  unfold QueryPlan.answerRows
  rw [List.map_flatMap, List.map_flatMap]
  simp [Function.comp_def]

end Pivot

/-! ### Which sub-query serves a metric -/

namespace QueryPlan

variable {hash : String → String} {defaultInterval : Interval} {uid : String} {q : QueryDescriptor}
  {plan : QueryPlan}

/-- A metric of a clean query is served once. -/
theorem serving_unique (hq : q.Clean) (h : compile hash defaultInterval uid q = .ok plan) {m : Metric}
    (hm : m ∈ q.metrics) {p r : String × SubQuery} (hp : p ∈ plan.subQueries)
    (hr : r ∈ plan.subQueries) (hmp : m.key ∈ p.2.metrics) (hmr : m.key ∈ r.2.metrics) : p = r := by
  have hkeys := Assoc.nodup_keys (sorted_subQueries h)
  have hgroup : ∀ p ∈ plan.subQueries, m.key ∈ p.2.metrics → ∃ item ∈ q.executables,
      item.1.key = m.key ∧
        SubQuery.keyFor hash (Clauses.shared defaultInterval q) item.1 item.2 = p.1 := by
    intro p hp hmem
    have hfind := (Assoc.find?_eq_some_iff hkeys).2 hp
    rw [find?_subQueries h] at hfind
    obtain ⟨item, hitem, hkey⟩ := (SubQuery.mem_metrics_iff hfind _).1 hmem
    obtain ⟨hitem, hfor⟩ := List.mem_filter.1 hitem
    exact ⟨item, hitem, hkey, beq_iff_eq.1 hfor⟩
  obtain ⟨a, ha, hakey, hap⟩ := hgroup p hp hmp
  obtain ⟨b, hb, hbkey, hbr⟩ := hgroup r hr hmr
  have hne := List.ne_nil_of_mem hm
  obtain ⟨hamem, hac⟩ := q.mem_executables hne ha
  obtain ⟨hbmem, hbc⟩ := q.mem_executables hne hb
  have hmetric : a.1 = b.1 := hq.metric_inj hamem hbmem (by rw [hakey, hbkey])
  have hcollection : a.2 = b.2 := by
    rw [hmetric, hbc] at hac
    exact (Option.some.inj hac).symm
  have hkey : p.1 = r.1 := by rw [← hap, ← hbr, hmetric, hcollection]
  have hpfind := (Assoc.find?_eq_some_iff hkeys).2 hp
  rw [hkey, (Assoc.find?_eq_some_iff hkeys).2 hr] at hpfind
  exact Prod.ext hkey (Option.some.inj hpfind).symm

/-- In results that fit, a row with a given tuple that has a metric is unique. -/
theorem returns_unique (hq : q.Clean) (h : compile hash defaultInterval uid q = .ok plan)
    {results : List (String × RawResult)}
    (hfit : ∀ p ∈ plan.subQueries, ∀ raw ∈ Assoc.find? p.1 results, ResultFits q p.2 raw)
    {m : Metric} (hm : m ∈ q.metrics) {s t : SubQuery} {row other : Row}
    (hs : plan.Returns results s row) (ht : plan.Returns results t other) (hms : m.key ∈ s.metrics)
    (hmt : m.key ∈ t.metrics)
    (htuple : Pivot.tuple q.dimensions row = Pivot.tuple q.dimensions other) : row = other := by
  obtain ⟨key, raw, hp, hfind, hrow⟩ := hs
  obtain ⟨key', raw', hp', hfind', hother⟩ := ht
  have hpair := serving_unique hq h hm hp hp' hms hmt
  obtain ⟨rfl, rfl⟩ := Prod.mk.inj hpair
  rw [hfind] at hfind'
  obtain rfl := Option.some.inj hfind'
  exact List.inj_on_of_nodup_map (hfit _ hp raw hfind).nodup hrow hother htuple

end QueryPlan

namespace Pivot

/-- If all that a function finds in a list is one value, the last thing that it finds is that value. -/
theorem getLast?_filterMap_eq {α β : Type} {l : List α} {f : α → Option β} {v : β}
    (hex : ∃ a ∈ l, f a = some v) (hall : ∀ a ∈ l, ∀ w, f a = some w → w = v) :
    (l.filterMap f).getLast? = some v := by
  obtain ⟨a, ha, hv⟩ := hex
  have hne : l.filterMap f ≠ [] := List.ne_nil_of_mem (List.mem_filterMap.2 ⟨a, ha, hv⟩)
  obtain ⟨b, hb, hw⟩ := List.mem_filterMap.1 (List.getLast_mem hne)
  rw [List.getLast?_eq_getLast_of_ne_nil hne, hall b hb _ hw]

/-! ### The document of a tuple -/

section Joining

variable {hash : String → String} {defaultInterval : Interval} {uid : String} {q : QueryDescriptor}
  {plan : QueryPlan} {results : List (String × RawResult)} (hhash : Function.Injective hash)
  (hq : q.Clean) (h : QueryPlan.compile hash defaultInterval uid q = .ok plan)
  (hkept : ∀ r ∈ results, r.2.Kept)
  (hfit : ∀ p ∈ plan.subQueries, ∀ raw ∈ Assoc.find? p.1 results, ResultFits q p.2 raw)

include hkept hfit in
theorem fits_of_returns {s : SubQuery} {row : Row} (hrow : plan.Returns results s row) :
    RowFits q s row ∧ RowKept row := by
  obtain ⟨key, raw, hp, hfind, hmem⟩ := hrow
  exact ⟨(hfit _ hp raw hfind).rows row hmem, (hkept _ (Assoc.mem_of_find? hfind)).row hmem⟩

include hq hkept hfit in
/-- Nothing is noted about a row that was returned. -/
theorem missing_eq_nil_of_mem (subQuery : String) {r : String × Row}
    (hr : r ∈ rowsOf (plan.answers results)) : missing q.dimensions subQuery r.2 = [] := by
  have hmem := List.mem_map_of_mem (f := Prod.snd) hr
  rw [map_snd_rowsOf] at hmem
  obtain ⟨row, hrow, hnormal⟩ := List.mem_map.1 hmem
  obtain ⟨s, hs⟩ := QueryPlan.mem_answerRows.1 hrow
  obtain ⟨hfits, hsorted⟩ := fits_of_returns hkept hfit hs
  rw [← hnormal, missing_eq_nil hq hfits hsorted]

include hhash hq hkept hfit

/-- The group of a row consists of the rows with its tuple. -/
theorem mem_groupRows {s : SubQuery} {row : Row} (hrow : plan.Returns results s row) {r : Row} :
    r ∈ groupRows hash q.dimensions ((plan.answerRows results).map normalizeRow)
        (rowKey hash q.dimensions (normalizeRow row)) ↔
      ∃ t other, plan.Returns results t other ∧ tuple q.dimensions other = tuple q.dimensions row ∧
        normalizeRow other = r := by
  obtain ⟨hfits, hsorted⟩ := fits_of_returns hkept hfit hrow
  unfold groupRows
  rw [List.mem_filter, List.mem_map, beq_iff_eq]
  constructor
  · rintro ⟨⟨other, hother, rfl⟩, hkey⟩
    obtain ⟨t, ht⟩ := QueryPlan.mem_answerRows.1 hother
    obtain ⟨hfits', hsorted'⟩ := fits_of_returns hkept hfit ht
    exact ⟨t, other, ht, (rowKey_eq_iff hq hfits' hsorted' hhash hfits hsorted).1 hkey, rfl⟩
  · rintro ⟨t, other, ht, htuple, rfl⟩
    obtain ⟨hfits', hsorted'⟩ := fits_of_returns hkept hfit ht
    exact ⟨⟨other, QueryPlan.mem_answerRows.2 ⟨t, ht⟩, rfl⟩,
      (rowKey_eq_iff hq hfits' hsorted' hhash hfits hsorted).2 htuple⟩

/-- A document opens with the tuple of its group. -/
theorem exists_opening_eq {s : SubQuery} {row : Row} (hrow : plan.Returns results s row) :
    let key := rowKey hash q.dimensions (normalizeRow row)
    ∃ t other, plan.Returns results t other ∧ tuple q.dimensions other = tuple q.dimensions row ∧
      opening q.dimensions key
        (groupRows hash q.dimensions ((plan.answerRows results).map normalizeRow) key) =
          newDocument (rowId q.dimensions (normalizeRow other)) key := by
  intro key
  have hmem := fun r => mem_groupRows hhash hq hkept hfit hrow (r := r)
  cases hgroup : groupRows hash q.dimensions ((plan.answerRows results).map normalizeRow) key with
  | nil =>
    have hself := (hmem (normalizeRow row)).2 ⟨s, row, hrow, rfl, rfl⟩
    rw [show rowKey hash q.dimensions (normalizeRow row) = key from rfl, hgroup] at hself
    cases hself
  | cons r rest =>
    obtain ⟨t, other, ht, htuple, hr⟩ := (hmem r).1 (by
      rw [show rowKey hash q.dimensions (normalizeRow row) = key from rfl, hgroup]
      simp)
    exact ⟨t, other, ht, htuple, by rw [opening, hr]⟩

theorem groupColumn?_dimension {s : SubQuery} {row : Row} (hrow : plan.Returns results s row)
    {d : Dimension} (hd : d ∈ q.dimensions) (hkeyed : d.isKeyed = true) :
    groupColumn? hash q.dimensions q.metrics ((plan.answerRows results).map normalizeRow)
      (rowKey hash q.dimensions (normalizeRow row)) (normalizeColumn d.key) = d.rawValue? row := by
  obtain ⟨t, other, ht, htuple, hopening⟩ := exists_opening_eq hhash hq hkept hfit hrow
  obtain ⟨hfits, hsorted⟩ := fits_of_returns hkept hfit ht
  obtain ⟨hvalue, v, hv, -⟩ := value?_normalizeRow hq hfits hsorted hd hkeyed
  have hkey : isDimensionKey q.dimensions (normalizeColumn d.key) = true :=
    isDimensionKey_iff.2 ⟨d, hd, hkeyed, rfl⟩
  have hnames := hq.key_not_mem hd
  rw [List.mem_cons, List.mem_singleton, not_or] at hnames
  have hraw : d.rawValue? other = d.rawValue? row :=
    List.map_inj_left.1 htuple d (List.mem_filter.2 ⟨hd, hkeyed⟩)
  simp only [groupColumn?_eq, hkey, if_true, Option.none_or, hopening]
  rw [find?_newDocument, if_neg hnames.2, if_neg hnames.1, find?_rowId hq.nodup_keyed _ hd hkeyed, hvalue,
    ← hraw, hv]
  rfl

/-- A metric comes from a row of the group, or it is null. -/
theorem groupColumn?_metric {s : SubQuery} {row : Row} (hrow : plan.Returns results s row) {m : Metric}
    (hm : m ∈ q.metrics) (hplaceholder : m.isPlaceholder = false) :
    let key := rowKey hash q.dimensions (normalizeRow row)
    let rows := (plan.answerRows results).map normalizeRow
    groupColumn? hash q.dimensions q.metrics rows key (normalizeColumn m.key) =
      some ((((groupRows hash q.dimensions rows key).filterMap
        (Assoc.find? (normalizeColumn m.key))).getLast?).getD .null) := by
  intro key rows
  obtain ⟨t, other, ht, -, hopening⟩ := exists_opening_eq hhash hq hkept hfit hrow
  have hkey := hq.isDimensionKey_metric hm
  have hnames := hq.metric_not_mem hm
  rw [List.mem_cons, List.mem_singleton, not_or] at hnames
  have hnone : Assoc.find? (normalizeColumn m.key) (opening q.dimensions key
      (groupRows hash q.dimensions rows key)) = none := by
    rw [show opening q.dimensions key (groupRows hash q.dimensions rows key) = _ from hopening,
      find?_newDocument, if_neg hnames.2, if_neg hnames.1, find?_rowId_eq_none hkey]
  have hmetric : normalizeColumn m.key ∈ metricColumns q.metrics :=
    List.mem_map.2 ⟨m, List.mem_filter.2 ⟨hm, by rw [hplaceholder]; rfl⟩, rfl⟩
  simp only [groupColumn?_eq, hkey, hnone, if_pos hmetric, Option.or_none, Bool.false_eq_true, if_false]
  cases ((groupRows hash q.dimensions rows key).filterMap
    (Assoc.find? (normalizeColumn m.key))).getLast? <;> rfl

theorem groupColumn?_isSome {s : SubQuery} {row : Row} (hrow : plan.Returns results s row)
    {column : String} (hcolumn : (groupColumn? hash q.dimensions q.metrics
      ((plan.answerRows results).map normalizeRow) (rowKey hash q.dimensions (normalizeRow row))
      column).isSome) : column = "_id" ∨ column = "key" ∨
    isDimensionKey q.dimensions column = true ∨
      (∃ m ∈ q.metrics, m.isPlaceholder = false ∧ underscored m.key = column) ∨
      ∃ t other, plan.Returns results t other ∧ tuple q.dimensions other = tuple q.dimensions row ∧
        ∃ c ∈ other.map Prod.fst, documentColumn c = column := by
  obtain ⟨t, other, ht, -, hopening⟩ := exists_opening_eq hhash hq hkept hfit hrow
  rw [groupColumn?_eq] at hcolumn
  simp only [Option.isSome_or, Bool.or_eq_true] at hcolumn
  rcases hcolumn with (hcarried | hopened) | hfilled
  · split_ifs at hcarried
    · cases hcarried
    · obtain ⟨v, hv⟩ := Option.isSome_iff_exists.1 hcarried
      obtain ⟨r, hr, hfind⟩ := List.mem_filterMap.1 (List.mem_of_getLast? hv)
      obtain ⟨t, other, ht, htuple, rfl⟩ := (mem_groupRows hhash hq hkept hfit hrow).1 hr
      exact .inr (.inr (.inr (.inr ⟨t, other, ht, htuple, exists_of_find?_normalizeRow hfind⟩)))
  · rw [hopening, find?_newDocument] at hopened
    split_ifs at hopened with hkey hid
    · exact .inr (.inl hkey)
    · exact .inl hid
    · refine .inr (.inr (.inl ?_))
      by_contra hdimension
      rw [find?_rowId_eq_none (Bool.not_eq_true _ ▸ hdimension)] at hopened
      cases hopened
  · split_ifs at hfilled with hmetric
    · exact .inr (.inr (.inr (.inl ((mem_metricColumns_iff _).1 hmetric))))
    · cases hfilled

/-- Some rows stand for the tuples that were returned, one row for each tuple. -/
theorem exists_representatives : ∃ first : List Row,
    (∀ row ∈ first, ∃ s, plan.Returns results s row) ∧
    ((plan.answerRows results).map (rowKey hash q.dimensions ∘ normalizeRow)).eraseDups =
      first.map (rowKey hash q.dimensions ∘ normalizeRow) ∧
    (first.map (tuple q.dimensions)).Nodup ∧
    ∀ t, t ∈ first.map (tuple q.dimensions) ↔
      ∃ s row, plan.Returns results s row ∧ tuple q.dimensions row = t := by
  set key := rowKey hash q.dimensions ∘ normalizeRow with hkey
  have hsame : ∀ s t a b, plan.Returns results s a → plan.Returns results t b →
      (key a = key b ↔ tuple q.dimensions a = tuple q.dimensions b) := by
    intro s t a b ha hb
    obtain ⟨hafits, hakept⟩ := fits_of_returns hkept hfit ha
    obtain ⟨hbfits, hbkept⟩ := fits_of_returns hkept hfit hb
    exact rowKey_eq_iff hq hafits hakept hhash hbfits hbkept
  obtain ⟨first, hfirst, hkeys⟩ := exists_eraseDups_eq_map (plan.answerRows results) key
  have hreturned := fun row hrow => QueryPlan.mem_answerRows.1 (hfirst row hrow)
  refine ⟨first, hreturned, hkeys, ?_, fun t => ?_⟩
  · have hnodup := nodup_eraseDups ((plan.answerRows results).map key)
    rw [hkeys, List.Nodup, List.pairwise_map] at hnodup
    -- rows with one tuple have one key, and no two of these rows have one key
    refine List.pairwise_map.2 (hnodup.imp_of_mem fun {a b} ha hb hne he => hne ?_)
    obtain ⟨s, hs⟩ := hreturned a ha
    obtain ⟨t, ht⟩ := hreturned b hb
    exact (hsame s t a b hs ht).2 he
  · rw [List.mem_map]
    constructor
    · rintro ⟨row, hrow, ht⟩
      obtain ⟨s, hs⟩ := hreturned row hrow
      exact ⟨s, row, hs, ht⟩
    · rintro ⟨s, row, hs, ht⟩
      have hmem : key row ∈ ((plan.answerRows results).map key).eraseDups :=
        List.mem_eraseDups.2 (List.mem_map_of_mem (QueryPlan.mem_answerRows.2 ⟨s, hs⟩))
      rw [hkeys] at hmem
      obtain ⟨other, hother, he⟩ := List.mem_map.1 hmem
      obtain ⟨u, hu⟩ := hreturned other hother
      exact ⟨other, hother, ((hsame u s other row hu hs).1 he).trans ht⟩

include h

/-- The document of a group holds what the join of its tuple asks for. -/
theorem isJoined_of_returns {s : SubQuery} {row : Row} (hrow : plan.Returns results s row)
    {document : Row} (hdocument : ∀ column, Assoc.find? column document =
      groupColumn? hash q.dimensions q.metrics ((plan.answerRows results).map normalizeRow)
        (rowKey hash q.dimensions (normalizeRow row)) column) :
    IsJoined q plan results (tuple q.dimensions row) document where
  dimensions := by
    refine List.map_congr_left fun d hd => ?_
    obtain ⟨hd, hkeyed⟩ := List.mem_filter.1 hd
    rw [← normalizeColumn_eq, hdocument, groupColumn?_dimension hhash hq hkept hfit hrow hd hkeyed]
  metric := by
    intro m hm hplaceholder t other ht hserved htuple
    obtain ⟨hfits, hsorted⟩ := fits_of_returns hkept hfit ht
    obtain ⟨v, hv⟩ := Option.isSome_iff_exists.1 (hfits.metric m hm hplaceholder hserved)
    refine ⟨v, hv, ?_⟩
    rw [← normalizeColumn_eq, hdocument, groupColumn?_metric hhash hq hkept hfit hrow hm hplaceholder,
      getLast?_filterMap_eq (v := v)]
    · rfl
    · refine ⟨normalizeRow other, (mem_groupRows hhash hq hkept hfit hrow).2 ⟨t, other, ht, htuple, rfl⟩, ?_⟩
      rw [find?_metric hq hfits hsorted hm, hv]
    · intro r hr w hw
      obtain ⟨t', other', ht', htuple', rfl⟩ := (mem_groupRows hhash hq hkept hfit hrow).1 hr
      obtain ⟨hfits', hsorted'⟩ := fits_of_returns hkept hfit ht'
      obtain ⟨hw, hserved'⟩ := find?_metric_eq_some hq hfits' hsorted' hm hw
      -- the metric is served once, and its sub-query has one row with the tuple
      rw [QueryPlan.returns_unique hq h hfit hm ht' ht hserved' hserved (htuple'.trans htuple.symm), hv]
        at hw
      exact (Option.some.inj hw).symm
  metric_null := by
    intro m hm hplaceholder hnone
    rw [← normalizeColumn_eq, hdocument, groupColumn?_metric hhash hq hkept hfit hrow hm hplaceholder]
    have hnil : (groupRows hash q.dimensions ((plan.answerRows results).map normalizeRow)
        (rowKey hash q.dimensions (normalizeRow row))).filterMap
          (Assoc.find? (normalizeColumn m.key)) = [] := by
      rw [List.filterMap_eq_nil_iff]
      intro r hr
      obtain ⟨t, other, ht, htuple, rfl⟩ := (mem_groupRows hhash hq hkept hfit hrow).1 hr
      obtain ⟨hfits, hsorted⟩ := fits_of_returns hkept hfit ht
      cases hw : Assoc.find? (normalizeColumn m.key) (normalizeRow other) with
      | none => rfl
      | some w =>
        exact absurd htuple (hnone t other ht (find?_metric_eq_some hq hfits hsorted hm hw).2)
    rw [hnil]
    rfl
  only := by
    intro column hcolumn
    refine groupColumn?_isSome hhash hq hkept hfit hrow ?_
    rw [← hdocument, Assoc.find?_isSome_iff]
    exact hcolumn

end Joining

/-- Pivoting the results of a compiled clean query is their full outer join: there is one document for
each tuple that a sub-query answered with, and it holds the metrics of the rows with that tuple. -/
theorem merge_isOuterJoin {hash : String → String} (hhash : Function.Injective hash)
    {q : QueryDescriptor} (hq : q.Clean) {defaultInterval : Interval} {uid : String} {plan : QueryPlan}
    (h : QueryPlan.compile hash defaultInterval uid q = .ok plan) {results : List (String × RawResult)}
    (hkept : ∀ r ∈ results, r.2.Kept)
    (hfit : ∀ p ∈ plan.subQueries, ∀ raw ∈ Assoc.find? p.1 results, ResultFits q p.2 raw) :
    let result := merge hash plan results
    result.anomalies = [] ∧ ∃ tuples : List (List (Option Json)), tuples.Nodup ∧
      (∀ t, t ∈ tuples ↔ ∃ s row, plan.Returns results s row ∧ tuple q.dimensions row = t) ∧
      List.Forall₂ (IsJoined q plan results) tuples result.documents := by
  intro result
  have hplan := QueryPlan.eq_of_compile_eq_ok h
  have hdimensions : plan.dimensions = q.dimensions := by rw [hplan]
  have hmetrics : plan.metrics = q.metrics := by rw [hplan]
  have hresult : result = (ofRows hash q.dimensions q.metrics (rowsOf (plan.answers results))).finish := by
    rw [← foldAll_start, ← hdimensions, ← hmetrics]
    exact merge_eq hash plan results
  obtain ⟨first, hfirst, hkeys, hnodup, htuples⟩ := exists_representatives hhash hq hkept hfit
  rw [hresult]
  refine ⟨?_, first.map (tuple q.dimensions), hnodup, htuples, ?_⟩
  · exact List.flatMap_eq_nil_iff.2 fun r hr => missing_eq_nil_of_mem hq hkept hfit r.1 hr
  · have hdocuments := forall₂_documents_ofRows hash q.dimensions q.metrics
      fun row (hrow : row ∈ (rowsOf (plan.answers results)).map Prod.snd) => sorted_of_mem_rowsOf hrow
    rw [map_snd_rowsOf, List.map_map, hkeys, List.forall₂_map_left_iff] at hdocuments
    rw [List.forall₂_map_left_iff]
    refine ((List.forall₂_and_left _ _).2 ⟨hfirst, hdocuments⟩).imp ?_
    rintro row document ⟨⟨s, hs⟩, -, hcolumns⟩
    exact isJoined_of_returns hhash hq h hkept hfit hs hcolumns

/-- Sums and counts by day and country, and a ratio of the two that no store computes. -/
def byDayAndCountry : QueryDescriptor :=
  { QueryDescriptor.empty with
    dimensions := [⟨"time", .date, none, none⟩, ⟨"country", .string, some "tags.country", none⟩]
    metrics := [{ Metric.named "sum" with collection := some ⟨"orders", none⟩ },
      { Metric.named "visits" with collection := some ⟨"web", none⟩, aggregation := some .count },
      { Metric.named "ratio" with formula := some (.string "sum / visits") }] }

/-- Two days of one country in the orders, and the first of them with another country on the web. -/
def daysOfCountries : List (String × RawResult) :=
  [("orders_\x7b\x7d", ⟨[⟨"orders", [("tags.country", .string "FR")], ["time", "sum"],
      [[.ofInt 86400000, .ofInt 5], [.ofInt 172800000, .ofInt 7]]⟩]⟩),
    ("web_\x7b\x7d", ⟨[⟨"web", [], ["country", "time", "visits"],
      [[.string "FR", .string "86400000", .ofInt 3], [.string "IT", .ofInt 86400000, .ofInt 4]]⟩]⟩)]

theorem merge_isOuterJoin_byDayAndCountry :
    Function.Injective (id : String → String) ∧ byDayAndCountry.Clean ∧
    ∃ plan, QueryPlan.compile id .day "uid" byDayAndCountry = .ok plan ∧
      (∀ r ∈ daysOfCountries, r.2.Kept) ∧
      (∀ p ∈ plan.subQueries, ∀ raw ∈ Assoc.find? p.1 daysOfCountries,
        ResultFits byDayAndCountry p.2 raw) ∧
      (merge id plan daysOfCountries).documents.length = 3 ∧
      (merge id plan daysOfCountries).anomalies = [] ∧ ∃ tuples : List (List (Option Json)),
        tuples.Nodup ∧ (∀ t, t ∈ tuples ↔ ∃ s row, plan.Returns daysOfCountries s row ∧
          tuple byDayAndCountry.dimensions row = t) ∧
        List.Forall₂ (IsJoined byDayAndCountry plan daysOfCountries) tuples
          (merge id plan daysOfCountries).documents :=
  ⟨Function.injective_id, by decide, _, rfl, by decide, by decide +kernel, by decide +kernel,
    merge_isOuterJoin Function.injective_id (by decide) rfl (by decide) (by decide +kernel)⟩

end Pivot

end SeriesPivot
