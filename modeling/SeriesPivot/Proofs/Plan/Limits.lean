import SeriesPivot.Proofs.Json.Records
import SeriesPivot.Proofs.Plan.Groupings
import SeriesPivot.Proofs.Plan.Sources

/-!
# Which timeframes limit a plan

A timeframe is read as a number of items if its object has one member `last_n_items` and this is a natural
number of 64 bits. Every other object is read as a range of time, whatever it has under this name, so its
plan is not limited at all.

* `Timeframe.Counts` says that the members of an object count items.
* `QueryDescriptor.timeframe_of_decode`: a query has the timeframe that its tree has.
* `QueryPlan.Counted` and `QueryPlan.Ranged` say what a timeframe does to a plan.
* `QueryPlan.counted_iff`: a plan is limited if and only if the members of the timeframe count items.
-/

namespace SeriesPivot

open Json (Source)

theorem Json.Decode.natBelow_eq_ok_iff {bound n : ℕ} {s : Source} :
    natBelow bound s = .ok n ↔ s = .number (some (.int n)) ∧ n < bound := by
  constructor
  · intro h
    unfold natBelow at h
    split at h
    · split_ifs at h with hrange
      cases h
      obtain ⟨hnonneg, hlt⟩ := hrange
      rw [Int.toNat_of_nonneg hnonneg]
      exact ⟨rfl, by omega⟩
    · cases h
  · rintro ⟨rfl, hn⟩
    have hrange : (0 : ℤ) ≤ n ∧ (n : ℤ) < bound := by omega
    rw [natBelow, if_pos hrange, Int.toNat_natCast]

/-! ### Timeframes -/

namespace Timeframe

variable {members : List (Option String × Source)}

/-- One member says how many items are kept, and it is a natural number of 64 bits. -/
def Counts (members : List (Option String × Source)) (n : ℕ) : Prop :=
  members.filter (fun m => m.1 == some "last_n_items") =
      [(some "last_n_items", .number (some (.int n)))] ∧ n < UInt64.size

theorem Counts.unique {n m : ℕ} (hn : Counts members n) (hm : Counts members m) : n = m := by
  have h := hn.1.symm.trans hm.1
  simpa using h

theorem single_eq_ok_some_iff {name : String} {s : Source} :
    single name members = .ok (some s) ↔
      members.filter (fun m => m.1 == some name) = [(some name, s)] := by
  have hname : ∀ m ∈ members.filter (fun m => m.1 == some name), m.1 = some name := by
    intro m hm
    simpa using (List.mem_filter.1 hm).2
  unfold single
  split
  · rename_i heq
    simp [heq]
  · rename_i m heq
    rw [heq] at hname ⊢
    obtain ⟨name', s'⟩ := m
    obtain rfl : name' = some name := hname _ (List.mem_singleton_self _)
    simp
  · rename_i hnil hone
    refine ⟨nofun, fun h => absurd h (hone _)⟩

/-- The members of an object are read as a number of items if they count items. -/
theorem decodeLastItems_eq_ok_iff {t : Timeframe} :
    decodeLastItems members = .ok t ↔ ∃ n, t = .lastItems n ∧ Counts members n := by
  unfold decodeLastItems
  rw [bind_eq_ok_iff]
  constructor
  · rintro ⟨found, hfound, h⟩
    cases found with
    | none => cases h
    | some s =>
      obtain ⟨n, hn, h⟩ := bind_eq_ok_iff.1 h
      cases h
      obtain ⟨rfl, hlt⟩ := Json.Decode.natBelow_eq_ok_iff.1 hn
      exact ⟨n, rfl, single_eq_ok_some_iff.1 hfound, hlt⟩
  · rintro ⟨n, rfl, hone, hn⟩
    refine ⟨_, single_eq_ok_some_iff.2 hone, ?_⟩
    exact bind_eq_ok_iff.2 ⟨n, Json.Decode.natBelow_eq_ok_iff.2 ⟨rfl, hn⟩, rfl⟩

theorem exists_of_decodeRange {t : Timeframe} (h : decodeRange members = .ok t) :
    ∃ start stop, t = .range start stop := by
  obtain ⟨first, -, h⟩ := bind_eq_ok_iff.1 h
  obtain ⟨last, -, h⟩ := bind_eq_ok_iff.1 h
  obtain ⟨start, -, h⟩ := bind_eq_ok_iff.1 h
  obtain ⟨stop, -, h⟩ := bind_eq_ok_iff.1 h
  cases h
  exact ⟨start, stop, rfl⟩

/-- An object is read as a number of items or as a range of time. -/
theorem decode_object {t : Timeframe} (h : decode (.object members) = .ok t) :
    (∃ n, t = .lastItems n ∧ Counts members n) ∨
    (∀ n, ¬ Counts members n) ∧ decodeRange members = .ok t ∧ ∃ start stop, t = .range start stop := by
  obtain ⟨-, -, h⟩ := bind_eq_ok_iff.1 h
  dsimp only at h
  split at h
  · rename_i u hu
    cases h
    exact .inl (decodeLastItems_eq_ok_iff.1 hu)
  · rename_i e he
    refine .inr ⟨fun n hn => ?_, h, ?_⟩
    · rw [decodeLastItems_eq_ok_iff.2 ⟨n, rfl, hn⟩] at he
      cases he
    · exact exists_of_decodeRange h

end Timeframe

/-! ### Timeframes of queries -/

namespace QueryDescriptor

/-- The tree that the tree of a query has for its timeframe: a member of this name, or the fourth item. -/
inductive TimeframeIn : Source → Source → Prop where
  | member {members : List (Option String × Source)} {t : Source} (h : (some "timeframe", t) ∈ members) :
    TimeframeIn (.object members) t
  | item {items : List Source} {t : Source} (h : items[3]? = some t) : TimeframeIn (.array items) t

open Json.Decode (Owns get_of_read eq_of_read) in
/-- The timeframe of a query is set by one of its fields. -/
theorem exists_owns_timeframe :
    ∃ (fields : List (Json.Decode.Field QueryDescriptor)) (f : Json.Decode.Field QueryDescriptor),
      decode = Json.Decode.record false fields empty ∧ f.name = "timeframe" ∧ fields[3]? = some f ∧
        Owns fields f (Json.Decode.optional Timeframe.decode) QueryDescriptor.timeframe := by
  refine ⟨_, _, rfl, rfl, rfl, List.mem_of_getElem? (i := 3) rfl, by decide, ?_, ?_⟩
  · exact fun q s b h => eq_of_read QueryDescriptor.timeframe h fun _ => rfl
  · simp only [List.forall_mem_cons]
    refine ⟨fun _ q s b h => ?_, fun _ q s b h => ?_, fun _ q s b h => ?_, fun h => absurd rfl h,
      fun _ q s b h => ?_, fun _ q s b h => ?_, by simp⟩
    all_goals exact get_of_read QueryDescriptor.timeframe h fun _ => rfl

/-- A query has the timeframe that its tree has. -/
theorem timeframe_of_decode {s t : Source} {q : QueryDescriptor} (h : decode s = .ok q)
    (ht : TimeframeIn s t) : Json.Decode.optional Timeframe.decode t = .ok q.timeframe := by
  obtain ⟨fields, f, hdecode, hname, hf, howns⟩ := exists_owns_timeframe
  rw [hdecode] at h
  refine Json.Decode.get_of_record howns ?_ h
  cases ht with
  | member hmem => exact .member (hname ▸ hmem)
  | item hitem => exact .item 3 hf hitem

end QueryDescriptor

/-! ### Limits of plans -/

namespace QueryPlan

variable {hash : String → String} {defaultInterval : Interval} {uid : String} {q : QueryDescriptor}
  {plan : QueryPlan}

theorem limit_of_compile (h : compile hash defaultInterval uid q = .ok plan) : plan.limit = q.limit := by
  rw [eq_of_compile_eq_ok h]

/-- Every sub-query keeps as many rows as the query asks for. -/
theorem limit_of_mem (h : compile hash defaultInterval uid q = .ok plan) {p : String × SubQuery}
    (hp : p ∈ plan.subQueries) : p.2.clauses.limit = q.limit :=
  (SubQuery.group_ofGroup (ofGroup_of_mem h hp)).2

/-- Every sub-query is under the filters on one of the metrics of the query. -/
theorem conditions_of_mem (h : compile hash defaultInterval uid q = .ok plan) {p : String × SubQuery}
    (hp : p ∈ plan.subQueries) : ∃ item ∈ q.executables,
      p.2.clauses.conditions = Match.restrict [] (q.filtersOn item.1) := by
  obtain ⟨first, hfirst, -, -, hconditions⟩ := SubQuery.exists_first (ofGroup_of_mem h hp)
  refine ⟨first, (List.mem_filter.1 hfirst).1, ?_⟩
  rw [hconditions, Clauses.restrict_shared]

/-- All of a plan is limited to a number of rows, and the conditions in it are filters of the query and of
one of its metrics, so none of them is a bound of time. -/
structure Counted (q : QueryDescriptor) (plan : QueryPlan) (n : ℕ) : Prop where
  limit : plan.limit = some n
  subQueries : ∀ p ∈ plan.subQueries, p.2.clauses.limit = some n
  conditions : ∀ p ∈ plan.subQueries, ∃ item ∈ q.executables,
    p.2.clauses.conditions = Match.restrict [] (q.filter ++ item.1.filter)

/-- Nothing of a plan is limited, and the bounds of a range of time are conditions of all of it. -/
structure Ranged (q : QueryDescriptor) (plan : QueryPlan) (start stop : Option Json) : Prop where
  limit : plan.limit = none
  subQueries : ∀ p ∈ plan.subQueries, p.2.clauses.limit = none
  conditions : ∀ p ∈ plan.subQueries, ∃ item ∈ q.executables,
    p.2.clauses.conditions =
      Match.restrict [] ((Timeframe.range start stop).filters ++ q.filter ++ item.1.filter)

theorem counted_of_lastItems (h : compile hash defaultInterval uid q = .ok plan) {n : ℕ}
    (ht : q.timeframe = some (.lastItems n)) : plan.Counted q n := by
  have hlimit : q.limit = some n := (q.limit_eq_some_iff n).2 ht
  refine ⟨(limit_of_compile h).trans hlimit, fun p hp => (limit_of_mem h hp).trans hlimit,
    fun p hp => ?_⟩
  obtain ⟨item, hitem, hconditions⟩ := conditions_of_mem h hp
  refine ⟨item, hitem, ?_⟩
  rw [hconditions, QueryDescriptor.filtersOn, ht]
  rfl

theorem ranged_of_range (h : compile hash defaultInterval uid q = .ok plan) {start stop : Option Json}
    (ht : q.timeframe = some (.range start stop)) : plan.Ranged q start stop := by
  have hlimit : q.limit = none := by
    rw [QueryDescriptor.limit, ht]
  refine ⟨(limit_of_compile h).trans hlimit, fun p hp => (limit_of_mem h hp).trans hlimit,
    fun p hp => ?_⟩
  obtain ⟨item, hitem, hconditions⟩ := conditions_of_mem h hp
  refine ⟨item, hitem, ?_⟩
  rw [hconditions, QueryDescriptor.filtersOn, ht]
  rfl

/-- A query with an object for its timeframe is compiled, unless it has a dimension of an unknown type. Its
plan is limited if and only if the members of the object count items. Otherwise the members are read as a
range of time, and nothing is limited. -/
theorem counted_iff (hash : String → String) (defaultInterval : Interval) (uid : String) {s : Source}
    {q : QueryDescriptor} {members : List (Option String × Source)}
    (h : QueryDescriptor.decode s = .ok q) (ht : QueryDescriptor.TimeframeIn s (.object members)) :
    match q.unknownDimension? with
    | some (key, datatype) =>
      compile hash defaultInterval uid q = .error (.unknownDimensionType key datatype)
    | none => ∃ plan, compile hash defaultInterval uid q = .ok plan ∧
        (∀ n, plan.Counted q n ↔ Timeframe.Counts members n) ∧
        ((∀ n, ¬ Timeframe.Counts members n) → ∃ start stop,
          Timeframe.decodeRange members = .ok (.range start stop) ∧ plan.Ranged q start stop) := by
  obtain ⟨t, hdecode, hq⟩ := map_eq_ok_iff.1 (QueryDescriptor.timeframe_of_decode h ht)
  cases hu : q.unknownDimension? with
  | some e => rw [compile_eq, hu]
  | none =>
    have hcompile := compile_eq hash defaultInterval uid q
    rw [hu] at hcompile
    refine ⟨_, hcompile, ?_⟩
    rcases Timeframe.decode_object hdecode with ⟨n, rfl, hn⟩ | ⟨hnone, hrange, start, stop, rfl⟩
    · have hcounted := counted_of_lastItems hcompile hq.symm
      refine ⟨fun m => ⟨fun hm => ?_, fun hm => ?_⟩, fun hnone => absurd hn (hnone n)⟩
      · obtain rfl : n = m := Option.some.inj (hcounted.limit.symm.trans hm.limit)
        exact hn
      · rwa [hm.unique hn]
    · have hranged := ranged_of_range hcompile hq.symm
      refine ⟨fun m => ⟨fun hm => ?_, fun hm => absurd hm (hnone m)⟩, fun _ =>
        ⟨start, stop, hrange, hranged⟩⟩
      cases hranged.limit.symm.trans hm.limit

/-- Visits within a timeframe. -/
def visitsWithin (timeframe : List (String × Json)) : Json :=
  .object [("metrics", .array [.object [("collection", .object [("key", .string "events")]),
    ("key", .string "visits")]]), ("timeframe", .object timeframe)]

theorem counted_iff_fiveItems :
    let timeframe := [("last_n_items", Json.ofInt 5), ("start", .ofInt 0)]
    ∃ q plan, QueryDescriptor.decode (Source.ofJson (visitsWithin timeframe)) = .ok q ∧
      QueryDescriptor.TimeframeIn (Source.ofJson (visitsWithin timeframe))
        (.object (Source.ofFields timeframe)) ∧
      compile id .day "uid" q = .ok plan ∧ plan.subQueries.length = 1 ∧
      Timeframe.Counts (Source.ofFields timeframe) 5 ∧ plan.Counted q 5 := by
  intro timeframe
  have ht : QueryDescriptor.TimeframeIn (Source.ofJson (visitsWithin timeframe))
      (.object (Source.ofFields timeframe)) :=
    .member (List.mem_cons_of_mem _ List.mem_cons_self)
  have hcounts : Timeframe.Counts (Source.ofFields timeframe) 5 := ⟨rfl, by decide⟩
  obtain ⟨plan, hplan, hcounted, -⟩ := counted_iff id .day "uid" (q := _) rfl ht
  refine ⟨_, plan, rfl, ht, hplan, ?_, hcounts, (hcounted 5).2 hcounts⟩
  cases hplan
  rfl

/-- A negative number of items is no fault, and nothing is limited by it. -/
theorem negative_count_ignored :
    ∃ q plan, QueryDescriptor.ofJson? (visitsWithin [("last_n_items", .ofInt (-5))]) = some q ∧
      compile id .day "uid" q = .ok plan ∧ (∀ n, ¬ plan.Counted q n) ∧
      plan.subQueries.map (fun p => Statement.render false p.2) =
        ["select sum(visits) as visits from events"] := by
  refine ⟨_, _, rfl, rfl, fun n hn => ?_, by decide⟩
  cases hn.limit

end QueryPlan

end SeriesPivot
