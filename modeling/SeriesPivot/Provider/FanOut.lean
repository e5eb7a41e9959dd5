import SeriesPivot.Assoc
import SeriesPivot.Statement
import SeriesPivot.Store.Basic

/-!
# Fanning out a plan

All statements of a plan are sent to the store at once, and their results come in one by one.

* `QueryPlan.completions` are the results under the keys of the sub-queries, in key order.
* `gather` collects completions in the order in which they come in. The first failure ends it.
-/

namespace SeriesPivot

/-- The result of a sub-query under its key. -/
abbrev Completion := String × Except StoreError RawResult

/-- The result of each sub-query, in key order. -/
def QueryPlan.completions (store : Store) (fillZero : Bool) (p : QueryPlan) : List Completion :=
  (p.statements fillZero).map fun (key, statement) => (key, store.query statement)

/-- Collect completions in order of arrival into the results that are there already. -/
def gatherInto (results : List (String × RawResult)) :
    List Completion → Except StoreError (List (String × RawResult))
  | [] => .ok results
  | (_, .error e) :: _ => .error e
  | (key, .ok raw) :: rest => gatherInto (Assoc.insert key raw results) rest

/-- Collect completions in order of arrival. -/
def gather (completions : List Completion) : Except StoreError (List (String × RawResult)) :=
  gatherInto [] completions

end SeriesPivot
