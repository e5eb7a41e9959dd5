import SeriesPivot.Proofs.Plan.Sharing
import SeriesPivot.Provider.Basic
import Mathlib.Algebra.Order.Group.Multiset
import Mathlib.Logic.Relation
import Mathlib.Tactic.Abel

/-!
# Fanning out in any order

A provider answers a query from completions in key order. Here the sub-queries run side by side: each
of them sends its statement at some time, is answered at some time, and its completion is looked at at
some time, unless an error was seen before.

* `FanOut.Step` is what can happen next, and a run is any sequence of such steps.
* `FanOut.outcome?` is what the collector returns, once it does.
* `gather_eq_ok_iff`: collecting succeeds exactly on completions without errors.
* `FanOut.exists_settled`: every run comes to an end.
* `Provider.fanOut_all_or_nothing`: every run sends each statement once, and it answers like the
  provider or with the error of one of the sub-queries.
-/

namespace SeriesPivot

/-! ### Collecting -/

/-- The result of a completion without error. -/
def Completion.result? (c : Completion) : Option (String × RawResult) :=
  match c with
  | (key, .ok raw) => some (key, raw)
  | (_, .error _) => none

theorem Completion.result?_eq_some_iff {c : Completion} {key : String} {raw : RawResult} :
    c.result? = some (key, raw) ↔ c = (key, .ok raw) := by
  obtain ⟨key', e | raw'⟩ := c <;> simp [result?]

theorem gatherInto_eq_ok_iff {completions : List Completion}
    {start results : List (String × RawResult)} :
    gatherInto start completions = .ok results ↔
      (∀ c ∈ completions, c.result?.isSome) ∧
        results = Assoc.insertAll start (completions.filterMap Completion.result?) := by
  induction completions generalizing start with
  | nil => simpa [gatherInto] using eq_comm
  | cons c rest ih =>
    obtain ⟨key, e | raw⟩ := c
    · simp [gatherInto, Completion.result?]
    · simp [gatherInto, Completion.result?, ih, Assoc.insertAll_cons]

/-- Collecting succeeds exactly on completions without errors, and makes a map of their results. -/
theorem gather_eq_ok_iff {completions : List Completion} {results : List (String × RawResult)} :
    gather completions = .ok results ↔
      (∀ c ∈ completions, c.result?.isSome) ∧
        results = Assoc.ofList (completions.filterMap Completion.result?) :=
  gatherInto_eq_ok_iff

theorem exists_mem_of_gatherInto_eq_error {completions : List Completion}
    {start : List (String × RawResult)} {e : StoreError}
    (h : gatherInto start completions = .error e) : ∃ key, (key, .error e) ∈ completions := by
  induction completions generalizing start with
  | nil => cases h
  | cons c rest ih =>
    obtain ⟨key, e' | raw⟩ := c
    · cases h
      exact ⟨key, List.mem_cons_self⟩
    · obtain ⟨key', hmem⟩ := ih h
      exact ⟨key', List.mem_cons_of_mem _ hmem⟩

/-- Collecting fails with an error that came in. -/
theorem exists_mem_of_gather_eq_error {completions : List Completion} {e : StoreError}
    (h : gather completions = .error e) : ∃ key, (key, .error e) ∈ completions :=
  exists_mem_of_gatherInto_eq_error h

theorem map_fst_filterMap_result? {completions : List Completion}
    (h : ∀ c ∈ completions, c.result?.isSome) :
    (completions.filterMap Completion.result?).map Prod.fst = completions.map Prod.fst := by
  induction completions with
  | nil => rfl
  | cons c rest ih =>
    rw [List.forall_mem_cons] at h
    obtain ⟨key, e | raw⟩ := c
    · simp [Completion.result?] at h
    · simp [Completion.result?, ih h.2]

/-- Completions under different keys are collected into one map in any order. -/
theorem gather_eq_ok_of_perm {l m : List Completion} (hlm : l.Perm m) (hkeys : (l.map Prod.fst).Nodup)
    {results : List (String × RawResult)} (h : gather l = .ok results) : gather m = .ok results := by
  obtain ⟨hall, rfl⟩ := gather_eq_ok_iff.1 h
  refine gather_eq_ok_iff.2 ⟨fun c hc => hall c (hlm.mem_iff.2 hc), ?_⟩
  refine Assoc.ofList_eq_of_perm (hlm.filterMap _) ?_
  rwa [map_fst_filterMap_result? hall]

/-! ### Sub-queries side by side -/

/-- The sub-queries of a plan on their way. A task is the key of a sub-query with its statement. -/
structure FanOut where
  /-- Tasks that were started and have not sent their statements yet. -/
  queued : Multiset (String × String)
  /-- Tasks that wait for the store. -/
  running : Multiset (String × String)
  /-- Completions that came in and were not looked at. -/
  arrived : Multiset Completion
  /-- Completions that were looked at, in order. -/
  joined : List Completion
  /-- Tasks that sent their statements, in order. -/
  sent : List (String × String)

namespace FanOut

/-- All tasks are started at once. -/
def start (tasks : List (String × String)) : FanOut :=
  ⟨tasks, 0, 0, [], []⟩

/-- The completion of a task. -/
def complete (store : Store) (task : String × String) : Completion :=
  (task.1, store.query task.2)

/-- What can happen next: a queued task sends its statement, a running task is answered, or, as long as
there was no error, a completion is looked at. -/
inductive Step (store : Store) : FanOut → FanOut → Prop where
  | send (task : String × String) (queued running : Multiset (String × String))
    (arrived : Multiset Completion) (joined : List Completion) (sent : List (String × String)) :
    Step store ⟨task ::ₘ queued, running, arrived, joined, sent⟩
      ⟨queued, task ::ₘ running, arrived, joined, sent ++ [task]⟩
  | answer (task : String × String) (queued running : Multiset (String × String))
    (arrived : Multiset Completion) (joined : List Completion) (sent : List (String × String)) :
    Step store ⟨queued, task ::ₘ running, arrived, joined, sent⟩
      ⟨queued, running, complete store task ::ₘ arrived, joined, sent⟩
  | join (c : Completion) (queued running : Multiset (String × String))
    (arrived : Multiset Completion) {joined : List Completion} (sent : List (String × String))
    {results : List (String × RawResult)} (h : gather joined = .ok results) :
    Step store ⟨queued, running, c ::ₘ arrived, joined, sent⟩
      ⟨queued, running, arrived, joined ++ [c], sent⟩

/-- A state that a run from the start comes to. -/
def Reached (store : Store) (tasks : List (String × String)) (f : FanOut) : Prop :=
  Relation.ReflTransGen (Step store) (start tasks) f

/-- A state in which nothing more can happen. -/
def Settled (store : Store) (f : FanOut) : Prop :=
  ∀ g, ¬ Step store f g

/-- The number of steps that can still happen, at most. -/
def remaining (f : FanOut) : Nat :=
  3 * f.queued.card + 2 * f.running.card + f.arrived.card

/-- What the collector returns, once it does: the first error that it looks at, or all results after it
has looked at all of them. -/
def outcome? (f : FanOut) : Option (Except StoreError (List (String × RawResult))) :=
  match gather f.joined with
  | .error e => some (.error e)
  | .ok results => if f.remaining = 0 then some (.ok results) else none

/-! ### The invariant of a run -/

/-- No task is lost and none is done twice. -/
structure Balanced (store : Store) (tasks : List (String × String)) (f : FanOut) : Prop where
  sent : f.queued + (f.sent : Multiset (String × String)) = tasks
  completions : (f.queued + f.running).map (complete store) + f.arrived +
    (f.joined : Multiset Completion) = tasks.map (complete store)

theorem balanced_start (store : Store) (tasks : List (String × String)) :
    Balanced store tasks (start tasks) := ⟨by simp [start], by simp [start]⟩

/-- One step keeps the balance. -/
theorem Balanced.step {store : Store} {tasks : List (String × String)} {f g : FanOut}
    (h : Balanced store tasks f) (hstep : Step store f g) : Balanced store tasks g := by
  obtain ⟨hsent, hcompletions⟩ := h
  cases hstep with
  | send task queued running arrived joined sent =>
    refine ⟨?_, ?_⟩
    · simp only [← hsent, ← Multiset.coe_add, ← Multiset.singleton_add, Multiset.coe_singleton]
      abel
    · simp only [← hcompletions, ← Multiset.singleton_add, Multiset.map_add]
      abel
  | answer task queued running arrived joined sent =>
    refine ⟨hsent, ?_⟩
    simp only [← hcompletions, ← Multiset.singleton_add, Multiset.map_add, Multiset.map_singleton]
    abel
  | join c queued running arrived sent h =>
    refine ⟨hsent, ?_⟩
    simp only [← hcompletions, ← Multiset.coe_add, ← Multiset.singleton_add, Multiset.coe_singleton]
    abel

theorem Reached.balanced {store : Store} {tasks : List (String × String)} {f : FanOut}
    (h : Reached store tasks f) : Balanced store tasks f := by
  induction h with
  | refl => exact balanced_start store tasks
  | tail _ hstep ih => exact ih.step hstep

/-! ### Every run comes to an end -/

theorem Step.remaining_lt {store : Store} {f g : FanOut} (h : Step store f g) :
    g.remaining < f.remaining := by
  cases h <;> simp [remaining] <;> omega

/-- There is no run without end. -/
theorem wellFounded_step (store : Store) : WellFounded fun g f => Step store f g :=
  Subrelation.wf Step.remaining_lt (measure remaining).wf

theorem exists_settled (store : Store) (f : FanOut) :
    ∃ g, Relation.ReflTransGen (Step store) f g ∧ Settled store g := by
  induction f using (wellFounded_step store).induction with
  | _ f ih =>
    by_cases hf : Settled store f
    · exact ⟨f, .refl, hf⟩
    · simp only [Settled, not_forall, not_not] at hf
      obtain ⟨g, hg⟩ := hf
      obtain ⟨s, hs, hsettled⟩ := ih g hg
      exact ⟨s, .head hg hs, hsettled⟩

/-- In the end all tasks have sent their statements and were answered, and if there was no error, all
completions were looked at. -/
theorem Settled.eq_zero {store : Store} {f : FanOut} (h : Settled store f) :
    f.queued = 0 ∧ f.running = 0 ∧ ∀ results, gather f.joined = .ok results → f.arrived = 0 := by
  obtain ⟨queued, running, arrived, joined, sent⟩ := f
  refine ⟨?_, ?_, fun results hok => ?_⟩ <;> by_contra hne <;>
    obtain ⟨a, ha⟩ := Multiset.exists_mem_of_ne_zero hne <;>
    obtain ⟨rest, rfl⟩ := Multiset.exists_cons_of_mem ha
  · exact h _ (.send a rest running arrived joined sent)
  · exact h _ (.answer a queued rest arrived joined sent)
  · exact h _ (.join a queued running rest sent hok)

/-- One task after another may be sent, answered and looked at, as long as there is no error. -/
theorem exists_run {store : Store} (order : List (String × String))
    (hok : ∀ task ∈ order, (complete store task).result?.isSome) {joined : List Completion}
    {results : List (String × RawResult)} (hjoined : gather joined = .ok results)
    (sent : List (String × String)) :
    Relation.ReflTransGen (Step store) ⟨order, 0, 0, joined, sent⟩
      ⟨0, 0, 0, joined ++ order.map (complete store), sent ++ order⟩ := by
  induction order generalizing joined results sent with
  | nil => simpa using Relation.ReflTransGen.refl
  | cons task rest ih =>
    rw [List.forall_mem_cons] at hok
    have hnext : gather (joined ++ [complete store task]) = .ok (Assoc.ofList
        ((joined ++ [complete store task]).filterMap Completion.result?)) := by
      refine gather_eq_ok_iff.2 ⟨fun c hc => ?_, rfl⟩
      rcases List.mem_append.1 hc with hc | hc
      · exact (gather_eq_ok_iff.1 hjoined).1 c hc
      · exact List.mem_singleton.1 hc ▸ hok.1
    have hrest := ih hok.2 hnext (sent ++ [task])
    rw [List.append_assoc, List.append_assoc] at hrest
    exact .head (.send task rest 0 0 joined sent) (.head (.answer task rest 0 0 joined _)
      (.head (.join _ rest 0 0 _ hjoined) hrest))

/-- Without errors, completions may be looked at in any order. -/
theorem exists_reached {store : Store} {tasks order : List (String × String)} (h : order.Perm tasks)
    (hok : ∀ task ∈ tasks, (complete store task).result?.isSome) :
    Reached store tasks ⟨0, 0, 0, order.map (complete store), order⟩ := by
  unfold Reached start
  rw [← Multiset.coe_eq_coe.2 h]
  exact exists_run order (fun task ht => hok task (h.mem_iff.1 ht)) rfl []

/-! ### What a run returns -/

theorem outcome?_eq_ok_iff {f : FanOut} {results : List (String × RawResult)} :
    f.outcome? = some (.ok results) ↔ gather f.joined = .ok results ∧ f.remaining = 0 := by
  unfold outcome?
  cases gather f.joined <;> simp [and_comm]

theorem outcome?_eq_error_iff {f : FanOut} {e : StoreError} :
    f.outcome? = some (.error e) ↔ gather f.joined = .error e := by
  unfold outcome?
  cases gather f.joined <;> simp

/-- In the end the collector has returned. -/
theorem Settled.exists_outcome {store : Store} {f : FanOut} (h : Settled store f) :
    ∃ outcome, f.outcome? = some outcome := by
  obtain ⟨hqueued, hrunning, harrived⟩ := h.eq_zero
  cases hgather : gather f.joined with
  | error e => exact ⟨_, outcome?_eq_error_iff.2 hgather⟩
  | ok results =>
    refine ⟨_, outcome?_eq_ok_iff.2 ⟨hgather, ?_⟩⟩
    simp [remaining, hqueued, hrunning, harrived results hgather]

section Reached

variable {store : Store} {tasks : List (String × String)} {f : FanOut} (h : Reached store tasks f)

include h

/-- In the end each task has sent its statement once. -/
theorem Reached.sent_perm (hsettled : Settled store f) : f.sent.Perm tasks := by
  have hsent := h.balanced.sent
  rw [hsettled.eq_zero.1, zero_add] at hsent
  exact Multiset.coe_eq_coe.1 hsent

/-- Only completions of tasks are looked at. -/
theorem Reached.mem_joined {c : Completion} (hc : c ∈ f.joined) : c ∈ tasks.map (complete store) := by
  rw [← Multiset.mem_coe, ← h.balanced.completions, Multiset.mem_add, Multiset.mem_coe]
  exact .inr hc

/-- An error that is returned is the answer to one of the tasks. -/
theorem Reached.exists_failing {e : StoreError} (he : f.outcome? = some (.error e)) :
    ∃ task ∈ tasks, store.query task.2 = .error e := by
  obtain ⟨key, hmem⟩ := exists_mem_of_gather_eq_error (outcome?_eq_error_iff.1 he)
  obtain ⟨task, htask, heq⟩ := List.mem_map.1 (h.mem_joined hmem)
  exact ⟨task, htask, (Prod.mk.inj heq).2⟩

/-- Results that are returned are those of collecting the answers to all tasks in their order. -/
theorem Reached.gather_eq_ok (hkeys : (tasks.map Prod.fst).Nodup)
    {results : List (String × RawResult)} (hr : f.outcome? = some (.ok results)) :
    gather (tasks.map (complete store)) = .ok results := by
  obtain ⟨hgather, hremaining⟩ := outcome?_eq_ok_iff.1 hr
  obtain ⟨⟨hqueued, hrunning⟩, harrived⟩ : (f.queued = 0 ∧ f.running = 0) ∧ f.arrived = 0 := by
    simpa [remaining] using hremaining
  have hjoined := h.balanced.completions
  rw [hqueued, hrunning, harrived] at hjoined
  have hperm : f.joined.Perm (tasks.map (complete store)) :=
    Multiset.coe_eq_coe.1 (by simpa using hjoined)
  refine gather_eq_ok_of_perm hperm ?_ hgather
  rw [(hperm.map Prod.fst).nodup_iff, List.map_map]
  exact hkeys

end Reached

end FanOut

/-! ### Plans -/

namespace QueryPlan

/-- The store answers every sub-query of the plan. -/
def Succeeds (plan : QueryPlan) (store : Store) (fillZero : Bool) : Prop :=
  ∀ entry ∈ plan.subQueries, ∃ raw, store.query (Statement.render fillZero entry.2) = .ok raw

/-- There is one result for each sub-query of the plan, the answer to its own statement. -/
structure OwnResults (plan : QueryPlan) (store : Store) (fillZero : Bool)
    (results : List (String × RawResult)) : Prop where
  keys : results.map Prod.fst = plan.subQueries.map Prod.fst
  own : ∀ entry ∈ plan.subQueries, ∃ raw, store.query (Statement.render fillZero entry.2) = .ok raw ∧
    Assoc.find? entry.1 results = some raw

variable {plan : QueryPlan} {store : Store} {fillZero : Bool} {results : List (String × RawResult)}

theorem keys_statements (plan : QueryPlan) (fillZero : Bool) :
    (plan.statements fillZero).map Prod.fst = plan.subQueries.map Prod.fst := by
  simp [statements, Function.comp_def]

theorem keys_completions (plan : QueryPlan) (store : Store) (fillZero : Bool) :
    (plan.completions store fillZero).map Prod.fst = plan.subQueries.map Prod.fst := by
  rw [← keys_statements plan fillZero]
  simp [completions, Function.comp_def]

/-- What is collected from the completions of a plan are the sub-queries' own results. -/
theorem ownResults_of_gather (hsorted : Assoc.Sorted plan.subQueries)
    (h : gather (plan.completions store fillZero) = .ok results) :
    plan.OwnResults store fillZero results := by
  obtain ⟨hall, rfl⟩ := gather_eq_ok_iff.1 h
  have hkeys : ((plan.completions store fillZero).filterMap Completion.result?).map Prod.fst =
      plan.subQueries.map Prod.fst := by
    rw [map_fst_filterMap_result? hall, keys_completions]
  have hresults : Assoc.Sorted ((plan.completions store fillZero).filterMap Completion.result?) := by
    unfold Assoc.Sorted at hsorted ⊢
    rw [← List.pairwise_map] at hsorted ⊢
    rwa [hkeys]
  rw [Assoc.ofList_eq_self hresults]
  refine ⟨hkeys, fun entry he => ?_⟩
  have hmem : (entry.1, store.query (Statement.render fillZero entry.2)) ∈
      plan.completions store fillZero := by
    simp only [completions, statements, List.map_map, List.mem_map]
    exact ⟨entry, he, rfl⟩
  obtain ⟨⟨key, raw⟩, hraw⟩ := Option.isSome_iff_exists.1 (hall _ hmem)
  obtain ⟨rfl, hquery⟩ := Prod.mk.inj (Completion.result?_eq_some_iff.1 hraw)
  refine ⟨raw, hquery, (Assoc.find?_eq_some_iff (Assoc.nodup_keys hresults)).2 ?_⟩
  exact List.mem_filterMap.2 ⟨_, hmem, hraw⟩

end QueryPlan

namespace Provider

/-- A query answers like the run that looks at completions in key order. -/
theorem answer_query {p : Provider} {store : Store} {q : QueryDescriptor} {plan : QueryPlan}
    (hstore : p.store = some store) (hplan : p.compile q = .ok plan) :
    (p.query q).answer = p.conclude plan (plan.completions store p.settings.fillZero) := by
  simp only [query, withStore, hstore, hplan]

/-- A query calls the store for the statements of its plan, one after another. -/
theorem calls_query {p : Provider} {store : Store} {q : QueryDescriptor} {plan : QueryPlan}
    (hstore : p.store = some store) (hplan : p.compile q = .ok plan) :
    (p.query q).calls = (plan.statements p.settings.fillZero).map fun task => .statement task.2 := by
  simp only [query, withStore, hstore, hplan]

/-- Whatever the order in which sub-queries are sent, answered and looked at: every run comes to an end,
in which each statement was sent once and the collector has returned, successfully if and only if the
store answers every sub-query. Returned results are the sub-queries' own, and the answer made of them is
the same in all runs, which is the answer of a query with that plan, and these statements are all that the
query calls the store for. A returned error is the one of a sub-query, and no documents are made. -/
theorem fanOut_all_or_nothing (p : Provider) (store : Store) {plan : QueryPlan}
    (hsorted : Assoc.Sorted plan.subQueries) :
    let fillZero := p.settings.fillZero
    let tasks := plan.subQueries.map fun entry => (entry.1, Statement.render fillZero entry.2)
    (∀ f, FanOut.Reached store tasks f →
      (∃ g, Relation.ReflTransGen (FanOut.Step store) f g ∧ g.Settled store) ∧
      (f.Settled store → f.sent.Perm tasks ∧ ∃ outcome, f.outcome? = some outcome ∧
        ((∃ results, outcome = .ok results) ↔ plan.Succeeds store fillZero)) ∧
      (∀ results, f.outcome? = some (.ok results) → plan.OwnResults store fillZero results ∧
        p.conclude plan f.joined = p.conclude plan (plan.completions store fillZero)) ∧
      ∀ e, f.outcome? = some (.error e) →
        (∃ entry ∈ plan.subQueries,
          store.query (Statement.render fillZero entry.2) = .error e) ∧
        p.conclude plan f.joined = .error (.store e)) ∧
    ∀ q, p.store = some store → p.compile q = .ok plan →
      (p.query q).answer = p.conclude plan (plan.completions store fillZero) ∧
      (p.query q).calls = tasks.map fun task => .statement task.2 := by
  intro fillZero tasks
  refine ⟨fun f h => ?_, fun q hstore hplan => ⟨answer_query hstore hplan, calls_query hstore hplan⟩⟩
  have hkeys : (tasks.map Prod.fst).Nodup :=
    QueryPlan.keys_statements plan fillZero ▸ Assoc.nodup_keys hsorted
  have hfailing : ∀ e, f.outcome? = some (.error e) → ∃ entry ∈ plan.subQueries,
      store.query (Statement.render fillZero entry.2) = .error e := by
    intro e he
    obtain ⟨task, htask, hquery⟩ := h.exists_failing he
    obtain ⟨entry, hentry, rfl⟩ := List.mem_map.1 htask
    exact ⟨entry, hentry, hquery⟩
  have hgather : ∀ results, f.outcome? = some (.ok results) →
      gather (plan.completions store fillZero) = .ok results := fun results hr =>
    h.gather_eq_ok hkeys hr
  refine ⟨f.exists_settled store, fun hsettled => ⟨h.sent_perm hsettled, ?_⟩,
    fun results hr => ⟨QueryPlan.ownResults_of_gather hsorted (hgather results hr), ?_⟩,
    fun e he => ⟨hfailing e he, ?_⟩⟩
  · obtain ⟨outcome, hout⟩ := hsettled.exists_outcome
    refine ⟨outcome, hout, ?_, fun hall => ?_⟩
    · rintro ⟨results, rfl⟩ entry he
      obtain ⟨raw, hraw, -⟩ :=
        (QueryPlan.ownResults_of_gather hsorted (hgather results hout)).own entry he
      exact ⟨raw, hraw⟩
    · cases outcome with
      | ok results => exact ⟨results, rfl⟩
      | error e =>
        obtain ⟨entry, hentry, herror⟩ := hfailing e hout
        obtain ⟨raw, hraw⟩ := hall entry hentry
        rw [hraw] at herror
        cases herror
  · rw [conclude, conclude, (FanOut.outcome?_eq_ok_iff.1 hr).1, hgather results hr]
  · rw [conclude, FanOut.outcome?_eq_error_iff.1 he]

/-- A store that knows one measurement. -/
def halfStore : Store where
  name := "half"
  database := "db"
  query statement :=
    if statement = "select sum(visits) as visits from events" then .ok RawResult.empty
    else .error (.statement "measurement not found")
  write _ := .ok ()
  ping := .ok ()

/-- A query over the measurement that `halfStore` knows and one that it does not know. -/
def halfQuery : QueryDescriptor :=
  { QueryDescriptor.empty with
    metrics := [{ Metric.named "visits" with collection := some ⟨"events", none⟩ },
      { Metric.named "views" with collection := some ⟨"pages", none⟩ }] }

theorem fanOut_all_or_nothing_halfStore :
    let p := create id (fun _ => "uid") QuerySettings.standard (some halfStore)
    ∃ plan, p.compile halfQuery = .ok plan ∧
    plan.statements true = [("events_\x7b\x7d", "select sum(visits) as visits from events"),
      ("pages_\x7b\x7d", "select sum(views) as views from pages")] ∧
    (p.query halfQuery).calls = [.statement "select sum(visits) as visits from events",
      .statement "select sum(views) as views from pages"] ∧
    ∀ f, FanOut.Reached halfStore (plan.statements true) f → f.Settled halfStore →
      f.sent.Perm (plan.statements true) ∧ ∃ e, p.conclude plan f.joined = .error (.store e) := by
  intro p
  obtain ⟨plan, hplan, hstatements⟩ : ∃ plan, p.compile halfQuery = .ok plan ∧
      plan.statements true = [("events_\x7b\x7d", "select sum(visits) as visits from events"),
        ("pages_\x7b\x7d", "select sum(views) as views from pages")] := ⟨_, rfl, by decide⟩
  obtain ⟨hruns, hquery⟩ := fanOut_all_or_nothing p halfStore (QueryPlan.sorted_subQueries hplan)
  have hcalls : (p.query halfQuery).calls = (plan.statements true).map fun task => .statement task.2 :=
    (hquery halfQuery rfl hplan).2
  refine ⟨plan, hplan, hstatements, by rw [hcalls, hstatements]; rfl, fun f h hsettled => ?_⟩
  obtain ⟨-, hend, -, herror⟩ := hruns f h
  obtain ⟨hsent, outcome, hout, hiff⟩ := hend hsettled
  refine ⟨hsent, ?_⟩
  cases outcome with
  | error e => exact ⟨e, (herror e hout).2⟩
  | ok results =>
    have hfails : halfStore.query "select sum(views) as views from pages" =
        .error (.statement "measurement not found") := by simp [halfStore]
    have hunknown : ("pages_\x7b\x7d", "select sum(views) as views from pages") ∈
        plan.statements true := by simp [hstatements]
    obtain ⟨entry, hentry, heq⟩ := List.mem_map.1 hunknown
    obtain ⟨raw, hraw⟩ := hiff.1 ⟨results, rfl⟩ entry hentry
    rw [show Statement.render p.settings.fillZero entry.2 = _ from (Prod.mk.inj heq).2, hfails] at hraw
    cases hraw

end Provider

end SeriesPivot
