import SeriesPivot.Plan.Clauses
import SeriesPivot.Proofs.Keyed

/-!
# Building clauses

Clauses are built from none by filters, projections, groupings, limits and the projections of other clauses.
Projections and groupings are maps in the order in which their names came in first. An insertion overwrites
what its name stands for, and a merge does not.

* `Step` is a step of building, and `build` takes a list of them.
* `Step.Frames` says which part of the clauses a step may change.
* `projection?_advance` is what a step makes of an alias, and `projection?_build` what a run makes of it.
* `build_insertionOrder`: names are unique and in the order of their first insertion, and what they stand for
  is the last insertion, or else the first merge.
-/

namespace SeriesPivot

namespace Clauses

/-- A step of building clauses. -/
inductive Step where
  | filter (f : Filter)
  | projection (shown : String) (e : ProjectExpr)
  | grouping (key : String) (e : GroupExpr)
  /-- Take over projections of other clauses. -/
  | merge (other : Clauses)
  | limit (n : Option ℕ)

/-- Take a step. -/
def advance (c : Clauses) : Step → Clauses
  | .filter f => c.withFilter f
  | .projection shown e => c.withProjection shown e
  | .grouping key e => c.withGrouping key e
  | .merge other => c.withProjectionsFrom other
  | .limit n => c.withLimit n

/-- The clauses that steps build from none. -/
def build (steps : List Step) : Clauses :=
  steps.foldl advance empty

theorem build_concat (steps : List Step) (s : Step) : build (steps ++ [s]) = (build steps).advance s := by
  simp [build]

namespace Step

/-- The aliases that a step brings in. -/
def aliases : Step → List String
  | .projection shown _ => [shown]
  | .merge other => other.project.map Prod.fst
  | .filter _ | .grouping _ _ | .limit _ => []

/-- The names of groups that a step brings in. -/
def groupKeys : Step → List String
  | .grouping key _ => [key]
  | .filter _ | .projection _ _ | .merge _ | .limit _ => []

/-- The projection that a step inserts under an alias. -/
def inserted? (shown : String) : Step → Option ProjectExpr
  | .projection name e => if shown = name then some e else none
  | .filter _ | .grouping _ _ | .merge _ | .limit _ => none

/-- The projection that a step merges in under an alias. -/
def merged? (shown : String) : Step → Option ProjectExpr
  | .merge other => other.projection? shown
  | .filter _ | .projection _ _ | .grouping _ _ | .limit _ => none

/-- The group that a step inserts under a name. -/
def grouped? (key : String) : Step → Option GroupExpr
  | .grouping name e => if key = name then some e else none
  | .filter _ | .projection _ _ | .merge _ | .limit _ => none

/-- A step changes no clauses but its own. -/
def Frames (s : Step) (c d : Clauses) : Prop :=
  match s with
  | .filter _ => d = { c with conditions := d.conditions }
  | .projection _ _ | .merge _ => d = { c with project := d.project }
  | .grouping _ _ => d = { c with group := d.group }
  | .limit _ => d = { c with limit := d.limit }

end Step

/-! ### One step -/

theorem frames_advance (c : Clauses) (s : Step) : s.Frames c (c.advance s) := by
  cases s <;> rfl

/-- An insertion overwrites an alias, and a merge does not. -/
theorem projection?_advance (c : Clauses) (s : Step) (shown : String) :
    (c.advance s).projection? shown =
      ((s.inserted? shown).or (c.projection? shown)).or (s.merged? shown) := by
  cases s with
  | projection name e =>
    change Keyed.find? shown (Keyed.put name e c.project) = _
    rw [Keyed.find?_put]
    by_cases h : shown = name <;> simp [Step.inserted?, Step.merged?, projection?, h]
  | merge other =>
    change Keyed.find? shown (other.project.foldl _ c.project) = _
    rw [Keyed.find?_foldl_putNew]
    rfl
  | filter f | grouping key e | limit n =>
    rw [Step.inserted?, Step.merged?, Option.none_or, Option.or_none]
    rfl

theorem find?_group_advance (c : Clauses) (s : Step) (key : String) :
    Keyed.find? key (c.advance s).group = (s.grouped? key).or (Keyed.find? key c.group) := by
  cases s with
  | grouping name e =>
    change Keyed.find? key (Keyed.put name e c.group) = _
    rw [Keyed.find?_put]
    by_cases h : key = name <;> simp [Step.grouped?, h]
  | filter f | projection shown e | merge other | limit n => rfl

section

variable {names : List String} {c : Clauses}

theorem aliases_advance (h : c.project.map Prod.fst = names.eraseDups) (s : Step) :
    (c.advance s).project.map Prod.fst = (names ++ s.aliases).eraseDups := by
  cases s with
  | projection shown e => exact Keyed.keys_put_of_eq h shown e
  | merge other => exact Keyed.keys_foldl_putNew h other.project
  | filter f | grouping key e | limit n => rwa [Step.aliases, List.append_nil]

theorem groupKeys_advance (h : c.group.map Prod.fst = names.eraseDups) (s : Step) :
    (c.advance s).group.map Prod.fst = (names ++ s.groupKeys).eraseDups := by
  cases s with
  | grouping key e => exact Keyed.keys_put_of_eq h key e
  | filter f | projection shown e | merge other | limit n => rwa [Step.groupKeys, List.append_nil]

end

/-! ### All steps -/

theorem aliases_build (steps : List Step) :
    (build steps).project.map Prod.fst = (steps.flatMap Step.aliases).eraseDups := by
  induction steps using List.reverseRecOn with
  | nil => rfl
  | append_singleton steps s ih =>
    rw [build_concat, aliases_advance ih, List.flatMap_append, List.flatMap_singleton]

theorem groupKeys_build (steps : List Step) :
    (build steps).group.map Prod.fst = (steps.flatMap Step.groupKeys).eraseDups := by
  induction steps using List.reverseRecOn with
  | nil => rfl
  | append_singleton steps s ih =>
    rw [build_concat, groupKeys_advance ih, List.flatMap_append, List.flatMap_singleton]

/-- An alias stands for the last projection that was inserted under it, or else for the first one that was
merged in. -/
theorem projection?_build (steps : List Step) (shown : String) :
    (build steps).projection? shown =
      (steps.reverse.findSome? (Step.inserted? shown)).or (steps.findSome? (Step.merged? shown)) := by
  induction steps using List.reverseRecOn with
  | nil => rfl
  | append_singleton steps s ih =>
    rw [build_concat, projection?_advance, ih, List.reverse_append, List.findSome?_append,
      List.findSome?_append]
    simp [Option.or_assoc]

theorem find?_group_build (steps : List Step) (key : String) :
    Keyed.find? key (build steps).group = steps.reverse.findSome? (Step.grouped? key) := by
  induction steps using List.reverseRecOn with
  | nil => rfl
  | append_singleton steps s ih =>
    rw [build_concat, find?_group_advance, ih, List.reverse_append, List.findSome?_append]
    simp

/-- Whatever steps build the clauses, aliases and names of groups are unique and in the order in which they
came in first. An alias stands for the last projection that was inserted under it, or else for the first one
that was merged in, and a group is the last one that was inserted under its name. No step changes any other
clauses than its own. -/
theorem build_insertionOrder (steps : List Step) :
    let c := build steps
    (c.project.map Prod.fst).Nodup ∧ (c.group.map Prod.fst).Nodup ∧
    c.project.map Prod.fst = (steps.flatMap Step.aliases).eraseDups ∧
    c.group.map Prod.fst = (steps.flatMap Step.groupKeys).eraseDups ∧
    (∀ shown, c.projection? shown =
      (steps.reverse.findSome? (Step.inserted? shown)).or (steps.findSome? (Step.merged? shown))) ∧
    (∀ key, Keyed.find? key c.group = steps.reverse.findSome? (Step.grouped? key)) ∧
    ∀ before s after, steps = before ++ s :: after → s.Frames (build before) (build (before ++ [s])) := by
  intro c
  have haliases : c.project.map Prod.fst = (steps.flatMap Step.aliases).eraseDups := aliases_build steps
  have hgroups : c.group.map Prod.fst = (steps.flatMap Step.groupKeys).eraseDups := groupKeys_build steps
  refine ⟨?_, ?_, haliases, hgroups, projection?_build steps, find?_group_build steps,
    fun before s after _ => ?_⟩
  · rw [haliases]
    exact nodup_eraseDups _
  · rw [hgroups]
    exact nodup_eraseDups _
  · rw [build_concat]
    exact frames_advance _ s

/-- The second insertion keeps the place of the first one, and the merge brings in the second alias only. -/
example :
    (build [.projection "n" .time, .merge ⟨[], [("n", .column "m"), ("k", .time)], [], [], none⟩,
      .projection "n" (.column "a"), .projection "l" .time]).project =
      [("n", .column "a"), ("k", .time), ("l", .time)] := by
  decide

end Clauses

end SeriesPivot
