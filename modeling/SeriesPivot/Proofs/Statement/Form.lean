import SeriesPivot.Statement
import SeriesPivot.Proofs.Json.Canonical

/-!
# What a statement says

The text of a statement shows less than the sub-query it was made of: under a limit functions and groups
are left out, keys of groups never show, and a condition shows its value as a literal. `Form` is what is
left, as data.

* `SubQuery.form` is the form of a sub-query, and `Form.write` the text of a form.
* `render_eq_write`: the statement of a sub-query is the text of its form.
* `asWritten_eq_iff`: numbers as they are kept are told by their texts, so a form with its numbers
  written out still tells the form.
-/

namespace SeriesPivot

/-- Whether a function is one of those that are known by name. -/
def Aggregation.isNamed : Aggregation → Bool
  | .other _ => false
  | _ => true

/-- Whether the function of a projection, if it has one, is known by name. -/
def ProjectExpr.isNamed : ProjectExpr → Bool
  | .aggregate function _ => function.isNamed
  | _ => true

/-- Whether the width of a time bucket has no bracket in it, which would end it early. -/
def GroupExpr.isClosed : GroupExpr → Bool
  | .column _ => true
  | .timeBucket unit => unit.toList.all (· != ')')

namespace Statement

/-- A projected column as a statement shows it. -/
inductive Column where
  /-- A column under a name. -/
  | plain (name shown : String)
  | aggregate (function : Aggregation) (name shown : String)
  /-- The largest values of a column. -/
  | top (name : String) (count : Nat) (shown : String)
  deriving DecidableEq, Repr

/-- A value in a condition, with numbers from `ν`. -/
inductive Literal (ν : Type) where
  | number (n : ν)
  | bool (b : Bool)
  | text (s : String)
  deriving DecidableEq, Repr

/-- What a statement says, with numbers from `ν`. -/
structure Form (ν : Type) where
  measurement : String
  /-- The projected columns; none stands for all columns. -/
  columns : List Column
  groups : List GroupExpr
  /-- Whether groups without points are filled with zero. -/
  fill : Bool
  conditions : List (String × Operator × Literal ν)
  deriving DecidableEq, Repr

/-- Whether the function of a column, if it has one, is known by name. -/
def Column.isNamed : Column → Bool
  | .aggregate function _ _ => function.isNamed
  | _ => true

/-- Whether the text of a number, if the literal is one, is made of the characters of numbers. -/
def Literal.isSpelled : Literal String → Bool
  | .number digits => digits.toList.all Decimal.isNumeric
  | _ => true

/-- The column that a projection shows under a limit or without one. -/
def Column.ofProjection (limit : Option Nat) (shown : String) (e : ProjectExpr) : Column :=
  match e, limit with
  | .time, _ => .plain "time" "time"
  | .column name, none => .plain name shown
  | .column name, some n => .top name n shown
  | .aggregate function name, none => .aggregate function name shown
  | .aggregate _ name, some n => .top name n shown

/-- The literal of a value; arrays, objects and null are shown by their JSON texts. -/
def Literal.ofJson : Json → Literal Json.Number
  | .number n => .number n
  | .bool b => .bool b
  | .string s => .text s
  | j => .text j.compress

/-- A literal with its number written out. -/
def Literal.asWritten : Literal Json.Number → Literal String
  | .number n => .number n.render
  | .bool b => .bool b
  | .text s => .text s

/-- A form with its numbers written out. -/
def Form.asWritten (F : Form Json.Number) : Form String :=
  { F with conditions := F.conditions.map fun (field, operator, l) => (field, operator, l.asWritten) }

/-- The groups that show: none under a limit. -/
def shownGroups (c : Clauses) : List GroupExpr :=
  if c.limit.isNone then c.group.map Prod.snd else []

/-! ### The text of a form -/

/-- The text of a column. -/
def Column.write : Column → String
  | .plain name shown =>
    if name = shown then quoteIdent shown else quoteIdent name ++ " as " ++ quoteIdent shown
  | .aggregate function name shown =>
    function.applyTo (quoteIdent name) ++ " as " ++ quoteIdent shown
  | .top name count shown => Statement.top name count ++ " as " ++ quoteIdent shown

/-- The text of a literal. -/
def Literal.write : Literal String → String
  | .number digits => digits
  | .bool b => if b then "true" else "false"
  | .text s => quoteText s

/-- The text of a condition. -/
def writeCondition (p : String × Operator × Literal String) : String :=
  quoteIdent p.1 ++ " " ++ p.2.1.symbol ++ " " ++ p.2.2.write

/-- The text of the columns, a star if there are none. -/
def writeColumns : List Column → String
  | [] => "*"
  | columns => ", ".intercalate (columns.map Column.write)

/-- The text of a clause, nothing if it has no items. -/
def writeClause {α : Type} (start sep : String) (write : α → String) : List α → String
  | [] => ""
  | items => start ++ sep.intercalate (items.map write)

/-- The text of what follows the groups. -/
def writeFill (fill : Bool) : String :=
  if fill then " fill(0)" else ""

/-- The text of a form. -/
def Form.write (F : Form String) : String :=
  "select " ++ writeColumns F.columns ++ " from " ++ quoteIdent F.measurement ++
    (writeClause " group by " ", " renderGroup F.groups ++ writeFill F.fill) ++
    writeClause " where " " and " writeCondition F.conditions

end Statement

open Statement

/-- The form of the statement of a sub-query. Without groups there is nothing to fill. -/
def SubQuery.form (fillZero : Bool) (s : SubQuery) : Form Json.Number where
  measurement := s.measurement
  columns := s.clauses.project.map fun (shown, e) => .ofProjection s.clauses.limit shown e
  groups := shownGroups s.clauses
  fill := fillZero && !(shownGroups s.clauses).isEmpty
  conditions := s.clauses.conditions.flatMap fun onField => onField.2.map fun condition =>
    (onField.1, condition.1, .ofJson condition.2)

namespace Statement

theorem write_ofProjection (limit : Option Nat) (shown : String) (e : ProjectExpr) :
    (Column.ofProjection limit shown e).write = renderProjection limit shown e := by
  cases e with
  | time => rfl
  | column name => cases limit <;> rfl
  | aggregate function name => cases limit <;> rfl

theorem write_ofJson (j : Json) : (Literal.ofJson j).asWritten.write = literal j := by
  cases j <;> rfl

theorem renderProject_eq (c : Clauses) :
    renderProject c = writeColumns (c.project.map fun (shown, e) => .ofProjection c.limit shown e) := by
  unfold renderProject
  cases c.project with
  | nil => rfl
  | cons p ps => simp [writeColumns, write_ofProjection, Function.comp_def]

theorem renderGroups_eq (fillZero : Bool) (c : Clauses) :
    renderGroups fillZero c = writeClause " group by " ", " renderGroup (shownGroups c) ++
      writeFill (fillZero && !(shownGroups c).isEmpty) := by
  unfold renderGroups shownGroups
  cases c.limit with
  | some n => simp [writeClause, writeFill]
  | none => cases c.group <;> simp [writeClause, writeFill, Function.comp_def]

theorem renderPredicate_eq :
    renderPredicate = fun p => writeCondition (p.1, p.2.1, (Literal.ofJson p.2.2).asWritten) := by
  funext p
  rw [renderPredicate, writeCondition, write_ofJson]

theorem renderConditions_eq (m : Match) :
    renderConditions m = writeClause " where " " and " writeCondition
      (m.flatMap fun onField => onField.2.map fun condition =>
        (onField.1, condition.1, (Literal.ofJson condition.2).asWritten)) := by
  have hconditions : (m.flatMap fun onField => onField.2.map fun condition =>
      (onField.1, condition.1, (Literal.ofJson condition.2).asWritten)) =
      (predicates m).map fun p => (p.1, p.2.1, (Literal.ofJson p.2.2).asWritten) := by
    simp [predicates, List.map_flatMap, Function.comp_def]
  rw [hconditions, renderConditions]
  cases predicates m with
  | nil => rfl
  | cons p ps => simp [writeClause, renderPredicate_eq, Function.comp_def]

/-- The statement of a sub-query is the text of its form. -/
theorem render_eq_write (fillZero : Bool) (s : SubQuery) :
    render fillZero s = (s.form fillZero).asWritten.write := by
  rw [render, renderProject_eq, renderGroups_eq, renderConditions_eq]
  simp [Form.write, Form.asWritten, SubQuery.form, List.map_flatMap, Function.comp_def]

/-! ### Numbers written out -/

/-- A literal whose number is as it is kept. -/
def Literal.Canonical : Literal Json.Number → Prop
  | .number n => n.Canonical
  | _ => True

instance : (l : Literal Json.Number) → Decidable l.Canonical
  | .number n => inferInstanceAs (Decidable n.Canonical)
  | .bool _ => inferInstanceAs (Decidable True)
  | .text _ => inferInstanceAs (Decidable True)

theorem Literal.asWritten_inj {l m : Literal Json.Number} (hl : l.Canonical) (hm : m.Canonical)
    (h : l.asWritten = m.asWritten) : l = m := by
  cases l <;> cases m <;>
    simp only [asWritten, reduceCtorEq, number.injEq, bool.injEq, text.injEq] at h
  case number.number => rw [Json.render_injective hl hm h]
  all_goals rw [h]

/-- A form tells its numbers by their texts. -/
theorem Form.asWritten_inj {F G : Form Json.Number}
    (hF : ∀ p ∈ F.conditions, p.2.2.Canonical) (hG : ∀ p ∈ G.conditions, p.2.2.Canonical)
    (h : F.asWritten = G.asWritten) : F = G := by
  obtain ⟨measurement, columns, groups, fill, conditions⟩ := F
  obtain ⟨measurement', columns', groups', fill', conditions'⟩ := G
  simp only [asWritten, mk.injEq] at h
  obtain ⟨rfl, rfl, rfl, rfl, hconditions⟩ := h
  rw [Json.eq_of_map_eq (fun p hp r hr he => ?_) hconditions]
  simp only [Prod.mk.injEq] at he
  exact Prod.ext he.1 (Prod.ext he.2.1 (Literal.asWritten_inj (hF p hp) (hG r hr) he.2.2))

end Statement

end SeriesPivot
