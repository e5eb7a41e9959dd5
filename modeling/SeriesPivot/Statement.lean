import SeriesPivot.Plan.Basic

/-!
# Statements

A sub-query as a statement of InfluxQL:

    select <projection> from <measurement> [group by <groups> [fill(0)]] [where <conditions>]

* A name is quoted unless it is a plain word: `quoteIdent`.
* Under a limit, every column is wrapped in `top(column, n)`, so that values are ranked within each group,
  and the statement has no groups.
* Texts are quoted, numbers and truth values are not, and any other value is the text of its JSON form.
-/

namespace SeriesPivot.Statement

/-- A letter of ASCII or an underscore. -/
def isWordStart (c : Char) : Bool :=
  c.isAlpha || c == '_'

/-- A letter or digit of ASCII or an underscore. -/
def isWordPart (c : Char) : Bool :=
  c.isAlphanum || c == '_'

/-- Whether a name is a word that needs no quotes. -/
def isPlain (s : String) : Bool :=
  match s.toList with
  | [] => false
  | c :: cs => isWordStart c && cs.all isWordPart

/-- Quotes around a text, with a backslash before quotes and backslashes in it. -/
def quoteWith (q : Char) (s : String) : String :=
  String.singleton q ++ Text.escape (fun c => c == '\\' || c == q) '\\' s ++ String.singleton q

/-- A name, in double quotes unless it is a plain word. -/
def quoteIdent (s : String) : String :=
  if isPlain s then s else quoteWith '"' s

/-- A text in single quotes. -/
def quoteText (s : String) : String :=
  quoteWith '\'' s

/-- A value in a condition. -/
def literal : Json → String
  | .number n => n.render
  | .bool b => if b then "true" else "false"
  | .string s => quoteText s
  | j => quoteText j.compress

/-- The largest values of a column. -/
def top (column : String) (n : Nat) : String :=
  "top(" ++ quoteIdent column ++ ", " ++ toString n ++ ")"

/-- One projected column. -/
def renderProjection (limit : Option Nat) (shown : String) (e : ProjectExpr) : String :=
  match e, limit with
  | .time, _ => timeColumn
  | .column name, none =>
    if name = shown then quoteIdent shown else quoteIdent name ++ " as " ++ quoteIdent shown
  | .column name, some n => top name n ++ " as " ++ quoteIdent shown
  | .aggregate function column, none =>
    function.applyTo (quoteIdent column) ++ " as " ++ quoteIdent shown
  | .aggregate _ column, some n => top column n ++ " as " ++ quoteIdent shown

/-- One group. -/
def renderGroup : GroupExpr → String
  | .column name => quoteIdent name
  | .timeBucket unit => "time(1" ++ unit ++ ")"

/-- The projected columns, a star if there are none. -/
def renderProject (c : Clauses) : String :=
  if c.project.isEmpty then "*"
  else ", ".intercalate (c.project.map fun (shown, e) => renderProjection c.limit shown e)

/-- The groups, none under a limit. -/
def renderGroups (fillZero : Bool) (c : Clauses) : String :=
  if c.limit.isNone && !c.group.isEmpty then
    " group by " ++ ", ".intercalate (c.group.map fun g => renderGroup g.2) ++
      (if fillZero then " fill(0)" else "")
  else ""

/-- The conditions as a list of field, operator and value. -/
def predicates (m : Match) : List (String × Operator × Json) :=
  m.flatMap fun (field, conditions) => conditions.map fun (operator, value) => (field, operator, value)

/-- One condition. -/
def renderPredicate (p : String × Operator × Json) : String :=
  quoteIdent p.1 ++ " " ++ p.2.1.symbol ++ " " ++ literal p.2.2

/-- All conditions. -/
def renderConditions (m : Match) : String :=
  match predicates m with
  | [] => ""
  | ps => " where " ++ " and ".intercalate (ps.map renderPredicate)

/-- The statement of a sub-query. Groups without points are filled with zero if `fillZero` is set. -/
def render (fillZero : Bool) (s : SubQuery) : String :=
  "select " ++ renderProject s.clauses ++ " from " ++ quoteIdent s.measurement ++
    renderGroups fillZero s.clauses ++ renderConditions s.clauses.conditions

/-- The statement that counts the points of a measurement. -/
def count (measurement : String) : String :=
  "SELECT count(*) FROM " ++ quoteIdent measurement

/-- The statement that drops a measurement. -/
def dropSeries (measurement : String) : String :=
  "DROP SERIES FROM " ++ quoteIdent measurement

/-- The statement that drops a database. -/
def dropDatabase (database : String) : String :=
  "DROP DATABASE " ++ quoteIdent database

/-- Whether a statement only reads: its first word begins with `select` or `show` in any case. -/
def isRead (statement : String) : Bool :=
  let head := (Text.skipBlanks statement.toList).map Char.toLower
  Text.startsWith "select".toList head || Text.startsWith "show".toList head

end SeriesPivot.Statement

namespace SeriesPivot.QueryPlan

/-- The statement of each sub-query under its key, in key order. -/
def statements (fillZero : Bool) (p : QueryPlan) : List (String × String) :=
  p.subQueries.map fun (key, s) => (key, Statement.render fillZero s)

end SeriesPivot.QueryPlan
