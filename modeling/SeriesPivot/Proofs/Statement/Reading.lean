import SeriesPivot.Proofs.Statement.Form
import SeriesPivot.Proofs.Text

/-!
# Statements are read back

No name and no value changes the structure of a statement around it: the form of a statement is read
back from its text, whatever quotes, commas, brackets and keywords its names and texts are made of.

* A reader takes an item off the front of a text and returns what follows; for each of them one lemma
  says that a written item is read as it was, and what may follow it.
* `decode` reads a whole statement.
* `Form.decode_write`: the text of a form is read as that form.
* `render_uniquely_decodable`: two sub-queries have one statement if and only if they have one form.
-/

namespace SeriesPivot

namespace Statement

/-! ### Reading -/

/-- The inside of a quotation up to the quote `q` that ends it, and what follows. -/
def readInside (q : Char) : List Char → Option (List Char × List Char)
  | '\\' :: c :: cs => (readInside q cs).map fun (inside, rest) => (c :: inside, rest)
  | c :: cs =>
    if c = q then some ([], cs)
    else (readInside q cs).map fun (inside, rest) => (c :: inside, rest)
  | [] => none

/-- A name: a plain word, or any text in double quotes. -/
def readName : List Char → Option (String × List Char)
  | '"' :: cs => (readInside '"' cs).map fun (inside, rest) => (String.ofList inside, rest)
  | cs =>
    let word := String.ofList (cs.takeWhile isWordPart)
    if isPlain word then some (word, cs.dropWhile isWordPart) else none

/-- Items with `sep` between them, at least one. -/
def readSeparated {α : Type} (sep : List Char) (item : List Char → Option (α × List Char))
    (cs : List Char) : Option (List α × List Char) :=
  match item cs with
  | none => none
  | some (a, rest) =>
    match Text.stripStart? sep rest with
    | none => some ([a], rest)
    | some more =>
      if more.length < cs.length then
        (readSeparated sep item more).map fun (as, rest) => (a :: as, rest)
      else none
termination_by cs.length

/-- A number in decimal. -/
def readCount (cs : List Char) : Nat × List Char :=
  (Decimal.readDigits (cs.takeWhile Char.isDigit), cs.dropWhile Char.isDigit)

/-- A call behind its opening bracket: a column that lacks the name it is shown under. -/
def readCall (function : String) (cs : List Char) : Option ((String → Column) × List Char) := do
  let (name, cs) ← readName cs
  match cs with
  | ')' :: cs => some (.aggregate (.ofName function) name, cs)
  | '(' :: cs =>
    let (name, cs) ← readName cs
    let cs ← Text.stripStart? "))".toList cs
    some (.aggregate .distinct name, cs)
  | cs =>
    let cs ← Text.stripStart? ", ".toList cs
    let (count, cs) := readCount cs
    let cs ← Text.stripStart? ")".toList cs
    some (.top name count, cs)

/-- A projected column. -/
def readColumn (cs : List Char) : Option (Column × List Char) := do
  let (name, cs) ← readName cs
  match cs with
  | '(' :: cs =>
    let (column, cs) ← readCall name cs
    let cs ← Text.stripStart? " as ".toList cs
    let (shown, cs) ← readName cs
    some (column shown, cs)
  | cs =>
    match Text.stripStart? " as ".toList cs with
    | none => some (.plain name name, cs)
    | some cs =>
      let (shown, cs) ← readName cs
      some (.plain name shown, cs)

/-- The projected columns; a star stands for none. -/
def readColumns (cs : List Char) : Option (List Column × List Char) :=
  match readSeparated ", ".toList readColumn cs with
  | some columns => some columns
  | none => (Text.stripStart? "*".toList cs).map fun cs => ([], cs)

/-- A group. -/
def readGroup (cs : List Char) : Option (GroupExpr × List Char) := do
  let (name, cs) ← readName cs
  match Text.stripStart? "(1".toList cs with
  | none => some (.column name, cs)
  | some cs =>
    let unit := String.ofList (cs.takeWhile (· != ')'))
    let cs ← Text.stripStart? ")".toList (cs.dropWhile (· != ')'))
    some (.timeBucket unit, cs)

/-- A comparison. -/
def readOperator : List Char → Option (Operator × List Char)
  | '=' :: cs => some (.eq, cs)
  | '>' :: '=' :: cs => some (.gte, cs)
  | '>' :: cs => some (.gt, cs)
  | '<' :: '=' :: cs => some (.lte, cs)
  | '<' :: cs => some (.lt, cs)
  | _ => none

/-- A literal: a text in single quotes, or a word without blanks. -/
def readLiteral : List Char → Option (Literal String × List Char)
  | '\'' :: cs => (readInside '\'' cs).map fun (inside, rest) => (.text (String.ofList inside), rest)
  | cs =>
    let word := String.ofList (cs.takeWhile (· != ' '))
    let l := if word = "true" then .bool true else if word = "false" then .bool false else .number word
    some (l, cs.dropWhile (· != ' '))

/-- A condition. -/
def readCondition (cs : List Char) : Option ((String × Operator × Literal String) × List Char) := do
  let (field, cs) ← readName cs
  let cs ← Text.stripStart? " ".toList cs
  let (operator, cs) ← readOperator cs
  let cs ← Text.stripStart? " ".toList cs
  let (l, cs) ← readLiteral cs
  some ((field, operator, l), cs)

/-- The items of a clause that begins with `start`; none if the clause is left out. -/
def readClause {α : Type} (start sep : List Char) (item : List Char → Option (α × List Char))
    (cs : List Char) : Option (List α × List Char) :=
  match Text.stripStart? start cs with
  | none => some ([], cs)
  | some cs => readSeparated sep item cs

/-- Whether the groups are filled. -/
def readFill (cs : List Char) : Bool × List Char :=
  match Text.stripStart? " fill(0)".toList cs with
  | none => (false, cs)
  | some cs => (true, cs)

/-- A statement at the front of a text. -/
def readForm (cs : List Char) : Option (Form String × List Char) := do
  let cs ← Text.stripStart? "select ".toList cs
  let (columns, cs) ← readColumns cs
  let cs ← Text.stripStart? " from ".toList cs
  let (measurement, cs) ← readName cs
  let (groups, cs) ← readClause " group by ".toList ", ".toList readGroup cs
  let (fill, cs) := readFill cs
  let (conditions, cs) ← readClause " where ".toList " and ".toList readCondition cs
  some (⟨measurement, columns, groups, fill, conditions⟩, cs)

/-- The form of a statement. -/
def decode (statement : String) : Option (Form String) :=
  match readForm statement.toList with
  | some (F, []) => some F
  | _ => none

/-! ### Names -/

/-- A character inside quotes `q`. -/
def escaped (q c : Char) : List Char :=
  if c = '\\' ∨ c = q then ['\\', c] else [c]

theorem toList_quoteWith (q : Char) (s : String) :
    (quoteWith q s).toList = q :: (s.toList.flatMap (escaped q) ++ [q]) := by
  have hescaped : escaped q = fun c => if c == '\\' || c == q then ['\\', c] else [c] := by
    funext c
    simp [escaped]
  simp [quoteWith, Text.escape, Text.expand, hescaped]

theorem readInside_escaped {q : Char} (hq : q ≠ '\\') (s r : List Char) :
    readInside q (s.flatMap (escaped q) ++ q :: r) = some (s, r) := by
  induction s with
  | nil => simp [readInside, hq]
  | cons c s ih =>
    rw [List.flatMap_cons, escaped]
    split_ifs with hc
    · simp [readInside, ih]
    · obtain ⟨hslash, hquote⟩ := not_or.1 hc
      simp [hslash, hquote, readInside, ih]

theorem isWordPart_of_isWordStart {c : Char} (h : isWordStart c = true) : isWordPart c = true := by
  simp only [isWordStart, isWordPart, Char.isAlphanum, Bool.or_eq_true] at h ⊢
  exact h.imp_left .inl

theorem isWordPart_of_mem {s : String} (h : isPlain s = true) {c : Char} (hc : c ∈ s.toList) :
    isWordPart c = true := by
  unfold isPlain at h
  split at h
  · cases h
  · next d ds hs =>
    rw [Bool.and_eq_true, List.all_eq_true] at h
    rw [hs] at hc
    rcases List.mem_cons.1 hc with rfl | hc
    · exact isWordPart_of_isWordStart h.1
    · exact h.2 c hc

/-- A plain word is read as a whole. -/
theorem readName_word {s : String} (h : isPlain s = true) {r : List Char}
    (hr : Text.Stops isWordPart r) : readName (s.toList ++ r) = some (s, r) := by
  have hword : ∀ c ∈ s.toList, isWordPart c = true := fun c => isWordPart_of_mem h
  rw [readName, Text.takeWhile_append_of_stops hword hr, Text.dropWhile_append_of_stops hword hr]
  · simp [h]
  · rintro cs hcs
    have hquote : '"' ∈ s.toList := by
      cases hs : s.toList with
      | nil => simp [isPlain, hs] at h
      | cons c cs => simp_all
    exact absurd (hword _ hquote) (by decide)

/-- A name is read as it was. -/
theorem readName_quoteIdent (s : String) {r : List Char} (hr : Text.Stops isWordPart r) :
    readName ((quoteIdent s).toList ++ r) = some (s, r) := by
  unfold quoteIdent
  split_ifs with h
  · exact readName_word h hr
  · simp [toList_quoteWith, readName, readInside_escaped]

/-! ### Columns -/

theorem isPlain_name {a : Aggregation} (h : a.isNamed = true) : isPlain a.name = true := by
  cases a <;> first | rfl | cases h

theorem ofName_name {a : Aggregation} (h : a.isNamed = true) : Aggregation.ofName a.name = a := by
  cases a <;> first | rfl | cases h

theorem applyTo_distinct (column : String) :
    Aggregation.distinct.applyTo column = "count(distinct(" ++ column ++ "))" := rfl

theorem applyTo_of_ne_distinct {a : Aggregation} (h : a ≠ .distinct) (column : String) :
    a.applyTo column = a.name ++ "(" ++ column ++ ")" := by
  cases a with
  | distinct => exact absurd rfl h
  | _ => rfl

theorem readCall_argument (function name : String) (r : List Char) :
    readCall function ((quoteIdent name ++ ")").toList ++ r) =
      some (.aggregate (.ofName function) name, r) := by
  simp [readCall, readName_quoteIdent, isWordPart]

theorem readCall_distinct (function name : String) (r : List Char) :
    readCall function (("distinct(" ++ quoteIdent name ++ "))").toList ++ r) =
      some (.aggregate .distinct name, r) := by
  have hword := readName_word (s := "distinct") (by decide)
    (r := '(' :: ((quoteIdent name).toList ++ ("))".toList ++ r))) (by simp [isWordPart])
  simp only [String.reduceToList, List.cons_append, List.nil_append] at hword
  simp [readCall, hword, readName_quoteIdent, isWordPart, Text.stripStart?]

theorem readCount_toString (n : Nat) {r : List Char} (hr : Text.Stops Char.isDigit r) :
    readCount ((toString n).toList ++ r) = (n, r) := by
  have hdigits : ∀ c ∈ (toString n).toList, c.isDigit = true :=
    fun c => Decimal.isDigit_of_mem_toString
  rw [readCount, Text.takeWhile_append_of_stops hdigits hr,
    Text.dropWhile_append_of_stops hdigits hr, Decimal.readDigits_toString]

theorem readCall_top (function name : String) (n : Nat) (r : List Char) :
    readCall function ((quoteIdent name ++ ", " ++ toString n ++ ")").toList ++ r) =
      some (.top name n, r) := by
  have hcount : readCount ((toString n).toList ++ ')' :: r) = (n, ')' :: r) :=
    readCount_toString n (by simp)
  simp only [String.toList_append, List.append_assoc]
  generalize (toString n).toList = digits at hcount ⊢
  simp [readCall, readName_quoteIdent, isWordPart, Text.stripStart?, hcount]

/-- What may follow a column. -/
def EndsColumn (r : List Char) : Prop :=
  Text.Stops isWordPart r ∧ Text.Stops (· == '(') r ∧ Text.stripStart? " as ".toList r = none

theorem readColumn_plain (name : String) {r : List Char} (hr : EndsColumn r) :
    readColumn ((quoteIdent name).toList ++ r) = some (.plain name name, r) := by
  obtain ⟨hword, hcall, has⟩ := hr
  rw [readColumn, readName_quoteIdent name hword, Option.bind_eq_bind, Option.bind_some]
  dsimp only
  split
  · simp at hcall
  · rw [has]

theorem readColumn_plain_as (name shown : String) {r : List Char} (hr : EndsColumn r) :
    readColumn ((quoteIdent name).toList ++ (" as ".toList ++ ((quoteIdent shown).toList ++ r))) =
      some (.plain name shown, r) := by
  simp [readColumn, readName_quoteIdent, isWordPart, Text.stripStart?, hr.1]

/-- A call is read as the column that it stands for. -/
theorem readColumn_call {function inside : String} {column : String → Column}
    (hfunction : isPlain function = true)
    (hcall : ∀ r, readCall function (inside.toList ++ r) = some (column, r))
    (shown : String) {r : List Char} (hr : EndsColumn r) :
    readColumn ((function ++ "(" ++ inside ++ " as " ++ quoteIdent shown).toList ++ r) =
      some (column shown, r) := by
  simp only [String.toList_append, List.append_assoc]
  rw [readColumn, readName_word hfunction (by simp [isWordPart])]
  simp [hcall, readName_quoteIdent, Text.stripStart?, hr.1]

theorem readColumn_aggregate {a : Aggregation} (ha : a.isNamed = true) (name shown : String)
    {r : List Char} (hr : EndsColumn r) :
    readColumn ((Column.aggregate a name shown).write.toList ++ r) =
      some (.aggregate a name shown, r) := by
  by_cases hdistinct : a = .distinct
  · subst hdistinct
    have hwrite : (Column.aggregate .distinct name shown).write =
        "count" ++ "(" ++ ("distinct(" ++ quoteIdent name ++ "))") ++ " as " ++ quoteIdent shown := by
      simp only [Column.write, applyTo_distinct, ← String.append_assoc]
      rfl
    rw [hwrite]
    exact readColumn_call (by decide) (readCall_distinct "count" name) shown hr
  · have hwrite : (Column.aggregate a name shown).write =
        a.name ++ "(" ++ (quoteIdent name ++ ")") ++ " as " ++ quoteIdent shown := by
      rw [Column.write, applyTo_of_ne_distinct hdistinct]
      simp only [String.append_assoc]
    rw [hwrite, readColumn_call (isPlain_name ha) (readCall_argument a.name name) shown hr,
      ofName_name ha]

theorem readColumn_top (name : String) (count : Nat) (shown : String)
    {r : List Char} (hr : EndsColumn r) :
    readColumn ((Column.top name count shown).write.toList ++ r) = some (.top name count shown, r) := by
  have hwrite : (Column.top name count shown).write =
      "top" ++ "(" ++ (quoteIdent name ++ ", " ++ toString count ++ ")") ++ " as " ++
        quoteIdent shown := by
    simp only [Column.write, Statement.top, ← String.append_assoc]
    rfl
  rw [hwrite]
  exact readColumn_call (by decide) (readCall_top "top" name count) shown hr

/-- A column is read as it was. -/
theorem readColumn_write {c : Column} (hc : c.isNamed = true) {r : List Char} (hr : EndsColumn r) :
    readColumn (c.write.toList ++ r) = some (c, r) := by
  cases c with
  | plain name shown =>
    by_cases h : name = shown
    · simpa [Column.write, h] using readColumn_plain shown hr
    · simpa [Column.write, h] using readColumn_plain_as name shown hr
  | aggregate function name shown => exact readColumn_aggregate hc name shown hr
  | top name count shown => exact readColumn_top name count shown hr

/-! ### Groups -/

/-- What may follow a group. -/
def EndsGroup (r : List Char) : Prop :=
  Text.Stops isWordPart r ∧ Text.stripStart? "(1".toList r = none

/-- A group is read as it was. -/
theorem readGroup_renderGroup {g : GroupExpr} (hg : g.isClosed = true) {r : List Char}
    (hr : EndsGroup r) : readGroup ((renderGroup g).toList ++ r) = some (g, r) := by
  obtain ⟨hword, hbucket⟩ := hr
  cases g with
  | column name =>
    rw [readGroup, renderGroup, readName_quoteIdent name hword, Option.bind_eq_bind, Option.bind_some]
    simp only [hbucket]
  | timeBucket unit =>
    have hunit : ∀ c ∈ unit.toList, (c != ')') = true := List.all_eq_true.1 hg
    have hstop : Text.Stops (· != ')') (')' :: r) := by simp
    have htime : readName ("time".toList ++ '(' :: '1' :: (unit.toList ++ ')' :: r)) =
        some ("time", '(' :: '1' :: (unit.toList ++ ')' :: r)) :=
      readName_word (by decide) (by simp [isWordPart])
    simp only [String.reduceToList, List.cons_append, List.nil_append] at htime
    simp [readGroup, renderGroup, htime, Text.stripStart?,
      Text.takeWhile_append_of_stops hunit hstop, Text.dropWhile_append_of_stops hunit hstop]

/-! ### Conditions -/

theorem readOperator_symbol (o : Operator) (r : List Char) :
    readOperator (o.symbol.toList ++ ' ' :: r) = some (o, ' ' :: r) := by
  cases o <;> rfl

/-- A word without blanks and quotes is read as a whole. -/
theorem readLiteral_word {word : String} (hword : ∀ c ∈ word.toList, (c != ' ') = true ∧ c ≠ '\'')
    {r : List Char} (hr : Text.Stops (· != ' ') r) :
    readLiteral (word.toList ++ r) = some (if word = "true" then .bool true
      else if word = "false" then .bool false else .number word, r) := by
  have hblank : ∀ c ∈ word.toList, (c != ' ') = true := fun c hc => (hword c hc).1
  rw [readLiteral, Text.takeWhile_append_of_stops hblank hr,
    Text.dropWhile_append_of_stops hblank hr, String.ofList_toList]
  · intro cs hcs
    cases hw : word.toList with
    | nil =>
      rw [hw, List.nil_append] at hcs
      rw [hcs, Text.stops_cons] at hr
      exact absurd hr (by decide)
    | cons c _ =>
      have hquote : c = '\'' := by
        rw [hw] at hcs
        exact (List.cons.inj hcs).1
      exact (hword c (by rw [hw]; exact List.mem_cons_self)).2 hquote

/-- A literal is read as it was. -/
theorem readLiteral_write {l : Literal String} (hl : l.isSpelled = true) {r : List Char}
    (hr : Text.Stops (· != ' ') r) : readLiteral (l.write.toList ++ r) = some (l, r) := by
  cases l with
  | text s => simp [readLiteral, Literal.write, quoteText, toList_quoteWith, readInside_escaped]
  | bool b =>
    cases b with
    | true => rw [Literal.write, if_pos rfl, readLiteral_word (by simp) hr, if_pos rfl]
    | false => rw [Literal.write, if_neg (by decide), readLiteral_word (by simp) hr]; rfl
  | number digits =>
    have hnumeric : ∀ c ∈ digits.toList, Decimal.isNumeric c = true := List.all_eq_true.1 hl
    have hword : ∀ c ∈ digits.toList, (c != ' ') = true ∧ c ≠ '\'' := by
      intro c hc
      have h := hnumeric c hc
      constructor
      · rw [bne_iff_ne]
        rintro rfl
        cases h
      · rintro rfl
        cases h
    -- the letters of a truth value are not those of a number
    have htrue : digits ≠ "true" := by
      rintro rfl
      exact absurd (hnumeric 't' (by decide)) (by decide)
    have hfalse : digits ≠ "false" := by
      rintro rfl
      exact absurd (hnumeric 'f' (by decide)) (by decide)
    rw [Literal.write, readLiteral_word hword hr, if_neg htrue, if_neg hfalse]

/-- A condition is read as it was. -/
theorem readCondition_write {p : String × Operator × Literal String} (hp : p.2.2.isSpelled = true)
    {r : List Char} (hr : Text.Stops (· != ' ') r) :
    readCondition ((writeCondition p).toList ++ r) = some (p, r) := by
  obtain ⟨field, operator, l⟩ := p
  have hoperator := readOperator_symbol operator (l.write.toList ++ r)
  simp [readCondition, writeCondition, readName_quoteIdent, isWordPart, Text.stripStart?, hoperator,
    readLiteral_write hp hr]

/-! ### Lists -/

/-- Items are read as they were if each of them is, in front of the separator and in front of `r`. -/
theorem readSeparated_intercalate {α : Type} (sep : String) (write : α → String)
    {item : List Char → Option (α × List Char)} {r : List Char}
    (hsep : 0 < sep.toList.length) (hr : Text.stripStart? sep.toList r = none) {as : List α}
    (has : as ≠ [])
    (hnext : ∀ a ∈ as, ∀ more,
      item ((write a).toList ++ (sep.toList ++ more)) = some (a, sep.toList ++ more))
    (hlast : ∀ a ∈ as, item ((write a).toList ++ r) = some (a, r)) :
    readSeparated sep.toList item ((sep.intercalate (as.map write)).toList ++ r) = some (as, r) := by
  induction as with
  | nil => exact absurd rfl has
  | cons a as ih =>
    rw [List.forall_mem_cons] at hnext hlast
    cases as with
    | nil =>
      rw [List.map_singleton, String.intercalate_singleton, readSeparated, hlast.1]
      simp [hr]
    | cons b as =>
      have hshown : (sep.intercalate ((a :: b :: as).map write)).toList ++ r =
          (write a).toList ++
            (sep.toList ++ ((sep.intercalate ((b :: as).map write)).toList ++ r)) := by
        simp
      rw [hshown, readSeparated, hnext.1]
      simp only [Text.stripStart?_append, List.length_append]
      rw [if_pos (by omega), ih (by simp) hnext.2 hlast.2]
      rfl

/-- A clause is read as it was. -/
theorem readClause_writeClause {α : Type} (start sep : String) (write : α → String)
    {item : List Char → Option (α × List Char)} {r : List Char}
    (hsep : 0 < sep.toList.length) (hstart : Text.stripStart? start.toList r = none)
    (hr : Text.stripStart? sep.toList r = none) {as : List α}
    (hnext : ∀ a ∈ as, ∀ more,
      item ((write a).toList ++ (sep.toList ++ more)) = some (a, sep.toList ++ more))
    (hlast : ∀ a ∈ as, item ((write a).toList ++ r) = some (a, r)) :
    readClause start.toList sep.toList item ((writeClause start sep write as).toList ++ r) =
      some (as, r) := by
  cases as with
  | nil => simp [writeClause, readClause, hstart]
  | cons a as =>
    have hread := readSeparated_intercalate sep write hsep hr (List.cons_ne_nil a as) hnext hlast
    rw [writeClause, String.toList_append, List.append_assoc, readClause, Text.stripStart?_append]
    · exact hread
    · simp

/-! ### Whole statements -/

/-- A star is no column. -/
theorem readSeparated_star (r : List Char) :
    readSeparated ", ".toList readColumn ('*' :: r) = none := by
  simp [readSeparated, readColumn, readName, isWordPart, isPlain]

theorem readColumns_write {columns : List Column} (hnamed : ∀ c ∈ columns, c.isNamed = true)
    (r : List Char) :
    readColumns ((writeColumns columns).toList ++ (" from ".toList ++ r)) =
      some (columns, " from ".toList ++ r) := by
  cases columns with
  | nil =>
    have hstar : (writeColumns []).toList ++ (" from ".toList ++ r) =
      '*' :: (" from ".toList ++ r) := rfl
    rw [hstar, readColumns, readSeparated_star]
    rfl
  | cons c cs =>
    have hnext : ∀ more, EndsColumn (", ".toList ++ more) := by
      simp [EndsColumn, isWordPart, Text.stripStart?]
    have hlast : EndsColumn (" from ".toList ++ r) := by
      simp [EndsColumn, isWordPart, Text.stripStart?]
    have hread := readSeparated_intercalate ", " Column.write (by decide)
      (by simp [Text.stripStart?]) (List.cons_ne_nil c cs)
      (fun c hc more => readColumn_write (hnamed c hc) (hnext more))
      (fun c hc => readColumn_write (hnamed c hc) hlast)
    have hwrite : writeColumns (c :: cs) = ", ".intercalate ((c :: cs).map Column.write) := by
      rw [writeColumns]
      simp
    rw [readColumns, hwrite, hread]

/-- A form that can be read back. -/
structure Form.Readable (F : Form String) : Prop where
  named : ∀ c ∈ F.columns, c.isNamed = true
  closed : ∀ g ∈ F.groups, g.isClosed = true
  spelled : ∀ p ∈ F.conditions, p.2.2.isSpelled = true

/-- The text behind the groups. -/
def tail (fill : Bool) (conditions : List (String × Operator × Literal String)) : List Char :=
  (writeFill fill).toList ++ (writeClause " where " " and " writeCondition conditions).toList

theorem readFill_tail (fill : Bool) (conditions : List (String × Operator × Literal String)) :
    readFill (tail fill conditions) =
      (fill, (writeClause " where " " and " writeCondition conditions).toList) := by
  cases fill <;> cases conditions <;> simp [tail, writeFill, readFill, writeClause, Text.stripStart?]

theorem endsGroup_tail (fill : Bool) (conditions : List (String × Operator × Literal String)) :
    EndsGroup (tail fill conditions) := by
  cases fill <;> cases conditions <;>
    simp [tail, writeFill, writeClause, Text.stripStart?, EndsGroup, isWordPart]

theorem stripStart?_tail (fill : Bool) (conditions : List (String × Operator × Literal String)) :
    Text.stripStart? " group by ".toList (tail fill conditions) = none ∧
      Text.stripStart? ", ".toList (tail fill conditions) = none := by
  cases fill <;> cases conditions <;>
    simp [tail, writeFill, writeClause, Text.stripStart?]

/-- No word goes on behind the measurement. -/
theorem stops_writeClause_tail (groups : List GroupExpr) (fill : Bool)
    (conditions : List (String × Operator × Literal String)) :
    Text.Stops isWordPart
      ((writeClause " group by " ", " renderGroup groups).toList ++ tail fill conditions) := by
  cases groups with
  | nil => simpa [writeClause] using (endsGroup_tail fill conditions).1
  | cons g gs => simp [writeClause, isWordPart]

theorem Form.toList_write (F : Form String) :
    F.write.toList = "select ".toList ++ ((writeColumns F.columns).toList ++ (" from ".toList ++
      ((quoteIdent F.measurement).toList ++
        ((writeClause " group by " ", " renderGroup F.groups).toList ++
          tail F.fill F.conditions)))) := by
  simp [write, tail]

/-- A statement is read back. -/
theorem Form.decode_write {F : Form String} (hF : F.Readable) : decode F.write = some F := by
  have hcolumns := readColumns_write hF.named
  have hmeasurement := readName_quoteIdent F.measurement
    (stops_writeClause_tail F.groups F.fill F.conditions)
  obtain ⟨hgroup, hcomma⟩ := stripStart?_tail F.fill F.conditions
  have hgroups := readClause_writeClause " group by " ", " renderGroup (by decide) hgroup hcomma
    (fun g hg more => readGroup_renderGroup (hF.closed g hg) (r := ", ".toList ++ more)
      (by simp [EndsGroup, isWordPart, Text.stripStart?]))
    (fun g hg => readGroup_renderGroup (hF.closed g hg) (endsGroup_tail F.fill F.conditions))
  have hconditions := readClause_writeClause " where " " and " writeCondition (r := [])
    (by decide) rfl rfl
    (fun p hp more => readCondition_write (hF.spelled p hp) (by simp))
    (fun p hp => readCondition_write (hF.spelled p hp) (by simp))
  rw [List.append_nil] at hconditions
  rw [decode, toList_write, readForm]
  simp only [Text.stripStart?_append, Option.bind_eq_bind, Option.bind_some, hcolumns, hmeasurement,
    hgroups, readFill_tail, hconditions]

end Statement

open Statement

/-- A sub-query whose functions are known by name, whose time buckets have no bracket in their widths,
and whose numbers are as they are kept. -/
structure SubQuery.Legible (s : SubQuery) : Prop where
  named : ∀ p ∈ s.clauses.project, p.2.isNamed = true
  closed : ∀ p ∈ s.clauses.group, p.2.isClosed = true
  canonical : ∀ onField ∈ s.clauses.conditions, ∀ condition ∈ onField.2,
    (Literal.ofJson condition.2).Canonical

/-- The numbers of its form are as they are kept. -/
theorem SubQuery.Legible.canonical_form {s : SubQuery} (hs : s.Legible) {fillZero : Bool} :
    ∀ p ∈ (s.form fillZero).conditions, p.2.2.Canonical := by
  intro p hp
  obtain ⟨onField, hfield, hp⟩ := List.mem_flatMap.1 hp
  obtain ⟨condition, hcondition, rfl⟩ := List.mem_map.1 hp
  exact hs.canonical onField hfield condition hcondition

namespace Statement

theorem isNamed_ofProjection {e : ProjectExpr} (h : e.isNamed = true) (limit : Option Nat)
    (shown : String) : (Column.ofProjection limit shown e).isNamed = true := by
  cases e with
  | time => rfl
  | column name => cases limit <;> rfl
  | aggregate function name =>
    cases limit with
    | none => exact h
    | some n => rfl

theorem isSpelled_asWritten (l : Literal Json.Number) : l.asWritten.isSpelled = true := by
  cases l with
  | number n => exact List.all_eq_true.2 fun c => Json.isNumeric_of_mem_render
  | bool b => rfl
  | text s => rfl

/-- The form of a legible sub-query can be read back. -/
theorem readable_form {s : SubQuery} (hs : s.Legible) (fillZero : Bool) :
    (s.form fillZero).asWritten.Readable where
  named c hc := by
    obtain ⟨p, hp, rfl⟩ := List.mem_map.1 hc
    exact isNamed_ofProjection (hs.named p hp) s.clauses.limit p.1
  closed g hg := by
    have hshown : g ∈ shownGroups s.clauses := hg
    unfold shownGroups at hshown
    split_ifs at hshown
    · obtain ⟨p, hp, rfl⟩ := List.mem_map.1 hshown
      exact hs.closed p hp
    · cases hshown
  spelled p hp := by
    obtain ⟨q, -, rfl⟩ := List.mem_map.1 hp
    exact isSpelled_asWritten q.2.2

/-- Statements are uniquely decodable. -/
theorem render_uniquely_decodable {s t : SubQuery} (hs : s.Legible) (ht : t.Legible)
    (fillZero fillZero' : Bool) :
    decode (render fillZero s) = some (s.form fillZero).asWritten ∧
      (render fillZero s = render fillZero' t ↔ s.form fillZero = t.form fillZero') := by
  have hdecode := fun {s : SubQuery} (hs : s.Legible) (fillZero : Bool) =>
    Form.decode_write (readable_form hs fillZero)
  simp only [render_eq_write]
  refine ⟨hdecode hs fillZero, fun h => ?_, fun h => by rw [h]⟩
  have hwritten : (s.form fillZero).asWritten = (t.form fillZero').asWritten := by
    rw [← Option.some_inj, ← hdecode hs, ← hdecode ht, h]
  exact Form.asWritten_inj hs.canonical_form ht.canonical_form hwritten

/-- A condition whose value, without escapes, would go on as a condition of its own. -/
def breakingOut : SubQuery where
  key := "k"
  collection := "events"
  measurement := "events"
  clauses := { Clauses.empty with
    conditions := [("user", [(.eq, .string "x' and role = 'admin")])]
    project := [("a\" as \"b", .aggregate .distinct "distinct"), ("from", .column "as")]
    group := [("day", .timeBucket "d"), ("fill", .column "fill(0)")] }
  metrics := ["a"]

/-- The two conditions that the value of `breakingOut` spells. -/
def spelledOut : SubQuery :=
  { breakingOut with clauses := { breakingOut.clauses with
      conditions := [("user", [(.eq, .string "x")]), ("role", [(.eq, .string "admin")])] } }

theorem render_uniquely_decodable_breakingOut :
    decode (render true breakingOut) = some (breakingOut.form true).asWritten ∧
      render true breakingOut ≠ render true spelledOut := by
  have hbreaking : breakingOut.Legible := ⟨by decide, by decide, by decide⟩
  have hspelled : spelledOut.Legible := ⟨by decide, by decide, by decide⟩
  obtain ⟨hdecode, heq⟩ := render_uniquely_decodable hbreaking hspelled true true
  exact ⟨hdecode, fun h => absurd (heq.1 h) (by decide)⟩

end Statement

end SeriesPivot
