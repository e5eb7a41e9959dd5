import SeriesPivot.Proofs.Statement.Reading

/-!
# Single statements

A store takes a statement apart at the semicolons outside of quotes, so a text is one statement only if no
semicolon stands there, and if no quotation in it is left open.

* `scan` goes over a text from left to right and ends at a semicolon outside of quotes.
* `IsSingle` says of a text that a scan which begins outside of quotes ends outside of quotes. Such texts
  can be put together in any way (`IsSingle.append`).
* `isSingle_quoteWith`: a quoted text is one of them, whatever it is made of.
* `isSingle_write`: the text of a form is a single statement, if the texts are that it shows as they are
  (`Form.verbatim`): the names of functions that are not known and the widths of time buckets.
-/

namespace SeriesPivot

/-- The name of a function that is not known, which a statement shows as it is. -/
def Aggregation.verbatim : Aggregation → List String
  | .other name => [name]
  | _ => []

/-- The width of a time bucket, which a statement shows as it is. -/
def GroupExpr.verbatim : GroupExpr → List String
  | .timeBucket unit => [unit]
  | .column _ => []

namespace Statement

/-! ### Scanning -/

/-- What a quotation begins and ends with. -/
inductive Quote where
  | single
  | double
  deriving DecidableEq, Repr

/-- The character of a quote. -/
def Quote.char : Quote → Char
  | .single => '\''
  | .double => '"'

/-- Where a scan of a text stands. -/
inductive Place where
  | outside
  /-- Inside of quotes. -/
  | inside (q : Quote)
  /-- Inside of quotes behind a backslash. -/
  | slashed (q : Quote)
  deriving DecidableEq, Repr

namespace Place

/-- The place behind one more character; none behind a semicolon that ends a statement. -/
def next : Place → Char → Option Place
  | outside, c =>
    if c = ';' then none
    else if c = '\'' then some (inside .single)
    else if c = '"' then some (inside .double)
    else some outside
  | inside q, c =>
    if c = q.char then some outside else if c = '\\' then some (slashed q) else some (inside q)
  | slashed q, _ => some (inside q)

/-- The place behind a text. -/
def scan (p : Place) (cs : List Char) : Option Place :=
  cs.foldlM next p

@[simp] theorem scan_nil (p : Place) : scan p [] = some p := rfl

@[simp] theorem scan_cons (p : Place) (c : Char) (cs : List Char) :
    scan p (c :: cs) = (next p c).bind fun p => scan p cs := rfl

theorem scan_append (p : Place) (cs ds : List Char) :
    scan p (cs ++ ds) = (scan p cs).bind fun p => scan p ds := by
  simp [scan, Option.bind_eq_bind]

/-- A character that means nothing to a scan. -/
def IsQuiet (c : Char) : Prop :=
  c ≠ ';' ∧ c ≠ '\'' ∧ c ≠ '"' ∧ c ≠ '\\'

instance (c : Char) : Decidable (IsQuiet c) :=
  inferInstanceAs (Decidable (c ≠ ';' ∧ c ≠ '\'' ∧ c ≠ '"' ∧ c ≠ '\\'))

/-- A text is checked character by character. -/
theorem forall_isQuiet {cs : List Char} (h : cs.all (fun c => decide (IsQuiet c)) = true) :
    ∀ c ∈ cs, IsQuiet c := by
  simpa using h

theorem scan_outside_of_quiet {cs : List Char} (h : ∀ c ∈ cs, IsQuiet c) :
    scan outside cs = some outside := by
  induction cs with
  | nil => rfl
  | cons c cs ih =>
    obtain ⟨hsemicolon, hsingle, hdouble, -⟩ := h c List.mem_cons_self
    rw [scan_cons, next, if_neg hsemicolon, if_neg hsingle, if_neg hdouble]
    exact ih fun d hd => h d (List.mem_cons_of_mem _ hd)

/-- No scan leaves quotes without the quote that ends them. -/
theorem eq_outside_of_scan {cs : List Char} (h : ∀ c ∈ cs, IsQuiet c) {p : Place}
    (hscan : scan p cs = some outside) : p = outside := by
  induction cs generalizing p with
  | nil => exact Option.some.inj hscan
  | cons c cs ih =>
    obtain ⟨-, hsingle, hdouble, hslash⟩ := h c List.mem_cons_self
    have htail : ∀ d ∈ cs, IsQuiet d := fun d hd => h d (List.mem_cons_of_mem _ hd)
    cases p with
    | outside => rfl
    | inside q =>
      have hq : c ≠ q.char := by cases q <;> assumption
      rw [scan_cons, next, if_neg hq, if_neg hslash] at hscan
      cases ih htail hscan
    | slashed q => cases ih htail hscan

/-- Escaped text stays inside of quotes. -/
theorem scan_escaped (q : Quote) (cs : List Char) :
    scan (inside q) (cs.flatMap (escaped q.char)) = some (inside q) := by
  induction cs with
  | nil => rfl
  | cons c cs ih =>
    rw [List.flatMap_cons, scan_append]
    suffices hc : scan (inside q) (escaped q.char c) = some (inside q) by rw [hc]; exact ih
    have hslash : '\\' ≠ q.char := by cases q <;> decide
    unfold escaped
    split_ifs with h
    · rw [scan_cons, next, if_neg hslash, if_pos rfl]
      rfl
    · obtain ⟨h1, h2⟩ := not_or.1 h
      rw [scan_cons, next, if_neg h2, if_neg h1]
      rfl

end Place

open Place

/-- Whether a text is one statement to a store, or can be a part of one: no semicolon stands outside of
quotes, and no quotation is left open. -/
def IsSingle (s : String) : Prop :=
  scan outside s.toList = some outside

instance (s : String) : Decidable (IsSingle s) :=
  inferInstanceAs (Decidable (scan outside s.toList = some outside))

theorem IsSingle.append {s t : String} (hs : IsSingle s) (ht : IsSingle t) : IsSingle (s ++ t) := by
  rw [IsSingle, String.toList_append, scan_append, hs]
  exact ht

theorem isSingle_intercalate {sep : String} (hsep : IsSingle sep) {items : List String}
    (h : ∀ s ∈ items, IsSingle s) : IsSingle (sep.intercalate items) := by
  induction items with
  | nil => exact rfl
  | cons s items ih =>
    have hs := h s List.mem_cons_self
    have hrest := ih fun t ht => h t (List.mem_cons_of_mem _ ht)
    cases items with
    | nil => rwa [String.intercalate_singleton]
    | cons t items =>
      rw [String.intercalate_cons_cons]
      exact (hs.append hsep).append hrest

/-- Between quiet texts, only single ones make a single text. -/
theorem isSingle_append_quiet_iff {s t : String} (ht : ∀ c ∈ t.toList, IsQuiet c) :
    IsSingle (s ++ t) ↔ IsSingle s := by
  refine ⟨fun h => ?_, fun h => h.append (scan_outside_of_quiet ht)⟩
  rw [IsSingle, String.toList_append, scan_append] at h
  obtain ⟨p, hs, hp⟩ := Option.bind_eq_some_iff.1 h
  rw [IsSingle, hs, eq_outside_of_scan ht hp]

theorem isSingle_quiet_append_iff {s t : String} (hs : ∀ c ∈ s.toList, IsQuiet c) :
    IsSingle (s ++ t) ↔ IsSingle t := by
  rw [IsSingle, String.toList_append, scan_append, scan_outside_of_quiet hs]
  rfl

/-! ### Names and literals -/

theorem isQuiet_of_isWordPart {c : Char} (h : isWordPart c = true) : IsQuiet c := by
  refine ⟨?_, ?_, ?_, ?_⟩ <;> rintro rfl <;> exact absurd h (by decide)

theorem isQuiet_of_isNumeric {c : Char} (h : Decimal.isNumeric c = true) : IsQuiet c := by
  refine ⟨?_, ?_, ?_, ?_⟩ <;> rintro rfl <;> exact absurd h (by decide)

/-- A quoted text is single, whatever it is made of. -/
theorem isSingle_quoteWith (q : Quote) (s : String) : IsSingle (quoteWith q.char s) := by
  have hopen : next outside q.char = some (inside q) := by cases q <;> rfl
  have hclose : next (inside q) q.char = some outside := by cases q <;> rfl
  rw [IsSingle, toList_quoteWith, scan_cons, hopen, Option.bind_some, scan_append, scan_escaped,
    Option.bind_some, scan_cons, hclose]
  rfl

theorem isSingle_quoteIdent (s : String) : IsSingle (quoteIdent s) := by
  unfold quoteIdent
  split_ifs with h
  · exact scan_outside_of_quiet fun c hc => isQuiet_of_isWordPart (isWordPart_of_mem h hc)
  · exact isSingle_quoteWith .double s

theorem Literal.isSingle_write {l : Literal String} (hl : l.isSpelled = true) : IsSingle l.write := by
  cases l with
  | number digits =>
    exact scan_outside_of_quiet fun c hc => isQuiet_of_isNumeric (List.all_eq_true.1 hl c hc)
  | bool b => cases b <;> decide
  | text s => exact isSingle_quoteWith .single s

theorem isSingle_symbol (o : Operator) : IsSingle o.symbol := by
  cases o <;> decide

theorem isSingle_writeCondition {p : String × Operator × Literal String}
    (hp : p.2.2.isSpelled = true) : IsSingle (writeCondition p) :=
  have hblank : IsSingle " " := by decide
  ((((isSingle_quoteIdent p.1).append hblank).append (isSingle_symbol p.2.1)).append hblank).append
    (Literal.isSingle_write hp)

/-! ### Statements -/

/-- The texts that a column shows as they are. -/
def Column.verbatim : Column → List String
  | .aggregate function _ _ => function.verbatim
  | .plain _ _ | .top _ _ _ => []

/-- The texts that a statement shows as they are: names of functions and widths of time buckets. -/
def Form.verbatim {ν : Type} (F : Form ν) : List String :=
  F.columns.flatMap Column.verbatim ++ F.groups.flatMap GroupExpr.verbatim

theorem isSingle_name {a : Aggregation} (h : ∀ text ∈ a.verbatim, IsSingle text) : IsSingle a.name := by
  cases a with
  | other name => exact h name (List.mem_singleton_self name)
  | sum | mean | count | distinct | min | max | first | last | median => decide

theorem isSingle_applyTo {a : Aggregation} (h : ∀ text ∈ a.verbatim, IsSingle text) {column : String}
    (hcolumn : IsSingle column) : IsSingle (a.applyTo column) := by
  by_cases ha : a = .distinct
  · rw [ha, applyTo_distinct]
    have hstart : IsSingle "count(distinct(" := by decide
    have hstop : IsSingle "))" := by decide
    exact (hstart.append hcolumn).append hstop
  · rw [applyTo_of_ne_distinct ha]
    have hstart : IsSingle "(" := by decide
    have hstop : IsSingle ")" := by decide
    exact (((isSingle_name h).append hstart).append hcolumn).append hstop

theorem isSingle_toString (n : Nat) : IsSingle (toString n) :=
  scan_outside_of_quiet fun _ hc =>
    isQuiet_of_isNumeric (Decimal.isNumeric_of_isDigit (Decimal.isDigit_of_mem_toString hc))

theorem Column.isSingle_write {c : Column} (h : ∀ text ∈ c.verbatim, IsSingle text) :
    IsSingle c.write := by
  have has : IsSingle " as " := by decide
  cases c with
  | plain name shown =>
    rw [write]
    split_ifs
    · exact isSingle_quoteIdent shown
    · exact ((isSingle_quoteIdent name).append has).append (isSingle_quoteIdent shown)
  | aggregate function name shown =>
    exact ((isSingle_applyTo h (isSingle_quoteIdent name)).append has).append (isSingle_quoteIdent shown)
  | top name count shown =>
    have hstart : IsSingle "top(" := by decide
    have hcomma : IsSingle ", " := by decide
    have hstop : IsSingle ")" := by decide
    have htop : IsSingle (Statement.top name count) :=
      (((hstart.append (isSingle_quoteIdent name)).append hcomma).append
        (isSingle_toString count)).append hstop
    exact (htop.append has).append (isSingle_quoteIdent shown)

theorem isSingle_renderGroup {g : GroupExpr} (h : ∀ text ∈ g.verbatim, IsSingle text) :
    IsSingle (renderGroup g) := by
  cases g with
  | column name => exact isSingle_quoteIdent name
  | timeBucket unit =>
    have hstart : IsSingle "time(1" := by decide
    have hstop : IsSingle ")" := by decide
    exact (hstart.append (h unit (List.mem_singleton_self unit))).append hstop

theorem isSingle_writeClause {α : Type} {start sep : String} (hstart : IsSingle start)
    (hsep : IsSingle sep) {write : α → String} {items : List α}
    (h : ∀ item ∈ items, IsSingle (write item)) : IsSingle (writeClause start sep write items) := by
  cases items with
  | nil => exact rfl
  | cons item items =>
    exact hstart.append (isSingle_intercalate hsep (List.forall_mem_map.2 h))

theorem isSingle_writeColumns {columns : List Column}
    (h : ∀ c ∈ columns, ∀ text ∈ c.verbatim, IsSingle text) : IsSingle (writeColumns columns) := by
  have hcomma : IsSingle ", " := by decide
  cases columns with
  | nil => exact rfl
  | cons c columns =>
    exact isSingle_intercalate hcomma
      (List.forall_mem_map.2 fun column hc => Column.isSingle_write (h column hc))

/-- The text of a form is a single statement, if the texts are single that it shows as they are. -/
theorem isSingle_write {F : Form String} (hspelled : ∀ p ∈ F.conditions, p.2.2.isSpelled = true)
    (h : ∀ text ∈ F.verbatim, IsSingle text) : IsSingle F.write := by
  have hcolumns : ∀ c ∈ F.columns, ∀ text ∈ c.verbatim, IsSingle text := fun c hc text htext =>
    h text (List.mem_append_left _ (List.mem_flatMap_of_mem hc htext))
  have hgroups : ∀ g ∈ F.groups, ∀ text ∈ g.verbatim, IsSingle text := fun g hg text htext =>
    h text (List.mem_append_right _ (List.mem_flatMap_of_mem hg htext))
  have hselect : IsSingle "select " := by decide
  have hfrom : IsSingle " from " := by decide
  have hfill : IsSingle (writeFill F.fill) := by cases F.fill <;> decide
  have hgroup : IsSingle (writeClause " group by " ", " renderGroup F.groups) :=
    isSingle_writeClause (by decide) (by decide) fun g hg => isSingle_renderGroup (hgroups g hg)
  have hwhere : IsSingle (writeClause " where " " and " writeCondition F.conditions) :=
    isSingle_writeClause (by decide) (by decide) fun p hp => isSingle_writeCondition (hspelled p hp)
  exact ((((hselect.append (isSingle_writeColumns hcolumns)).append hfrom).append
    (isSingle_quoteIdent F.measurement)).append (hgroup.append hfill)).append hwhere

/-- The statement of a sub-query is single, if the texts are that it shows as they are. -/
theorem isSingle_render (fillZero : Bool) {s : SubQuery}
    (h : ∀ text ∈ (s.form fillZero).verbatim, IsSingle text) : IsSingle (render fillZero s) := by
  rw [render_eq_write]
  refine isSingle_write (fun p hp => ?_) h
  obtain ⟨q, -, rfl⟩ := List.mem_map.1 hp
  exact isSpelled_asWritten q.2.2

end Statement

end SeriesPivot
