import SeriesPivot.Calendar.Read
import SeriesPivot.Proofs.Calendar.Date
import SeriesPivot.Proofs.Text.Digits

/-!
# Literals of instants are read back

The literal of an instant has three digits behind the second, so it is read back as the instant cut to a
whole number of milliseconds.

* `Instant.Proper` says of an instant that the calendar has it.
* `written` are the characters of a date and a time of day with anything behind them. What readers make of
  them say `rfc3339_written` and `dateAndTime_written`.
* `proper_of_read?`: what is read as an instant is one of the calendar.
* `read?_toLiteral`: the literal of a proper instant is read as the instant cut to milliseconds.
* `read?_toUtcMillis` says the same of RFC 3339 in years of four digits. Other years are told apart too, by
  `floorMillis_eq_of_toUtcMillis_eq`, but not read.
-/

namespace SeriesPivot

/-! ### Steps of a reader -/

namespace Scan

variable {α β : Type}

theorem bind_apply (x : Step α) (f : α → Step β) (cs : List Char) :
    (x >>= f) cs = (x cs).bind fun p => f p.1 p.2 := rfl

theorem bind_of_eq_some {x : Step α} {cs rest : List Char} {a : α} (h : x cs = some (a, rest))
    (f : α → Step β) : (x >>= f) cs = f a rest := by
  rw [bind_apply, h]
  rfl

theorem pure_apply (a : α) (cs : List Char) : (pure a : Step α) cs = some (a, cs) := rfl

theorem expect_cons (c : Char) (cs : List Char) : expect c (c :: cs) = some ((), cs) := if_pos rfl

theorem liftM_apply (a : Option α) (cs : List Char) :
    (liftM a : Step α) cs = a.map fun a => (a, cs) := by
  cases a <;> rfl

theorem blanks_of_stops {cs : List Char} (h : Text.Stops Text.isBlank cs) :
    blanks cs = some ((), cs) := by
  rw [blanks, Text.skipBlanks_of_stops h]

/-- Blanks are taken off one by one. -/
theorem blanks_cons {c : Char} (hc : Text.isBlank c = true) (cs : List Char) :
    blanks (c :: cs) = blanks cs := by
  simp [blanks, Text.skipBlanks, hc]

section

variable {cs : List Char} {n : Nat} (h : Text.Spells cs n)

include h

/-- Digits that fill the room of a number are read as the number that they spell. -/
theorem number_append {least most : Nat} (hmost : cs.length = most) (hleast : least ≤ most)
    (r : List Char) : number least most (cs ++ r) = some (n, r) := by
  have htake : (cs ++ r).take most = cs ++ [] := by simp [← hmost]
  have hdrop : (cs ++ r).drop (cs.map Text.digitValue).length = r := by simp
  rw [number, htake, Text.digits_append h.digits (Text.stops_nil _)]
  simp only [List.length_map, hmost, h.value, Nat.not_lt.2 hleast, if_false] at hdrop ⊢
  rw [hdrop]

/-- Digits up to the end of their run are read as a whole. -/
theorem digits_append {r : List Char} (hr : Text.Stops Char.isDigit r) :
    digits (cs ++ r) = some (cs.map Text.digitValue, r) := by
  rw [digits, Text.digits_append h.digits hr]
  cases hcs : cs.map Text.digitValue with
  | nil => exact absurd (List.map_eq_nil_iff.1 hcs) h.nonempty
  | cons d ds => rfl

/-- Up to nine digits behind a point are read as nanoseconds. -/
theorem fraction_append (hlength : cs.length ≤ 9) {r : List Char} (hr : Text.Stops Char.isDigit r) :
    fraction ('.' :: (cs ++ r)) = some (n * 10 ^ (9 - cs.length), r) := by
  have htake : (cs.map Text.digitValue).take 9 = cs.map Text.digitValue :=
    List.take_of_length_le (by simpa using hlength)
  simp only [fraction, digits_append h hr, Option.bind_eq_bind, Option.bind_some, htake, h.value,
    List.length_map]
  rfl

/-- Digits are no blanks. -/
theorem stops_isBlank (r : List Char) : Text.Stops Text.isBlank (cs ++ r) := by
  obtain ⟨c, rest, rfl, hc⟩ := h.exists_cons
  exact (Text.stops_cons ..).2 (Text.isBlank_of_isDigit hc)

theorem stops_isBlank_reverse (r : List Char) : Text.Stops Text.isBlank (cs.reverse ++ r) := by
  have hreverse : Text.Spells cs.reverse _ :=
    ⟨fun c hc => h.digits c (List.mem_reverse.1 hc), by simpa using h.nonempty, rfl⟩
  exact stops_isBlank hreverse r

end

end Scan

namespace Instant

open Scan

/-! ### Instants of the calendar -/

/-- Whether the calendar has an instant: leap seconds are at the end of a minute. -/
structure Proper (t : Instant) : Prop where
  first : firstSecond ≤ t.seconds
  last : t.seconds ≤ lastSecond
  nanos : t.nanos < 1000000000 ∨ t.nanos < 2000000000 ∧ t.seconds % 60 = 59

/-- The instant cut to a whole number of milliseconds. -/
def floorMillis (t : Instant) : Instant :=
  ⟨t.seconds, t.nanos / 1000000 * 1000000⟩

/-! ### Reading literals -/

theorem shortNumber_append {cs : List Char} {n : Nat} (h : Text.Spells cs n) (hlength : cs.length = 2)
    (r : List Char) : shortNumber (cs ++ r) = some (n, r) := by
  simp only [shortNumber, bind_apply, blanks_of_stops (stops_isBlank h r), Option.bind_some,
    number_append h hlength (Nat.le_succ 1)]

/-- A year is read as it is written. -/
theorem year_renderYear (y : Int) {r : List Char} (hr : Text.Stops Char.isDigit r) :
    year ((renderYear y).toList ++ r) = some (y, r) := by
  have hspells := Text.spells_padNat 4 y.natAbs
  unfold renderYear
  split
  case isTrue hy =>
    obtain ⟨c, rest, hcons, hc⟩ := hspells.exists_cons
    have hlength : (Text.padNat 4 y.natAbs).toList.length = 4 := Text.length_padNat (by decide) (by omega)
    have hnumber := number_append hspells hlength (show 1 ≤ 4 by decide) r
    simp only [year, bind_apply, blanks_of_stops (stops_isBlank hspells r), Option.bind_some]
    rw [hcons] at hnumber ⊢
    rw [List.cons_append] at hnumber ⊢
    split
    case h_1 heq =>
      cases heq
      cases hc
    case h_2 heq =>
      cases heq
      cases hc
    case h_3 =>
      rw [hnumber]
      have hy' : (y.natAbs : Int) = y := by omega
      simp [hy']
  case isFalse hy =>
    have hdigits := digits_append hspells hr
    split
    case isTrue hneg =>
      have hlist : ("-" ++ Text.padNat 4 y.natAbs).toList ++ r =
          '-' :: ((Text.padNat 4 y.natAbs).toList ++ r) := by simp
      have hblanks : blanks ('-' :: ((Text.padNat 4 y.natAbs).toList ++ r)) = some ((), _) :=
        blanks_of_stops ((Text.stops_cons ..).2 (by decide))
      have hy' : -(y.natAbs : Int) = y := by omega
      rw [hlist]
      simp only [year, bind_apply, hblanks, Option.bind_some, hdigits, Option.bind_eq_bind, hspells.value, hy']
    case isFalse hpos =>
      have hlist : ("+" ++ Text.padNat 4 y.natAbs).toList ++ r =
          '+' :: ((Text.padNat 4 y.natAbs).toList ++ r) := by simp
      have hblanks : blanks ('+' :: ((Text.padNat 4 y.natAbs).toList ++ r)) = some ((), _) :=
        blanks_of_stops ((Text.stops_cons ..).2 (by decide))
      have hy' : (y.natAbs : Int) = y := by omega
      rw [hlist]
      simp only [year, bind_apply, hblanks, Option.bind_some, hdigits, Option.bind_eq_bind, hspells.value, hy']

/-- A year of four digits is read as such, and a year with a sign is none. -/
theorem number_renderYear (y : Int) (r : List Char) :
    number 4 4 ((renderYear y).toList ++ r) = if 0 ≤ y ∧ y ≤ 9999 then some (y.natAbs, r) else none := by
  have hspells := Text.spells_padNat 4 y.natAbs
  unfold renderYear
  split
  case isTrue hy => 
    exact number_append hspells (Text.length_padNat (by decide) (by omega)) (by decide) r
  case isFalse hy =>
    split <;> simp [number, Text.digits, Text.digit?]

/-- A date and a time of day by their characters, with `between` between them and `rest` behind. -/
def written (t : Instant) (between : Char) (rest : List Char) : List Char :=
  (renderYear t.date.year).toList ++ '-' ::
    ((Text.padNat 2 t.date.month).toList ++ '-' :: ((Text.padNat 2 t.date.day).toList ++ between ::
    ((Text.padNat 2 t.timeOfDay.hour).toList ++ ':' :: ((Text.padNat 2 t.timeOfDay.minute).toList ++
    ':' :: ((Text.padNat 2 (t.timeOfDay.second + t.nanos / 1000000000)).toList ++ rest)))))

theorem written_eq_append (t : Instant) (between : Char) (rest : List Char) :
    t.written between rest = t.written between [] ++ rest := by
  simp [written]

theorem toList_toLiteral (t : Instant) :
    t.toLiteral.toList = t.written ' ' ('.' :: (Text.padNat 3 (t.nanos / 1000000 % 1000)).toList) := by
  simp [written, toLiteral, renderDate, renderClock, renderMillis, timeOfDay]

/-- The instant of the fields that are written, with these nanoseconds. -/
def ofWritten? (t : Instant) (nanos : Nat) : Option Instant :=
  ofFields? t.date.year t.date.month t.date.day
    (clock? t.timeOfDay.hour t.timeOfDay.minute (t.timeOfDay.second + t.nanos / 1000000000) nanos)

/-- The fields that are written make up the second of the instant. -/
theorem Proper.ofWritten?_eq {t : Instant} (h : t.Proper) (nanos : Nat) :
    t.ofWritten? nanos = some ⟨t.seconds, t.nanos / 1000000000 * 1000000000 + nanos⟩ := by
  obtain ⟨hfirst, hlast, hnanos⟩ := h
  simp only [firstSecond, lastSecond] at hfirst hlast
  have hvalid : t.date.isValid = true := Date.isValid_ofDays (by omega) (by omega)
  have hdays : t.date.toDays = t.seconds / 86400 := Date.toDays_ofDays _
  -- the second of the day
  obtain ⟨s, hs⟩ : ∃ s : Nat, (t.seconds % 86400).toNat = s := ⟨_, rfl⟩
  have hclock : t.timeOfDay = ⟨s / 3600, s / 60 % 60, s % 60, t.nanos⟩ := by rw [timeOfDay, hs]
  rw [ofWritten?, hclock, ofFields?, if_pos hvalid]
  simp only [clock?]
  rw [if_pos ⟨by omega, by omega, by omega⟩, Option.map_some]
  split
  case isTrue hleap =>
    simp only [ofCivil, hdays, Option.some.injEq, Instant.mk.injEq]
    omega
  case isFalse hleap =>
    simp only [ofCivil, hdays, Option.some.injEq, Instant.mk.injEq]
    omega

/-- What the fields of a literal are made of. -/
structure Fields (t : Instant) : Prop where
  month : t.date.month < 100
  day : t.date.day < 100
  hour : t.timeOfDay.hour < 24
  minute : t.timeOfDay.minute < 60
  second : t.timeOfDay.second + t.nanos / 1000000000 ≤ 60
  instant : ofFields? t.date.year t.date.month t.date.day
    (clock? t.timeOfDay.hour t.timeOfDay.minute (t.timeOfDay.second + t.nanos / 1000000000)
      (t.nanos / 1000000 % 1000 * 1000000)) = some t.floorMillis

theorem Proper.fields {t : Instant} (h : t.Proper) : t.Fields := by
  have hmillis : (⟨t.seconds, t.nanos / 1000000000 * 1000000000 + t.nanos / 1000000 % 1000 * 1000000⟩ :
      Instant) = t.floorMillis := by
    simp only [floorMillis, Instant.mk.injEq, true_and]
    omega
  have hinstant := (h.ofWritten?_eq (t.nanos / 1000000 % 1000 * 1000000)).trans (congrArg some hmillis)
  obtain ⟨hfirst, hlast, hnanos⟩ := h
  simp only [firstSecond, lastSecond] at hfirst hlast
  have hvalid : t.date.isValid = true := Date.isValid_ofDays (by omega) (by omega)
  obtain ⟨-, -, -, hmonth, -, hday⟩ := of_decide_eq_true hvalid
  have hday' := Date.daysInMonth_le t.date.year t.date.month
  refine ⟨by omega, by omega, ?_, ?_, ?_, hinstant⟩
  all_goals
    simp only [timeOfDay]
    omega

/-- Three digits behind the second make up the instant cut to milliseconds. -/
theorem Proper.ofWritten?_millis {t : Instant} (h : t.Proper) :
    t.ofWritten? (t.nanos / 1000000 % 1000 * 1000000) = some t.floorMillis :=
  h.fields.instant

/-- A written instant with a signed year is no RFC 3339; otherwise what stands behind it decides. -/
theorem rfc3339_written {t : Instant} (h : t.Fields) {c : Char}
    (hseparator : ∀ cs, separator (c :: cs) = some ((), cs)) {rest r : List Char} {nanos : Nat}
    (hfraction : fraction rest = some (nanos, r)) :
    rfc3339 (t.written c rest) =
      if 0 ≤ t.date.year ∧ t.date.year ≤ 9999 then
        (offset r).bind fun p => (t.ofWritten? nanos).map fun u =>
          (⟨u.seconds - p.1 * 60, u.nanos⟩, p.2)
      else none := by
  have htwo : ∀ n < 100, ∀ r, number 2 2 ((Text.padNat 2 n).toList ++ r) = some (n, r) := fun n hn r =>
    number_append (Text.spells_padNat 2 n) (Text.length_padNat (by decide) hn) (Nat.le_refl 2) r
  rw [written, rfc3339, bind_apply, number_renderYear]
  split
  case isTrue hyear =>
    have hdate : (t.date.year.natAbs : Int) = t.date.year := by omega
    rw [Option.bind_some, bind_of_eq_some (expect_cons ..), bind_of_eq_some (htwo _ h.month _),
      bind_of_eq_some (expect_cons ..), bind_of_eq_some (htwo _ h.day _), bind_of_eq_some (hseparator _),
      bind_of_eq_some (htwo _ (by have := h.hour; omega) _), bind_of_eq_some (expect_cons ..),
      bind_of_eq_some (htwo _ (by have := h.minute; omega) _), bind_of_eq_some (expect_cons ..),
      bind_of_eq_some (htwo _ (by have := h.second; omega) _), bind_of_eq_some hfraction, bind_apply, hdate,
      ← ofWritten?]
    cases t.ofWritten? nanos <;> rfl
  case isFalse => rfl

/-- A written instant is read up to what stands behind it. -/
theorem dateAndTime_written {t : Instant} (h : t.Fields) {c : Char} {between : Step Unit}
    (hbetween : ∀ n r, between (c :: ((Text.padNat 2 n).toList ++ r)) =
      some ((), (Text.padNat 2 n).toList ++ r)) {rest r : List Char} {nanos : Nat}
    (hfraction : fraction rest = some (nanos, r)) :
    dateAndTime between (t.written c rest) = (t.ofWritten? nanos).map fun u => (u, r) := by
  have htwo : ∀ n < 100, ∀ r, shortNumber ((Text.padNat 2 n).toList ++ r) = some (n, r) := fun n hn r =>
    shortNumber_append (Text.spells_padNat 2 n) (Text.length_padNat (by decide) hn) r
  have hyear : ∀ r, year ((renderYear t.date.year).toList ++ '-' :: r) = some (t.date.year, '-' :: r) :=
    fun r => year_renderYear _ ((Text.stops_cons ..).2 (by decide))
  simp only [written, ofWritten?, dateAndTime, dateFields, bind_apply, pure_apply, hyear, Option.bind_some,
    expect_cons, htwo _ h.month, htwo _ h.day, hbetween,
    htwo _ (show t.timeOfDay.hour < 100 by have := h.hour; omega),
    htwo _ (show t.timeOfDay.minute < 100 by have := h.minute; omega),
    htwo _ (show t.timeOfDay.second + t.nanos / 1000000000 < 100 by have := h.second; omega),
    hfraction, liftM_apply]

theorem stops_isBlank_renderYear (y : Int) (r : List Char) :
    Text.Stops Text.isBlank ((renderYear y).toList ++ r) := by
  unfold renderYear
  split
  case isTrue => exact stops_isBlank (Text.spells_padNat 4 y.natAbs) r
  case isFalse =>
    rw [String.toList_append, List.append_assoc]
    split <;> exact (Text.stops_cons ..).2 (by decide)

/-- A written instant is not trimmed if what stands behind it has no blank at its end. -/
theorem trim_of_written {text : String} {t : Instant} {c : Char} {rest : List Char}
    (h : text.toList = t.written c rest) (hrest : ∀ r, Text.Stops Text.isBlank (rest.reverse ++ r)) :
    Text.trim text = text := by
  refine Text.trim_of_stops ?_ ?_
  · rw [h, written]
    exact stops_isBlank_renderYear _ _
  · rw [h, written_eq_append, List.reverse_append]
    exact hrest _

/-- An instant that is written with a blank and up to nine digits of a fraction is read. It is no RFC 3339,
for it lacks an offset. -/
theorem read?_of_written {text : String} {t u : Instant} (h : t.Fields) {cs : List Char} {n : Nat}
    (hcs : Text.Spells cs n) (hlength : cs.length ≤ 9) (htext : text.toList = t.written ' ' ('.' :: cs))
    (hu : t.ofWritten? (n * 10 ^ (9 - cs.length)) = some u) : read? text = some u := by
  have hfraction := fraction_append hcs hlength (Text.stops_nil _)
  rw [List.append_nil] at hfraction
  have hseparator : ∀ cs, separator (' ' :: cs) = some ((), cs) := fun cs => by simp [separator]
  have hblanks : ∀ n r, blanks (' ' :: ((Text.padNat 2 n).toList ++ r)) =
      some ((), (Text.padNat 2 n).toList ++ r) := fun n r =>
    (blanks_cons (by decide) _).trans (blanks_of_stops (stops_isBlank (Text.spells_padNat 2 n) r))
  have htrim : Text.trim text = text := trim_of_written htext fun r => by
    rw [List.reverse_cons, List.append_assoc]
    exact stops_isBlank_reverse hcs _
  have hrfc : rfc3339 text.toList = none := by
    rw [htext, rfc3339_written h hseparator hfraction]
    exact ite_self none
  have hread : dateAndTime blanks text.toList = some (u, []) := by
    rw [htext, dateAndTime_written h hblanks hfraction, hu, Option.map_some]
  rw [read?, htrim]
  simp only [whole, hrfc, hread]
  rfl

/-- The literal of an instant is read as the instant cut to a whole number of milliseconds. -/
theorem read?_toLiteral {t : Instant} (h : t.Proper) : read? t.toLiteral = some t.floorMillis := by
  have hlength : (Text.padNat 3 (t.nanos / 1000000 % 1000)).toList.length = 3 :=
    Text.length_padNat (by decide) (by omega)
  refine read?_of_written h.fields (Text.spells_padNat 3 _) (by omega) (toList_toLiteral t) ?_
  rw [hlength]
  exact h.ofWritten?_millis

/-! ### Reading RFC 3339 -/

theorem toList_toUtcMillis (t : Instant) : t.toUtcMillis.toList =
    t.written 'T' ('.' :: ((Text.padNat 3 (t.nanos / 1000000 % 1000)).toList ++ ['Z'])) := by
  simp [written, toUtcMillis, renderDate, renderClock, renderMillis, timeOfDay]

theorem fraction_toUtcMillis (t : Instant) :
    fraction ('.' :: ((Text.padNat 3 (t.nanos / 1000000 % 1000)).toList ++ ['Z'])) =
      some (t.nanos / 1000000 % 1000 * 1000000, ['Z']) := by
  have hlength : (Text.padNat 3 (t.nanos / 1000000 % 1000)).toList.length = 3 :=
    Text.length_padNat (by decide) (by omega)
  have hread := fraction_append (Text.spells_padNat 3 (t.nanos / 1000000 % 1000)) (by omega)
    ((Text.stops_cons Char.isDigit 'Z' []).2 (by decide))
  rwa [hlength] at hread

/-- In any year, RFC 3339 is read up to the offset as the instant cut to milliseconds. -/
theorem dateAndTime_toUtcMillis {t : Instant} (h : t.Proper) :
    dateAndTime (expect 'T') t.toUtcMillis.toList = some (t.floorMillis, ['Z']) := by
  rw [toList_toUtcMillis, dateAndTime_written h.fields (fun _ _ => expect_cons ..) (fraction_toUtcMillis t),
    h.ofWritten?_millis, Option.map_some]

/-- In a year of four digits, RFC 3339 is read as the instant cut to milliseconds. -/
theorem rfc3339_toUtcMillis {t : Instant} (h : t.Proper) (hyear : 0 ≤ t.date.year ∧ t.date.year ≤ 9999) :
    rfc3339 t.toUtcMillis.toList = some (t.floorMillis, []) := by
  have hseparator : ∀ cs, separator ('T' :: cs) = some ((), cs) := fun cs => by simp [separator]
  have hoffset : offset ['Z'] = some (0, []) := rfl
  rw [toList_toUtcMillis, rfc3339_written h.fields hseparator (fraction_toUtcMillis t), if_pos hyear, hoffset,
    Option.bind_some, h.ofWritten?_millis, Option.map_some]
  simp

theorem read?_toUtcMillis {t : Instant} (h : t.Proper) (hyear : 0 ≤ t.date.year ∧ t.date.year ≤ 9999) :
    read? t.toUtcMillis = some t.floorMillis := by
  have htrim : Text.trim t.toUtcMillis = t.toUtcMillis := trim_of_written (toList_toUtcMillis t) fun r => by
    simp [Text.isBlank]
  rw [read?, htrim]
  simp only [whole, rfc3339_toUtcMillis h hyear]
  rfl

/-- Instants that differ by a millisecond or more differ in RFC 3339. -/
theorem floorMillis_eq_of_toUtcMillis_eq {t u : Instant} (ht : t.Proper) (hu : u.Proper)
    (h : t.toUtcMillis = u.toUtcMillis) : t.floorMillis = u.floorMillis := by
  have hread := dateAndTime_toUtcMillis ht
  rw [h, dateAndTime_toUtcMillis hu, Option.some.injEq, Prod.mk.injEq] at hread
  exact hread.1.symm

end Instant

/-! ### What is read -/

namespace Scan

theorem bind_eq_some_iff {α β : Type} {x : Step α} {f : α → Step β} {cs : List Char}
    {r : β × List Char} :
    (x >>= f) cs = some r ↔ ∃ a rest, x cs = some (a, rest) ∧ f a rest = some r := by
  rw [bind_apply, Option.bind_eq_some_iff]
  exact ⟨fun ⟨p, hx, hf⟩ => ⟨p.1, p.2, hx, hf⟩, fun ⟨a, rest, hx, hf⟩ => ⟨(a, rest), hx, hf⟩⟩

theorem lt_of_number {least most n : Nat} {cs rest : List Char}
    (h : number least most cs = some (n, rest)) : n < 10 ^ most := by
  have hvalue := Text.ofDigits_lt (Text.lt_of_mem_digits (cs.take most))
  have hlength : (Text.digits (cs.take most)).1.length ≤ most :=
    Nat.le_trans (Text.length_digits_le _) (List.length_take_le most cs)
  simp only [number] at h
  split at h
  · cases h
  · cases h
    exact Nat.lt_of_lt_of_le hvalue (Nat.pow_le_pow_right (by decide) hlength)

theorem lt_of_mem_of_digits {cs rest : List Char} {ds : List Nat} (h : digits cs = some (ds, rest)) :
    ∀ d ∈ ds, d < 10 := by
  have hall := Text.lt_of_mem_digits cs
  unfold digits at h
  split at h
  · cases h
  case h_2 heq =>
    cases h
    rwa [heq] at hall

/-- A fraction is less than a second. -/
theorem lt_of_fraction {n : Nat} {cs rest : List Char} (h : fraction cs = some (n, rest)) :
    n < 1000000000 := by
  unfold fraction at h
  split at h
  case h_1 more =>
    obtain ⟨⟨ds, r⟩, hdigits, hvalue⟩ := Option.bind_eq_some_iff.1 h
    cases hvalue
    have hlt : Text.ofDigits (ds.take 9) < 10 ^ (ds.take 9).length :=
      Text.ofDigits_lt fun d hd => lt_of_mem_of_digits hdigits d (List.mem_of_mem_take hd)
    have hlength : (ds.take 9).length ≤ 9 := List.length_take_le 9 ds
    calc Text.ofDigits (ds.take 9) * 10 ^ (9 - (ds.take 9).length)
      _ < 10 ^ (ds.take 9).length * 10 ^ (9 - (ds.take 9).length) :=
        Nat.mul_lt_mul_of_pos_right hlt (Nat.pow_pos (by decide))
      _ = 1000000000 := by rw [← Nat.pow_add, Nat.add_sub_cancel' hlength]
  case h_2 =>
    cases h
    decide

end Scan

/-- Whether a time of day exists: leap seconds are at the end of a minute. -/
structure TimeOfDay.Proper (c : TimeOfDay) : Prop where
  hour : c.hour < 24
  minute : c.minute < 60
  second : c.second < 60
  nanos : c.nanos < 1000000000 ∨ c.nanos < 2000000000 ∧ c.second = 59

namespace Instant

open Scan

theorem proper_of_clock? {hour minute second nanos : Nat} {c : TimeOfDay} (hnanos : nanos < 1000000000)
    (h : clock? hour minute second nanos = some c) : c.Proper := by
  unfold clock? at h
  split at h
  case isTrue hfields =>
    cases h
    split
    case isTrue =>
      exact ⟨hfields.1, hfields.2.1, Nat.lt_succ_self 59, .inr ⟨by show nanos + _ < _; omega, rfl⟩⟩
    case isFalse hne => exact ⟨hfields.1, hfields.2.1, by show second < 60; omega, .inl hnanos⟩
  case isFalse => cases h

theorem ofFields?_eq_some_iff {year : Int} {month day : Nat} {clock : Option TimeOfDay} {t : Instant} :
    ofFields? year month day clock = some t ↔
      Date.isValid ⟨year, month, day⟩ = true ∧ ∃ c, clock = some c ∧ ofCivil ⟨year, month, day⟩ c = t := by
  simp only [ofFields?]
  split <;> simp_all

theorem proper_ofCivil {d : Date} (hd : d.isValid = true) {c : TimeOfDay} (hc : c.Proper) :
    (ofCivil d c).Proper := by
  obtain ⟨hfirst, hlast⟩ := Date.toDays_of_isValid hd
  obtain ⟨hhour, hminute, hsecond, hnanos⟩ := hc
  refine ⟨?_, ?_, ?_⟩ <;> simp only [firstSecond, lastSecond, ofCivil] <;> omega

theorem proper_of_ofMillis? {ms : Int} {t : Instant} (h : ofMillis? ms = some t) : t.Proper := by
  simp only [ofMillis?] at h
  split at h
  case isTrue hrange =>
    cases h
    exact ⟨hrange.1, hrange.2, .inl (by show (ms % 1000).toNat * 1000000 < _; omega)⟩
  case isFalse => cases h

theorem proper_of_ofFields? {year : Int} {month day hour minute second nanos : Nat} {t : Instant}
    (hnanos : nanos < 1000000000)
    (h : ofFields? year month day (clock? hour minute second nanos) = some t) : t.Proper := by
  obtain ⟨hdate, c, hc, rfl⟩ := ofFields?_eq_some_iff.1 h
  exact proper_ofCivil hdate (proper_of_clock? hnanos hc)

theorem liftM_eq_some_iff {α : Type} {a : Option α} {cs rest : List Char} {b : α} :
    (liftM a : Step α) cs = some (b, rest) ↔ a = some b ∧ cs = rest := by
  rw [liftM_apply, Option.map_eq_some_iff]
  exact ⟨fun ⟨_, ha, he⟩ => by cases he; exact ⟨ha, rfl⟩, fun ⟨ha, he⟩ => ⟨b, ha, he ▸ rfl⟩⟩

theorem proper_of_dateAndTime {between : Step Unit} {cs rest : List Char} {t : Instant}
    (h : dateAndTime between cs = some (t, rest)) : t.Proper := by
  simp only [dateAndTime, bind_eq_some_iff] at h
  obtain ⟨_, _, -, _, _, -, _, _, -, _, _, -, _, _, -, _, _, -, _, _, -, nanos, _, hnanos, hfields⟩ := h
  exact proper_of_ofFields? (lt_of_fraction hnanos) (liftM_eq_some_iff.1 hfields).1

theorem proper_of_dateOnly {cs rest : List Char} {t : Instant} (h : dateOnly cs = some (t, rest)) :
    t.Proper := by
  simp only [dateOnly, bind_eq_some_iff] at h
  obtain ⟨_, _, -, hfields⟩ := h
  obtain ⟨hdate, c, hc, rfl⟩ := ofFields?_eq_some_iff.1 (liftM_eq_some_iff.1 hfields).1
  cases hc
  exact proper_ofCivil hdate ⟨by decide, by decide, by decide, .inl (by decide)⟩

/-- An offset is less than a day. -/
theorem offset_bounds {cs rest : List Char} {minutes : Int} (h : offset cs = some (minutes, rest)) :
    -1440 < minutes ∧ minutes < 1440 := by
  simp only [offset] at h
  split at h
  case h_1 | h_2 =>
    cases h
    decide
  case h_6 => cases h
  all_goals
    simp only [bind_eq_some_iff] at h
    obtain ⟨hours, _, -, _, _, -, minutes', _, -, hsome⟩ := h
    split at hsome
    case isTrue hbounds =>
      simp only [pure_apply, Option.some.injEq, Prod.mk.injEq] at hsome
      obtain ⟨rfl, -⟩ := hsome
      simp only [if_true, Bool.false_eq_true, if_false]
      omega
    case isFalse => cases hsome

/-- RFC 3339 has years of four digits only, so that no offset leads out of the calendar. -/
theorem proper_of_rfc3339 {cs rest : List Char} {t : Instant} (h : rfc3339 cs = some (t, rest)) :
    t.Proper := by
  simp only [rfc3339, bind_eq_some_iff] at h
  obtain ⟨year, _, hyear, _, _, -, month, _, -, _, _, -, day, _, -, _, _, -, hour, _, -, _, _, -, minute,
    _, -, _, _, -, second, _, -, nanos, _, hnanos, minutes, _, hminutes, u, _, hfields, ht⟩ := h
  cases ht
  obtain ⟨hdate, c, hc, rfl⟩ := ofFields?_eq_some_iff.1 (liftM_eq_some_iff.1 hfields).1
  obtain ⟨hhour, hminute, hsecond, hproper⟩ := proper_of_clock? (lt_of_fraction hnanos) hc
  obtain ⟨hoffset, hoffset'⟩ := offset_bounds hminutes
  have hyear' : year < 10000 := lt_of_number hyear
  obtain ⟨hlow, hhigh⟩ := Date.toDays_bounds hdate
  dsimp only at hlow hhigh
  have hmono := Date.daysBeforeYear_mono (show (0 : Int) ≤ year by omega)
  have hmono' := Date.daysBeforeYear_mono (show (year : Int) + 1 ≤ 10000 by omega)
  have hfirst : firstSecond < (Date.daysBeforeYear 0 - Date.epochDay - 1) * 86400 := by decide
  have hlast : (Date.daysBeforeYear 10000 - Date.epochDay + 1) * 86400 < lastSecond := by decide
  refine ⟨?_, ?_, ?_⟩ <;> simp only [ofCivil] <;> omega

theorem whole_eq_some_iff {α : Type} {step : Step α} {cs : List Char} {a : α} :
    whole step cs = some a ↔ step cs = some (a, []) := by
  unfold whole
  split <;> simp_all

/-- What is read as an instant is one of the calendar. -/
theorem proper_of_read? {text : String} {t : Instant} (h : read? text = some t) : t.Proper := by
  have hor : ∀ {a b : Option Instant}, (a <|> b) = some t → a = some t ∨ b = some t := by
    intro a b hab
    cases a with
    | none => exact .inr hab
    | some a => exact .inl hab
  rcases hor h with h | h
  · exact proper_of_rfc3339 (whole_eq_some_iff.1 h)
  rcases hor h with h | h
  · exact proper_of_dateAndTime (whole_eq_some_iff.1 h)
  rcases hor h with h | h
  · exact proper_of_dateAndTime (whole_eq_some_iff.1 h)
  rcases hor h with h | h
  · exact proper_of_dateOnly (whole_eq_some_iff.1 h)
  · obtain ⟨ms, -, hms⟩ := Option.bind_eq_some_iff.1 h
    exact proper_of_ofMillis? hms

end Instant

end SeriesPivot
