import SeriesPivot.Descriptor.Codec
import SeriesPivot.Proofs.Json.Ordered

/-!
# Descriptors as they are read

Many values stand for one descriptor: names in any case and with synonyms, operators with or without a
dollar sign, absent fields and `null`. What is read is in a normal form, with one way of writing each of
them.

* `QueryDescriptor.Normal`, with `Normal` for the parts of a query, is that form: the name of a token is
  read as the token again, values list the fields of objects by increasing names, there is no value `null`
  where `null` stands for none, and a number of items fits into 64 bits.
* `QueryDescriptor.normal_of_decode`: whatever a query is read from, it is normal.
-/

namespace SeriesPivot

open Json.Decode (KeepsOn Hereditary Makes hereditary_true makes_true makes_natBelow makes_json
  makes_optional_json)

/-! ### Tokens -/

/-- An aggregation that is read from its name. -/
def Aggregation.Normal (a : Aggregation) : Prop :=
  ofName a.name = a

/-- An interval that is read from its token. -/
def Interval.Normal (i : Interval) : Prop :=
  ofToken i.token = i

/-- A type that is read from its name. -/
def DimensionType.Normal (t : DimensionType) : Prop :=
  ofName t.name = t

section Tokens

variable {τ : Type} {read : String → τ} {write : τ → String}

/-- In a table of named tokens every other name stands for itself. Reading what a token is written as gives
the token again. -/
theorem read_write_read (other : String → τ) (named : List τ) (hnamed : ∀ t ∈ named, read (write t) = t)
    (hother : ∀ s, write (other s) = s) {s : String} (hs : read s = other s ∨ read s ∈ named) :
    read (write (read s)) = read s := by
  rcases hs with h | h
  · rw [h, hother, h]
  · exact hnamed _ h

end Tokens

theorem Aggregation.normal_ofName (s : String) : (ofName s).Normal := by
  refine read_write_read other [sum, mean, count, distinct, min, max, first, last, median] (by decide)
    (fun _ => rfl) ?_
  unfold ofName
  dsimp only
  split_ifs <;> simp

theorem Interval.normal_ofToken (s : String) : (ofToken s).Normal := by
  refine read_write_read raw [second, minute, hour, day, week] (by decide) (fun _ => rfl) ?_
  unfold ofToken
  split_ifs <;> simp

theorem DimensionType.normal_ofName (s : String) : (ofName s).Normal := by
  refine read_write_read unknown [date, ip, number, string, geo] (by decide) (fun _ => rfl) ?_
  unfold ofName
  split_ifs <;> simp

/-! ### Parts of a query -/

namespace Filter

/-- A filter that is written so that it is read again. -/
def Normal (f : Filter) : Prop :=
  f.value.Ordered

/-- The value of a filter is one of the items that the filter is read from. -/
theorem keepsOn_decode {S : Json.Source → Prop} (hS : Hereditary S) {P : Json → Prop}
    (hP : KeepsOn S Json.Decode.json P) : KeepsOn S decode fun f => P f.value := by
  intro s hs f h
  unfold decode at h
  split at h
  · cases h
  · obtain ⟨field, -, h⟩ := bind_eq_ok_iff.1 h
    split at h
    · cases h
    · obtain ⟨operator, -, h⟩ := bind_eq_ok_iff.1 h
      split at h
      · cases h
      · obtain ⟨value, hvalue, h⟩ := bind_eq_ok_iff.1 h
        split_ifs at h
        cases h
        exact hP _ (hS.items hs _ (by simp)) value hvalue
  · cases h
  · cases h

end Filter

/-- A dimension that is written so that it is read again. -/
def Dimension.Normal (d : Dimension) : Prop :=
  d.datatype.Normal

/-- A metric that is written so that it is read again. -/
structure Metric.Normal (m : Metric) : Prop where
  aggregation : ∀ a ∈ m.aggregation, a.Normal
  filter : ∀ f ∈ m.filter, f.Normal
  formula : ∀ j ∈ m.formula, j.Present
  isPlaceholder : m.isPlaceholder = false

/-- A timeframe that is written so that it is read again. -/
def Timeframe.Normal : Timeframe → Prop
  | .lastItems count => count < UInt64.size
  | .range start stop => (∀ j ∈ start, j.Present) ∧ ∀ j ∈ stop, j.Present

/-- A query that is written so that it is read again. -/
structure QueryDescriptor.Normal (q : QueryDescriptor) : Prop where
  dimensions : ∀ d ∈ q.dimensions, d.Normal
  metrics : ∀ m ∈ q.metrics, m.Normal
  filter : ∀ f ∈ q.filter, f.Normal
  timeframe : ∀ t ∈ q.timeframe, t.Normal
  interval : ∀ i ∈ q.interval, i.Normal

/-! ### What is read is normal -/

theorem Filter.makes_decode : Makes decode Normal :=
  keepsOn_decode hereditary_true makes_json

theorem Dimension.makes_decode : Makes decode Normal := by
  refine KeepsOn.record hereditary_true (DimensionType.normal_ofName "") ?_
  simp only [List.forall_mem_cons]
  refine ⟨fun d hd => ?_, fun d _ => ?_, fun d hd => ?_, fun d hd => ?_, by simp⟩
  · exact (makes_true _).map fun _ _ => hd
  · exact (makes_true _).map fun s _ => DimensionType.normal_ofName s
  · exact (makes_true _).map fun _ _ => hd
  · exact (makes_true _).map fun _ _ => hd

theorem Metric.makes_decode : Makes decode Normal := by
  refine KeepsOn.record hereditary_true ⟨by simp [named], by simp [named], by simp [named], rfl⟩ ?_
  simp only [List.forall_mem_cons]
  refine ⟨fun m hm => ?_, fun m hm => ?_, fun m hm => ?_, fun m hm => ?_, fun m hm => ?_,
    fun m hm => ?_, by simp⟩
  · exact (makes_true _).map fun _ _ => ⟨hm.1, hm.2, hm.3, hm.4⟩
  · refine (makes_true _).map fun o _ => ⟨?_, hm.2, hm.3, hm.4⟩
    simpa using fun s _ => Aggregation.normal_ofName s
  · exact (makes_true _).map fun _ _ => ⟨hm.1, hm.2, hm.3, hm.4⟩
  · exact (makes_true _).map fun _ _ => ⟨hm.1, hm.2, hm.3, hm.4⟩
  · exact (Filter.makes_decode.listOf hereditary_true).map fun _ h => ⟨hm.1, h, hm.3, hm.4⟩
  · exact makes_optional_json.map fun _ h => ⟨hm.1, hm.2, h, hm.4⟩

namespace Timeframe

theorem present_of_decodeBound {bound : Option Json.Source} {o : Option Json}
    (h : decodeBound bound = .ok o) : ∀ j ∈ o, j.Present := by
  cases bound with
  | none =>
    cases h
    simp
  | some s => exact makes_optional_json s trivial o h

theorem makes_decode : Makes decode Normal := by
  intro s _ t h
  obtain ⟨-, -, h⟩ := bind_eq_ok_iff.1 h
  split at h
  · rename_i members
    split at h
    · rename_i u hu
      cases h
      obtain ⟨found, -, hu⟩ := bind_eq_ok_iff.1 hu
      cases found with
      | none => cases hu
      | some s =>
        obtain ⟨n, hn, hu⟩ := bind_eq_ok_iff.1 hu
        cases hu
        exact makes_natBelow _ s trivial n hn
    · obtain ⟨start, -, h⟩ := bind_eq_ok_iff.1 h
      obtain ⟨stop, -, h⟩ := bind_eq_ok_iff.1 h
      obtain ⟨first, hfirst, h⟩ := bind_eq_ok_iff.1 h
      obtain ⟨last, hlast, h⟩ := bind_eq_ok_iff.1 h
      cases h
      exact ⟨present_of_decodeBound hfirst, present_of_decodeBound hlast⟩
  · cases h

end Timeframe

theorem QueryDescriptor.makes_decode : Makes decode Normal := by
  refine KeepsOn.record hereditary_true
    ⟨by simp [empty], by simp [empty], by simp [empty], by simp [empty], by simp [empty]⟩ ?_
  simp only [List.forall_mem_cons]
  refine ⟨fun q hq => ?_, fun q hq => ?_, fun q hq => ?_, fun q hq => ?_, fun q hq => ?_,
    fun q hq => ?_, by simp⟩
  · exact (Dimension.makes_decode.listOf hereditary_true).map
      fun _ h => ⟨h, hq.2, hq.3, hq.4, hq.5⟩
  · exact (Metric.makes_decode.listOf hereditary_true).map
      fun _ h => ⟨hq.1, h, hq.3, hq.4, hq.5⟩
  · exact (Filter.makes_decode.listOf hereditary_true).map
      fun _ h => ⟨hq.1, hq.2, h, hq.4, hq.5⟩
  · exact Timeframe.makes_decode.optional.map fun _ h => ⟨hq.1, hq.2, hq.3, h, hq.5⟩
  · refine (makes_true _).map fun o _ => ⟨hq.1, hq.2, hq.3, hq.4, ?_⟩
    simpa using fun s _ => Interval.normal_ofToken s
  · exact (makes_true _).map fun _ _ => ⟨hq.1, hq.2, hq.3, hq.4, hq.5⟩

/-- Whatever a query is read from, it is normal. -/
theorem QueryDescriptor.normal_of_decode {s : Json.Source} {q : QueryDescriptor} (h : decode s = .ok q) :
    q.Normal :=
  makes_decode s trivial q h

end SeriesPivot
