import SeriesPivot.Text.Basic

/-!
# Taking a text apart from the front

What a reader takes off the front of a text, when what follows is known.

* `stripStart?_append`: a text that begins with `start` is what follows it.
* `Stops p r`: no run of characters of `p` goes on into `r`. Such a run in front of `r` is taken off as
  a whole (`takeWhile_append_of_stops`, `dropWhile_append_of_stops`).
* `trim_of_stops`: a text without blanks at its ends is not trimmed, let alone one without blanks
  (`trim_of_forall`).
-/

namespace SeriesPivot.Text

@[simp] theorem stripStart?_append (start cs : List Char) :
    stripStart? start (start ++ cs) = some cs := by
  induction start with
  | nil => rfl
  | cons c start ih => simp [stripStart?, ih]

/-- A text that goes on begins as before. -/
theorem startsWith_append {start cs : List Char} (h : startsWith start cs = true) (r : List Char) :
    startsWith start (cs ++ r) = true := by
  induction start generalizing cs with
  | nil => rfl
  | cons p start ih =>
    cases cs with
    | nil => cases h
    | cons c cs =>
      simp only [startsWith, stripStart?, List.cons_append] at h ih ⊢
      split at h
      case isTrue hpc => simpa [hpc] using ih h
      case isFalse => cases h

/-- No run of characters of `p` goes on into this text. -/
def Stops (p : Char → Bool) (r : List Char) : Prop :=
  ∀ c ∈ r.head?, p c = false

@[simp] theorem stops_nil (p : Char → Bool) : Stops p [] := by simp [Stops]

@[simp] theorem stops_cons (p : Char → Bool) (c : Char) (cs : List Char) :
    Stops p (c :: cs) ↔ p c = false := by simp [Stops]

section

variable {p : Char → Bool} {word r : List Char}

theorem takeWhile_append_of_stops (hword : ∀ c ∈ word, p c = true) (hr : Stops p r) :
    (word ++ r).takeWhile p = word := by
  rw [List.takeWhile_append_of_pos hword]
  cases r with
  | nil => simp
  | cons c r => simp [hr c rfl]

theorem dropWhile_append_of_stops (hword : ∀ c ∈ word, p c = true) (hr : Stops p r) :
    (word ++ r).dropWhile p = r := by
  rw [List.dropWhile_append_of_pos hword]
  cases r with
  | nil => simp
  | cons c r => simp [hr c rfl]

end

/-! ### Blanks -/

theorem skipBlanks_of_stops {cs : List Char} (h : Stops isBlank cs) : skipBlanks cs = cs := by
  cases cs with
  | nil => rfl
  | cons c cs =>
    have hc : isBlank c = false := h c rfl
    simp [skipBlanks, hc]

/-- A text without blanks at its ends is not trimmed. -/
theorem trim_of_stops {s : String} (hstart : Stops isBlank s.toList)
    (hstop : Stops isBlank s.toList.reverse) : trim s = s := by
  rw [trim, skipBlanks_of_stops hstart, skipBlanks_of_stops hstop, List.reverse_reverse,
    String.ofList_toList]

theorem trim_of_forall {s : String} (h : ∀ c ∈ s.toList, isBlank c = false) : trim s = s :=
  trim_of_stops (fun c hc => h c (List.mem_of_mem_head? hc)) fun c hc =>
    h c (List.mem_reverse.1 (List.mem_of_mem_head? hc))

end SeriesPivot.Text
