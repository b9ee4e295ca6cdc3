/-! # Ends of a text

`stripStart?` and `stripEnd?` take a known beginning or ending off a text, `find?` and `findLast?` give
the place of a part in it, `contains` only whether there is one, and `splitAt` cuts a text at every
occurrence of one character.  The lemmas say when there is something to take off, and what stands at a
place that was found.
-/

namespace PipelineParams.Text

/-- What is behind the beginning `start`, if the text has it. -/
def stripStart? : List Char → List Char → Option (List Char)
  | [], cs => some cs
  | _ :: _, [] => none
  | s :: ss, c :: cs => if s = c then stripStart? ss cs else none

/-- What is before the ending `last`, if the text has it. -/
def stripEnd? (last cs : List Char) : Option (List Char) :=
  (stripStart? last.reverse cs.reverse).map List.reverse

/-- A beginning can be taken off exactly the texts that start with it. -/
theorem stripStart?_eq_some_iff {start cs rest : List Char} :
    stripStart? start cs = some rest ↔ cs = start ++ rest := by
  induction start generalizing cs with
  | nil => simp [stripStart?, eq_comm]
  | cons s ss ih =>
    cases cs with
    | nil => simp [stripStart?]
    | cons c cs =>
      rw [stripStart?]
      split
      next same => simp [same, ih]
      next other => simp [Ne.symm other]

/-- An ending can be taken off exactly the texts that end with it. -/
theorem stripEnd?_eq_some_iff {last cs rest : List Char} :
    stripEnd? last cs = some rest ↔ cs = rest ++ last := by
  simp only [stripEnd?, Option.map_eq_some_iff, stripStart?_eq_some_iff]
  constructor
  · rintro ⟨r, hr, rfl⟩
    have := congrArg List.reverse hr
    simpa using this
  · rintro rfl
    exact ⟨rest.reverse, by simp, by simp⟩

/-- The position at which `part` occurs first. -/
def find? (part : List Char) : List Char → Option Nat
  | [] => if part = [] then some 0 else none
  | c :: cs => if part <+: c :: cs then some 0 else (find? part cs).map (· + 1)

/-- The position at which `part` occurs last. -/
def findLast? (part : List Char) : List Char → Option Nat
  | [] => if part = [] then some 0 else none
  | c :: cs =>
    match findLast? part cs with
    | some n => some (n + 1)
    | none => if part <+: c :: cs then some 0 else none

section

variable {part cs : List Char} {n : Nat}

theorem exists_split_of_prefix_drop (nonempty : part ≠ []) (stands : part <+: cs.drop n) :
    ∃ before after, cs = before ++ (part ++ after) ∧ before.length = n := by
  obtain ⟨after, behind⟩ := stands
  refine ⟨cs.take n, after, by rw [behind, List.take_append_drop], List.length_take_of_le ?_⟩
  apply Nat.le_of_not_le
  intro outside
  rw [List.drop_of_length_le outside] at behind
  exact nonempty (List.append_eq_nil_iff.1 behind).1

theorem prefix_of_find? (found : find? part cs = some n) : part <+: cs.drop n := by
  induction cs generalizing n with
  | nil =>
    rw [find?] at found
    split at found
    next empty => exact empty ▸ List.nil_prefix
    next => cases found
  | cons c cs ih =>
    rw [find?] at found
    split at found
    next here =>
      cases found
      exact here
    next =>
      obtain ⟨m, behind, rfl⟩ := Option.map_eq_some_iff.1 found
      exact ih behind

theorem not_prefix_of_lt_find? (found : find? part cs = some n) :
    ∀ m < n, ¬ part <+: cs.drop m := by
  induction cs generalizing n with
  | nil =>
    rw [find?] at found
    split at found
    · cases found
      exact fun m before => absurd before (Nat.not_lt_zero m)
    · cases found
  | cons c cs ih =>
    rw [find?] at found
    split at found
    next =>
      cases found
      exact fun m before => absurd before (Nat.not_lt_zero m)
    next other =>
      obtain ⟨k, behind, rfl⟩ := Option.map_eq_some_iff.1 found
      intro m before
      cases m with
      | zero => exact other
      | succ m => exact ih behind m (Nat.lt_of_succ_lt_succ before)

theorem find?_eq_none_iff : find? part cs = none ↔ ¬ part <:+: cs := by
  induction cs with
  | nil => simp [find?]
  | cons c cs ih =>
    rw [find?, List.infix_cons_iff]
    split
    next here => simp [here]
    next other => simp [other, ih]

theorem prefix_of_findLast? (found : findLast? part cs = some n) : part <+: cs.drop n := by
  induction cs generalizing n with
  | nil =>
    rw [findLast?] at found
    split at found
    next empty => exact empty ▸ List.nil_prefix
    next => cases found
  | cons c cs ih =>
    rw [findLast?] at found
    split at found
    next m behind =>
      cases found
      exact ih behind
    next =>
      split at found
      next here =>
        cases found
        exact here
      next => cases found

theorem findLast?_eq_none_iff : findLast? part cs = none ↔ ¬ part <:+: cs := by
  induction cs with
  | nil => simp [findLast?]
  | cons c cs ih =>
    rw [findLast?, List.infix_cons_iff]
    split
    next n behind =>
      have inside : part <:+: cs := Decidable.byContradiction fun absent => by
        cases behind.symm.trans (ih.2 absent)
      simp [inside]
    next nowhere => simp [ih.1 nowhere]

end

def contains (part cs : List Char) : Bool := (find? part cs).isSome

/-- The parts between the occurrences of `sep`; `part` holds the characters of the first part read so
far, the last one first. -/
def splitFrom (sep : Char) (part : List Char) : List Char → List (List Char)
  | [] => [part.reverse]
  | c :: cs => if c = sep then part.reverse :: splitFrom sep [] cs else splitFrom sep (c :: part) cs

/-- The parts of a text between the occurrences of `sep`; there is one more part than occurrences. -/
def splitAt (sep : Char) (cs : List Char) : List (List Char) := splitFrom sep [] cs

end PipelineParams.Text
