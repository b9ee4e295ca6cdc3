import PipelineParams.Proofs.Document.RoundTrip

/-! # Contexts that are built step by step

A context is built by single insertions, by laying other contexts over it, some of them read from
documents, and by starting again.  `last_write_wins` says what is found in it after any number of such
steps: under each key of each map what the last step gave that gave anything, as far as the last reset.

* `Step` is one way to change a context, `run` the context after a list of them.
* `Step.given?` is what a step gives to a key.  It speaks of the step alone, not of the context.
* `get?_apply` is what one step does to a lookup: what the step gives lies over what was there.
* `get?_run_eq_some_iff`, `get?_run_eq_none_iff` are the same for runs, by induction on the last step.

The three maps have values of three types.  A `Slot` stands for any of them, so there is one lemma for
all three.
-/

namespace PipelineParams.ReplacementContext

/-! ## Steps -/

inductive Step where
  | withString (key value : String)
  | withArray (key : String) (items : List String)
  /-- A field that is given twice has its last value. -/
  | withObject (key : String) (fields : List (String × String))
  | merge (other : ReplacementContext)
  /-- Reads a context from a document and lays it on top, if it can be read. -/
  | mergeJson (payload : String)
  | reset

def Step.apply (c : ReplacementContext) : Step → ReplacementContext
  | .withString key value => c.withString key value
  | .withArray key items => c.withArray key items
  | .withObject key fields => c.withObject key (.ofList fields)
  | .merge other => c.merge other
  | .mergeJson payload =>
    match Json.read reader payload with
    | .ok other => c.merge other
    | .error _ => c
  | .reset => empty

def run (steps : List Step) : ReplacementContext := steps.foldl Step.apply empty

/-! ## What one step does -/

inductive Slot where
  | strings
  | arrays
  | objects

abbrev Slot.Value : Slot → Type
  | .strings => String
  | .arrays => List String
  | .objects => SortedMap String

def Slot.of : (slot : Slot) → ReplacementContext → SortedMap slot.Value
  | .strings, c => c.strings
  | .arrays, c => c.arrays
  | .objects, c => c.objects

namespace Step

/-- What a step gives to a key of a map.  A document that cannot be read gives nothing. -/
def given? : Step → (slot : Slot) → String → Option slot.Value
  | .withString key value, .strings, j => if j = key then some value else none
  | .withArray key items, .arrays, j => if j = key then some items else none
  | .withObject key fields, .objects, j => if j = key then some (.ofList fields) else none
  | .merge other, slot, j => (slot.of other).get? j
  | .mergeJson payload, slot, j =>
    match Json.read reader payload with
    | .ok other => (slot.of other).get? j
    | .error _ => none
  | _, _, _ => none

def slot? : Step → Option Slot
  | .withString _ _ => some .strings
  | .withArray _ _ => some .arrays
  | .withObject _ _ => some .objects
  | _ => none

end Step

theorem Slot.get?_merge (c d : ReplacementContext) (slot : Slot) (key : String) :
    (slot.of (c.merge d)).get? key = ((slot.of d).get? key).or ((slot.of c).get? key) := by
  cases slot with
  | strings => exact SortedMap.get?_merge c.strings d.strings key
  | arrays => exact SortedMap.get?_merge c.arrays d.arrays key
  | objects => exact SortedMap.get?_merge c.objects d.objects key

theorem Slot.get?_empty (slot : Slot) (key : String) : (slot.of empty).get? key = none := by
  cases slot <;> rfl

theorem get?_apply (c : ReplacementContext) {step : Step} (notReset : step ≠ .reset) (slot : Slot)
    (key : String) :
    (slot.of (step.apply c)).get? key = (step.given? slot key).or ((slot.of c).get? key) := by
  cases step with
  | withString j value =>
    cases slot with
    | strings => exact c.strings.get?_insert_eq_or j key value
    | arrays => rfl
    | objects => rfl
  | withArray j items =>
    cases slot with
    | strings => rfl
    | arrays => exact c.arrays.get?_insert_eq_or j key items
    | objects => rfl
  | withObject j fields =>
    cases slot with
    | strings => rfl
    | arrays => rfl
    | objects => exact c.objects.get?_insert_eq_or j key (.ofList fields)
  | merge other => exact Slot.get?_merge c other slot key
  | mergeJson payload =>
    rw [Step.apply, Step.given?]
    split
    next other _ => exact Slot.get?_merge c other slot key
    next => rfl
  | reset => exact absurd rfl notReset

/-- A map to which a step gives nothing stays as it is. -/
theorem of_apply_of_silent (c : ReplacementContext) {step : Step} (notReset : step ≠ .reset)
    {slot : Slot} (silent : ∀ key, step.given? slot key = none) :
    slot.of (step.apply c) = slot.of c := by
  apply SortedMap.ext_get?
  intro key
  rw [get?_apply c notReset, silent, Option.none_or]

theorem given?_of_slot? {step : Step} {slot other : Slot} (on : step.slot? = some slot)
    (apart : other ≠ slot) (key : String) : step.given? other key = none := by
  cases step with
  | withString => cases on; cases other <;> first | rfl | exact absurd rfl apart
  | withArray => cases on; cases other <;> first | rfl | exact absurd rfl apart
  | withObject => cases on; cases other <;> first | rfl | exact absurd rfl apart
  | merge => cases on
  | mergeJson => cases on
  | reset => cases on

/-! ## What a run does -/

def SinceReset (steps : List Step) (step : Step) : Prop :=
  ∃ before after, steps = before ++ step :: after ∧ .reset ∉ step :: after

/-- The value is what the last step gave to a key of a map that gave anything to it since the last
reset. -/
def LastGiven (steps : List Step) (slot : Slot) (key : String) (value : slot.Value) : Prop :=
  ∃ before step after, steps = before ++ step :: after ∧ .reset ∉ step :: after ∧
    step.given? slot key = some value ∧ ∀ later ∈ after, later.given? slot key = none

section

variable {steps before after : List Step} {step last : Step} {slot : Slot} {key : String}

theorem run_concat (steps : List Step) (last : Step) :
    run (steps ++ [last]) = last.apply (run steps) := by
  rw [run, List.foldl_append]
  rfl

/-- The last step of a run is the one that is looked for, or it comes behind that one. -/
theorem concat_eq_iff :
    steps ++ [last] = before ++ step :: after ↔
      (steps = before ∧ last = step ∧ after = []) ∨
        ∃ between, after = between ++ [last] ∧ steps = before ++ step :: between := by
  constructor
  · intro same
    rcases List.eq_nil_or_concat' after with rfl | ⟨between, final, rfl⟩
    · obtain ⟨rfl, rfl⟩ := List.append_singleton_inj.1 same
      exact .inl ⟨rfl, rfl, rfl⟩
    · rw [← List.cons_append, ← List.append_assoc] at same
      obtain ⟨rfl, rfl⟩ := List.append_singleton_inj.1 same
      exact .inr ⟨between, rfl, rfl⟩
  · rintro (⟨rfl, rfl, rfl⟩ | ⟨between, rfl, rfl⟩)
    · rfl
    · rw [List.append_assoc, List.cons_append]

theorem reset_not_mem_concat :
    .reset ∉ step :: (after ++ [last]) ↔ last ≠ .reset ∧ .reset ∉ step :: after := by
  rw [← List.cons_append, List.mem_append, List.mem_singleton, not_or, and_comm, ne_comm]

theorem not_sinceReset_nil : ¬ SinceReset [] step := by
  rintro ⟨before, after, split, -⟩
  exact List.append_ne_nil_of_right_ne_nil before (List.cons_ne_nil step after) split.symm

theorem sinceReset_concat_iff :
    SinceReset (steps ++ [last]) step ↔ last ≠ .reset ∧ (step = last ∨ SinceReset steps step) := by
  constructor
  · rintro ⟨before, after, split, noReset⟩
    rcases concat_eq_iff.1 split with ⟨-, rfl, rfl⟩ | ⟨between, rfl, rfl⟩
    · rw [List.mem_singleton] at noReset
      exact ⟨Ne.symm noReset, .inl rfl⟩
    · obtain ⟨notReset, noReset⟩ := reset_not_mem_concat.1 noReset
      exact ⟨notReset, .inr ⟨before, between, rfl, noReset⟩⟩
  · rintro ⟨notReset, rfl | ⟨before, after, rfl, noReset⟩⟩
    · exact ⟨steps, [], rfl, by simpa using Ne.symm notReset⟩
    · exact ⟨before, after ++ [last], concat_eq_iff.2 (.inr ⟨after, rfl, rfl⟩),
        reset_not_mem_concat.2 ⟨notReset, noReset⟩⟩

theorem lastGiven_concat_iff {value : slot.Value} :
    LastGiven (steps ++ [last]) slot key value ↔ last ≠ .reset ∧
      (last.given? slot key = some value ∨
        last.given? slot key = none ∧ LastGiven steps slot key value) := by
  constructor
  · rintro ⟨before, step, after, split, noReset, given, silent⟩
    rcases concat_eq_iff.1 split with ⟨-, rfl, rfl⟩ | ⟨between, rfl, rfl⟩
    · rw [List.mem_singleton] at noReset
      exact ⟨Ne.symm noReset, .inl given⟩
    · obtain ⟨notReset, noReset⟩ := reset_not_mem_concat.1 noReset
      have silent' : ∀ later ∈ between, later.given? slot key = none :=
        fun later member => silent later (List.mem_append_left _ member)
      exact ⟨notReset, .inr ⟨silent last List.mem_concat_self,
        before, step, between, rfl, noReset, given, silent'⟩⟩
  · rintro ⟨notReset, given | ⟨silent, before, step, after, rfl, noReset, given, silent'⟩⟩
    · exact ⟨steps, last, [], rfl, by simpa using Ne.symm notReset, given, by simp⟩
    · refine ⟨before, step, after ++ [last], concat_eq_iff.2 (.inr ⟨after, rfl, rfl⟩),
        reset_not_mem_concat.2 ⟨notReset, noReset⟩, given, fun later member => ?_⟩
      rcases List.mem_append.1 member with member | member
      · exact silent' later member
      · rw [List.mem_singleton.1 member, silent]

theorem get?_run_eq_some_iff {value : slot.Value} :
    (slot.of (run steps)).get? key = some value ↔ LastGiven steps slot key value := by
  induction steps using List.reverseRecOn with
  | nil =>
    constructor
    · intro found
      cases (Slot.get?_empty slot key).symm.trans found
    · rintro ⟨before, step, after, split, noReset, -⟩
      exact absurd ⟨before, after, split, noReset⟩ not_sinceReset_nil
  | append_singleton steps last ih =>
    rw [run_concat, lastGiven_concat_iff, ← ih]
    by_cases reset : last = .reset
    · -- a reset takes everything away, and nothing has been given behind it yet
      subst reset
      constructor
      · intro found
        cases (Slot.get?_empty slot key).symm.trans found
      · rintro ⟨notReset, -⟩
        exact absurd rfl notReset
    · rw [get?_apply _ reset, Option.or_eq_some_iff, and_iff_right reset]

theorem get?_run_eq_none_iff :
    (slot.of (run steps)).get? key = none ↔
      ∀ step, SinceReset steps step → step.given? slot key = none := by
  induction steps using List.reverseRecOn with
  | nil =>
    constructor
    · intro _ step since
      exact absurd since not_sinceReset_nil
    · intro _
      exact Slot.get?_empty slot key
  | append_singleton steps last ih =>
    rw [run_concat]
    simp only [sinceReset_concat_iff]
    by_cases reset : last = .reset
    · subst reset
      constructor
      · rintro _ step ⟨notReset, -⟩
        exact absurd rfl notReset
      · intro _
        exact Slot.get?_empty slot key
    · rw [get?_apply _ reset, Option.or_eq_none_iff, ih]
      constructor
      · rintro ⟨silent, silent'⟩ step ⟨-, rfl | since⟩
        · exact silent
        · exact silent' step since
      · intro silent
        exact ⟨silent last ⟨reset, .inl rfl⟩, fun step since => silent step ⟨reset, .inr since⟩⟩

end

/-! ## Contexts by their lookups -/

theorem ext_of {c d : ReplacementContext} (same : ∀ slot : Slot, slot.of c = slot.of d) : c = d := by
  cases c
  cases d
  congr 1
  · exact same .strings
  · exact same .arrays
  · exact same .objects

theorem isEmpty_iff_get? {c : ReplacementContext} :
    c.isEmpty = true ↔ ∀ (slot : Slot) key, (slot.of c).get? key = none := by
  rw [isEmpty, Bool.and_eq_true, Bool.and_eq_true, SortedMap.isEmpty_iff_get?,
    SortedMap.isEmpty_iff_get?, SortedMap.isEmpty_iff_get?]
  constructor
  · rintro ⟨⟨strings, arrays⟩, objects⟩ (_ | _ | _)
    · exact strings
    · exact arrays
    · exact objects
  · intro absent
    exact ⟨⟨absent .strings, absent .arrays⟩, absent .objects⟩

/-- A context can be told from either text that is written for it. -/
theorem eq_of_toJson {c d : ReplacementContext}
    (same : c.toJson.compact = d.toJson.compact ∨ c.toJson.pretty = d.toJson.pretty) : c = d := by
  obtain ⟨compact, pretty⟩ := read_of_forms (a := c) accepts_form
  obtain ⟨compact', pretty'⟩ := read_of_forms (a := d) accepts_form
  rcases same with same | same
  · rw [same, compact'] at compact
    exact (Except.ok.inj compact).symm
  · rw [same, pretty'] at pretty
    exact (Except.ok.inj pretty).symm

theorem run_eq_iff {steps steps' : List Step} :
    run steps = run steps' ↔ ∀ (slot : Slot) key value,
      LastGiven steps slot key value ↔ LastGiven steps' slot key value := by
  constructor
  · intro same slot key value
    rw [← get?_run_eq_some_iff, ← get?_run_eq_some_iff, same]
  · intro same
    refine ext_of fun slot => SortedMap.ext_get? fun key => Option.ext fun value => ?_
    rw [get?_run_eq_some_iff, get?_run_eq_some_iff, same]

/-- After any steps a key has what was given to it last since the last reset, and nothing if nothing
was given to it.  The context is empty exactly if nothing was given at all.  A step on one map leaves
the others alone, and a document that cannot be read changes nothing.  Two runs end in the same context
exactly if they gave the same last, and then, and only then, the same is written for both. -/
theorem last_write_wins :
    (∀ steps (slot : Slot) key,
      (∀ value, (slot.of (run steps)).get? key = some value ↔ LastGiven steps slot key value) ∧
      ((slot.of (run steps)).get? key = none ↔
        ∀ step, SinceReset steps step → step.given? slot key = none)) ∧
    (∀ steps, (run steps).isEmpty = true ↔
      ∀ step, SinceReset steps step → ∀ slot key, step.given? slot key = none) ∧
    (∀ c (step : Step) (slot other : Slot), step.slot? = some slot → other ≠ slot →
      other.of (step.apply c) = other.of c) ∧
    (∀ c payload fault, Json.read reader payload = .error fault →
      Step.apply c (.mergeJson payload) = c) ∧
    ∀ steps steps',
      ((∀ (slot : Slot) key value,
        LastGiven steps slot key value ↔ LastGiven steps' slot key value) ↔
          run steps = run steps') ∧
      (run steps = run steps' ↔ (run steps).toJson.compact = (run steps').toJson.compact) ∧
      (run steps = run steps' ↔ (run steps).toJson.pretty = (run steps').toJson.pretty) := by
  refine ⟨fun steps slot key => ⟨fun value => get?_run_eq_some_iff, get?_run_eq_none_iff⟩,
    fun steps => ?_, fun c step slot other on apart => ?_, fun c payload fault failed => ?_,
    fun steps steps' => ⟨run_eq_iff.symm, ?_, ?_⟩⟩
  · rw [isEmpty_iff_get?]
    simp only [get?_run_eq_none_iff]
    constructor
    · intro silent step since slot key
      exact silent slot key step since
    · intro silent slot key step since
      exact silent step since slot key
  · have notReset : step ≠ .reset := by
      rintro rfl
      cases on
    exact of_apply_of_silent c notReset (given?_of_slot? on apart)
  · rw [Step.apply, failed]
  · exact ⟨fun same => by rw [same], fun same => eq_of_toJson (.inl same)⟩
  · exact ⟨fun same => by rw [same], fun same => eq_of_toJson (.inr same)⟩

/-- The text of `a` is given three times, the last time by a document.  An empty document and an array
for `a` come behind it and leave it as it is. -/
theorem last_write_wins_mixed :
    let document := (empty.withString "a" "3").toJson.compact
    let steps : List Step :=
      [.withString "b" "0", .reset, .withString "a" "1", .merge (empty.withString "a" "2"),
        .mergeJson document, .mergeJson "", .withArray "a" ["4"]]
    (LastGiven steps .strings "a" "3" ∧ (run steps).strings.get? "a" = some "3") ∧
      (LastGiven steps .arrays "a" ["4"] ∧ (run steps).arrays.get? "a" = some ["4"]) ∧
      (Json.read reader "" = .error .endInValue ∧ ∀ c, Step.apply c (.mergeJson "") = c) ∧
      ((Step.withArray "a" ["4"]).slot? = some .arrays ∧ Slot.strings ≠ .arrays ∧
        ∀ c, (Step.apply c (.withArray "a" ["4"])).strings = c.strings) := by
  intro document steps
  obtain ⟨found, -, apart, failed, -⟩ := last_write_wins
  have read : Json.read reader document = .ok (empty.withString "a" "3") :=
    (read_of_forms accepts_form).1
  have unread : Json.read reader "" = .error .endInValue := rfl
  have given : (Step.mergeJson document).given? .strings "a" = some "3" := by
    rw [Step.given?, read]
    rfl
  have text : LastGiven steps .strings "a" "3" := by
    refine ⟨steps.take 4, _, steps.drop 5, rfl, by simp [steps], given, ?_⟩
    simp [steps, Step.given?, unread]
  have array : LastGiven steps .arrays "a" ["4"] :=
    ⟨steps.take 6, _, [], rfl, by simp, rfl, by simp⟩
  exact ⟨⟨text, ((found steps .strings "a").1 "3").2 text⟩,
    ⟨array, ((found steps .arrays "a").1 ["4"]).2 array⟩,
    ⟨unread, fun c => failed c "" .endInValue unread⟩,
    rfl, nofun, fun c => apart c (.withArray "a" ["4"]) .arrays .strings rfl nofun⟩

end PipelineParams.ReplacementContext
