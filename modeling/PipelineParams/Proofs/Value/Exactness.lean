import PipelineParams.Proofs.Value.Classification

/-! # Which texts are which values

`ofRaw_classifies` says for each shape of a value which texts are classified as it, and what happens
to all other texts.  An object is described by its members as they are written
(`Json.MembersOf`), where a key may come more than once, and by the value that each key has in the end
(`LastValues`).

The three shapes exclude each other.  This is not shown from the grammar: each of them determines
what `ofRaw` returns (`ofRaw_of_spelled`), and that is one value.
-/

namespace PipelineParams

variable {α : Type}

/-! ## Members of an object -/

/-- Each key has the value of the last member with this key, and other keys have none. -/
def LastValues (members : List (String × α)) (m : SortedMap α) : Prop :=
  ∀ key value, m.get? key = some value ↔
    ∃ before after, members = before ++ (key, value) :: after ∧ ∀ e ∈ after, e.1 ≠ key

theorem lastValues_iff {members : List (String × α)} {m : SortedMap α} :
    LastValues members m ↔ m = SortedMap.ofList members := by
  constructor
  · intro last
    apply SortedMap.ext_get?
    intro key
    apply Option.ext
    intro value
    exact (last key value).trans SortedMap.get?_ofList_eq_some_iff.symm
  · rintro rfl key value
    exact SortedMap.get?_ofList_eq_some_iff

namespace Json

theorem mapOf_iff {P : List Char → α → Prop} {tok : List Char} {m : SortedMap α} :
    MapOf P tok m ↔ ∃ members, MembersOf P tok members ∧ LastValues members m := by
  simp only [lastValues_iff]
  exact mapOf_iff_ofList

theorem padded_mapOf_iff {P : List Char → α → Prop} {cs : List Char} {m : SortedMap α} :
    Padded (MapOf P) cs m ↔ ∃ members, Padded (MembersOf P) cs members ∧ LastValues members m := by
  constructor
  · rintro ⟨before, tok, after, blank, token, blank', split⟩
    obtain ⟨members, token, last⟩ := mapOf_iff.1 token
    exact ⟨members, ⟨before, tok, after, blank, token, blank', split⟩, last⟩
  · rintro ⟨members, ⟨before, tok, after, blank, token, blank', split⟩, last⟩
    exact ⟨before, tok, after, blank, mapOf_iff.2 ⟨members, token, last⟩, blank', split⟩

end Json

namespace ParamValue

open Json (Padded Literal ListOf MembersOf OrNull)

/-! ## Classification is exact -/

theorem spelled_of_ofRaw_ne_string {raw : String} (notString : ∀ text, ofRaw raw ≠ .string text) :
    Spelled raw.toList (ofRaw raw) := by
  by_cases spelled : ∃ v, Spelled raw.toList v
  · obtain ⟨v, spelled⟩ := spelled
    rw [ofRaw_of_spelled spelled]
    exact spelled
  · exact absurd (ofRaw_of_not_spelled fun v h => spelled ⟨v, h⟩) (notString _)

theorem ofRaw_eq_array_iff {raw : String} {items : List String} :
    ofRaw raw = .array items ↔ Padded (ListOf Literal) raw.toList items := by
  constructor
  · intro classified
    have spelled : Spelled raw.toList (ofRaw raw) :=
      spelled_of_ofRaw_ne_string (by simp [classified])
    rw [classified] at spelled
    cases spelled with
    | array spelled => exact spelled
  · exact ofRaw_of_list

theorem ofRaw_eq_object_iff {raw : String} {fields : SortedMap String} :
    ofRaw raw = .object fields ↔
      ∃ members, Padded (MembersOf Literal) raw.toList members ∧ LastValues members fields := by
  rw [← Json.padded_mapOf_iff]
  constructor
  · intro classified
    have spelled : Spelled raw.toList (ofRaw raw) :=
      spelled_of_ofRaw_ne_string (by simp [classified])
    rw [classified] at spelled
    cases spelled with
    | object spelled => exact spelled
  · exact ofRaw_of_object

theorem ofRaw_of_blank {raw : String} (blank : raw.toList.all Text.isBlank = true) :
    ofRaw raw = .string "" := by
  rw [ofRaw, trimStart_eq_nil_iff.2 blank]

/-- A text is an array exactly if it is a list of string literals, and an object exactly if it is an
object of string literals, in which the last value of a key counts.  A string literal is the text
that it denotes, `null` and blank text are the empty text, and everything else stays as it is. -/
theorem ofRaw_classifies (raw : String) :
    (∀ items, ofRaw raw = .array items ↔ Padded (ListOf Literal) raw.toList items) ∧
    (∀ fields, ofRaw raw = .object fields ↔
      ∃ members, Padded (MembersOf Literal) raw.toList members ∧ LastValues members fields) ∧
    (∀ text, Padded Literal raw.toList text → ofRaw raw = .string text) ∧
    (Padded (OrNull Literal) raw.toList none ∨ raw.toList.all Text.isBlank = true →
      ofRaw raw = .string "") ∧
    ((∀ items, ¬ Padded (ListOf Literal) raw.toList items) →
      (∀ members, ¬ Padded (MembersOf Literal) raw.toList members) →
      (∀ text?, ¬ Padded (OrNull Literal) raw.toList text?) →
      raw.toList.all Text.isBlank = false → ofRaw raw = .string raw) := by
  refine ⟨fun _ => ofRaw_eq_array_iff, fun _ => ofRaw_eq_object_iff, ?_, ?_, ?_⟩
  · intro text literal
    have scalar : Padded (OrNull Literal) raw.toList (some text) := literal
    exact ofRaw_of_scalar scalar
  · rintro (null | blank)
    · exact ofRaw_of_scalar null
    · exact ofRaw_of_blank blank
  · intro noList noObject noScalar solid
    have not : ∀ v, ¬ Spelled raw.toList v := by
      rintro _ (list | object | scalar)
      · exact noList _ list
      · obtain ⟨members, object, -⟩ := Json.padded_mapOf_iff.1 object
        exact noObject members object
      · exact noScalar _ scalar
    rw [ofRaw_of_not_spelled not, solid]
    rfl

/-- A blank that documents do not know is no padding: the text picks the reader of lists by its
bracket, and is then no list. -/
example : ofRaw "\u3000[\"a\"]" = .string "\u3000[\"a\"]" := by decide +kernel

end ParamValue

end PipelineParams
