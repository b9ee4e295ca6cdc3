import PipelineParams.Proofs.Json.WellFormed
import PipelineParams.Value.Codec

/-! # What a raw text is classified as

`Spelled cs v` says that the text `cs` spells the value `v` out: it is a list of strings, an object
of strings, a string or `null`, with white space around it.

* `ofRaw_of_spelled` — a text that spells a value out is classified as that value.
* `ofRaw_of_not_spelled` — every other text is kept as it is, or becomes empty if it is all blank.

`ofRaw` picks a reader by the first character behind the blanks of plain text, which are more than
those of documents.  A document never starts with one of the others (`trimStart_of_dropBlank`), so
the reader that is picked is the one whose grammar the text may belong to.
-/

namespace PipelineParams.ParamValue

open Json (Padded Literal ListOf MapOf OrNull)

/-- A text spells a value out.  `null` spells the empty text. -/
inductive Spelled (cs : List Char) : ParamValue → Prop
  | array {items : List String} : Padded (ListOf Literal) cs items → Spelled cs (.array items)
  | object {fields : SortedMap String} :
      Padded (MapOf Literal) cs fields → Spelled cs (.object fields)
  | scalar {text? : Option String} :
      Padded (OrNull Literal) cs text? → Spelled cs (.string (text?.getD ""))

/-! ## White space of the two kinds -/

theorem isBlank_of_json_isBlank {c : Char} (blank : Json.isBlank c = true) :
    Text.isBlank c = true := by
  simp only [Json.isBlank, Bool.or_eq_true, beq_iff_eq] at blank
  rcases blank with ((rfl | rfl) | rfl) | rfl <;> decide

theorem trimStart_dropBlank (cs : List Char) :
    Text.trimStart (dropBlank Json.isBlank cs) = Text.trimStart cs := by
  obtain ⟨blanks, blank, split⟩ := Json.exists_blanks cs
  conv => rhs; rw [split]
  exact (List.dropWhile_append_of_pos fun c member => isBlank_of_json_isBlank (blank c member)).symm

theorem trimStart_of_dropBlank {cs tail : List Char} {c : Char}
    (head : dropBlank Json.isBlank cs = c :: tail) (solid : Text.isBlank c = false) : Text.trimStart cs = c :: tail := by
  rw [← trimStart_dropBlank, head]
  exact List.dropWhile_cons_of_neg (by simp [solid])

theorem trimStart_eq_nil_iff {cs : List Char} :
    Text.trimStart cs = [] ↔ cs.all Text.isBlank = true := by
  rw [Text.trimStart, dropBlank, List.dropWhile_eq_nil_iff, List.all_eq_true]

/-! ## Texts that spell a value out -/

theorem ofRaw_of_list {raw : String} {items : List String}
    (spelled : Padded (ListOf Literal) raw.toList items) : ofRaw raw = .array items := by
  have reads := Json.reads_list Json.reads_string
  obtain ⟨tok, after, ⟨inner, rfl, -⟩, -, head⟩ := spelled.exists_dropBlank reads.solid []
  rw [List.append_nil] at head
  rw [ofRaw, trimStart_of_dropBlank head (by decide)]
  dsimp only
  rw [if_pos rfl, (Json.read_eq_ok_iff reads).2 spelled]

theorem ofRaw_of_object {raw : String} {fields : SortedMap String}
    (spelled : Padded (MapOf Literal) raw.toList fields) : ofRaw raw = .object fields := by
  have reads := Json.reads_mapOf Json.reads_string
  obtain ⟨tok, after, ⟨inner, rfl, -⟩, -, head⟩ := spelled.exists_dropBlank reads.solid []
  rw [List.append_nil] at head
  rw [ofRaw, trimStart_of_dropBlank head (by decide)]
  dsimp only
  rw [if_neg (by decide), if_pos rfl, (Json.read_eq_ok_iff reads).2 spelled]

theorem ofScalar_eq {raw : String} {text? : Option String}
    (spelled : Padded (OrNull Literal) raw.toList text?) :
    ofScalar raw = .string (text?.getD "") := by
  rw [ofScalar, (Json.read_eq_ok_iff Json.reads_optional_string).2 spelled]
  cases text? <;> rfl

theorem ofRaw_of_scalar {raw : String} {text? : Option String}
    (spelled : Padded (OrNull Literal) raw.toList text?) :
    ofRaw raw = .string (text?.getD "") := by
  have reads := Json.reads_optional_string
  obtain ⟨tok, after, token, -, head⟩ := spelled.exists_dropBlank reads.solid []
  rw [List.append_nil] at head
  have start : ∃ c tail, tok = c :: tail ∧ (c = 'n' ∨ c = '"') := by
    cases text? with
    | none => exact ⟨'n', _, token, .inl rfl⟩
    | some text =>
      obtain ⟨tail, quote⟩ := Json.Literal.exists_quote token
      exact ⟨'"', tail, quote, .inr rfl⟩
  obtain ⟨c, tail, rfl, scalar⟩ := start
  have solid : Text.isBlank c = false := by rcases scalar with rfl | rfl <;> decide
  have notList : c ≠ '[' := by rcases scalar with rfl | rfl <;> decide
  have notObject : c ≠ '\x7b' := by rcases scalar with rfl | rfl <;> decide
  rw [ofRaw, trimStart_of_dropBlank head solid]
  dsimp only
  rw [if_neg notList, if_neg notObject, ofScalar_eq spelled]

theorem ofRaw_of_spelled {raw : String} {v : ParamValue} (spelled : Spelled raw.toList v) :
    ofRaw raw = v := by
  cases spelled with
  | array spelled => exact ofRaw_of_list spelled
  | object spelled => exact ofRaw_of_object spelled
  | scalar spelled => exact ofRaw_of_scalar spelled

/-! ## All other texts -/

theorem ofScalar_of_not_spelled {raw : String} (not : ∀ v, ¬ Spelled raw.toList v) :
    ofScalar raw = .string raw := by
  rw [ofScalar]
  split
  next text read =>
    exact absurd (.scalar ((Json.read_eq_ok_iff Json.reads_optional_string).1 read)) (not _)
  next read =>
    exact absurd (.scalar ((Json.read_eq_ok_iff Json.reads_optional_string).1 read)) (not _)
  next => rfl

theorem ofRaw_of_not_spelled {raw : String} (not : ∀ v, ¬ Spelled raw.toList v) :
    ofRaw raw = .string (if raw.toList.all Text.isBlank then "" else raw) := by
  rw [ofRaw]
  split
  next blank => rw [if_pos (trimStart_eq_nil_iff.1 blank)]
  next c tail head =>
    have notBlank : ¬ raw.toList.all Text.isBlank = true := by
      intro blank
      cases head.symm.trans (trimStart_eq_nil_iff.2 blank)
    rw [if_neg notBlank]
    -- Whichever reader is picked fails, and so does the one for scalars that is tried after it.
    split
    · split
      next read =>
        have reads := Json.reads_list Json.reads_string
        exact absurd (.array ((Json.read_eq_ok_iff reads).1 read)) (not _)
      next => exact ofScalar_of_not_spelled not
    · split
      · split
        next read =>
          have reads := Json.reads_mapOf Json.reads_string
          exact absurd (.object ((Json.read_eq_ok_iff reads).1 read)) (not _)
        next => exact ofScalar_of_not_spelled not
      · exact ofScalar_of_not_spelled not

end PipelineParams.ParamValue
