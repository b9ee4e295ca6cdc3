import PipelineParams.Declaration.Codec
import PipelineParams.Proofs.Json.Strictness
import PipelineParams.Proofs.Value.Agreement

/-! # Only well-formed documents are decoded

A value is decoded from every well-formed document and from no other text, for the spelling of
whatever it cannot classify is kept (`decode_ok_iff_wellFormed`).

A list of parameters or of declarations asks for more than that, and it looks at few of its parts: a
value is stepped over, and so is everything under an unknown key.  What is stepped over must be well
formed as well, so a fault in any place fails the whole document, and no part of a broken document is
taken for text.
-/

namespace PipelineParams

open Json (Padded Separated Spelling Strict Token WellFormed skipFrom skipScalar skipValue)

/-! ## Readers -/

theorem ParamValue.strict_reader : Strict reader := Json.strict_token.map ofRaw

theorem Param.strict_fields : ∀ f ∈ fields, Strict f.read := by
  simp only [fields, List.forall_mem_cons]
  exact ⟨Json.strict_string.map _, ParamValue.strict_reader.map _, by simp⟩

theorem Param.strict_reader : Strict reader := Json.strict_record strict_fields

theorem ParamType.strict_reader : Strict reader := Json.strict_choice

theorem PropertySpec.strict_reader : Strict reader := by
  apply Json.strict_record
  simp only [List.forall_mem_cons]
  exact ⟨ParamType.strict_reader.optional.map _, by simp⟩

theorem ParamSpec.strict_fields : ∀ f ∈ fields, Strict f.read := by
  simp only [fields, List.forall_mem_cons]
  exact ⟨Json.strict_string.map _, ParamType.strict_reader.optional.map _,
    Json.strict_string.optional.map _, PropertySpec.strict_reader.mapOf.optional.map _,
    ParamValue.strict_reader.optional.map _, by simp⟩

theorem ParamSpec.strict_reader : Strict reader := Json.strict_record strict_fields

theorem ResultSpec.strict_fields : ∀ f ∈ fields, Strict f.read := by
  simp only [fields, List.forall_mem_cons]
  exact ⟨Json.strict_string.map _, ParamType.strict_reader.optional.map _,
    Json.strict_string.optional.map _, PropertySpec.strict_reader.mapOf.optional.map _, by simp⟩

/-! ## Documents -/

theorem ParamValue.exists_decode_iff {text : String} :
    (∃ v, decode text = .ok v) ↔ WellFormed text := by
  rw [← Json.exists_read_token_iff]
  constructor
  · rintro ⟨v, decoded⟩
    obtain ⟨raw, document, -⟩ := decode_eq_ok_iff.1 decoded
    exact ⟨raw, document⟩
  · rintro ⟨raw, document⟩
    exact ⟨ofRaw raw, decode_eq_ok_iff.2 ⟨raw, document, rfl⟩⟩

/-- A value is decoded exactly from the well-formed texts, and lists of parameters and of declarations
from none but these. -/
theorem decode_ok_iff_wellFormed :
    (∀ text, (∃ v, ParamValue.decode text = .ok v) ↔ WellFormed text) ∧
    (∀ text, (∃ ps, Param.decodeList text = .ok ps) → WellFormed text) ∧
    (∀ text, (∃ ss, ParamSpec.decodeList text = .ok ss) → WellFormed text) := by
  refine ⟨fun text => ParamValue.exists_decode_iff, ?_, ?_⟩
  · rintro text ⟨ps, decoded⟩
    exact Param.strict_reader.list.wellFormed (mapError_eq_ok_iff.1 decoded)
  · rintro text ⟨ss, decoded⟩
    exact ParamSpec.strict_reader.list.wellFormed (mapError_eq_ok_iff.1 decoded)

/-- Half a surrogate pair and a number of any size are well formed, a missing value is not, and a record
may be written in either form. -/
theorem decode_ok_iff_wellFormed_missing_value :
    let odd := "[1e999,\"\\ud800\"]"
    let mixed := "[\x7b\"name\":\"p\"\x7d, [\"q\"]]"
    let broken := "[\x7b\"val\": \x7d]"
    (∃ v, ParamValue.decode odd = .ok v) ∧
    Param.decodeList mixed = .ok [⟨"p", .string ""⟩, ⟨"q", .string ""⟩] ∧
    ParamSpec.decodeList mixed = .ok [{ name := "p" }, { name := "q" }] ∧ WellFormed mixed ∧
    ¬ WellFormed broken ∧ (¬ ∃ v, ParamValue.decode broken = .ok v) ∧
    (¬ ∃ ps, Param.decodeList broken = .ok ps) ∧ ¬ ∃ ss, ParamSpec.decodeList broken = .ok ss := by
  intro odd mixed broken
  obtain ⟨value, params, specs⟩ := decode_ok_iff_wellFormed
  have scalar {tok : List Char} (skipped : skipScalar tok = .ok []) : Token tok := by
    obtain ⟨tok', token, same⟩ := Json.skipScalar_sound skipped
    rwa [same, List.append_nil]
  have number : Token "1e999".toList := scalar (by decide +kernel)
  have half : Token "\"\\ud800\"".toList := scalar (by decide +kernel)
  have items : Separated (Padded Spelling) ("1e999".toList ++ ',' :: "\"\\ud800\"".toList)
      ["1e999".toList, "\"\\ud800\"".toList] :=
    .more (.of_token ⟨rfl, number⟩) (.one (.of_token ⟨rfl, half⟩))
  have listed : Token odd.toList := .of_spellings ⟨_, by decide, .inr items⟩
  have decoded : Param.decodeList mixed = .ok [⟨"p", .string ""⟩, ⟨"q", .string ""⟩] := by
    decide +kernel
  have refused : ¬ ∃ v, ParamValue.decode broken = .ok v := by
    rintro ⟨v, decoded⟩
    obtain ⟨raw, document, -⟩ := ParamValue.decode_eq_ok_iff.1 decoded
    obtain ⟨after, -, skipped, -⟩ := Json.read_token_eq_ok_iff.1 document
    have fault : skipValue broken.toList = .error .valueExpected :=
      calc skipValue broken.toList
        _ = skipFrom [] (.opened .list) "\x7b\"val\": \x7d]".toList :=
          Json.skipFrom_value_list (by decide)
        _ = skipFrom [.list] .value "\x7b\"val\": \x7d]".toList :=
          Json.skipFrom_opened_label (c := '\x7b') (by decide) (by decide) rfl
        _ = skipFrom [.list] (.opened .object) "\"val\": \x7d]".toList :=
          Json.skipFrom_value_object (by decide)
        _ = skipFrom [.object, .list] .value " \x7d]".toList :=
          Json.skipFrom_opened_label (c := '"') rfl (by decide) (by decide +kernel)
        _ = .error .valueExpected := Json.skipFrom_value_cons (c := '\x7d') rfl
    cases fault.symm.trans skipped
  have malformed : ¬ WellFormed broken := mt (value broken).2 refused
  have wellFormed : WellFormed odd :=
    ⟨[], _, [], Json.blanks_nil, listed, Json.blanks_nil, by rw [List.append_nil, List.nil_append]⟩
  exact ⟨(value odd).2 wellFormed, decoded, by decide +kernel, params mixed ⟨_, decoded⟩,
    malformed, refused, mt (params broken) malformed, mt (specs broken) malformed⟩

end PipelineParams
