import PipelineParams.Proofs.Json.Writing
import PipelineParams.Proofs.Value.Agreement

/-! # Values survive being written

What is written for a value spells this value out, whatever its texts look like, so both ways to
read a payload give it back.
-/

namespace PipelineParams.ParamValue

open Json (Literal)

theorem spelled_of_form {tok : List Char} {v : ParamValue} (form : Json.Form tok v.toJson) :
    Spelled tok v := by
  cases v with
  | string text =>
    have token : Json.OrNull Literal tok (some text) := Json.literal_of_form form
    exact .scalar (.of_token token)
  | array items => exact .array (.of_token (Json.listOf_of_form Json.literal_of_form form))
  | object fields => exact .object (.of_token (Json.mapOf_of_form Json.literal_of_form form))

theorem spelled_encode (v : ParamValue) : Spelled (encode v).toList v := by
  rw [encode, Json.Tree.compact, String.toList_ofList]
  exact spelled_of_form (.compact v.toJson)

theorem decode_encode_and_ofRaw_encode (v : ParamValue) :
    Spelled (encode v).toList v ∧ decode (encode v) = .ok v ∧ ofRaw (encode v) = v := by
  have spelled := spelled_encode v
  exact ⟨spelled, decode_of_spelled spelled, ofRaw_of_spelled spelled⟩

/-- A text that looks like a list, or like nothing at all, is still a text. -/
example : encode (.array ["[\"a\"]", "null", " ", "\x01😀"]) =
    "[\"[\\\"a\\\"]\",\"null\",\" \",\"\\u0001😀\"]" := by decide +kernel

end PipelineParams.ParamValue
