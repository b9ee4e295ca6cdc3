import PipelineParams.Context.Codec
import PipelineParams.Declaration.Codec
import PipelineParams.Proofs.Json.Record
import PipelineParams.Proofs.Value.RoundTrip

/-! # Documents survive being written

Lists of parameters and of declarations, declared results and contexts are read back from what is
written for them, compact or pretty (`documents_read_back`).

There is one lemma for each type of value that has a reader and a writer: the reader accepts every
form of what the writer makes.  A field that is left open is left out, and an absent field is left
as it was in the blank record, where it is open as well (`Filled.optional`); this keeps apart what
is open and what is empty.  The value of a parameter is read by its spelling, so there the white
space inside a form has to be read once more, by `ParamValue.ofRaw`.
-/

namespace PipelineParams

open Json (Accepts Filled Form Typed)

/-! ## Fields -/

theorem accepts_text {tok : List Char} {text : String} (form : Form tok (.text text)) :
    Accepts Json.string tok text :=
  Json.reads_string.accepts (Json.literal_of_form form)

/-- A field that is left out where it is open. -/
theorem Json.Filled.optional {ρ α : Type} {key : String} {reader : Json.Reader α}
    {tree : α → Json.Tree} {set : Option α → ρ → ρ} {o : Option α} {r s : ρ}
    {fs : List (Json.Field ρ)} {es : List (String × Json.Tree)}
    (accepts : ∀ {tok a}, Form tok (tree a) → Accepts reader tok a) (unset : set none r = r)
    (filled : Filled fs es (set o r) s) :
    Filled (⟨key, false, (Json.optional reader).map set⟩ :: fs) (optionalField key tree o ++ es)
      r s := by
  cases o with
  | none =>
    rw [unset] at filled
    exact .absent rfl filled
  | some a => exact .present (fun form => ((accepts form).optional form.ne_null).map set) filled

/-! ## Values -/

namespace ParamValue

theorem accepts_of_spelled {α : Type} {r : Json.Reader α} {P : List Char → α → Prop}
    (typed : Typed r P) {tok : List Char} {a : α} (token : P tok a) {v : ParamValue}
    (spelled : Spelled tok v) : Accepts reader tok v := by
  have accepts := (typed.accepts_token token).map ofRaw
  rw [ofRaw_of_spelled (by rwa [String.toList_ofList])] at accepts
  exact accepts

theorem accepts_form {tok : List Char} {v : ParamValue} (form : Form tok v.toJson) :
    Accepts reader tok v := by
  have spelled := spelled_of_form form
  cases v with
  | string text => exact accepts_of_spelled Json.typed_string (Json.literal_of_form form) spelled
  | array items =>
    exact accepts_of_spelled Json.typed_string.list
      (Json.listOf_of_form Json.literal_of_form form) spelled
  | object fields =>
    exact accepts_of_spelled Json.typed_string.mapOf
      (Json.mapOf_of_form Json.literal_of_form form) spelled

end ParamValue

theorem Param.accepts_form {tok : List Char} {p : Param} (form : Form tok p.toJson) :
    Accepts reader tok p := by
  have filled : Filled fields [("name", .text p.name), ("value", p.value.toJson)]
      ⟨"", .string ""⟩ p :=
    .present (fun form => (accepts_text form).map _)
      (.present (fun form => (ParamValue.accepts_form form).map _) .done)
  exact Json.accepts_record (by decide) filled form "Param"

/-! ## Declarations -/

theorem ParamType.accepts_form {tok : List Char} {t : ParamType} (form : Form tok t.toJson) :
    Accepts reader tok t := by
  have known : Json.pick choices t.name = .ok t := by cases t <;> rfl
  exact Json.accepts_choice known (Json.literal_of_form form)

theorem PropertySpec.accepts_form {tok : List Char} {p : PropertySpec} (form : Form tok p.toJson) :
    Accepts reader tok p := by
  rw [toJson, ← List.append_nil (optionalField _ _ _)] at form
  exact Json.accepts_record (by decide) (.optional ParamType.accepts_form rfl .done) form _

theorem ParamSpec.accepts_form {tok : List Char} {s : ParamSpec} (form : Form tok s.toJson) :
    Accepts reader tok s := by
  have filled : Filled fields
      (("name", .text s.name) :: (optionalField "type" ParamType.toJson s.type ++
        (optionalField "description" .text s.description ++
          (optionalField "properties" (.ofMap PropertySpec.toJson) s.properties ++
            (optionalField "default" ParamValue.toJson s.default ++ [])))))
      { name := "" } s :=
    .present (fun form => (accepts_text form).map _) <|
      .optional ParamType.accepts_form rfl <| .optional accepts_text rfl <|
        .optional (Json.accepts_mapOf_of_form PropertySpec.accepts_form) rfl <|
          .optional ParamValue.accepts_form rfl .done
  simp only [toJson, List.append_assoc] at form
  rw [List.append_nil] at filled
  exact Json.accepts_record (by decide) filled form "ParamSpec"

theorem ResultSpec.accepts_form {tok : List Char} {s : ResultSpec} (form : Form tok s.toJson) :
    Accepts reader tok s := by
  have filled : Filled fields
      (("name", .text s.name) :: (optionalField "type" ParamType.toJson s.type ++
        (optionalField "description" .text s.description ++
          (optionalField "properties" (.ofMap PropertySpec.toJson) s.properties ++ []))))
      { name := "" } s :=
    .present (fun form => (accepts_text form).map _) <|
      .optional ParamType.accepts_form rfl <| .optional accepts_text rfl <|
        .optional (Json.accepts_mapOf_of_form PropertySpec.accepts_form) rfl .done
  simp only [toJson, List.append_assoc] at form
  rw [List.append_nil] at filled
  exact Json.accepts_record (by decide) filled form "ResultSpec"

/-! ## Contexts -/

theorem ReplacementContext.accepts_form {tok : List Char} {c : ReplacementContext}
    (form : Form tok c.toJson) : Accepts reader tok c := by
  have texts : ∀ {tok items}, Form tok (.texts items) → Accepts (Json.list Json.string) tok items :=
    Json.accepts_list_of_form accepts_text
  have filled : Filled fields
      [("strings", .ofMap .text c.strings), ("arrays", .ofMap .texts c.arrays),
        ("objects", .ofMap (.ofMap .text) c.objects)] empty c :=
    .present (fun form => (Json.accepts_mapOf_of_form accepts_text form).map _) <|
      .present (fun form => (Json.accepts_mapOf_of_form texts form).map _) <|
        .present (fun form => (Json.accepts_mapOf_of_form
          (Json.accepts_mapOf_of_form accepts_text) form).map _) .done
  exact Json.accepts_record (by decide) filled form "ReplacementContext"

/-! ## Documents -/

theorem read_of_forms {α : Type} {r : Json.Reader α} {t : Json.Tree} {a : α}
    (accepts : ∀ {tok}, Form tok t → Accepts r tok a) :
    Json.read r t.compact = .ok a ∧ Json.read r t.pretty = .ok a := by
  constructor
  · apply Json.read_of_accepts
    rw [Json.Tree.compact, String.toList_ofList]
    exact .of_token (accepts (.compact t))
  · apply Json.read_of_accepts
    rw [Json.Tree.pretty, String.toList_ofList]
    exact .of_token (accepts (.pretty 0 t))

theorem Param.decodeList_of_forms (ps : List Param) :
    decodeList (listToJson ps).compact = .ok ps ∧ decodeList (listToJson ps).pretty = .ok ps := by
  obtain ⟨compact, pretty⟩ := read_of_forms (a := ps) (Json.accepts_list_of_form accepts_form)
  rw [decodeList, decodeList, listToJson, compact, pretty]
  exact ⟨rfl, rfl⟩

theorem ParamSpec.decodeList_of_forms (ss : List ParamSpec) :
    decodeList (Json.Tree.list (ss.map toJson)).compact = .ok ss ∧
      decodeList (Json.Tree.list (ss.map toJson)).pretty = .ok ss := by
  obtain ⟨compact, pretty⟩ := read_of_forms (a := ss) (Json.accepts_list_of_form accepts_form)
  rw [decodeList, decodeList, compact, pretty]
  exact ⟨rfl, rfl⟩

/-- Whatever is written is read back, from the compact text and from the pretty one. -/
theorem documents_read_back (ps : List Param) (ss : List ParamSpec) (s : ResultSpec)
    (c : ReplacementContext) :
    (Param.decodeList (Param.listToJson ps).compact = .ok ps ∧
      Param.decodeList (Param.listToJson ps).pretty = .ok ps) ∧
    (ParamSpec.decodeList (Json.Tree.list (ss.map ParamSpec.toJson)).compact = .ok ss ∧
      ParamSpec.decodeList (Json.Tree.list (ss.map ParamSpec.toJson)).pretty = .ok ss) ∧
    (Json.read ResultSpec.reader s.toJson.compact = .ok s ∧
      Json.read ResultSpec.reader s.toJson.pretty = .ok s) ∧
    Json.read ReplacementContext.reader c.toJson.compact = .ok c ∧
      Json.read ReplacementContext.reader c.toJson.pretty = .ok c :=
  ⟨Param.decodeList_of_forms ps, ParamSpec.decodeList_of_forms ss,
    read_of_forms ResultSpec.accepts_form, read_of_forms ReplacementContext.accepts_form⟩

/-- What is empty is written, and what is open is not. -/
example :
    (ParamSpec.toJson
        { name := "p", properties := some SortedMap.empty, default := some (.array []) }).compact =
      "\x7b\"name\":\"p\",\"properties\":\x7b\x7d,\"default\":[]\x7d" := by
  decide +kernel

end PipelineParams
