import PipelineParams.Proofs.Document.Position
import PipelineParams.Proofs.Document.Strictness
import PipelineParams.Proofs.Json.Rearrangement

/-! # Declarations in many layouts

A parameter and the declaration of a parameter or of a result are records, so each of them is decoded
from every layout of its fields and to the same value (`declared_in_any_layout`).  The name is the one
field that has to be there, and a field that is given twice is refused even if it is the same both times.
-/

namespace PipelineParams

open Json (Layout ListOf Literal Local MembersOf Once Padded Plain Rearrangeable Spelling Token)

/-! ## Readers -/

theorem ParamValue.local_reader : Local reader := Json.local_token.map ofRaw

theorem ParamType.local_reader : Local reader := Json.local_choice

theorem PropertySpec.local_reader : Local reader := by
  apply Json.local_record (by decide)
  simp only [List.forall_mem_cons]
  exact ⟨(ParamType.local_reader.optional.map _).yields (ParamType.strict_reader.optional.map _),
    by simp⟩

theorem Param.rearrangeable : Rearrangeable fields ⟨"", .string ""⟩ where
  distinct := by decide
  strict := strict_fields
  isLocal := by
    simp only [fields, List.forall_mem_cons]
    exact ⟨Json.reads_string.local.map _, ParamValue.local_reader.map _, by simp⟩
  independent := by simp [fields, Json.independent_map]
  null := by
    have empty : tokenValue "null".toList = .string "" := by decide +kernel
    have accepts := (accepts_tokenValue (.word List.mem_cons_self)).map fun value (p : Param) =>
      { p with value }
    rw [empty] at accepts
    simp only [fields, List.forall_mem_cons]
    exact ⟨by simp, fun _ => ⟨_, accepts, rfl⟩, by simp⟩

theorem ParamSpec.rearrangeable : Rearrangeable fields { name := "" } where
  distinct := by decide
  strict := strict_fields
  isLocal := by
    simp only [fields, List.forall_mem_cons]
    exact ⟨Json.reads_string.local.map _, ParamType.local_reader.optional.map _,
      Json.reads_string.local.optional.map _, PropertySpec.local_reader.mapOf.optional.map _,
      ParamValue.local_reader.optional.map _, by simp⟩
  independent := by simp [fields, Json.independent_map]
  null := by
    simp only [fields, List.forall_mem_cons]
    exact ⟨by simp, fun _ => Json.exists_accepts_null rfl, fun _ => Json.exists_accepts_null rfl,
      fun _ => Json.exists_accepts_null rfl, fun _ => Json.exists_accepts_null rfl, by simp⟩

theorem ResultSpec.rearrangeable : Rearrangeable fields { name := "" } where
  distinct := by decide
  strict := strict_fields
  isLocal := by
    simp only [fields, List.forall_mem_cons]
    exact ⟨Json.reads_string.local.map _, ParamType.local_reader.optional.map _,
      Json.reads_string.local.optional.map _, PropertySpec.local_reader.mapOf.optional.map _, by simp⟩
  independent := by simp [fields, Json.independent_map]
  null := by
    simp only [fields, List.forall_mem_cons]
    exact ⟨by simp, fun _ => Json.exists_accepts_null rfl, fun _ => Json.exists_accepts_null rfl,
      fun _ => Json.exists_accepts_null rfl, by simp⟩

/-! ## Documents -/

/-- What is declared, by the reader and the fields of its record. -/
inductive Declared : {ρ : Type} → Json.Reader ρ → List (Json.Field ρ) → Prop
  | param : Declared Param.reader Param.fields
  | paramSpec : Declared ParamSpec.reader ParamSpec.fields
  | resultSpec : Declared ResultSpec.reader ResultSpec.fields

section

variable {ρ : Type} {reader : Json.Reader ρ} {fields : List (Json.Field ρ)}

/-- All of them are records that start with a name. -/
theorem Declared.exists_record (declared : Declared reader fields) :
    ∃ label blank, reader = Json.record label fields blank ∧ Rearrangeable fields blank ∧
      ∃ set others, fields = ⟨"name", true, Json.string.map set⟩ :: others := by
  cases declared with
  | param => exact ⟨_, _, rfl, Param.rearrangeable, _, _, rfl⟩
  | paramSpec => exact ⟨_, _, rfl, ParamSpec.rearrangeable, _, _, rfl⟩
  | resultSpec => exact ⟨_, _, rfl, ResultSpec.rearrangeable, _, _, rfl⟩

variable {text : String} {s : ρ}

/-- An object that is decoded gives no field twice, and it gives the name. -/
theorem Declared.named_of_read_members (declared : Declared reader fields)
    {members : List (String × List Char)} (object : Padded (MembersOf Spelling) text.toList members)
    (decoded : Json.read reader text = .ok s) :
    Once fields members ∧ ∃ lit name, ("name", lit) ∈ members ∧ Literal lit name := by
  obtain ⟨label, blank, rfl, free, set, others, rfl⟩ := declared.exists_record
  obtain ⟨once, gathers, present⟩ := free.of_read_members object decoded
  obtain ⟨⟨_, lit⟩, member, rfl⟩ := List.mem_map.1 (present _ List.mem_cons_self rfl)
  obtain ⟨_, accepts⟩ := gathers.exists_accepts free.distinct List.mem_cons_self member
  obtain ⟨name, literal, -⟩ := accepts.exists_of_map Json.reads_string.yields
  exact ⟨once, lit, name, member, literal⟩

/-- A list that is decoded starts with the name. -/
theorem Declared.named_of_read_items (declared : Declared reader fields) {items : List (List Char)}
    (listed : Padded (ListOf Spelling) text.toList items) (decoded : Json.read reader text = .ok s) :
    ∃ lit name, items.head? = some lit ∧ Literal lit name := by
  obtain ⟨label, blank, rfl, free, set, others, rfl⟩ := declared.exists_record
  cases free.of_read_items listed decoded with
  | ended optional => cases optional _ List.mem_cons_self
  | item accepts _ =>
    obtain ⟨name, literal, -⟩ := Json.Accepts.exists_of_map accepts Json.reads_string.yields
    exact ⟨_, name, rfl, literal⟩

theorem exists_error_of_not_ok {ε α : Type} {outcome : Except ε α} (fails : ∀ a, outcome ≠ .ok a) :
    ∃ e, outcome = .error e := by
  cases outcome with
  | error e => exact ⟨e, rfl⟩
  | ok a => exact absurd rfl (fails a)

/-- If the plain object of some fields is decoded, every layout of these fields is decoded to the same:
in any order, with anything under other keys, with absent fields as `null`, or as a list.  Refused are an
object with a field that is given twice, an object or a list without a name, and whatever is not a
well-formed object or list.  A list of declarations is decoded one by one. -/
theorem declared_in_any_layout (declared : Declared reader fields) :
    (∀ given text text' s, Padded (Plain fields) text.toList given → Json.read reader text = .ok s →
      Padded (Layout fields) text'.toList given → Json.read reader text' = .ok s) ∧
    (∀ text members, Padded (MembersOf Spelling) text.toList members →
      (¬ Once fields members ∨ ∀ lit name, ("name", lit) ∈ members → ¬ Literal lit name) →
      ∃ e, Json.read reader text = .error e) ∧
    (∀ text items, Padded (ListOf Spelling) text.toList items →
      (∀ lit name, items.head? = some lit → ¬ Literal lit name) →
      ∃ e, Json.read reader text = .error e) ∧
    (∀ text, (¬ ∃ members, Padded (MembersOf Spelling) text.toList members) →
      (¬ ∃ items, Padded (ListOf Spelling) text.toList items) →
      ∃ e, Json.read reader text = .error e) ∧
    ∀ text ss, Json.read (Json.list reader) text = .ok ss ↔
      ∃ items, Padded (ListOf Spelling) text.toList items ∧
        List.Forall₂ (fun item s => Json.read reader (String.ofList item) = .ok s) items ss := by
  obtain ⟨label, blank, rfl, free, -⟩ := declared.exists_record
  refine ⟨fun given text text' s plain decoded layout => free.read_layout plain decoded layout,
    fun text members object faulty => ?_, fun text items listed nameless => ?_,
    fun text noObject noList => ?_, fun text ss => ?_⟩
  · refine exists_error_of_not_ok fun s decoded => ?_
    obtain ⟨once, lit, name, member, literal⟩ := declared.named_of_read_members object decoded
    rcases faulty with twice | nameless
    · exact twice once
    · exact nameless lit name member literal
  · refine exists_error_of_not_ok fun s decoded => ?_
    obtain ⟨lit, name, head, literal⟩ := declared.named_of_read_items listed decoded
    exact nameless lit name head literal
  · refine exists_error_of_not_ok fun s decoded => ?_
    exact (free.of_read decoded).elim noObject noList
  · exact Json.read_list_eq_ok_iff (Json.local_record free.distinct free.yields)
      (Json.strict_record free.strict)

end

/-- A declaration that is written upside down with all that it leaves open as `null` and a member of no
meaning, or as a list, is the plain one.  A name that is given twice or not at all is a fault. -/
theorem declared_in_any_layout_upside_down :
    let s : ResultSpec := { name := "p", type := some .array }
    Json.read ResultSpec.reader
      "\x7b\"x\":[],\"properties\":null,\"description\":null,\"type\":\"array\",\"name\":\"p\"\x7d" =
        .ok s ∧
    Json.read ResultSpec.reader "[\"p\",\"array\",null]" = .ok s ∧
    (∃ e, Json.read ResultSpec.reader "\x7b\"name\":\"p\",\"name\":\"p\"\x7d" = .error e) ∧
    (∃ e, Json.read ResultSpec.reader "\x7b\"type\":\"array\"\x7d" = .error e) ∧
    (∃ e, Json.read ResultSpec.reader "[]" = .error e) ∧
    Json.read (Json.list ResultSpec.reader) "[[\"p\",\"array\"]]" = .ok [s] := by
  intro s
  obtain ⟨layouts, members, items, -, lists⟩ := declared_in_any_layout .resultSpec
  let given (key : String) : Option (List Char) :=
    if key = "name" then some "\"p\"".toList
    else if key = "type" then some "\"array\"".toList else none
  have word (text : String) : Token (Json.Tree.quoted text) :=
    Json.token_of_literal _ _ (Json.literal_quoted text)
  have null : Token "null".toList := .word List.mem_cons_self
  have empty : ListOf Spelling "[]".toList [] := ⟨[], rfl, .inl ⟨Json.blanks_nil, rfl⟩⟩
  have item {tok : List Char} (token : Token tok) : Padded Spelling tok tok := .of_token ⟨rfl, token⟩
  have entry (key : String) {tok : List Char} (token : Token tok) :
      Json.Entry Spelling (Json.Tree.quoted key ++ ':' :: tok) (key, tok) :=
    ⟨_, _, .of_token (Json.literal_quoted key), item token, rfl⟩
  have plain : Padded (Plain ResultSpec.fields)
      "\x7b\"name\":\"p\",\"type\":\"array\"\x7d".toList given :=
    .of_token ⟨_, rfl, .inr (.more (entry "name" (word "p")) (.one (entry "type" (word "array"))))⟩
  have decoded : Json.read ResultSpec.reader "\x7b\"name\":\"p\",\"type\":\"array\"\x7d" = .ok s := by
    decide +kernel
  refine ⟨layouts given _ _ s plain decoded ?_, layouts given _ _ s plain decoded ?_, ?_, ?_, ?_, ?_⟩
  · refine .of_token (.object ⟨_, rfl, .inr (.more (entry "x" (.of_spellings empty))
      (.more (entry "properties" null) (.more (entry "description" null)
        (.more (entry "type" (word "array")) (.one (entry "name" (word "p")))))))⟩ (.refl _) ?_)
    decide +kernel
  · have split : ResultSpec.fields = ResultSpec.fields.take 3 ++ ResultSpec.fields.drop 3 := rfl
    have absent : ∀ f ∈ ResultSpec.fields.drop 3, given f.name = none := by
      intro f last
      obtain rfl := List.mem_singleton.1 last
      decide +kernel
    exact .of_token (.list split absent ⟨_, rfl,
      .inr (.more (item (word "p")) (.more (item (word "array")) (.one (item null))))⟩)
  · have twice : Padded (MembersOf Spelling) "\x7b\"name\":\"p\",\"name\":\"p\"\x7d".toList
        [("name", "\"p\"".toList), ("name", "\"p\"".toList)] :=
      .of_token ⟨_, rfl, .inr (.more (entry "name" (word "p")) (.one (entry "name" (word "p"))))⟩
    exact members _ _ twice (.inl (by simp [Once, ResultSpec.fields]))
  · have nameless : Padded (MembersOf Spelling) "\x7b\"type\":\"array\"\x7d".toList
        [("type", "\"array\"".toList)] :=
      .of_token ⟨_, rfl, .inr (.one (entry "type" (word "array")))⟩
    exact members _ _ nameless (.inr (by simp))
  · exact items _ [] (.of_token empty) (by simp)
  · have inner : Token "[\"p\",\"array\"]".toList :=
      .of_spellings ⟨_, rfl, .inr (.more (item (word "p")) (.one (item (word "array"))))⟩
    have listed : Padded (ListOf Spelling) "[[\"p\",\"array\"]]".toList ["[\"p\",\"array\"]".toList] :=
      .of_token ⟨_, rfl, .inr (.one (item inner))⟩
    have decoded : Json.read ResultSpec.reader (String.ofList "[\"p\",\"array\"]".toList) = .ok s := by
      decide +kernel
    exact (lists _ _).2 ⟨_, listed, .cons decoded .nil⟩

end PipelineParams
