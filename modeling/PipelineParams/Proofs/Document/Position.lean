import PipelineParams.Proofs.Document.RoundTrip
import PipelineParams.Proofs.Value.Verbatim

/-! # A token means the same wherever it stands

The spelling of a token is the same text on its own, as the value of a parameter and as the default of
a declaration, so it is classified as the same value (`token_means_the_same`).  `null` is the one
exception: as a default it stands for none.

Around the token stands whatever a document may hold: white space between any two tokens, other members
in any order, known ones and unknown ones (`Holds`), and other items of the list.
-/

namespace PipelineParams

open Json (Accepts Blanks Entry ListOf Literal MembersOf Once Padded SetsTo Spelling StringToken Token
  literal_quoted)

variable {tok obj : List Char} {name : String}

/-- An object of a record that has this name, and this token under a key.  The other fields that it
gives are readable, none is given twice, and unknown members may stand between them. -/
inductive Holds {ρ : Type} (fields : List (Json.Field ρ)) (key : String) (obj : List Char)
    (name : String) (tok : List Char) : Prop
  | mk {members : List (String × List Char)} {lit : List Char}
      (object : MembersOf Spelling obj members) (once : Once fields members)
      (named : ("name", lit) ∈ members) (literal : Literal lit name) (held : (key, tok) ∈ members)
      (readable : ∀ f ∈ fields, f.name ≠ "name" → f.name ≠ key → ∀ raw, (f.name, raw) ∈ members →
        ∃ set, Accepts f.read raw set) : Holds fields key obj name tok

/-! ## Records -/

/-- A record has the name that it is given and what it holds under the key, whatever else is read. -/
theorem Holds.exists_accepts {ρ γ : Type} {fields : List (Json.Field ρ)} {key : String}
    {getName : ρ → String} {get : ρ → γ} {v : γ} (holds : Holds fields key obj name tok)
    (distinct : (fields.map Json.Field.name).Nodup)
    (required : ∀ f ∈ fields, f.required = true → f.name = "name")
    (setsName : ∀ {lit}, Literal lit name → SetsTo fields "name" getName lit name)
    (setsKey : SetsTo fields key get tok v) (label : String) (blank : ρ) :
    ∃ s, Accepts (Json.record label fields blank) obj s ∧ getName s = name ∧ get s = v := by
  obtain @⟨members, lit, object, once, named, literal, held, readable⟩ := holds
  have setsName := setsName literal
  have onlyName : ∀ raw, ("name", raw) ∈ members → raw = lit :=
    fun _ => once.eq setsName.mem_names named
  have onlyKey : ∀ raw, (key, raw) ∈ members → raw = tok := fun _ => once.eq setsKey.mem_names held
  have readable' : ∀ f ∈ fields, ∀ raw, (f.name, raw) ∈ members →
      ∃ set, Accepts f.read raw set := by
    intro f inFields raw member
    by_cases isName : f.name = "name"
    · obtain rfl := onlyName raw (isName ▸ member)
      exact setsName.exists_accepts distinct inFields isName
    by_cases isKey : f.name = key
    · obtain rfl := onlyKey raw (isKey ▸ member)
      exact setsKey.exists_accepts distinct inFields isKey
    · exact readable f inFields isName isKey raw member
  obtain ⟨s, gathers⟩ := Json.exists_gathers readable' blank
  have present : ∀ f ∈ fields, f.required = true → f.name ∈ members.map Prod.fst :=
    fun f inFields need => List.mem_map.2 ⟨_, named, (required f inFields need).symm⟩
  refine ⟨s, Json.accepts_record_of_gathers distinct object once gathers present label, ?_, ?_⟩
  · exact gathers.get_eq distinct setsName onlyName (.inl (List.mem_map_of_mem named))
  · exact gathers.get_eq distinct setsKey onlyKey (.inl (List.mem_map_of_mem held))

def tokenValue (tok : List Char) : ParamValue := ParamValue.ofRaw (String.ofList tok)

theorem accepts_tokenValue (token : Token tok) : Accepts ParamValue.reader tok (tokenValue tok) :=
  token.accepts_token.map ParamValue.ofRaw

theorem Param.accepts_of_holds (token : Token tok) (holds : Holds fields "value" obj name tok) :
    Accepts reader obj ⟨name, tokenValue tok⟩ := by
  have setsName {lit} (literal : Literal lit name) : SetsTo fields "name" Param.name lit name :=
    .mk List.mem_cons_self rfl (by simp [fields, Json.keeps_map])
      ((Json.reads_string.accepts literal).map _) fun _ => rfl
  have setsValue : SetsTo fields "value" Param.value tok (tokenValue tok) :=
    .mk (List.mem_cons_of_mem _ List.mem_cons_self) rfl (by simp [fields, Json.keeps_map])
      ((accepts_tokenValue token).map _) fun _ => rfl
  obtain ⟨p, accepts, rfl, value⟩ := holds.exists_accepts (by decide) (by decide) setsName setsValue
    "Param" ⟨"", .string ""⟩
  rw [← value]
  exact accepts

def tokenDefault (tok : List Char) : Option ParamValue :=
  if tok = "null".toList then none else some (tokenValue tok)

theorem accepts_tokenDefault (token : Token tok) :
    Accepts (Json.optional ParamValue.reader) tok (tokenDefault tok) := by
  rw [tokenDefault]
  split
  next null =>
    rw [null]
    exact Json.accepts_null ParamValue.reader
  next other =>
    refine (accepts_tokenValue token).optional ?_
    rintro cs rfl
    exact other token.eq_null

theorem ParamSpec.accepts_of_holds (token : Token tok) (holds : Holds fields "default" obj name tok) :
    ∃ s, Accepts reader obj s ∧ s.name = name ∧ s.default = tokenDefault tok := by
  have setsName {lit} (literal : Literal lit name) : SetsTo fields "name" ParamSpec.name lit name :=
    .mk List.mem_cons_self rfl (by simp [fields, Json.keeps_map])
      ((Json.reads_string.accepts literal).map _) fun _ => rfl
  have setsDefault : SetsTo fields "default" ParamSpec.default tok (tokenDefault tok) :=
    .mk (List.mem_of_getLast? rfl) rfl (by simp [fields, Json.keeps_map])
      ((accepts_tokenDefault token).map _) fun _ => rfl
  exact holds.exists_accepts (by decide) (by decide) setsName setsDefault "ParamSpec" { name := "" }

/-! ## Documents -/

/-- A document is a list in which an item stands between others that are read. -/
inductive Among {α : Type} (reader : Json.Reader α) (item : List Char) (doc : String)
    (earlier later : List α) : Prop
  | mk {before after : List (List Char)} :
      Padded (ListOf Eq) doc.toList (before ++ item :: after) →
      List.Forall₂ (Accepts reader) before earlier → List.Forall₂ (Accepts reader) after later →
      Among reader item doc earlier later

theorem Among.read_list {α : Type} {reader : Json.Reader α} {item : List Char} {doc : String}
    {earlier later : List α} {a : α} (among : Among reader item doc earlier later)
    (accepts : Accepts reader item a) :
    Json.read (Json.list reader) doc = .ok (earlier ++ a :: later) := by
  obtain ⟨listed, front, back⟩ := among
  have all := List.rel_append front (.cons accepts back)
  apply Json.read_of_accepts
  exact listed.imp fun items => Json.accepts_list id (items.of_forall₂ all)

/-- A token is decoded to what its spelling is classified as, on its own with white space around it, as
the value of a parameter in a list and as the default of a declaration in a list; as a default, `null`
is none.  What does not spell a value out is the text of its spelling everywhere. -/
theorem token_means_the_same (token : Token tok) :
    (∀ text : String, Padded Eq text.toList tok → ParamValue.decode text = .ok (tokenValue tok)) ∧
    (∀ doc obj name ps qs, Among Param.reader obj doc ps qs →
      Holds Param.fields "value" obj name tok →
      Param.decodeList doc = .ok (ps ++ ⟨name, tokenValue tok⟩ :: qs)) ∧
    (∀ doc obj name ss ts, Among ParamSpec.reader obj doc ss ts →
      Holds ParamSpec.fields "default" obj name tok →
      ∃ s, ParamSpec.decodeList doc = .ok (ss ++ s :: ts) ∧ s.name = name ∧
        s.default = if tok = "null".toList then none else some (tokenValue tok)) ∧
    (ParamValue.Verbatim tok → tokenValue tok = .string (String.ofList tok)) := by
  refine ⟨fun text padded => ?_, fun doc obj name ps qs among holds => ?_,
    fun doc obj name ss ts among holds => ?_, fun verbatim => ?_⟩
  · have accepted : Padded (Accepts ParamValue.reader) text.toList (tokenValue tok) := by
      refine padded.imp ?_
      rintro _ rfl
      exact accepts_tokenValue token
    rw [ParamValue.decode, Json.read_of_accepts accepted]
    rfl
  · rw [Param.decodeList, among.read_list (Param.accepts_of_holds token holds)]
    rfl
  · obtain ⟨s, accepts, named, default⟩ := ParamSpec.accepts_of_holds token holds
    refine ⟨s, ?_, named, default⟩
    rw [ParamSpec.decodeList, among.read_list accepts]
    rfl
  · exact ParamValue.ofRaw_of_verbatim verbatim

/-! ### A document -/

def bracketed : List Char := "[ 0,\"]\"]".toList

theorem listOf_bracketed : ListOf Spelling bracketed ["0".toList, "\"]\"".toList] := by
  have number : Token "0".toList := .number (.mk List.mem_cons_self .zero .absent .absent)
  have string : StringToken "\"]\"".toList :=
    ⟨"]".toList, rfl, .plain (by decide) (by decide) (by decide) .nil⟩
  have blank : Blanks [' '] := by simp [Blanks, Json.isBlank]
  have padded : Padded Spelling " 0".toList "0".toList :=
    ⟨[' '], _, [], blank, ⟨rfl, number⟩, Json.blanks_nil, rfl⟩
  have padded' : Padded Spelling "\"]\"".toList "\"]\"".toList := .of_token ⟨rfl, .string string⟩
  exact ⟨" 0,\"]\"".toList, rfl, .inr (.more padded (.one padded'))⟩

def bracketedObject : List Char :=
  "\x7b\"value\":[ 0,\"]\"] ,\"x\":null,\"default\": [ 0,\"]\"],\"name\":\"p\"\x7d".toList

def bracketedMembers : List (String × List Char) :=
  [("value", bracketed), ("x", "null".toList), ("default", bracketed), ("name", "\"p\"".toList)]

theorem membersOf_bracketedObject : MembersOf Spelling bracketedObject bracketedMembers := by
  have token : Token bracketed := .of_spellings listOf_bracketed
  have label (key : String) : Padded Literal (Json.Tree.quoted key) key :=
    .of_token (literal_quoted key)
  have blank : Blanks [' '] := by simp [Blanks, Json.isBlank]
  have value : Entry Spelling "\"value\":[ 0,\"]\"] ".toList ("value", bracketed) :=
    ⟨_, _, label "value", ⟨[], _, [' '], Json.blanks_nil, ⟨rfl, token⟩, blank, rfl⟩, rfl⟩
  have other : Entry Spelling "\"x\":null".toList ("x", "null".toList) :=
    ⟨_, _, label "x", .of_token ⟨rfl, .word List.mem_cons_self⟩, rfl⟩
  have default : Entry Spelling "\"default\": [ 0,\"]\"]".toList ("default", bracketed) :=
    ⟨_, _, label "default", ⟨[' '], _, [], blank, ⟨rfl, token⟩, Json.blanks_nil, rfl⟩, rfl⟩
  have named : Entry Spelling "\"name\":\"p\"".toList ("name", "\"p\"".toList) :=
    ⟨_, _, label "name", .of_token ⟨rfl, .string (.of_literal (literal_quoted "p"))⟩, rfl⟩
  exact ⟨_, rfl, .inr (.more value (.more other (.more default (.one named))))⟩

/-- The list comes back as it is spelled, alone and from an object before or behind another one. -/
theorem token_means_the_same_bracketed :
    let raw : ParamValue := .string "[ 0,\"]\"]"
    let behind := ",\x7b\"name\":\"q\",\"value\":\"\"\x7d ]".toList
    let before := "[\x7b\"name\":\"q\"\x7d,".toList
    ParamValue.decode "\t[ 0,\"]\"]\n" = .ok raw ∧
    Param.decodeList (String.ofList ('[' :: (bracketedObject ++ behind))) =
      .ok [⟨"p", raw⟩, ⟨"q", .string ""⟩] ∧
    ∃ s, ParamSpec.decodeList (String.ofList (before ++ (bracketedObject ++ [']']))) =
      .ok [{ name := "q" }, s] ∧ s.name = "p" ∧ s.default = some raw := by
  intro raw behind before
  have token : Token bracketed := .of_spellings listOf_bracketed
  have verbatim : ParamValue.Verbatim bracketed :=
    .list listOf_bracketed List.mem_cons_self fun ⟨body, same, _⟩ => by cases (List.cons.inj same).1
  obtain ⟨alone, value, default, kept⟩ := token_means_the_same token
  have kept : tokenValue bracketed = raw := kept verbatim
  have blank : Blanks [' '] := by simp [Blanks, Json.isBlank]
  have blank' : Blanks ['\t'] ∧ Blanks ['\n'] := by simp [Blanks, Json.isBlank]
  have named : ("name", "\"p\"".toList) ∈ bracketedMembers := by simp [bracketedMembers]
  have holds : Holds Param.fields "value" bracketedObject "p" bracketed :=
    .mk membersOf_bracketedObject (by simp [Once, Param.fields, bracketedMembers]) named
      (literal_quoted "p") (by simp [bracketedMembers]) (by simp [Param.fields])
  have holds' : Holds ParamSpec.fields "default" bracketedObject "p" bracketed :=
    .mk membersOf_bracketedObject (by simp [Once, ParamSpec.fields, bracketedMembers]) named
      (literal_quoted "p") (by simp [bracketedMembers]) (by simp [ParamSpec.fields, bracketedMembers])
  have among : Among Param.reader bracketedObject (String.ofList ('[' :: (bracketedObject ++ behind)))
      [] [⟨"q", .string ""⟩] := by
    refine .mk ?_ .nil (.cons (Param.accepts_form (.compact _)) .nil)
    rw [String.toList_ofList]
    exact .of_token ⟨_, rfl, .inr (.more (.of_token rfl)
      (.one ⟨[], _, [' '], Json.blanks_nil, rfl, blank, rfl⟩))⟩
  have among' : Among ParamSpec.reader bracketedObject
      (String.ofList (before ++ (bracketedObject ++ [']']))) [{ name := "q" }] [] := by
    refine .mk ?_ (.cons (ParamSpec.accepts_form (.compact _)) .nil) .nil
    rw [String.toList_ofList]
    exact .of_token ⟨_, rfl, .inr (.more (.of_token rfl) (.one (.of_token rfl)))⟩
  obtain ⟨s, decoded, sName, sDefault⟩ := default _ _ _ _ _ among' holds'
  refine ⟨?_, ?_, s, decoded, sName, ?_⟩
  · rw [← kept]
    exact alone _ ⟨['\t'], _, ['\n'], blank'.1, rfl, blank'.2, rfl⟩
  · rw [← kept]
    exact value _ _ _ _ _ among holds
  · rw [sDefault, if_neg (by decide), kept]

end PipelineParams
