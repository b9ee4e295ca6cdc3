import Mathlib.Data.List.Forall2
import PipelineParams.Proofs.Json.Token
import PipelineParams.Proofs.Value.Agreement

/-! # Tokens that are kept as they are spelled

A number, a word for a truth value, and a list or an object that holds anything but strings: none of
them spells a value out, so `ofRaw` keeps their spelling (`ofRaw_of_verbatim`).

For lists and objects this is not a matter of how they start.  A list that spells a value out is cut
into strings, and `Verbatim` cuts it into tokens of which one is no string; that both cuts are the same
(`ListOf.forall₂`, `Braced.forall₂`) rules this out.
-/

namespace PipelineParams.ParamValue

open Json

variable {tok : List Char}

/-- A token that does not spell a value out. -/
inductive Verbatim : List Char → Prop
  | number {tok : List Char} : Numeral tok → Verbatim tok
  | truth {tok : List Char} : tok ∈ ["true".toList, "false".toList] → Verbatim tok
  | list {tok item : List Char} {items : List (List Char)} :
      ListOf Spelling tok items → item ∈ items → ¬ StringToken item → Verbatim tok
  | object {tok : List Char} {members : List (List Char × List Char)} {e : List Char × List Char} :
      Braced SpelledString Spelling tok members → e ∈ members → ¬ StringToken e.2 → Verbatim tok

/-! ## Lists and objects -/

/-- The items of a list of strings are strings, however the list is cut into items. -/
theorem stringToken_of_listOf {tok' after item : List Char} {items : List (List Char)}
    {texts : List String} (listed : ListOf Spelling tok items) (strings : ListOf Literal tok' texts)
    (same : tok = tok' ++ after) (member : item ∈ items) : StringToken item := by
  have cuts := listed.forall₂ token_of_spelling token_of_literal strings
    ((List.append_nil tok).trans same)
  have strings' : List.Forall₂ (fun item _ => StringToken item ∧ True) items texts := by
    refine cuts.imp ?_
    rintro _ _ ⟨_, ⟨rfl, -⟩, literal⟩
    exact ⟨.of_literal literal, trivial⟩
  exact ((List.forall₂_and_left _ _).1 strings').1 item member

theorem stringToken_of_membersOf {tok' after : List Char} {e : List Char × List Char}
    {members : List (List Char × List Char)} {texts : List (String × String)}
    (braced : Braced SpelledString Spelling tok members) (strings : MembersOf Literal tok' texts)
    (same : tok = tok' ++ after) (member : e ∈ members) : StringToken e.2 := by
  have cuts := Braced.forall₂ token_of_spelling token_of_literal string_of_spelledString
    (fun _ _ => StringToken.of_literal) braced strings ((List.append_nil tok).trans same)
  have strings' : List.Forall₂ (fun e _ => StringToken e.2 ∧ True) members texts := by
    refine cuts.imp ?_
    rintro e _ ⟨-, _, ⟨rfl, -⟩, literal⟩
    exact ⟨.of_literal literal, trivial⟩
  exact ((List.forall₂_and_left _ _).1 strings').1 e member

/-! ## Spelled values -/

theorem exists_head_of_plain
    (plain : Numeral tok ∨ tok ∈ ["true".toList, "false".toList]) :
    ∃ c cs, tok = c :: cs ∧ c ∉ ['[', '\x7b', 'n', '"'] := by
  rcases plain with numeral | listed
  · obtain ⟨c, cs, rfl, rfl | digit⟩ := numeral.exists_head
    · exact ⟨'-', cs, rfl, by decide⟩
    · refine ⟨c, cs, rfl, fun listed => ?_⟩
      simp only [List.mem_cons, List.not_mem_nil, or_false] at listed
      rcases listed with rfl | rfl | rfl | rfl <;> cases digit
  · simp only [List.mem_cons, List.not_mem_nil, or_false] at listed
    rcases listed with rfl | rfl
    · exact ⟨'t', _, rfl, by decide⟩
    · exact ⟨'f', _, rfl, by decide⟩

theorem Verbatim.cases_start (verbatim : Verbatim tok) :
    (∃ c cs, tok = c :: cs ∧ c ∉ ['[', '\x7b', 'n', '"']) ∨
      (∃ items, ListOf Spelling tok items ∧ ∃ item ∈ items, ¬ StringToken item) ∨
      ∃ members, Braced SpelledString Spelling tok members ∧ ∃ e ∈ members, ¬ StringToken e.2 := by
  cases verbatim with
  | number numeral => exact .inl (exists_head_of_plain (.inl numeral))
  | truth listed => exact .inl (exists_head_of_plain (.inr listed))
  | list listed member other => exact .inr (.inl ⟨_, listed, _, member, other⟩)
  | object braced member other => exact .inr (.inr ⟨_, braced, _, member, other⟩)

section

variable {tok' after : List Char}

theorem Verbatim.not_listOf (verbatim : Verbatim tok) {texts : List String}
    (strings : ListOf Literal tok' texts) (same : tok = tok' ++ after) : False := by
  rcases verbatim.cases_start with ⟨c, cs, rfl, other⟩ | ⟨items, listed, item, member, other⟩ |
    ⟨members, ⟨inner, rfl, -⟩, -⟩
  · obtain ⟨inner, rfl, -⟩ := strings
    obtain ⟨rfl, -⟩ := List.cons.inj same
    exact other (by decide)
  · exact other (stringToken_of_listOf listed strings same member)
  · obtain ⟨inner', rfl, -⟩ := strings
    cases (List.cons.inj same).1

theorem Verbatim.not_membersOf (verbatim : Verbatim tok) {texts : List (String × String)}
    (strings : MembersOf Literal tok' texts) (same : tok = tok' ++ after) : False := by
  rcases verbatim.cases_start with ⟨c, cs, rfl, other⟩ | ⟨items, ⟨inner, rfl, -⟩, -⟩ |
    ⟨members, braced, e, member, other⟩
  · obtain ⟨inner, rfl, -⟩ := strings
    obtain ⟨rfl, -⟩ := List.cons.inj same
    exact other (by decide)
  · obtain ⟨inner', rfl, -⟩ := strings
    cases (List.cons.inj same).1
  · exact other (stringToken_of_membersOf braced strings same member)

theorem Verbatim.not_orNull (verbatim : Verbatim tok) {text? : Option String}
    (scalar : OrNull Literal tok' text?) (same : tok = tok' ++ after) : False := by
  have start : ∃ c cs, tok = c :: cs ∧ (c = 'n' ∨ c = '"') := by
    cases text? with
    | none => exact ⟨'n', _, same.trans (congrArg (· ++ after) scalar), .inl rfl⟩
    | some text =>
      obtain ⟨body, rfl⟩ := Literal.exists_quote scalar
      exact ⟨'"', _, same, .inr rfl⟩
  obtain ⟨c, cs, rfl, start⟩ := start
  rcases verbatim.cases_start with ⟨d, ds, same', other⟩ | ⟨items, ⟨inner, same', -⟩, -⟩ |
    ⟨members, ⟨inner, same', -⟩, -⟩
  · obtain ⟨rfl, -⟩ := List.cons.inj same'
    rcases start with rfl | rfl <;> exact other (by decide)
  · rcases start with rfl | rfl <;> cases (List.cons.inj same').1
  · rcases start with rfl | rfl <;> cases (List.cons.inj same').1

end

theorem Verbatim.token (verbatim : Verbatim tok) : Token tok := by
  cases verbatim with
  | number numeral => exact .number numeral
  | truth listed => exact .word (List.mem_cons_of_mem _ listed)
  | list listed _ _ => exact .of_spellings listed
  | object braced _ _ => exact .of_labelled_spellings braced

theorem Verbatim.not_spelled (verbatim : Verbatim tok) (v : ParamValue) : ¬ Spelled tok v := by
  obtain ⟨c, cs, start, solid, -⟩ := verbatim.token.exists_head
  have front : dropBlank isBlank tok = tok := by rw [start, dropBlank_cons solid]
  intro spelled
  cases spelled with
  | array padded =>
    obtain ⟨tok', after, strings, -, head⟩ :=
      padded.exists_dropBlank (reads_list reads_string).solid []
    rw [List.append_nil, front] at head
    exact verbatim.not_listOf strings head
  | object padded =>
    obtain ⟨tok', after, mapped, -, head⟩ :=
      padded.exists_dropBlank (reads_mapOf reads_string).solid []
    rw [List.append_nil, front] at head
    obtain ⟨texts, strings, -⟩ := mapOf_iff_ofList.1 mapped
    exact verbatim.not_membersOf strings head
  | scalar padded =>
    obtain ⟨tok', after, scalar, -, head⟩ := padded.exists_dropBlank reads_optional_string.solid []
    rw [List.append_nil, front] at head
    exact verbatim.not_orNull scalar head

/-- Such a token is kept as it is spelled. -/
theorem ofRaw_of_verbatim (verbatim : Verbatim tok) :
    ofRaw (String.ofList tok) = .string (String.ofList tok) := by
  obtain ⟨c, tail, head, solid⟩ :=
    exists_head_of_skipValue (skipValue_token verbatim.token ends_nil)
  have member : c ∈ tok := by
    rw [List.append_nil] at head
    apply (List.dropWhile_sublist Json.isBlank).subset
    rw [← dropBlank, head]
    exact List.mem_cons_self
  apply ofRaw_eq_self (c := c) _ _ solid
  · rw [String.toList_ofList]
    exact verbatim.not_spelled
  · rwa [String.toList_ofList]

end PipelineParams.ParamValue
