import Mathlib.Data.List.Forall2
import PipelineParams.Proofs.Json.Numeral
import PipelineParams.Proofs.Json.Skipping

/-! # Well-formed tokens

`Token` is the grammar of a value of any type: a word, a number, a string, a list or an object, nested
to any depth, with white space wherever two tokens meet.

* `skips_token` — every token is stepped over as a whole, so its spelling is kept as it is
  (`Token.accepts_token`), wherever it stands in a document.
* `eq_of_token_append` — what a token is can be told from where it starts: two tokens at the front of
  one text are the same.
* `Separated.forall₂` — therefore a list or an object is cut into its members in one way only, even
  if its members are described by two different grammars.

The members of a token are given by their spelling (`ListOf Eq`, `Braced SpelledString Eq`), and that
each of them is a token again is a premise of its own.  An induction over a token then has the
statement for every member, whatever stands between them.
-/

namespace PipelineParams.Json

variable {α β : Type} {tok rest : List Char}

/-! ## Grammar -/

def SpelledString (tok key : List Char) : Prop := tok = key ∧ StringToken key

inductive Token : List Char → Prop
  | word {tok : List Char} : tok ∈ ["null".toList, "true".toList, "false".toList] → Token tok
  | number {tok : List Char} : Numeral tok → Token tok
  | string {tok : List Char} : StringToken tok → Token tok
  | list {tok : List Char} {items : List (List Char)} :
      ListOf Eq tok items → (∀ item ∈ items, Token item) → Token tok
  | object {tok : List Char} {members : List (List Char × List Char)} :
      Braced SpelledString Eq tok members → (∀ e ∈ members, Token e.2) → Token tok

def Spelling (tok raw : List Char) : Prop := tok = raw ∧ Token raw

theorem token_of_spelling (tok raw : List Char) (spelling : Spelling tok raw) : Token tok :=
  spelling.1 ▸ spelling.2

theorem token_of_literal (tok : List Char) (text : String) (literal : Literal tok text) : Token tok :=
  .string (.of_literal literal)

theorem string_of_spelledString (tok key : List Char) (spelled : SpelledString tok key) :
    StringToken tok :=
  spelled.1 ▸ spelled.2

theorem Token.exists_head (token : Token tok) :
    ∃ c cs, tok = c :: cs ∧ isBlank c = false ∧ c ≠ ']' := by
  cases token with
  | word listed =>
    simp only [List.mem_cons, List.not_mem_nil, or_false] at listed
    rcases listed with rfl | rfl | rfl
    · exact ⟨'n', _, rfl, by decide, by decide⟩
    · exact ⟨'t', _, rfl, by decide, by decide⟩
    · exact ⟨'f', _, rfl, by decide, by decide⟩
  | number numeral =>
    obtain ⟨c, cs, rfl, rfl | digit⟩ := numeral.exists_head
    · exact ⟨'-', cs, rfl, by decide, by decide⟩
    · refine ⟨c, cs, rfl, isBlank_of_isDigit c digit, ?_⟩
      rintro rfl
      cases digit
  | string form =>
    obtain ⟨body, rfl, -⟩ := form
    exact ⟨'"', _, rfl, by decide, by decide⟩
  | list listed _ => exact solid_listOf listed
  | object object _ =>
    obtain ⟨inner, rfl, -⟩ := object
    exact ⟨'\x7b', _, rfl, by decide, by decide⟩

/-- Nothing but `null` starts with an `n`. -/
theorem Token.eq_null {cs : List Char} (token : Token ('n' :: cs)) : 'n' :: cs = "null".toList := by
  generalize same : 'n' :: cs = tok at token
  cases token with
  | word listed =>
    subst same
    simpa using listed
  | number numeral =>
    obtain ⟨c, ds, rfl, start⟩ := numeral.exists_head
    obtain ⟨rfl, -⟩ := List.cons.inj same
    exact absurd start (by decide)
  | string form =>
    obtain ⟨body, rfl, -⟩ := form
    cases same
  | list listed _ =>
    obtain ⟨inner, rfl, -⟩ := listed
    cases same
  | object braced _ =>
    obtain ⟨inner, rfl, -⟩ := braced
    cases same

/-! ## Members by other grammars -/

theorem Separated.imp_of_mem {P Q : List Char → α → Prop} {inner : List Char} {as : List α}
    (separated : Separated P inner as) (imp : ∀ a ∈ as, ∀ {cs}, P cs a → Q cs a) :
    Separated Q inner as := by
  induction separated with
  | one member => exact .one (imp _ List.mem_cons_self member)
  | more member _ ih =>
    exact .more (imp _ List.mem_cons_self member)
      (ih fun a later => imp a (List.mem_cons_of_mem _ later))

theorem ListOf.imp_of_mem {P Q : List Char → α → Prop} {as : List α} (listed : ListOf P tok as)
    (imp : ∀ a ∈ as, ∀ {tok}, P tok a → Q tok a) : ListOf Q tok as := by
  obtain ⟨inner, rfl, members⟩ := listed
  exact ⟨inner, rfl, members.imp_right fun separated =>
    separated.imp_of_mem fun a member _ padded => padded.imp (imp a member)⟩

theorem Braced.imp_of_mem {κ : Type} {K : List Char → κ → Prop} {P Q : List Char → α → Prop}
    {members : List (κ × α)} (braced : Braced K P tok members)
    (imp : ∀ e ∈ members, ∀ {tok}, P tok e.2 → Q tok e.2) : Braced K Q tok members := by
  obtain ⟨inner, rfl, split⟩ := braced
  refine ⟨inner, rfl, split.imp_right fun separated => separated.imp_of_mem fun e member _ => ?_⟩
  rintro ⟨key, value, label, padded, rfl⟩
  exact ⟨key, value, label, padded.imp (imp e member), rfl⟩

theorem Separated.exists_of_mem {P : List Char → α → Prop} {inner : List Char} {as : List α}
    (separated : Separated P inner as) {a : α} (mem : a ∈ as) : ∃ cs, P cs a := by
  induction separated with
  | one member =>
    obtain rfl := List.mem_singleton.1 mem
    exact ⟨_, member⟩
  | more member _ ih =>
    rcases List.mem_cons.1 mem with rfl | later
    · exact ⟨_, member⟩
    · exact ih later

theorem ListOf.token_of_mem {item : List Char} {items : List (List Char)}
    (listed : ListOf Spelling tok items) (mem : item ∈ items) : Token item := by
  obtain ⟨inner, -, ⟨-, rfl⟩ | separated⟩ := listed
  · cases mem
  · obtain ⟨_, _, _, _, _, spelling, _⟩ := separated.exists_of_mem mem
    exact spelling.2

/-- The items of a list are tokens, however it is put together. -/
theorem Token.of_spellings {items : List (List Char)} (listed : ListOf Spelling tok items) :
    Token tok :=
  .list (listed.imp_of_mem fun _ _ _ => And.left) fun _ mem => listed.token_of_mem mem

theorem Token.of_labelled_spellings {members : List (List Char × List Char)}
    (braced : Braced SpelledString Spelling tok members) : Token tok := by
  refine .object (braced.imp_of_mem fun _ _ _ => And.left) fun e mem => ?_
  obtain ⟨inner, -, ⟨-, rfl⟩ | separated⟩ := braced
  · cases mem
  · obtain ⟨_, _, _, _, ⟨_, _, _, _, spelling, _⟩, _⟩ := separated.exists_of_mem mem
    exact spelling.2

theorem Separated.of_forall₂ {P : List Char → α → Prop} {Q : List Char → β → Prop} {R : α → β → Prop}
    (imp : ∀ cs a b, R a b → P cs a → Q cs b) {inner : List Char} {as : List α} {bs : List β}
    (separated : Separated P inner as) (related : List.Forall₂ R as bs) : Separated Q inner bs := by
  induction separated generalizing bs with
  | one member =>
    obtain - | ⟨here, none⟩ := related
    cases none
    exact .one (imp _ _ _ here member)
  | more member _ ih =>
    obtain - | ⟨here, later⟩ := related
    exact .more (imp _ _ _ here member) (ih later)

theorem Separated.exists_forall₂ {P : List Char → α → Prop} (tokens : ∀ tok a, P tok a → Token tok)
    {inner : List Char} {as : List α} (separated : Separated (Padded P) inner as) :
    ∃ items, Separated (Padded Spelling) inner items ∧ List.Forall₂ P items as := by
  induction separated with
  | one padded =>
    obtain ⟨before, tok, after, blank, denotes, blank', rfl⟩ := padded
    exact ⟨[tok], .one ⟨before, tok, after, blank, ⟨rfl, tokens _ _ denotes⟩, blank', rfl⟩,
      .cons denotes .nil⟩
  | more padded _ ih =>
    obtain ⟨before, tok, after, blank, denotes, blank', rfl⟩ := padded
    obtain ⟨items, separated, denote⟩ := ih
    exact ⟨tok :: items,
      .more ⟨before, tok, after, blank, ⟨rfl, tokens _ _ denotes⟩, blank', rfl⟩ separated,
      .cons denotes denote⟩

/-- What a list denotes comes from tokens. -/
theorem ListOf.exists_forall₂ {P : List Char → α → Prop} (tokens : ∀ tok a, P tok a → Token tok)
    {as : List α} (listed : ListOf P tok as) :
    ∃ items, ListOf Spelling tok items ∧ List.Forall₂ P items as := by
  obtain ⟨inner, rfl, ⟨blank, rfl⟩ | separated⟩ := listed
  · exact ⟨[], ⟨inner, rfl, .inl ⟨blank, rfl⟩⟩, .nil⟩
  · obtain ⟨items, separated, denote⟩ := separated.exists_forall₂ tokens
    exact ⟨items, ⟨inner, rfl, .inr separated⟩, denote⟩

/-- A list of tokens is a list of what each of them denotes. -/
theorem ListOf.of_forall₂ {P : List Char → α → Prop} {toks : List (List Char)} {as : List α}
    (listed : ListOf Eq tok toks) (denote : List.Forall₂ P toks as) : ListOf P tok as := by
  obtain ⟨inner, rfl, ⟨blank, rfl⟩ | separated⟩ := listed
  · cases denote
    exact ⟨inner, rfl, .inl ⟨blank, rfl⟩⟩
  · have imp : ∀ cs item a, P item a → Padded Eq cs item → Padded P cs a := by
      intro cs item a denotes padded
      refine padded.imp ?_
      rintro _ rfl
      exact denotes
    exact ⟨inner, rfl, .inr (separated.of_forall₂ imp denote)⟩

/-! ## Stepping over -/

theorem skipScalar_word (listed : tok ∈ ["null".toList, "true".toList, "false".toList]) :
    skipScalar (tok ++ rest) = .ok rest := by
  simp only [List.mem_cons, List.not_mem_nil, or_false] at listed
  rcases listed with rfl | rfl | rfl
  · exact skipLetters_eq_ok_iff.2 rfl
  · exact skipLetters_eq_ok_iff.2 rfl
  · exact skipLetters_eq_ok_iff.2 rfl

theorem skipScalar_numeral (numeral : Numeral tok) (ends : Ends rest) :
    skipScalar (tok ++ rest) = .ok rest := by
  have skipped := skipNumber_numeral numeral ends
  obtain ⟨c, cs, rfl, start⟩ := numeral.exists_head
  have other : c ≠ 'n' ∧ c ≠ 't' ∧ c ≠ 'f' ∧ c ≠ '"' := by
    rcases start with rfl | digit
    · decide
    · refine ⟨?_, ?_, ?_, ?_⟩ <;> rintro rfl <;> cases digit
  obtain ⟨notN, notT, notF, notQuote⟩ := other
  rw [List.cons_append, skipScalar, if_neg notN, if_neg notT, if_neg notF, if_neg notQuote,
    if_pos start]
  exact skipped

theorem skips_token : Skips fun tok (_ : Unit) => Token tok := by
  intro tok _ token
  induction token with
  | @word tok listed =>
    intro stack cs rest _ head
    have scalar : skipScalar (tok ++ rest) = .ok rest := skipScalar_word listed
    simp only [List.mem_cons, List.not_mem_nil, or_false] at listed
    rcases listed with rfl | rfl | rfl
    · exact skipFrom_value_scalar head (by decide) (by decide) scalar
    · exact skipFrom_value_scalar head (by decide) (by decide) scalar
    · exact skipFrom_value_scalar head (by decide) (by decide) scalar
  | @number tok numeral =>
    intro stack cs rest ends head
    have scalar := skipScalar_numeral numeral ends
    obtain ⟨c, tail, rfl, start⟩ := numeral.exists_head
    have open' : c ≠ '[' ∧ c ≠ '\x7b' := by
      rcases start with rfl | digit
      · decide
      · constructor <;> rintro rfl <;> cases digit
    exact skipFrom_value_scalar head open'.1 open'.2 scalar
  | string form => exact skips_string (a := ()) form
  | @list tok items listed tokens ih =>
    let P (tok item : List Char) := tok = item ∧ item ∈ items
    have solid : Solid P := by
      rintro tok item ⟨rfl, member⟩
      exact (tokens tok member).exists_head
    have skips : Skips P := by
      rintro tok item ⟨rfl, member⟩
      exact ih tok member
    have listed' : ListOf P tok items :=
      listed.imp_of_mem fun item member _ same => ⟨same, member⟩
    intro stack cs rest ends head
    exact skips_listOf solid skips listed' ends head
  | @object tok members braced tokens ih =>
    let P (tok value : List Char) := tok = value ∧ ∃ e ∈ members, e.2 = value
    have solid : Solid P := by
      rintro tok value ⟨rfl, e, member, rfl⟩
      exact (tokens e member).exists_head
    have skips : Skips P := by
      rintro tok value ⟨rfl, e, member, rfl⟩
      exact ih e member
    have braced' : Braced SpelledString P tok members :=
      braced.imp_of_mem fun e member _ same => ⟨same, e, member, rfl⟩
    intro stack cs rest ends head
    exact skips_braced string_of_spelledString solid skips braced' ends head

theorem skipValue_token (token : Token tok) (ends : Ends rest) :
    skipValue (tok ++ rest) = .ok rest := by
  obtain ⟨c, cs, rfl, solid, -⟩ := token.exists_head
  exact (skips_token (a := ()) token ends (dropBlank_cons solid _)).trans skipFrom_ended_nil

/-- The spelling of a token is kept as it is. -/
theorem Token.accepts_token (token : Token tok) : Accepts Json.token tok (String.ofList tok) where
  run_eq ends head := run_token_of_skipValue
    ((skips_token (a := ()) token ends head).trans skipFrom_ended_nil) head
  solid := token.exists_head

theorem Token.accepts_ignored (token : Token tok) : Accepts ignored tok () where
  run_eq {cs rest} ends head := by
    have skipped : skipValue cs = .ok rest :=
      (skips_token (a := ()) token ends head).trans skipFrom_ended_nil
    rw [ignored]
    dsimp only
    rw [skipped]
  solid := token.exists_head

/-! ## Cutting a text into tokens -/

/-- Two tokens at the front of one text are the same. -/
theorem eq_of_token_append {tok' rest' : List Char} (token : Token tok) (token' : Token tok')
    (ends : Ends rest) (ends' : Ends rest') (same : tok ++ rest = tok' ++ rest') :
    tok = tok' ∧ rest = rest' := by
  have skipped := skipValue_token token ends
  rw [same, skipValue_token token' ends', Except.ok.injEq] at skipped
  rw [skipped] at same
  exact ⟨List.append_cancel_right same, skipped.symm⟩

theorem eq_of_string_append {tok' rest' : List Char} (form : StringToken tok)
    (form' : StringToken tok') (same : tok ++ rest = tok' ++ rest') :
    tok = tok' ∧ rest = rest' := by
  obtain ⟨behind, quote, skipped⟩ := form.exists_skipString rest
  obtain ⟨behind', quote', skipped'⟩ := form'.exists_skipString rest'
  obtain ⟨-, rfl⟩ := List.cons.inj (quote.symm.trans (same.trans quote'))
  obtain rfl := Except.ok.inj (skipped.symm.trans skipped')
  exact ⟨List.append_cancel_right same, rfl⟩

def Stops (b : Bracket) (rest : List Char) : Prop :=
  ∃ c tail, rest = c :: tail ∧ (c = ',' ∨ c = b.closer)

theorem stops_comma (b : Bracket) (rest : List Char) : Stops b (',' :: rest) :=
  ⟨',', rest, rfl, .inl rfl⟩

theorem stops_closer (b : Bracket) (rest : List Char) : Stops b (b.closer :: rest) :=
  ⟨b.closer, rest, rfl, .inr rfl⟩

theorem Stops.ends {b : Bracket} (stops : Stops b rest) : Ends rest := by
  obtain ⟨c, tail, rfl, rfl | rfl⟩ := stops
  · exact ends_comma tail
  · exact b.ends_closer tail

theorem Stops.dropBlank_eq {b : Bracket} (stops : Stops b rest) : dropBlank isBlank rest = rest := by
  obtain ⟨c, tail, rfl, rfl | rfl⟩ := stops
  · exact dropBlank_cons (by decide) tail
  · exact dropBlank_cons (by cases b <;> decide) tail

section

variable {P : List Char → α → Prop} {Q : List Char → β → Prop} {R : α → β → Prop} {b : Bracket}
  {inner inner' rest rest' : List Char} {as : List α} {bs : List β}

/-- Two ways to cut a text into members cut it at the same places. -/
theorem Separated.forall₂
    (cut : ∀ {cs ds x y rest rest'}, P cs x → Q ds y → Stops b rest → Stops b rest' →
      cs ++ rest = ds ++ rest' → R x y ∧ rest = rest')
    (first : Separated P inner as) (second : Separated Q inner' bs)
    (same : inner ++ b.closer :: rest = inner' ++ b.closer :: rest') : List.Forall₂ R as bs := by
  induction first generalizing inner' bs with
  | one member =>
    cases second with
    | one member' =>
      exact .cons (cut member member' (stops_closer b _) (stops_closer b _) same).1 .nil
    | more member' _ =>
      rw [List.append_assoc, List.cons_append] at same
      obtain ⟨-, behind⟩ := cut member member' (stops_closer b _) (stops_comma b _) same
      exact absurd (List.cons.inj behind).1 b.closer_ne_comma
  | more member _ ih =>
    rw [List.append_assoc, List.cons_append] at same
    cases second with
    | one member' =>
      obtain ⟨-, behind⟩ := cut member member' (stops_comma b _) (stops_closer b _) same
      exact absurd (List.cons.inj behind).1.symm b.closer_ne_comma
    | more member' later =>
      rw [List.append_assoc, List.cons_append] at same
      obtain ⟨related, behind⟩ := cut member member' (stops_comma b _) (stops_comma b _) same
      exact .cons related (ih later (List.cons.inj behind).2)

/-- There is nothing but white space between two brackets, or there are members. -/
theorem not_blanks_of_separated
    (heads : ∀ {cs a} rest, P cs a →
      ∃ d tail, dropBlank isBlank (cs ++ rest) = d :: tail ∧ d ≠ b.closer)
    (separated : Separated P inner as) (blank : Blanks inner')
    (same : inner ++ b.closer :: rest = inner' ++ b.closer :: rest') : False := by
  obtain ⟨d, tail, head, open'⟩ := separated.exists_head heads (b.closer :: rest)
  rw [same, dropBlank_append blank, (stops_closer b rest').dropBlank_eq] at head
  exact open' (List.cons.inj head).1.symm

theorem forall₂_of_members
    (heads : ∀ {cs a} rest, P cs a →
      ∃ d tail, dropBlank isBlank (cs ++ rest) = d :: tail ∧ d ≠ b.closer)
    (heads' : ∀ {cs a} rest, Q cs a →
      ∃ d tail, dropBlank isBlank (cs ++ rest) = d :: tail ∧ d ≠ b.closer)
    (cut : ∀ {cs ds x y rest rest'}, P cs x → Q ds y → Stops b rest → Stops b rest' →
      cs ++ rest = ds ++ rest' → R x y ∧ rest = rest')
    (members : Blanks inner ∧ as = [] ∨ Separated P inner as)
    (members' : Blanks inner' ∧ bs = [] ∨ Separated Q inner' bs)
    (same : inner ++ b.closer :: rest = inner' ++ b.closer :: rest') : List.Forall₂ R as bs := by
  rcases members with ⟨blank, rfl⟩ | separated
  · rcases members' with ⟨-, rfl⟩ | separated'
    · exact .nil
    · exact (not_blanks_of_separated heads' separated' blank same.symm).elim
  · rcases members' with ⟨blank', rfl⟩ | separated'
    · exact (not_blanks_of_separated heads separated blank' same).elim
    · exact separated.forall₂ cut separated' same

variable (tokens : ∀ tok a, P tok a → Token tok) (tokens' : ∀ tok a, Q tok a → Token tok)
include tokens tokens'

theorem Padded.cut {cs ds : List Char} {x : α} {y : β} (padded : Padded P cs x)
    (padded' : Padded Q ds y) (stops : Stops b rest) (stops' : Stops b rest')
    (same : cs ++ rest = ds ++ rest') : (∃ tok, P tok x ∧ Q tok y) ∧ rest = rest' := by
  have solid : Solid P := fun token => (tokens _ _ token).exists_head
  have solid' : Solid Q := fun token => (tokens' _ _ token).exists_head
  obtain ⟨tok, after, token, blank, head⟩ := padded.exists_dropBlank solid rest
  obtain ⟨tok', after', token', blank', head'⟩ := padded'.exists_dropBlank solid' rest'
  rw [same, head'] at head
  obtain ⟨rfl, behind⟩ := eq_of_token_append (tokens' _ _ token') (tokens _ _ token)
    (stops'.ends.blanks_append blank') (stops.ends.blanks_append blank) head
  -- the white space behind the token may be divided up, but not what follows it
  have behind' := congrArg (dropBlank isBlank) behind
  rw [dropBlank_append blank, dropBlank_append blank', stops.dropBlank_eq, stops'.dropBlank_eq]
    at behind'
  exact ⟨⟨tok', token, token'⟩, behind'.symm⟩

theorem ListOf.forall₂ {tok tok' : List Char} (listed : ListOf P tok as)
    (listed' : ListOf Q tok' bs) (same : tok ++ rest = tok' ++ rest') :
    List.Forall₂ (fun x y => ∃ tok, P tok x ∧ Q tok y) as bs := by
  obtain ⟨inner, rfl, members⟩ := listed
  obtain ⟨inner', rfl, members'⟩ := listed'
  have solid : Solid P := fun token => (tokens _ _ token).exists_head
  have solid' : Solid Q := fun token => (tokens' _ _ token).exists_head
  have within : inner ++ ']' :: rest = inner' ++ ']' :: rest' := by simpa using same
  exact forall₂_of_members (b := .list) (fun rest padded => padded.exists_head solid rest)
    (fun rest padded => padded.exists_head solid' rest)
    (fun padded padded' => padded.cut tokens tokens' padded') members members' within

variable {κ κ' : Type} {K : List Char → κ → Prop} {L : List Char → κ' → Prop}
  (strings : ∀ tok k, K tok k → StringToken tok) (strings' : ∀ tok k, L tok k → StringToken tok)
include strings strings'

theorem Labelled.cut {cs ds : List Char} {x : κ × α} {y : κ' × β} (member : Labelled K P cs x)
    (member' : Labelled L Q ds y) (stops : Stops b rest) (stops' : Stops b rest')
    (same : cs ++ rest = ds ++ rest') :
    ((∃ tok, K tok x.1 ∧ L tok y.1) ∧ ∃ tok, P tok x.2 ∧ Q tok y.2) ∧ rest = rest' := by
  obtain ⟨key, value, label, padded, rfl⟩ := member
  obtain ⟨key', value', label', padded', rfl⟩ := member'
  rw [List.append_assoc, List.append_assoc] at same
  have solid : Solid K := solid_of_strings strings
  have solid' : Solid L := solid_of_strings strings'
  obtain ⟨tok, after, token, blank, head⟩ := label.exists_dropBlank solid (':' :: value ++ rest)
  obtain ⟨tok', after', token', blank', head'⟩ :=
    label'.exists_dropBlank solid' (':' :: value' ++ rest')
  rw [same, head'] at head
  obtain ⟨rfl, behind⟩ := eq_of_string_append (strings' _ _ token') (strings _ _ token) head
  have colon := congrArg (dropBlank isBlank) behind
  rw [dropBlank_append blank, dropBlank_append blank', List.cons_append, List.cons_append,
    dropBlank_cons (by decide), dropBlank_cons (by decide)] at colon
  obtain ⟨values, behind⟩ :=
    padded.cut tokens tokens' padded' stops stops' (List.cons.inj colon).2.symm
  exact ⟨⟨⟨tok', token, token'⟩, values⟩, behind⟩

theorem Braced.forall₂ {tok tok' : List Char} {es : List (κ × α)} {ds : List (κ' × β)}
    (braced : Braced K P tok es) (braced' : Braced L Q tok' ds)
    (same : tok ++ rest = tok' ++ rest') :
    List.Forall₂ (fun x y => (∃ tok, K tok x.1 ∧ L tok y.1) ∧ ∃ tok, P tok x.2 ∧ Q tok y.2)
      es ds := by
  obtain ⟨inner, rfl, members⟩ := braced
  obtain ⟨inner', rfl, members'⟩ := braced'
  have within : inner ++ '\x7d' :: rest = inner' ++ '\x7d' :: rest' := by simpa using same
  exact forall₂_of_members (b := .object) (fun rest member => member.exists_head strings rest)
    (fun rest member => member.exists_head strings' rest)
    (fun member member' => member.cut tokens tokens' strings strings' member')
    members members' within

end

end PipelineParams.Json
