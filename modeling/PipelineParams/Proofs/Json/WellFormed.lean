import Mathlib.Data.List.DropRight
import PipelineParams.Proofs.Json.Token

/-! # What is stepped over is well formed

The skipper keeps nothing of a value but the brackets that are open.  Still every text that it steps
over is a token (`skipValue_sound`), so a spelling that is kept is one, without white space around it
(`run_token_eq_ok_iff`, `trim_of_read_token`), and what can be kept of a document at all is exactly
what is `WellFormed`, one token with white space around it (`exists_read_token_iff`).

The one induction is `skipFrom_sound`, along the run of the skipper.  While it is inside brackets it
has seen the front of some tokens only, and the run says what comes behind: `Closes stack` describes
the text from the end of a value to the end of the outermost one, bracket by bracket.  A value that has
been stepped over is put in front of what is left in its bracket (`Later`), and so the bracket gets its
interior (`Interior`) from the last member to the first.
-/

namespace PipelineParams.Json

variable {α β : Type} {P : List Char → α → Prop} {b : Bracket}
  {cs rest tok inner more before label : List Char}

/-! ## Inside a bracket -/

def Member : Bracket → List Char → Unit → Prop
  | .list, cs, _ => ∃ item, Padded Spelling cs item
  | .object, cs, _ => ∃ e, Labelled SpelledString Spelling cs e

def Bracket.opener : Bracket → Char
  | .list => '['
  | .object => '\x7b'

def Interior (b : Bracket) (inner : List Char) : Prop :=
  Blanks inner ∨ ∃ members, Separated (Member b) inner members

def Later (b : Bracket) (more : List Char) : Prop :=
  Blanks more ∨ ∃ blanks inner members, Blanks blanks ∧ Separated (Member b) inner members ∧
    more = blanks ++ ',' :: inner

theorem Separated.exists_imp {Q : List Char → β → Prop} {as : List α}
    (imp : ∀ {cs a}, P cs a → ∃ b, Q cs b) (separated : Separated P inner as) :
    ∃ bs, Separated Q inner bs := by
  induction separated with
  | one member =>
    obtain ⟨b, member'⟩ := imp member
    exact ⟨[b], .one member'⟩
  | more member _ ih =>
    obtain ⟨b, member'⟩ := imp member
    obtain ⟨bs, separated⟩ := ih
    exact ⟨b :: bs, .more member' separated⟩

theorem Interior.token (interior : Interior b inner) : Token (b.opener :: (inner ++ [b.closer])) := by
  cases b with
  | list =>
    rcases interior with blank | ⟨members, separated⟩
    · exact .of_spellings ⟨inner, rfl, .inl ⟨blank, rfl⟩⟩
    · obtain ⟨items, separated⟩ := separated.exists_imp fun member => member
      exact .of_spellings ⟨inner, rfl, .inr separated⟩
  | object =>
    rcases interior with blank | ⟨members, separated⟩
    · exact .of_labelled_spellings ⟨inner, rfl, .inl ⟨blank, rfl⟩⟩
    · obtain ⟨members, separated⟩ := separated.exists_imp fun member => member
      exact .of_labelled_spellings ⟨inner, rfl, .inr separated⟩

theorem Interior.exists_token (interior : Interior b inner)
    (head : dropBlank isBlank cs = b.opener :: (inner ++ b.closer :: rest)) :
    ∃ tok, Token tok ∧ dropBlank isBlank cs = tok ++ rest :=
  ⟨_, interior.token, by simp [head]⟩

def Label : Bracket → List Char → Prop
  | .list, label => label = []
  | .object, label => ∃ key k, Padded SpelledString key k ∧ label = key ++ [':']

theorem Label.member {after : List Char} (labelled : Label b label) (blank : Blanks before)
    (token : Token tok) (blank' : Blanks after) :
    Member b (label ++ (before ++ (tok ++ after))) () := by
  have padded : Padded Spelling (before ++ (tok ++ after)) tok :=
    ⟨before, tok, after, blank, ⟨rfl, token⟩, blank', rfl⟩
  cases b with
  | list =>
    obtain rfl := labelled
    exact ⟨tok, padded⟩
  | object =>
    obtain ⟨key, k, key', rfl⟩ := labelled
    exact ⟨(k, tok), key, _, key', padded, by simp⟩

theorem Member.blanks_append {blanks : List Char} {u : Unit} (blank : Blanks blanks)
    (member : Member b cs u) : Member b (blanks ++ cs) u := by
  cases b with
  | list =>
    obtain ⟨item, padded⟩ := member
    exact ⟨item, padded.blanks_append blank⟩
  | object =>
    obtain ⟨e, key, value, padded, padded', rfl⟩ := member
    exact ⟨e, blanks ++ key, value, padded.blanks_append blank, padded', by simp⟩

theorem Later.separated (later : Later b more) (labelled : Label b label) (blank : Blanks before)
    (token : Token tok) :
    ∃ members, Separated (Member b) (label ++ (before ++ (tok ++ more))) members := by
  rcases later with blank' | ⟨blanks, inner, members, blank', separated, rfl⟩
  · exact ⟨[()], .one (labelled.member blank token blank')⟩
  · have member := labelled.member blank token blank'
    exact ⟨() :: members, by simpa using Separated.more member separated⟩

/-! ## One step -/

theorem skipScalar_sound (skipped : skipScalar cs = .ok rest) :
    ∃ tok, Token tok ∧ cs = tok ++ rest := by
  cases cs with
  | nil => cases skipped
  | cons c cs =>
    rw [skipScalar] at skipped
    split_ifs at skipped with null true' false' quote number
    · subst null
      exact ⟨"null".toList, .word (by simp), by rw [skipLetters_eq_ok_iff.1 skipped]; rfl⟩
    · subst true'
      exact ⟨"true".toList, .word (by simp), by rw [skipLetters_eq_ok_iff.1 skipped]; rfl⟩
    · subst false'
      exact ⟨"false".toList, .word (by simp), by rw [skipLetters_eq_ok_iff.1 skipped]; rfl⟩
    · subst quote
      obtain ⟨body, form, rfl⟩ := skipString_eq_ok_iff.1 skipped
      exact ⟨'"' :: (body ++ ['"']), .string ⟨body, rfl, form⟩, by simp⟩
    · obtain ⟨tok, numeral, split⟩ := skipNumber_sound skipped
      exact ⟨tok, .number numeral, split⟩

theorem skipKey_sound (skipped : skipKey cs = .ok rest) : ∃ label, Label .object label ∧
    cs = label ++ rest := by
  rw [skipKey] at skipped
  split at skipped
  · cases skipped
  next c behind head =>
    obtain ⟨before, blank, rfl⟩ := exists_of_dropBlank_eq head
    split at skipped
    next quote =>
      subst quote
      split at skipped
      · cases skipped
      next behind' string =>
        obtain ⟨body, form, rfl⟩ := skipString_eq_ok_iff.1 string
        split at skipped
        · cases skipped
        next d value colon =>
          obtain ⟨after, blank', rfl⟩ := exists_of_dropBlank_eq colon
          split at skipped
          next isColon =>
            subst isColon
            cases skipped
            have padded : Padded SpelledString (before ++ ('"' :: (body ++ ['"']) ++ after)) _ :=
              ⟨before, _, after, blank, ⟨rfl, body, rfl, form⟩, blank', rfl⟩
            exact ⟨_, ⟨_, _, padded, rfl⟩, by simp⟩
          · cases skipped
    · cases skipped

theorem Bracket.skipLabel_sound (skipped : b.skipLabel cs = .ok rest) :
    ∃ label, Label b label ∧ cs = label ++ rest := by
  cases b with
  | list =>
    cases skipped
    exact ⟨[], rfl, rfl⟩
  | object => exact skipKey_sound skipped

/-! ## Runs -/

/-- What stands between a value and the end of the outermost one that it is in: what is left in each
of the open brackets. -/
inductive Closes : List Bracket → List Char → List Char → Prop
  | done {rest : List Char} : Closes [] rest rest
  | close {b : Bracket} {below : List Bracket} {more behind rest : List Char} :
      Later b more → Closes below behind rest → Closes (b :: below) (more ++ b.closer :: behind) rest

theorem Closes.exists_later {below : List Bracket} (closes : Closes (b :: below) cs rest) :
    ∃ more behind, Later b more ∧ Closes below behind rest ∧ cs = more ++ b.closer :: behind := by
  cases closes with
  | close later closes => exact ⟨_, _, later, closes, rfl⟩

def Place.Sound (stack : List Bracket) (cs rest : List Char) : Place → Prop
  | .value => ∃ before tok behind, Blanks before ∧ Token tok ∧ Closes stack behind rest ∧
      cs = before ++ (tok ++ behind)
  | .opened b => ∃ inner behind, Interior b inner ∧ Closes stack behind rest ∧
      cs = inner ++ b.closer :: behind
  | .ended => Closes stack cs rest

/-- What a run of the skipper goes over, from any place to its end, is what can stand there. -/
theorem skipFrom_sound {stack : List Bracket} {place : Place}
    (skipped : skipFrom stack place cs = .ok rest) : place.Sound stack cs rest := by
  fun_induction skipFrom stack place cs with
  | case2 stack cs tail head ih =>
    obtain ⟨before, blank, rfl⟩ := exists_of_dropBlank_eq head
    obtain ⟨inner, behind, interior, closes, rfl⟩ := ih skipped
    exact ⟨before, _, behind, blank, interior.token, closes, by simp [Bracket.opener]⟩
  | case3 stack cs tail head _ ih =>
    obtain ⟨before, blank, rfl⟩ := exists_of_dropBlank_eq head
    obtain ⟨inner, behind, interior, closes, rfl⟩ := ih skipped
    exact ⟨before, _, behind, blank, interior.token, closes, by simp [Bracket.opener]⟩
  | case5 stack cs c tail head _ _ behind scalar ih =>
    obtain ⟨before, blank, rfl⟩ := exists_of_dropBlank_eq head
    obtain ⟨tok, token, split⟩ := skipScalar_sound scalar
    exact ⟨before, tok, behind, blank, token, ih skipped, by rw [split]⟩
  | case7 stack cs b tail head ih =>
    obtain ⟨before, blank, rfl⟩ := exists_of_dropBlank_eq head
    exact ⟨before, tail, .inl blank, ih skipped, rfl⟩
  | case9 stack cs b c tail head _ behind taken ih =>
    obtain ⟨blanks, blank, rfl⟩ := exists_of_dropBlank_eq head
    obtain ⟨label, labelled, split⟩ := Bracket.skipLabel_sound taken
    obtain ⟨before, tok, _, blank', token, closes, rfl⟩ := ih skipped
    obtain ⟨more, behind, later, outer, rfl⟩ := closes.exists_later
    -- the value is the first member, and what is left of its bracket holds the others
    obtain ⟨members, separated⟩ := later.separated labelled blank' token
    have interior : Interior b (blanks ++ (label ++ (before ++ (tok ++ more)))) :=
      .inr ⟨members, separated.blanks_append fun member => member.blanks_append blank⟩
    exact ⟨_, behind, interior, outer, by simp [split]⟩
  | case10 =>
    cases skipped
    exact .done
  | case13 cs b below tail behind taken head ih =>
    obtain ⟨blanks, blank, rfl⟩ := exists_of_dropBlank_eq head
    obtain ⟨label, labelled, rfl⟩ := Bracket.skipLabel_sound taken
    obtain ⟨before, tok, _, blank', token, closes, rfl⟩ := ih skipped
    obtain ⟨more, behind, later, outer, rfl⟩ := closes.exists_later
    obtain ⟨members, separated⟩ := later.separated labelled blank' token
    have later' : Later b (blanks ++ ',' :: (label ++ (before ++ (tok ++ more)))) :=
      .inr ⟨blanks, _, members, blank, separated, rfl⟩
    simpa [Place.Sound] using Closes.close later' outer
  | case14 cs b below tail head _ ih =>
    obtain ⟨blanks, blank, rfl⟩ := exists_of_dropBlank_eq head
    exact .close (.inl blank) (ih skipped)
  | _ => cases skipped

/-- What is stepped over is a token, with any white space before it. -/
theorem skipValue_sound (skipped : skipValue cs = .ok rest) :
    ∃ tok, Token tok ∧ dropBlank isBlank cs = tok ++ rest := by
  obtain ⟨before, tok, behind, blank, token, closes, rfl⟩ := skipFrom_sound skipped
  cases closes
  obtain ⟨c, tail, rfl, solid, -⟩ := token.exists_head
  exact ⟨c :: tail, token, by rw [dropBlank_append blank, List.cons_append, dropBlank_cons solid]⟩

/-! ## Spellings -/

def trim (cs : List Char) : List Char := (dropBlank isBlank cs).rdropWhile isBlank

theorem trim_eq {blanks : List Char} (head : dropBlank isBlank cs = tok ++ blanks) (blank : Blanks blanks)
    (solid : ∀ c, tok.getLast? = some c → isBlank c = false) : trim cs = tok := by
  have reversed : ∀ c ∈ blanks.reverse, isBlank c = true :=
    fun c member => blank c (List.mem_reverse.1 member)
  rw [trim, head, List.rdropWhile, List.reverse_append, List.dropWhile_append_of_pos reversed]
  refine List.rdropWhile_eq_self_iff.2 fun nonempty => ?_
  rw [Bool.not_eq_true]
  exact solid _ (List.getLast?_eq_some_getLast nonempty)

/-- A token does not end in white space. -/
theorem Token.isBlank_getLast? (token : Token tok) {c : Char} (last : tok.getLast? = some c) :
    isBlank c = false := by
  have closed : ∀ d inner, isBlank d = false → tok = inner ++ [d] → isBlank c = false := by
    rintro d inner solid rfl
    rw [List.getLast?_concat, Option.some.injEq] at last
    rw [← last, solid]
  cases token with
  | word listed =>
    simp only [List.mem_cons, List.not_mem_nil, or_false] at listed
    rcases listed with rfl | rfl | rfl <;> cases last <;> decide
  | number numeral => exact numeral.isBlank_eq_false c (List.mem_of_getLast? last)
  | string form =>
    obtain ⟨body, split, -⟩ := form
    exact closed '"' ('"' :: body) (by decide) split
  | list listed _ =>
    obtain ⟨inner, split, -⟩ := listed
    exact closed ']' ('[' :: inner) (by decide) split
  | object braced _ =>
    obtain ⟨inner, split, -⟩ := braced
    exact closed '\x7d' ('\x7b' :: inner) (by decide) split

/-- The spelling that is kept is what stands between the white space and the rest. -/
theorem run_token_eq_ok_iff {raw : String} :
    token.run cs = .ok (raw, rest) ↔
      skipValue cs = .ok rest ∧ dropBlank isBlank cs = raw.toList ++ rest := by
  constructor
  · intro read
    rw [token] at read
    dsimp only at read
    split at read
    · cases read
    next rest' skipped =>
      obtain ⟨tok, -, head⟩ := skipValue_sound skipped
      cases read
      refine ⟨skipped, ?_⟩
      rw [head]
      simp
  · rintro ⟨skipped, head⟩
    rw [run_token_of_skipValue skipped head, String.ofList_toList]

theorem read_token_eq_ok_iff {text raw : String} :
    read token text = .ok raw ↔ ∃ after, Blanks after ∧ skipValue text.toList = .ok after ∧
      dropBlank isBlank text.toList = raw.toList ++ after := by
  rw [read]
  constructor
  · intro read
    split at read
    · cases read
    next raw' after run =>
      split at read
      next blank =>
        cases read
        obtain ⟨skipped, head⟩ := run_token_eq_ok_iff.1 run
        exact ⟨after, dropBlank_eq_nil_iff.1 blank, skipped, head⟩
      · cases read
  · rintro ⟨after, blank, skipped, head⟩
    rw [run_token_eq_ok_iff.2 ⟨skipped, head⟩]
    dsimp only
    rw [if_pos (dropBlank_eq_nil_iff.2 blank)]

/-- The spelling of a document is the document without the white space around it. -/
theorem trim_of_read_token {text raw : String} (document : read token text = .ok raw) :
    raw = String.ofList (trim text.toList) := by
  obtain ⟨after, blank, skipped, head⟩ := read_token_eq_ok_iff.1 document
  obtain ⟨tok, token, head'⟩ := skipValue_sound skipped
  rw [trim_eq head' blank fun _ => token.isBlank_getLast?,
    ← List.append_cancel_right (head.symm.trans head'), String.ofList_toList]

theorem Typed.exists_read_token {r : Reader α} (typed : Typed r P) {text : String} {a : α}
    (padded : Padded P text.toList a) : ∃ raw, read token text = .ok raw := by
  obtain ⟨tok, after, -, blank, head, skipped⟩ := typed.skipValue_eq padded
  refine ⟨String.ofList tok, read_token_eq_ok_iff.2 ⟨after, blank, skipped, ?_⟩⟩
  rw [head, String.toList_ofList]

/-- A typed reader makes the same of a document and of its spelling. -/
theorem Typed.padded_iff {r : Reader α} (typed : Typed r P) {text raw : String}
    (document : read token text = .ok raw) {a : α} :
    Padded P raw.toList a ↔ Padded P text.toList a := by
  obtain ⟨after, blank, skipped, head⟩ := read_token_eq_ok_iff.1 document
  constructor
  · rintro ⟨before, tok, behind, blank', token, blank'', spelled⟩
    obtain ⟨blanks, blank''', split⟩ := exists_blanks text.toList
    refine ⟨blanks ++ before, tok, behind ++ after, blank'''.append blank', token,
      blank''.append blank, ?_⟩
    rw [split, head, spelled]
    simp
  · intro padded
    obtain ⟨tok, after', token, -, head', skipped'⟩ := typed.skipValue_eq padded
    obtain rfl := Except.ok.inj (skipped.symm.trans skipped')
    rw [List.append_cancel_right (head.symm.trans head')]
    exact .of_token token

/-! ## Documents -/

def WellFormed (text : String) : Prop :=
  ∃ before tok after, Blanks before ∧ Token tok ∧ Blanks after ∧
    text.toList = before ++ (tok ++ after)

theorem exists_read_token_iff {text : String} :
    (∃ raw, read token text = .ok raw) ↔ WellFormed text := by
  constructor
  · rintro ⟨raw, document⟩
    obtain ⟨after, blank, skipped, -⟩ := read_token_eq_ok_iff.1 document
    obtain ⟨tok, token, head⟩ := skipValue_sound skipped
    obtain ⟨before, blank', split⟩ := exists_blanks text.toList
    exact ⟨before, tok, after, blank', token, blank, by rw [← head, ← split]⟩
  · rintro ⟨before, tok, after, blank, token, blank', split⟩
    exact ⟨_, read_of_accepts ⟨before, tok, after, blank, token.accepts_token, blank', split⟩⟩

end PipelineParams.Json
