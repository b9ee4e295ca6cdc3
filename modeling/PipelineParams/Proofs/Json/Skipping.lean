import PipelineParams.Proofs.Json.Layout

/-! # Stepping over a value

What the skipper lets pass.

* `Skips P` — every token of `P` is stepped over, whatever brackets are open around it.  It holds of
  `Literal` and is kept by `OrNull`, `ListOf` and `MapOf`.
* `Typed r P` — `r` reads the tokens of `P` and all of them can be stepped over, so their spelling can
  be kept (`Typed.accepts_token`).

The brackets that are open around a value are never looked at before the value has ended.  That is
why `Skips` speaks of all stacks: the members of a list are stepped over with one bracket more.
-/

namespace PipelineParams.Json

variable {α : Type} {P : List Char → α → Prop}

/-! ## One step -/

section Steps

variable {stack : List Bracket} {b : Bracket} {cs behind rest : List Char} {c : Char}

theorem skipFrom_value_nil (head : dropBlank isBlank cs = []) :
    skipFrom stack .value cs = .error .endInValue := by
  rw [skipFrom]
  split
  next => rfl
  next head' => cases head.symm.trans head'

theorem skipFrom_value_cons (head : dropBlank isBlank cs = c :: rest) :
    skipFrom stack .value cs =
      if c = '[' then skipFrom stack (.opened .list) rest
      else if c = '\x7b' then skipFrom stack (.opened .object) rest
      else
        match skipScalar (c :: rest) with
        | .error e => .error e
        | .ok behind => skipFrom stack .ended behind := by
  conv => lhs; rw [skipFrom]
  split
  next head' => cases head.symm.trans head'
  next head' =>
    cases head.symm.trans head'
    congr 2
    split
    next fault => rw [fault]
    next scalar => rw [scalar]

theorem skipFrom_value_congr {ds : List Char} (same : dropBlank isBlank cs = dropBlank isBlank ds) :
    skipFrom stack .value cs = skipFrom stack .value ds := by
  cases head : dropBlank isBlank cs with
  | nil => rw [skipFrom_value_nil head, skipFrom_value_nil (same.symm.trans head)]
  | cons c rest => rw [skipFrom_value_cons head, skipFrom_value_cons (same.symm.trans head)]

theorem skipFrom_value_list (head : dropBlank isBlank cs = '[' :: rest) :
    skipFrom stack .value cs = skipFrom stack (.opened .list) rest := by
  rw [skipFrom_value_cons head, if_pos rfl]

theorem skipFrom_value_object (head : dropBlank isBlank cs = '\x7b' :: rest) :
    skipFrom stack .value cs = skipFrom stack (.opened .object) rest := by
  rw [skipFrom_value_cons head, if_neg (by decide), if_pos rfl]

theorem skipFrom_value_scalar (head : dropBlank isBlank cs = c :: rest) (notList : c ≠ '[')
    (notObject : c ≠ '\x7b') (scalar : skipScalar (c :: rest) = .ok behind) :
    skipFrom stack .value cs = skipFrom stack .ended behind := by
  rw [skipFrom_value_cons head, if_neg notList, if_neg notObject, scalar]

theorem skipFrom_opened_cons (head : dropBlank isBlank cs = c :: rest) :
    skipFrom stack (.opened b) cs =
      if c = b.closer then skipFrom stack .ended rest
      else
        match b.skipLabel (c :: rest) with
        | .error e => .error e
        | .ok behind => skipFrom (b :: stack) .value behind := by
  conv => lhs; rw [skipFrom]
  split
  next head' => cases head.symm.trans head'
  next head' =>
    cases head.symm.trans head'
    congr 1
    split
    next fault => rw [fault]
    next label => rw [label]

theorem skipFrom_opened_close (head : dropBlank isBlank cs = b.closer :: rest) :
    skipFrom stack (.opened b) cs = skipFrom stack .ended rest := by
  rw [skipFrom_opened_cons head, if_pos rfl]

theorem skipFrom_opened_label (head : dropBlank isBlank cs = c :: rest) (open' : c ≠ b.closer)
    (label : b.skipLabel (c :: rest) = .ok behind) :
    skipFrom stack (.opened b) cs = skipFrom (b :: stack) .value behind := by
  rw [skipFrom_opened_cons head, if_neg open', label]

theorem skipFrom_ended_nil : skipFrom [] .ended cs = .ok cs := by
  rw [skipFrom]

theorem skipFrom_ended_cons (head : dropBlank isBlank cs = c :: rest) :
    skipFrom (b :: stack) .ended cs =
      if c = ',' then
        match b.skipLabel rest with
        | .error e => .error e
        | .ok behind => skipFrom (b :: stack) .value behind
      else if c = b.closer then skipFrom stack .ended rest
      else .error b.commaExpected := by
  conv => lhs; rw [skipFrom]
  split
  next head' => cases head.symm.trans head'
  next head' =>
    cases head.symm.trans head'
    congr 1
    split
    next fault => rw [fault]
    next label => rw [label]

theorem skipFrom_ended_comma (head : dropBlank isBlank cs = ',' :: rest)
    (label : b.skipLabel rest = .ok behind) :
    skipFrom (b :: stack) .ended cs = skipFrom (b :: stack) .value behind := by
  rw [skipFrom_ended_cons head, if_pos rfl, label]

theorem skipFrom_ended_close (head : dropBlank isBlank cs = b.closer :: rest) :
    skipFrom (b :: stack) .ended cs = skipFrom stack .ended rest := by
  rw [skipFrom_ended_cons head, if_neg b.closer_ne_comma, if_pos rfl]

end Steps

/-! ## Tokens -/

/-- Every token is stepped over, whatever brackets are open around it. -/
def Skips (P : List Char → α → Prop) : Prop :=
  ∀ {tok a}, P tok a → ∀ {stack cs rest}, Ends rest → dropBlank isBlank cs = tok ++ rest →
    skipFrom stack .value cs = skipFrom stack .ended rest

def SkipsMember (b : Bracket) (Q : List Char → α → Prop) : Prop :=
  ∀ {inner a}, Q inner a →
    ∀ {stack cs rest}, Ends rest → dropBlank isBlank cs = dropBlank isBlank (inner ++ rest) →
    ∃ behind after, b.skipLabel cs = .ok behind ∧
      skipFrom (b :: stack) .value behind = skipFrom (b :: stack) .ended after ∧
      dropBlank isBlank after = dropBlank isBlank rest

theorem skipFrom_separated {b : Bracket} {Q : List Char → α → Prop} (skips : SkipsMember b Q)
    {inner : List Char} {as : List α} (separated : Separated Q inner as) (stack : List Bracket)
    {cs rest : List Char}
    (start : dropBlank isBlank cs = dropBlank isBlank (inner ++ b.closer :: rest)) :
    ∃ behind, b.skipLabel cs = .ok behind ∧
      skipFrom (b :: stack) .value behind = skipFrom stack .ended rest := by
  have closes : dropBlank isBlank (b.closer :: rest) = b.closer :: rest :=
    dropBlank_cons (by cases b <;> decide) rest
  -- the stack stays the same from member to member, so the induction leaves it alone
  induction separated generalizing cs with
  | one member =>
    obtain ⟨behind, after, label, value, close⟩ := skips member (b.ends_closer rest) start
    exact ⟨behind, label, value.trans (skipFrom_ended_close (close.trans closes))⟩
  | more member _ ih =>
    rw [List.append_assoc, List.cons_append] at start
    obtain ⟨behind, after, label, value, comma⟩ := skips member (ends_comma _) start
    rw [dropBlank_cons (by decide)] at comma
    obtain ⟨behind', label', value'⟩ := ih rfl
    exact ⟨behind, label, (value.trans (skipFrom_ended_comma comma label')).trans value'⟩

theorem skipFrom_opened {b : Bracket} {Q : List Char → α → Prop} (skips : SkipsMember b Q)
    (heads : ∀ {cs a} rest, Q cs a →
      ∃ d tail, dropBlank isBlank (cs ++ rest) = d :: tail ∧ d ≠ b.closer)
    {inner : List Char} {stack : List Bracket} {rest : List Char}
    (members : Blanks inner ∨ ∃ as, Separated Q inner as) :
    skipFrom stack (.opened b) (inner ++ b.closer :: rest) = skipFrom stack .ended rest := by
  rcases members with blank | ⟨as, separated⟩
  · apply skipFrom_opened_close
    rw [dropBlank_append blank, dropBlank_cons (by cases b <;> decide)]
  · obtain ⟨d, tail, head, open'⟩ := separated.exists_head heads (b.closer :: rest)
    have start : dropBlank isBlank (d :: tail) = dropBlank isBlank (inner ++ b.closer :: rest) := by
      rw [← head, dropBlank_dropBlank]
    obtain ⟨behind, label, value⟩ := skipFrom_separated skips separated stack start
    rw [skipFrom_opened_label head open' label, value]

theorem skips_string : Skips fun tok (_ : Unit) => StringToken tok := by
  intro tok _ form stack cs rest _ head
  obtain ⟨behind, quote, skipped⟩ := form.exists_skipString rest
  rw [quote] at head
  exact skipFrom_value_scalar head (by decide) (by decide) skipped

theorem skips_literal : Skips Literal := fun literal =>
  skips_string (a := ()) (.of_literal literal)

theorem skips_null : Skips fun tok (_ : Unit) => tok = ['n', 'u', 'l', 'l'] := by
  rintro tok _ rfl stack cs rest _ head
  exact skipFrom_value_scalar head (by decide) (by decide) (skipLetters_eq_ok_iff.2 rfl)

theorem skips_orNull (skips : Skips P) : Skips (OrNull P) := by
  rintro tok (_ | a) token
  · exact skips_null (a := ()) token
  · exact skips token

theorem skips_padded (solid : Solid P) (skips : Skips P) : SkipsMember .list (Padded P) := by
  intro inner a padded stack cs rest ends start
  obtain ⟨tok, after, token, blank, head⟩ := padded.exists_dropBlank solid rest
  exact ⟨cs, after ++ rest, rfl, skips token (ends.blanks_append blank) (start.trans head),
    dropBlank_append blank rest⟩

theorem skips_listOf (solid : Solid P) (skips : Skips P) : Skips (ListOf P) := by
  rintro tok as ⟨inner, rfl, members⟩ stack cs rest - head
  rw [List.cons_append, List.append_assoc] at head
  rw [skipFrom_value_list head]
  exact skipFrom_opened (skips_padded solid skips) (Padded.exists_head solid)
    (members.imp And.left fun separated => ⟨as, separated⟩)

section

variable {κ : Type} {K : List Char → κ → Prop} (strings : ∀ tok k, K tok k → StringToken tok)
include strings

theorem skipKey_eq_ok {key cs rest : List Char} {k : κ} (padded : Padded K key k)
    (start : dropBlank isBlank cs = dropBlank isBlank (key ++ ':' :: rest)) :
    skipKey cs = .ok rest := by
  have solid : Solid K := solid_of_strings strings
  obtain ⟨tok, after, token, blank, head⟩ := padded.exists_dropBlank solid (':' :: rest)
  obtain ⟨behind, quote, skipped⟩ := (strings tok k token).exists_skipString (after ++ ':' :: rest)
  rw [skipKey, start, head, quote]
  dsimp only
  rw [if_pos rfl, skipped]
  dsimp only
  rw [dropBlank_append blank, dropBlank_cons (by decide)]
  rfl

theorem skips_labelled (solid : Solid P) (skips : Skips P) :
    SkipsMember .object (Labelled K P) := by
  rintro inner e ⟨key, value, padded, padded', rfl⟩ stack cs rest ends start
  rw [List.append_assoc] at start
  obtain ⟨tok, after, token, blank, head⟩ := padded'.exists_dropBlank solid rest
  exact ⟨value ++ rest, after ++ rest, skipKey_eq_ok strings padded start,
    skips token (ends.blanks_append blank) head, dropBlank_append blank rest⟩

theorem skips_braced (solid : Solid P) (skips : Skips P) : Skips (Braced K P) := by
  rintro tok es ⟨inner, rfl, members⟩ stack cs rest - head
  rw [List.cons_append, List.append_assoc] at head
  rw [skipFrom_value_object head]
  exact skipFrom_opened (skips_labelled strings solid skips) (Labelled.exists_head strings)
    (members.imp And.left fun separated => ⟨es, separated⟩)

end

theorem skips_mapOf (solid : Solid P) (skips : Skips P) : Skips (MapOf P) := by
  intro tok m mapped
  obtain ⟨members, object, -⟩ := mapOf_iff_ofList.1 mapped
  exact skips_braced (fun _ _ => StringToken.of_literal) solid skips object

/-! ## Typed readers -/

/-- The reader takes exactly the tokens of `P`, and each of them can be stepped over. -/
structure Typed (r : Reader α) (P : List Char → α → Prop) : Prop extends Reads r P where
  skips : Skips P

theorem typed_string : Typed string Literal := ⟨reads_string, skips_literal⟩

theorem typed_optional_string : Typed (optional string) (OrNull Literal) :=
  ⟨reads_optional_string, skips_orNull skips_literal⟩

theorem Typed.list {item : Reader α} (typed : Typed item P) : Typed (list item) (ListOf P) :=
  ⟨reads_list typed.toReads, skips_listOf typed.solid typed.skips⟩

theorem Typed.mapOf {value : Reader α} (typed : Typed value P) :
    Typed (mapOf value) (MapOf P) :=
  ⟨reads_mapOf typed.toReads, skips_mapOf typed.solid typed.skips⟩

/-! ## Spellings -/

/-- The spelling that is kept is what stands between the white space and the rest. -/
theorem run_token_of_skipValue {cs tok rest : List Char} (skipped : skipValue cs = .ok rest)
    (head : dropBlank isBlank cs = tok ++ rest) : token.run cs = .ok (String.ofList tok, rest) := by
  rw [token]
  dsimp only
  rw [skipped, head]
  simp

/-- A token of a typed reader is kept as it is spelled. -/
theorem Typed.accepts_token {r : Reader α} (typed : Typed r P) {tok : List Char} {a : α}
    (token : P tok a) : Accepts Json.token tok (String.ofList tok) where
  run_eq ends head :=
    run_token_of_skipValue ((typed.skips token ends head).trans skipFrom_ended_nil) head
  solid := typed.solid token

/-- What a typed reader accepts as a document can be stepped over. -/
theorem Typed.skipValue_eq {r : Reader α} (typed : Typed r P) {cs : List Char} {a : α}
    (padded : Padded P cs a) : ∃ tok after, P tok a ∧ Blanks after ∧
      dropBlank isBlank cs = tok ++ after ∧ skipValue cs = .ok after := by
  obtain ⟨tok, after, token, blank, head⟩ := padded.exists_dropBlank typed.solid []
  have ends := ends_nil.blanks_append blank
  rw [List.append_nil, List.append_nil] at head
  rw [List.append_nil] at ends
  exact ⟨tok, after, token, blank, head, (typed.skips token ends head).trans skipFrom_ended_nil⟩

end PipelineParams.Json
