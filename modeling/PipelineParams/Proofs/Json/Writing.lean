import PipelineParams.Proofs.Json.Layout

/-! # What is written is on the page

A document has a compact form and a pretty one at every level of indentation.  Both are `Form`s,
and a form of a list or of an object is a token of the grammar, if the forms of its members are
(`listOf_of_form`, `membersOf_of_form`, `mapOf_of_form`).  A reader that accepts all forms of what
is written for a value therefore reads it back from either text.

The two forms differ in the white space around their members only, so `separated_of_tail` goes
through the members once for both of them, and for items as well as for fields.
-/

namespace PipelineParams.Json

open PipelineParams.Json.Tree (quoted newline compactChars compactItems compactFields prettyChars
  prettyItems prettyFields)

variable {α : Type} {P : List Char → α → Prop} {tree : α → Tree}

inductive Form : List Char → Tree → Prop
  | compact (t : Tree) : Form (compactChars t) t
  | pretty (level : Nat) (t : Tree) : Form (prettyChars level t) t

theorem blanks_newline (level : Nat) : Blanks (newline level) := by
  intro c member
  rcases List.mem_cons.1 member with rfl | member
  · rfl
  · rw [List.eq_of_mem_replicate member]
    rfl

theorem literal_of_form {tok : List Char} {text : String} (form : Form tok (.text text)) :
    Literal tok text := by
  cases form with
  | compact =>
    rw [compactChars]
    exact literal_quoted text
  | pretty level =>
    rw [prettyChars]
    exact literal_quoted text

/-- No form is taken for the word `null`. -/
theorem Form.ne_null {tok : List Char} {t : Tree} (form : Form tok t) (cs : List Char) :
    tok ≠ 'n' :: cs := by
  have digits : ∀ n, Nat.toDigits 10 n ≠ 'n' :: cs := by
    intro n same
    have member : 'n' ∈ Nat.toDigits 10 n := same ▸ List.mem_cons_self
    exact absurd (Nat.isDigit_of_mem_toDigits (by decide) (by decide) member) (by decide)
  cases form with
  | compact =>
    cases t with
    | count n =>
      rw [compactChars]
      exact digits n
    | text s => simp [compactChars, quoted]
    | list ts => cases ts <;> simp [compactChars]
    | object fs => cases fs <;> simp [compactChars]
  | pretty level =>
    cases t with
    | count n =>
      rw [prettyChars]
      exact digits n
    | text s => simp [prettyChars, quoted]
    | list ts => cases ts <;> simp [prettyChars]
    | object fs => cases fs <;> simp [prettyChars]

/-! ## Members -/

/-- The members behind the first one, each after a comma, up to the closing bracket.  There may be
white space before the bracket, which belongs to the last member. -/
theorem separated_of_tail {Q : List Char → α → Prop} {member : α → List Char}
    (tail : List α → List Char) (blanks : List Char) (closer : Char)
    (ends : tail [] = blanks ++ [closer])
    (goes : ∀ a as, tail (a :: as) = ',' :: (member a ++ tail as))
    (inside : ∀ a, Q (member a) a) (absorb : ∀ {cs a}, Q cs a → Q (cs ++ blanks) a)
    (a : α) (as : List α) :
    ∃ inner, member a ++ tail as = inner ++ [closer] ∧ Separated Q inner (a :: as) := by
  induction as generalizing a with
  | nil => exact ⟨member a ++ blanks, by rw [ends, List.append_assoc], .one (absorb (inside a))⟩
  | cons b bs ih =>
    obtain ⟨inner, written, separated⟩ := ih b
    refine ⟨member a ++ ',' :: inner, ?_, .more (inside a) separated⟩
    rw [goes, written, List.append_assoc, List.cons_append]

theorem Padded.append_blanks {cs blanks : List Char} {a : α} (padded : Padded P cs a)
    (blank : Blanks blanks) : Padded P (cs ++ blanks) a := by
  obtain ⟨before, tok, after, blank', token, blank'', rfl⟩ := padded
  exact ⟨before, tok, after ++ blanks, blank', token, blank''.append blank, by simp⟩

theorem Entry.append_blanks {cs blanks : List Char} {e : String × α} (entry : Entry P cs e)
    (blank : Blanks blanks) : Entry P (cs ++ blanks) e := by
  obtain ⟨key, value, padded, padded', rfl⟩ := entry
  exact ⟨key, value ++ blanks, padded, padded'.append_blanks blank, by simp⟩

section

variable (token : ∀ {tok a}, Form tok (tree a) → P tok a)
include token

theorem padded_prettyChars (level : Nat) (a : α) :
    Padded P (newline level ++ prettyChars level (tree a)) a :=
  (Padded.of_token (token (.pretty level _))).blanks_append (blanks_newline level)

theorem entry_compactChars (e : String × α) :
    Entry P (quoted e.1 ++ ':' :: compactChars (tree e.2)) e :=
  ⟨_, _, .of_token (literal_quoted e.1), .of_token (token (.compact _)), rfl⟩

theorem entry_prettyChars (level : Nat) (e : String × α) :
    Entry P (newline level ++ (quoted e.1 ++ ':' :: ' ' :: prettyChars level (tree e.2))) e := by
  have label : Padded Literal (newline level ++ quoted e.1) e.1 :=
    (Padded.of_token (literal_quoted e.1)).blanks_append (blanks_newline level)
  have space : Blanks [' '] := by
    intro c member
    rw [List.mem_singleton.1 member]
    rfl
  have value : Padded P (' ' :: prettyChars level (tree e.2)) e.2 :=
    (Padded.of_token (token (.pretty level _))).blanks_append space
  exact ⟨_, _, label, value, (List.append_assoc _ _ _).symm⟩

theorem listOf_of_form {tok : List Char} {as : List α} (form : Form tok (.list (as.map tree))) :
    ListOf P tok as := by
  cases form with
  | compact =>
    cases as with
    | nil => exact ⟨[], by simp [compactChars], .inl ⟨blanks_nil, rfl⟩⟩
    | cons a as =>
      obtain ⟨inner, written, separated⟩ :=
        separated_of_tail (fun as => compactItems (as.map tree)) [] ']'
          (by simp [compactItems]) (by simp [compactItems])
          (fun a => Padded.of_token (token (.compact (tree a))))
          (fun padded => padded.append_blanks blanks_nil) a as
      refine ⟨inner, ?_, .inr separated⟩
      rw [List.map_cons, compactChars, List.cons_append, written]
  | pretty level =>
    cases as with
    | nil => exact ⟨[], by simp [prettyChars], .inl ⟨blanks_nil, rfl⟩⟩
    | cons a as =>
      obtain ⟨inner, written, separated⟩ :=
        separated_of_tail (fun as => prettyItems level (as.map tree)) (newline level) ']'
          (by simp [prettyItems]) (by simp [prettyItems])
          (padded_prettyChars (P := P) token (level + 1))
          (fun padded => padded.append_blanks (blanks_newline level)) a as
      refine ⟨inner, ?_, .inr separated⟩
      rw [List.map_cons, prettyChars, List.cons_append, List.cons_append, written]

theorem membersOf_of_form {tok : List Char} {es : List (String × α)}
    (form : Form tok (.object (es.map fun e => (e.1, tree e.2)))) : MembersOf P tok es := by
  cases form with
  | compact =>
    cases es with
    | nil => exact ⟨[], by simp [compactChars], .inl ⟨blanks_nil, rfl⟩⟩
    | cons e es =>
      obtain ⟨inner, written, separated⟩ :=
        separated_of_tail (fun es => compactFields (es.map fun e => (e.1, tree e.2))) [] '\x7d'
          (by simp [compactFields]) (by simp [compactFields]) (entry_compactChars (P := P) token)
          (fun entry => entry.append_blanks blanks_nil) e es
      refine ⟨inner, ?_, .inr separated⟩
      rw [List.map_cons, compactChars, List.cons_append, List.cons_append, written]
  | pretty level =>
    cases es with
    | nil => exact ⟨[], by simp [prettyChars], .inl ⟨blanks_nil, rfl⟩⟩
    | cons e es =>
      obtain ⟨inner, written, separated⟩ :=
        separated_of_tail (fun es => prettyFields level (es.map fun e => (e.1, tree e.2)))
          (newline level) '\x7d' (by simp [prettyFields]) (by simp [prettyFields])
          (entry_prettyChars (P := P) token (level + 1))
          (fun entry => entry.append_blanks (blanks_newline level)) e es
      refine ⟨inner, ?_, .inr separated⟩
      rw [List.map_cons, prettyChars, ← written]
      simp

theorem mapOf_of_form {tok : List Char} {m : SortedMap α} (form : Form tok (.ofMap tree m)) :
    MapOf P tok m :=
  -- the keys of a map are distinct, so reading the entries one by one loses none
  mapOf_iff_ofList.2 ⟨m.entries, membersOf_of_form token form, (SortedMap.ofList_entries m).symm⟩

end

/-! ## Readers -/

theorem accepts_list_of_form {item : Reader α}
    (accepts : ∀ {tok a}, Form tok (tree a) → Accepts item tok a) {tok : List Char} {as : List α}
    (form : Form tok (.list (as.map tree))) : Accepts (list item) tok as :=
  accepts_list (fun accepted => accepted) (listOf_of_form accepts form)

theorem accepts_mapOf_of_form {value : Reader α}
    (accepts : ∀ {tok a}, Form tok (tree a) → Accepts value tok a) {tok : List Char}
    {m : SortedMap α} (form : Form tok (.ofMap tree m)) : Accepts (mapOf value) tok m :=
  accepts_mapOf (fun accepted => accepted) (mapOf_of_form accepts form)

end PipelineParams.Json
