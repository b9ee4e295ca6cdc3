import PipelineParams.Proofs.Json.Positional

/-! # Typed readers take well-formed text only

A typed reader leaves it to the skipper to go over what it does not need, and reads everything else by
itself.  It is `Strict` if all that it takes is a token all the same, what it goes over included.  The
readers of single values are strict, and lists, maps and records are as strict as what they are made of
(`Strict.list`, `Strict.mapOf`, `strict_record`), so a document that is read at all is `WellFormed`
(`Strict.wellFormed`).
-/

namespace PipelineParams.Json

variable {α β σ ρ : Type} {P : List Char → α → Prop} {r : Reader α} {b : Bracket}
  {cs rest inner tok : List Char}

/-- Whatever the reader takes is a token, with any white space before it. -/
def Strict (r : Reader α) : Prop := Yields r fun tok _ => Token tok

theorem Yields.strict (yields : Yields r P) (tokens : ∀ tok a, P tok a → Token tok) : Strict r :=
  Yields.imp (tokens _ _) yields

theorem Strict.wellFormed (strict : Strict r) {text : String} {a : α} (read : read r text = .ok a) :
    WellFormed text :=
  Yields.padded_of_read strict read

theorem Strict.map (strict : Strict r) (f : α → β) : Strict (r.map f) := by
  refine ⟨fun read => ?_⟩
  obtain ⟨a, run, -⟩ := run_map_eq_ok_iff.1 read
  exact Yields.exists_token strict run

/-! ## Single values -/

theorem strict_token : Strict token := by
  refine ⟨fun {cs raw rest} read => ?_⟩
  obtain ⟨skipped, -⟩ := run_token_eq_ok_iff.1 read
  exact skipValue_sound skipped

theorem strict_ignored : Strict ignored := by
  refine ⟨fun {cs u rest} read => ?_⟩
  rw [ignored] at read
  dsimp only at read
  split at read
  · cases read
  next skipped =>
    cases read
    exact skipValue_sound skipped

theorem strict_string : Strict string := reads_string.yields.strict token_of_literal

def Null (tok : List Char) (_ : Unit) : Prop := tok = "null".toList

theorem yields_nothing : Yields nothing Null := by
  refine ⟨fun {cs u rest} read => ?_⟩
  change readNothing cs = .ok (u, rest) at read
  rw [readNothing] at read
  split at read
  · cases read
  next c behind head =>
    split at read
    next isN =>
      obtain ⟨-, word⟩ := map_skipLetters_eq_ok_iff.1 read
      exact ⟨_, rfl, by rw [head, isN, word]; rfl⟩
    · cases read

theorem accepts_nothing {tok : List Char} {u : Unit} (null : Null tok u) : Accepts nothing tok u := by
  obtain rfl := null
  refine ⟨fun {cs rest} _ head => ?_, 'n', _, rfl, by decide, by decide⟩
  have start : dropBlank isBlank cs = 'n' :: (['u', 'l', 'l'] ++ rest) := head
  change readNothing cs = .ok (u, rest)
  rw [readNothing, start]
  dsimp only
  rw [if_pos rfl]
  exact map_skipLetters_eq_ok_iff.2 ⟨rfl, rfl⟩

theorem token_of_null (tok : List Char) (u : Unit) (null : Null tok u) : Token tok := by
  obtain rfl := null
  exact .word List.mem_cons_self

theorem Strict.optional (strict : Strict r) : Strict (optional r) := by
  refine (yields_optional strict).strict fun tok a token => ?_
  cases a with
  | none => exact token_of_null tok () token
  | some a => exact token

/-! ## Lists and objects -/

theorem Padded.member {a : α} (tokens : ∀ tok a, P tok a → Token tok) (padded : Padded P cs a) :
    Member .list cs () := by
  obtain ⟨before, tok, after, blank, denotes, blank', rfl⟩ := padded
  exact ⟨tok, before, tok, after, blank, ⟨rfl, tokens _ _ denotes⟩, blank', rfl⟩

theorem Entry.member {e : String × α} (tokens : ∀ tok a, P tok a → Token tok) (entry : Entry P cs e) :
    Member .object cs () := by
  obtain ⟨key, value, ⟨before, lit, after, blank, literal, blank', rfl⟩, padded, rfl⟩ := entry
  obtain ⟨item, spelled⟩ := padded.member tokens
  have label : Padded SpelledString (before ++ (lit ++ after)) lit :=
    ⟨before, lit, after, blank, ⟨rfl, .of_literal literal⟩, blank', rfl⟩
  exact ⟨(lit, item), _, value, label, spelled, rfl⟩

theorem Interior.of_members {Q : List Char → α → Prop} {as : List α}
    (member : ∀ {cs a}, Q cs a → Member b cs ())
    (members : Blanks inner ∧ as = [] ∨ Separated Q inner as) : Interior b inner := by
  rcases members with ⟨blank, -⟩ | separated
  · exact .inl blank
  · exact .inr (separated.exists_imp fun here => ⟨(), member here⟩)

theorem Strict.list (strict : Strict r) : Strict (list r) := by
  refine (yields_list strict).strict fun tok as listed => ?_
  obtain ⟨inner, rfl, members⟩ := listed
  exact (Interior.of_members (Padded.member fun _ _ token => token) members).token

theorem interior_of_readObject {entry : σ → String → Except Error (Reader σ)} {s t : σ}
    (strict : ∀ s key r, entry s key = .ok r → Strict r)
    (read : readObject entry s cs = .ok (t, rest)) :
    ∃ inner, Interior .object inner ∧ cs = inner ++ '\x7d' :: rest := by
  -- nothing is asked of the states in which the object is gathered
  have yields : ∀ s key r, entry s key = .ok r →
      Yields r fun tok _ => ∃ _ : Unit, Token tok ∧ True := by
    refine fun s key r known => ⟨fun run => ?_⟩
    obtain ⟨tok, token, head⟩ := Yields.exists_token (strict s key r known) run
    exact ⟨tok, ⟨(), token, trivial⟩, head⟩
  obtain ⟨inner, es, members, -, split⟩ := readObject_sound yields read
  exact ⟨inner, .of_members (Entry.member fun _ _ token => token) members, split⟩

theorem Strict.mapOf (strict : Strict r) : Strict (mapOf r) := by
  refine ⟨fun {cs m rest} read => ?_⟩
  change readMap r cs = .ok (m, rest) at read
  rw [readMap] at read
  split at read
  · cases read
  next c behind head =>
    split at read
    next bracket =>
      subst bracket
      have entries : ∀ m key value, gather r m key = .ok value → Strict value := by
        rintro m key _ ⟨⟩
        exact strict.map _
      obtain ⟨inner, interior, rfl⟩ := interior_of_readObject entries read
      exact interior.exists_token head
    · cases read

/-! ## Choices -/

/-- A choice is written as its name, or as an object with the name as its only key and `null` under
it. -/
inductive ChoiceOf (choices : List (String × α)) (tok : List Char) (a : α) : Prop
  | name {name : String} (known : pick choices name = .ok a) (literal : Literal tok name) :
      ChoiceOf choices tok a
  | object {name : String} {inner : List Char} (known : pick choices name = .ok a)
      (entry : Entry Null inner (name, ())) (braces : tok = '\x7b' :: (inner ++ ['\x7d'])) :
      ChoiceOf choices tok a

section

variable {choices : List (String × α)} {a : α}

theorem readChoiceObject_sound (read : readChoiceObject choices cs = .ok (a, rest)) :
    ∃ name inner, pick choices name = .ok a ∧ Entry Null inner (name, ()) ∧
      cs = inner ++ '\x7d' :: rest := by
  rw [readChoiceObject] at read
  split at read
  · cases read
  next c next head =>
    obtain ⟨blanks, blank, rfl⟩ := exists_of_dropBlank_eq head
    split at read
    · cases read
    · split at read
      · cases read
      next name behind key =>
        split at read
        · cases read
        next a' known =>
          split at read
          · cases read
          next value colon =>
            split at read
            · cases read
            next after null =>
              split at read
              · cases read
              next d tail close =>
                split at read
                next brace =>
                  subst brace
                  cases read
                  obtain ⟨blanks', blank', rfl⟩ := exists_of_dropBlank_eq close
                  obtain ⟨inner, entry, split⟩ :=
                    yields_nothing.exists_entry key colon null blank'
                  exact ⟨name, blanks ++ inner, known, entry.blanks_append blank, by simp [split]⟩
                · cases read

theorem readChoiceObject_complete {name : String} (known : pick choices name = .ok a)
    (entry : Entry Null inner (name, ())) (rest : List Char) :
    readChoiceObject choices (inner ++ '\x7d' :: rest) = .ok (a, rest) := by
  obtain ⟨d, tail, start, open'⟩ := entry.exists_head ('\x7d' :: rest)
  obtain ⟨behind, value, after, blank, key, colon, null⟩ :=
    entry.exists_reads accepts_nothing (Bracket.object.ends_closer rest)
  have close : dropBlank isBlank (after ++ Bracket.object.closer :: rest) = '\x7d' :: rest :=
    dropBlank_append blank _
  have key' : readKey (d :: tail) = .ok (name, behind) := by rw [← start]; exact key
  rw [readChoiceObject, start]
  dsimp only
  rw [if_neg open', key']
  dsimp only
  rw [known]
  dsimp only
  rw [colon]
  dsimp only
  rw [null]
  dsimp only
  rw [close]
  dsimp only
  rw [if_pos rfl]

theorem yields_choice : Yields (choice choices) (ChoiceOf choices) := by
  refine ⟨fun {cs a rest} read => ?_⟩
  change readChoice choices cs = .ok (a, rest) at read
  rw [readChoice] at read
  split at read
  · cases read
  next c behind head =>
    split at read
    next quote =>
      subst quote
      split at read
      · cases read
      next name after string =>
        obtain ⟨lit, literal, split⟩ := literal_of_readString string
        cases picked : pick choices name with
        | error fault =>
          rw [picked] at read
          cases read
        | ok a =>
          rw [picked] at read
          cases read
          exact ⟨lit, .name picked literal, head.trans split⟩
    · split at read
      next bracket =>
        subst bracket
        obtain ⟨name, inner, known, entry, rfl⟩ := readChoiceObject_sound read
        exact ⟨_, .object known entry rfl, by simp [head]⟩
      · cases read

theorem accepts_choiceOf (chosen : ChoiceOf choices tok a) : Accepts (choice choices) tok a := by
  cases chosen with
  | name known literal => exact accepts_choice known literal
  | @object name inner known entry braces =>
    subst braces
    refine ⟨fun {cs rest} _ head => ?_, '\x7b', _, rfl, by decide, by decide⟩
    have bracket : dropBlank isBlank cs = '\x7b' :: (inner ++ '\x7d' :: rest) := by simp [head]
    change readChoice choices cs = .ok (a, rest)
    rw [readChoice, bracket]
    dsimp only
    rw [if_neg (by decide), if_pos rfl]
    exact readChoiceObject_complete known entry rest

theorem strict_choice : Strict (choice choices) := by
  refine yields_choice.strict fun tok a chosen => ?_
  cases chosen with
  | name known literal => exact token_of_literal _ _ literal
  | @object name inner known entry braces =>
    subst braces
    have member : Member .object inner () := entry.member token_of_null
    exact Interior.token (b := .object) (.inr ⟨[()], .one member⟩)

end

/-! ## Records -/

section

variable {fields : List (Field ρ)} {blank : ρ} {name : String}

theorem strict_of_fieldEntry (strict : ∀ f ∈ fields, Strict f.read) {gathered : List String × ρ}
    {key : String} {r : Reader (List String × ρ)} (known : fieldEntry fields gathered key = .ok r) :
    Strict r := by
  rw [fieldEntry] at known
  split at known
  · cases known
    exact strict_ignored.map _
  next f found =>
    split at known
    · cases known
    · cases known
      exact (strict f (List.mem_of_find?_eq_some found)).map _

/-- A record is as strict as its fields, in either form and whatever stands in unknown fields. -/
theorem strict_record (strict : ∀ f ∈ fields, Strict f.read) : Strict (record name fields blank) := by
  refine ⟨fun {cs s rest} read => ?_⟩
  rw [record] at read
  dsimp only at read
  split at read
  · cases read
  next c behind head =>
    split at read
    next brace =>
      subst brace
      split at read
      · cases read
      next object =>
        split at read
        · cases read
        · cases read
          have entries : ∀ gathered key r, fieldEntry fields gathered key = .ok r → Strict r :=
            fun _ _ _ => strict_of_fieldEntry strict
          obtain ⟨inner, interior, rfl⟩ := interior_of_readObject entries object
          exact interior.exists_token head
    · split at read
      next bracket =>
        subst bracket
        obtain ⟨inner, items, listed, -, rfl⟩ := readListItems_sound (P := fun _ _ _ => True)
          (fun f member => Yields.imp (fun token => ⟨token, trivial⟩) (strict f member)) read
        exact ⟨_, .of_spellings ⟨inner, rfl, listed⟩, by simp [head]⟩
      · cases read

end

end PipelineParams.Json
