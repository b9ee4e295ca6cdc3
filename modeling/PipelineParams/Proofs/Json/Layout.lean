import Mathlib.Data.List.TakeWhile
import PipelineParams.Json.Reader
import PipelineParams.Proofs.Json.Literal
import PipelineParams.Proofs.SortedMap.Lookup

/-! # Lists and objects on the page

The grammar of lists and objects over a grammar of their members, with white space between any two
tokens, and the proof that the typed readers accept exactly this grammar.

`Reads r P` says that the reader `r` takes exactly the tokens of `P` off the front of a text and
returns what they denote.  It holds of `string` (`reads_string`) and is kept by `optional`, by
`list` and by `mapOf` (`reads_optional`, `reads_list`, `reads_mapOf`), so no nesting of them needs a
proof of its own.  `read_eq_ok_iff` carries it over to whole documents.

`Accepts r tok a` is one half of this for one token: `r` takes it and returns `a`, whatever else
`r` may take.  It is all that is needed of a reader that knows more spellings than are written.  It
asks only for what `r` does in front of a text that can follow a token (`Ends`), so it also holds of
readers that know numbers, which more digits would make longer.  `Yields r P` is the other half: `r`
takes nothing but tokens of `P`.

An object is read entry by entry in a state, and maps and records share the run lemmas.  `Steps` says
what each entry does to the state where the entries are known (`readObject_of_steps`), and `Chain` where
all that is known is that they have been read (`readObject_sound`).

White space between two tokens could belong to either side.  In the grammar it belongs to whatever
member it touches (`Padded`), and the readers drop it wherever it comes first, so the proofs move it
about with the `blanks_append` lemmas and compare texts behind their white space only.
-/

namespace PipelineParams.Json

variable {α : Type} {P : List Char → α → Prop}

/-! ## White space -/

def Blanks (cs : List Char) : Prop := ∀ c ∈ cs, isBlank c = true

theorem blanks_nil : Blanks [] := fun _ h => nomatch h

theorem Blanks.append {cs ds : List Char} (left : Blanks cs) (right : Blanks ds) :
    Blanks (cs ++ ds) := by
  intro c member
  rcases List.mem_append.1 member with member | member
  · exact left c member
  · exact right c member

theorem dropBlank_append {blanks : List Char} (blank : Blanks blanks) (cs : List Char) :
    dropBlank isBlank (blanks ++ cs) = dropBlank isBlank cs :=
  List.dropWhile_append_of_pos blank

theorem exists_blanks (cs : List Char) :
    ∃ blanks, Blanks blanks ∧ cs = blanks ++ dropBlank isBlank cs :=
  ⟨cs.takeWhile isBlank, fun _ member => (List.mem_takeWhile_imp member),
    List.takeWhile_append_dropWhile.symm⟩

theorem isBlank_of_dropBlank_eq_cons {cs rest : List Char} {c : Char}
    (head : dropBlank isBlank cs = c :: rest) : isBlank c = false := by
  have first := List.head?_dropWhile_not isBlank cs
  rw [← dropBlank, head] at first
  simpa using first

theorem dropBlank_dropBlank (cs : List Char) :
    dropBlank isBlank (dropBlank isBlank cs) = dropBlank isBlank cs := by
  cases head : dropBlank isBlank cs with
  | nil => rfl
  | cons c rest => rw [dropBlank_cons (isBlank_of_dropBlank_eq_cons head)]

theorem dropBlank_eq_nil_iff {cs : List Char} : dropBlank isBlank cs = [] ↔ Blanks cs := by
  rw [dropBlank, List.dropWhile_eq_nil_iff]
  exact Iff.rfl

/-! ## Grammar -/

def Padded (P : List Char → α → Prop) (cs : List Char) (a : α) : Prop :=
  ∃ before tok after, Blanks before ∧ P tok a ∧ Blanks after ∧ cs = before ++ (tok ++ after)

/-- One or more members with a comma between any two. -/
inductive Separated (P : List Char → α → Prop) : List Char → List α → Prop
  | one {cs : List Char} {a : α} : P cs a → Separated P cs [a]
  | more {cs rest : List Char} {a : α} {as : List α} :
      P cs a → Separated P rest as → Separated P (cs ++ ',' :: rest) (a :: as)

def ListOf (P : List Char → α → Prop) (tok : List Char) (as : List α) : Prop :=
  ∃ inner, tok = '[' :: (inner ++ [']']) ∧ (Blanks inner ∧ as = [] ∨ Separated (Padded P) inner as)

def Entry (P : List Char → α → Prop) (cs : List Char) (e : String × α) : Prop :=
  ∃ key value, Padded Literal key e.1 ∧ Padded P value e.2 ∧ cs = key ++ ':' :: value

/-- A key and a value with a colon between them, where `K` is the grammar of the key. -/
def Labelled {κ : Type} (K : List Char → κ → Prop) (P : List Char → α → Prop) (cs : List Char)
    (e : κ × α) : Prop :=
  ∃ key value, Padded K key e.1 ∧ Padded P value e.2 ∧ cs = key ++ ':' :: value

def MembersOf (P : List Char → α → Prop) (tok : List Char) (members : List (String × α)) : Prop :=
  ∃ inner, tok = '\x7b' :: (inner ++ ['\x7d']) ∧
    (Blanks inner ∧ members = [] ∨ Separated (Entry P) inner members)

/-- The members of an object, where `K` is the grammar of the keys. -/
def Braced {κ : Type} (K : List Char → κ → Prop) (P : List Char → α → Prop) (tok : List Char)
    (members : List (κ × α)) : Prop :=
  ∃ inner, tok = '\x7b' :: (inner ++ ['\x7d']) ∧
    (Blanks inner ∧ members = [] ∨ Separated (Labelled K P) inner members)

/-- An object as a map, in which a key has its last value. -/
def MapOf (P : List Char → α → Prop) (tok : List Char) (m : SortedMap α) : Prop :=
  ∃ inner, tok = '\x7b' :: (inner ++ ['\x7d']) ∧
    (Blanks inner ∧ m = SortedMap.empty ∨
      ∃ entries, Separated (Entry P) inner entries ∧ m = SortedMap.ofList entries)

def OrNull (P : List Char → α → Prop) (tok : List Char) : Option α → Prop
  | none => tok = ['n', 'u', 'l', 'l']
  | some a => P tok a

/-- A token starts with a character that neither is blank nor closes a list. -/
def Solid (P : List Char → α → Prop) : Prop :=
  ∀ {tok a}, P tok a → ∃ c cs, tok = c :: cs ∧ isBlank c = false ∧ c ≠ ']'

/-- The reader takes exactly the tokens of `P`, with any white space before them. -/
structure Reads (r : Reader α) (P : List Char → α → Prop) : Prop where
  run_iff : ∀ {cs : List Char} {a : α} {rest : List Char},
    r.run cs = .ok (a, rest) ↔ ∃ tok, P tok a ∧ dropBlank isBlank cs = tok ++ rest
  solid : Solid P

/-- Whatever the reader takes is a token of `P`, with any white space before it. -/
structure Yields (r : Reader α) (P : List Char → α → Prop) : Prop where
  exists_token : ∀ {cs : List Char} {a : α} {rest : List Char},
    r.run cs = .ok (a, rest) → ∃ tok, P tok a ∧ dropBlank isBlank cs = tok ++ rest

/-- What can follow a token: nothing, or else white space, a comma or a closing bracket. -/
def Ends (rest : List Char) : Prop :=
  ∀ c, rest.head? = some c → isBlank c = true ∨ c = ',' ∨ c = ']' ∨ c = '\x7d'

/-- The reader takes this token, with any white space before it, for this value. -/
structure Accepts (r : Reader α) (tok : List Char) (a : α) : Prop where
  run_eq : ∀ {cs rest : List Char},
    Ends rest → dropBlank isBlank cs = tok ++ rest → r.run cs = .ok (a, rest)
  solid : ∃ c cs, tok = c :: cs ∧ isBlank c = false ∧ c ≠ ']'

theorem Yields.imp {Q : List Char → α → Prop} {r : Reader α} (weaker : ∀ {tok a}, P tok a → Q tok a)
    (yields : Yields r P) : Yields r Q := by
  refine ⟨fun read => ?_⟩
  obtain ⟨tok, token, head⟩ := yields.exists_token read
  exact ⟨tok, weaker token, head⟩

theorem Reads.yields {r : Reader α} (reads : Reads r P) : Yields r P := ⟨reads.run_iff.1⟩

theorem Reads.accepts {r : Reader α} (reads : Reads r P) {tok : List Char} {a : α}
    (token : P tok a) : Accepts r tok a where
  run_eq _ head := reads.run_iff.2 ⟨tok, token, head⟩
  solid := reads.solid token

theorem ends_nil : Ends [] := fun _ head => nomatch head

theorem ends_comma (rest : List Char) : Ends (',' :: rest) := by
  rintro c ⟨⟩
  exact .inr (.inl rfl)

theorem Bracket.ends_closer (b : Bracket) (rest : List Char) : Ends (b.closer :: rest) := by
  rintro c ⟨⟩
  cases b with
  | list => exact .inr (.inr (.inl rfl))
  | object => exact .inr (.inr (.inr rfl))

/-- White space can follow a token, whatever comes behind it. -/
theorem Ends.blanks_append {blanks rest : List Char} (ends : Ends rest) (blank : Blanks blanks) :
    Ends (blanks ++ rest) := by
  cases blanks with
  | nil => exact ends
  | cons b blanks =>
    rintro c ⟨⟩
    exact .inl (blank b List.mem_cons_self)

theorem solid_accepts {r : Reader α} : Solid (Accepts r) := Accepts.solid

theorem Solid.dropBlank_append (solid : Solid P) {tok : List Char} {a : α} (token : P tok a)
    (rest : List Char) : dropBlank isBlank (tok ++ rest) = tok ++ rest := by
  obtain ⟨c, cs, rfl, notBlank, -⟩ := solid token
  exact dropBlank_cons notBlank _

theorem Padded.of_token {tok : List Char} {a : α} (token : P tok a) : Padded P tok a :=
  ⟨[], tok, [], blanks_nil, token, blanks_nil, by simp⟩

theorem Padded.imp {β : Type} {Q : List Char → β → Prop} {cs : List Char} {a : α} {b : β}
    (weaker : ∀ {tok}, P tok a → Q tok b) (padded : Padded P cs a) : Padded Q cs b := by
  obtain ⟨before, tok, after, blank, token, blank', rfl⟩ := padded
  exact ⟨before, tok, after, blank, weaker token, blank', rfl⟩

theorem Padded.exists_dropBlank (solid : Solid P) {cs : List Char} {a : α}
    (padded : Padded P cs a) (rest : List Char) :
    ∃ tok after, P tok a ∧ Blanks after ∧ dropBlank isBlank (cs ++ rest) = tok ++ (after ++ rest) := by
  obtain ⟨before, tok, after, blank, token, blank', rfl⟩ := padded
  refine ⟨tok, after, token, blank', ?_⟩
  rw [List.append_assoc, dropBlank_append blank, List.append_assoc,
    solid.dropBlank_append token]

theorem Padded.blanks_append {cs blanks : List Char} {a : α} (blank : Blanks blanks)
    (padded : Padded P cs a) : Padded P (blanks ++ cs) a := by
  obtain ⟨before, tok, after, blank', token, blank'', rfl⟩ := padded
  exact ⟨blanks ++ before, tok, after, blank.append blank', token, blank'', by simp⟩

theorem Entry.blanks_append {cs blanks : List Char} {e : String × α} (blank : Blanks blanks)
    (entry : Entry P cs e) : Entry P (blanks ++ cs) e := by
  obtain ⟨key, value, padded, padded', rfl⟩ := entry
  exact ⟨blanks ++ key, value, padded.blanks_append blank, padded', by simp⟩

theorem Separated.blanks_append {cs blanks : List Char} {as : List α}
    (absorb : ∀ {cs a}, P cs a → P (blanks ++ cs) a) (separated : Separated P cs as) :
    Separated P (blanks ++ cs) as := by
  cases separated with
  | one member => exact .one (absorb member)
  | more member rest =>
    rw [← List.append_assoc]
    exact .more (absorb member) rest

/-! ## Separators -/

theorem Bracket.closer_ne_comma (b : Bracket) : b.closer ≠ ',' := by
  cases b <;> decide

theorem readSeparator_eq_ok_false_iff {b : Bracket} {cs rest : List Char} :
    readSeparator b cs = .ok (rest, false) ↔ dropBlank isBlank cs = b.closer :: rest := by
  rw [readSeparator]
  constructor
  · intro read
    split at read
    · cases read
    next c behind head =>
      split at read
      next close =>
        cases read
        rw [head, close]
      · split at read
        · split at read
          · cases read
          · split at read <;> cases read
        · cases read
  · intro head
    rw [head]
    simp

theorem readSeparator_eq_ok_true_iff {b : Bracket} {cs next : List Char} :
    readSeparator b cs = .ok (next, true) ↔ ∃ behind d tail,
      dropBlank isBlank cs = ',' :: behind ∧ dropBlank isBlank behind = next ∧ next = d :: tail ∧
        d ≠ b.closer := by
  rw [readSeparator]
  constructor
  · intro read
    split at read
    · cases read
    next c behind head =>
      split at read
      · cases read
      · split at read
        next comma =>
          split at read
          · cases read
          next d tail start =>
            split at read
            · cases read
            next open' =>
              cases read
              exact ⟨behind, d, tail, by rw [head, comma], start, rfl, open'⟩
        · cases read
  · rintro ⟨behind, d, tail, head, rfl, start, open'⟩
    rw [head]
    dsimp only
    rw [if_neg (Ne.symm b.closer_ne_comma), if_pos rfl, start]
    simp [open']

/-! ## Strings -/

theorem Literal.exists_quote {lit : List Char} {text : String} (literal : Literal lit text) :
    ∃ cs, lit = '"' :: cs := by
  obtain ⟨body, rfl, -⟩ := literal
  exact ⟨_, rfl⟩

theorem solid_literal : Solid Literal := by
  intro tok text literal
  obtain ⟨cs, rfl⟩ := literal.exists_quote
  exact ⟨'"', cs, rfl, by decide, by decide⟩

theorem reads_string : Reads string Literal where
  solid := solid_literal
  run_iff := by
    intro cs text rest
    show readText cs = .ok (text, rest) ↔ _
    rw [readText]
    constructor
    · intro read
      split at read
      · cases read
      next c behind head =>
        split at read
        next quote =>
          subst quote
          obtain ⟨lit, literal, taken⟩ := literal_of_readString read
          exact ⟨lit, literal, by rw [head, taken]⟩
        · cases read
    · rintro ⟨lit, literal, head⟩
      obtain ⟨behind, quote, read⟩ := readString_of_literal literal rest
      rw [head, quote]
      dsimp only
      rw [if_pos rfl, read]

theorem accepts_choice {choices : List (String × α)} {name : String} {a : α}
    (known : pick choices name = .ok a) {lit : List Char} (literal : Literal lit name) :
    Accepts (choice choices) lit a := by
  refine ⟨fun {cs rest} _ head => ?_, solid_literal literal⟩
  obtain ⟨behind, quote, read⟩ := readString_of_literal literal rest
  show readChoice choices cs = .ok (a, rest)
  rw [readChoice, head, quote]
  dsimp only
  rw [if_pos rfl, read]
  dsimp only
  rw [known]
  rfl

/-! ## Lists -/

theorem Yields.exists_padded {r : Reader α} (yields : Yields r P) {cs after rest : List Char} {a : α}
    (read : r.run cs = .ok (a, after ++ rest)) (blank : Blanks after) :
    ∃ inner, Padded P inner a ∧ cs = inner ++ rest := by
  obtain ⟨tok, token, head⟩ := yields.exists_token read
  obtain ⟨before, blank', split⟩ := exists_blanks cs
  refine ⟨before ++ (tok ++ after), ⟨before, tok, after, blank', token, blank, rfl⟩, ?_⟩
  rw [split, head]
  simp

theorem exists_of_dropBlank_eq {cs rest : List Char} (head : dropBlank isBlank cs = rest) :
    ∃ blanks, Blanks blanks ∧ cs = blanks ++ rest := by
  obtain ⟨blanks, blank, split⟩ := exists_blanks cs
  exact ⟨blanks, blank, by rw [← head, ← split]⟩

theorem Separated.exists_head {Q : List Char → α → Prop} {closer : Char}
    (heads : ∀ {cs a} rest, Q cs a →
      ∃ d tail, dropBlank isBlank (cs ++ rest) = d :: tail ∧ d ≠ closer)
    {cs : List Char} {as : List α} (separated : Separated Q cs as) (rest : List Char) :
    ∃ d tail, dropBlank isBlank (cs ++ rest) = d :: tail ∧ d ≠ closer := by
  cases separated with
  | one member => exact heads rest member
  | more member _ =>
    rw [List.append_assoc]
    exact heads _ member

theorem Padded.exists_head (solid : Solid P) {cs : List Char} {a : α} (rest : List Char)
    (padded : Padded P cs a) : ∃ d tail, dropBlank isBlank (cs ++ rest) = d :: tail ∧ d ≠ ']' := by
  obtain ⟨tok, after, token, -, head⟩ := padded.exists_dropBlank solid rest
  obtain ⟨d, tail, rfl, -, open'⟩ := solid token
  exact ⟨d, _, head, open'⟩

/-- What happens behind an item that has been read. -/
theorem readItems_of_run {item : Reader α} {done : List α} {cs behind : List Char} {a : α}
    (first : item.run cs = .ok (a, behind)) :
    readItems item done cs =
      match readSeparator .list behind with
      | .error e => .error e
      | .ok (rest, false) => .ok ((a :: done).reverse, rest)
      | .ok (next, true) => readItems item (a :: done) next := by
  conv => lhs; rw [readItems]
  split
  next fault => cases first.symm.trans fault
  next first' =>
    obtain ⟨rfl, rfl⟩ := Prod.mk.inj (Except.ok.inj (first.symm.trans first'))
    split
    next fault => rw [fault]
    next close => rw [close]
    next comma => rw [comma]

theorem readItems_sound {item : Reader α} (yields : Yields item P) {done items : List α}
    {cs rest : List Char} (read : readItems item done cs = .ok (items, rest)) :
    ∃ inner as, Separated (Padded P) inner as ∧ cs = inner ++ ']' :: rest ∧
      items = done.reverse ++ as := by
  fun_induction readItems item done cs with
  | case1 => cases read
  | case2 => cases read
  | case3 done cs a behind first rest' close =>
    cases read
    obtain ⟨after, blank, rfl⟩ := exists_of_dropBlank_eq (readSeparator_eq_ok_false_iff.1 close)
    obtain ⟨inner, padded, rfl⟩ := yields.exists_padded first blank
    exact ⟨inner, [a], .one padded, rfl, by simp⟩
  | case4 done cs a behind first next comma ih =>
    obtain ⟨behind', d, tail, head, start, -, -⟩ := readSeparator_eq_ok_true_iff.1 comma
    obtain ⟨after, blank, rfl⟩ := exists_of_dropBlank_eq head
    obtain ⟨blanks, blank', rfl⟩ := exists_of_dropBlank_eq start
    obtain ⟨inner, padded, rfl⟩ := yields.exists_padded first blank
    obtain ⟨inner', as, separated, rfl, rfl⟩ := ih read
    -- the white space behind the comma goes to the next item
    refine ⟨inner ++ ',' :: (blanks ++ inner'), a :: as, .more padded ?_, by simp, by simp⟩
    exact separated.blanks_append fun padded => padded.blanks_append blank'

theorem readItems_complete {item : Reader α} (accepts : ∀ {tok a}, P tok a → Accepts item tok a)
    {inner rest : List Char} {as : List α} (separated : Separated (Padded P) inner as)
    {cs : List Char} (done : List α)
    (start : dropBlank isBlank cs = dropBlank isBlank (inner ++ ']' :: rest)) :
    readItems item done cs = .ok (done.reverse ++ as, rest) := by
  have solid : Solid P := fun token => (accepts token).solid
  induction separated generalizing cs done with
  | @one inner a padded =>
    obtain ⟨tok, after, token, blank, head⟩ := padded.exists_dropBlank solid (']' :: rest)
    have ends : Ends (']' :: rest) := Bracket.list.ends_closer rest
    have first := (accepts token).run_eq (ends.blanks_append blank) (start.trans head)
    have close : readSeparator .list (after ++ ']' :: rest) = .ok (rest, false) :=
      readSeparator_eq_ok_false_iff.2 (dropBlank_append blank _)
    rw [readItems_of_run first, close]
    simp
  | @more inner inner' a as padded separated ih =>
    rw [List.append_assoc, List.cons_append] at start
    obtain ⟨tok, after, token, blank, head⟩ := padded.exists_dropBlank solid _
    -- the reader goes on behind the white space, which is why `cs` is compared behind its own
    have first := (accepts token).run_eq ((ends_comma _).blanks_append blank) (start.trans head)
    obtain ⟨d, tail, next, open'⟩ :=
      separated.exists_head (Padded.exists_head solid) (']' :: rest)
    have comma : readSeparator .list (after ++ ',' :: (inner' ++ ']' :: rest)) =
        .ok (d :: tail, true) :=
      readSeparator_eq_ok_true_iff.2 ⟨_, d, tail, dropBlank_append blank _, next, rfl, open'⟩
    rw [readItems_of_run first, comma]
    dsimp only
    rw [ih, List.reverse_cons, List.append_assoc]
    · rfl
    · rw [← next, dropBlank_dropBlank]

theorem solid_listOf : Solid (ListOf P) := by
  rintro tok as ⟨inner, rfl, -⟩
  exact ⟨'[', _, rfl, by decide, by decide⟩

/-- A list is read up to its closing bracket, whatever follows it. -/
theorem readList_complete {item : Reader α} (accepts : ∀ {tok a}, P tok a → Accepts item tok a)
    {tok : List Char} {as : List α} (listed : ListOf P tok as) {cs rest : List Char}
    (head : dropBlank isBlank cs = tok ++ rest) : readList item cs = .ok (as, rest) := by
  obtain ⟨inner, rfl, members⟩ := listed
  have bracket : dropBlank isBlank cs = '[' :: (inner ++ ']' :: rest) := by simp [head]
  rw [readList, bracket]
  dsimp only
  rw [if_pos rfl]
  rcases members with ⟨blank, rfl⟩ | separated
  · have start : dropBlank isBlank (inner ++ ']' :: rest) = ']' :: rest := dropBlank_append blank _
    rw [start]
    simp
  · have solid : Solid P := fun token => (accepts token).solid
    obtain ⟨d, tail, start, open'⟩ :=
      separated.exists_head (Padded.exists_head solid) (']' :: rest)
    rw [start]
    dsimp only
    rw [if_neg open', readItems_complete accepts separated]
    · rfl
    · rw [← start, dropBlank_dropBlank]

theorem accepts_list {item : Reader α} (accepts : ∀ {tok a}, P tok a → Accepts item tok a)
    {tok : List Char} {as : List α} (listed : ListOf P tok as) : Accepts (list item) tok as where
  run_eq _ head := readList_complete accepts listed head
  solid := solid_listOf listed

theorem yields_list {item : Reader α} (yields : Yields item P) : Yields (list item) (ListOf P) := by
  refine ⟨fun {cs as rest} read => ?_⟩
  change readList item cs = .ok (as, rest) at read
  rw [readList] at read
  split at read
  · cases read
  next c behind head =>
    split at read
    next bracket =>
      subst bracket
      split at read
      · cases read
      next d next start =>
        obtain ⟨blanks, blank, rfl⟩ := exists_of_dropBlank_eq start
        split at read
        next close =>
          cases read
          exact ⟨_, ⟨blanks, rfl, .inl ⟨blank, rfl⟩⟩, by simp [head, close]⟩
        next =>
          -- white space behind the bracket belongs to the first item
          obtain ⟨inner, as', separated, next, rfl⟩ := readItems_sound yields read
          have padded := separated.blanks_append (fun padded => padded.blanks_append blank)
          exact ⟨_, ⟨blanks ++ inner, rfl, .inr padded⟩, by simp [head, next]⟩
    · cases read

theorem reads_list {item : Reader α} (reads : Reads item P) : Reads (list item) (ListOf P) where
  solid := solid_listOf
  run_iff := by
    refine ⟨(yields_list reads.yields).exists_token, ?_⟩
    rintro ⟨tok, listed, head⟩
    exact readList_complete reads.accepts listed head

/-! ## Objects -/

theorem Accepts.map {β : Type} {r : Reader α} {tok : List Char} {a : α} (accepts : Accepts r tok a)
    (f : α → β) : Accepts (r.map f) tok (f a) where
  run_eq ends head := by
    rw [Reader.map]
    dsimp only
    rw [accepts.run_eq ends head]
  solid := accepts.solid

theorem run_map_eq_ok_iff {β : Type} {r : Reader α} {f : α → β} {cs rest : List Char} {b : β} :
    (r.map f).run cs = .ok (b, rest) ↔ ∃ a, r.run cs = .ok (a, rest) ∧ f a = b := by
  rw [Reader.map]
  dsimp only
  constructor
  · intro read
    split at read
    · cases read
    next a behind run =>
      cases read
      exact ⟨a, run, rfl⟩
  · rintro ⟨a, run, rfl⟩
    rw [run]

theorem readKey_eq_ok_iff {cs rest : List Char} {key : String} :
    readKey cs = .ok (key, rest) ↔ ∃ lit, Literal lit key ∧ cs = lit ++ rest := by
  constructor
  · intro read
    cases cs with
    | nil => cases read
    | cons c cs =>
      rw [readKey] at read
      split at read
      next quote =>
        subst quote
        exact literal_of_readString read
      · cases read
  · rintro ⟨lit, literal, rfl⟩
    obtain ⟨behind, quote, read⟩ := readString_of_literal literal rest
    rw [quote, readKey, if_pos rfl, read]

theorem readColon_eq_ok_iff {cs rest : List Char} :
    readColon cs = .ok rest ↔ dropBlank isBlank cs = ':' :: rest := by
  rw [readColon]
  constructor
  · intro read
    split at read
    · cases read
    next c behind head =>
      split at read
      next colon =>
        cases read
        rw [head, colon]
      · cases read
  · intro head
    rw [head]
    simp

section

variable {κ : Type} {K : List Char → κ → Prop} (strings : ∀ tok k, K tok k → StringToken tok)
include strings

theorem solid_of_strings : Solid K := by
  intro tok k key
  obtain ⟨body, rfl, -⟩ := strings tok k key
  exact ⟨'"', _, rfl, by decide, by decide⟩

theorem Labelled.exists_head {cs : List Char} {e : κ × α} (rest : List Char)
    (labelled : Labelled K P cs e) :
    ∃ d tail, dropBlank isBlank (cs ++ rest) = d :: tail ∧ d ≠ '\x7d' := by
  obtain ⟨key, value, padded, -, rfl⟩ := labelled
  rw [List.append_assoc]
  have solid : Solid K := solid_of_strings strings
  obtain ⟨tok, after, token, -, head⟩ := padded.exists_dropBlank solid _
  obtain ⟨body, rfl, -⟩ := strings tok e.1 token
  exact ⟨'"', _, head, by decide⟩

end

theorem Entry.exists_head {cs : List Char} {e : String × α} (rest : List Char)
    (entry : Entry P cs e) : ∃ d tail, dropBlank isBlank (cs ++ rest) = d :: tail ∧ d ≠ '\x7d' :=
  Labelled.exists_head (fun _ _ => StringToken.of_literal) rest entry

/-- What happens behind an entry that has been read. -/
theorem readEntries_of_run {σ : Type} {entry : σ → String → Except Error (Reader σ)}
    {gathered s : σ} {cs behind start after : List Char} {key : String} {value : Reader σ}
    (first : readKey cs = .ok (key, behind)) (known : entry gathered key = .ok value)
    (colon : readColon behind = .ok start) (read : value.run start = .ok (s, after)) :
    readEntries entry gathered cs =
      match readSeparator .object after with
      | .error e => .error e
      | .ok (rest, false) => .ok (s, rest)
      | .ok (next, true) => readEntries entry s next := by
  conv => lhs; rw [readEntries]
  split
  next fault => cases first.symm.trans fault
  next first' =>
    cases first.symm.trans first'
    rw [known]
    dsimp only
    split
    next fault => cases colon.symm.trans fault
    next colon' =>
      cases colon.symm.trans colon'
      split
      next fault => cases read.symm.trans fault
      next read' =>
        obtain ⟨rfl, rfl⟩ := Prod.mk.inj (Except.ok.inj (read.symm.trans read'))
        split
        next fault => rw [fault]
        next close => rw [close]
        next comma => rw [comma]

abbrev gather (value : Reader α) : SortedMap α → String → Except Error (Reader (SortedMap α)) :=
  fun m key => .ok (value.map (m.insert key))

theorem Yields.exists_entry {value : Reader α} (yields : Yields value P) {key : String} {a : α}
    {cs behind start after rest : List Char} (first : readKey cs = .ok (key, behind))
    (colon : readColon behind = .ok start) (read : value.run start = .ok (a, after ++ rest))
    (blank : Blanks after) : ∃ inner, Entry P inner (key, a) ∧ cs = inner ++ rest := by
  obtain ⟨lit, literal, rfl⟩ := readKey_eq_ok_iff.1 first
  obtain ⟨blanks, blank', rfl⟩ := exists_of_dropBlank_eq (readColon_eq_ok_iff.1 colon)
  obtain ⟨inner, padded, rfl⟩ := yields.exists_padded read blank
  have label : Padded Literal (lit ++ blanks) key :=
    ⟨[], lit, blanks, blanks_nil, literal, blank', rfl⟩
  exact ⟨lit ++ blanks ++ ':' :: inner, ⟨_, inner, label, padded, rfl⟩, by simp⟩

section

variable {σ : Type} {entry : σ → String → Except Error (Reader σ)} {s t : σ}

inductive Chain (step : σ → String → α → σ → Prop) : σ → List (String × α) → σ → Prop
  | nil {s : σ} : Chain step s [] s
  | cons {s s' t : σ} {key : String} {a : α} {es : List (String × α)} :
      step s key a s' → Chain step s' es t → Chain step s ((key, a) :: es) t

section

variable {step : σ → String → α → σ → Prop}
  (yields : ∀ s key r, entry s key = .ok r →
    Yields r fun tok s' => ∃ a, P tok a ∧ step s key a s')
include yields

theorem exists_entry_of_run {s s' : σ} {key : String} {r : Reader σ}
    (known : entry s key = .ok r) {cs behind start after rest : List Char}
    (first : readKey cs = .ok (key, behind)) (colon : readColon behind = .ok start)
    (read : r.run start = .ok (s', after ++ rest)) (blank : Blanks after) :
    ∃ inner a, Entry P inner (key, a) ∧ step s key a s' ∧ cs = inner ++ rest := by
  obtain ⟨inner, entry, split⟩ := (yields s key r known).exists_entry first colon read blank
  obtain ⟨label, text, padded, ⟨before, tok, after', blank', ⟨a, token, stepped⟩, blank'', rfl⟩,
    rfl⟩ := entry
  exact ⟨_, a, ⟨label, _, padded, ⟨before, tok, after', blank', token, blank'', rfl⟩, rfl⟩,
    stepped, split⟩

theorem readEntries_sound {cs rest : List Char} (read : readEntries entry s cs = .ok (t, rest)) :
    ∃ inner es, Separated (Entry P) inner es ∧ Chain step s es t ∧ cs = inner ++ '\x7d' :: rest := by
  fun_induction readEntries entry s cs with
  | case6 s cs key behind first r known start colon s' after read' rest' close =>
    cases read
    obtain ⟨blanks, blank, rfl⟩ := exists_of_dropBlank_eq (readSeparator_eq_ok_false_iff.1 close)
    obtain ⟨inner, a, entry, stepped, rfl⟩ :=
      exists_entry_of_run yields known first colon read' blank
    exact ⟨inner, [(key, a)], .one entry, .cons stepped .nil, rfl⟩
  | case7 s cs key behind first r known start colon s' after read' next comma ih =>
    obtain ⟨behind', d, tail, head, next, -, -⟩ := readSeparator_eq_ok_true_iff.1 comma
    obtain ⟨blanks, blank, rfl⟩ := exists_of_dropBlank_eq head
    obtain ⟨blanks', blank', rfl⟩ := exists_of_dropBlank_eq next
    obtain ⟨inner, a, entry, stepped, rfl⟩ :=
      exists_entry_of_run yields known first colon read' blank
    obtain ⟨inner', es, separated, chain, rfl⟩ := ih read
    refine ⟨inner ++ ',' :: (blanks' ++ inner'), (key, a) :: es, .more entry ?_,
      .cons stepped chain, by simp⟩
    exact separated.blanks_append fun entry => entry.blanks_append blank'
  | _ => cases read

/-- What is read as an object are its members, and each takes the state one step on. -/
theorem readObject_sound {cs rest : List Char} (read : readObject entry s cs = .ok (t, rest)) :
    ∃ inner es, (Blanks inner ∧ es = [] ∨ Separated (Entry P) inner es) ∧ Chain step s es t ∧
      cs = inner ++ '\x7d' :: rest := by
  rw [readObject] at read
  split at read
  · cases read
  next d next start =>
    obtain ⟨blanks, blank, rfl⟩ := exists_of_dropBlank_eq start
    split at read
    next close =>
      cases read
      exact ⟨blanks, [], .inl ⟨blank, rfl⟩, .nil, by rw [close]⟩
    next =>
      obtain ⟨inner, es, separated, chain, next⟩ := readEntries_sound yields read
      refine ⟨blanks ++ inner, es, .inr ?_, chain, by rw [next, List.append_assoc]⟩
      exact separated.blanks_append fun entry => entry.blanks_append blank

end

/-- What the entries of an object do to the state that they are read in: each is read as its key
says in the state before it. -/
inductive Steps (entry : σ → String → Except Error (Reader σ)) (P : List Char → α → Prop) :
    σ → List (String × α) → σ → Prop
  | nil {s : σ} : Steps entry P s [] s
  | cons {s s' t : σ} {key : String} {a : α} {es : List (String × α)} {r : Reader σ} :
      entry s key = .ok r → (∀ {tok}, P tok a → Accepts r tok s') → Steps entry P s' es t →
        Steps entry P s ((key, a) :: es) t

/-- Where an entry stands, its key, colon and value are read one after the other. -/
theorem Entry.exists_reads {r : Reader σ} {key : String} {a : α}
    (accepts : ∀ {tok}, P tok a → Accepts r tok t) {inner : List Char}
    (member : Entry P inner (key, a)) {rest : List Char} (ends : Ends rest) :
    ∃ behind start after, Blanks after ∧
      readKey (dropBlank isBlank (inner ++ rest)) = .ok (key, behind) ∧
      readColon behind = .ok start ∧ r.run start = .ok (t, after ++ rest) := by
  obtain ⟨label, text, padded, padded', rfl⟩ := member
  rw [List.append_assoc]
  obtain ⟨lit, blanks, literal, blank, head⟩ := padded.exists_dropBlank solid_literal _
  obtain ⟨tok, after, token, blank', head'⟩ :=
    (padded'.imp accepts).exists_dropBlank solid_accepts rest
  refine ⟨_, text ++ rest, after, blank', readKey_eq_ok_iff.2 ⟨lit, literal, head⟩, ?_, ?_⟩
  · exact readColon_eq_ok_iff.2 (dropBlank_append blank _)
  · exact token.run_eq (ends.blanks_append blank') head'

theorem readEntries_of_steps {inner rest : List Char} {es : List (String × α)}
    (separated : Separated (Entry P) inner es) (steps : Steps entry P s es t) :
    readEntries entry s (dropBlank isBlank (inner ++ '\x7d' :: rest)) = .ok (t, rest) := by
  induction separated generalizing s with
  | @one inner e member =>
    obtain - | ⟨known, accepts, steps⟩ := steps
    cases steps
    have ends : Ends ('\x7d' :: rest) := Bracket.object.ends_closer rest
    obtain ⟨behind, start, after, blank, first, colon, read⟩ := member.exists_reads accepts ends
    have close : readSeparator .object (after ++ '\x7d' :: rest) = .ok (rest, false) :=
      readSeparator_eq_ok_false_iff.2 (dropBlank_append blank _)
    rw [readEntries_of_run first known colon read, close]
  | @more inner inner' e entries member separated ih =>
    obtain - | ⟨known, accepts, steps⟩ := steps
    obtain ⟨behind, start, after, blank, first, colon, read⟩ :=
      member.exists_reads accepts (ends_comma (inner' ++ '\x7d' :: rest))
    obtain ⟨d, tail, next, open'⟩ := separated.exists_head Entry.exists_head ('\x7d' :: rest)
    have comma : readSeparator .object (after ++ ',' :: (inner' ++ '\x7d' :: rest)) =
        .ok (d :: tail, true) :=
      readSeparator_eq_ok_true_iff.2 ⟨_, d, tail, dropBlank_append blank _, next, rfl, open'⟩
    rw [List.append_assoc, List.cons_append, readEntries_of_run first known colon read, comma]
    dsimp only
    rw [← next, ih steps]

/-- An object is read by the steps of its entries. -/
theorem readObject_of_steps {inner : List Char} {es : List (String × α)}
    (members : Blanks inner ∧ es = [] ∨ Separated (Entry P) inner es)
    (steps : Steps entry P s es t) (rest : List Char) :
    readObject entry s (inner ++ '\x7d' :: rest) = .ok (t, rest) := by
  rw [readObject]
  rcases members with ⟨blank, rfl⟩ | separated
  · have start : dropBlank isBlank (inner ++ '\x7d' :: rest) = '\x7d' :: rest :=
      dropBlank_append blank _
    cases steps
    rw [start]
    simp
  · obtain ⟨d, tail, start, open'⟩ := separated.exists_head Entry.exists_head ('\x7d' :: rest)
    rw [start]
    dsimp only
    rw [if_neg open', ← start]
    exact readEntries_of_steps separated steps

end

theorem mapOf_iff_ofList {tok : List Char} {m : SortedMap α} :
    MapOf P tok m ↔ ∃ members, MembersOf P tok members ∧ m = SortedMap.ofList members := by
  constructor
  · rintro ⟨inner, braces, ⟨blank, rfl⟩ | ⟨members, separated, rfl⟩⟩
    · exact ⟨[], ⟨inner, braces, .inl ⟨blank, rfl⟩⟩, rfl⟩
    · exact ⟨members, ⟨inner, braces, .inr separated⟩, rfl⟩
  · rintro ⟨members, ⟨inner, braces, ⟨blank, rfl⟩ | separated⟩, rfl⟩
    · exact ⟨inner, braces, .inl ⟨blank, rfl⟩⟩
    · exact ⟨inner, braces, .inr ⟨members, separated, rfl⟩⟩

/-- The entries of a map are inserted one after the other. -/
theorem steps_gather {value : Reader α} (accepts : ∀ {tok a}, P tok a → Accepts value tok a)
    (es : List (String × α)) (m : SortedMap α) :
    Steps (gather value) P m es (m.insertAll es) := by
  induction es generalizing m with
  | nil => exact .nil
  | cons e es ih => exact .cons rfl (fun token => (accepts token).map _) (ih _)

theorem solid_mapOf : Solid (MapOf P) := by
  rintro tok m ⟨inner, rfl, -⟩
  exact ⟨'\x7b', _, rfl, by decide, by decide⟩

/-- A map is read up to its closing brace, whatever follows it. -/
theorem readMap_complete {value : Reader α} (accepts : ∀ {tok a}, P tok a → Accepts value tok a)
    {tok : List Char} {m : SortedMap α} (mapped : MapOf P tok m) {cs rest : List Char}
    (head : dropBlank isBlank cs = tok ++ rest) : readMap value cs = .ok (m, rest) := by
  obtain ⟨es, ⟨inner, rfl, members⟩, rfl⟩ := mapOf_iff_ofList.1 mapped
  have bracket : dropBlank isBlank cs = '\x7b' :: (inner ++ '\x7d' :: rest) := by simp [head]
  rw [readMap, bracket]
  dsimp only
  rw [if_pos rfl]
  exact readObject_of_steps members (steps_gather accepts es SortedMap.empty) rest

theorem accepts_mapOf {value : Reader α} (accepts : ∀ {tok a}, P tok a → Accepts value tok a)
    {tok : List Char} {m : SortedMap α} (mapped : MapOf P tok m) :
    Accepts (mapOf value) tok m where
  run_eq _ head := readMap_complete accepts mapped head
  solid := solid_mapOf mapped

theorem chain_insert {m n : SortedMap α} {es : List (String × α)}
    (chain : Chain (fun m key a m' => m' = m.insert key a) m es n) : n = m.insertAll es := by
  induction chain with
  | nil => rfl
  | cons inserted _ ih =>
    rw [ih, inserted]
    rfl

theorem yields_mapOf {value : Reader α} (yields : Yields value P) :
    Yields (mapOf value) (MapOf P) := by
  refine ⟨fun {cs m rest} read => ?_⟩
  change readMap value cs = .ok (m, rest) at read
  rw [readMap] at read
  split at read
  · cases read
  next c behind head =>
    split at read
    next bracket =>
      subst bracket
      have inserts : ∀ m key r, gather value m key = .ok r →
          Yields r fun tok m' => ∃ a, P tok a ∧ m' = m.insert key a := by
        rintro m key _ ⟨⟩
        refine ⟨fun {cs m' rest} run => ?_⟩
        obtain ⟨a, run', rfl⟩ := run_map_eq_ok_iff.1 run
        obtain ⟨tok, token, head⟩ := yields.exists_token run'
        exact ⟨tok, ⟨a, token, rfl⟩, head⟩
      obtain ⟨inner, es, members, chain, rfl⟩ := readObject_sound inserts read
      refine ⟨'\x7b' :: (inner ++ ['\x7d']), mapOf_iff_ofList.2 ⟨es, ⟨inner, rfl, members⟩, ?_⟩, ?_⟩
      · exact chain_insert chain
      · simp [head]
    · cases read

theorem reads_mapOf {value : Reader α} (reads : Reads value P) :
    Reads (mapOf value) (MapOf P) where
  solid := solid_mapOf
  run_iff := by
    refine ⟨(yields_mapOf reads.yields).exists_token, ?_⟩
    rintro ⟨tok, mapped, head⟩
    exact readMap_complete reads.accepts mapped head

/-! ## Absent values -/

theorem skipLetters_eq_ok_iff {ls cs rest : List Char} :
    skipLetters ls cs = .ok rest ↔ cs = ls ++ rest := by
  induction ls generalizing cs with
  | nil => rw [skipLetters, Except.ok.injEq, List.nil_append]
  | cons l ls ih =>
    cases cs with
    | nil => simp [skipLetters]
    | cons c cs =>
      rw [skipLetters]
      split
      next same => rw [ih, same, List.cons_append, List.cons.injEq, and_iff_right rfl]
      next other => simp [other]

theorem map_skipLetters_eq_ok_iff {ls cs rest : List Char} {a b : α} :
    ((skipLetters ls cs).map fun behind => (a, behind)) = .ok (b, rest) ↔
      b = a ∧ cs = ls ++ rest := by
  rw [← skipLetters_eq_ok_iff]
  cases skipLetters ls cs with
  | error fault => exact ⟨fun read => (nomatch read), fun read => (nomatch read.2)⟩
  | ok behind =>
    change Except.ok (a, behind) = .ok (b, rest) ↔ b = a ∧ Except.ok behind = .ok rest
    simp only [Except.ok.injEq, Prod.mk.injEq, eq_comm]

theorem readOptional_null {r : Reader α} {cs rest : List Char}
    (head : dropBlank isBlank cs = ['n', 'u', 'l', 'l'] ++ rest) :
    readOptional r cs = .ok (none, rest) := by
  have word : skipLetters ['u', 'l', 'l'] (['u', 'l', 'l'] ++ rest) = .ok rest :=
    skipLetters_eq_ok_iff.2 rfl
  rw [readOptional, head, List.cons_append]
  dsimp only
  rw [if_pos rfl, word]
  rfl

/-- Only what starts with `n` could be taken for the word. -/
theorem readOptional_of_run {r : Reader α} {cs rest : List Char} {a : α}
    (run : r.run cs = .ok (a, rest)) (notNull : ∀ tail, dropBlank isBlank cs ≠ 'n' :: tail) :
    readOptional r cs = .ok (some a, rest) := by
  have run' : (r.map some).run cs = .ok (some a, rest) := run_map_eq_ok_iff.2 ⟨a, run, rfl⟩
  rw [readOptional]
  split
  · exact run'
  next c tail head =>
    have other : c ≠ 'n' := by
      rintro rfl
      exact notNull tail head
    rw [if_neg other, run']

theorem accepts_null (r : Reader α) : Accepts (optional r) ['n', 'u', 'l', 'l'] none where
  run_eq _ head := readOptional_null head
  solid := ⟨'n', _, rfl, by decide, by decide⟩

theorem Accepts.optional {r : Reader α} {tok : List Char} {a : α} (accepts : Accepts r tok a)
    (notNull : ∀ cs, tok ≠ 'n' :: cs) : Accepts (optional r) tok (some a) where
  run_eq {cs rest} ends head := by
    refine readOptional_of_run (accepts.run_eq ends head) fun tail null => ?_
    obtain ⟨c, cs, rfl, -, -⟩ := accepts.solid
    obtain ⟨rfl, -⟩ := List.cons.inj (head.symm.trans null)
    exact notNull cs rfl
  solid := accepts.solid

theorem yields_optional {r : Reader α} (yields : Yields r P) : Yields (optional r) (OrNull P) := by
  refine ⟨fun {cs o rest} read => ?_⟩
  change readOptional r cs = .ok (o, rest) at read
  rw [readOptional] at read
  split at read
  · obtain ⟨a, run, rfl⟩ := run_map_eq_ok_iff.1 read
    exact yields.exists_token run
  next c behind head =>
    split at read
    next isN =>
      obtain ⟨rfl, word⟩ := map_skipLetters_eq_ok_iff.1 read
      exact ⟨_, rfl, by rw [head, isN, word]; rfl⟩
    next =>
      obtain ⟨a, run, rfl⟩ := run_map_eq_ok_iff.1 read
      exact yields.exists_token run

theorem reads_optional {r : Reader α} (reads : Reads r P)
    (notNull : ∀ {cs a}, ¬ P ('n' :: cs) a) : Reads (optional r) (OrNull P) where
  solid := by
    rintro tok (_ | a) token
    · exact ⟨'n', _, token, by decide, by decide⟩
    · exact reads.solid token
  run_iff := by
    intro cs o rest
    refine ⟨(yields_optional reads.yields).exists_token, ?_⟩
    rintro ⟨tok, token, head⟩
    cases o with
    | none =>
      obtain rfl := token
      exact readOptional_null head
    | some a =>
      refine readOptional_of_run (reads.run_iff.2 ⟨tok, token, head⟩) fun tail null => ?_
      obtain ⟨c, cs, rfl, -, -⟩ := reads.solid token
      obtain ⟨rfl, -⟩ := List.cons.inj (head.symm.trans null)
      exact notNull token

theorem reads_optional_string : Reads (optional string) (OrNull Literal) :=
  reads_optional reads_string fun literal => by
    obtain ⟨cs, quote⟩ := literal.exists_quote
    cases quote

/-! ## Documents -/

theorem read_of_accepts {r : Reader α} {text : String} {a : α}
    (padded : Padded (Accepts r) text.toList a) : read r text = .ok a := by
  obtain ⟨tok, after, token, blank, head⟩ := padded.exists_dropBlank solid_accepts []
  rw [List.append_nil] at head
  rw [read, token.run_eq (ends_nil.blanks_append blank) head, List.append_nil]
  dsimp only
  rw [if_pos (dropBlank_eq_nil_iff.2 blank)]

theorem Yields.padded_of_read {r : Reader α} (yields : Yields r P) {text : String} {a : α}
    (read : read r text = .ok a) : Padded P text.toList a := by
  rw [Json.read] at read
  split at read
  · cases read
  next a' rest run =>
    split at read
    next blank =>
      cases read
      have run' : r.run text.toList = .ok (a, rest ++ []) := by rw [run, List.append_nil]
      obtain ⟨inner, padded, split⟩ := yields.exists_padded run' (dropBlank_eq_nil_iff.1 blank)
      rw [split, List.append_nil]
      exact padded
    · cases read

/-- A document is read exactly if it is one token with white space around it. -/
theorem read_eq_ok_iff {r : Reader α} (reads : Reads r P) {text : String} {a : α} :
    read r text = .ok a ↔ Padded P text.toList a :=
  ⟨reads.yields.padded_of_read, fun padded => read_of_accepts (padded.imp reads.accepts)⟩

end PipelineParams.Json
