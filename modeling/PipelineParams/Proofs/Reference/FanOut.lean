import PipelineParams.Proofs.Reference.Agreement

/-! # The grammar of fan-out references

A fan-out expression is its parts with dots between them, and a name is a part if it has no dot itself.
Cutting at the dots undoes this (`Text.splitAt_eq_iff`), so the reader accepts exactly what is written
for names without a dot, bare or between delimiters (`MatrixContext.parse_eq_some_iff`).  From this
`MatrixContext.parse_grammar` has that the names are the only ones, and that delimiters make no
difference.
-/

namespace PipelineParams

/-! ## Cutting a text -/

namespace Text

variable {sep : Char} {cs : List Char}

theorem splitFrom_eq_splitOnPPrepend (part : List Char) :
    splitFrom sep part cs = cs.splitOnPPrepend (· == sep) part := by
  induction cs generalizing part with
  | nil => rfl
  | cons c cs ih =>
    simp only [splitFrom, List.splitOnPPrepend_cons_eq_if, beq_iff_eq, ih,
      List.splitOnP_eq_splitOnPPrepend]

theorem splitAt_eq_splitOn : splitAt sep cs = cs.splitOn sep := splitFrom_eq_splitOnPPrepend []

theorem not_mem_of_mem_splitFrom {part : List Char} (clean : sep ∉ part) :
    ∀ p ∈ splitFrom sep part cs, sep ∉ p := by
  induction cs generalizing part with
  | nil =>
    intro p member
    rw [splitFrom, List.mem_singleton] at member
    rwa [member, List.mem_reverse]
  | cons c cs ih =>
    rw [splitFrom]
    split
    next =>
      refine List.forall_mem_cons.2 ⟨?_, ih List.not_mem_nil⟩
      rwa [List.mem_reverse]
    next other => exact ih (by simp [clean, Ne.symm other])

/-- Cutting a text at a character undoes writing the character between the parts. -/
theorem splitAt_eq_iff {parts : List (List Char)} (some_part : parts ≠ []) :
    splitAt sep cs = parts ↔ (∀ p ∈ parts, sep ∉ p) ∧ cs = [sep].intercalate parts := by
  constructor
  · rintro rfl
    exact ⟨not_mem_of_mem_splitFrom List.not_mem_nil, by
      rw [splitAt_eq_splitOn, List.intercalate_splitOn]⟩
  · rintro ⟨clean, rfl⟩
    rw [splitAt_eq_splitOn, List.splitOn_intercalate sep clean some_part]

end Text

/-! ## Expressions -/

namespace MatrixContext

def expression (m : MatrixContext) : String :=
  match m.result with
  | none => "tasks." ++ m.task ++ ".matrix.length"
  | some result => "tasks." ++ m.task ++ ".matrix." ++ result ++ ".length"

def parts (m : MatrixContext) : List (List Char) :=
  "tasks".toList :: m.task.toList :: "matrix".toList ::
    (m.result.toList.map String.toList ++ ["length".toList])

def IsName (name : String) : Prop := name ≠ "" ∧ '.' ∉ name.toList

/-- Both names are names, as far as they are there. -/
def Named (m : MatrixContext) : Prop := IsName m.task ∧ ∀ result ∈ m.result, IsName result

def Spells (text : String) (m : MatrixContext) : Prop :=
  m.Named ∧ (text = m.expression ∨ text = "$(" ++ m.expression ++ ")")

variable {m m' : MatrixContext} {text : String}

theorem toList_expression (m : MatrixContext) :
    m.expression.toList = ['.'].intercalate m.parts := by
  obtain ⟨task, result⟩ := m
  cases result with
  | none => simp [expression, parts, List.intercalate_cons_cons]
  | some result => simp [expression, parts, List.intercalate_cons_cons]

theorem parts_ne_nil (m : MatrixContext) : m.parts ≠ [] := List.cons_ne_nil _ _

theorem no_dot_in_parts_iff :
    (∀ p ∈ m.parts, '.' ∉ p) ↔ '.' ∉ m.task.toList ∧ ∀ result ∈ m.result, '.' ∉ result.toList := by
  obtain ⟨task, result⟩ := m
  cases result with
  | none => simp [parts]
  | some result => simp [parts]

theorem ofParts?_eq_some_iff {segments : List (List Char)} :
    ofParts? segments = some m ↔
      segments = m.parts ∧ m.task ≠ "" ∧ ∀ result ∈ m.result, result ≠ "" := by
  constructor
  · intro read
    unfold ofParts? at read
    split at read
    · split at read
      next shape =>
        obtain ⟨rfl, rfl, rfl, named⟩ := shape
        cases read
        simp [parts, named]
      · cases read
    · split at read
      next shape =>
        obtain ⟨rfl, rfl, rfl, named, named'⟩ := shape
        cases read
        simp [parts, named, named']
      · cases read
    · cases read
  · rintro ⟨rfl, named, named'⟩
    obtain ⟨task, result⟩ := m
    cases result with
    | none => simpa [ofParts?, parts] using named
    | some result => simpa [ofParts?, parts] using And.intro named (named' result rfl)

theorem ofParts?_splitAt_eq_some_iff {cs : List Char} :
    ofParts? (Text.splitAt '.' cs) = some m ↔ m.Named ∧ cs = m.expression.toList := by
  rw [ofParts?_eq_some_iff, Text.splitAt_eq_iff m.parts_ne_nil, no_dot_in_parts_iff,
    ← toList_expression]
  simp only [Named, IsName]
  grind

/-! ## Delimiters -/

theorem delimited?_expression (m : MatrixContext) : delimited? m.expression.toList = none := by
  rw [toList_expression]
  obtain ⟨task, result⟩ := m
  cases result with
  | none => simp [delimited?, Text.stripStart?, parts, List.intercalate_cons_cons]
  | some result => simp [delimited?, Text.stripStart?, parts, List.intercalate_cons_cons]

theorem delimited?_between (m : MatrixContext) :
    delimited? ("$(" ++ m.expression ++ ")").toList = some m.expression.toList :=
  delimited?_eq_some_iff.2 (by simp)

theorem parse_eq_some_iff : parse text = some m ↔ Spells text m := by
  rw [parse, ofChars?, Spells]
  cases delimited : delimited? text.toList with
  | none =>
    have bare : text ≠ "$(" ++ m.expression ++ ")" := by
      rintro rfl
      cases delimited.symm.trans (delimited?_between m)
    rw [Option.getD_none, ofParts?_splitAt_eq_some_iff, String.toList_inj, or_iff_left bare]
  | some inner =>
    have between : text ≠ m.expression := by
      rintro rfl
      cases delimited.symm.trans (delimited?_expression m)
    rw [Option.getD_some, ofParts?_splitAt_eq_some_iff, or_iff_right between, ← String.toList_inj,
      delimited?_eq_some_iff.1 delimited]
    simp

theorem parse_eq_none_iff : parse text = none ↔ ∀ m, ¬ Spells text m := by
  simp only [Option.eq_none_iff_forall_ne_some, ne_eq, parse_eq_some_iff]

theorem Named.pair_ne (named : m.Named) : m.pair ≠ ("", "") :=
  fun same => named.1.1 (Prod.mk.inj same).1

theorem parse_between (m : MatrixContext) :
    parse ("$(" ++ m.expression ++ ")") = parse m.expression := by
  rw [parse, parse, ofChars?, ofChars?, delimited?_between, delimited?_expression]
  rfl

/-- A text is read as a fan-out reference exactly if it is written as one, bare or between delimiters,
with names that are not empty and have no dot.  There is at most one way to read a text so, the
delimiters make no difference whatever the names are, and where there is none the names are empty. -/
theorem parse_grammar :
    (∀ text task, parse text = some ⟨task, none⟩ ↔ IsName task ∧
      (text = "tasks." ++ task ++ ".matrix.length" ∨
        text = "$(" ++ ("tasks." ++ task ++ ".matrix.length") ++ ")")) ∧
    (∀ text task result, parse text = some ⟨task, some result⟩ ↔ (IsName task ∧ IsName result) ∧
      (text = "tasks." ++ task ++ ".matrix." ++ result ++ ".length" ∨
        text = "$(" ++ ("tasks." ++ task ++ ".matrix." ++ result ++ ".length") ++ ")")) ∧
    (∀ text, parse text = none ↔ ∀ m, ¬ Spells text m) ∧
    (∀ text m m', Spells text m → Spells text m' → m = m') ∧
    (∀ m : MatrixContext, parse ("$(" ++ m.expression ++ ")") = parse m.expression) ∧
    (∀ text, names text = ("", "") ↔ ∀ m, ¬ Spells text m) := by
  refine ⟨fun text task => ?_, fun text task result => ?_, fun text => parse_eq_none_iff,
    fun text m m' spells spells' => ?_, parse_between, fun text => ?_⟩
  · rw [parse_eq_some_iff]
    simp [Spells, Named, expression]
  · rw [parse_eq_some_iff]
    simp [Spells, Named, expression]
  · have read := parse_eq_some_iff.2 spells
    rw [parse_eq_some_iff.2 spells'] at read
    exact (Option.some.inj read).symm
  · rw [← parse_eq_none_iff, ← not_iff_not, ← ne_eq, names_ne_iff, Option.isSome_iff_ne_none]

/-- Names may be the words of the expression, and a second pair of delimiters is not taken off. -/
theorem parse_grammar_keywords :
    let m : MatrixContext := ⟨"matrix", some "length"⟩
    let text := "$(tasks.matrix.matrix.length.length)"
    (Spells text m ∧ ∀ m', Spells text m' → m = m') ∧
    parse text = parse "tasks.matrix.matrix.length.length" ∧
    names text = ("matrix", "length") ∧ parse "$($(tasks.t.matrix.length))" = none := by
  intro m text
  obtain ⟨-, -, -, unique, between, -⟩ := parse_grammar
  have spells : Spells text m := parse_eq_some_iff.1 (by decide)
  exact ⟨⟨spells, fun m' => unique text m m' spells⟩, between m, by decide, by decide⟩

end MatrixContext

end PipelineParams
