import PipelineParams.Collection
import PipelineParams.Proofs.Reference.Occurrences
import PipelineParams.Proofs.Reference.Whole

/-! # Readers of one reference

A text that is one reference can be taken as a whole, found by the scanner, stripped to the name of an
array, or read as a fan-out reference with its delimiters or without.  `wholeReference_readers_agree`
says that all of these see the same reference.

Each reader takes the delimiters off in its own way.  They agree because a name expression has none of
the characters of a delimiter (`NameExpression.isExpression`, `NameExpression.delimited?_eq_none`), and
because a fan-out expression ends in `length` and so never in a star (`not_starred_of_parse`).
-/

namespace PipelineParams

/-! ## Delimiters -/

theorem NameExpression.isExpression {expr : List Char} (named : NameExpression expr) :
    IsExpression expr where
  ne_nil := by
    obtain ⟨name, subscript, nonempty, -, -, rfl⟩ := named
    simp [nonempty]
  no_close member := absurd (named.forall_mem ')' member) (by decide)
  no_opener opener := absurd (named.forall_mem '$' (opener.subset (by decide))) (by decide)

theorem NameExpression.delimited?_eq_none {expr : List Char} (named : NameExpression expr) :
    MatrixContext.delimited? expr = none := by
  cases delimited : MatrixContext.delimited? expr with
  | none => rfl
  | some inner =>
    have opener : '$' ∈ expr := by
      rw [delimited?_eq_some_iff.1 delimited]
      exact List.mem_cons_self
    exact absurd (named.forall_mem '$' opener) (by decide)

/-- Taking the delimiters and a star off at once is taking the star off the expression. -/
theorem stripEnd?_star_close (expr : List Char) :
    Text.stripEnd? ['[', '*', ']', ')'] (expr ++ [')']) = Text.stripEnd? ['[', '*', ']'] expr := by
  apply Option.ext
  intro name
  rw [Text.stripEnd?_eq_some_iff, Text.stripEnd?_eq_some_iff,
    show ['[', '*', ']', ')'] = ['[', '*', ']'] ++ [')'] from rfl, ← List.append_assoc,
    List.append_cancel_right_eq]

theorem Text.length_getD_stripStart?_le (start cs : List Char) :
    ((stripStart? start cs).getD cs).length ≤ cs.length := by
  cases stripped : stripStart? start cs with
  | none => exact Nat.le_refl _
  | some rest =>
    rw [stripStart?_eq_some_iff.1 stripped, List.length_append]
    exact Nat.le_add_left _ _

/-! ## Fan-out expressions -/

theorem Text.splitFrom_ne_nil {sep : Char} {part cs : List Char} : splitFrom sep part cs ≠ [] := by
  induction cs generalizing part with
  | nil => exact List.cons_ne_nil _ _
  | cons c cs ih =>
    rw [splitFrom]
    split
    · exact List.cons_ne_nil _ _
    · exact ih

/-- A text ends with the last of its parts. -/
theorem Text.suffix_of_getLast?_splitFrom {sep : Char} {part cs last : List Char}
    (parts : (splitFrom sep part cs).getLast? = some last) : last <:+ part.reverse ++ cs := by
  induction cs generalizing part with
  | nil =>
    cases parts
    simp
  | cons c cs ih =>
    rw [splitFrom] at parts
    split at parts
    · rw [List.getLast?_cons_of_ne_nil Text.splitFrom_ne_nil] at parts
      exact (ih parts).trans ((List.suffix_cons c cs).trans (List.suffix_append _ _))
    · simpa using ih parts

namespace MatrixContext

theorem getLast?_of_ofParts? {parts : List (List Char)} {m : MatrixContext}
    (read : ofParts? parts = some m) : parts.getLast? = some "length".toList ∧ m.task ≠ "" := by
  unfold ofParts? at read
  split at read
  · split at read
    next shape =>
      obtain ⟨-, -, rfl, named⟩ := shape
      cases read
      exact ⟨rfl, by simpa using named⟩
    · cases read
  · split at read
    next shape =>
      obtain ⟨-, -, rfl, named, -⟩ := shape
      cases read
      exact ⟨rfl, by simpa using named⟩
    · cases read
  · cases read

/-- A fan-out expression does not end in a star. -/
theorem not_starred_of_ofChars? {expr : List Char} {m : MatrixContext} (named : NameExpression expr)
    (read : ofChars? expr = some m) : Text.stripEnd? ['[', '*', ']'] expr = none := by
  rw [ofChars?, named.delimited?_eq_none] at read
  have ending := Text.suffix_of_getLast?_splitFrom (getLast?_of_ofParts? read).1
  cases starred : Text.stripEnd? ['[', '*', ']'] expr with
  | none => rfl
  | some name =>
    obtain ⟨front, same⟩ := ending
    have clash := congrArg List.getLast? (same.trans (Text.stripEnd?_eq_some_iff.1 starred))
    simp at clash

/-- The delimiters make no difference to a name expression. -/
theorem ofChars?_delimited {expr : List Char} (named : NameExpression expr) :
    ofChars? ('$' :: '(' :: (expr ++ [')'])) = ofChars? expr := by
  rw [ofChars?, ofChars?, delimited?_eq_some_iff.2 rfl, named.delimited?_eq_none]
  rfl

theorem names_ne_iff {expr : String} : names expr ≠ ("", "") ↔ (parse expr).isSome := by
  rw [names]
  cases read : parse expr with
  | none => simp
  | some m => simp [pair, (getLast?_of_ofParts? read).2]

end MatrixContext

/-! ## Kinds -/

namespace Reference

theorem kind_eq_matrix_iff {r : Reference} :
    r.kind = .matrix ↔ (MatrixContext.parse r.expression).isSome := by
  rw [kind, classify, MatrixContext.parse]
  split
  next fanOut => simp [fanOut]
  next plain =>
    refine ⟨fun same => ?_, fun fanOut => absurd fanOut plain⟩
    split at same
    · cases same
    · split at same
      · cases same
      · split at same <;> cases same

theorem kind_eq_star_iff {r : Reference} (named : NameExpression r.expression.toList) :
    r.kind = .star ↔ (Text.stripEnd? ['[', '*', ']'] r.expression.toList).isSome := by
  rw [kind, classify]
  split
  next fanOut =>
    obtain ⟨m, read⟩ := Option.isSome_iff_exists.1 fanOut
    simp [MatrixContext.not_starred_of_ofChars? named read]
  · split
    next starred => simp [starred]
    next plain =>
      refine ⟨fun same => ?_, fun starred => absurd starred plain⟩
      split at same
      · cases same
      · split at same <;> cases same

/-- `name` is a key without one leading `params.`. -/
def Unscoped (key name : String) : Prop :=
  key = "params." ++ name ∨ (∀ rest, key ≠ "params." ++ rest) ∧ name = key

theorem unscoped_stripStart? (key : List Char) :
    Unscoped (String.ofList key)
      (String.ofList ((Text.stripStart? "params.".toList key).getD key)) := by
  cases stripped : Text.stripStart? "params.".toList key with
  | some rest =>
    left
    rw [Text.stripStart?_eq_some_iff.1 stripped, ← String.toList_inj]
    simp
  | none =>
    refine .inr ⟨fun rest same => ?_, rfl⟩
    have here : Text.stripStart? "params.".toList key = some rest.toList := by
      rw [Text.stripStart?_eq_some_iff, ← String.toList_ofList (l := key), same, String.toList_append]
    cases stripped.symm.trans here

end Reference

/-! ## Readers -/

section

variable {text : String} {expr : List Char}

/-- The scanner finds a delimited name expression and nothing else. -/
theorem references_of_delimited (delimited : text.toList = '$' :: '(' :: (expr ++ [')']))
    (named : NameExpression expr) : references text = [Reference.delimited expr] := by
  have located : Located 0 text.toList [⟨0, Reference.delimited expr⟩] := by
    rw [delimited]
    exact .reference named.isExpression .done
  exact located.references_eq

theorem references_of_wholeReference {r : Reference} (whole : wholeReference text = some r) :
    references text = [r] := by
  obtain ⟨rfl, named, delimited⟩ := wholeReference_iff.1 whole
  rw [references_of_delimited delimited named, ← Reference.eq_delimited_self_iff.2 delimited]

theorem wholeReference_of_references {r : Reference} (only : references r.raw = [r])
    (named : NameExpression r.expression.toList) : wholeReference r.raw = some r := by
  obtain ⟨_, -, written, -⟩ := exists_occursFrom_of_mem (only ▸ List.mem_singleton_self r)
  have delimited := Reference.eq_delimited_iff.2 ⟨rfl, written⟩
  exact wholeReference_iff.2 ⟨rfl, named, Reference.eq_delimited_self_iff.1 delimited⟩

theorem starName_of_delimited (delimited : text.toList = '$' :: '(' :: (expr ++ [')'])) :
    starName text =
      (Text.stripEnd? ['[', '*', ']'] expr).elim text fun name =>
        String.ofList ((Text.stripStart? "params.".toList name).getD name) := by
  have body : Text.stripStart? ['$', '('] text.toList = some (expr ++ [')']) :=
    Text.stripStart?_eq_some_iff.2 delimited
  rw [starName, body, Option.bind_some, stripEnd?_star_close]
  cases Text.stripEnd? ['[', '*', ']'] expr <;> rfl

/-- Taking the delimiters and a star off makes a text shorter. -/
theorem starName_ne_iff (delimited : text.toList = '$' :: '(' :: (expr ++ [')'])) :
    starName text ≠ text ↔ (Text.stripEnd? ['[', '*', ']'] expr).isSome := by
  rw [starName_of_delimited delimited]
  cases starred : Text.stripEnd? ['[', '*', ']'] expr with
  | none => simp
  | some name =>
    have shorter := Text.length_getD_stripStart?_le "params.".toList name
    rw [Option.elim_some]
    refine iff_of_true (fun same => ?_) rfl
    have lengths := congrArg List.length (String.toList_inj.2 same)
    rw [delimited, Text.stripEnd?_eq_some_iff.1 starred] at lengths
    simp only [String.toList_ofList, List.length_cons, List.length_append, List.length_nil] at lengths
    omega

theorem names_delimited (delimited : text.toList = '$' :: '(' :: (expr ++ [')']))
    (named : NameExpression expr) :
    MatrixContext.names text = MatrixContext.names (String.ofList expr) := by
  rw [MatrixContext.names, MatrixContext.names, MatrixContext.parse, MatrixContext.parse, delimited,
    MatrixContext.ofChars?_delimited named, String.toList_ofList]

theorem matrixNames_of_references {name : String} {r : Reference} (listed : references text = [r]) :
    Param.matrixNames ⟨name, .string text⟩ = MatrixContext.names r.expression := by
  rw [Param.matrixNames, MatrixContext.names]
  simp only [listed, List.findSome?_cons, List.findSome?_nil]
  cases MatrixContext.parse r.expression <;> rfl

end

/-- A text is one reference with a name expression exactly if the scanner lists this reference for it
and nothing else, and the reference is the whole text.  The star is then taken off it exactly if the
reference is starred, which leaves the key without its scope; and the names of a fan-out reference are
the same with delimiters, without them and in the value of a parameter, and are there exactly if the
reference is one. -/
theorem wholeReference_readers_agree (text : String) (r : Reference) :
    (wholeReference text = some r ↔
      references text = [r] ∧ r.raw = text ∧ NameExpression r.expression.toList) ∧
    (wholeReference text = some r →
      (starName text ≠ text ↔ r.kind = .star) ∧
      (r.kind = .star → Reference.Unscoped r.key (starName text)) ∧
      MatrixContext.names text = MatrixContext.names r.expression ∧
      (∀ name, Param.matrixNames ⟨name, .string text⟩ = MatrixContext.names text) ∧
      (MatrixContext.names text ≠ ("", "") ↔ r.kind = .matrix)) := by
  refine ⟨⟨fun whole => ?_, ?_⟩, fun whole => ?_⟩
  · obtain ⟨same, named, -⟩ := wholeReference_iff.1 whole
    exact ⟨references_of_wholeReference whole, same, named⟩
  · rintro ⟨only, rfl, named⟩
    exact wholeReference_of_references only named
  obtain ⟨-, named, delimited⟩ := wholeReference_iff.1 whole
  have names := names_delimited delimited named
  rw [String.ofList_toList] at names
  refine ⟨?_, fun starred => ?_, names, fun name => ?_, ?_⟩
  · rw [starName_ne_iff delimited, Reference.kind_eq_star_iff named]
  · obtain ⟨name, stripped⟩ :=
      Option.isSome_iff_exists.1 ((Reference.kind_eq_star_iff named).1 starred)
    rw [starName_of_delimited delimited, Reference.key, stripped]
    exact Reference.unscoped_stripStart? name
  · rw [matrixNames_of_references (references_of_wholeReference whole), names]
  · rw [names, MatrixContext.names_ne_iff, Reference.kind_eq_matrix_iff]

/-- A star behind a scope that comes twice, and a fan-out reference to a task. -/
theorem wholeReference_readers_agree_scoped_and_fanOut :
    let starred : Reference := ⟨"$(params.params.x[*])", "params.params.x[*]"⟩
    let fanOut : Reference := ⟨"$(tasks.t-1.matrix.length)", "tasks.t-1.matrix.length"⟩
    (references "$(params.params.x[*])" = [starred] ∧
      starName "$(params.params.x[*])" = "params.x" ∧
      Reference.Unscoped starred.key (starName "$(params.params.x[*])")) ∧
    (fanOut.kind = .matrix ∧ MatrixContext.names fanOut.expression = ("t-1", "") ∧
      MatrixContext.names "$(tasks.t-1.matrix.length)" = MatrixContext.names fanOut.expression) := by
  intro starred fanOut
  have ⟨whole, agree⟩ := wholeReference_readers_agree "$(params.params.x[*])" starred
  have ⟨_, agree'⟩ := wholeReference_readers_agree "$(tasks.t-1.matrix.length)" fanOut
  have here : wholeReference "$(params.params.x[*])" = some starred := by decide
  have there : wholeReference "$(tasks.t-1.matrix.length)" = some fanOut := by decide
  exact ⟨⟨(whole.1 here).1, by decide, (agree here).2.1 (by decide)⟩,
    by decide, by decide, (agree' there).2.2.1⟩

end PipelineParams
