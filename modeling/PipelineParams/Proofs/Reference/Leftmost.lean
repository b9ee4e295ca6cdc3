import PipelineParams.Proofs.Reference.FanOut

/-! # The first fan-out reference of a text

A fan-out reference stands in a text wherever its delimiters and its expression do (`FanOutAt`).  If its
names have no closing parenthesis and no opener, the scanner lists it, and it lists references from left
to right, so the first one that is read as a fan-out reference is the leftmost in the text
(`Param.matrixNames_leftmost`).

The scanner asks of a whole expression what is asked of the names here.  That is the same
(`MatrixContext.isExpression_iff`), for the words of an expression have no part of a delimiter in them
and no delimiter reaches over a dot.
-/

namespace PipelineParams

/-! ## Texts without delimiters -/

def Inert (cs : List Char) : Prop := ')' ∉ cs ∧ ¬ ['$', '('] <:+: cs

theorem opener_infix_append_dot_iff {front behind : List Char} :
    ['$', '('] <:+: front ++ '.' :: behind ↔
      ['$', '('] <:+: front ∨ ['$', '('] <:+: behind := by
  constructor
  · intro opener
    rcases List.infix_append_iff.1 opener with inFront | behindDot | ⟨left, right, split, ends, starts⟩
    · exact .inl inFront
    · rcases List.infix_cons_iff.1 behindDot with ⟨rest, same⟩ | inside
      · cases same
      · exact .inr inside
    · -- what reaches over the dot would have the dot in it
      cases right with
      | nil =>
        rw [List.append_nil] at split
        exact .inl (split ▸ ends.isInfix)
      | cons d right =>
        obtain ⟨rest, same⟩ := starts
        obtain ⟨rfl, -⟩ := List.cons.inj same
        have dot : '.' ∈ ['$', '('] := split ▸ by simp
        exact absurd dot (by decide)
  · rintro (inFront | inside)
    · exact inFront.trans (List.prefix_append _ _).isInfix
    · exact inside.trans ((List.suffix_cons _ _).trans (List.suffix_append _ _)).isInfix

theorem inert_append_dot_iff {front behind : List Char} :
    Inert (front ++ '.' :: behind) ↔ Inert front ∧ Inert behind := by
  rw [Inert, Inert, Inert, opener_infix_append_dot_iff]
  simp only [List.mem_append, List.mem_cons]
  grind

theorem inert_intercalate_iff {parts : List (List Char)} :
    Inert (['.'].intercalate parts) ↔ ∀ p ∈ parts, Inert p := by
  induction parts with
  | nil => simp [Inert]
  | cons p ps ih =>
    cases ps with
    | nil => simp
    | cons q qs =>
      rw [List.intercalate_cons_cons, List.append_assoc, List.singleton_append, inert_append_dot_iff,
        ih, List.forall_mem_cons (l := q :: qs)]

namespace MatrixContext

def InertNames (m : MatrixContext) : Prop :=
  Inert m.task.toList ∧ ∀ result ∈ m.result, Inert result.toList

theorem isExpression_iff {m : MatrixContext} : IsExpression m.expression.toList ↔ m.InertNames := by
  have words : Inert "tasks".toList ∧ Inert "matrix".toList ∧ Inert "length".toList := by
    simp only [Inert]
    decide
  have nonempty : m.expression.toList ≠ [] := by
    rw [toList_expression]
    simp [parts, List.intercalate_cons_cons]
  have inert : IsExpression m.expression.toList ↔ Inert m.expression.toList :=
    ⟨fun plain => ⟨plain.no_close, plain.no_opener⟩, fun inert => ⟨nonempty, inert.1, inert.2⟩⟩
  rw [inert, toList_expression, inert_intercalate_iff]
  obtain ⟨task, result⟩ := m
  cases result with
  | none => simp [parts, InertNames, -String.reduceToList, words]
  | some result => simp [parts, InertNames, -String.reduceToList, words]

end MatrixContext

/-! ## Places in a text -/

/-- A fan-out reference between delimiters stands at this position of a text. -/
def FanOutAt (text : String) (start : Nat) (m : MatrixContext) : Prop :=
  m.Named ∧ m.InertNames ∧
    ∃ before after, text = before ++ "$(" ++ m.expression ++ ")" ++ after ∧ before.length = start

def FirstFanOut (text : String) (start : Nat) (m : MatrixContext) : Prop :=
  FanOutAt text start m ∧ ∀ start' m', FanOutAt text start' m' → start ≤ start'

variable {text : String} {start : Nat} {m : MatrixContext} {occs : List Occurrence}

/-- The fan-out references of a text are the occurrences that are read as such. -/
theorem fanOutAt_iff :
    FanOutAt text start m ↔ ∃ o : Occurrence, OccursFrom 0 text.toList o ∧ o.start = start ∧
      MatrixContext.parse o.reference.expression = some m := by
  constructor
  · rintro ⟨named, inert, before, after, rfl, rfl⟩
    refine ⟨⟨before.length, ⟨"$(" ++ m.expression ++ ")", m.expression⟩⟩,
      ⟨?_, rfl, before.toList, after.toList, ?_, ?_⟩, rfl, ?_⟩
    · exact MatrixContext.isExpression_iff.2 inert
    · simp
    · rw [String.length_toList, Nat.zero_add]
    · exact MatrixContext.parse_eq_some_iff.2 ⟨named, .inl rfl⟩
  · rintro ⟨⟨start, ⟨raw, expr⟩⟩, ⟨plain, -, before, after, split, place⟩, rfl, read⟩
    obtain ⟨named, rfl | rfl⟩ := MatrixContext.parse_eq_some_iff.1 read
    · refine ⟨named, MatrixContext.isExpression_iff.1 plain, String.ofList before,
        String.ofList after, ?_, ?_⟩
      · rw [← String.toList_inj, split]
        simp
      · rw [String.length_ofList, ← Nat.zero_add before.length, ← place]
    · -- an expression has no delimiters of its own
      refine absurd ?_ plain.no_opener
      simp [List.infix_cons_iff]

/-! ## The search -/

/-- The first occurrence that is read as a fan-out reference is the leftmost. -/
theorem exists_firstFanOut_iff (located : Located 0 text.toList occs) :
    (∃ start, FirstFanOut text start m) ↔
      occs.findSome? (fun o => MatrixContext.parse o.reference.expression) = some m := by
  rw [List.findSome?_eq_some_iff]
  constructor
  · rintro ⟨_, here, first⟩
    obtain ⟨o, occurs, rfl, read⟩ := fanOutAt_iff.1 here
    obtain ⟨earlier, later, rfl⟩ := List.append_of_mem ((located.mem_iff o).2 occurs)
    refine ⟨earlier, o, later, rfl, read, fun o' member => ?_⟩
    rw [Option.eq_none_iff_forall_ne_some]
    intro m' read'
    have occurs' := (located.mem_iff o').1 (List.mem_append_left _ member)
    have behind := first _ m' (fanOutAt_iff.2 ⟨o', occurs', rfl, read'⟩)
    have apart := (List.pairwise_append.1 located.ordered).2.2 o' member o List.mem_cons_self
    rw [Occurrence.stop] at apart
    omega
  · rintro ⟨earlier, o, later, rfl, read, unread⟩
    have occurs := (located.mem_iff o).1 (List.mem_append_right _ List.mem_cons_self)
    refine ⟨o.start, fanOutAt_iff.2 ⟨o, occurs, rfl, read⟩, fun start' m' there => ?_⟩
    obtain ⟨o', occurs', rfl, read'⟩ := fanOutAt_iff.1 there
    rcases List.mem_append.1 ((located.mem_iff o').2 occurs') with member | member
    · cases (unread o' member).symm.trans read'
    · rcases List.mem_cons.1 member with rfl | member
      · exact Nat.le_refl _
      · have ordered := (List.pairwise_append.1 located.ordered).2.1
        have apart := (List.pairwise_cons.1 ordered).1 o' member
        rw [Occurrence.stop] at apart
        omega

theorem findSome?_eq_none_iff_not_fanOutAt (located : Located 0 text.toList occs) :
    occs.findSome? (fun o => MatrixContext.parse o.reference.expression) = none ↔
      ∀ start m, ¬ FanOutAt text start m := by
  rw [List.findSome?_eq_none_iff]
  constructor
  · intro unread start m there
    obtain ⟨o, occurs, rfl, read⟩ := fanOutAt_iff.1 there
    cases (unread o ((located.mem_iff o).2 occurs)).symm.trans read
  · intro nowhere o member
    rw [Option.eq_none_iff_forall_ne_some]
    intro m read
    exact nowhere o.start m (fanOutAt_iff.2 ⟨o, (located.mem_iff o).1 member, rfl, read⟩)

namespace Param

theorem matrixNames_string (name text : String) :
    matrixNames ⟨name, .string text⟩ =
      (((references text).findSome? fun r => MatrixContext.parse r.expression).map
        MatrixContext.pair).getD ("", "") := by
  rw [matrixNames]
  dsimp only
  split
  next found => rw [found]; rfl
  next missing => rw [missing]; rfl

/-- The names of a text are those of the first reference of this kind. -/
theorem matrixNames_eq_find? (name text : String) :
    matrixNames ⟨name, .string text⟩ =
      (((references text).find? (·.kind = .matrix)).map
        fun r => MatrixContext.names r.expression).getD ("", "") := by
  rw [matrixNames_string]
  induction references text with
  | nil => rfl
  | cons r rs ih =>
    rw [List.findSome?_cons, List.find?_cons]
    cases read : MatrixContext.parse r.expression with
    | none =>
      have other : ¬ r.kind = .matrix := by simp [Reference.kind_eq_matrix_iff, read]
      simpa [other] using ih
    | some m =>
      have fanOut : r.kind = .matrix := by simp [Reference.kind_eq_matrix_iff, read]
      simp [fanOut, MatrixContext.names, read]

/-- The names of a text are those of its leftmost fan-out reference, and empty exactly if there is none.
They are the names of the first reference in the text that is classified as one. -/
theorem matrixNames_leftmost (name text : String) :
    (∀ names, (matrixNames ⟨name, .string text⟩ = names ∧ names ≠ ("", "")) ↔
      ∃ m, (∃ start, FirstFanOut text start m) ∧ m.pair = names) ∧
    (matrixNames ⟨name, .string text⟩ = ("", "") ↔ ∀ start m, ¬ FanOutAt text start m) ∧
    matrixNames ⟨name, .string text⟩ =
      (((references text).find? (·.kind = .matrix)).map
        fun r => MatrixContext.names r.expression).getD ("", "") := by
  obtain ⟨occs, located⟩ := exists_located 0 text.toList
  have found : matrixNames ⟨name, .string text⟩ =
      ((occs.findSome? fun o => MatrixContext.parse o.reference.expression).map
        MatrixContext.pair).getD ("", "") := by
    rw [matrixNames_string, located.references_eq, List.findSome?_map]
    rfl
  have first := fun m => exists_firstFanOut_iff located (m := m)
  have nowhere := findSome?_eq_none_iff_not_fanOutAt located
  have nonempty : ∀ m, (∃ start, FirstFanOut text start m) → m.pair ≠ ("", "") := by
    rintro m ⟨_, ⟨named, -⟩, -⟩
    exact named.pair_ne
  rw [found, ← nowhere]
  refine ⟨fun names => ?_, ?_, by rw [← found, matrixNames_eq_find?]⟩
  · simp only [first] at nonempty ⊢
    cases read : occs.findSome? fun o => MatrixContext.parse o.reference.expression with
    | none => simp [eq_comm]
    | some m =>
      have := nonempty m read
      simp only [Option.map_some, Option.getD_some, Option.some.injEq, exists_eq_left']
      grind
  · cases read : occs.findSome? fun o => MatrixContext.parse o.reference.expression with
    | none => simp
    | some m => simp [nonempty m ((first m).2 read)]

/-- Neither the empty name nor the reference that nothing closes counts, and of two references the names
of the left one are taken. -/
example :
    let text := "$(tasks..matrix.length)$(x $(tasks.a.matrix.r.length) $(tasks.b.matrix.length)"
    matrixNames ⟨"p", .string text⟩ = ("a", "r") := by
  decide +kernel

end Param

end PipelineParams
