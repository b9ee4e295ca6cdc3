import PipelineParams.Proofs.Reference.Occurrences
import PipelineParams.Proofs.Substitution.Rewriting

/-! # Substitution in stages

Two substitutions, one after the other, do what the substitution of both maps at once does.  This
needs keys that no closing parenthesis cuts short (`PlainKeys`), values that leave nothing behind
for the second substitution to take up (`InertValues`), and a text whose references are not nested.

`substituteChars_reference` is the key equation: with such keys a closed reference stands for its
value or for itself.  `substituteChars_substituteChars` is then an induction on the text by its
first reference, and `substituteChars_eq_self_of_reference` says that a substitution never makes a
text into one reference that was not one before.
-/

namespace PipelineParams

variable {strings : SortedMap String}

/-- An opener stands between another one and the closing parenthesis that follows it. -/
def NestedOpener (cs : List Char) : Prop :=
  ∃ before outer inner after,
    cs = before ++ '$' :: '(' :: (outer ++ '$' :: '(' :: (inner ++ ')' :: after)) ∧
      ')' ∉ outer ∧ ')' ∉ inner

def PlainKeys {α : Type} (m : SortedMap α) : Prop :=
  ∀ key value, m.get? key = some value → ')' ∉ key.toList

/-- A value that can be no part of a reference, and that keeps its neighbours apart. -/
structure InertValue (value : String) : Prop where
  ne_empty : value ≠ ""
  no_dollar : '$' ∉ value.toList
  no_open : '(' ∉ value.toList
  no_close : ')' ∉ value.toList

instance : DecidablePred InertValue := fun value =>
  decidable_of_iff
    (value ≠ "" ∧ '$' ∉ value.toList ∧ '(' ∉ value.toList ∧ ')' ∉ value.toList)
    ⟨fun ⟨h₁, h₂, h₃, h₄⟩ => ⟨h₁, h₂, h₃, h₄⟩, fun ⟨h₁, h₂, h₃, h₄⟩ => ⟨h₁, h₂, h₃, h₄⟩⟩

def InertValues (m : SortedMap String) : Prop :=
  ∀ key value, m.get? key = some value → InertValue value

def opensBeforeClose (body : List Char) : Bool :=
  decide (')' ∈ body ∧ ['$', '('] <:+: body.takeWhile (· ≠ ')'))

def hasNestedOpener : List Char → Bool
  | '$' :: '(' :: body => opensBeforeClose body || hasNestedOpener body
  | _ :: cs => hasNestedOpener cs
  | [] => false

theorem opensBeforeClose_eq_true_iff {body : List Char} :
    opensBeforeClose body = true ↔ ∃ outer inner after,
      body = outer ++ '$' :: '(' :: (inner ++ ')' :: after) ∧ ')' ∉ outer ∧ ')' ∉ inner := by
  rw [opensBeforeClose, decide_eq_true_eq]
  constructor
  · rintro ⟨close, outer, inner, same⟩
    obtain ⟨expr, after, rfl, noClose⟩ := List.eq_append_cons_of_mem close
    have all : ∀ c ∈ expr, decide (c ≠ ')') = true := by
      intro c member
      rw [decide_eq_true_eq]
      rintro rfl
      exact noClose member
    rw [List.takeWhile_append_of_pos all] at same
    simp only [ne_eq, not_true_eq_false, decide_false, Bool.false_eq_true, not_false_eq_true,
      List.takeWhile_cons_of_neg, List.append_nil] at same
    subst same
    simp only [List.append_assoc, List.mem_append, not_or] at noClose
    exact ⟨outer, inner, after, by simp, noClose.1, noClose.2.2⟩
  · rintro ⟨outer, inner, after, rfl, hOuter, hInner⟩
    refine ⟨by simp, outer, inner, ?_⟩
    have all : ∀ c ∈ outer ++ '$' :: '(' :: inner, decide (c ≠ ')') = true := by
      intro c member
      rw [decide_eq_true_eq]
      rintro rfl
      simp [hOuter, hInner] at member
    have split : outer ++ '$' :: '(' :: (inner ++ ')' :: after) =
        (outer ++ '$' :: '(' :: inner) ++ ')' :: after := by simp
    rw [split, List.takeWhile_append_of_pos all]
    simp

theorem NestedOpener.append {cs : List Char} (nested : NestedOpener cs) (before : List Char) :
    NestedOpener (before ++ cs) := by
  obtain ⟨front, outer, inner, after, rfl, hOuter, hInner⟩ := nested
  exact ⟨before ++ front, outer, inner, after, by simp, hOuter, hInner⟩

theorem nestedOpener_cons_iff {c : Char} {cs : List Char} :
    NestedOpener (c :: cs) ↔
      (∃ body, c :: cs = '$' :: '(' :: body ∧ opensBeforeClose body = true) ∨ NestedOpener cs := by
  constructor
  · rintro ⟨before, outer, inner, after, same, hOuter, hInner⟩
    cases before with
    | nil =>
      exact .inl ⟨_, same,
        opensBeforeClose_eq_true_iff.2 ⟨outer, inner, after, rfl, hOuter, hInner⟩⟩
    | cons b before =>
      obtain ⟨-, rfl⟩ := List.cons.inj same
      exact .inr ⟨before, outer, inner, after, rfl, hOuter, hInner⟩
  · rintro (⟨body, same, opens⟩ | nested)
    · obtain ⟨outer, inner, after, rfl, hOuter, hInner⟩ := opensBeforeClose_eq_true_iff.1 opens
      exact ⟨[], outer, inner, after, same, hOuter, hInner⟩
    · exact nested.append [c]

theorem hasNestedOpener_eq_true_iff {cs : List Char} :
    hasNestedOpener cs = true ↔ NestedOpener cs := by
  fun_induction hasNestedOpener cs with
  | case1 body ih =>
    rw [nestedOpener_cons_iff, nestedOpener_cons_iff, Bool.or_eq_true, ih]
    simp
  | case2 c cs other ih =>
    rw [nestedOpener_cons_iff, ih, or_iff_right]
    rintro ⟨body, same, -⟩
    obtain ⟨rfl, rfl⟩ := List.cons.inj same
    exact other body rfl rfl
  | case3 =>
    constructor
    · intro h
      cases h
    · rintro ⟨before, outer, inner, after, same, -⟩
      simp at same

instance : DecidablePred NestedOpener := fun _ => decidable_of_iff _ hasNestedOpener_eq_true_iff

/-- The expression of a closed reference has no opener, if references are not nested. -/
theorem no_opener_of_flat {expr rest : List Char} (noClose : ')' ∉ expr)
    (flat : ¬ NestedOpener ('$' :: '(' :: (expr ++ ')' :: rest))) : ¬ ['$', '('] <:+: expr := by
  rintro ⟨outer, inner, rfl⟩
  simp only [List.append_assoc, List.mem_append, not_or] at noClose
  refine flat ⟨[], outer, inner, rest, by simp, noClose.1, ?_⟩
  exact noClose.2.2

/-! ## Copied text -/

theorem not_keyStandsAt_of_no_front {c : Char} {cs : List Char}
    (other : ∀ body, c :: cs ≠ '$' :: '(' :: body) : ¬ KeyStandsAt strings (c :: cs) := by
  rintro ⟨key, value, rest, -, stands⟩
  exact other _ stands

theorem not_keyStandsAt_of_ne {c : Char} {cs : List Char} (other : c ≠ '$') :
    ¬ KeyStandsAt strings (c :: cs) :=
  not_keyStandsAt_of_no_front fun _ stands => other (List.cons.inj stands).1

theorem substituteChars_append_of_no_dollar {front cs : List Char} (absent : '$' ∉ front) :
    substituteChars strings (front ++ cs) = front ++ substituteChars strings cs := by
  induction front with
  | nil => rfl
  | cons c front ih =>
    simp only [List.mem_cons, not_or] at absent
    rw [List.cons_append, substituteChars_of_not_keyStandsAt
      (not_keyStandsAt_of_ne (Ne.symm absent.1)), ih absent.2, List.cons_append]

theorem substituteChars_of_no_opener {cs : List Char} (absent : ¬ ['$', '('] <:+: cs) :
    substituteChars strings cs = cs :=
  substituteChars_eq_self fun _ behind => not_keyStandsAt_of_no_opener absent behind

theorem substituteChars_of_no_close {cs : List Char} (absent : ')' ∉ cs) :
    substituteChars strings cs = cs := by
  apply substituteChars_eq_self
  rintro ds behind ⟨key, value, rest, -, rfl⟩
  exact absent (behind.subset (by simp))

theorem substituteChars_append_close {expr rest : List Char} (absent : ¬ ['$', '('] <:+: expr) :
    substituteChars strings (expr ++ ')' :: rest) =
      expr ++ ')' :: substituteChars strings rest := by
  induction expr with
  | nil => exact substituteChars_of_not_keyStandsAt (not_keyStandsAt_of_ne (by decide))
  | cons c expr ih =>
    have nowhere : ¬ KeyStandsAt strings (c :: (expr ++ ')' :: rest)) :=
      not_keyStandsAt_of_no_front (ne_opener_of_no_opener absent)
    rw [List.cons_append, substituteChars_of_not_keyStandsAt nowhere, ih (no_opener_of_cons absent)]
    rfl

/-! ## Closed references -/

/-- What a closed reference stands for: the value of its expression, or itself. -/
def replacement (strings : SortedMap String) (expr : List Char) : List Char :=
  match strings.get? (String.ofList expr) with
  | some value => value.toList
  | none => '$' :: '(' :: (expr ++ [')'])

/-- A closed reference is replaced as a whole, and what stands behind it is replaced on its own. -/
theorem substituteChars_reference (plain : PlainKeys strings) {expr rest : List Char}
    (noClose : ')' ∉ expr) (noOpener : ¬ ['$', '('] <:+: expr) :
    substituteChars strings ('$' :: '(' :: (expr ++ ')' :: rest)) =
      replacement strings expr ++ substituteChars strings rest := by
  -- A key that stands here is the expression, since neither holds a parenthesis.
  have only : ∀ key value rest', strings.get? key = some value →
      StandsAt key ('$' :: '(' :: (expr ++ ')' :: rest)) rest' → expr = key.toList := by
    intro key value rest' known stands
    simp only [StandsAt, List.cons.injEq, true_and] at stands
    exact (eq_of_append_close noClose (plain key value known) stands).1
  rw [replacement]
  cases known : strings.get? (String.ofList expr) with
  | some value =>
    have front : ShortestKeyAt strings ('$' :: '(' :: (expr ++ ')' :: rest)) value rest
        (String.ofList expr) := by
      refine ⟨known, by simp [StandsAt], ?_⟩
      intro other value' rest' known' stands
      have same := only other value' rest' known' stands
      exact Nat.le_of_eq (by rw [← same, String.toList_ofList])
    exact substituteChars_of_shortestKeyAt front
  | none =>
    have nowhere : ¬ KeyStandsAt strings ('$' :: '(' :: (expr ++ ')' :: rest)) := by
      rintro ⟨key, value, rest', known', stands⟩
      rw [only key value rest' known' stands, String.ofList_toList, known'] at known
      cases known
    rw [substituteChars_of_not_keyStandsAt nowhere,
      substituteChars_of_not_keyStandsAt (not_keyStandsAt_of_ne (by decide)),
      substituteChars_append_close noOpener]
    simp

/-! ## Two substitutions

A text is taken apart by what stands at its front: a closed reference, an opener that is never
closed, or a character that opens nothing. -/

@[elab_as_elim]
theorem text_induction {motive : List Char → Prop} (nil : motive [])
    (closed : ∀ expr rest, ')' ∉ expr → motive rest →
      motive ('$' :: '(' :: (expr ++ ')' :: rest)))
    (unclosed : ∀ body, ')' ∉ body → motive ('$' :: '(' :: body))
    (other : ∀ c cs, (∀ body, c :: cs ≠ '$' :: '(' :: body) → motive cs → motive (c :: cs))
    (cs : List Char) : motive cs := by
  induction size : cs.length using Nat.strongRecOn generalizing cs with
  | ind n ih =>
    cases cs with
    | nil => exact nil
    | cons c cs =>
      by_cases opener : ∃ body, c :: cs = '$' :: '(' :: body
      · obtain ⟨body, same⟩ := opener
        rw [same]
        by_cases close : ')' ∈ body
        · obtain ⟨expr, rest, rfl, noClose⟩ := List.eq_append_cons_of_mem close
          refine closed expr rest noClose (ih rest.length ?_ rest rfl)
          rw [← size, same]
          simp only [List.length_cons, List.length_append]
          omega
        · exact unclosed body close
      · exact other c cs (fun body same => opener ⟨body, same⟩)
          (ih cs.length (size ▸ Nat.lt_succ_self _) cs rfl)

/-- A substitution with inert values puts a parenthesis first only where one stood. -/
theorem eq_cons_of_substituteChars_eq_cons (inert : InertValues strings) {cs out : List Char}
    (written : substituteChars strings cs = '(' :: out) : ∃ tail, cs = '(' :: tail := by
  cases cs with
  | nil =>
    rw [substituteChars_nil] at written
    cases written
  | cons c cs =>
    by_cases stands : KeyStandsAt strings (c :: cs)
    · obtain ⟨key, value, rest, front⟩ := exists_shortestKeyAt stands
      have value_inert := inert key value front.known
      rw [substituteChars_of_shortestKeyAt front] at written
      rcases List.append_eq_cons_iff.1 written with ⟨empty, -⟩ | ⟨tail, head, -⟩
      · exact absurd (String.toList_eq_nil_iff.1 empty) value_inert.ne_empty
      · exact absurd (head ▸ List.mem_cons_self) value_inert.no_open
    · rw [substituteChars_of_not_keyStandsAt stands] at written
      obtain ⟨rfl, -⟩ := List.cons.inj written
      exact ⟨cs, rfl⟩

theorem eq_nil_of_substituteChars_eq_nil (inert : InertValues strings) {cs : List Char}
    (written : substituteChars strings cs = []) : cs = [] := by
  cases cs with
  | nil => rfl
  | cons c cs =>
    by_cases stands : KeyStandsAt strings (c :: cs)
    · obtain ⟨key, value, rest, front⟩ := exists_shortestKeyAt stands
      rw [substituteChars_of_shortestKeyAt front, List.append_eq_nil_iff] at written
      exact absurd (String.toList_eq_nil_iff.1 written.1) (inert key value front.known).ne_empty
    · rw [substituteChars_of_not_keyStandsAt stands] at written
      cases written

/-- Where no opener stands, none stands after a substitution with inert values: the two characters
of an opener never come together. -/
theorem no_front_substituteChars (inert : InertValues strings) {c : Char} {cs : List Char}
    (other : ∀ body, c :: cs ≠ '$' :: '(' :: body) (body : List Char) :
    c :: substituteChars strings cs ≠ '$' :: '(' :: body := by
  intro opener
  obtain ⟨rfl, written⟩ := List.cons.inj opener
  obtain ⟨tail, rfl⟩ := eq_cons_of_substituteChars_eq_cons inert written
  exact other tail rfl

section

variable {a b m : SortedMap String}

/-- Substituting with one map and then with another is substituting with both at once. -/
theorem substituteChars_substituteChars (plainA : PlainKeys a) (plainB : PlainKeys b)
    (inertA : InertValues a) (both : ∀ key, m.get? key = (a.get? key).or (b.get? key))
    {cs : List Char} (flat : ¬ NestedOpener cs) :
    substituteChars b (substituteChars a cs) = substituteChars m cs := by
  have plainM : PlainKeys m := by
    intro key value known
    rw [both] at known
    rcases Option.or_eq_some_iff.1 known with known | ⟨-, known⟩
    · exact plainA key value known
    · exact plainB key value known
  induction cs using text_induction with
  | nil => simp only [substituteChars_nil]
  | unclosed body noClose =>
    have absent : ')' ∉ '$' :: '(' :: body := by simp [noClose]
    simp only [substituteChars_of_no_close absent]
  | other c cs nowhere ih =>
    -- The first substitution brings no opener together that the second one could act on.
    have flat' : ¬ NestedOpener cs := fun nested => flat (nested.append [c])
    rw [substituteChars_of_not_keyStandsAt (not_keyStandsAt_of_no_front nowhere),
      substituteChars_of_not_keyStandsAt (not_keyStandsAt_of_no_front nowhere),
      substituteChars_of_not_keyStandsAt
        (not_keyStandsAt_of_no_front (no_front_substituteChars inertA nowhere)), ih flat']
  | closed expr rest noClose ih =>
    have noOpener := no_opener_of_flat noClose flat
    have flat' : ¬ NestedOpener rest := by
      intro nested
      apply flat
      simpa using nested.append ('$' :: '(' :: (expr ++ [')']))
    rw [substituteChars_reference plainA noClose noOpener,
      substituteChars_reference plainM noClose noOpener, ← ih flat', replacement, replacement, both]
    cases known : a.get? (String.ofList expr) with
    | some value =>
      -- An inert value holds no dollar sign, so the second substitution copies it.
      exact substituteChars_append_of_no_dollar (inertA _ value known).no_dollar
    | none =>
      -- The reference is still there for the second substitution, with the same expression.
      have second : substituteChars b ('$' :: '(' :: (expr ++ ')' :: substituteChars a rest)) =
          replacement b expr ++ substituteChars b (substituteChars a rest) :=
        substituteChars_reference plainB noClose noOpener
      simpa [replacement] using second

end

/-- A substitution with inert values that results in one reference has changed nothing. -/
theorem substituteChars_eq_self_of_reference (plain : PlainKeys strings)
    (inert : InertValues strings) {cs expr : List Char} (flat : ¬ NestedOpener cs)
    (written : substituteChars strings cs = '$' :: '(' :: (expr ++ [')']))
    (noClose : ')' ∉ expr) : substituteChars strings cs = cs := by
  induction cs using text_induction with
  | nil => exact substituteChars_nil
  | unclosed body absent => exact substituteChars_of_no_close (by simp [absent])
  | other c cs nowhere _ =>
    rw [substituteChars_of_not_keyStandsAt (not_keyStandsAt_of_no_front nowhere)] at written
    exact absurd written (no_front_substituteChars inert nowhere _)
  | closed expr' rest noClose' _ =>
    have noOpener := no_opener_of_flat noClose' flat
    rw [substituteChars_reference plain noClose' noOpener, replacement] at written ⊢
    cases known : strings.get? (String.ofList expr') with
    | some value =>
      rw [known] at written
      dsimp only at written
      have value_inert := inert _ value known
      rcases List.append_eq_cons_iff.1 written with ⟨empty, -⟩ | ⟨tail, head, -⟩
      · exact absurd (String.toList_eq_nil_iff.1 empty) value_inert.ne_empty
      · exact absurd (head ▸ List.mem_cons_self) value_inert.no_dollar
    | none =>
      rw [known] at written
      have same : expr' ++ ')' :: substituteChars strings rest = expr ++ ')' :: [] := by
        simpa using written
      have finished := (eq_of_append_close noClose' noClose same).2
      rw [eq_nil_of_substituteChars_eq_nil inert finished, substituteChars_nil]
      simp

end PipelineParams
