import PipelineParams.Proofs.Reference.Occurrences
import PipelineParams.Proofs.Substitution.Staging

/-! # What substitution replaces

Substitution looks for known keys behind every opener and knows nothing of references.  If every key
is an expression, it replaces references nonetheless: `substitute_eq_replaceListed` says that it puts
the values of known expressions in the place of the references that are listed, and copies all else.

A key that is an expression stands only where a reference does (`not_keyStandsAt`).  So an opener
that another one follows, or that nothing closes, is copied like any character, and the induction is
the one of `Located`.
-/

namespace PipelineParams

variable {strings : SortedMap String} {base : Nat} {cs : List Char} {occs : List Occurrence}

/-- A text, its first character at position `base`, with what the listed references stand for in
their place. -/
def replaceListed (strings : SortedMap String) : Nat → List Char → List Occurrence → List Char
  | _, cs, [] => cs
  | base, cs, o :: occs =>
    cs.take (o.start - base) ++ (replacement strings o.reference.expression.toList ++
      replaceListed strings o.stop (cs.drop (o.stop - base)) occs)

def KeysAreExpressions (strings : SortedMap String) : Prop :=
  ∀ key ∈ strings.keys, IsExpression key.toList

instance : DecidablePred KeysAreExpressions := fun strings =>
  inferInstanceAs (Decidable (∀ key ∈ strings.keys, IsExpression key.toList))

theorem KeysAreExpressions.plainKeys (keys : KeysAreExpressions strings) : PlainKeys strings :=
  fun key _ known => (keys key (SortedMap.mem_keys_of_get? known)).no_close

theorem KeysAreExpressions.not_keyStandsAt (keys : KeysAreExpressions strings)
    (nowhere : NoReferenceAt cs) : ¬ KeyStandsAt strings cs := by
  rintro ⟨key, value, rest, known, stands⟩
  exact nowhere key.toList rest (keys key (SortedMap.mem_keys_of_get? known)) stands

/-- What stands before the first listed reference is copied. -/
theorem replaceListed_cons {c : Char} (behind : ∀ o ∈ occs, base + 1 ≤ o.start) :
    replaceListed strings base (c :: cs) occs = c :: replaceListed strings (base + 1) cs occs := by
  cases occs with
  | nil => rfl
  | cons o occs =>
    have start := behind o List.mem_cons_self
    have take : o.start - base = (o.start - (base + 1)) + 1 := by omega
    have drop : o.stop - base = (o.stop - (base + 1)) + 1 := by
      rw [Occurrence.stop]
      omega
    rw [replaceListed, replaceListed, take, drop, List.take_succ_cons, List.drop_succ_cons,
      List.cons_append]

theorem replaceListed_reference {expr rest : List Char} :
    replaceListed strings base ('$' :: '(' :: (expr ++ ')' :: rest))
        (⟨base, Reference.delimited expr⟩ :: occs) =
      replacement strings expr ++ replaceListed strings (base + (expr.length + 3)) rest occs := by
  have stop : base + (expr.length + 3) - base = (expr.length + 1) + 2 := by omega
  rw [replaceListed, Occurrence.stop]
  simp only [Reference.toList_expression_delimited, Nat.sub_self, List.take_zero, List.nil_append]
  rw [stop, List.drop_succ_cons, List.drop_succ_cons, List.drop_length_add_append]
  rfl

theorem Located.substituteChars_eq (keys : KeysAreExpressions strings)
    (located : Located base cs occs) :
    substituteChars strings cs = replaceListed strings base cs occs := by
  induction located with
  | done => exact substituteChars_nil
  | reference plain _ ih =>
    rw [substituteChars_reference keys.plainKeys plain.no_close plain.no_opener,
      replaceListed_reference, ih]
  | other nowhere located ih =>
    rw [substituteChars_of_not_keyStandsAt (keys.not_keyStandsAt nowhere),
      replaceListed_cons located.base_le, ih]

/-- If every key is an expression, substitution replaces the references of a text that are known, at
their places, and copies every other character. -/
theorem substitute_eq_replaceListed (strings : SortedMap String) (keys : KeysAreExpressions strings)
    (text : String) :
    ∃ occs : List Occurrence,
      references text = occs.map (·.reference) ∧
      (∀ o, o ∈ occs ↔ OccursFrom 0 text.toList o) ∧
      occs.Pairwise (fun a b => a.stop ≤ b.start) ∧
      (substitute strings text).toList = replaceListed strings 0 text.toList occs := by
  obtain ⟨occs, located⟩ := exists_located 0 text.toList
  refine ⟨occs, located.references_eq, located.mem_iff, located.ordered, ?_⟩
  rw [toList_substitute, located.substituteChars_eq keys]

/-- The outer opener, the empty delimiters, an unknown reference and an opener that nothing closes are
copied, and so is the reference in a value that was put in. -/
theorem substitute_eq_replaceListed_nested :
    let strings := SortedMap.ofList [("a", "$(b$)"), ("b$", ""), ("c", "3")]
    let text := "$(x $(a)) $()$(b$) $(d)$($(c)$(a"
    KeysAreExpressions strings ∧ substitute strings text = "$(x $(b$)) $() $(d)$(3$(a" ∧
    ∃ occs : List Occurrence,
      references text = occs.map (·.reference) ∧
      (∀ o, o ∈ occs ↔ OccursFrom 0 text.toList o) ∧
      occs.Pairwise (fun a b => a.stop ≤ b.start) ∧
      (substitute strings text).toList = replaceListed strings 0 text.toList occs := by
  intro strings text
  have keys : KeysAreExpressions strings := by decide +kernel
  exact ⟨keys, by decide +kernel, substitute_eq_replaceListed strings keys text⟩

end PipelineParams
