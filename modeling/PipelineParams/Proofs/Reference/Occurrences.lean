import Mathlib.Data.List.Infix
import PipelineParams.Reference.Basic

/-! # Where the references of a text stand

An `Occurrence` is a reference and the place at which it stands.  `OccursFrom` says when it stands
there, by looking at the characters of the text alone, and `references_eq_occurrences` says that the
references of a text are all of its occurrences, each once and from left to right.

The search moves its cursor past a reference, past empty delimiters, or back from a closing parenthesis
to the last opener in front of it, and it stops at an opener that nothing closes.  `scanned` is about one
round: no reference starts between the cursor and the place where the next round starts, except for the
one that is listed.  The jump back to an opener loses nothing because a reference would have to be closed
before that opener (`noReferenceAt_of_opener_behind`).

`Located` walks through a text by what stands at the front.  `Located.referencesFrom_eq` is the induction
on the rounds, by which the search lists what `Located` does; later modules do an induction on `Located`
and never look at the search again.
-/

namespace PipelineParams

/-! ## Occurrences -/

/-- What may stand between the delimiters of a reference. -/
structure IsExpression (expr : List Char) : Prop where
  ne_nil : expr ≠ []
  no_close : ')' ∉ expr
  no_opener : ¬ ['$', '('] <:+: expr

instance : DecidablePred IsExpression := fun expr =>
  decidable_of_iff (expr ≠ [] ∧ ')' ∉ expr ∧ ¬ ['$', '('] <:+: expr)
    ⟨fun ⟨h₁, h₂, h₃⟩ => ⟨h₁, h₂, h₃⟩, fun ⟨h₁, h₂, h₃⟩ => ⟨h₁, h₂, h₃⟩⟩

structure Occurrence where
  start : Nat
  reference : Reference
  deriving DecidableEq

namespace Occurrence

def stop (o : Occurrence) : Nat := o.start + (o.reference.expression.toList.length + 3)

def slice (o : Occurrence) (cs : List Char) : List Char :=
  (cs.drop o.start).take (o.stop - o.start)

end Occurrence

/-- A reference stands in `cs` where it says, if the first character of `cs` has position `base`. -/
def OccursFrom (base : Nat) (cs : List Char) (o : Occurrence) : Prop :=
  IsExpression o.reference.expression.toList ∧
    o.reference.raw = "$(" ++ o.reference.expression ++ ")" ∧
    ∃ before after, cs = before ++ '$' :: '(' :: (o.reference.expression.toList ++ ')' :: after) ∧
      o.start = base + before.length

def NoReferenceAt (cs : List Char) : Prop :=
  ∀ expr rest, IsExpression expr → cs ≠ '$' :: '(' :: (expr ++ ')' :: rest)

/-! ## Delimiters -/

/-- Two texts without a parenthesis that are closed at the same place are the same. -/
theorem eq_of_append_close {expr key rest rest' : List Char} (hExpr : ')' ∉ expr)
    (hKey : ')' ∉ key) (same : expr ++ ')' :: rest = key ++ ')' :: rest') :
    expr = key ∧ rest = rest' := by
  induction expr generalizing key with
  | nil =>
    cases key with
    | nil => simpa using same
    | cons k key =>
      obtain ⟨rfl, -⟩ := List.cons.inj same
      simp at hKey
  | cons c expr ih =>
    cases key with
    | nil =>
      obtain ⟨rfl, -⟩ := List.cons.inj same
      simp at hExpr
    | cons k key =>
      simp only [List.mem_cons, not_or] at hExpr hKey
      obtain ⟨rfl, behind⟩ := List.cons.inj same
      obtain ⟨rfl, rfl⟩ := ih hExpr.2 hKey.2 behind
      exact ⟨rfl, rfl⟩

/-- No opener starts at a character of an expression, and none at the parenthesis that closes it. -/
theorem ne_opener_of_no_opener {c : Char} {expr rest : List Char}
    (absent : ¬ ['$', '('] <:+: c :: expr) (body : List Char) :
    c :: (expr ++ ')' :: rest) ≠ '$' :: '(' :: body := by
  intro opener
  obtain ⟨rfl, behind⟩ := List.cons.inj opener
  cases expr with
  | nil => simp at behind
  | cons d expr =>
    obtain ⟨rfl, -⟩ := List.cons.inj behind
    exact absent (List.prefix_append ['$', '('] expr).isInfix

theorem no_opener_of_cons {c : Char} {expr : List Char} (absent : ¬ ['$', '('] <:+: c :: expr) :
    ¬ ['$', '('] <:+: expr :=
  fun opener => absent (opener.trans (List.suffix_cons c expr).isInfix)

/-- An opener behind the one of a reference stands behind the whole reference. -/
theorem exists_of_opener_behind {expr rest before body : List Char} (noOpener : ¬ ['$', '('] <:+: expr)
    (same : expr ++ ')' :: rest = before ++ '$' :: '(' :: body) :
    ∃ between, before = expr ++ ')' :: between ∧ rest = between ++ '$' :: '(' :: body := by
  induction expr generalizing before with
  | nil =>
    cases before with
    | nil => simp at same
    | cons b before =>
      obtain ⟨rfl, behind⟩ := List.cons.inj same
      exact ⟨before, rfl, behind⟩
  | cons c expr ih =>
    cases before with
    | nil => exact absurd same (ne_opener_of_no_opener noOpener body)
    | cons b before =>
      obtain ⟨rfl, behind⟩ := List.cons.inj same
      obtain ⟨between, rfl, rest_eq⟩ := ih (no_opener_of_cons noOpener) behind
      exact ⟨between, rfl, rest_eq⟩

/-! ## Fronts without a reference -/

theorem noReferenceAt_of_not_opener {cs : List Char} (other : ¬ ['$', '('] <+: cs) :
    NoReferenceAt cs := by
  rintro expr rest - rfl
  exact other (List.prefix_append ['$', '('] (expr ++ ')' :: rest))

theorem noReferenceAt_empty (rest : List Char) : NoReferenceAt ('$' :: '(' :: ')' :: rest) := by
  intro expr rest' plain same
  have closed : [] ++ ')' :: rest = expr ++ ')' :: rest' := by simpa using same
  exact plain.ne_nil (eq_of_append_close (by simp) plain.no_close closed).1.symm

/-- A reference in front of an opener would have to be closed before it. -/
theorem noReferenceAt_of_opener_behind {front body : List Char} (nonempty : front ≠ [])
    (noClose : ')' ∉ front) : NoReferenceAt (front ++ '$' :: '(' :: body) := by
  intro expr rest plain same
  match front with
  | [] => exact nonempty rfl
  | [c] => simp at same
  | c :: d :: front =>
    simp only [List.cons_append, List.cons.injEq] at same
    obtain ⟨between, rfl, -⟩ := exists_of_opener_behind plain.no_opener same.2.2.symm
    simp at noClose

/-! ## The search -/

def NoReferenceBetween (text : List Char) (start stop : Nat) : Prop :=
  ∀ n, start ≤ n → n < stop → NoReferenceAt (text.drop n)

section

variable {text inside : List Char} {start middle stop : Nat}

theorem NoReferenceBetween.trans (front : NoReferenceBetween text start middle)
    (behind : NoReferenceBetween text middle stop) : NoReferenceBetween text start stop := by
  intro n from' before
  rcases Nat.lt_or_ge n middle with inFront | inBack
  · exact front n from' inFront
  · exact behind n inBack before

theorem noReferenceBetween_of_no_opener (absent : ¬ ['$', '('] <:+: text.drop start) :
    NoReferenceBetween text start stop := by
  intro n from' _
  refine noReferenceAt_of_not_opener fun opener => absent (opener.isInfix.trans ?_)
  exact (List.drop_suffix_drop_left text from').isInfix

/-- Before the first opener there is no reference. -/
theorem noReferenceBetween_of_find? {found : Nat}
    (opener : Text.find? ['$', '('] (text.drop start) = some found) :
    NoReferenceBetween text start (start + found) := by
  intro n from' before
  obtain ⟨k, rfl⟩ := Nat.exists_eq_add_of_le from'
  rw [← List.drop_drop]
  exact noReferenceAt_of_not_opener
    (Text.not_prefix_of_lt_find? opener k (Nat.lt_of_add_lt_add_left before))

/-- Nothing closes the opener, nor any behind it. -/
theorem noReferenceBetween_of_no_close (opens : text.drop start = '$' :: '(' :: inside)
    (unclosed : ')' ∉ inside) : NoReferenceBetween text start stop := by
  rintro n from' - expr rest - same
  obtain ⟨k, rfl⟩ := Nat.exists_eq_add_of_le from'
  have close : ')' ∈ text.drop (start + k) := by simp [same]
  rw [← List.drop_drop, opens] at close
  have inText := List.mem_of_mem_drop close
  simp [unclosed] at inText

theorem noReferenceBetween_empty {rest : List Char}
    (split : text.drop start = '$' :: '(' :: ')' :: rest) :
    NoReferenceBetween text start (start + 3) := by
  intro n from' before
  obtain ⟨k, rfl⟩ := Nat.exists_eq_add_of_le from'
  rw [← List.drop_drop, split]
  match k, Nat.lt_of_add_lt_add_left before with
  | 0, _ => exact noReferenceAt_empty rest
  | 1, _ => exact noReferenceAt_of_not_opener (by simp)
  | 2, _ => exact noReferenceAt_of_not_opener (by simp)

theorem noReferenceBetween_of_opener_behind {front body : List Char}
    (split : text.drop start = front ++ '$' :: '(' :: body) (noClose : ')' ∉ front) :
    NoReferenceBetween text start (start + front.length) := by
  intro n from' before
  obtain ⟨k, rfl⟩ := Nat.exists_eq_add_of_le from'
  have inFront : k < front.length := Nat.lt_of_add_lt_add_left before
  rw [← List.drop_drop, split, List.drop_append_of_le_length inFront.le]
  refine noReferenceAt_of_opener_behind ?_ fun close => noClose (List.mem_of_mem_drop close)
  simpa using inFront

end

def Reference.delimited (expr : List Char) : Reference :=
  ⟨String.ofList ('$' :: '(' :: (expr ++ [')'])), String.ofList expr⟩

@[simp] theorem Reference.toList_expression_delimited (expr : List Char) :
    (delimited expr).expression.toList = expr := String.toList_ofList

theorem Reference.eq_delimited_iff {r : Reference} {expr : List Char} :
    r = delimited expr ↔ r.expression.toList = expr ∧ r.raw = "$(" ++ r.expression ++ ")" := by
  constructor
  · rintro rfl
    refine ⟨String.toList_ofList, String.toList_inj.1 ?_⟩
    simp [delimited]
  · obtain ⟨raw, expression⟩ := r
    rintro ⟨rfl, written⟩
    obtain rfl : raw = "$(" ++ expression ++ ")" := written
    rw [delimited, String.ofList_toList, mk.injEq, ← String.toList_inj]
    simp

theorem Reference.eq_delimited_self_iff {r : Reference} :
    r = delimited r.expression.toList ↔
      r.raw.toList = '$' :: '(' :: (r.expression.toList ++ [')']) := by
  have spelled : ("$(" ++ r.expression ++ ")").toList =
      '$' :: '(' :: (r.expression.toList ++ [')']) := by simp
  rw [eq_delimited_iff, ← spelled, String.toList_inj, String.toList_inj]
  exact and_iff_right rfl

/-- What one round passes over, and what it lists. -/
inductive Scanned (text : List Char) (cursor : Nat) : Option (Option Reference × Nat) → Prop
  | finished : (∀ stop, NoReferenceBetween text cursor stop) → Scanned text cursor none
  | skipped {next : Nat} :
      NoReferenceBetween text cursor next → Scanned text cursor (some (none, next))
  | listed {start next : Nat} {expr rest : List Char} :
      cursor ≤ start → NoReferenceBetween text cursor start → IsExpression expr →
      text.drop start = '$' :: '(' :: (expr ++ ')' :: rest) → next = start + (expr.length + 3) →
      Scanned text cursor (some (some (Reference.delimited expr), next))

/-- The first closing parenthesis has none before it. -/
theorem exists_closed_of_find? {cs : List Char} {close : Nat}
    (closing : Text.find? [')'] cs = some close) :
    ∃ expr rest, cs = expr ++ ')' :: rest ∧ expr.length = close ∧ ')' ∉ expr := by
  obtain ⟨expr, rest, rfl, rfl⟩ :=
    Text.exists_split_of_prefix_drop (by simp) (Text.prefix_of_find? closing)
  refine ⟨expr, rest, rfl, rfl, fun earlier => ?_⟩
  obtain ⟨front, back, rfl⟩ := List.append_of_mem earlier
  refine Text.not_prefix_of_lt_find? closing front.length (by simp) ?_
  rw [List.append_assoc, List.drop_left]
  exact List.prefix_append [')'] _

theorem take_delimited (expr rest : List Char) :
    ('$' :: '(' :: (expr ++ ')' :: rest)).take (expr.length + 3) = '$' :: '(' :: (expr ++ [')']) := by
  rw [List.take_succ_cons, List.take_succ_cons, List.take_length_add_append]
  rfl

theorem scanned (text : List Char) (cursor : Nat) : Scanned text cursor (scanStep text cursor) := by
  rw [scanStep]
  split
  next noOpener =>
    exact .finished fun _ => noReferenceBetween_of_no_opener (Text.find?_eq_none_iff.1 noOpener)
  next found opener =>
    have front := noReferenceBetween_of_find? opener
    obtain ⟨inside, opens⟩ := Text.prefix_of_find? opener
    replace opens : text.drop (cursor + found) = '$' :: '(' :: inside := by
      rw [← List.drop_drop, ← opens]
      rfl
    have body : text.drop (cursor + found + 2) = inside := by
      rw [← List.drop_drop, opens]
      rfl
    dsimp only [List.extract]
    rw [body]
    split
    next noClose =>
      have unclosed := Text.find?_eq_none_iff.1 noClose
      rw [List.singleton_infix_iff] at unclosed
      exact .finished fun _ => front.trans (noReferenceBetween_of_no_close opens unclosed)
    next close closing =>
      obtain ⟨expr, rest, rfl, rfl, noClose⟩ := exists_closed_of_find? closing
      rw [Nat.add_sub_cancel_left, List.take_left]
      split
      next inner nested =>
        obtain ⟨outer, inside, rfl, rfl⟩ :=
          Text.exists_split_of_prefix_drop (by simp) (Text.prefix_of_findLast? nested)
        have split : text.drop (cursor + found) =
            ('$' :: '(' :: outer) ++ '$' :: '(' :: (inside ++ ')' :: rest) := by simp [opens]
        have noCloseBefore : ')' ∉ '$' :: '(' :: outer := by
          simpa using fun close => noClose (List.mem_append_left _ close)
        have jump := noReferenceBetween_of_opener_behind split noCloseBefore
        refine .skipped (front.trans ?_)
        rwa [Nat.add_assoc _ 2, Nat.add_comm 2]
      next plain =>
        split
        next empty =>
          subst empty
          exact .skipped (front.trans (noReferenceBetween_empty opens))
        next nonempty =>
          have noOpener := Text.findLast?_eq_none_iff.1 plain
          have size : cursor + found + 2 + expr.length + 1 - (cursor + found) = expr.length + 3 := by
            omega
          rw [size, opens, take_delimited]
          exact .listed (Nat.le_add_right cursor found) front ⟨nonempty, noClose, noOpener⟩ opens
            (by omega)

/-! ## Walking through a text -/

/-- The occurrences in a text whose first character has position `base`, by what stands at its
front. -/
inductive Located : Nat → List Char → List Occurrence → Prop
  | done {base : Nat} : Located base [] []
  | reference {base : Nat} {expr rest : List Char} {occs : List Occurrence} :
      IsExpression expr → Located (base + (expr.length + 3)) rest occs →
      Located base ('$' :: '(' :: (expr ++ ')' :: rest)) (⟨base, Reference.delimited expr⟩ :: occs)
  | other {base : Nat} {c : Char} {cs : List Char} {occs : List Occurrence} :
      NoReferenceAt (c :: cs) → Located (base + 1) cs occs → Located base (c :: cs) occs

theorem exists_located (base : Nat) (cs : List Char) : ∃ occs, Located base cs occs := by
  induction size : cs.length using Nat.strongRecOn generalizing base cs with
  | ind n ih =>
    cases cs with
    | nil => exact ⟨[], .done⟩
    | cons c cs =>
      by_cases front : ∃ expr rest, IsExpression expr ∧ c :: cs = '$' :: '(' :: (expr ++ ')' :: rest)
      · obtain ⟨expr, rest, plain, same⟩ := front
        have shorter : rest.length < n := by
          rw [← size, same]
          simp only [List.length_cons, List.length_append]
          omega
        obtain ⟨occs, located⟩ := ih rest.length shorter (base + (expr.length + 3)) rest rfl
        rw [same]
        exact ⟨_, .reference plain located⟩
      · obtain ⟨occs, located⟩ := ih cs.length (size ▸ Nat.lt_succ_self _) (base + 1) cs rfl
        refine ⟨occs, .other ?_ located⟩
        intro expr rest plain same
        exact front ⟨expr, rest, plain, same⟩

variable {base : Nat} {cs : List Char} {occs : List Occurrence}

theorem Located.tail {c : Char} (located : Located base (c :: cs) occs)
    (nowhere : NoReferenceAt (c :: cs)) : Located (base + 1) cs occs := by
  cases located with
  | reference plain => exact absurd rfl (nowhere _ _ plain)
  | other _ located => exact located

theorem Located.exists_cons {expr rest : List Char} (plain : IsExpression expr)
    (located : Located base ('$' :: '(' :: (expr ++ ')' :: rest)) occs) :
    ∃ later, occs = ⟨base, Reference.delimited expr⟩ :: later ∧
      Located (base + (expr.length + 3)) rest later := by
  generalize same : '$' :: '(' :: (expr ++ ')' :: rest) = cs at located
  cases located with
  | done => cases same
  | @reference _ expr' rest' later plain' located =>
    simp only [List.cons.injEq, true_and] at same
    obtain ⟨rfl, rfl⟩ := eq_of_append_close plain.no_close plain'.no_close same
    exact ⟨later, rfl, located⟩
  | other nowhere _ => exact absurd same.symm (nowhere expr rest plain)

/-- What is passed over has no part in the occurrences. -/
theorem Located.skip {text : List Char} {start stop : Nat} (le : start ≤ stop)
    (between : NoReferenceBetween text start stop)
    (located : Located start (text.drop start) occs) : Located stop (text.drop stop) occs := by
  induction stop, le using Nat.le_induction with
  | base => exact located
  | succ stop le ih =>
    have here := ih fun n from' before => between n from' (Nat.lt_succ_of_lt before)
    have nowhere := between stop le (Nat.lt_succ_self stop)
    rw [← List.drop_drop]
    cases split : text.drop stop with
    | nil =>
      rw [split] at here
      cases here
      exact .done
    | cons c cs =>
      rw [split] at here nowhere
      exact here.tail nowhere

/-- The search from a position on lists the references that are located there. -/
theorem Located.referencesFrom_eq {text : List Char} {cursor : Nat}
    (located : Located cursor (text.drop cursor) occs) :
    referencesFrom text cursor = occs.map (·.reference) := by
  fun_induction referencesFrom text cursor generalizing occs with
  | case1 cursor stopped =>
    have view := scanned text cursor
    rw [stopped] at view
    cases view with
    | finished nowhere =>
      have rest := located.skip (Nat.le_add_right cursor text.length) (nowhere _)
      rw [List.drop_of_length_le (Nat.le_add_left _ _)] at rest
      cases rest
      rfl
  | case2 cursor listed next round ih =>
    have advances := (scanStep_advances round).1
    have view := scanned text cursor
    rw [round] at view
    cases view with
    | skipped between => exact ih (located.skip advances.le between)
    | @listed start _ expr rest le between plain opens stop =>
      have here := located.skip le between
      rw [opens] at here
      obtain ⟨later, rfl, behind⟩ := here.exists_cons plain
      have split : text.drop next = rest := by
        rw [stop, ← List.drop_drop, opens]
        simp
      rw [ih (by rwa [split, stop])]
      rfl

theorem Located.references_eq {text : String} (located : Located 0 text.toList occs) :
    references text = occs.map (·.reference) :=
  located.referencesFrom_eq

theorem Located.base_le (located : Located base cs occs) : ∀ o ∈ occs, base ≤ o.start := by
  induction located with
  | done => simp
  | reference _ _ ih =>
    intro o member
    rcases List.mem_cons.1 member with rfl | member
    · exact Nat.le_refl _
    · exact Nat.le_of_add_right_le (ih o member)
  | other _ _ ih => exact fun o member => Nat.le_of_succ_le (ih o member)

theorem Located.ordered (located : Located base cs occs) :
    occs.Pairwise fun a b => a.stop ≤ b.start := by
  induction located with
  | done => exact .nil
  | reference _ behind ih =>
    refine .cons (fun o member => ?_) ih
    have := behind.base_le o member
    simpa [Occurrence.stop] using this
  | other _ _ ih => exact ih

theorem occursFrom_reference_iff {expr rest : List Char} (plain : IsExpression expr)
    (o : Occurrence) :
    OccursFrom base ('$' :: '(' :: (expr ++ ')' :: rest)) o ↔
      o = ⟨base, Reference.delimited expr⟩ ∨ OccursFrom (base + (expr.length + 3)) rest o := by
  constructor
  · rintro ⟨plain', written, before, after, same, start⟩
    rcases List.cons_eq_append_iff.1 same with ⟨rfl, here⟩ | ⟨before, rfl, here⟩
    · left
      simp only [List.cons.injEq, true_and] at here
      obtain ⟨same, -⟩ := eq_of_append_close plain'.no_close plain.no_close here
      obtain ⟨start', r⟩ := o
      rw [Occurrence.mk.injEq, Reference.eq_delimited_iff]
      exact ⟨start, same, written⟩
    · right
      rcases List.cons_eq_append_iff.1 here with ⟨-, paren⟩ | ⟨before, rfl, inside⟩
      · simp at paren
      · obtain ⟨between, rfl, rest_eq⟩ := exists_of_opener_behind plain.no_opener inside
        refine ⟨plain', written, between, after, rest_eq, ?_⟩
        rw [start]
        simp only [List.length_cons, List.length_append]
        omega
  · rintro (rfl | ⟨plain', written, before, after, rfl, start⟩)
    · have written := (Reference.eq_delimited_iff.1 (Eq.refl (Reference.delimited expr))).2
      exact ⟨by simpa using plain, written, [], rest, by simp, rfl⟩
    · refine ⟨plain', written, '$' :: '(' :: (expr ++ ')' :: before), after, by simp, ?_⟩
      rw [start]
      simp only [List.length_cons, List.length_append]
      omega

theorem occursFrom_cons_iff {c : Char} (nowhere : NoReferenceAt (c :: cs)) (o : Occurrence) :
    OccursFrom base (c :: cs) o ↔ OccursFrom (base + 1) cs o := by
  constructor
  · rintro ⟨plain, written, before, after, same, start⟩
    rcases List.cons_eq_append_iff.1 same with ⟨-, front⟩ | ⟨before, rfl, behind⟩
    · exact absurd front.symm (nowhere _ _ plain)
    · refine ⟨plain, written, before, after, behind, ?_⟩
      rw [start, List.length_cons]
      omega
  · rintro ⟨plain, written, before, after, rfl, start⟩
    refine ⟨plain, written, c :: before, after, rfl, ?_⟩
    rw [start, List.length_cons]
    omega

theorem Located.mem_iff (located : Located base cs occs) (o : Occurrence) :
    o ∈ occs ↔ OccursFrom base cs o := by
  induction located with
  | done =>
    constructor
    · intro member
      cases member
    · rintro ⟨-, -, before, after, same, -⟩
      simp at same
  | reference plain _ ih => rw [List.mem_cons, ih, occursFrom_reference_iff plain]
  | other nowhere _ ih => rw [ih, occursFrom_cons_iff nowhere]

/-! ## The references of a text -/

theorem exists_occursFrom_of_mem {text : String} {r : Reference} (listed : r ∈ references text) :
    ∃ start, OccursFrom 0 text.toList ⟨start, r⟩ := by
  obtain ⟨occs, located⟩ := exists_located 0 text.toList
  rw [located.references_eq] at listed
  obtain ⟨o, member, rfl⟩ := List.mem_map.1 listed
  exact ⟨o.start, (located.mem_iff o).1 member⟩

theorem OccursFrom.slice_eq {o : Occurrence} (occurs : OccursFrom 0 cs o) :
    o.slice cs = o.reference.raw.toList := by
  obtain ⟨-, written, before, after, rfl, start⟩ := occurs
  rw [Nat.zero_add] at start
  rw [Occurrence.slice, Occurrence.stop, start, List.drop_left, Nat.add_sub_cancel_left]
  simp [written, List.take_append]

/-- The references of a text are its occurrences, each once and from left to right.  They do not
overlap, and what the text has at their places is how they are written. -/
theorem references_eq_occurrences (text : String) :
    ∃ occs : List Occurrence,
      references text = occs.map (·.reference) ∧
      (∀ o, o ∈ occs ↔ OccursFrom 0 text.toList o) ∧
      occs.Pairwise (fun a b => a.stop ≤ b.start) ∧
      ∀ o ∈ occs, o.slice text.toList = o.reference.raw.toList := by
  obtain ⟨occs, located⟩ := exists_located 0 text.toList
  refine ⟨occs, located.references_eq, located.mem_iff, located.ordered, ?_⟩
  intro o member
  exact ((located.mem_iff o).1 member).slice_eq

/-- A reference starts at the innermost opener; empty delimiters and an opener that nothing closes
are no references. -/
example : references "$(x $(a)) $() $(b$) $(c" = [⟨"$(a)", "a"⟩, ⟨"$(b$)", "b$"⟩] := by decide +kernel

end PipelineParams
