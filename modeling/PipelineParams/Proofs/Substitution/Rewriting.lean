import PipelineParams.Proofs.SortedMap.Lookup
import PipelineParams.Substitution

/-! # Substitution as rewriting

`Rewrites` says what substitution means, one position after the other: a known reference is
replaced by the value of the shortest key that fits, and any other character is copied.  It knows no
cursor, no bound on the length of a key and no short cut, and it may look at the whole rest of the
text at every position.  `substitute_eq_iff_rewrites` says that substitution is this relation, read
as a function.

The work is in `closeKey`, which gives up as soon as it has read more bytes than the longest key
has: `closeKey_sound` and `closeKey_complete` describe its answer with no mention of that bound.
From them come the three equations of `substituteChars` that every later module uses instead of the
definition.
-/

namespace PipelineParams

variable {strings : SortedMap String}

/-! ## The relation -/

/-- `$(key)` stands at the front of `cs`, and `rest` behind it. -/
def StandsAt (key : String) (cs rest : List Char) : Prop :=
  cs = '$' :: '(' :: (key.toList ++ ')' :: rest)

def KeyStandsAt (strings : SortedMap String) (cs : List Char) : Prop :=
  ∃ key value rest, strings.get? key = some value ∧ StandsAt key cs rest

/-- The shortest key that stands at the front of `cs` has `value`, and `rest` stands behind it. -/
structure ShortestKeyAt (strings : SortedMap String) (cs : List Char) (value : String)
    (rest : List Char) (key : String) : Prop where
  known : strings.get? key = some value
  stands : StandsAt key cs rest
  shortest : ∀ other value' rest', strings.get? other = some value' → StandsAt other cs rest' →
    key.toList.length ≤ other.toList.length

/-- Rewriting from left to right.  What a reference is replaced by is not looked at again. -/
inductive Rewrites (strings : SortedMap String) : List Char → List Char → Prop
  | done : Rewrites strings [] []
  | replaced {cs rest out : List Char} {key value : String} :
      ShortestKeyAt strings cs value rest key → Rewrites strings rest out →
      Rewrites strings cs (value.toList ++ out)
  | copied {c : Char} {cs out : List Char} :
      ¬ KeyStandsAt strings (c :: cs) → Rewrites strings cs out →
      Rewrites strings (c :: cs) (c :: out)

/-! ## Closing a key -/

theorem utf8ByteSize_ofList_append (cs ds : List Char) :
    (String.ofList (cs ++ ds)).utf8ByteSize =
      (String.ofList cs).utf8ByteSize + (String.ofList ds).utf8ByteSize := by
  rw [String.ofList_append, String.utf8ByteSize_append]

theorem utf8ByteSize_ofList_singleton (c : Char) :
    (String.ofList [c]).utf8ByteSize = c.utf8Size := by
  rw [← String.singleton_eq_ofList, String.utf8ByteSize_singleton]

private theorem le_foldl_max {α : Type} (size : α → Nat) (keys : List α) (n : Nat) :
    n ≤ keys.foldl (fun n key => max n (size key)) n ∧
      ∀ key ∈ keys, size key ≤ keys.foldl (fun n key => max n (size key)) n := by
  induction keys generalizing n with
  | nil => simp
  | cons key keys ih =>
    obtain ⟨base, members⟩ := ih (max n (size key))
    refine ⟨by simp only [List.foldl_cons]; omega, ?_⟩
    intro other member
    rcases List.mem_cons.1 member with rfl | member
    · simp only [List.foldl_cons]; omega
    · exact members other member

theorem utf8ByteSize_le_longestKey {key value : String} (known : strings.get? key = some value) :
    key.utf8ByteSize ≤ longestKey strings :=
  (le_foldl_max String.utf8ByteSize strings.keys 0).2 key (SortedMap.mem_keys_of_get? known)

/-- A key that has been closed is known, and no known key could have been closed before it. -/
theorem closeKey_sound {read : List Char} {left : Nat} {cs rest : List Char} {value : String}
    (closed : closeKey strings read left cs = some (value, rest)) :
    ∃ tail, cs = tail ++ ')' :: rest ∧
      strings.get? (String.ofList (read.reverse ++ tail)) = some value ∧
      ∀ tail' rest', cs = tail' ++ ')' :: rest' → tail'.length < tail.length →
        strings.get? (String.ofList (read.reverse ++ tail')) = none := by
  induction cs generalizing read left with
  | nil => cases closed
  | cons c cs ih =>
    rw [closeKey] at closed
    split at closed
    next found =>
      cases closed
      split at found
      next close =>
        refine ⟨[], by simp [close], by simpa using found, ?_⟩
        intro tail' _ _ shorter
        exact absurd shorter (Nat.not_lt_zero _)
      · cases found
    next notHere =>
      split at closed
      · obtain ⟨tail, rfl, known, first⟩ := ih closed
        refine ⟨c :: tail, rfl, by simpa using known, ?_⟩
        intro tail' rest' same shorter
        cases tail' with
        | nil =>
          obtain rfl : c = ')' := by simpa using (List.cons.inj same).1
          simpa using notHere
        | cons d tail' =>
          obtain ⟨rfl, behind⟩ := List.cons.inj same
          simpa using first tail' rest' behind (Nat.lt_of_succ_lt_succ shorter)
      · cases closed

/-- If no key was closed although the longest one still fits, then no known key is closed here. -/
theorem closeKey_complete {read : List Char} {left : Nat} {cs : List Char}
    (fits : ∀ key value, strings.get? key = some value →
      key.utf8ByteSize ≤ (String.ofList read.reverse).utf8ByteSize + left)
    (closed : closeKey strings read left cs = none) {tail rest : List Char}
    (stands : cs = tail ++ ')' :: rest) :
    strings.get? (String.ofList (read.reverse ++ tail)) = none := by
  induction cs generalizing read left tail with
  | nil => simp at stands
  | cons c cs ih =>
    rw [closeKey] at closed
    split at closed
    · cases closed
    next notHere =>
      cases tail with
      | nil =>
        obtain rfl : c = ')' := by simpa using (List.cons.inj stands).1
        simpa using notHere
      | cons d tail =>
        obtain ⟨rfl, behind⟩ := List.cons.inj stands
        split at closed
        next room =>
          have fits' : ∀ key value, strings.get? key = some value →
              key.utf8ByteSize ≤
                (String.ofList (c :: read).reverse).utf8ByteSize + (left - c.utf8Size) := by
            intro key value known
            have := fits key value known
            rw [List.reverse_cons, utf8ByteSize_ofList_append, utf8ByteSize_ofList_singleton]
            omega
          simpa using ih fits' closed behind
        next full =>
          -- Every key that goes on with `c` has more bytes than the longest one.
          cases known : strings.get? (String.ofList (read.reverse ++ c :: tail)) with
          | none => rfl
          | some value =>
            have := fits _ value known
            rw [← List.singleton_append, utf8ByteSize_ofList_append, utf8ByteSize_ofList_append,
              utf8ByteSize_ofList_singleton] at this
            omega

/-! ## Equations -/

variable {longest : Nat} {done : List Char}

theorem substituteFrom_closed {body rest : List Char} {value : String}
    (closed : closeKey strings [] longest body = some (value, rest)) :
    substituteFrom strings longest done ('$' :: '(' :: body) =
      substituteFrom strings longest (value.toList.reverse ++ done) rest := by
  rw [substituteFrom]
  split
  next found =>
    obtain ⟨rfl, rfl⟩ := Prod.mk.inj (Option.some.inj (closed.symm.trans found))
    rfl
  next missing => cases closed.symm.trans missing

theorem substituteFrom_opened {body : List Char}
    (opened : closeKey strings [] longest body = none) :
    substituteFrom strings longest done ('$' :: '(' :: body) =
      substituteFrom strings longest ('(' :: '$' :: done) body := by
  rw [substituteFrom]
  split
  next found => cases opened.symm.trans found
  next => rfl

theorem substituteFrom_other {c : Char} {cs : List Char}
    (other : ∀ body, c :: cs ≠ '$' :: '(' :: body) :
    substituteFrom strings longest done (c :: cs) =
      substituteFrom strings longest (c :: done) cs := by
  rw [substituteFrom]
  rintro body rfl rfl
  exact other body rfl

/-- What has been written before is put in front and not looked at. -/
theorem substituteFrom_append (done before cs : List Char) :
    substituteFrom strings longest (done ++ before) cs =
      before.reverse ++ substituteFrom strings longest done cs := by
  fun_induction substituteFrom strings longest done cs with
  | case1 done body value rest closed ih =>
    rw [substituteFrom_closed closed, ← ih, List.append_assoc]
  | case2 done body opened ih =>
    rw [substituteFrom_opened opened, ← ih]
    rfl
  | case3 done c cs other ih =>
    rw [substituteFrom_other (fun body same => ?_), ← ih]
    · rfl
    · obtain ⟨rfl, rfl⟩ := List.cons.inj same
      exact other body rfl rfl
  | case4 done => rw [substituteFrom, List.reverse_append]

/-- Substitution on characters, without the short cuts of `substitute`. -/
def substituteChars (strings : SortedMap String) (cs : List Char) : List Char :=
  substituteFrom strings (longestKey strings) [] cs

theorem substituteChars_nil : substituteChars strings [] = [] := by
  rw [substituteChars, substituteFrom]
  rfl

private theorem closeKey_eq_none {body : List Char}
    (nowhere : ¬ KeyStandsAt strings ('$' :: '(' :: body)) :
    closeKey strings [] (longestKey strings) body = none := by
  cases closed : closeKey strings [] (longestKey strings) body with
  | none => rfl
  | some found =>
    obtain ⟨value, rest⟩ := found
    obtain ⟨tail, rfl, known, _⟩ := closeKey_sound closed
    refine absurd ⟨_, value, rest, known, ?_⟩ nowhere
    simp [StandsAt]

theorem substituteChars_of_shortestKeyAt {cs rest : List Char} {key value : String}
    (front : ShortestKeyAt strings cs value rest key) :
    substituteChars strings cs = value.toList ++ substituteChars strings rest := by
  obtain ⟨known, rfl, shortest⟩ := front
  have closed : closeKey strings [] (longestKey strings) (key.toList ++ ')' :: rest) =
      some (value, rest) := by
    cases closed : closeKey strings [] (longestKey strings) (key.toList ++ ')' :: rest) with
    | none =>
      -- The longest key fits before anything has been read.
      have unknown := closeKey_complete
        (fun key value known => by
          have := utf8ByteSize_le_longestKey known
          omega)
        closed rfl
      simp [known] at unknown
    | some found =>
      obtain ⟨value', rest'⟩ := found
      obtain ⟨tail, same, known', first⟩ := closeKey_sound closed
      -- The key that was closed is no shorter than `key`, and `key` would have been closed first.
      have atMost : key.toList.length ≤ tail.length := by
        simpa using shortest (String.ofList tail) value' rest' (by simpa using known')
          (by simp [StandsAt, same])
      have atLeast : ¬ key.toList.length < tail.length := by
        intro shorter
        have unknown := first key.toList rest rfl shorter
        simp [known] at unknown
      obtain ⟨rfl, behind⟩ := List.append_inj same (by omega)
      obtain ⟨-, rfl⟩ := List.cons.inj behind
      simp [known] at known'
      rw [known']
  rw [substituteChars, substituteChars, substituteFrom_closed closed, List.append_nil,
    ← List.nil_append value.toList.reverse, substituteFrom_append, List.reverse_reverse]

/-- Where no key stands one character is copied.  Behind an opener the definition goes on at once
with the body; nothing is lost, since no reference starts with the parenthesis in between. -/
theorem substituteChars_of_not_keyStandsAt {c : Char} {cs : List Char}
    (nowhere : ¬ KeyStandsAt strings (c :: cs)) :
    substituteChars strings (c :: cs) = c :: substituteChars strings cs := by
  by_cases opener : ∃ body, c :: cs = '$' :: '(' :: body
  · obtain ⟨body, same⟩ := opener
    obtain ⟨rfl, rfl⟩ := List.cons.inj same
    have paren : substituteFrom strings (longestKey strings) [] ('(' :: body) =
        substituteFrom strings (longestKey strings) ['('] body :=
      substituteFrom_other (by simp)
    rw [substituteChars, substituteChars, substituteFrom_opened (closeKey_eq_none nowhere), paren]
    exact substituteFrom_append ['('] ['$'] body
  · rw [substituteChars, substituteFrom_other (fun body same => opener ⟨body, same⟩)]
    exact substituteFrom_append [] [c] cs

/-! ## Short cuts -/

theorem substituteChars_eq_self {cs : List Char}
    (nowhere : ∀ ds, ds <:+ cs → ¬ KeyStandsAt strings ds) : substituteChars strings cs = cs := by
  induction cs with
  | nil => exact substituteChars_nil
  | cons c cs ih =>
    rw [substituteChars_of_not_keyStandsAt (nowhere _ (List.suffix_refl _)), ih]
    intro ds behind
    exact nowhere ds (behind.trans (List.suffix_cons c cs))

theorem Text.contains_eq_true_iff {part cs : List Char} :
    Text.contains part cs = true ↔ part <:+: cs := by
  rw [Text.contains, Option.isSome_iff_ne_none, ne_eq, Text.find?_eq_none_iff, Decidable.not_not]

theorem not_keyStandsAt_of_no_opener {cs ds : List Char} (absent : ¬ ['$', '('] <:+: cs)
    (behind : ds <:+ cs) : ¬ KeyStandsAt strings ds := by
  rintro ⟨key, value, rest, -, rfl⟩
  exact absent ((List.prefix_append ['$', '('] _).isInfix.trans behind.isInfix)

theorem toList_substitute (strings : SortedMap String) (text : String) :
    (substitute strings text).toList = substituteChars strings text.toList := by
  rw [substitute]
  split
  next idle =>
    symm
    apply substituteChars_eq_self
    intro ds behind
    rcases Bool.or_eq_true_iff.1 idle with empty | absent
    · rintro ⟨key, value, rest, known, -⟩
      rw [SortedMap.get?_of_isEmpty empty] at known
      cases known
    · refine not_keyStandsAt_of_no_opener ?_ behind
      rw [← Text.contains_eq_true_iff]
      simpa using absent
  · rw [String.toList_ofList]
    rfl

/-! ## Substitution is rewriting -/

theorem exists_shortestKeyAt {cs : List Char} (stands : KeyStandsAt strings cs) :
    ∃ key value rest, ShortestKeyAt strings cs value rest key := by
  obtain ⟨key, value, rest, known, here⟩ := stands
  induction size : key.toList.length using Nat.strongRecOn generalizing key value rest with
  | ind n ih =>
    by_cases beaten : ∃ other value' rest', strings.get? other = some value' ∧
        StandsAt other cs rest' ∧ other.toList.length < key.toList.length
    · obtain ⟨other, value', rest', known', here', shorter⟩ := beaten
      exact ih _ (size ▸ shorter) other value' rest' known' here' rfl
    · refine ⟨key, value, rest, known, here, ?_⟩
      intro other value' rest' known' here'
      exact Nat.le_of_not_lt fun shorter => beaten ⟨other, value', rest', known', here', shorter⟩

theorem ShortestKeyAt.length_lt {cs rest : List Char} {key value : String}
    (front : ShortestKeyAt strings cs value rest key) : rest.length < cs.length := by
  rw [front.stands]
  simp only [List.length_cons, List.length_append]
  omega

/-- Every text can be rewritten, and to what substitution makes of it. -/
theorem rewrites_substituteChars (strings : SortedMap String) (cs : List Char) :
    Rewrites strings cs (substituteChars strings cs) := by
  induction size : cs.length using Nat.strongRecOn generalizing cs with
  | ind n ih =>
    -- not on the list itself: behind a reference the rest is shorter by more than one character
    cases cs with
    | nil =>
      rw [substituteChars_nil]
      exact .done
    | cons c cs =>
      by_cases stands : KeyStandsAt strings (c :: cs)
      · obtain ⟨key, value, rest, front⟩ := exists_shortestKeyAt stands
        rw [substituteChars_of_shortestKeyAt front]
        exact .replaced front (ih _ (size ▸ front.length_lt) rest rfl)
      · rw [substituteChars_of_not_keyStandsAt stands]
        exact .copied stands (ih _ (size ▸ Nat.lt_succ_self _) cs rfl)

theorem substituteChars_eq_of_rewrites {cs out : List Char} (rewrites : Rewrites strings cs out) :
    substituteChars strings cs = out := by
  induction rewrites with
  | done => exact substituteChars_nil
  | replaced front _ ih => rw [substituteChars_of_shortestKeyAt front, ih]
  | copied nowhere _ ih => rw [substituteChars_of_not_keyStandsAt nowhere, ih]

/-- Substitution is rewriting from left to right: every text has exactly one rewriting, and that is
what substitution returns. -/
theorem substitute_eq_iff_rewrites (strings : SortedMap String) (text out : String) :
    substitute strings text = out ↔ Rewrites strings text.toList out.toList := by
  rw [← String.toList_inj, toList_substitute]
  constructor
  · intro same
    exact same ▸ rewrites_substituteChars strings text.toList
  · exact substituteChars_eq_of_rewrites

/-- The value of `a)b` is not taken, since the shorter key `a` closes first. -/
example : substitute (SortedMap.ofList [("a", "$(c)"), ("a)b", "2"), ("c", "3")]) "$($(a)b)" =
    "$($(c)b)" := by decide +kernel

end PipelineParams
