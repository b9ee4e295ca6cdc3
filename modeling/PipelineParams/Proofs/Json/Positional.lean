import PipelineParams.Json.Record
import PipelineParams.Proofs.Json.WellFormed

/-! # Records that are written as lists

A record may be written as the list of its fields in the order of their declaration.  The items differ
in their types, so such a list is read by readers of its own, and they are followed here from the first
field to the last.

`Itemized P` says what the record is then, item by item, where `P` says what a field makes of a token.
The readers take nothing else (`readListItems_sound`), and they take this much if the fields accept
their tokens (`readListItems_complete`).  `Behind` describes what is left of a list behind an item, which
is where the readers stop between two fields.
-/

namespace PipelineParams.Json

variable {ρ : Type} {fields fs : List (Field ρ)} {cs rest more inner raw : List Char}
  {items : List (List Char)}

/-! ## Lists of tokens -/

def Behind (more : List Char) (items : List (List Char)) : Prop :=
  Blanks more ∧ items = [] ∨ ∃ blanks inner, Blanks blanks ∧
    Separated (Padded Spelling) inner items ∧ more = blanks ++ ',' :: inner

theorem separated_spelling_cons_iff :
    Separated (Padded Spelling) inner (raw :: items) ↔ ∃ before more, Blanks before ∧ Token raw ∧
      Behind more items ∧ inner = before ++ (raw ++ more) := by
  constructor
  · intro separated
    cases separated with
    | one item =>
      obtain ⟨before, _, after, blank, ⟨rfl, token⟩, blank', rfl⟩ := item
      exact ⟨before, after, blank, token, .inl ⟨blank', rfl⟩, rfl⟩
    | more item others =>
      obtain ⟨before, _, after, blank, ⟨rfl, token⟩, blank', rfl⟩ := item
      exact ⟨before, _, blank, token, .inr ⟨after, _, blank', others, rfl⟩, by simp⟩
  · rintro ⟨before, more, blank, token, ⟨blank', rfl⟩ | ⟨blanks, inner, blank', others, rfl⟩, rfl⟩
    · exact .one ⟨before, raw, more, blank, ⟨rfl, token⟩, blank', rfl⟩
    · have item : Padded Spelling (before ++ (raw ++ blanks)) raw :=
        ⟨before, raw, blanks, blank, ⟨rfl, token⟩, blank', rfl⟩
      simpa using Separated.more item others

theorem Behind.ends (behind : Behind more items) : Ends (more ++ ']' :: rest) := by
  rcases behind with ⟨blank, -⟩ | ⟨blanks, inner, blank, -, rfl⟩
  · exact (Bracket.list.ends_closer rest).blanks_append blank
  · rw [List.append_assoc]
    exact (ends_comma _).blanks_append blank

/-! ## Records -/

/-- What becomes of a record when its fields stand in a list in their order: the list may end before
fields that need not be present. -/
inductive Itemized (P : Field ρ → List Char → (ρ → ρ) → Prop) :
    List (Field ρ) → ρ → List (List Char) → ρ → Prop
  | ended {fs : List (Field ρ)} {r : ρ} : (∀ f ∈ fs, f.required = false) → Itemized P fs r [] r
  | item {f : Field ρ} {fs : List (Field ρ)} {raw : List Char} {set : ρ → ρ}
      {items : List (List Char)} {r s : ρ} :
      P f raw set → Itemized P fs (set r) items s → Itemized P (f :: fs) r (raw :: items) s

theorem endEarly_eq_ok_iff {name : String} {arity index : Nat} {r s : ρ} :
    endEarly name arity index fs r = .ok s ↔ (∀ f ∈ fs, f.required = false) ∧ s = r := by
  rw [endEarly]
  split
  next missing =>
    obtain ⟨inside, required, -⟩ := List.findIdx?_eq_some_iff_getElem.1 missing
    refine iff_of_false (fun read => nomatch read) fun early => ?_
    rw [early.1 _ (List.getElem_mem inside)] at required
    cases required
  next none =>
    rw [List.findIdx?_eq_none_iff] at none
    rw [Except.ok.injEq, and_iff_right none, eq_comm]

theorem readEnd_eq_ok_iff : readEnd cs = .ok rest ↔ dropBlank isBlank cs = ']' :: rest := by
  rw [readEnd]
  constructor
  · intro read
    split at read
    · cases read
    next c behind head =>
      split at read
      next close =>
        cases read
        rw [head, close]
      · split at read
        · split at read
          · cases read
          · split at read <;> cases read
        · cases read
  · intro head
    rw [head]
    simp

section

variable {P : Field ρ → List Char → (ρ → ρ) → Prop} {name : String} {arity index : Nat} {r s : ρ}

theorem readMoreItems_sound
    (yields : ∀ f ∈ fs, Yields f.read fun tok set => Token tok ∧ P f tok set)
    (read : readMoreItems name arity index r fs cs = .ok (s, rest)) :
    ∃ more items, Behind more items ∧ Itemized P fs r items s ∧ cs = more ++ ']' :: rest := by
  induction fs generalizing index r cs with
  | nil =>
    rw [readMoreItems] at read
    split at read
    · cases read
    next close =>
      cases read
      obtain ⟨blanks, blank, rfl⟩ := exists_of_dropBlank_eq (readEnd_eq_ok_iff.1 close)
      exact ⟨blanks, [], .inl ⟨blank, rfl⟩, .ended (by simp), rfl⟩
  | cons f fs ih =>
    rw [readMoreItems] at read
    split at read
    · cases read
    next c behind head =>
      obtain ⟨blanks, blank, rfl⟩ := exists_of_dropBlank_eq head
      split at read
      next close =>
        subst close
        split at read
        · cases read
        next early =>
          cases read
          obtain ⟨optional, rfl⟩ := endEarly_eq_ok_iff.1 early
          exact ⟨blanks, [], .inl ⟨blank, rfl⟩, .ended optional, rfl⟩
      · split at read
        next comma =>
          subst comma
          split at read
          · cases read
          next d next start =>
            obtain ⟨before, blank', rfl⟩ := exists_of_dropBlank_eq start
            split at read
            · cases read
            · split at read
              · cases read
              next set after item =>
                obtain ⟨raw, ⟨token, denotes⟩, front⟩ :=
                  (yields f List.mem_cons_self).exists_token item
                obtain ⟨more, items, behind, itemized, rfl⟩ :=
                  ih (fun g member => yields g (List.mem_cons_of_mem f member)) read
                rw [← start, dropBlank_dropBlank, start] at front
                have others := separated_spelling_cons_iff.2
                  ⟨before, more, blank', token, behind, rfl⟩
                exact ⟨blanks ++ ',' :: (before ++ (raw ++ more)), raw :: items,
                  .inr ⟨blanks, _, blank, others, rfl⟩, .item denotes itemized, by simp [front]⟩
        · cases read

/-- Only such lists are read. -/
theorem readListItems_sound
    (yields : ∀ f ∈ fs, Yields f.read fun tok set => Token tok ∧ P f tok set)
    (read : readListItems name arity r fs cs = .ok (s, rest)) :
    ∃ inner items, (Blanks inner ∧ items = [] ∨ Separated (Padded Spelling) inner items) ∧
      Itemized P fs r items s ∧ cs = inner ++ ']' :: rest := by
  cases fs with
  | nil =>
    rw [readListItems] at read
    split at read
    · cases read
    next close =>
      cases read
      obtain ⟨blanks, blank, rfl⟩ := exists_of_dropBlank_eq (readEnd_eq_ok_iff.1 close)
      exact ⟨blanks, [], .inl ⟨blank, rfl⟩, .ended (by simp), rfl⟩
  | cons f fs =>
    rw [readListItems] at read
    split at read
    · cases read
    next c behind head =>
      obtain ⟨before, blank, rfl⟩ := exists_of_dropBlank_eq head
      split at read
      next close =>
        subst close
        split at read
        · cases read
        next early =>
          cases read
          obtain ⟨optional, rfl⟩ := endEarly_eq_ok_iff.1 early
          exact ⟨before, [], .inl ⟨blank, rfl⟩, .ended optional, rfl⟩
      · split at read
        · cases read
        next set after item =>
          obtain ⟨raw, ⟨token, denotes⟩, front⟩ := (yields f List.mem_cons_self).exists_token item
          obtain ⟨more, items, behind, itemized, rfl⟩ :=
            readMoreItems_sound (fun g member => yields g (List.mem_cons_of_mem f member)) read
          rw [← head, dropBlank_dropBlank, head] at front
          have separated := separated_spelling_cons_iff.2 ⟨before, more, blank, token, behind, rfl⟩
          exact ⟨_, _, .inr separated, .item denotes itemized, by simp [front]⟩

end

/-- A field that accepts its token reads it where the token stands in a list. -/
theorem exists_run_of_separated {f : Field ρ} {set : ρ → ρ} (accepts : Accepts f.read raw set)
    (separated : Separated (Padded Spelling) inner (raw :: items)) (rest : List Char) :
    ∃ d tail more,
      dropBlank isBlank (inner ++ ']' :: rest) = d :: tail ∧ d ≠ ']' ∧ Behind more items ∧
      f.read.run (d :: tail) = .ok (set, more ++ ']' :: rest) := by
  obtain ⟨before, more, blank, token, behind, rfl⟩ := separated_spelling_cons_iff.1 separated
  obtain ⟨d, tail, rfl, solid, open'⟩ := token.exists_head
  have head :
      dropBlank isBlank (d :: (tail ++ (more ++ ']' :: rest))) = d :: tail ++ (more ++ ']' :: rest) :=
    dropBlank_cons solid _
  refine ⟨d, _, more, ?_, open', behind, accepts.run_eq behind.ends head⟩
  rw [List.append_assoc, dropBlank_append blank, List.append_assoc]
  exact head

theorem readMoreItems_complete {r s : ρ}
    (itemized : Itemized (fun f => Accepts f.read) fs r items s) (behind : Behind more items)
    (name : String) (arity index : Nat) :
    readMoreItems name arity index r fs (more ++ ']' :: rest) = .ok (s, rest) := by
  induction itemized generalizing more index with
  | @ended fs r optional =>
    obtain ⟨blank, -⟩ | ⟨_, _, _, ⟨⟩, _⟩ := behind
    have close : dropBlank isBlank (more ++ ']' :: rest) = ']' :: rest := dropBlank_append blank _
    cases fs with
    | nil => rw [readMoreItems, readEnd_eq_ok_iff.2 close]
    | cons f fs =>
      rw [readMoreItems, close]
      dsimp only
      rw [if_pos rfl, endEarly_eq_ok_iff.2 ⟨optional, rfl⟩]
  | @item f fs raw set items r s accepts itemized ih =>
    obtain ⟨-, ⟨⟩⟩ | ⟨blanks, inner, blank, separated, rfl⟩ := behind
    obtain ⟨d, tail, more, start, open', behind, run⟩ := exists_run_of_separated accepts separated rest
    have comma :
        dropBlank isBlank (blanks ++ ',' :: (inner ++ ']' :: rest)) = ',' :: (inner ++ ']' :: rest) :=
      dropBlank_append blank _
    rw [List.append_assoc, List.cons_append, readMoreItems, comma]
    dsimp only
    rw [if_neg (by decide), if_pos rfl, start]
    dsimp only
    rw [if_neg open', run]
    exact ih behind (index + 1)

/-- Such a list is read up to its closing bracket, whatever follows it. -/
theorem readListItems_complete {r s : ρ}
    (itemized : Itemized (fun f => Accepts f.read) fs r items s)
    (listed : Blanks inner ∧ items = [] ∨ Separated (Padded Spelling) inner items)
    (name : String) (arity : Nat) :
    readListItems name arity r fs (inner ++ ']' :: rest) = .ok (s, rest) := by
  cases itemized with
  | ended optional =>
    obtain ⟨blank, -⟩ | ⟨⟨⟩⟩ := listed
    have close : dropBlank isBlank (inner ++ ']' :: rest) = ']' :: rest := dropBlank_append blank _
    cases fs with
    | nil => rw [readListItems, readEnd_eq_ok_iff.2 close]
    | cons f fs =>
      rw [readListItems, close]
      dsimp only
      rw [if_pos rfl, endEarly_eq_ok_iff.2 ⟨optional, rfl⟩]
  | @item f fs raw set items r s accepts itemized =>
    obtain ⟨-, ⟨⟩⟩ | separated := listed
    obtain ⟨d, tail, more, start, open', behind, run⟩ := exists_run_of_separated accepts separated rest
    rw [readListItems, start]
    dsimp only
    rw [if_neg open', run]
    exact readMoreItems_complete itemized behind name arity 1

end PipelineParams.Json
