import PipelineParams.Proofs.Json.Record
import PipelineParams.Proofs.Json.Strictness

/-! # What a reader takes it takes in any place

A reader is `Local` if it takes what it has taken once wherever that stands, and for the same value.
Single values are read like this, and lists, maps and records of what is read like this are as well.

For records this takes a grammar.  `RecordOf` says what an object or a list of fields makes of a record,
and the reader takes exactly this (`accepts_recordOf`, `yields_record`), so two documents of one record
can be compared without going back to the reader (`read_record_eq_ok_iff`).  How a text is cut into
members is no matter of choice (`Padded.exists_common`, `membersOf_unique`, `listOf_unique`).
-/

namespace PipelineParams.Json

variable {α β ρ : Type} {r : Reader α} {P : List Char → α → Prop} {Q : List Char → β → Prop}
  {cs tok rest : List Char}

/-- What the reader takes once, behind any white space, it takes in every place for the same value. -/
def Local (r : Reader α) : Prop := Yields r (Accepts r)

/-! ## Values -/

theorem Reads.local (reads : Reads r P) : Local r := Yields.imp reads.accepts reads.yields

theorem Local.map (isLocal : Local r) (f : α → β) : Local (r.map f) := by
  refine ⟨fun read => ?_⟩
  obtain ⟨a, run, rfl⟩ := run_map_eq_ok_iff.1 read
  obtain ⟨tok, accepts, head⟩ := Yields.exists_token isLocal run
  exact ⟨tok, accepts.map f, head⟩

theorem local_token : Local token := by
  refine ⟨fun {cs raw rest} read => ?_⟩
  obtain ⟨skipped, same⟩ := run_token_eq_ok_iff.1 read
  obtain ⟨tok, token, head⟩ := skipValue_sound skipped
  rw [head, List.append_cancel_right_eq] at same
  rw [← String.ofList_toList (s := raw), ← same]
  exact ⟨tok, token.accepts_token, head⟩

theorem local_choice {choices : List (String × α)} : Local (choice choices) :=
  yields_choice.imp accepts_choiceOf

theorem Local.optional (isLocal : Local r) : Local (optional r) := by
  refine ⟨fun {cs o rest} read => ?_⟩
  change readOptional r cs = .ok (o, rest) at read
  rw [readOptional] at read
  split at read
  next empty =>
    obtain ⟨a, run, rfl⟩ := run_map_eq_ok_iff.1 read
    obtain ⟨tok, accepts, head⟩ := Yields.exists_token isLocal run
    obtain ⟨c, tail, rfl, -⟩ := accepts.solid
    cases empty.symm.trans head
  next c behind start =>
    split at read
    next isN =>
      obtain ⟨rfl, word⟩ := map_skipLetters_eq_ok_iff.1 read
      exact ⟨_, accepts_null r, by rw [start, isN, word]; rfl⟩
    next other =>
      obtain ⟨a, run, rfl⟩ := run_map_eq_ok_iff.1 read
      obtain ⟨tok, accepts, head⟩ := Yields.exists_token isLocal run
      refine ⟨tok, accepts.optional ?_, head⟩
      rintro tail rfl
      exact other (List.cons.inj (start.symm.trans head)).1

theorem Local.mapOf (isLocal : Local r) : Local (mapOf r) :=
  Yields.imp (accepts_mapOf id) (yields_mapOf isLocal)

/-- What a local reader takes is the token that a strict one takes. -/
theorem Local.yields (isLocal : Local r) (strict : Strict r) :
    Yields r fun tok a => Token tok ∧ Accepts r tok a := by
  refine ⟨fun read => ?_⟩
  obtain ⟨tok, accepts, head⟩ := Yields.exists_token isLocal read
  obtain ⟨tok', token, head'⟩ := Yields.exists_token strict read
  obtain rfl := List.append_cancel_right (head.symm.trans head')
  exact ⟨tok, ⟨token, accepts⟩, head⟩

/-! ## One way to cut a text -/

theorem token_of_membersOf {members : List (String × List Char)}
    (object : MembersOf Spelling tok members) : Token tok := by
  obtain ⟨inner, rfl, members⟩ := object
  exact Interior.token (b := .object) (.of_members (Entry.member token_of_spelling) members)

/-- A text that is a token with white space around it is so in one way. -/
theorem Padded.exists_common {a : α} {b : β} (tokens : ∀ tok a, P tok a → Token tok)
    (tokens' : ∀ tok b, Q tok b → Token tok) (padded : Padded P cs a) (padded' : Padded Q cs b) :
    ∃ tok, P tok a ∧ Q tok b := by
  have solid : Solid P := fun token => (tokens _ _ token).exists_head
  have solid' : Solid Q := fun token => (tokens' _ _ token).exists_head
  obtain ⟨tok, after, token, blank, head⟩ := padded.exists_dropBlank solid []
  obtain ⟨tok', after', token', blank', head'⟩ := padded'.exists_dropBlank solid' []
  obtain ⟨rfl, -⟩ := eq_of_token_append (tokens _ _ token) (tokens' _ _ token')
    (ends_nil.blanks_append blank) (ends_nil.blanks_append blank') (head.symm.trans head')
  exact ⟨tok, token, token'⟩

theorem literal_unique {text text' : String} (literal : Literal tok text)
    (literal' : Literal tok text') : text = text' := by
  obtain ⟨behind, quote, read⟩ := readString_of_literal literal []
  obtain ⟨behind', quote', read'⟩ := readString_of_literal literal' []
  obtain ⟨-, rfl⟩ := List.cons.inj (quote.symm.trans quote')
  cases read.symm.trans read'
  rfl

theorem membersOf_unique {members members' : List (String × List Char)}
    (object : MembersOf Spelling tok members) (object' : MembersOf Spelling tok members') :
    members = members' := by
  have strings : ∀ tok text, Literal tok text → StringToken tok := fun _ _ => .of_literal
  have same : tok ++ [] = tok ++ [] := rfl
  have cuts :=
    Braced.forall₂ token_of_spelling token_of_spelling strings strings object object' same
  rw [← List.forall₂_eq_eq_eq]
  refine cuts.imp ?_
  rintro ⟨key, raw⟩ ⟨key', raw'⟩ ⟨⟨_, literal, literal'⟩, _, ⟨rfl, -⟩, rfl, -⟩
  exact Prod.ext (literal_unique literal literal') rfl

theorem listOf_unique {items items' : List (List Char)} (listed : ListOf Spelling tok items)
    (listed' : ListOf Spelling tok items') : items = items' := by
  have same : tok ++ [] = tok ++ [] := rfl
  have cuts := listed.forall₂ token_of_spelling token_of_spelling listed' same
  rw [← List.forall₂_eq_eq_eq]
  refine cuts.imp ?_
  rintro _ _ ⟨_, ⟨rfl, -⟩, rfl, -⟩
  rfl

/-! ## Records -/

section

variable {fields : List (Field ρ)} {blank s t : ρ} {label : String}

inductive RecordOf (fields : List (Field ρ)) (blank : ρ) (tok : List Char) (s : ρ) : Prop
  | object {members : List (String × List Char)} (object : MembersOf Spelling tok members)
      (once : Once fields members) (gathers : Gathers fields blank members s)
      (present : ∀ f ∈ fields, f.required = true → f.name ∈ members.map Prod.fst) :
      RecordOf fields blank tok s
  | list {items : List (List Char)} (listed : ListOf Spelling tok items)
      (itemized : Itemized (fun f => Accepts f.read) fields blank items s) :
      RecordOf fields blank tok s

section

variable {members : List (String × List Char)} {items : List (List Char)}

theorem RecordOf.token (denotes : RecordOf fields blank tok s) : Token tok := by
  cases denotes with
  | object object _ _ _ => exact token_of_membersOf object
  | list listed _ => exact .of_spellings listed

theorem RecordOf.of_members (denotes : RecordOf fields blank tok s)
    (object : MembersOf Spelling tok members) :
    Once fields members ∧ Gathers fields blank members s ∧
      ∀ f ∈ fields, f.required = true → f.name ∈ members.map Prod.fst := by
  cases denotes with
  | object object' once gathers present =>
    obtain rfl := membersOf_unique object object'
    exact ⟨once, gathers, present⟩
  | list listed _ =>
    obtain ⟨_, rfl, -⟩ := listed
    obtain ⟨_, ⟨⟩, -⟩ := object

theorem RecordOf.of_items (denotes : RecordOf fields blank tok s) (listed : ListOf Spelling tok items) :
    Itemized (fun f => Accepts f.read) fields blank items s := by
  cases denotes with
  | object object _ _ _ =>
    obtain ⟨_, rfl, -⟩ := object
    obtain ⟨_, ⟨⟩, -⟩ := listed
  | list listed' itemized =>
    obtain rfl := listOf_unique listed listed'
    exact itemized

end

inductive FieldStep (fields : List (Field ρ)) :
    List String × ρ → String → List Char → List String × ρ → Prop
  | known {f : Field ρ} {raw : List Char} {set : ρ → ρ} {names : List String} {r : ρ} :
      f ∈ fields → f.name ∉ names → Accepts f.read raw set →
        FieldStep fields (names, r) f.name raw (f.name :: names, set r)
  | unknown {key : String} {raw : List Char} {gathered : List String × ρ} :
      key ∉ fields.map Field.name → FieldStep fields gathered key raw gathered

theorem yields_fieldEntry
    (yields : ∀ f ∈ fields, Yields f.read fun tok set => Token tok ∧ Accepts f.read tok set)
    {gathered : List String × ρ} {key : String} {r : Reader (List String × ρ)}
    (known : fieldEntry fields gathered key = .ok r) :
    Yields r fun tok gathered' =>
      ∃ raw, Spelling tok raw ∧ FieldStep fields gathered key raw gathered' := by
  refine ⟨fun {cs gathered' rest} read => ?_⟩
  rw [fieldEntry] at known
  split at known
  next none =>
    cases known
    obtain ⟨_, skipped, rfl⟩ := run_map_eq_ok_iff.1 read
    obtain ⟨tok, token, head⟩ := Yields.exists_token strict_ignored skipped
    have unknown : key ∉ fields.map Field.name := by
      rintro member
      obtain ⟨f, member, same⟩ := List.mem_map.1 member
      exact List.find?_eq_none.1 none f member (decide_eq_true same)
    exact ⟨tok, ⟨tok, ⟨rfl, token⟩, .unknown unknown⟩, head⟩
  next f found =>
    split at known
    · cases known
    next fresh =>
      cases known
      obtain ⟨set, run, rfl⟩ := run_map_eq_ok_iff.1 read
      have member := List.mem_of_find?_eq_some found
      obtain ⟨tok, ⟨token, accepts⟩, head⟩ := (yields f member).exists_token run
      obtain rfl : f.name = key := by simpa using List.find?_some found
      exact ⟨tok, ⟨tok, ⟨rfl, token⟩, .known member fresh accepts⟩, head⟩

section

variable {gathered gathered' : List String × ρ} {members : List (String × List Char)}
  (chain : Chain (FieldStep fields) gathered members gathered')
include chain

theorem gathers_of_chain : Gathers fields gathered.2 members gathered'.2 := by
  induction chain with
  | nil => exact .done
  | cons stepped _ ih =>
    cases stepped with
    | known member _ accepts => exact .known member accepts ih
    | unknown unknown => exact .unknown unknown ih

/-- A name that has been gathered is not gathered again, so no member repeats an earlier one. -/
theorem once_of_chain :
    Once fields members ∧ ∀ e ∈ members, e.1 ∈ fields.map Field.name → e.1 ∉ gathered.1 := by
  induction chain with
  | nil => exact ⟨.nil, by simp⟩
  | cons stepped _ ih =>
    obtain ⟨once, fresh⟩ := ih
    cases stepped with
    | known member new accepts =>
      refine ⟨List.pairwise_cons.2 ⟨fun e later same known => ?_, once⟩, fun e here known => ?_⟩
      · exact fresh e later (same ▸ known) (same ▸ List.mem_cons_self)
      · rcases List.mem_cons.1 here with rfl | later
        · exact new
        · exact fun old => fresh e later known (List.mem_cons_of_mem _ old)
    | unknown unknown =>
      refine ⟨List.pairwise_cons.2 ⟨fun e _ _ => unknown, once⟩, fun e here known => ?_⟩
      rcases List.mem_cons.1 here with rfl | later
      · exact absurd known unknown
      · exact fresh e later known

theorem mem_of_chain {name : String} (found : name ∈ gathered'.1) :
    name ∈ gathered.1 ∨ name ∈ members.map Prod.fst := by
  induction chain with
  | nil => exact .inl found
  | cons stepped _ ih =>
    rcases ih found with old | later
    · cases stepped with
      | known _ _ _ =>
        rcases List.mem_cons.1 old with rfl | old
        · exact .inr List.mem_cons_self
        · exact .inl old
      | unknown _ => exact .inl old
    · exact .inr (List.mem_cons_of_mem _ later)

end

theorem complete_eq_ok_iff {names : List String} :
    complete fields (names, s) = .ok t ↔
      t = s ∧ ∀ f ∈ fields, f.required = true → f.name ∈ names := by
  constructor
  · intro completed
    rw [complete] at completed
    split at completed
    · cases completed
    next none =>
      cases completed
      refine ⟨rfl, fun f member required => ?_⟩
      simpa [required] using List.find?_eq_none.1 none f member
  · rintro ⟨rfl, present⟩
    exact complete_eq_ok present t

theorem accepts_recordOf (distinct : (fields.map Field.name).Nodup)
    (denotes : RecordOf fields blank tok s) : Accepts (record label fields blank) tok s := by
  cases denotes with
  | object object once gathers present =>
    exact accepts_record_of_gathers distinct object once gathers present label
  | list listed itemized =>
    obtain ⟨inner, rfl, listed⟩ := listed
    refine ⟨fun {cs rest} _ head => ?_, '[', _, rfl, by decide, by decide⟩
    have bracket : dropBlank isBlank cs = '[' :: (inner ++ ']' :: rest) := by simp [head]
    rw [record]
    dsimp only
    rw [bracket]
    dsimp only
    rw [if_neg (by decide), if_pos rfl]
    exact readListItems_complete itemized listed label fields.length

theorem yields_record
    (yields : ∀ f ∈ fields, Yields f.read fun tok set => Token tok ∧ Accepts f.read tok set) :
    Yields (record label fields blank) (RecordOf fields blank) := by
  refine ⟨fun {cs s rest} read => ?_⟩
  rw [record] at read
  dsimp only at read
  split at read
  · cases read
  next c behind head =>
    split at read
    next brace =>
      subst brace
      split at read
      · cases read
      next gathered after object =>
        split at read
        · cases read
        next completed =>
          cases read
          obtain ⟨inner, members, listed, chain, rfl⟩ :=
            readObject_sound (fun _ _ _ => yields_fieldEntry yields) object
          obtain ⟨rfl, present⟩ := complete_eq_ok_iff.1 completed
          have present' : ∀ f ∈ fields, f.required = true → f.name ∈ members.map Prod.fst :=
            fun f member required =>
              (mem_of_chain chain (present f member required)).resolve_left List.not_mem_nil
          obtain ⟨once, -⟩ := once_of_chain chain
          exact ⟨_, .object ⟨inner, rfl, listed⟩ once (gathers_of_chain chain) present', by simp [head]⟩
    · split at read
      next bracket =>
        subst bracket
        obtain ⟨inner, items, listed, itemized, rfl⟩ := readListItems_sound yields read
        exact ⟨_, .list ⟨inner, rfl, listed⟩ itemized, by simp [head]⟩
      · cases read

theorem local_record (distinct : (fields.map Field.name).Nodup)
    (yields : ∀ f ∈ fields, Yields f.read fun tok set => Token tok ∧ Accepts f.read tok set) :
    Local (record label fields blank) :=
  Yields.imp (accepts_recordOf distinct) (yields_record yields)

theorem read_record_eq_ok_iff (distinct : (fields.map Field.name).Nodup)
    (yields : ∀ f ∈ fields, Yields f.read fun tok set => Token tok ∧ Accepts f.read tok set)
    {text : String} :
    read (record label fields blank) text = .ok s ↔ Padded (RecordOf fields blank) text.toList s :=
  ⟨(yields_record yields).padded_of_read,
    fun padded => read_of_accepts (padded.imp (accepts_recordOf distinct))⟩

end

/-! ## Lists -/

/-- A list is read item by item, each as the document that it would be alone. -/
theorem read_list_eq_ok_iff (isLocal : Local r) (strict : Strict r) {text : String} {as : List α} :
    read (list r) text = .ok as ↔ ∃ items, Padded (ListOf Spelling) text.toList items ∧
      List.Forall₂ (fun item a => read r (String.ofList item) = .ok a) items as := by
  constructor
  · intro decoded
    obtain ⟨before, tok, after, blank, listed, blank', same⟩ :=
      (yields_list (isLocal.yields strict)).padded_of_read decoded
    obtain ⟨items, spellings, denote⟩ := listed.exists_forall₂ fun _ _ => And.left
    refine ⟨items, ⟨before, tok, after, blank, spellings, blank', same⟩, denote.imp ?_⟩
    rintro item a ⟨-, accepts⟩
    apply read_of_accepts
    rw [String.toList_ofList]
    exact .of_token accepts
  · rintro ⟨items, padded, decoded⟩
    apply read_of_accepts
    refine padded.imp fun {tok} listed => accepts_list id ?_
    have tokens : ∀ item ∈ items, Token item := fun _ mem => listed.token_of_mem mem
    have accepted : List.Forall₂ (Accepts r) items as := by
      refine ((List.forall₂_and_left _ _).2 ⟨tokens, decoded⟩).imp ?_
      rintro item a ⟨token, decoded⟩
      -- an item is a token, so what has been read of it alone is all of it
      have alone := (isLocal.yields strict).padded_of_read decoded
      rw [String.toList_ofList] at alone
      have spelling : Padded Spelling item item := .of_token ⟨rfl, token⟩
      obtain ⟨_, ⟨rfl, -⟩, -, accepts⟩ :=
        spelling.exists_common token_of_spelling (fun _ _ => And.left) alone
      exact accepts
    exact (listed.imp_of_mem fun _ _ _ => And.left).of_forall₂ accepted

end PipelineParams.Json
