import Mathlib.Data.List.Pairwise
import PipelineParams.Proofs.Json.Locality

/-! # One record in many layouts

Whoever writes a record chooses how: an object with the fields in any order and with other members
between them, a field that is left open as `null` or not at all, or the list of the fields.  `Layout`
describes all of these by the tokens for the fields that are given, and `Plain` is the simplest of them,
the object in the order of the declaration.

The record is the same in every layout (`Rearrangeable.read_layout`).  What it takes is that the fields
do not get in each other's way, so that what they do can be put in any order (`Gathers.perm`), and that
an open field leaves the record alone when it is read from `null`.  As the order does not matter the
open fields may then come first, where the record is still as it was before (`Gathers.nulls_append`).
-/

namespace PipelineParams.Json

variable {ρ : Type} {fields front back nulls : List (Field ρ)} {given : String → Option (List Char)}
  {members es : List (String × List Char)} {items : List (List Char)} {key : String} {f : Field ρ}
  {raw tok : List Char} {blank r s : ρ}

/-! ## Layouts -/

def inOrder (fields : List (Field ρ)) (given : String → Option (List Char)) :
    List (String × List Char) :=
  fields.filterMap fun f => (given f.name).map fun raw => (f.name, raw)

def asNull (fields : List (Field ρ)) : List (String × List Char) :=
  fields.map fun f => (f.name, "null".toList)

def fieldMembers (fields : List (Field ρ)) (members : List (String × List Char)) :
    List (String × List Char) :=
  members.filter fun e => e.1 ∈ fields.map Field.name

/-- The object of the fields that are given in the order of the declaration, and of nothing else. -/
def Plain (fields : List (Field ρ)) (tok : List Char) (given : String → Option (List Char)) : Prop :=
  MembersOf Spelling tok (inOrder fields given)

/-- A way to write the fields that are given: an object of them in any order, with any of the absent
ones as `null` and anything under other keys, or a list of all fields up to some absent ones at the
end. -/
inductive Layout (fields : List (Field ρ)) (tok : List Char) (given : String → Option (List Char)) :
    Prop
  | object {members : List (String × List Char)} {nulls : List (Field ρ)}
      (object : MembersOf Spelling tok members)
      (absent : nulls.Sublist (fields.filter fun f => given f.name = none))
      (order : (fieldMembers fields members).Perm (inOrder fields given ++ asNull nulls)) :
      Layout fields tok given
  | list {front back : List (Field ρ)} (split : fields = front ++ back)
      (absent : ∀ f ∈ back, given f.name = none)
      (listed : ListOf Spelling tok (front.map fun f => (given f.name).getD "null".toList)) :
      Layout fields tok given

theorem mem_keys_inOrder_iff :
    key ∈ (inOrder fields given).map Prod.fst ↔
      key ∈ fields.map Field.name ∧ ∃ raw, given key = some raw := by
  simp only [inOrder, List.mem_map, List.mem_filterMap, Option.map_eq_some_iff]
  constructor
  · rintro ⟨_, ⟨f, member, raw, here, rfl⟩, rfl⟩
    exact ⟨⟨f, member, rfl⟩, raw, here⟩
  · rintro ⟨⟨f, member, rfl⟩, raw, here⟩
    exact ⟨_, ⟨f, member, raw, here, rfl⟩, rfl⟩

theorem inOrder_append_of_absent (absent : ∀ f ∈ back, given f.name = none) :
    inOrder (front ++ back) given = inOrder front given := by
  have none : inOrder back given = [] :=
    List.filterMap_eq_nil_iff.2 fun f member => by rw [absent f member, Option.map_none]
  rw [inOrder, List.filterMap_append, ← inOrder, ← inOrder, none, List.append_nil]

theorem optional_of_absent
    (present : ∀ f ∈ fields, f.required = true → f.name ∈ (inOrder fields given).map Prod.fst)
    (member : f ∈ fields) (absent : given f.name = none) : f.required = false := by
  refine Bool.eq_false_iff.2 fun required => ?_
  obtain ⟨-, raw, here⟩ := mem_keys_inOrder_iff.1 (present f member required)
  cases absent.symm.trans here

/-- A list gives each field or writes it as `null`. -/
theorem perm_items (fields : List (Field ρ)) (given : String → Option (List Char)) :
    (fields.map fun f => (f.name, (given f.name).getD "null".toList)).Perm
      (inOrder fields given ++ asNull (fields.filter fun f => given f.name = none)) := by
  induction fields with
  | nil => exact .nil
  | cons f fs ih =>
    cases here : given f.name with
    | none =>
      rw [inOrder, List.filterMap_cons_none (by rw [here, Option.map_none]), ← inOrder,
        List.filter_cons_of_pos (by simp [here]), List.map_cons, here]
      exact (ih.cons _).trans List.perm_middle.symm
    | some raw =>
      rw [inOrder, List.filterMap_cons_some (by rw [here, Option.map_some]), ← inOrder,
        List.filter_cons_of_neg (by simp [here]), List.map_cons, here]
      exact ih.cons _

/-! ## Members -/

theorem once_iff_nodup :
    Once fields members ↔ ((fieldMembers fields members).map Prod.fst).Nodup := by
  rw [Once, List.Nodup, List.pairwise_map, fieldMembers, List.pairwise_filter]
  refine List.Pairwise.iff fun e e' => ?_
  simp only [decide_eq_true_eq]
  constructor
  · exact fun apart known _ same => apart same known
  · exact fun distinct same known => distinct known (same ▸ known) same

theorem once_of_nodup (distinct : (members.map Prod.fst).Nodup) : Once fields members :=
  once_iff_nodup.2 (distinct.sublist (List.filter_sublist.map Prod.fst))

theorem gathers_known_iff (known : key ∈ fields.map Field.name) :
    Gathers fields r ((key, raw) :: es) s ↔
      ∃ f ∈ fields, f.name = key ∧ ∃ set, Accepts f.read raw set ∧ Gathers fields (set r) es s := by
  constructor
  · intro gathers
    cases gathers with
    | known member accepts gathers => exact ⟨_, member, rfl, _, accepts, gathers⟩
    | unknown unknown _ => exact absurd known unknown
  · rintro ⟨f, member, rfl, set, accepts, gathers⟩
    exact .known member accepts gathers

theorem gathers_unknown_iff (unknown : key ∉ fields.map Field.name) :
    Gathers fields r ((key, raw) :: es) s ↔ Gathers fields r es s := by
  constructor
  · intro gathers
    cases gathers with
    | known member _ _ => exact absurd (List.mem_map_of_mem member) unknown
    | unknown _ gathers => exact gathers
  · exact .unknown unknown

/-- Members that are no fields may stand anywhere. -/
theorem gathers_fieldMembers_iff :
    Gathers fields r (fieldMembers fields members) s ↔ Gathers fields r members s := by
  induction members generalizing r with
  | nil => exact Iff.rfl
  | cons e es ih =>
    obtain ⟨key, raw⟩ := e
    by_cases known : key ∈ fields.map Field.name
    · rw [fieldMembers, List.filter_cons_of_pos (by simpa using known), ← fieldMembers]
      simp only [gathers_known_iff known, ih]
    · rw [fieldMembers, List.filter_cons_of_neg (by simpa using known), ← fieldMembers,
        gathers_unknown_iff known, ih]

/-! ## Any order -/

def Independent (f g : Field ρ) : Prop :=
  ∀ raw raw' set set', Accepts f.read raw set → Accepts g.read raw' set' →
    ∀ r, set (set' r) = set' (set r)

theorem independent_map {α β : Type} {name name' : String} {required required' : Bool}
    {reader : Reader α} {reader' : Reader β} {set : α → ρ → ρ} {set' : β → ρ → ρ}
    (commute : ∀ a b r, set a (set' b r) = set' b (set a r)) :
    Independent ⟨name, required, reader.map set⟩ ⟨name', required', reader'.map set'⟩ := by
  intro raw raw' change change' accepts accepts' r
  obtain ⟨a, -, rfl⟩ := run_map_eq_ok_iff.1 accepts.run_self
  obtain ⟨b, -, rfl⟩ := run_map_eq_ok_iff.1 accepts'.run_self
  exact commute a b r

instance : Std.Symm (@Independent ρ) where
  symm _ _ independent raw raw' set set' accepts accepts' r :=
    (independent raw' raw set' set accepts' accepts r).symm

/-- Members may change their places if no field is given twice. -/
theorem Gathers.perm (independent : fields.Pairwise Independent) (gathers : Gathers fields r members s)
    (once : Once fields members) (order : members.Perm es) : Gathers fields r es s := by
  induction order generalizing r with
  | nil => exact gathers
  | cons e _ ih =>
    obtain ⟨-, later⟩ := List.pairwise_cons.1 once
    cases gathers with
    | known member accepts gathers => exact .known member accepts (ih gathers later)
    | unknown unknown gathers => exact .unknown unknown (ih gathers later)
  | swap e e' es =>
    cases gathers with
    | unknown unknown gathers =>
      cases gathers with
      | known member accepts gathers => exact .known member accepts (.unknown unknown gathers)
      | unknown unknown' gathers => exact .unknown unknown' (.unknown unknown gathers)
    | @known f _ set _ _ _ member accepts gathers =>
      cases gathers with
      | unknown unknown gathers => exact .unknown unknown (.known member accepts gathers)
      | @known g _ set' _ _ _ member' accepts' gathers =>
        -- the two members are for two fields, so these can be read in the other order
        have apart : f ≠ g := by
          rintro rfl
          exact (List.pairwise_cons.1 once).1 _ List.mem_cons_self rfl (List.mem_map_of_mem member)
        have swapped := independent.forall member member' apart _ _ _ _ accepts accepts' r
        rw [← swapped] at gathers
        exact .known member' accepts' (.known member accepts gathers)
  | trans first _ ih ih' =>
    have symmetric : ∀ {e e' : String × List Char}, (e.1 = e'.1 → e.1 ∉ fields.map Field.name) →
        e'.1 = e.1 → e'.1 ∉ fields.map Field.name :=
      fun apart same => same ▸ apart same.symm
    exact ih' (ih gathers once) ((first.pairwise_iff symmetric).1 once)

/-- Open fields may be written as `null` in front of everything else. -/
theorem Gathers.nulls_append
    (null : ∀ f ∈ nulls, f ∈ fields ∧ ∃ set, Accepts f.read "null".toList set ∧ set blank = blank)
    (gathers : Gathers fields blank es s) : Gathers fields blank (asNull nulls ++ es) s := by
  induction nulls with
  | nil => exact gathers
  | cons f fs ih =>
    obtain ⟨member, set, accepts, same⟩ := null f List.mem_cons_self
    refine .known member accepts ?_
    rw [same]
    exact ih fun g later => null g (List.mem_cons_of_mem f later)

theorem Gathers.exists_accepts (distinct : (fields.map Field.name).Nodup)
    (gathers : Gathers fields r members s) (inFields : f ∈ fields)
    (member : (f.name, raw) ∈ members) : ∃ set, Accepts f.read raw set := by
  induction gathers with
  | done => cases member
  | @known g raw' set es r s inFields' accepts _ ih =>
    rcases List.mem_cons.1 member with same | later
    · obtain ⟨sameName, rfl⟩ := Prod.mk.inj same
      obtain rfl := List.inj_on_of_nodup_map distinct inFields inFields' sameName
      exact ⟨set, accepts⟩
    · exact ih later
  | unknown unknown _ ih =>
    rcases List.mem_cons.1 member with same | later
    · exact absurd ((Prod.mk.inj same).1 ▸ List.mem_map_of_mem inFields) unknown
    · exact ih later

/-- Fields that are gathered in the order of the declaration can be read from a list. -/
theorem Gathers.itemized (distinct : (fields.map Field.name).Nodup) (inFields : front ⊆ fields)
    (optional : ∀ f ∈ back, f.required = false) {write : Field ρ → List Char}
    (gathers : Gathers fields r (front.map fun f => (f.name, write f)) s) :
    Itemized (fun f => Accepts f.read) (front ++ back) r (front.map write) s := by
  induction front generalizing r with
  | nil =>
    cases gathers
    exact .ended optional
  | cons f fs ih =>
    obtain ⟨member, others⟩ := List.cons_subset.1 inFields
    obtain ⟨g, member', same, set, accepts, later⟩ :=
      (gathers_known_iff (List.mem_map_of_mem member)).1 gathers
    obtain rfl := List.inj_on_of_nodup_map distinct member' member same
    exact .item accepts (ih others later)

theorem exists_accepts_null {α : Type} {reader : Reader α} {set : Option α → ρ → ρ}
    (same : set none blank = blank) :
    ∃ change, Accepts ((optional reader).map set) "null".toList change ∧ change blank = blank :=
  ⟨set none, (accepts_null reader).map set, same⟩

theorem Accepts.exists_of_map {α β : Type} {P : List Char → α → Prop} {reader : Reader α} {f : α → β}
    {b : β} (accepts : Accepts (reader.map f) tok b) (yields : Yields reader P) :
    ∃ a, P tok a ∧ f a = b := by
  obtain ⟨a, run, same⟩ := run_map_eq_ok_iff.1 accepts.run_self
  obtain ⟨tok', token, head⟩ := yields.exists_token run
  obtain ⟨c, cs, rfl, solid, -⟩ := accepts.solid
  rw [dropBlank_cons solid, List.append_nil] at head
  exact ⟨a, head ▸ token, same⟩

/-! ## Records -/

/-- A record whose fields have names of their own, are read alike in every place and in every order,
and leave the record alone when they are open. -/
structure Rearrangeable (fields : List (Field ρ)) (blank : ρ) : Prop where
  distinct : (fields.map Field.name).Nodup
  strict : ∀ f ∈ fields, Strict f.read
  isLocal : ∀ f ∈ fields, Local f.read
  independent : fields.Pairwise Independent
  null : ∀ f ∈ fields, f.required = false →
    ∃ set, Accepts f.read "null".toList set ∧ set blank = blank

namespace Rearrangeable

variable (free : Rearrangeable fields blank)
include free

theorem yields : ∀ f ∈ fields, Yields f.read fun tok set => Token tok ∧ Accepts f.read tok set :=
  fun f member => (free.isLocal f member).yields (free.strict f member)

/-- No key is written twice, whatever is written as `null`. -/
theorem nodup_keys (absent : nulls.Sublist (fields.filter fun f => given f.name = none))
    (order : es.Perm (inOrder fields given ++ asNull nulls)) : (es.map Prod.fst).Nodup := by
  have all := (perm_items fields given).map Prod.fst
  rw [List.map_map] at all
  have inside : (inOrder fields given ++ asNull nulls).Sublist
      (inOrder fields given ++ asNull (fields.filter fun f => given f.name = none)) :=
    (absent.map _).append_left _
  exact (order.map Prod.fst).nodup_iff.2
    ((all.nodup_iff.1 free.distinct).sublist (inside.map Prod.fst))

variable (gathers : Gathers fields blank (inOrder fields given) s)
  (present : ∀ f ∈ fields, f.required = true → f.name ∈ (inOrder fields given).map Prod.fst)
include gathers present

theorem gathers_of_perm (absent : nulls.Sublist (fields.filter fun f => given f.name = none))
    (order : es.Perm (inOrder fields given ++ asNull nulls)) : Gathers fields blank es s := by
  have null : ∀ f ∈ nulls, f ∈ fields ∧
      ∃ set, Accepts f.read "null".toList set ∧ set blank = blank := by
    intro f open'
    obtain ⟨member, none⟩ := List.mem_filter.1 (absent.subset open')
    have optional := optional_of_absent present member (of_decide_eq_true none)
    exact ⟨member, free.null f member optional⟩
  -- the open fields are read first, where the record is still blank, and then moved to their places
  have order' : (asNull nulls ++ inOrder fields given).Perm es :=
    List.perm_append_comm.trans order.symm
  exact (gathers.nulls_append null).perm free.independent
    (once_of_nodup (free.nodup_keys absent List.perm_append_comm)) order'

/-- What the plain object makes of the record, every layout makes of it. -/
theorem recordOf_layout (layout : Layout fields tok given) : RecordOf fields blank tok s := by
  cases layout with
  | object object absent order =>
    refine .object object (once_iff_nodup.2 (free.nodup_keys absent order))
      (gathers_fieldMembers_iff.1 (free.gathers_of_perm gathers present absent order))
      fun f member required => ?_
    obtain ⟨e, inside, same⟩ := List.mem_map.1 (present f member required)
    have known := order.mem_iff.2 (List.mem_append_left _ inside)
    exact List.mem_map.2 ⟨e, List.mem_of_mem_filter known, same⟩
  | @list front back split absent listed =>
    have order := perm_items front given
    have nulls : (front.filter fun f => given f.name = none).Sublist
        (fields.filter fun f => given f.name = none) := by
      rw [split]
      exact (List.sublist_append_left front back).filter _
    rw [← inOrder_append_of_absent absent, ← split] at order
    have inFields : front ⊆ fields := split ▸ List.subset_append_left front back
    have optional : ∀ f ∈ back, f.required = false := fun f later =>
      optional_of_absent present (split ▸ List.mem_append_right front later) (absent f later)
    have itemized :=
      (free.gathers_of_perm gathers present nulls order).itemized free.distinct inFields optional
    exact .list listed (split ▸ itemized)

omit gathers present

variable {label text text' : String}

/-- What a text is known to be is what has been decoded. -/
theorem exists_recordOf {α : Type} {P : List Char → α → Prop} {a : α}
    (tokens : ∀ tok a, P tok a → Token tok) (padded : Padded P text.toList a)
    (decoded : read (record label fields blank) text = .ok s) :
    ∃ tok, P tok a ∧ RecordOf fields blank tok s :=
  padded.exists_common tokens (fun _ _ => RecordOf.token)
    ((read_record_eq_ok_iff free.distinct free.yields).1 decoded)

/-- A record that is decoded from the plain object of its fields is decoded from every layout of
them. -/
theorem read_layout (plain : Padded (Plain fields) text.toList given)
    (decoded : read (record label fields blank) text = .ok s)
    (layout : Padded (Layout fields) text'.toList given) :
    read (record label fields blank) text' = .ok s := by
  obtain ⟨tok, object, denotes⟩ :=
    free.exists_recordOf (fun _ _ => token_of_membersOf) plain decoded
  obtain ⟨-, gathers, present⟩ := denotes.of_members object
  refine (read_record_eq_ok_iff free.distinct free.yields).2 (layout.imp fun layout => ?_)
  exact free.recordOf_layout gathers present layout

/-- An object that is decoded gives no field twice, and its members are what the record is made of. -/
theorem of_read_members (object : Padded (MembersOf Spelling) text.toList members)
    (decoded : read (record label fields blank) text = .ok s) :
    Once fields members ∧ Gathers fields blank members s ∧
      ∀ f ∈ fields, f.required = true → f.name ∈ members.map Prod.fst := by
  obtain ⟨tok, object, denotes⟩ :=
    free.exists_recordOf (fun _ _ => token_of_membersOf) object decoded
  exact denotes.of_members object

theorem of_read_items (listed : Padded (ListOf Spelling) text.toList items)
    (decoded : read (record label fields blank) text = .ok s) :
    Itemized (fun f => Accepts f.read) fields blank items s := by
  obtain ⟨tok, listed, denotes⟩ :=
    free.exists_recordOf (fun _ _ => Token.of_spellings) listed decoded
  exact denotes.of_items listed

/-- What is decoded is an object or a list, and well formed to its end. -/
theorem of_read (decoded : read (record label fields blank) text = .ok s) :
    (∃ members, Padded (MembersOf Spelling) text.toList members) ∨
      ∃ items, Padded (ListOf Spelling) text.toList items := by
  obtain ⟨before, tok, after, blank, denotes, blank', same⟩ :=
    (read_record_eq_ok_iff free.distinct free.yields).1 decoded
  cases denotes with
  | object object _ _ _ => exact .inl ⟨_, before, tok, after, blank, object, blank', same⟩
  | list listed _ => exact .inr ⟨_, before, tok, after, blank, listed, blank', same⟩

end Rearrangeable

end PipelineParams.Json
