import Mathlib.Data.List.Nodup
import PipelineParams.Json.Record
import PipelineParams.Proofs.Json.Token
import PipelineParams.Proofs.Json.Writing

/-! # Records on the page

A record that is written as an object is read member by member, and what has been gathered after a
member is a state like that of any other object.  `accepts_record_of_steps` therefore asks for the
steps of the members in whatever order they come, and that no required field is left out.

Anyone may write the members in any order and put other members between them.  `Gathers` says what the
record is then, member by member, and `Gathers.get_eq` that one part of the record is what the member
for it says, if no other field has a say in this part (`Keeps`).

A writer keeps to the order of the declaration and leaves some fields out.  `Filled` says what the
record is then, field by field, and `accepts_record` that a reader of the record finds just that in
every form of what is written.
-/

namespace PipelineParams.Json

variable {ρ : Type} {fields : List (Field ρ)}

/-! ## Objects -/

theorem find?_eq_some_of_mem (distinct : (fields.map Field.name).Nodup) {f : Field ρ}
    (member : f ∈ fields) : fields.find? (fun g => g.name = f.name) = some f := by
  induction fields with
  | nil => cases member
  | cons g gs ih =>
    rw [List.map_cons, List.nodup_cons] at distinct
    rcases List.mem_cons.1 member with rfl | member
    · rw [List.find?_cons_of_pos (by simp)]
    · have other : g.name ≠ f.name := fun same =>
        distinct.1 (same ▸ List.mem_map_of_mem member)
      rw [List.find?_cons_of_neg (by simpa using other), ih distinct.2 member]

theorem fieldEntry_of_mem (distinct : (fields.map Field.name).Nodup) {f : Field ρ}
    (member : f ∈ fields) {names : List String} (fresh : f.name ∉ names) (r : ρ) :
    fieldEntry fields (names, r) f.name =
      .ok (f.read.map fun set => (f.name :: names, set r)) := by
  rw [fieldEntry, find?_eq_some_of_mem distinct member]
  dsimp only
  rw [if_neg fresh]

theorem complete_eq_ok {names : List String}
    (present : ∀ f ∈ fields, f.required = true → f.name ∈ names) (r : ρ) :
    complete fields (names, r) = .ok r := by
  have none : fields.find? (fun f => f.required && !names.contains f.name) = none := by
    refine List.find?_eq_none.2 fun f member absent => ?_
    simp only [Bool.and_eq_true, Bool.not_eq_true', List.contains_eq_mem, decide_eq_false_iff_not]
      at absent
    exact absent.2 (present f member absent.1)
  rw [complete, none]

/-- An object is read as a record by the steps of its members, if the required fields are among
them. -/
theorem accepts_record_of_steps {α : Type} {P : List Char → α → Prop} {tok : List Char}
    {members : List (String × α)} {names : List String} {blank r : ρ}
    (object : MembersOf P tok members)
    (steps : Steps (fieldEntry fields) P ([], blank) members (names, r))
    (present : ∀ f ∈ fields, f.required = true → f.name ∈ names) (name : String) :
    Accepts (record name fields blank) tok r := by
  obtain ⟨inner, rfl, members⟩ := object
  refine ⟨fun {cs rest} _ head => ?_, '\x7b', _, rfl, by decide, by decide⟩
  have bracket : dropBlank isBlank cs = '\x7b' :: (inner ++ '\x7d' :: rest) := by simp [head]
  rw [record]
  dsimp only
  rw [bracket]
  dsimp only
  rw [if_pos rfl, readObject_of_steps members steps rest]
  dsimp only
  rw [complete_eq_ok present]

/-! ## Members in any order -/

theorem fieldEntry_of_not_mem {key : String} (unknown : key ∉ fields.map Field.name)
    (gathered : List String × ρ) :
    fieldEntry fields gathered key = .ok (ignored.map fun _ => gathered) := by
  have none : fields.find? (fun f => f.name = key) = none := by
    refine List.find?_eq_none.2 fun f member same => unknown ?_
    exact List.mem_map.2 ⟨f, member, by simpa using same⟩
  rw [fieldEntry, none]

/-- What becomes of a record when its members come in any order: a member that is no field of the
record changes nothing. -/
inductive Gathers (fields : List (Field ρ)) : ρ → List (String × List Char) → ρ → Prop
  | done {r : ρ} : Gathers fields r [] r
  | known {f : Field ρ} {raw : List Char} {set : ρ → ρ} {es : List (String × List Char)} {r s : ρ} :
      f ∈ fields → Accepts f.read raw set → Gathers fields (set r) es s →
        Gathers fields r ((f.name, raw) :: es) s
  | unknown {key : String} {raw : List Char} {es : List (String × List Char)} {r s : ρ} :
      key ∉ fields.map Field.name → Gathers fields r es s → Gathers fields r ((key, raw) :: es) s

/-- No field is given twice.  Members that are no fields may be. -/
def Once (fields : List (Field ρ)) (members : List (String × List Char)) : Prop :=
  members.Pairwise fun e e' => e.1 = e'.1 → e.1 ∉ fields.map Field.name

section

variable {members : List (String × List Char)} {r s : ρ}

theorem exists_gathers
    (readable : ∀ f ∈ fields, ∀ raw, (f.name, raw) ∈ members → ∃ set, Accepts f.read raw set)
    (r : ρ) : ∃ s, Gathers fields r members s := by
  induction members generalizing r with
  | nil => exact ⟨r, .done⟩
  | cons e es ih =>
    have readable' : ∀ f ∈ fields, ∀ raw, (f.name, raw) ∈ es → ∃ set, Accepts f.read raw set :=
      fun f member raw later => readable f member raw (List.mem_cons_of_mem e later)
    obtain ⟨key, raw⟩ := e
    by_cases known : key ∈ fields.map Field.name
    · obtain ⟨f, member, rfl⟩ := List.mem_map.1 known
      obtain ⟨set, accepts⟩ := readable f member raw List.mem_cons_self
      obtain ⟨s, gathers⟩ := ih readable' (set r)
      exact ⟨s, .known member accepts gathers⟩
    · obtain ⟨s, gathers⟩ := ih readable' r
      exact ⟨s, .unknown known gathers⟩

/-- The names gathered so far are those of the members that have been read, as far as they are
fields. -/
theorem Gathers.exists_steps (distinct : (fields.map Field.name).Nodup)
    (gathers : Gathers fields r members s) (once : Once fields members) {names : List String}
    (fresh : ∀ e ∈ members, e.1 ∈ fields.map Field.name → e.1 ∉ names) :
    ∃ names', Steps (fieldEntry fields) Spelling (names, r) members (names', s) ∧
      ∀ key ∈ fields.map Field.name, key ∈ names ∨ key ∈ members.map Prod.fst → key ∈ names' := by
  induction gathers generalizing names with
  | done => exact ⟨names, .nil, fun key _ gathered => by simpa using gathered⟩
  | @known f raw set es r s member accepts _ ih =>
    obtain ⟨apart, once⟩ := List.pairwise_cons.1 once
    have known : f.name ∈ fields.map Field.name := List.mem_map_of_mem member
    have fresh' : ∀ e ∈ es, e.1 ∈ fields.map Field.name → e.1 ∉ f.name :: names := by
      intro e later known'
      rw [List.mem_cons, not_or]
      exact ⟨fun same => apart e later same.symm known, fresh e (List.mem_cons_of_mem _ later) known'⟩
    obtain ⟨names', steps, present⟩ := ih once fresh'
    have entry := fieldEntry_of_mem distinct member (fresh _ List.mem_cons_self known) r
    refine ⟨names', .cons entry (fun token => ?_) steps, fun key field gathered => ?_⟩
    · obtain ⟨rfl, -⟩ := token
      exact accepts.map _
    · refine present key field ?_
      rw [List.map_cons, List.mem_cons] at gathered
      rcases gathered with old | rfl | later
      · exact .inl (List.mem_cons_of_mem _ old)
      · exact .inl List.mem_cons_self
      · exact .inr later
  | @unknown key raw es r s unknown _ ih =>
    obtain ⟨names', steps, present⟩ := ih (List.pairwise_cons.1 once).2
      fun e later => fresh e (List.mem_cons_of_mem _ later)
    refine ⟨names', .cons (fieldEntry_of_not_mem unknown _) (fun token => ?_) steps,
      fun key' field gathered => ?_⟩
    · obtain ⟨rfl, token⟩ := token
      exact token.accepts_ignored.map _
    · refine present key' field ?_
      rw [List.map_cons, List.mem_cons] at gathered
      rcases gathered with gathered | rfl | later
      · exact .inl gathered
      · exact absurd field unknown
      · exact .inr later

theorem accepts_record_of_gathers (distinct : (fields.map Field.name).Nodup) {tok : List Char}
    (object : MembersOf Spelling tok members) (once : Once fields members)
    (gathers : Gathers fields r members s)
    (present : ∀ f ∈ fields, f.required = true → f.name ∈ members.map Prod.fst) (name : String) :
    Accepts (record name fields r) tok s := by
  have fresh : ∀ e ∈ members, e.1 ∈ fields.map Field.name → e.1 ∉ ([] : List String) :=
    fun _ _ _ => List.not_mem_nil
  obtain ⟨names, steps, gathered⟩ := gathers.exists_steps distinct once fresh
  refine accepts_record_of_steps object steps (fun f member required => ?_) name
  exact gathered f.name (List.mem_map_of_mem member) (.inr (present f member required))

/-! ### Parts of a record -/

variable {γ : Type} {get : ρ → γ}

def Keeps (f : Field ρ) (get : ρ → γ) : Prop :=
  ∀ cs set rest, f.read.run cs = .ok (set, rest) → ∀ r, get (set r) = get r

theorem keeps_map {α : Type} {name : String} {required : Bool} {reader : Reader α}
    {set : α → ρ → ρ} (frame : ∀ a r, get (set a r) = get r) :
    Keeps ⟨name, required, reader.map set⟩ get := by
  intro cs change rest run r
  obtain ⟨a, -, rfl⟩ := run_map_eq_ok_iff.1 run
  exact frame a r

theorem Accepts.run_self {α : Type} {reader : Reader α} {tok : List Char} {a : α}
    (accepts : Accepts reader tok a) : reader.run tok = .ok (a, []) := by
  refine accepts.run_eq ends_nil ?_
  obtain ⟨c, cs, rfl, solid, -⟩ := accepts.solid
  rw [List.append_nil, dropBlank_cons solid]

theorem Once.eq (once : Once fields members) {key : String} (known : key ∈ fields.map Field.name)
    {raw raw' : List Char} (here : (key, raw) ∈ members) (there : (key, raw') ∈ members) :
    raw' = raw := by
  induction members with
  | nil => cases here
  | cons e es ih =>
    obtain ⟨apart, once⟩ := List.pairwise_cons.1 once
    rcases List.mem_cons.1 here with rfl | here'
    · rcases List.mem_cons.1 there with same | there'
      · exact congrArg Prod.snd same
      · exact absurd known (apart _ there' rfl)
    · rcases List.mem_cons.1 there with rfl | there'
      · exact absurd known (apart _ here' rfl)
      · exact ih once here' there'

/-- Only the field under this key has a say in a part of the record, and it makes the part `v` when
it reads this token. -/
inductive SetsTo (fields : List (Field ρ)) (key : String) (get : ρ → γ) (raw : List Char) (v : γ) :
    Prop
  | mk {f : Field ρ} {set : ρ → ρ} (member : f ∈ fields) (here : f.name = key)
      (others : ∀ g ∈ fields, g.name ≠ key → Keeps g get) (accepts : Accepts f.read raw set)
      (sets : ∀ r, get (set r) = v) : SetsTo fields key get raw v

variable {key : String} {raw : List Char} {v : γ}

theorem SetsTo.mem_names (setsTo : SetsTo fields key get raw v) : key ∈ fields.map Field.name := by
  obtain ⟨member, here, -⟩ := setsTo
  exact here ▸ List.mem_map_of_mem member

theorem SetsTo.exists_accepts (setsTo : SetsTo fields key get raw v)
    (distinct : (fields.map Field.name).Nodup) {f : Field ρ} (member : f ∈ fields)
    (same : f.name = key) : ∃ set, Accepts f.read raw set := by
  obtain ⟨member', here, -, accepts, -⟩ := setsTo
  obtain rfl := List.inj_on_of_nodup_map distinct member member' (same.trans here.symm)
  exact ⟨_, accepts⟩

/-- The part is then what the member under the key makes it. -/
theorem Gathers.get_eq (distinct : (fields.map Field.name).Nodup)
    (gathers : Gathers fields r members s) (setsTo : SetsTo fields key get raw v)
    (only : ∀ raw', (key, raw') ∈ members → raw' = raw)
    (given : key ∈ members.map Prod.fst ∨ get r = v) : get s = v := by
  obtain ⟨member, here, others, accepts, sets⟩ := setsTo
  induction gathers with
  | done => exact given.resolve_left List.not_mem_nil
  | @known g raw' set' es r s member' accepts' _ ih =>
    refine ih (fun raw' later => only raw' (List.mem_cons_of_mem _ later)) ?_
    by_cases same : g.name = key
    · -- this is the member for the field, so the part is settled whatever comes behind it
      obtain rfl := List.inj_on_of_nodup_map distinct member' member (same.trans here.symm)
      obtain rfl := only raw' (by rw [same]; exact List.mem_cons_self)
      cases accepts.run_self.symm.trans accepts'.run_self
      exact .inr (sets r)
    · rw [others g member' same _ _ _ accepts'.run_self r]
      refine given.imp_left fun named => ?_
      exact (List.mem_cons.1 named).resolve_left (Ne.symm same)
  | unknown unknown _ ih =>
    refine ih (fun raw' later => only raw' (List.mem_cons_of_mem _ later)) ?_
    refine given.imp_left fun named => (List.mem_cons.1 named).resolve_left ?_
    rintro rfl
    exact unknown (here ▸ List.mem_map_of_mem member)

end

/-! ## Fields in order -/

/-- What becomes of a record when fields are written in the order of their declaration: a field that
is left out changes nothing. -/
inductive Filled : List (Field ρ) → List (String × Tree) → ρ → ρ → Prop
  | done {r : ρ} : Filled [] [] r r
  | present {f : Field ρ} {fs : List (Field ρ)} {t : Tree} {es : List (String × Tree)} {set : ρ → ρ}
      {r s : ρ} : (∀ {tok}, Form tok t → Accepts f.read tok set) → Filled fs es (set r) s →
        Filled (f :: fs) ((f.name, t) :: es) r s
  | absent {f : Field ρ} {fs : List (Field ρ)} {es : List (String × Tree)} {r s : ρ} :
      f.required = false → Filled fs es r s → Filled (f :: fs) es r s

/-- The fields that are still due are the last ones, and none of them has been gathered yet. -/
theorem Filled.exists_steps (distinct : (fields.map Field.name).Nodup) {fs : List (Field ρ)}
    {es : List (String × Tree)} {r s : ρ} (filled : Filled fs es r s) (due : fs <:+ fields)
    (names : List String) (fresh : ∀ f ∈ fs, f.name ∉ names)
    (gathered : ∀ f ∈ fields, f.required = true → f.name ∈ names ∨ f ∈ fs) :
    ∃ names', Steps (fieldEntry fields) Form (names, r) es (names', s) ∧
      ∀ f ∈ fields, f.required = true → f.name ∈ names' := by
  induction filled generalizing names with
  | done =>
    refine ⟨names, .nil, fun f member required => ?_⟩
    exact (gathered f member required).resolve_right List.not_mem_nil
  | @present f fs t es set r s accepts _ ih =>
    have others : f.name ∉ fs.map Field.name := by
      have distinct' := distinct.sublist (due.map Field.name).sublist
      rw [List.map_cons, List.nodup_cons] at distinct'
      exact distinct'.1
    obtain ⟨names', steps, present⟩ := ih ((List.suffix_cons f fs).trans due) (f.name :: names)
      (fun g member => by
        rw [List.mem_cons, not_or]
        exact ⟨fun same => others (same ▸ List.mem_map_of_mem member),
          fresh g (List.mem_cons_of_mem f member)⟩)
      (fun g member required => by
        rcases gathered g member required with old | due
        · exact .inl (List.mem_cons_of_mem _ old)
        · rcases List.mem_cons.1 due with rfl | due
          · exact .inl List.mem_cons_self
          · exact .inr due)
    have known := fieldEntry_of_mem distinct (due.subset List.mem_cons_self)
      (fresh f List.mem_cons_self) r
    exact ⟨names', .cons known (fun form => (accepts form).map _) steps, present⟩
  | @absent f fs es r s optional _ ih =>
    refine ih ((List.suffix_cons f fs).trans due) names
      (fun g member => fresh g (List.mem_cons_of_mem f member)) (fun g member required => ?_)
    rcases gathered g member required with old | due
    · exact .inl old
    · rcases List.mem_cons.1 due with rfl | due
      · rw [optional] at required
        cases required
      · exact .inr due

theorem accepts_record (distinct : (fields.map Field.name).Nodup) {es : List (String × Tree)}
    {blank r : ρ} (filled : Filled fields es blank r) {tok : List Char}
    (form : Form tok (.object es)) (name : String) : Accepts (record name fields blank) tok r := by
  obtain ⟨names, steps, present⟩ := filled.exists_steps distinct (List.suffix_refl fields)
    [] (fun _ _ => List.not_mem_nil) (fun _ member _ => .inr member)
  have written : Form tok (.object (es.map fun e => (e.1, id e.2))) := by simpa using form
  have object : MembersOf Form tok es := membersOf_of_form (fun form => form) written
  exact accepts_record_of_steps object steps present name

end PipelineParams.Json
