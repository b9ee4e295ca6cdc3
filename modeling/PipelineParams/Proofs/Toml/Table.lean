import PipelineParams.Proofs.Toml.Blocks

/-! # The table that blocks define

Every block of a written file defines a table of its own, under keys that no block before it has
given away.  So building the table never replaces anything: it appends.

* `define_under` — blocks under a common key define, as one entry, the table that they define
  without it.
* `Part` — a run of blocks that defines one entry: `Part.single` is one block, `Part.group` puts
  parts under a common key.
* `Part.parse_writeBlocks_parts` — a file written in parts is read as their entries.

A file whose blocks are made of such parts needs no other look at how tables are built.
-/

namespace PipelineParams.Toml

namespace Item

variable {es : Entries} {key : String}

/-! ## Fresh keys -/

def Fresh (key : String) (es : Entries) : Prop := ∀ e ∈ es, e.1 ≠ key

theorem fresh_nil (key : String) : Fresh key [] := fun _ member => nomatch member

theorem Fresh.find?_eq (fresh : Fresh key es) : find? es key = none := by
  induction es with
  | nil => rfl
  | cons e es ih =>
    rw [find?, if_neg (fresh e List.mem_cons_self)]
    exact ih fun d member => fresh d (List.mem_cons_of_mem e member)

theorem Fresh.set_eq (fresh : Fresh key es) (item : Item) : set es key item = es ++ [(key, item)] := by
  induction es with
  | nil => rfl
  | cons e es ih =>
    rw [set, if_neg (fresh e List.mem_cons_self),
      ih fun d member => fresh d (List.mem_cons_of_mem e member)]
    rfl

theorem Fresh.find?_append (fresh : Fresh key es) (item : Item) :
    find? (es ++ [(key, item)]) key = some item := by
  induction es with
  | nil => exact if_pos rfl
  | cons e es ih =>
    rw [List.cons_append, find?, if_neg (fresh e List.mem_cons_self)]
    exact ih fun d member => fresh d (List.mem_cons_of_mem e member)

theorem Fresh.set_append (fresh : Fresh key es) (old item : Item) :
    set (es ++ [(key, old)]) key item = es ++ [(key, item)] := by
  induction es with
  | nil => exact if_pos rfl
  | cons e es ih =>
    rw [List.cons_append, set, if_neg (fresh e List.mem_cons_self),
      ih fun d member => fresh d (List.mem_cons_of_mem e member)]
    rfl

theorem Fresh.append {other : String} (fresh : Fresh key es) (different : other ≠ key) (item : Item) :
    Fresh key (es ++ [(other, item)]) := by
  intro e member
  rcases List.mem_append.1 member with member | member
  · exact fresh e member
  · rw [List.mem_singleton] at member
    rw [member]
    exact different

/-- Keys that are fresh and differ from a new one are still fresh behind it. -/
theorem fresh_behind {α : Type} {keyOf : α → String} {a : α} {as : List α}
    (fresh : ∀ b ∈ a :: as, Fresh (keyOf b) es) (new : keyOf a ∉ as.map keyOf) (item : Item) :
    ∀ b ∈ as, Fresh (keyOf b) (es ++ [(keyOf a, item)]) := by
  intro b member
  refine (fresh b (List.mem_cons_of_mem a member)).append ?_ item
  intro same
  exact new (List.mem_map.2 ⟨b, member, same.symm⟩)

/-! ## Assignments and headers -/

/-- Settings under different keys are all kept, in their order. -/
theorem assignAll_settings (settings : List (String × Setting))
    (nodup : (settings.map (·.1)).Nodup) (fresh : ∀ s ∈ settings, Fresh s.1 es) :
    assignAll es (settings.map fun s => ([s.1], s.2.value)) =
      some (es ++ settings.map fun s => (s.1, .value s.2.value)) := by
  induction settings generalizing es with
  | nil => simp [assignAll]
  | cons s settings ih =>
    obtain ⟨new, nodup⟩ := List.nodup_cons.1 nodup
    have fresh' := fresh s List.mem_cons_self
    have step : assignIn true s.2.value [s.1] es = some (es ++ [(s.1, .value s.2.value)]) := by
      rw [assignIn, fresh'.find?_eq, fresh'.set_eq]
      rfl
    have rest := ih nodup (fresh_behind fresh new (.value s.2.value))
    rw [assignAll] at rest ⊢
    rw [List.map_cons, List.foldlM_cons, step]
    simpa using rest

theorem atPath_single {act : Option Item → Option Item} {item : Item} (fresh : Fresh key es)
    (defined : act none = some item) : atPath act [key] es = some (es ++ [(key, item)]) := by
  rw [atPath, fresh.find?_eq, defined, Option.map_some, fresh.set_eq]

variable {act : Option Item → Option Item} {path : List String}

/-- A table that is missing on the way is made. -/
theorem atPath_new {inner : Entries} (fresh : Fresh key es) (some_key : path ≠ [])
    (defined : atPath act path [] = some inner) :
    atPath act (key :: path) es = some (es ++ [(key, .table .path inner)]) := by
  cases path with
  | nil => exact absurd rfl some_key
  | cons next path => rw [atPath, fresh.find?_eq, defined, Option.map_some, fresh.set_eq]

/-- The table that was entered last is entered again. -/
theorem atPath_again {inner inner' : Entries} (fresh : Fresh key es) (some_key : path ≠ [])
    (defined : atPath act path inner = some inner') :
    atPath act (key :: path) (es ++ [(key, .table .path inner)]) =
      some (es ++ [(key, .table .path inner')]) := by
  cases path with
  | nil => exact absurd rfl some_key
  | cons next path =>
    rw [atPath, fresh.find?_append]
    dsimp only
    rw [defined, Option.map_some, fresh.set_append]

/-! ## What is left of an item -/

theorem entriesToValues_eq (es : Entries) :
    entriesToValues es = es.map fun e => (e.1, toValue e.2) := by
  induction es with
  | nil => rfl
  | cons e es ih => rw [entriesToValues, ih, List.map_cons]

end Item

open Item (Fresh)

variable {es : Item.Entries} {key : String}

/-! ## Blocks -/

def define (es : Item.Entries) (bs : List Block) : Option Item.Entries :=
  (bs.map Block.toSection).foldlM addSection es

theorem define_cons (es : Item.Entries) (b : Block) (bs : List Block) :
    define es (b :: bs) = (addSection es b.toSection).bind fun es => define es bs := rfl

theorem define_append (es : Item.Entries) (bs cs : List Block) :
    define es (bs ++ cs) = (define es bs).bind fun es => define es cs := by
  rw [define, List.map_append, List.foldlM_append]
  rfl

theorem ofSections_blocks (bs : List Block) :
    ofSections (⟨.root, []⟩ :: bs.map Block.toSection) =
      (define [] bs).map Item.entriesToValues := rfl

namespace Block

/-- The block with one more key in front of its path. -/
def under (key : String) (b : Block) : Block := { b with path := key :: b.path }

end Block

theorem define_under_again (fresh : Fresh key es) {bs : List Block}
    (paths : ∀ b ∈ bs, b.path ≠ []) {inner inner' : Item.Entries}
    (defined : define inner bs = some inner') :
    define (es ++ [(key, .table .path inner)]) (bs.map (Block.under key)) =
      some (es ++ [(key, .table .path inner')]) := by
  induction bs generalizing inner with
  | nil =>
    cases defined
    rfl
  | cons b bs ih =>
    rw [define_cons, Option.bind_eq_some_iff] at defined
    obtain ⟨middle, first, rest⟩ := defined
    have step := Item.atPath_again fresh (paths b List.mem_cons_self) first
    have behind := ih (fun b' member => paths b' (List.mem_cons_of_mem b member)) rest
    rw [List.map_cons, define_cons]
    exact (congrArg (Option.bind · _) step).trans behind

/-- Blocks under a common key define one entry, with the table that they define without the key. -/
theorem define_under (fresh : Fresh key es) {bs : List Block} (some_block : bs ≠ [])
    (paths : ∀ b ∈ bs, b.path ≠ []) {inner : Item.Entries} (defined : define [] bs = some inner) :
    define es (bs.map (Block.under key)) = some (es ++ [(key, .table .path inner)]) := by
  cases bs with
  | nil => exact absurd rfl some_block
  | cons b bs =>
    rw [define_cons, Option.bind_eq_some_iff] at defined
    obtain ⟨middle, first, rest⟩ := defined
    have step := Item.atPath_new fresh (paths b List.mem_cons_self) first
    have behind := define_under_again fresh
      (fun b' member => paths b' (List.mem_cons_of_mem b member)) rest
    rw [List.map_cons, define_cons]
    exact (congrArg (Option.bind · _) step).trans behind

/-! ## Parts -/

/-- A run of blocks that defines one entry, wherever no entry has its key yet. -/
structure Part where
  blocks : List Block
  key : String
  value : Value
  /-- Every block has a path. -/
  paths : ∀ b ∈ blocks, b.path ≠ []
  adds : ∀ es, Fresh key es →
    ∃ item, define es blocks = some (es ++ [(key, item)]) ∧ item.toValue = value

namespace Part

theorem blocks_ne_nil (p : Part) : p.blocks ≠ [] := by
  intro none
  obtain ⟨item, defined, -⟩ := p.adds [] (Item.fresh_nil p.key)
  rw [none] at defined
  cases defined

def field (p : Part) : String × Value := (p.key, p.value)

/-- Parts with different keys define all their entries, in their order. -/
theorem define_parts {parts : List Part} (nodup : (parts.map Part.key).Nodup)
    (fresh : ∀ p ∈ parts, Fresh p.key es) :
    ∃ items, define es (parts.flatMap blocks) = some (es ++ items) ∧
      Item.entriesToValues items = parts.map field := by
  induction parts generalizing es with
  | nil => exact ⟨[], by simp [define], rfl⟩
  | cons p parts ih =>
    obtain ⟨new, nodup⟩ := List.nodup_cons.1 nodup
    obtain ⟨item, first, value⟩ := p.adds es (fresh p List.mem_cons_self)
    obtain ⟨items, rest, values⟩ := ih nodup (Item.fresh_behind fresh new item)
    refine ⟨(p.key, item) :: items, ?_, ?_⟩
    · rw [List.flatMap_cons, define_append, first, Option.bind_some, rest]
      simp
    · rw [Item.entriesToValues, value, values]
      rfl

def single (key : String) (settings : List (String × Setting))
    (nodup : (settings.map (·.1)).Nodup) : Part where
  blocks := [⟨[key], settings⟩]
  key := key
  value := .table (settings.map fun s => (s.1, s.2.value))
  paths := by simp
  adds := by
    intro es fresh
    have filled := Item.assignAll_settings settings nodup fun s _ => Item.fresh_nil s.1
    have made : Item.defineTable (settings.map fun s => ([s.1], s.2.value)) none =
        some (.table .header (settings.map fun s => (s.1, .value s.2.value))) :=
      congrArg (Option.map (Item.table .header)) filled
    have defined : define es [⟨[key], settings⟩] = (Item.atPath _ [key] es).bind some := rfl
    refine ⟨_, defined.trans (congrArg (Option.bind · some) (Item.atPath_single fresh made)), ?_⟩
    simp [Item.toValue, Item.entriesToValues_eq]

/-- Parts under a common key, which has the table of their entries. -/
def group (key : String) (parts : List Part) (some_part : parts ≠ [])
    (nodup : (parts.map Part.key).Nodup) : Part where
  blocks := (parts.flatMap blocks).map (Block.under key)
  key := key
  value := .table (parts.map field)
  paths := by
    intro b member
    obtain ⟨b, -, rfl⟩ := List.mem_map.1 member
    exact List.cons_ne_nil key b.path
  adds := by
    intro es fresh
    obtain ⟨items, defined, values⟩ :=
      define_parts nodup fun p _ => Item.fresh_nil p.key
    have some_block : parts.flatMap blocks ≠ [] := by
      obtain ⟨p, parts, rfl⟩ := List.exists_cons_of_ne_nil some_part
      rw [List.flatMap_cons]
      exact List.append_ne_nil_of_left_ne_nil p.blocks_ne_nil _
    have paths : ∀ b ∈ parts.flatMap blocks, b.path ≠ [] := by
      intro b member
      obtain ⟨p, -, member⟩ := List.mem_flatMap.1 member
      exact p.paths b member
    refine ⟨_, define_under fresh some_block paths defined, ?_⟩
    rw [Item.toValue, List.nil_append, values]

section

variable (key : String) (settings : List (String × Setting)) (distinct : (settings.map (·.1)).Nodup)
  (parts : List Part) (some_part : parts ≠ []) (nodup : (parts.map Part.key).Nodup)

@[simp] theorem single_blocks : (single key settings distinct).blocks = [⟨[key], settings⟩] := rfl

@[simp] theorem single_field :
    (single key settings distinct).field = (key, .table (settings.map fun s => (s.1, s.2.value))) :=
  rfl

@[simp] theorem group_blocks :
    (group key parts some_part nodup).blocks = (parts.flatMap blocks).map (Block.under key) := rfl

@[simp] theorem group_field :
    (group key parts some_part nodup).field = (key, .table (parts.map field)) := rfl

end

/-- A file written in parts is read as their entries. -/
theorem parse_writeBlocks_parts {parts : List Part} (nodup : (parts.map Part.key).Nodup)
    (short : ∀ b ∈ parts.flatMap blocks, b.path.length < pathLimit) :
    parse (String.ofList (writeBlocks (parts.flatMap blocks))) = .ok (parts.map field) := by
  obtain ⟨items, defined, values⟩ := define_parts nodup fun p _ => Item.fresh_nil p.key
  refine parse_writeBlocks (fun b member => ⟨?_, short b member⟩) ?_
  · obtain ⟨p, -, member⟩ := List.mem_flatMap.1 member
    exact p.paths b member
  · rw [ofSections_blocks, defined, Option.map_some, List.nil_append, values]

end Part

end PipelineParams.Toml
