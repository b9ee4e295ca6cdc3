/-! # Maps with their keys in order

A `SortedMap α` holds its entries in strictly ascending order of the keys, by code point.  The order
is part of the type, so two maps with the same entries are the same value and whatever is written
from a map has one text.

* `insert` gives a key its value, replacing an earlier one; `ofList` is a run of insertions, so the
  last value given to a key stays.
* `get?` looks a key up; `merge` lays one map over another.
* `map` acts on the values and leaves the keys alone.
-/

namespace PipelineParams

universe u v

/-- A finite map from text, its entries in strictly ascending order of their keys. -/
structure SortedMap (α : Type u) where
  /-- The entries, in the order in which they are written. -/
  entries : List (String × α)
  /-- Every key is below all later ones. -/
  ascending : entries.Pairwise (fun a b => a.1 < b.1) := by exact List.Pairwise.nil
  deriving DecidableEq

namespace SortedMap

variable {α : Type u} {β : Type v}

/-- Two maps with the same entries are equal. -/
@[ext]
theorem ext {m n : SortedMap α} (h : m.entries = n.entries) : m = n := by
  cases m; cases n; cases h; rfl

def empty : SortedMap α where
  entries := []

instance : EmptyCollection (SortedMap α) := ⟨empty⟩

instance : Inhabited (SortedMap α) := ⟨empty⟩

def size (m : SortedMap α) : Nat := m.entries.length

def isEmpty (m : SortedMap α) : Bool := m.entries.isEmpty

def keys (m : SortedMap α) : List String := m.entries.map (·.1)

def values (m : SortedMap α) : List α := m.entries.map (·.2)

def get? (m : SortedMap α) (key : String) : Option α :=
  (m.entries.find? (fun e => e.1 = key)).map (·.2)

/-! ## Insertion -/

/-- Puts an entry in its place in an ascending list, over an entry with the same key. -/
def insertEntry (key : String) (value : α) : List (String × α) → List (String × α)
  | [] => [(key, value)]
  | e :: es =>
    if key < e.1 then (key, value) :: e :: es
    else if e.1 < key then e :: insertEntry key value es
    else (key, value) :: es

/-- An inserted list holds the new entry and old ones only. -/
theorem mem_insertEntry {key : String} {value : α} {e : String × α} :
    ∀ {es : List (String × α)}, e ∈ insertEntry key value es → e = (key, value) ∨ e ∈ es
  | [], h => by simpa [insertEntry] using h
  | d :: ds, h => by
    unfold insertEntry at h
    split at h
    · simpa using h
    · split at h
      · rcases List.mem_cons.1 h with rfl | h
        · simp
        · rcases mem_insertEntry h with rfl | h
          · simp
          · simp [h]
      · rcases List.mem_cons.1 h with rfl | h
        · simp
        · simp [h]

theorem insertEntry_ascending (key : String) (value : α) :
    ∀ {es : List (String × α)}, es.Pairwise (fun a b => a.1 < b.1) →
      (insertEntry key value es).Pairwise (fun a b => a.1 < b.1)
  | [], _ => List.pairwise_singleton _ _
  | d :: ds, h => by
    obtain ⟨hd, hds⟩ := List.pairwise_cons.1 h
    unfold insertEntry
    split
    next below =>
      refine List.pairwise_cons.2 ⟨fun e he => ?_, h⟩
      rcases List.mem_cons.1 he with rfl | he
      · exact below
      · exact String.lt_trans below (hd e he)
    next notBelow =>
      split
      next above =>
        refine List.pairwise_cons.2 ⟨fun e he => ?_, insertEntry_ascending key value hds⟩
        rcases mem_insertEntry he with rfl | he
        · exact above
        · exact hd e he
      next notAbove =>
        have same : d.1 = key := String.le_antisymm (String.not_lt.1 notBelow) (String.not_lt.1 notAbove)
        exact List.pairwise_cons.2 ⟨fun e he => same ▸ hd e he, hds⟩

def insert (m : SortedMap α) (key : String) (value : α) : SortedMap α where
  entries := insertEntry key value m.entries
  ascending := insertEntry_ascending key value m.ascending

/-- Inserts entries one after the other, so the last value given to a key stays. -/
def insertAll (m : SortedMap α) (es : List (String × α)) : SortedMap α :=
  es.foldl (fun m e => m.insert e.1 e.2) m

def ofList (es : List (String × α)) : SortedMap α := insertAll empty es

/-- Lays `n` over `m`: a key of `n` has its value there, every other key its value in `m`. -/
def merge (m n : SortedMap α) : SortedMap α := m.insertAll n.entries

/-! ## Acting on the values -/

def map (f : α → β) (m : SortedMap α) : SortedMap β where
  entries := m.entries.map (fun e => (e.1, f e.2))
  ascending := List.pairwise_map.2 m.ascending

end SortedMap

end PipelineParams
