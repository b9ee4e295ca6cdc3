import PipelineParams.SortedMap.Basic

/-! # Looking keys up

A map is known by what its keys have: two maps with the same lookups are the same map.  Insertion
and merging are described by lookups alone, so nothing that builds on them needs the order of the
entries.

* `get?_eq_some_iff` — a key has a value exactly if the pair is an entry.
* `get?_insert`, `get?_insertAll`, `get?_merge` — the lookup after each way to change a map;
  `get?_ofList_eq_some_iff` — the lookup in the map of a list, and
  `get?_ofList_filterMap_eq_some_iff` where not every member of the list gives an entry.
* `nodup_keys` — no key comes twice.
* `ext_get?` — equality from lookups; `ofList_entries`, the laws of `merge` and `merge_comm_of_agree`
  use it.
-/

namespace PipelineParams.SortedMap

universe u

variable {α : Type u}

/-! ## Entries -/

/-- In an ascending list a key determines its entry. -/
theorem find?_of_mem_ascending {es : List (String × α)}
    (ascending : es.Pairwise (fun a b => a.1 < b.1)) {e : String × α} (member : e ∈ es) :
    es.find? (fun d => d.1 = e.1) = some e := by
  induction es with
  | nil => cases member
  | cons d ds ih =>
    obtain ⟨below, ascending⟩ := List.pairwise_cons.1 ascending
    rcases List.mem_cons.1 member with rfl | member
    · simp
    · have different : d.1 ≠ e.1 := String.ne_of_lt (below e member)
      rw [List.find?_cons_of_neg (by simpa using different)]
      exact ih ascending member

theorem get?_eq_some_iff {m : SortedMap α} {key : String} {value : α} :
    m.get? key = some value ↔ (key, value) ∈ m.entries := by
  constructor
  · intro found
    obtain ⟨e, he, rfl⟩ := Option.map_eq_some_iff.1 found
    have same : e.1 = key := by simpa using List.find?_some he
    exact same ▸ List.mem_of_find?_eq_some he
  · intro member
    rw [get?, find?_of_mem_ascending m.ascending member]
    rfl

@[simp] theorem get?_empty (key : String) : (empty : SortedMap α).get? key = none := rfl

theorem get?_of_isEmpty {m : SortedMap α} (h : m.isEmpty = true) (key : String) :
    m.get? key = none := by
  rw [isEmpty, List.isEmpty_iff] at h
  rw [get?, h]
  rfl

theorem isEmpty_iff_get? {m : SortedMap α} : m.isEmpty = true ↔ ∀ key, m.get? key = none := by
  constructor
  · exact get?_of_isEmpty
  · intro absent
    rw [isEmpty, List.isEmpty_iff, List.eq_nil_iff_forall_not_mem]
    rintro ⟨key, value⟩ member
    cases (absent key).symm.trans (get?_eq_some_iff.2 member)

theorem mem_keys_of_get? {m : SortedMap α} {key : String} {value : α}
    (found : m.get? key = some value) : key ∈ m.keys :=
  List.mem_map.2 ⟨(key, value), get?_eq_some_iff.1 found, rfl⟩

theorem keys_map {β : Type} (f : α → β) (m : SortedMap α) : (m.map f).keys = m.keys := by
  rw [keys, keys, map, List.map_map]
  rfl

theorem get?_map {β : Type} (f : α → β) (m : SortedMap α) (key : String) :
    (m.map f).get? key = (m.get? key).map f := by
  rw [get?, get?, map, List.find?_map, Option.map_map, Option.map_map]
  rfl

theorem mem_values_of_get? {m : SortedMap α} {key : String} {value : α}
    (found : m.get? key = some value) : value ∈ m.values :=
  List.mem_map.2 ⟨(key, value), get?_eq_some_iff.1 found, rfl⟩

theorem get?_eq_none_of_not_mem_keys {m : SortedMap α} {key : String} (absent : key ∉ m.keys) :
    m.get? key = none := by
  cases found : m.get? key with
  | none => rfl
  | some value => exact absurd (mem_keys_of_get? found) absent

theorem get?_eq_none_iff {m : SortedMap α} {key : String} : m.get? key = none ↔ key ∉ m.keys := by
  constructor
  · intro absent member
    obtain ⟨⟨_, value⟩, entry, rfl⟩ := List.mem_map.1 member
    cases absent.symm.trans (get?_eq_some_iff.2 entry)
  · exact get?_eq_none_of_not_mem_keys

/-- Two maps can only differ under a key that one of them has. -/
theorem get?_eq_of_keys {m n : SortedMap α} {p : String → Prop}
    (same : ∀ key ∈ m.keys ++ n.keys, p key → m.get? key = n.get? key) (key : String)
    (holds : p key) : m.get? key = n.get? key := by
  by_cases member : key ∈ m.keys ++ n.keys
  · exact same key member holds
  · rw [List.mem_append, not_or] at member
    rw [get?_eq_none_of_not_mem_keys member.1, get?_eq_none_of_not_mem_keys member.2]

/-! ## Equality -/

theorem nodup_keys (m : SortedMap α) : m.keys.Nodup :=
  List.pairwise_map.2 (m.ascending.imp String.ne_of_lt)

private theorem nodup_entries (m : SortedMap α) : m.entries.Nodup :=
  List.Pairwise.of_map Prod.fst (fun _ _ different same => different (congrArg Prod.fst same))
    (nodup_keys m)

/-- Two maps in which every key has the same are equal. -/
theorem ext_get? {m n : SortedMap α} (same : ∀ key, m.get? key = n.get? key) : m = n := by
  apply ext
  have members : ∀ e, e ∈ m.entries ↔ e ∈ n.entries := by
    rintro ⟨key, value⟩
    rw [← get?_eq_some_iff, ← get?_eq_some_iff, same]
  have perm := (List.perm_ext_iff_of_nodup (nodup_entries m) (nodup_entries n)).2 members
  exact perm.eq_of_pairwise
    (fun a b _ _ below above => absurd above (String.lt_asymm below)) m.ascending n.ascending

/-! ## Insertion -/

private theorem find?_insertEntry (key j : String) (value : α) (es : List (String × α)) :
    (insertEntry key value es).find? (fun e => e.1 = j) =
      if j = key then some (key, value) else es.find? (fun e => e.1 = j) := by
  induction es with
  | nil =>
    by_cases same : j = key
    · simp [insertEntry, same]
    · simp [insertEntry, same, Ne.symm same]
  | cons e es ih =>
    unfold insertEntry
    split
    next below =>
      by_cases same : j = key
      · simp [same]
      · simp [same, Ne.symm same]
    next notBelow =>
      split
      next above =>
        rw [List.find?_cons, List.find?_cons, ih]
        by_cases same : j = key
        · have different : e.1 ≠ j := same ▸ String.ne_of_lt above
          simp [same, same ▸ different]
        · simp [same]
      next notAbove =>
        have here : e.1 = key :=
          String.le_antisymm (String.not_lt.1 notBelow) (String.not_lt.1 notAbove)
        by_cases same : j = key
        · simp [same]
        · simp [same, here, Ne.symm same]

theorem get?_insert (m : SortedMap α) (key j : String) (value : α) :
    (m.insert key value).get? j = if j = key then some value else m.get? j := by
  rw [get?, insert, find?_insertEntry]
  split <;> rfl

/-- An inserted value lies over what the key had. -/
theorem get?_insert_eq_or (m : SortedMap α) (key j : String) (value : α) :
    (m.insert key value).get? j = (if j = key then some value else none).or (m.get? j) := by
  rw [get?_insert]
  split <;> rfl

theorem get?_insertAll (m : SortedMap α) (es : List (String × α)) (key : String) :
    (m.insertAll es).get? key =
      ((es.reverse.find? (fun e => e.1 = key)).map (·.2)).or (m.get? key) := by
  induction es generalizing m with
  | nil => rfl
  | cons e es ih =>
    rw [insertAll, List.foldl_cons, ← insertAll, ih, get?_insert, List.reverse_cons,
      List.find?_append]
    -- A later entry with the key wins over this one.
    cases es.reverse.find? (fun e => e.1 = key) with
    | some later => rfl
    | none =>
      by_cases same : key = e.1
      · simp [same]
      · simp [same, Ne.symm same]

/-- In the map of a list of entries a key has the value of its last entry. -/
theorem get?_ofList_eq_some_iff {es : List (String × α)} {key : String} {value : α} :
    (ofList es).get? key = some value ↔
      ∃ before after, es = before ++ (key, value) :: after ∧ ∀ e ∈ after, e.1 ≠ key := by
  rw [ofList, get?_insertAll, get?_empty, Option.or_none, Option.map_eq_some_iff]
  constructor
  · rintro ⟨⟨key', value'⟩, found, rfl⟩
    obtain ⟨same, later, earlier, split, others⟩ := List.find?_eq_some_iff_append.1 found
    obtain rfl : key' = key := by simpa using same
    refine ⟨earlier.reverse, later.reverse, ?_, ?_⟩
    · rw [← List.reverse_reverse es, split]
      simp
    · intro e member
      simpa using others e (by simpa using member)
  · rintro ⟨before, after, rfl, others⟩
    refine ⟨(key, value), List.find?_eq_some_iff_append.2 ?_, rfl⟩
    refine ⟨by simp, after.reverse, before.reverse, by simp, ?_⟩
    intro e member
    simpa using others e (by simpa using member)

theorem mem_keys_ofList {es : List (String × α)} {key : String} :
    key ∈ (ofList es).keys ↔ key ∈ es.map Prod.fst := by
  rw [← Decidable.not_iff_not, ← get?_eq_none_iff, ofList, get?_insertAll, get?_empty,
    Option.or_none, Option.map_eq_none_iff, List.find?_eq_none]
  simp only [List.mem_reverse, decide_eq_true_eq, List.mem_map, not_exists, not_and]

/-- Where not everything in a list gives an entry, the last thing that gives one for a key counts. -/
theorem get?_ofList_filterMap_eq_some_iff {β : Type} {xs : List β} {name : β → String}
    {f : β → Option α} {key : String} {value : α} :
    (ofList (xs.filterMap fun x => (f x).map fun a => (name x, a))).get? key = some value ↔
      ∃ before x after, xs = before ++ x :: after ∧ name x = key ∧ f x = some value ∧
        ∀ y ∈ after, name y = key → f y = none := by
  rw [get?_ofList_eq_some_iff]
  constructor
  · rintro ⟨_, after, split, later⟩
    obtain ⟨before, rest, rfl, -, found⟩ := List.filterMap_eq_append_iff.1 split
    obtain ⟨silent, x, behind, rfl, -, entry, rfl⟩ := List.filterMap_eq_cons_iff.1 found
    obtain ⟨a, given, same⟩ := Option.map_eq_some_iff.1 entry
    cases same
    refine ⟨before ++ silent, x, behind, by simp, rfl, given, fun y member same => ?_⟩
    cases other : f y with
    | none => rfl
    | some b =>
      have entry' : (name y, b) ∈ behind.filterMap fun x => (f x).map fun a => (name x, a) :=
        List.mem_filterMap.2 ⟨y, member, by rw [other]; rfl⟩
      exact absurd same (later _ entry')
  · rintro ⟨before, x, after, rfl, rfl, given, later⟩
    refine ⟨_, _, by rw [List.filterMap_append, List.filterMap_cons, given]; rfl, ?_⟩
    intro e member same
    obtain ⟨y, inAfter, entry⟩ := List.mem_filterMap.1 member
    obtain ⟨b, given', rfl⟩ := Option.map_eq_some_iff.1 entry
    rw [later y inAfter same] at given'
    cases given'

private theorem find?_reverse_entries (m : SortedMap α) (key : String) :
    m.entries.reverse.find? (fun e => e.1 = key) = m.entries.find? (fun e => e.1 = key) := by
  cases found : m.entries.find? (fun e => e.1 = key) with
  | none => simpa using found
  | some e =>
    have same : e.1 = key := by simpa using List.find?_some found
    cases last : m.entries.reverse.find? (fun e => e.1 = key) with
    | none =>
      have absent := List.find?_eq_none.1 last e
      simp [List.mem_of_find?_eq_some found, same] at absent
    | some d =>
      have member : d ∈ m.entries := by simpa using List.mem_of_find?_eq_some last
      have here : d.1 = key := by simpa using List.find?_some last
      rw [← find?_of_mem_ascending m.ascending member, here, found]

theorem get?_merge (m n : SortedMap α) (key : String) :
    (m.merge n).get? key = (n.get? key).or (m.get? key) := by
  rw [merge, get?_insertAll, find?_reverse_entries]
  rfl

/-- A key that one map does not have has what it has in the other, whichever lies on top. -/
theorem get?_merge_of_eq_none {m n : SortedMap α} {key : String} (absent : n.get? key = none) :
    (m.merge n).get? key = m.get? key ∧ (n.merge m).get? key = m.get? key := by
  rw [get?_merge, get?_merge, absent, Option.none_or, Option.or_none]
  exact ⟨rfl, rfl⟩

/-- Inserting the entries of a map into the empty map gives the map again. -/
theorem ofList_entries (m : SortedMap α) : ofList m.entries = m := by
  apply ext_get?
  intro key
  rw [ofList, get?_insertAll, find?_reverse_entries, get?_empty, Option.or_none]
  rfl

/-! ## Laws of merging -/

theorem merge_assoc (m n o : SortedMap α) : (m.merge n).merge o = m.merge (n.merge o) := by
  apply ext_get?
  intro key
  rw [get?_merge, get?_merge, get?_merge, get?_merge, Option.or_assoc]

theorem empty_merge (m : SortedMap α) : empty.merge m = m := ofList_entries m

theorem merge_empty (m : SortedMap α) : m.merge empty = m := rfl

theorem merge_self (m : SortedMap α) : m.merge m = m := by
  apply ext_get?
  intro key
  rw [get?_merge, Option.or_self]

/-- Maps that agree on their common keys can be laid over each other in either order. -/
theorem merge_comm_of_agree {m n : SortedMap α}
    (agree : ∀ key a b, m.get? key = some a → n.get? key = some b → a = b) :
    m.merge n = n.merge m := by
  apply ext_get?
  intro key
  rw [get?_merge, get?_merge]
  cases hm : m.get? key with
  | none => simp
  | some a =>
    cases hn : n.get? key with
    | none => rfl
    | some b => rw [agree key a b hm hn]

end PipelineParams.SortedMap
