import PipelineParams.Config.Codec
import PipelineParams.Proofs.SortedMap.Lookup
import PipelineParams.Proofs.Toml.Table

/-! # Configurations survive being written

A configuration that is put together from files by merging can be written, and what is written reads
back as the same configuration.

* `Config.parts` — a written configuration as parts of a file, with the table that each defines.
  A section that is absent has no part, while an empty map has one, so both read back as they are.
* `Config.parseRecord_write` — every configuration reads back.  Whether it is accepted depends on its
  level alone.
* `Config.Reachable` — the configurations that come from merging files; `unknownLevel?_merge` is the
  step that keeps their level known.
-/

namespace PipelineParams

open Toml (Part Setting Value pathLimit)

/-! ## Maps -/

/-- What is written item by item is read item by item. -/
theorem mapM_map_of_reads {α β : Type} {read : β → Option α} {f : α → β}
    (reads : ∀ a, read (f a) = some a) (items : List α) : (items.map f).mapM read = some items := by
  induction items with
  | nil => rfl
  | cons a items ih =>
    rw [List.map_cons, List.mapM_cons, reads, ih]
    rfl

namespace SortedMap

variable {α : Type}

def table (f : α → Value) (m : SortedMap α) : Value := .table (m.entries.map fun e => (e.1, f e.2))

theorem map?_table {read : Value → Option α} {f : α → Value} (reads : ∀ a, read (f a) = some a)
    (m : SortedMap α) : Value.map? read (m.table f) = some m := by
  have pairs : ∀ e : String × α, ((read (f e.2)).map fun a => (e.1, a)) = some e := by
    intro e
    rw [reads]
    rfl
  rw [table, Value.map?, Value.entries?, Option.bind_some, mapM_map_of_reads pairs, Option.map_some,
    ofList_entries]

theorem settings_nodup (f : α → Setting) (m : SortedMap α) :
    ((m.entries.map fun e => (e.1, f e.2)).map (·.1)).Nodup := by
  rw [List.map_map]
  exact m.nodup_keys

def part (key : String) (f : α → Setting) (m : SortedMap α) : Part :=
  Part.single key _ (m.settings_nodup f)

@[simp] theorem part_blocks (key : String) (f : α → Setting) (m : SortedMap α) :
    (m.part key f).blocks = [mapBlock [key] f m] := rfl

@[simp] theorem part_key (key : String) (f : α → Setting) (m : SortedMap α) :
    (m.part key f).key = key := rfl

@[simp] theorem part_field (key : String) (f : α → Setting) (m : SortedMap α) :
    (m.part key f).field = (key, m.table fun a => (f a).value) := by
  rw [part, Part.single_field, List.map_map]
  rfl

end SortedMap

def objectsPart (key : String) (m : SortedMap (SortedMap String)) : Part :=
  if none : m.entries = [] then Part.single key [] List.nodup_nil
  else
    Part.group key (m.entries.map fun e => e.2.part e.1 .text) (by simpa using none)
      (by rw [List.map_map]; exact m.nodup_keys)

@[simp] theorem objectsPart_blocks (key : String) (m : SortedMap (SortedMap String)) :
    (objectsPart key m).blocks = objectBlocks [key] m := by
  rw [objectsPart, objectBlocks, SortedMap.isEmpty]
  by_cases none : m.entries = []
  · rw [dif_pos none, if_pos (List.isEmpty_iff.2 none), Part.single_blocks]
  · have one : m.entries.flatMap (fun e => (e.2.part e.1 .text).blocks) =
        m.entries.map fun e => mapBlock [e.1] .text e.2 := List.map_eq_flatMap.symm
    rw [dif_neg none, if_neg (by simpa using none), Part.group_blocks, List.flatMap_map, one,
      List.map_map]
    rfl

@[simp] theorem objectsPart_field (key : String) (m : SortedMap (SortedMap String)) :
    (objectsPart key m).field = (key, m.table (SortedMap.table .string)) := by
  rw [objectsPart, SortedMap.table]
  by_cases none : m.entries = []
  · rw [dif_pos none, none]
    rfl
  · rw [dif_neg none, Part.group_field, List.map_map]
    simp only [Function.comp_def, SortedMap.part_field]
    rfl

@[simp] theorem objectsPart_key (key : String) (m : SortedMap (SortedMap String)) :
    (objectsPart key m).key = key := congrArg Prod.fst (objectsPart_field key m)

/-! ## Parts of a configuration -/

def LoggingSection.part (s : LoggingSection) : Part :=
  Part.single "logging" s.block.settings (by
    rcases s with ⟨_ | level, json, _ | directory⟩ <;> simp [block, optionalSetting])

@[simp] theorem LoggingSection.part_key (s : LoggingSection) : s.part.key = "logging" := rfl

@[simp] theorem LoggingSection.part_blocks (s : LoggingSection) : s.part.blocks = [s.block] := rfl

def OutputSection.part (s : OutputSection) : Part :=
  Part.single "output" s.block.settings (by simp [block])

@[simp] theorem OutputSection.part_key (s : OutputSection) : s.part.key = "output" := rfl

@[simp] theorem OutputSection.part_blocks (s : OutputSection) : s.part.blocks = [s.block] := rfl

def ReplacementContext.part (c : ReplacementContext) : Part :=
  Part.group "replacements"
    [c.strings.part "strings" .text, c.arrays.part "arrays" .texts, objectsPart "objects" c.objects]
    (List.cons_ne_nil _ _) (by simp)

@[simp] theorem ReplacementContext.part_key (c : ReplacementContext) :
    c.part.key = "replacements" := rfl

@[simp] theorem ReplacementContext.part_blocks (c : ReplacementContext) :
    c.part.blocks = c.blocks := by
  have objects : (objectBlocks ["objects"] c.objects).map (Toml.Block.under "replacements") =
      objectBlocks ["replacements", "objects"] c.objects := by
    rw [objectBlocks, objectBlocks]
    split
    · rfl
    · rw [List.map_map]
      rfl
  rw [part, Part.group_blocks, blocks, ← objects, ← objectsPart_blocks]
  simp [Toml.Block.under, mapBlock]

theorem ReplacementContext.part_field (c : ReplacementContext) :
    c.part.field = ("replacements", .table
      [("strings", c.strings.table .string),
        ("arrays", c.arrays.table fun items => .array (items.map .string)),
        ("objects", c.objects.table (SortedMap.table .string))]) := by
  rw [part, Part.group_field]
  simp [Setting.value]

/-- The parts of a written configuration; absent sections have none. -/
def Config.parts (c : Config) : List Part :=
  (c.logging.map LoggingSection.part).toList ++ (c.output.map OutputSection.part).toList ++
    (c.replacements.map ReplacementContext.part).toList

theorem Config.parts_blocks (c : Config) : c.parts.flatMap Part.blocks = c.blocks := by
  rcases c with ⟨_ | logging, _ | output, _ | replacements⟩ <;> simp [parts, blocks]

theorem Config.parts_nodup (c : Config) : (c.parts.map Part.key).Nodup := by
  rcases c with ⟨_ | logging, _ | output, _ | replacements⟩ <;> simp [parts]

/-! ## Headers of a configuration -/

theorem length_path_of_mem_objectBlocks {path : List String} {m : SortedMap (SortedMap String)}
    {b : Toml.Block} (member : b ∈ objectBlocks path m) : b.path.length ≤ path.length + 1 := by
  rw [objectBlocks] at member
  split at member
  · rw [List.mem_singleton.1 member]
    exact Nat.le_succ path.length
  · obtain ⟨e, -, rfl⟩ := List.mem_map.1 member
    exact Nat.le_of_eq List.length_append

theorem Config.length_path_of_mem_blocks {c : Config} {b : Toml.Block} (member : b ∈ c.blocks) :
    b.path.length ≤ 3 := by
  rcases c with ⟨logging, output, replacements⟩
  rw [blocks, List.mem_append, List.mem_append] at member
  rcases member with (member | member) | member
  · obtain ⟨s, -, rfl⟩ := by simpa using member
    exact Nat.le_add_left 1 2
  · obtain ⟨s, -, rfl⟩ := by simpa using member
    exact Nat.le_add_left 1 2
  · cases replacements with
    | none => cases member
    | some r =>
      rcases List.mem_cons.1 member with rfl | member
      · exact Nat.le_succ 2
      rcases List.mem_cons.1 member with rfl | member
      · exact Nat.le_succ 2
      exact length_path_of_mem_objectBlocks member

/-! ## Reading the tables -/

namespace Toml.Value

theorem string?_string (s : String) : string? (.string s) = some s := rfl

theorem strings?_array (items : List String) :
    strings? (.array (items.map .string)) = some items := by
  rw [strings?, items?, Option.bind_some, mapM_map_of_reads string?_string]

end Toml.Value

theorem LoggingSection.ofValue?_part (s : LoggingSection) : ofValue? s.part.value = some s := by
  rcases s with ⟨_ | level, json, _ | directory⟩
  · rfl
  · rfl
  · rfl
  · rfl

theorem OutputSection.ofValue?_part (s : OutputSection) : ofValue? s.part.value = some s := rfl

theorem ReplacementContext.ofValue?_part (c : ReplacementContext) :
    ofValue? c.part.value = some c := by
  have strings := SortedMap.map?_table Value.string?_string c.strings
  have arrays := SortedMap.map?_table Value.strings?_array c.arrays
  have objects := SortedMap.map?_table (SortedMap.map?_table Value.string?_string) c.objects
  have written : c.part.value = _ := congrArg Prod.snd c.part_field
  rw [written]
  simp [ofValue?, Value.fields?, Value.entries?, ofFields?, Value.field, strings, arrays, objects]

theorem Config.ofFields?_parts (c : Config) : ofFields? (c.parts.map Part.field) = some c := by
  rcases c with ⟨_ | logging, _ | output, _ | replacements⟩ <;>
    simp [ofFields?, parts, Part.field, Value.field, Value.present, LoggingSection.ofValue?_part,
      OutputSection.ofValue?_part, ReplacementContext.ofValue?_part]

namespace Config

/-- Every configuration reads back, whatever its level is. -/
theorem parseRecord_write (c : Config) : parseRecord ofFields? c.write = some c := by
  have short : ∀ b ∈ c.parts.flatMap Part.blocks, b.path.length < pathLimit := by
    intro b member
    rw [parts_blocks] at member
    exact Nat.lt_of_le_of_lt (length_path_of_mem_blocks member) (by decide)
  have read := Part.parse_writeBlocks_parts c.parts_nodup short
  rw [parts_blocks] at read
  rw [parseRecord, write, read]
  exact c.ofFields?_parts

/-- A configuration whose level is known is accepted again once it is written. -/
theorem parse_write {c : Config} (known : c.unknownLevel? = none) : parse c.write = .ok c := by
  rw [parse, parseRecord_write]
  dsimp only
  rw [known]

/-! ## Known levels -/

theorem isSome_ofName?_iff {level : String} :
    (LogLevel.ofName? level).isSome ↔
      LogLevel.lowered level ∈ ["trace", "debug", "info", "warn", "error"] := by
  have names : ["trace", "debug", "info", "warn", "error"] = LogLevel.all.map LogLevel.name := rfl
  rw [LogLevel.ofName?, List.find?_isSome, names, List.mem_map]
  simp only [decide_eq_true_eq]

theorem unknownLevel?_eq_none_iff {c : Config} :
    c.unknownLevel? = none ↔ ∀ level, c.logLevel = some level →
      LogLevel.lowered level ∈ ["trace", "debug", "info", "warn", "error"] := by
  have known : ∀ level, ¬(LogLevel.ofName? level).isNone ↔ (LogLevel.ofName? level).isSome := by
    intro level
    cases LogLevel.ofName? level <;> simp
  simp only [unknownLevel?, Option.filter_eq_none_iff, known, isSome_ofName?_iff]

/-- A configuration that is read has a known level. -/
theorem unknownLevel?_of_parse {c : Config} {text : String} (accepted : parse text = .ok c) :
    c.unknownLevel? = none := by
  rw [parse] at accepted
  split at accepted
  · cases accepted
  · split at accepted
    next known =>
      cases accepted
      exact known
    · cases accepted

theorem logLevel_merge (c d : Config) :
    (c.merge d).logLevel = if d.logging.isSome then d.logLevel else c.logLevel := by
  rw [logLevel, logLevel, logLevel, merge]
  cases d.logging <;> rfl

/-- Laying one configuration over another makes no unknown level. -/
theorem unknownLevel?_merge {c d : Config} (below : c.unknownLevel? = none)
    (above : d.unknownLevel? = none) : (c.merge d).unknownLevel? = none := by
  rw [unknownLevel?, logLevel_merge]
  split
  · exact above
  · exact below

/-! ## Configurations from files -/

/-- The configurations that come from the empty one by laying accepted files over it or under it. -/
inductive Reachable : Config → Prop
  | empty : Reachable Config.empty
  | layAbove {c d : Config} {text : String} (reachable : Reachable c) (accepted : parse text = .ok d) :
      Reachable (c.merge d)
  | layBelow {c d : Config} {text : String} (reachable : Reachable c) (accepted : parse text = .ok d) :
      Reachable (d.merge c)

theorem Reachable.unknownLevel?_eq_none {c : Config} (reachable : Reachable c) :
    c.unknownLevel? = none := by
  induction reachable with
  | empty => rfl
  | layAbove _ accepted known => exact unknownLevel?_merge known (unknownLevel?_of_parse accepted)
  | layBelow _ accepted known => exact unknownLevel?_merge (unknownLevel?_of_parse accepted) known

/-- The level of a configuration that comes from files is one of the known ones, in capitals or not.
The configuration can be written, and what is written is accepted as the same configuration. -/
theorem Reachable.level_known_and_parse_write {c : Config} (reachable : Reachable c) :
    (∀ level, c.logLevel = some level →
        LogLevel.lowered level ∈ ["trace", "debug", "info", "warn", "error"]) ∧
      parse c.write = .ok c := by
  have known := reachable.unknownLevel?_eq_none
  exact ⟨unknownLevel?_eq_none_iff.1 known, parse_write known⟩

def awkward : Config where
  logging := some { level := some "WaRn", directory := some "a\"b\\c\n" }
  replacements := some
    { strings := .ofList
        [("", "\n"), ("a.b", "'''"), ("\"", "\x00\x7f"), ("é\r\n", "\"\"\"\r")]
      arrays := .ofList [("none", []), ("one", [""]), ("two", ["a\tb", "'\n'"])]
      objects := .ofList [("", .empty), ("a.b", .ofList [("", ""), ("#", "\\")])] }

def blank : Config where
  output := some {}
  replacements := some {}

theorem Reachable.level_known_and_parse_write_awkward :
    LogLevel.lowered "WaRn" ∈ ["trace", "debug", "info", "warn", "error"] ∧
      parse ((Config.empty.merge awkward).merge blank).write =
        .ok ((Config.empty.merge awkward).merge blank) := by
  have first : parse awkward.write = .ok awkward := parse_write (by decide)
  have second : parse blank.write = .ok blank := parse_write rfl
  have reachable := Reachable.layAbove (.layAbove .empty first) second
  have ⟨known, survives⟩ := reachable.level_known_and_parse_write
  exact ⟨known "WaRn" rfl, survives⟩

end Config

end PipelineParams
