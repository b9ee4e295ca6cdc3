import PipelineParams.Proofs.Command.Run
import PipelineParams.Proofs.Declaration.Groups
import PipelineParams.Proofs.Declaration.Names

/-! # What is printed of declarations

The declarations of a file are printed by type, each once and in the order of the file, whether or not
a name is declared twice (`check_prints_groups`).  A run of the program does the same, if it can start its
log (`Invocation.run_check`).

What is printed is read back by a reader for groups of its own (`Grouped.reader`), so the statement is
about the declarations on the page and not about the text that happens to be written for them.
-/

namespace PipelineParams

open ParamSpec
open scoped List

/-! ## Groups in documents -/

namespace Grouped

def fields : List (Json.Field Grouped) :=
  [⟨"string", true, (Json.list ParamSpec.reader).map fun string g => { g with string }⟩,
   ⟨"array", true, (Json.list ParamSpec.reader).map fun array g => { g with array }⟩,
   ⟨"object", true, (Json.list ParamSpec.reader).map fun object g => { g with object }⟩]

def reader : Json.Reader Grouped := Json.record "Grouped" fields ⟨[], [], []⟩

theorem accepts_form {tok : List Char} {g : Grouped} (form : Json.Form tok g.toJson) :
    Json.Accepts reader tok g := by
  have group : ∀ {tok specs}, Json.Form tok (.list (specs.map ParamSpec.toJson)) →
      Json.Accepts (Json.list ParamSpec.reader) tok specs :=
    Json.accepts_list_of_form ParamSpec.accepts_form
  have filled : Json.Filled fields
      [("string", .list (g.string.map ParamSpec.toJson)),
        ("array", .list (g.array.map ParamSpec.toJson)),
        ("object", .list (g.object.map ParamSpec.toJson))] ⟨[], [], []⟩ g :=
    .present (fun form => (group form).map _) <|
      .present (fun form => (group form).map _) <|
        .present (fun form => (group form).map _) .done
  exact Json.accepts_record (by decide) filled form "Grouped"

/-- The groups hold the declarations with types filled in, each once, in their order and by type.  A group
of arrays or objects has at least what it would have had without the filled in types, and the group of
texts at most. -/
structure GroupsOf (specs : List ParamSpec) (g : Grouped) : Prop where
  perm : (g.string ++ g.array ++ g.object).Perm (setDefaultsAll specs)
  sublist : ∀ t, g.group t <+ setDefaultsAll specs
  typed : ∀ t, ∀ s ∈ g.group t, s.type = some t
  grown : ∀ t, t ≠ .string → ((ofSpecs specs).group t).map setDefaults <+ g.group t
  shrunk : g.string <+ (ofSpecs specs).string.map setDefaults

theorem groupsOf_ofSpecs (specs : List ParamSpec) :
    GroupsOf specs (ofSpecs (setDefaultsAll specs)) where
  perm := perm_ofSpecs _
  sublist t := by
    rw [group_ofSpecs]
    exact List.filter_sublist
  typed t s member := by
    rw [group_ofSpecs, List.mem_filter, decide_eq_true_eq] at member
    rw [type_of_mem_setDefaultsAll member.1, member.2]
  grown _ := sublist_setDefaultsAll specs
  shrunk := string_setDefaultsAll_sublist specs

end Grouped

/-! ## The command -/

section

variable {disk : Disk} {file : String}

theorem runCheck_of_fileHolds {specs : List ParamSpec}
    (holds : FileHolds disk file (ParamSpec.decodeList · = .ok specs)) (pretty : Bool) :
    (∃ g : Grouped,
      (runCheck disk pretty file).stdout = printed pretty g.toJson ∧
      Json.read Grouped.reader (runCheck disk pretty file).stdout = .ok g ∧ g.GroupsOf specs) ∧
    (runCheck disk pretty file).exitCode = if (names specs).Nodup then 0 else 1 := by
  rw [runCheck, decodeInput_eq_ok_iff.2 holds]
  refine ⟨⟨_, rfl, read_printed Grouped.accepts_form pretty, Grouped.groupsOf_ofSpecs specs⟩, ?_⟩
  have repeated : duplicates (setDefaultsAll specs) = none ↔ (names specs).Nodup := by
    rw [duplicates_eq_none_iff, names_setDefaultsAll]
  change (if ((duplicates (setDefaultsAll specs)).map _).isSome then 1 else 0) = _
  rw [Option.isSome_map]
  by_cases distinct : (names specs).Nodup
  · rw [repeated.2 distinct, if_pos distinct]
    rfl
  · have told := Option.isSome_iff_ne_none.2 (mt repeated.1 distinct)
    rw [if_pos told, if_neg distinct]

theorem runCheck_of_not_fileHolds
    (lacks : ∀ specs, ¬ FileHolds disk file (ParamSpec.decodeList · = .ok specs)) (pretty : Bool) :
    (runCheck disk pretty file).stdout = "" ∧ (runCheck disk pretty file).exitCode = 1 := by
  apply Result.ofExcept_of_forall_ne_ok
  cases decoded : decodeInput disk ParamSpec.decodeList "declarations" file with
  | error e => exact nofun
  | ok specs => exact absurd (decodeInput_eq_ok_iff.1 decoded) (lacks specs)

end

/-- For a file of declarations the command prints them by type, as one object with three lists, and
fails exactly if a name is declared twice, after it has printed.  For a file that cannot be read, or
that holds no declarations, it prints nothing and fails. -/
theorem check_prints_groups (disk : Disk) (pretty : Bool) (file : String) :
    (∀ specs, FileHolds disk file (ParamSpec.decodeList · = .ok specs) →
      (∃ g : Grouped,
        (runCheck disk pretty file).stdout = printed pretty g.toJson ∧
        Json.read Grouped.reader (runCheck disk pretty file).stdout = .ok g ∧ g.GroupsOf specs) ∧
      (runCheck disk pretty file).exitCode = if (names specs).Nodup then 0 else 1) ∧
    ((∀ specs, ¬ FileHolds disk file (ParamSpec.decodeList · = .ok specs)) →
      (runCheck disk pretty file).stdout = "" ∧ (runCheck disk pretty file).exitCode = 1) :=
  ⟨fun _ holds => runCheck_of_fileHolds holds pretty,
    fun lacks => runCheck_of_not_fileHolds lacks pretty⟩

/-- Of three declarations without a type two have one name, and there is no other file. -/
theorem check_prints_groups_repeated_name :
    let specs : List ParamSpec :=
      [{ name := "a" }, { name := "b", default := some (.array []) },
        { name := "a", properties := some SortedMap.empty }]
    let text := (Json.Tree.list (specs.map ParamSpec.toJson)).pretty
    let disk : Disk := fun path =>
      if path = "specs.json" then .ok (.text text) else .error .notFound
    (FileHolds disk "specs.json" (ParamSpec.decodeList · = .ok specs) ∧
      (∃ g : Grouped, Json.read Grouped.reader (runCheck disk false "specs.json").stdout = .ok g ∧
        g.GroupsOf specs) ∧
      (runCheck disk false "specs.json").exitCode = 1) ∧
    ((∀ specs, ¬ FileHolds disk "other.json" (ParamSpec.decodeList · = .ok specs)) ∧
      (runCheck disk true "other.json").stdout = "" ∧
      (runCheck disk true "other.json").exitCode = 1) := by
  intro specs text disk
  have holds : FileHolds disk "specs.json" (ParamSpec.decodeList · = .ok specs) :=
    ⟨text, rfl, (ParamSpec.decodeList_of_forms specs).2⟩
  have lacks : ∀ specs, ¬ FileHolds disk "other.json" (ParamSpec.decodeList · = .ok specs) :=
    fun _ => not_fileHolds (show readFile disk "other.json" = .error .notFound from rfl)
  obtain ⟨⟨g, -, read, groups⟩, exitCode⟩ :=
    (check_prints_groups disk false "specs.json").1 specs holds
  exact ⟨⟨holds, ⟨g, read, groups⟩, exitCode⟩,
    lacks, (check_prints_groups disk true "other.json").2 lacks⟩

/-- A whole run of the command prints the same and ends in the same way, unless its log cannot be
started. -/
theorem Invocation.run_check {workspace : Workspace} {env : Environment} {i : Invocation}
    {disk : Disk} {file : String} (starts : i.LogStarts workspace env disk)
    (command : i.command = .check file) :
    (∀ specs, FileHolds disk file (ParamSpec.decodeList · = .ok specs) →
      (∃ g : Grouped,
        Json.read Grouped.reader (i.run workspace env).stdout = .ok g ∧ g.GroupsOf specs) ∧
      (i.run workspace env).exitCode = if (names specs).Nodup then 0 else 1) ∧
    ((∀ specs, ¬ FileHolds disk file (ParamSpec.decodeList · = .ok specs)) →
      (i.run workspace env).stdout = "" ∧ (i.run workspace env).exitCode = 1) := by
  rw [stdout_run starts, exitCode_run starts, perform, command]
  refine ⟨fun specs holds => ?_, fun lacks => runCheck_of_not_fileHolds lacks _⟩
  obtain ⟨⟨g, -, read, groups⟩, exitCode⟩ := runCheck_of_fileHolds holds _
  exact ⟨⟨g, read, groups⟩, exitCode⟩

end PipelineParams
