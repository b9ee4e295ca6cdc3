import PipelineParams.Proofs.Command.Run

/-! # What is printed of resolved parameters

The parameters of a file are printed as they are resolved (`resolve_prints_resolved`), and the printed
document is read back as what resolving gave.  This holds of every value: a text that looks like a
document is quoted when it is printed, so what has been put in for a reference is not read anew.

Either input may be unusable.  Both are read before anything is printed, so nothing is printed then.
-/

namespace PipelineParams

/-- The context to resolve by: what a replacements file holds, if one is named, whatever the
configuration says, or else the replacements of the configuration. -/
def ResolvesBy (disk : Disk) (config : Config) : Option String → ReplacementContext → Prop
  | none, c => c = config.replacementContext
  | some path, c => FileHolds disk path (ReplacementContext.parseToml · = some c)

theorem chosenReplacements_eq_ok_iff {disk : Disk} {config : Config} {file : Option String}
    {c : ReplacementContext} :
    chosenReplacements disk config file = .ok c ↔ ResolvesBy disk config file c := by
  cases file with
  | none =>
    rw [chosenReplacements, Except.ok.injEq]
    exact eq_comm
  | some path =>
    rw [chosenReplacements, readInput, ResolvesBy]
    cases found : readFile disk path with
    | error fault => exact iff_of_false nofun (not_fileHolds found)
    | ok text =>
      rw [fileHolds_iff found]
      dsimp only [Except.mapError]
      cases ReplacementContext.parseToml text <;> simp

section

variable {disk : Disk} {config : Config} {file : String} {replacements : Option String}

theorem runResolve_of_fileHolds {ps : List Param} {c : ReplacementContext}
    (holds : FileHolds disk file (Param.decodeList · = .ok ps))
    (resolvesBy : ResolvesBy disk config replacements c) (pretty : Bool) :
    (runResolve disk config pretty file replacements).stdout =
        printed pretty (Param.listToJson (resolveAll c ps)) ∧
      (runResolve disk config pretty file replacements).exitCode = 0 := by
  rw [runResolve, decodeInput_eq_ok_iff.2 holds, chosenReplacements_eq_ok_iff.2 resolvesBy]
  exact ⟨rfl, rfl⟩

theorem runResolve_of_unusable
    (unusable : (∀ ps, ¬ FileHolds disk file (Param.decodeList · = .ok ps)) ∨
      ∀ c, ¬ ResolvesBy disk config replacements c) (pretty : Bool) :
    (runResolve disk config pretty file replacements).stdout = "" ∧
      (runResolve disk config pretty file replacements).exitCode = 1 := by
  apply Result.ofExcept_of_forall_ne_ok
  cases decoded : decodeInput disk Param.decodeList "params" file with
  | error e => exact nofun
  | ok ps =>
    cases chosen : chosenReplacements disk config replacements with
    | error e => exact nofun
    | ok c =>
      rcases unusable with lacks | lacks
      · exact absurd (decodeInput_eq_ok_iff.1 decoded) (lacks ps)
      · exact absurd (chosenReplacements_eq_ok_iff.1 chosen) (lacks c)

end

/-- If the file holds parameters and what references stand for is known, the command prints what
resolving gives: it is read back from what is printed, whether that is compact or pretty.  If the
parameters or the replacements cannot be had, nothing is printed and the command fails. -/
theorem resolve_prints_resolved {workspace : Workspace} {env : Environment} {i : Invocation}
    {disk : Disk} {file : String} {replacements : Option String}
    (starts : i.LogStarts workspace env disk) (command : i.command = .resolve file replacements) :
    let config := (i.load workspace.disk env).config
    let outcome := i.run workspace env
    (∀ ps c, FileHolds disk file (Param.decodeList · = .ok ps) →
      ResolvesBy disk config replacements c →
        Param.decodeList outcome.stdout = .ok (resolveAll c ps) ∧ outcome.exitCode = 0) ∧
    ((∀ ps, ¬ FileHolds disk file (Param.decodeList · = .ok ps)) ∨
      (∀ c, ¬ ResolvesBy disk config replacements c) →
        outcome.stdout = "" ∧ outcome.exitCode = 1) := by
  intro config outcome
  rw [Invocation.stdout_run starts, Invocation.exitCode_run starts, Invocation.perform, command]
  refine ⟨fun ps c holds resolvesBy => ?_, fun unusable => runResolve_of_unusable unusable _⟩
  obtain ⟨stdout, exitCode⟩ := runResolve_of_fileHolds holds resolvesBy _
  refine ⟨?_, exitCode⟩
  rw [stdout, Param.decodeList, mapError_eq_ok_iff]
  exact read_printed (Json.accepts_list_of_form Param.accepts_form) _

/-- What is put in for a reference looks like a list and like a reference.  The configuration knows
that one, and it counts only where no file is named.  A file of parameters is none of replacements. -/
theorem resolve_prints_resolved_either_way :
    let ps := [Param.mk "p" (.string "$(a)"), Param.mk "q" (.array ["$(b)"])]
    let disk : Disk := fun path =>
      if path = "conduit.toml" then .ok (.text "[replacements.strings]\nb = \"2\"\n")
      else if path = "named.toml" then .ok (.text "[strings]\na = '[\"$(b)\"]'\n")
      else if path = "params.json" then .ok (.text (Param.listToJson ps).compact)
      else .error .notFound
    let workspace : Workspace := ⟨disk, fun _ => none⟩
    let resolve (replacements : Option String) (pretty : Bool) : Invocation :=
      { command := .resolve "params.json" replacements, pretty }
    (∀ replacements pretty, (resolve replacements pretty).LogStarts workspace {} disk) ∧
    (∀ pretty,
      Param.decodeList ((resolve (some "named.toml") pretty).run workspace {}).stdout =
        .ok [Param.mk "p" (.string "[\"$(b)\"]"), Param.mk "q" (.array ["$(b)"])] ∧
      Param.decodeList ((resolve none pretty).run workspace {}).stdout =
        .ok [Param.mk "p" (.string "$(a)"), Param.mk "q" (.array ["2"])] ∧
      ((resolve (some "params.json") pretty).run workspace {}).stdout = "") := by
  intro ps disk workspace resolve
  have loaded : (loadLayers disk {} none none).config =
      { replacements := some (ReplacementContext.empty.withString "b" "2") } := by
    decide +kernel
  have starts : ∀ replacements pretty, (resolve replacements pretty).LogStarts workspace {} disk := by
    intro replacements pretty
    change (LogPlan.ofConfig (loadLayers disk {} none none).config false).start? workspace = _
    rw [loaded]
    rfl
  have holds : FileHolds disk "params.json" (Param.decodeList · = .ok ps) :=
    ⟨_, rfl, (Param.decodeList_of_forms ps).1⟩
  have named : FileHolds disk "named.toml" (ReplacementContext.parseToml · =
      some (ReplacementContext.empty.withString "a" "[\"$(b)\"]")) :=
    ⟨_, rfl, by decide +kernel⟩
  have lacks : ∀ c, ¬ FileHolds disk "params.json" (ReplacementContext.parseToml · = some c) := by
    rintro c ⟨text, found, parsed⟩
    obtain rfl := Except.ok.inj found
    have refused : ReplacementContext.parseToml (Param.listToJson ps).compact = none := by
      decide +kernel
    cases refused.symm.trans parsed
  have byFile : resolveAll (ReplacementContext.empty.withString "a" "[\"$(b)\"]") ps =
      [Param.mk "p" (.string "[\"$(b)\"]"), Param.mk "q" (.array ["$(b)"])] := by
    decide +kernel
  have byConfig : resolveAll (ReplacementContext.empty.withString "b" "2") ps =
      [Param.mk "p" (.string "$(a)"), Param.mk "q" (.array ["2"])] := by
    decide +kernel
  refine ⟨starts, fun pretty => ⟨?_, ?_, ?_⟩⟩
  · rw [← byFile]
    exact ((resolve_prints_resolved (starts (some "named.toml") pretty) rfl).1 ps _ holds named).1
  · rw [← byConfig]
    exact ((resolve_prints_resolved (starts none pretty) rfl).1 ps _ holds
      (congrArg Config.replacementContext loaded).symm).1
  · exact ((resolve_prints_resolved (starts (some "params.json") pretty) rfl).2 (.inr lacks)).1

end PipelineParams
