import PipelineParams.Config.Layers
import PipelineParams.Proofs.Config.RoundTrip

/-! # What loading puts together

Loading never fails.  `LayerAt` lists what can become of a layer, and `loadLayers_eq` says that the
configuration, the sources and the warnings are all read off the outcomes, in the order of the layers.
The level is checked after a file has been read, so a layer can be rejected late; like one that is no
configuration at all it then adds a warning and nothing else (`addLayer_eq`).
-/

namespace PipelineParams

/-! ## Outcomes -/

inductive LayerOutcome where
  | missing
  | rejected (cause : LoadError)
  | accepted (layer : Config)

namespace LayerOutcome

def config? : LayerOutcome → Option Config
  | .accepted layer => some layer
  | _ => none

def warning? (path : String) : LayerOutcome → Option String
  | .rejected cause => some ("Failed to load " ++ path ++ ": " ++ cause.message)
  | _ => none

end LayerOutcome

/-- What becomes of a layer that is looked for at a path of the disk. -/
inductive LayerAt (disk : Disk) (path : String) : LayerOutcome → Prop
  | nothing {fault : FileFault} (there : disk path = .error fault) : LayerAt disk path .missing
  | directory (there : disk path = .ok .directory) : LayerAt disk path .missing
  | closed (there : disk path = .ok .closed) :
      LayerAt disk path (.rejected (.unreadable path .notPermitted))
  | binary (there : disk path = .ok .binary) :
      LayerAt disk path (.rejected (.unreadable path .notText))
  | malformed {text : String} (there : disk path = .ok (.text text))
      (refused : parseRecord Config.ofFields? text = none) :
      LayerAt disk path (.rejected (.invalid .malformed))
  | unknownLevel {text level : String} {layer : Config} (there : disk path = .ok (.text text))
      (read : parseRecord Config.ofFields? text = some layer) (set : layer.logLevel = some level)
      (unknown : LogLevel.lowered level ∉ ["trace", "debug", "info", "warn", "error"]) :
      LayerAt disk path (.rejected (.invalid (.unknownLevel level)))
  | accepted {text : String} {layer : Config} (there : disk path = .ok (.text text))
      (accepted : Config.parse text = .ok layer) : LayerAt disk path (.accepted layer)

def layerOutcome (disk : Disk) (path : String) : LayerOutcome :=
  if isFile disk path then
    match loadFile disk path with
    | .ok layer => .accepted layer
    | .error cause => .rejected cause
  else .missing

theorem Config.unknownLevel?_eq_some_iff {c : Config} {level : String} :
    c.unknownLevel? = some level ↔ c.logLevel = some level ∧
      LogLevel.lowered level ∉ ["trace", "debug", "info", "warn", "error"] := by
  rw [unknownLevel?, Option.filter_eq_some_iff, ← isSome_ofName?_iff]
  cases LogLevel.ofName? level <;> simp

theorem LayerAt.layerOutcome_eq {disk : Disk} {path : String} {outcome : LayerOutcome}
    (found : LayerAt disk path outcome) : layerOutcome disk path = outcome := by
  cases found with
  | nothing there => simp [layerOutcome, isFile, there]
  | directory there => simp [layerOutcome, isFile, there]
  | closed there => simp [layerOutcome, isFile, loadFile, readFile, there]
  | binary there => simp [layerOutcome, isFile, loadFile, readFile, there]
  | malformed there refused =>
    simp [layerOutcome, isFile, loadFile, readFile, there, Config.parse, refused, Except.mapError]
  | unknownLevel there read set unknown =>
    have checked := Config.unknownLevel?_eq_some_iff.2 ⟨set, unknown⟩
    simp [layerOutcome, isFile, loadFile, readFile, there, Config.parse, read, checked,
      Except.mapError]
  | accepted there accepted =>
    simp [layerOutcome, isFile, loadFile, readFile, there, accepted, Except.mapError]

theorem exists_layerAt (disk : Disk) (path : String) : ∃ outcome, LayerAt disk path outcome := by
  rcases there : disk path with fault | entry
  · exact ⟨_, .nothing there⟩
  cases entry with
  | directory => exact ⟨_, .directory there⟩
  | closed => exact ⟨_, .closed there⟩
  | binary => exact ⟨_, .binary there⟩
  | text contents =>
    rcases read : parseRecord Config.ofFields? contents with _ | layer
    · exact ⟨_, .malformed there read⟩
    rcases checked : layer.unknownLevel? with _ | level
    · have accepted : Config.parse contents = .ok layer := by simp only [Config.parse, read, checked]
      exact ⟨_, .accepted there accepted⟩
    · obtain ⟨set, unknown⟩ := Config.unknownLevel?_eq_some_iff.1 checked
      exact ⟨_, .unknownLevel there read set unknown⟩

/-- One thing and no other becomes of a layer. -/
theorem layerAt_iff {disk : Disk} {path : String} {outcome : LayerOutcome} :
    LayerAt disk path outcome ↔ layerOutcome disk path = outcome := by
  refine ⟨LayerAt.layerOutcome_eq, ?_⟩
  rintro rfl
  obtain ⟨outcome, found⟩ := exists_layerAt disk path
  rwa [found.layerOutcome_eq]

/-! ## Loading -/

namespace LoadedConfig

variable (disk : Disk)

/-- One layer: an accepted one is laid over the configuration, a rejected one leaves it as it is and
is warned about, and every one is listed. -/
theorem addLayer_eq (l : LoadedConfig) (path : String) :
    l.addLayer disk path =
      { config := (layerOutcome disk path).config?.toList.foldl Config.merge l.config
        sources := l.sources ++ [⟨path, (layerOutcome disk path).config?.isSome⟩]
        warnings := l.warnings ++ ((layerOutcome disk path).warning? path).toList } := by
  rw [addLayer, layerOutcome]
  split
  · cases loadFile disk path <;> simp [LayerOutcome.config?, LayerOutcome.warning?]
  · simp [LayerOutcome.config?, LayerOutcome.warning?]

/-- Layers one after the other. -/
theorem foldl_addLayer (l : LoadedConfig) (paths : List String) :
    paths.foldl (addLayer disk) l =
      { config :=
          (paths.filterMap fun path => (layerOutcome disk path).config?).foldl Config.merge l.config
        sources := l.sources ++ paths.map fun path => ⟨path, (layerOutcome disk path).config?.isSome⟩
        warnings :=
          l.warnings ++ paths.filterMap fun path => (layerOutcome disk path).warning? path } := by
  induction paths generalizing l with
  | nil => simp
  | cons path paths ih =>
    rw [List.foldl_cons, ih, addLayer_eq]
    simp only [List.filterMap_cons, List.map_cons]
    cases layerOutcome disk path <;> simp [LayerOutcome.config?, LayerOutcome.warning?]

end LoadedConfig

/-- Loading gives a result for every disk.  Its configuration is what the accepted layers give when
they are laid over each other from the empty configuration on, the user's first.  Both places are
listed as sources, loaded exactly if the layer was accepted, and there is one warning for each layer
that was rejected. -/
theorem loadLayers_eq (disk : Disk) (env : Environment) (configDir projectDir : Option String) :
    ∃ layers : List (String × LayerOutcome),
      layers.map Prod.fst =
        (userPath? env configDir).toList ++ [joinPath (projectDir.getD "") "conduit.toml"] ∧
      (∀ layer ∈ layers, ∀ outcome, LayerAt disk layer.1 outcome ↔ layer.2 = outcome) ∧
      loadLayers disk env configDir projectDir =
        { config := (layers.filterMap (·.2.config?)).foldl Config.merge Config.empty
          sources := layers.map fun layer => ⟨layer.1, layer.2.config?.isSome⟩
          warnings := layers.filterMap fun layer => layer.2.warning? layer.1 } := by
  refine ⟨(layerPaths env configDir projectDir).map fun path => (path, layerOutcome disk path),
    ?_, ?_, ?_⟩
  · rw [List.map_map]
    exact List.map_id _
  · intro layer member outcome
    obtain ⟨path, -, rfl⟩ := List.mem_map.1 member
    exact layerAt_iff
  · rw [loadLayers, LoadedConfig.foldl_addLayer, List.filterMap_map, List.filterMap_map,
      List.map_map, List.nil_append, List.nil_append]
    rfl

end PipelineParams
