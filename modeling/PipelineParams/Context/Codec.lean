import PipelineParams.Context.Basic
import PipelineParams.Json.Record
import PipelineParams.Json.Tree

/-! # Contexts in documents

A context is an object of its three maps.  A map that is absent is empty.
-/

namespace PipelineParams.ReplacementContext

def fields : List (Json.Field ReplacementContext) :=
  [⟨"strings", false, (Json.mapOf Json.string).map fun strings c => { c with strings }⟩,
   ⟨"arrays", false, (Json.mapOf (Json.list Json.string)).map fun arrays c => { c with arrays }⟩,
   ⟨"objects", false, (Json.mapOf (Json.mapOf Json.string)).map fun objects c =>
      { c with objects }⟩]

def reader : Json.Reader ReplacementContext := Json.record "ReplacementContext" fields empty

def toJson (c : ReplacementContext) : Json.Tree :=
  .object
    [("strings", .ofMap .text c.strings),
     ("arrays", .ofMap .texts c.arrays),
     ("objects", .ofMap (.ofMap .text) c.objects)]

end PipelineParams.ReplacementContext
