import PipelineParams.Context.Codec
import PipelineParams.Disk.Tree
import PipelineParams.Main
import PipelineParams.Proofs.SortedMap.Lookup
import PipelineParams.Proofs.Substitution.Rewriting
import PipelineParams.Proofs.Substitution.Staging
import PipelineParams.Proofs.Resolution.Lookup
import PipelineParams.Proofs.Resolution.Staging
import PipelineParams.Proofs.Json.Literal
import PipelineParams.Proofs.Json.Layout
import PipelineParams.Proofs.Json.Skipping
import PipelineParams.Proofs.Value.Classification
import PipelineParams.Proofs.Value.Agreement
import PipelineParams.Proofs.Json.Writing
import PipelineParams.Proofs.Value.RoundTrip
import PipelineParams.Proofs.Reference.Occurrences
import PipelineParams.Proofs.Substitution.References
import PipelineParams.Proofs.Value.Exactness
import PipelineParams.Proofs.Toml.Key
import PipelineParams.Proofs.Toml.Blocks
import PipelineParams.Proofs.Toml.Table
import PipelineParams.Proofs.Config.RoundTrip
import PipelineParams.Proofs.Resolution.Mention
import PipelineParams.Proofs.Resolution.Promotion
import PipelineParams.Proofs.Document.RoundTrip
import PipelineParams.Proofs.Document.Position
import PipelineParams.Proofs.Reference.Agreement
import PipelineParams.Proofs.Config.Layers
import PipelineParams.Proofs.Config.Merge
import PipelineParams.Proofs.Context.Runs
import PipelineParams.Proofs.Command.Check
import PipelineParams.Proofs.Command.Resolve
import PipelineParams.Proofs.Json.Strictness
import PipelineParams.Proofs.Document.Strictness
import PipelineParams.Proofs.Reference.Language
import PipelineParams.Proofs.Reference.Leftmost
import PipelineParams.Proofs.Reference.Kind
import PipelineParams.Proofs.Declaration.Defaults
import PipelineParams.Proofs.Declaration.Report
import PipelineParams.Proofs.Document.Rearrangement
import PipelineParams.Proofs.Resolution.Length
