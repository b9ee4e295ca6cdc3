import PipelineParams.Command.Run
import PipelineParams.Proofs.Document.RoundTrip

/-! # What commands read and print

A command works on the text of files, prints a document or fails.

* `FileHolds` is what can be said of the text of a file; `decodeInput_eq_ok_iff` says by it when a
  command can go on.
* `read_printed`: what is printed is one document, which is read back however it is laid out.
* `Result.ofExcept_of_forall_ne_ok`: a command that cannot go on prints nothing.
* `Invocation.LogStarts` leaves out the runs in which no log can be kept.  All others print what the
  command prints and end as it ends (`Invocation.stdout_run`, `Invocation.exitCode_run`).
-/

namespace PipelineParams

open Json (Accepts Form Tree)

/-! ## Files -/

def FileHolds (disk : Disk) (path : String) (told : String → Prop) : Prop :=
  ∃ text, readFile disk path = .ok text ∧ told text

theorem fileHolds_iff {disk : Disk} {path text : String} {told : String → Prop}
    (found : readFile disk path = .ok text) : FileHolds disk path told ↔ told text := by
  refine ⟨?_, fun holds => ⟨text, found, holds⟩⟩
  rintro ⟨text', found', holds⟩
  cases found.symm.trans found'
  exact holds

theorem not_fileHolds {disk : Disk} {path : String} {fault : FileFault} {told : String → Prop}
    (failed : readFile disk path = .error fault) : ¬ FileHolds disk path told := by
  rintro ⟨text, found, -⟩
  cases failed.symm.trans found

theorem decodeInput_eq_ok_iff {α : Type} {disk : Disk} {decode : String → Except PayloadError α}
    {what path : String} {a : α} :
    decodeInput disk decode what path = .ok a ↔ FileHolds disk path (decode · = .ok a) := by
  cases found : readFile disk path with
  | error fault =>
    rw [decodeInput, readInput, found]
    exact iff_of_false nofun (not_fileHolds found)
  | ok text =>
    rw [decodeInput, readInput, found, fileHolds_iff found]
    exact mapError_eq_ok_iff

/-! ## Documents -/

theorem read_printed {α : Type} {r : Json.Reader α} {t : Tree} {a : α}
    (accepts : ∀ {tok}, Form tok t → Accepts r tok a) (pretty : Bool) :
    Json.read r (printed pretty t) = .ok a := by
  have lineBreak : Json.Blanks ['\n'] := by
    intro c member
    rw [List.mem_singleton.1 member]
    rfl
  apply Json.read_of_accepts
  rw [printed, String.toList_append]
  cases pretty with
  | false =>
    rw [if_neg Bool.false_ne_true, Tree.compact, String.toList_ofList]
    exact (Json.Padded.of_token (accepts (.compact t))).append_blanks lineBreak
  | true =>
    rw [if_pos rfl, Tree.pretty, String.toList_ofList]
    exact (Json.Padded.of_token (accepts (.pretty 0 t))).append_blanks lineBreak

/-! ## Results -/

namespace Result

theorem ofExcept_of_forall_ne_ok {outcome : Except Failure Result} (stuck : ∀ r, outcome ≠ .ok r) :
    (ofExcept outcome).stdout = "" ∧ (ofExcept outcome).exitCode = 1 := by
  cases outcome with
  | error f => exact ⟨rfl, rfl⟩
  | ok r => exact absurd rfl (stuck r)

end Result

/-! ## Runs -/

namespace Invocation

/-- Events can be logged as the configuration plans, which leaves the disk as given. -/
def LogStarts (workspace : Workspace) (env : Environment) (i : Invocation) (disk : Disk) : Prop :=
  (LogPlan.ofConfig (i.load workspace.disk env).config i.verbose).start? workspace = some disk

variable {workspace : Workspace} {env : Environment} {i : Invocation} {disk : Disk}
  (starts : i.LogStarts workspace env disk)
include starts

theorem stdout_run :
    (i.run workspace env).stdout = (i.perform disk env (i.load workspace.disk env)).stdout := by
  rw [LogStarts] at starts
  rw [run, starts]
  rfl

theorem exitCode_run :
    (i.run workspace env).exitCode = (i.perform disk env (i.load workspace.disk env)).exitCode := by
  rw [LogStarts] at starts
  rw [run, starts]
  rfl

end Invocation

end PipelineParams
