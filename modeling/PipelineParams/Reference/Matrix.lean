import PipelineParams.Text.Affix

/-! # Fan-out references

A matrixed task runs once per combination.  `tasks.T.matrix.length` names the number of its runs, and
`tasks.T.matrix.R.length` the number of values of its result `R`.

* `MatrixContext.parse` reads such an expression, bare or between `$(` and `)`.
* `MatrixContext.names` gives the two names of one, or two empty texts.
-/

namespace PipelineParams

/-- The names in a fan-out reference. -/
structure MatrixContext where
  task : String
  /-- The result whose values are counted, if there is one. -/
  result : Option String
  deriving DecidableEq

namespace MatrixContext

def delimited? (cs : List Char) : Option (List Char) :=
  (Text.stripStart? ['$', '('] cs).bind (Text.stripEnd? [')'])

def ofParts? : List (List Char) → Option MatrixContext
  | [tasks, task, matrix, length] =>
    if tasks = "tasks".toList ∧ matrix = "matrix".toList ∧ length = "length".toList ∧ task ≠ [] then
      some ⟨String.ofList task, none⟩
    else none
  | [tasks, task, matrix, result, length] =>
    if tasks = "tasks".toList ∧ matrix = "matrix".toList ∧ length = "length".toList ∧
        task ≠ [] ∧ result ≠ [] then
      some ⟨String.ofList task, some (String.ofList result)⟩
    else none
  | _ => none

/-- The names in a fan-out expression, bare or delimited. -/
def ofChars? (cs : List Char) : Option MatrixContext :=
  ofParts? (Text.splitAt '.' ((delimited? cs).getD cs))

def parse (expr : String) : Option MatrixContext := ofChars? expr.toList

/-- The task and the result, which is empty where there is none. -/
def pair (m : MatrixContext) : String × String := (m.task, m.result.getD "")

/-- The task and the result that an expression names, both empty if it is no fan-out expression. -/
def names (expr : String) : String × String := ((parse expr).map pair).getD ("", "")

end MatrixContext

end PipelineParams
