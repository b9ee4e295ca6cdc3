/-! # Readers

A `Reader` takes a value off the front of a text and hands back what is left.  That what is left is
shorter is part of the reader, so a loop that reads one item after another ends.

* `Reader.run` reads.
* `Reader.map` acts on the value read.
-/

namespace PipelineParams

/-- Reads an `α` off the front of a text, or fails with an `ε`. -/
structure Reader (ε α : Type) where
  /-- The value read, with what is left of the text. -/
  run : List Char → Except ε (α × List Char)
  /-- A value takes at least one character. -/
  shorter : ∀ {cs : List Char} {a : α} {rest : List Char},
    run cs = .ok (a, rest) → rest.length < cs.length

namespace Reader

variable {ε α β : Type}

def map (f : α → β) (r : Reader ε α) : Reader ε β where
  run cs :=
    match r.run cs with
    | .error e => .error e
    | .ok (a, rest) => .ok (f a, rest)
  shorter := by
    intro cs b rest h
    split at h
    · cases h
    next a rest' eq =>
      cases h
      exact r.shorter eq

end Reader

end PipelineParams
