import PipelineParams.SortedMap.Basic

/-! # Replacement contexts

A `ReplacementContext` says what references stand for.  It has a map of texts, a map of arrays and a
map of objects; one key may be in several of them.

* `empty`, `withString`, `withArray` and `withObject` build a context.
* `merge` lays one context over another, key by key in each map.
-/

namespace PipelineParams

/-- What references stand for. -/
structure ReplacementContext where
  /-- Texts, which replace references inside a text. -/
  strings : SortedMap String := SortedMap.empty
  /-- Arrays, which replace a whole text or a whole item. -/
  arrays : SortedMap (List String) := SortedMap.empty
  /-- Objects, which replace a whole text. -/
  objects : SortedMap (SortedMap String) := SortedMap.empty
  deriving DecidableEq

namespace ReplacementContext

def empty : ReplacementContext := {}

instance : Inhabited ReplacementContext := ⟨empty⟩

def withString (c : ReplacementContext) (key value : String) : ReplacementContext :=
  { c with strings := c.strings.insert key value }

def withArray (c : ReplacementContext) (key : String) (items : List String) : ReplacementContext :=
  { c with arrays := c.arrays.insert key items }

def withObject (c : ReplacementContext) (key : String) (fields : SortedMap String) :
    ReplacementContext :=
  { c with objects := c.objects.insert key fields }

/-- Lays `d` over `c`: in each map a key of `d` has its value there. -/
def merge (c d : ReplacementContext) : ReplacementContext where
  strings := c.strings.merge d.strings
  arrays := c.arrays.merge d.arrays
  objects := c.objects.merge d.objects

def isEmpty (c : ReplacementContext) : Bool :=
  c.strings.isEmpty && c.arrays.isEmpty && c.objects.isEmpty

end ReplacementContext

end PipelineParams
