import PipelineParams.Disk

/-! # Trees of files

A small disk that is known entry by entry.

* `Place` is a place on it, `FileTree` the entries at places.
* `FileTree.resolve` walks a path to a place; `FileTree.disk` looks up what stands there.
* `FileTree.makeDirectories` makes the directories on a path that are missing.
* `FileTree.workspace` is the tree as a disk on which a log can be kept.
-/

namespace PipelineParams

inductive PlaceOrigin where
  | root
  /-- The directory that many steps above the working directory. -/
  | above (steps : Nat)
  deriving DecidableEq

/-- A place on the disk: the names on the way down from its origin. -/
structure Place where
  origin : PlaceOrigin
  names : List String
  deriving DecidableEq

namespace Place

def working : Place := ⟨.above 0, []⟩

def start (path : String) : Place := if isAbsolute path then ⟨.root, []⟩ else working

def child (p : Place) (name : String) : Place := { p with names := p.names ++ [name] }

/-- The directory around a place.  Around the root is the root itself. -/
def parent (p : Place) : Place :=
  match p.names, p.origin with
  | [], .root => p
  -- the names above the working directory are not known
  | [], .above steps => ⟨.above (steps + 1), []⟩
  | names, origin => ⟨origin, names.dropLast⟩

def isWithin (p q : Place) : Bool := p.origin = q.origin && q.names.isPrefixOf p.names

end Place

/-- The entries of a tree.  A directory need not be listed if something below it is. -/
structure FileTree where
  entries : List (Place × FileEntry)

namespace FileTree

def ofFiles (files : List (String × FileEntry)) : FileTree where
  entries := files.map fun (path, entry) =>
    (⟨.above 0, (pathParts path).filter fun part => part ≠ "" && part ≠ "."⟩, entry)

/-- What stands at a place.  The origins are directories, and so is what has something below it. -/
def at? (t : FileTree) (p : Place) : Option FileEntry :=
  match t.entries.lookup p with
  | some entry => some entry
  | none =>
    if p.names = [] ∨ t.entries.any (fun e => e.1.isWithin p) then some .directory else none

/-- The place that one part of a path leads to from another.  Only a directory leads on, and a name has
at most 255 bytes. -/
def step (t : FileTree) (p : Place) (part : String) : Except FileFault Place :=
  match t.at? p with
  | none => .error .notFound
  | some .directory =>
    if part = "" ∨ part = "." then .ok p
    else if part = ".." then .ok p.parent
    else if 255 < part.utf8ByteSize then .error .nameTooLong
    else .ok (p.child part)
  | some _ => .error .notDirectory

def resolve (t : FileTree) (path : String) : Except FileFault Place :=
  (pathParts path).foldlM t.step (Place.start path)

def disk (t : FileTree) : Disk := fun path =>
  match pathFault? path with
  | some fault => .error fault
  | none =>
    match t.resolve path with
    | .error fault => .error fault
    | .ok p =>
      match t.at? p with
      | none => .error .notFound
      | some entry => .ok entry

/-- Goes one part of a path further and makes a directory there if there is nothing. -/
def stepMaking (here : FileTree × Place) (part : String) : Except FileFault (FileTree × Place) :=
  match here.1.step here.2 part with
  | .error fault => .error fault
  | .ok p =>
    match here.1.at? p with
    | some _ => .ok (here.1, p)
    | none => .ok (⟨(p, .directory) :: here.1.entries⟩, p)

def makeDirectories (t : FileTree) (path : String) : Except FileFault FileTree :=
  match (pathParts path).foldlM stepMaking (t, Place.start path) with
  | .error fault => .error fault
  | .ok (u, p) => if u.at? p = some .directory then .ok u else .error .notDirectory

/-- The tree with a directory in which a file of the given name can be opened, if there can be one. -/
def withDirectoryFor? (t : FileTree) (directory name : String) : Option FileTree :=
  match t.makeDirectories directory with
  | .error _ => none
  | .ok u =>
    -- the log of the day may be there already, but it must be a file that can be opened
    match u.disk (joinPath directory name) with
    | .error .notFound => some u
    | .error _ => none
    | .ok .directory => none
    | .ok .closed => none
    | .ok _ => some u

def workspace (t : FileTree) (logName : String) : Workspace where
  disk := t.disk
  withLog? directory := (t.withDirectoryFor? directory logName).map disk

end FileTree

end PipelineParams
