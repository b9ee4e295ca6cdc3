import PipelineParams.Text.Affix

/-! # Files

What reading a path can meet, as a pure function of the path.

* `FileEntry` is what stands at a place of the disk, `FileFault` why a path gives no text.
* `Disk` tells what every path leads to; `readFile` gives the text there.
* `Workspace` is a disk on which a log can be kept.
* `joinPath` puts two paths together.
-/

namespace PipelineParams

inductive FileFault where
  | notFound
  | notDirectory
  | isDirectory
  | notPermitted
  | nameTooLong
  | nulInPath
  | notText
  deriving DecidableEq

def FileFault.message : FileFault → String
  | .notFound => "No such file or directory (os error 2)"
  | .notDirectory => "Not a directory (os error 20)"
  | .isDirectory => "Is a directory (os error 21)"
  | .notPermitted => "Permission denied (os error 13)"
  | .nameTooLong => "File name too long (os error 36)"
  | .nulInPath => "file name contained an unexpected NUL byte"
  | .notText => "stream did not contain valid UTF-8"

inductive FileEntry where
  | directory
  /-- A file that must not be opened. -/
  | closed
  | binary
  | text (contents : String)
  deriving DecidableEq

abbrev Disk := String → Except FileFault FileEntry

def isFile (disk : Disk) (path : String) : Bool :=
  match disk path with
  | .ok .closed => true
  | .ok .binary => true
  | .ok (.text _) => true
  | _ => false

def readFile (disk : Disk) (path : String) : Except FileFault String :=
  match disk path with
  | .error fault => .error fault
  | .ok .directory => .error .isDirectory
  | .ok .closed => .error .notPermitted
  | .ok .binary => .error .notText
  | .ok (.text contents) => .ok contents

/-- A disk on which a log can be kept.  Keeping a log changes the disk: the directory for it is made,
and each directory on the way to it. -/
structure Workspace where
  disk : Disk
  /-- The disk once a log is kept in a directory, if that can be done. -/
  withLog? : String → Option Disk

/-! ## Paths -/

def joinPath (directory name : String) : String :=
  if directory = "" then name
  else if directory.toList.getLast? = some '/' then directory ++ name
  else directory ++ "/" ++ name

def pathParts (path : String) : List String := (Text.splitAt '/' path.toList).map String.ofList

def isAbsolute (path : String) : Bool := path.toList.head? = some '/'

/-- What is wrong with a path, whatever the disk holds: a NUL byte ends it early, an empty one leads
nowhere, and one of more than 4095 bytes is not looked up. -/
def pathFault? (path : String) : Option FileFault :=
  if path.toList.contains '\x00' then some .nulInPath
  else if path = "" then some .notFound
  else if 4095 < path.utf8ByteSize then some .nameTooLong
  else none

end PipelineParams
