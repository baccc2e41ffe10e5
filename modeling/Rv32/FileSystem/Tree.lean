import Rv32.FileSystem.Error
import Rv32.Word

/-!
# File trees

The part of a file system that programs see: a tree of directories with a
working directory in it, in which paths lead to files. A path is followed name
by name, and the first name that leads nowhere decides how it fails.
-/

namespace Rv32

/-- Where a text goes that is written to a file: to the file itself if it has contents. -/
inductive TextTarget where
  | file
  | output
  | errorOutput
  deriving DecidableEq, Repr

/-- A file without contents of its own. A terminal cannot be used by a program without one. -/
inductive FileDevice where
  | null
  | full
  | terminal
  | stream (target : TextTarget)
  deriving DecidableEq, Repr

inductive FileNode where
  | file (content : Array Byte)
  | directory (entries : List (String × FileNode))
  | device (d : FileDevice)

/-- A node that a path leads to, and the directories around it from the inside out. -/
structure FilePlace where
  node : FileNode
  parents : List FileNode

/-- Directories and files, and the directory from which paths start. -/
structure FileTree where
  root : FileNode
  working : FilePlace

namespace FilePlace

def nameLimit : Nat := 255

/-- The place around a place. The root is in itself. -/
def outer (p : FilePlace) : FilePlace :=
  match p.parents with
  | [] => p
  | node :: parents => { node := node, parents := parents }

def enter (p : FilePlace) (name : String) : Except FileError FilePlace :=
  match p.node with
  | .directory entries =>
      if name = "." then .ok p
      else if name = ".." then .ok p.outer
      else if nameLimit < name.utf8ByteSize then .error .nameTooLong
      else
        match entries.lookup name with
        | some node => .ok { node := node, parents := p.node :: p.parents }
        | none => .error .notFound
  | _ => .error .notDirectory

/-- The place to which the names lead one after the other. -/
def follow (p : FilePlace) : List String → Except FileError FilePlace
  | [] => .ok p
  | name :: rest => do (← p.enter name).follow rest

end FilePlace

namespace FileTree

def pathLimit : Nat := 4095

def names (path : String) : List String :=
  (path.splitOn "/").map fun name => if name = "" then "." else name

def start (t : FileTree) (path : String) : FilePlace :=
  if path.startsWith "/" then { node := t.root, parents := [] } else t.working

def checkPath (path : String) : Except FileError Unit :=
  if pathLimit < path.utf8ByteSize then .error .nameTooLong
  else if path = "" then .error .notFound
  else .ok ()

def read (t : FileTree) (path : String) : Except FileError (Array Byte) := do
  checkPath path
  match (← (t.start path).follow (names path)).node with
  | .file content => return content
  | .directory _ => throw .isDirectory
  | .device .terminal => throw .noDevice
  | .device _ => return #[]

/-- The last name in a path, where a slash behind it does not count. -/
def lastName (path : String) : String :=
  ((path.splitOn "/").filter (· ≠ "")).getLast?.getD "."

/-- The names in front of the last one. -/
def outerNames (path : String) : List String :=
  ((path.splitOn "/").filter (· ≠ "")).dropLast

def targetIn (text : String) : FileNode → Except FileError TextTarget
  | .file _ => .ok .file
  | .directory _ => .error .isDirectory
  | .device .null => .ok .file
  | .device .full => if text = "" then .ok .file else .error .storageFull
  | .device .terminal => .error .noDevice
  | .device (.stream target) => .ok target

/--
Where a text goes that is written to the file at a path. The file need not be
there, but the directory that it is in has to be.
-/
def target (t : FileTree) (path text : String) : Except FileError TextTarget := do
  checkPath path
  let outer ← (← (t.start path).follow (outerNames path)).enter "."
  if path.endsWith "/" then throw .isDirectory
  match outer.enter (lastName path) with
  | .ok place => targetIn text place.node
  | .error .notFound => return .file
  | .error e => throw e

/-! ## A fresh system -/

/-- Directories without entries that matter. -/
def emptyDirectories (names : List String) : List (String × FileNode) :=
  names.map fun name => (name, .directory [])

def streams (input output errors : String) : List (String × FileNode) :=
  [(input, .device .null), (output, .device (.stream .output)),
   (errors, .device (.stream .errorOutput))]

def devices : List (String × FileNode) :=
  ["null", "zero", "random", "urandom"].map (fun name => (name, .device .null)) ++
    [("full", .device .full), ("tty", .device .terminal)] ++
    streams "stdin" "stdout" "stderr" ++
    [("fd", .directory (streams "0" "1" "2"))] ++
    emptyDirectories ["mqueue", "pts", "shm"]

/-- The directories at the root of a system. -/
def standardEntries : List (String × FileNode) :=
  [("dev", .directory devices),
   ("proc", .directory [("self", .directory [("fd", .directory (streams "0" "1" "2"))])]),
   ("usr", .directory (emptyDirectories ["bin", "include", "lib", "local", "sbin", "share"])),
   ("var", .directory (emptyDirectories ["cache", "lib", "log", "tmp"]))] ++
    emptyDirectories
      ["bin", "boot", "etc", "home", "lib", "media", "mnt", "opt", "root", "run", "sbin", "srv",
       "sys", "tmp"]

/--
A system with an empty working directory, and at its root one more directory of
the given name with the given files.
-/
def ofFiles (directory : String) (files : List (String × Array Byte)) : FileTree :=
  let added := FileNode.directory (files.map fun (name, content) => (name, .file content))
  let root := FileNode.directory ((directory, added) :: standardEntries)
  { root := root
    working := { node := .directory [], parents := [root] } }

end FileTree

end Rv32
