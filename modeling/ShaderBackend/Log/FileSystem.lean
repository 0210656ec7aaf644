import ShaderBackend.OrderedMap
/-!
Files that are opened for writing by path. A path is followed name by name, from the root directory
if it begins with a slash and from the working directory otherwise. Every name but the last has to
lead to a directory; the last names the file, which is made if it is not there. A path whose last
part can only be a directory opens nothing, whether that directory exists or not.
-/
namespace ShaderBackend.Log

/-- A place in the tree of directories: the names on the way to it from the root. -/
abbrev Place := List String

/-- Why a path opens no file. -/
inductive OpenFailure where
  /-- A directory on the way is missing, or the path is empty. -/
  | notFound
  /-- A name on the way leads to a file. -/
  | notDirectory
  /-- The last name leads to a directory, or can lead to nothing else. -/
  | isDirectory
  /-- The directory takes no new files. -/
  | denied
  /-- A name or the path is longer than the system takes. -/
  | nameTooLong
  /-- The path holds the character zero. -/
  | zeroCharacter
  deriving DecidableEq, Repr

/-- The system's text, with its number for the failures that are the system's. -/
def OpenFailure.message : OpenFailure → String
  | notFound => "No such file or directory (os error 2)"
  | notDirectory => "Not a directory (os error 20)"
  | isDirectory => "Is a directory (os error 21)"
  | denied => "Permission denied (os error 13)"
  | nameTooLong => "File name too long (os error 36)"
  | zeroCharacter => "file name contained an unexpected NUL byte"

/-- The longest name in a directory, in bytes. -/
def longestName : Nat := 255

/-- The longest path, in bytes. -/
def longestPath : Nat := 4095

/-- Places of these names in one directory. -/
def placesIn (directory : Place) (names : List String) : List Place :=
  names.map fun name => directory ++ [name]

/-- The root directory and the standard ones below it. -/
def systemDirectories : List Place :=
  [] :: placesIn [] ["bin", "boot", "dev", "etc", "home", "lib", "lib64", "media", "mnt", "opt",
      "proc", "root", "run", "sbin", "srv", "sys", "tmp", "usr", "var"]
    ++ placesIn ["dev"] ["fd", "pts", "shm"] ++ placesIn ["proc"] ["1", "self", "sys"]
    ++ placesIn ["usr"] ["bin", "include", "lib", "local", "sbin", "share", "src"]
    ++ placesIn ["var"] ["cache", "lib", "local", "lock", "log", "mail", "opt", "run", "spool",
      "tmp"]

/-- Files that a system keeps for itself: devices, and who its users and its neighbours are. -/
def systemFiles : List Place :=
  placesIn ["dev"] ["full", "null", "random", "tty", "urandom", "zero"]
    ++ placesIn ["etc"] ["group", "hostname", "hosts", "passwd", "resolv.conf"]

/-- Directories whose files only the system makes, and what asking one of them for a file gives. -/
def closedDirectories : List (Place × OpenFailure) :=
  [(["proc"], .notFound), (["proc", "1"], .notFound), (["proc", "self"], .notFound),
    (["proc", "sys"], .notFound), (["dev", "fd"], .notFound), (["dev", "pts"], .denied),
    (["sys"], .denied)]

/-- Names between the slashes of a path, from a name whose characters so far are kept in reverse. -/
def namesFrom : List Char → List Char → List String
  | name, [] => if name.isEmpty then [] else [String.ofList name.reverse]
  | name, c :: rest =>
    if c = '/' then
      if name.isEmpty then namesFrom [] rest
      else String.ofList name.reverse :: namesFrom [] rest
    else namesFrom (c :: name) rest

/-- Names on a path. Slashes in a row count as one. -/
def pathNames (path : String) : List String := namesFrom [] path.toList

/-- The two names that every directory has: for itself and for the directory that holds it. -/
def isDots (name : String) : Bool := name = "." || name = ".."

/-- Files by place, and the directories that there are. -/
structure FileSystem where
  contents : OrderedMap Place String := {}
  directories : List Place := systemDirectories
  /-- All places on the way to it are directories too. -/
  workingDirectory : Place := []

namespace FileSystem

def isDirectory (files : FileSystem) (place : Place) : Bool :=
  place ∈ files.directories || place.isPrefixOf files.workingDirectory

def isFile (files : FileSystem) (place : Place) : Bool :=
  files.contents.contains place || place ∈ systemFiles

/-- From a directory to the directory of this name in it. The root holds itself. -/
def enter (files : FileSystem) (directory : Place) (name : String) : Except OpenFailure Place :=
  let next := directory ++ [name]
  if name = "." then .ok directory
  else if name = ".." then .ok directory.dropLast
  else if longestName < name.utf8ByteSize then .error .nameTooLong
  else if files.isDirectory next then .ok next
  else if files.isFile next then .error .notDirectory
  else .error .notFound

/-- The file of this name in a directory, there or to be made. -/
def fileIn (files : FileSystem) (directory : Place) (name : String) : Except OpenFailure Place :=
  let next := directory ++ [name]
  if isDots name then .error .isDirectory
  else if longestName < name.utf8ByteSize then .error .nameTooLong
  else if files.isDirectory next then .error .isDirectory
  else match closedDirectories.lookup directory with
    | some failure => .error failure
    | none => .ok next

/-- Where names lead from a directory. A closing slash after the last name asks for a directory. -/
def follow (files : FileSystem) (closed : Bool) : Place → List String → Except OpenFailure Place
  | _, [] => .error .isDirectory
  | directory, [name] => if closed then .error .isDirectory else files.fileIn directory name
  | directory, name :: next :: rest => do
    follow files closed (← files.enter directory name) (next :: rest)

/-- The place of the file that a path names. -/
def locate (files : FileSystem) (path : String) : Except OpenFailure Place :=
  let cs := path.toList
  if '\x00' ∈ cs then .error .zeroCharacter
  else if longestPath < path.utf8ByteSize then .error .nameTooLong
  else if cs.isEmpty then .error .notFound
  else files.follow (cs.getLast? = some '/')
    (if cs.head? = some '/' then [] else files.workingDirectory) (pathNames path)

/-- A closing slash never leads to a file. -/
theorem follow_closed (files : FileSystem) (directory place : Place) (names : List String) :
    files.follow true directory names ≠ .ok place := by
  induction names generalizing directory with
  | nil => simp [follow]
  | cons name rest ih =>
      cases rest with
      | nil => simp [follow]
      | cons next rest =>
          cases h : files.enter directory name with
          | error failure => simp [follow, h, bind, Except.bind]
          | ok entered => simpa [follow, h, bind, Except.bind] using ih entered

/-- Makes an empty file, or empties the one that is there. -/
def create (files : FileSystem) (path : String) : Except OpenFailure (Place × FileSystem) := do
  let place ← files.locate path
  return (place, { files with contents := files.contents.insert place "" })

def append (files : FileSystem) (place : Place) (text : String) : FileSystem :=
  let kept := (files.contents.get? place).getD ""
  { files with contents := files.contents.insert place (kept ++ text) }

end FileSystem
end ShaderBackend.Log
