import Stagehand.Files.Path

/-!
# File trees

A tree holds directories and files with their bytes, under places that are lists of names from the
root. A path is walked part by part: each place on the way has to be a directory. Operations give
the new tree, or the reason why the host refuses.

The names of a directory are kept in order, so that a listing walks every directory by name.

Of the permissions of a file only the one to run it is kept. Those to read and to write are left
out: a file that is there can be read, and it can be written.
-/

namespace Stagehand

/-! ## Reasons for refusal -/

/-- Why the host refuses an operation on a file. -/
inductive FileError where
  | missing
  | notDirectory
  | isDirectory
  | alreadyThere
  | denied
  | nameTooLong
  | badFormat
  | nulInName
  | notText
  | stated (message : String)
  deriving DecidableEq, Repr

/-- The host's wording, with its error number. -/
def FileError.message : FileError → String
  | missing => "No such file or directory (os error 2)"
  | notDirectory => "Not a directory (os error 20)"
  | isDirectory => "Is a directory (os error 21)"
  | alreadyThere => "File exists (os error 17)"
  | denied => "Permission denied (os error 13)"
  | nameTooLong => "File name too long (os error 36)"
  | badFormat => "Exec format error (os error 8)"
  | nulInName => "file name contained an unexpected NUL byte"
  | notText => "stream did not contain valid UTF-8"
  | stated message => message

/-! ## Trees -/

/-- What a place holds. -/
inductive FileEntry where
  | dir (members : List (String × FileEntry))
  | file (bytes : ByteArray) (executable : Bool)
  /-- Always empty; what is written to it is lost. -/
  | device

namespace FileEntry

/-- A directory with nothing in it. -/
def bareDir : FileEntry := .dir []

/-- What is below an entry, under some names. -/
def find? : FileEntry → List String → Option FileEntry
  | e, [] => some e
  | .dir members, name :: rest =>
    match members.lookup name with
    | some e => e.find? rest
    | none => none
  | _, _ :: _ => none

/-- Puts an entry under a name, over an older one. -/
def putMember (name : String) (e : FileEntry) :
    List (String × FileEntry) → List (String × FileEntry)
  | [] => [(name, e)]
  | x :: xs =>
    if name = x.1 then (name, e) :: xs
    else if name < x.1 then (name, e) :: x :: xs
    else x :: putMember name e xs

/-- Puts `new` below an entry, with the directories on the way. Nothing is put below a file. -/
def put (new : FileEntry) : List String → FileEntry → FileEntry
  | [], _ => new
  | name :: rest, .dir members =>
    .dir (putMember name (put new rest ((members.lookup name).getD bareDir)) members)
  | _ :: _, e => e

/-- Takes what is below an entry away. -/
def erase : List String → FileEntry → FileEntry
  | [name], .dir members => .dir (members.filter fun x => x.1 != name)
  | name :: rest, .dir members =>
    .dir (members.map fun x => if x.1 == name then (x.1, erase rest x.2) else x)
  | _, e => e

mutual

/-- An entry and all below it, in the order of a walk. -/
def walk (front : List String) : FileEntry → List (List String × FileEntry)
  | .dir members => (front, .dir members) :: walkMembers front members
  | e => [(front, e)]

/-- Members and all below them. -/
def walkMembers (front : List String) : List (String × FileEntry) → List (List String × FileEntry)
  | [] => []
  | (name, e) :: rest => walk (front ++ [name]) e ++ walkMembers front rest

end

end FileEntry

/-- A tree is what its root holds. -/
structure FileTree where
  members : List (String × FileEntry)

namespace FileTree

def empty : FileTree := ⟨[]⟩

instance : Inhabited FileTree := ⟨empty⟩

def root (t : FileTree) : FileEntry := .dir t.members

/-- The tree of a root. -/
def ofRoot : FileEntry → FileTree
  | .dir members => ⟨members⟩
  | _ => empty

def find? (t : FileTree) (place : List String) : Option FileEntry := t.root.find? place

def put (t : FileTree) (place : List String) (e : FileEntry) : FileTree :=
  ofRoot (FileEntry.put e place t.root)

def erase (t : FileTree) (place : List String) : FileTree := ofRoot (FileEntry.erase place t.root)

def namesIn (t : FileTree) (place : List String) : List String :=
  match t.find? place with
  | some (.dir members) => members.map (·.1)
  | _ => []

/-! ## Walking a path -/

/-- A place that has to be a directory. -/
def requireDir (t : FileTree) (place : List String) : Except FileError Unit :=
  match t.find? place with
  | some (.dir _) => .ok ()
  | some _ => .error .notDirectory
  | none => .error .missing

/-- The length of the longest name, in bytes. -/
def nameLimit : Nat := 255

/-- The first length that is too much for a path, in bytes. -/
def pathLimit : Nat := 4096

/-- Walks names from a place; each place that is left has to be a directory. -/
def walk (t : FileTree) : List String → List String → Except FileError (List String)
  | place, [] => .ok place
  | place, name :: rest => do
    t.requireDir place
    if nameLimit < name.utf8ByteSize then .error .nameTooLong
    else if name = "." then t.walk place rest
    else if name = ".." then t.walk place.dropLast rest
    else t.walk (place ++ [name]) rest

/-- Where a path starts, seen from a working directory. -/
def origin (cwd : List String) (path : String) : List String :=
  if Path.isAbsolute path then [] else cwd

/-- Refuses texts that are no paths. -/
def checkPath (path : String) : Except FileError Unit :=
  if path.toList.contains '\x00' then .error .nulInName
  else if pathLimit ≤ path.utf8ByteSize then .error .nameTooLong
  else .ok ()

/-- The place that the names of a path lead to, seen from a working directory. -/
def follow (t : FileTree) (cwd : List String) (path : String) : Except FileError (List String) := do
  checkPath path
  if path.isEmpty then .error .missing else t.walk (origin cwd path) (Path.parts path)

/-- The place of a path. A slash or a point at the end asks for a directory. -/
def locate (t : FileTree) (cwd : List String) (path : String) : Except FileError (List String) := do
  let place ← t.follow cwd path
  if Path.asksForDirectory path then
    t.requireDir place
    .ok place
  else .ok place

/-- The place of a path that is written to. A slash at the end names no file. -/
def locateToWrite (t : FileTree) (cwd : List String) (path : String) :
    Except FileError (List String) := do
  let _ ← t.follow cwd path
  if path.toList.getLast? == some '/' then .error .isDirectory else t.locate cwd path

/-- What a path leads to. -/
def lookup? (t : FileTree) (cwd : List String) (path : String) : Option FileEntry :=
  match t.locate cwd path with
  | .ok place => t.find? place
  | .error _ => none

def holds (t : FileTree) (cwd : List String) (path : String) : Bool := (t.lookup? cwd path).isSome

def isDir (t : FileTree) (cwd : List String) (path : String) : Bool :=
  match t.lookup? cwd path with
  | some (.dir _) => true
  | _ => false

def isFile (t : FileTree) (cwd : List String) (path : String) : Bool :=
  match t.lookup? cwd path with
  | some (.file _ _) => true
  | _ => false

/-- A file that may be run is at the path. -/
def isProgram (t : FileTree) (cwd : List String) (path : String) : Bool :=
  match t.lookup? cwd path with
  | some (.file _ executable) => executable
  | _ => false

/-! ## Operations -/

def readBytes (t : FileTree) (cwd : List String) (path : String) : Except FileError ByteArray := do
  match t.find? (← t.locate cwd path) with
  | some (.file bytes _) => .ok bytes
  | some .device => .ok ByteArray.empty
  | some (.dir _) => .error .isDirectory
  | none => .error .missing

def readText (t : FileTree) (cwd : List String) (path : String) : Except FileError String := do
  match String.fromUTF8? (← t.readBytes cwd path) with
  | some text => .ok text
  | none => .error .notText

/-- Puts bytes into a file at a place whose directory is there. A file that was there keeps its
permission to run. -/
def writeAt (t : FileTree) (place : List String) (bytes : ByteArray) :
    Except FileError FileTree :=
  match t.find? place with
  | some (.dir _) => .error .isDirectory
  | some (.file _ executable) => .ok (t.put place (.file bytes executable))
  | some .device => .ok t
  | none =>
    match t.requireDir place.dropLast with
    | .ok () => .ok (t.put place (.file bytes false))
    | .error e => .error e

/-- Writes the bytes of a file, which is made if it is not there. -/
def writeBytes (t : FileTree) (cwd : List String) (path : String) (bytes : ByteArray) :
    Except FileError FileTree := do
  t.writeAt (← t.locateToWrite cwd path) bytes

def writeText (t : FileTree) (cwd : List String) (path text : String) : Except FileError FileTree :=
  t.writeBytes cwd path text.toUTF8

/-- Makes the directories that names lead to from a directory. `making` tells that one was made
already: from then on a file in the way is told as a file that is there. The directories that were
made stay when a later one is refused. -/
def makeDirsAt (t : FileTree) (making : Bool) :
    List String → List String → Except FileError Unit × FileTree
  | _, [] => (.ok (), t)
  | place, name :: rest =>
    if nameLimit < name.utf8ByteSize then (.error .nameTooLong, t)
    else if name = "." then makeDirsAt t making place rest
    else if name = ".." then makeDirsAt t making place.dropLast rest
    else
      let place := place ++ [name]
      match t.find? place with
      | some (.dir _) => makeDirsAt t making place rest
      | some _ => (.error (if making || rest.isEmpty then .alreadyThere else .notDirectory), t)
      | none => makeDirsAt (t.put place .bareDir) true place rest

/-- Makes a directory and those on the way to it; those that are there stay. -/
def makeDirs (t : FileTree) (cwd : List String) (path : String) :
    Except FileError Unit × FileTree :=
  match checkPath path with
  | .ok () => t.makeDirsAt false (origin cwd path) (Path.parts path)
  | .error e => (.error e, t)

def removeFile (t : FileTree) (cwd : List String) (path : String) : Except FileError FileTree := do
  let place ← t.locate cwd path
  match t.find? place with
  | some (.dir _) => .error .isDirectory
  | some _ => .ok (t.erase place)
  | none => .error .missing

/-- Puts an entry at a path and makes the directories on the way to it. Where this cannot be done
the tree stays as it is. -/
def plant (t : FileTree) (cwd : List String) (path : String) (e : FileEntry) : FileTree :=
  match t.makeDirs cwd ((Path.parent? path).getD "") with
  | (.error _, _) => t
  | (.ok (), made) =>
    match made.walk (origin cwd path) (Path.parts path) with
    | .ok place => made.put place e
    | .error _ => t

/-! ## Listing -/

/-- The files and the bare directories below a place, in the order of a walk: names from that place
on, and the bytes of a file. -/
def listing (t : FileTree) (place : List String) : List (List String × Option ByteArray) :=
  match t.find? place with
  | some (.dir members) =>
    (FileEntry.walkMembers [] members).filterMap fun x =>
      match x.2 with
      | .file bytes _ => some (x.1, some bytes)
      | .dir [] => some (x.1, none)
      | _ => none
  | _ => []

end FileTree

end Stagehand
