import Stagehand.Text.Search

/-!
# Paths

A path is its text. Its parts are the names between slashes; empty parts count nowhere, and a single
point counts only where a relative path starts with it.
-/

namespace Stagehand.Path

def isAbsolute (p : String) : Bool := p.toList.head? == some '/'

/-- The names between the slashes of a path. -/
def parts (p : String) : List String :=
  let names := (Text.pieces (· == '/') p.toList).map String.ofList
  match names with
  | "." :: rest => "." :: rest.filter (fun n => n != "" && n != ".")
  | names => names.filter (fun n => n != "" && n != ".")

/-- The path of some parts. -/
def ofParts (absolute : Bool) (names : List String) : String :=
  (if absolute then "/" else "") ++ Text.joinWith "/" names

/-- The path has more than one part, where the root counts as one. -/
def isNested (p : String) : Bool := 1 < (parts p).length + (if isAbsolute p then 1 else 0)

/-- `q` seen from `p`: an absolute `q` stands for itself. -/
def join (p q : String) : String :=
  if isAbsolute q || p.isEmpty then q
  else if p.toList.getLast? == some '/' then p ++ q
  else p ++ "/" ++ q

/-- The path without its last part, if it has one. -/
def parent? (p : String) : Option String :=
  match (parts p).reverse with
  | [] => none
  | _ :: front => some (ofParts (isAbsolute p) front.reverse)

/-- The last part, unless it is the parent directory or the path has none. -/
def name? (p : String) : Option String :=
  match (parts p).getLast? with
  | none => none
  | some n => if n == ".." || n == "." then none else some n

/-- The path ends with a slash, or with a single point behind one. -/
def asksForDirectory (p : String) : Bool :=
  match p.toList.reverse with
  | '/' :: _ | '.' :: '/' :: _ => true
  | _ => false

/-- The path with one slash at its end. -/
def asDirectory (p : String) : String := if p.toList.getLast? == some '/' then p else p ++ "/"

end Stagehand.Path
