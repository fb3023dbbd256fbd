import Stagehand.Text.Blank

/-!
# Finding and replacing text

`contains` looks for a text inside another, `replaceAll` replaces every occurrence, from left to
right and without overlaps, and `stripLeading?` takes a known beginning off.
-/

namespace Stagehand.Text

def startsWith (pat cs : List Char) : Bool := pat.isPrefixOf cs

def occursIn (pat : List Char) : List Char → Bool
  | [] => pat.isEmpty
  | c :: rest => startsWith pat (c :: rest) || occursIn pat rest

/-- `pat` occurs somewhere in `s`. -/
def contains (s pat : String) : Bool := occursIn pat.toList s.toList

/-- Replaces `pat` by `new`; the first argument counts the characters of an occurrence that are
still to be passed over. An empty `pat` is replaced nowhere but in front of each character. -/
def replaceFrom (pat new : List Char) : Nat → List Char → List Char
  | _, [] => []
  | k + 1, _ :: rest => replaceFrom pat new k rest
  | 0, c :: rest =>
    if startsWith pat (c :: rest) then new ++ replaceFrom pat new (pat.length - 1) rest
    else c :: replaceFrom pat new 0 rest

/-- Replaces every occurrence of `pat`, left to right. -/
def replaceAll (pat new cs : List Char) : List Char := replaceFrom pat new 0 cs

/-- The text after `pat`, if it starts with it. -/
def stripLeading? (pat : List Char) : List Char → Option (List Char) :=
  fun cs => if startsWith pat cs then some (cs.drop pat.length) else none

/-- The rest of `s` after `pat`, if `s` starts with it. -/
def rest? (s pat : String) : Option String :=
  (stripLeading? pat.toList s.toList).map String.ofList

/-- The parts before and after the last `sep`, if there is one. -/
def splitLast? (sep : Char) (s : String) : Option (String × String) :=
  let back := s.toList.reverse
  match back.dropWhile (· != sep) with
  | [] => none
  | _ :: front =>
    some (String.ofList front.reverse, String.ofList (back.takeWhile (· != sep)).reverse)

/-- The parts before and after the first `sep`, if there is one. -/
def splitFirst? (sep : Char) (s : String) : Option (String × String) :=
  match s.toList.dropWhile (· != sep) with
  | [] => none
  | _ :: back => some (String.ofList (s.toList.takeWhile (· != sep)), String.ofList back)

/-- The strings with `sep` between them. -/
def joinWith (sep : String) (ws : List String) : String := sep.intercalate ws

end Stagehand.Text
