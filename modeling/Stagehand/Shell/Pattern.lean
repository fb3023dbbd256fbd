/-!
# Patterns

A pattern matches texts: a star matches any text, a question mark any character, and brackets one
character out of a set. Quoted characters match only themselves.
-/

namespace Stagehand.Shell

/-- A character of a pattern; a quoted one matches itself. -/
structure PatternChar where
  char : Char
  quoted : Bool
  deriving DecidableEq, Repr

abbrev Pattern := List PatternChar

/-- A pattern of quoted characters. -/
def Pattern.literal (cs : List Char) : Pattern := cs.map (⟨·, true⟩)

def Pattern.text (p : Pattern) : List Char := p.map (·.char)

/-- A set of characters between brackets. -/
structure BracketSet where
  excluded : Bool
  ranges : List (Char × Char)
  classes : List String
  /-- How many characters of the pattern it takes, without its opening bracket. -/
  size : Nat

/-- Named classes of characters. -/
def inClass (name : String) (c : Char) : Bool :=
  match name with
  | "alpha" => c.isAlpha
  | "digit" => c.isDigit
  | "alnum" => c.isAlphanum
  | "upper" => c.isUpper
  | "lower" => c.isLower
  | "space" => " \t\n\r\x0b\x0c".toList.contains c
  | "blank" => c == ' ' || c == '\t'
  | "xdigit" => c.isDigit || ('a' ≤ c && c ≤ 'f') || ('A' ≤ c && c ≤ 'F')
  | "punct" => 33 ≤ c.toNat && c.toNat ≤ 126 && !c.isAlphanum
  | "print" => 32 ≤ c.toNat && c.toNat ≤ 126
  | "graph" => 33 ≤ c.toNat && c.toNat ≤ 126
  | "cntrl" => c.toNat < 32 || c.toNat == 127
  | _ => false

def BracketSet.has (s : BracketSet) (c : Char) : Bool :=
  (s.ranges.any (fun r => r.1 ≤ c && c ≤ r.2) || s.classes.any (inClass · c)) != s.excluded

/-- Reads the members of a set up to its closing bracket. -/
def readMembers : Nat → Bool → BracketSet → Pattern → Option BracketSet
  | 0, _, _, _ => none
  | fuel + 1, first, s, p =>
    match p with
    | [] => none
    | ⟨']', false⟩ :: rest =>
      if first then
        readMembers fuel false
          { s with ranges := (']', ']') :: s.ranges, size := s.size + 1 } rest
      else some { s with size := s.size + 1 }
    | ⟨'[', false⟩ :: ⟨':', _⟩ :: rest =>
      let name := (rest.map (·.char)).takeWhile Char.isAlpha
      match rest.drop name.length with
      | ⟨':', _⟩ :: ⟨']', _⟩ :: rest =>
        readMembers fuel false
          { s with
            classes := String.ofList name :: s.classes
            size := s.size + name.length + 4 } rest
      | _ =>
        readMembers fuel false { s with ranges := ('[', '[') :: s.ranges, size := s.size + 1 }
          (⟨':', false⟩ :: rest)
    | ⟨a, _⟩ :: ⟨'-', false⟩ :: ⟨b, q⟩ :: rest =>
      if b == ']' && !q then
        readMembers fuel false { s with ranges := (a, a) :: s.ranges, size := s.size + 1 }
          (⟨'-', false⟩ :: ⟨b, q⟩ :: rest)
      else readMembers fuel false { s with ranges := (a, b) :: s.ranges, size := s.size + 3 } rest
    | ⟨a, _⟩ :: rest =>
      readMembers fuel false { s with ranges := (a, a) :: s.ranges, size := s.size + 1 } rest

/-- Reads a set from behind its opening bracket. -/
def readSet (p : Pattern) : Option BracketSet :=
  match p with
  | ⟨'!', false⟩ :: rest | ⟨'^', false⟩ :: rest =>
    readMembers (rest.length + 1) true ⟨true, [], [], 1⟩ rest
  | _ => readMembers (p.length + 1) true ⟨false, [], [], 0⟩ p

namespace Pattern

def matchesText (p : Pattern) (cs : List Char) : Bool :=
  match p with
  | [] => cs.isEmpty
  | ⟨c, quoted⟩ :: rest =>
    if quoted then
      match cs with
      | x :: cs => x == c && matchesText rest cs
      | [] => false
    else if c == '*' then
      matchesText rest cs ||
        (match cs with
          | _ :: cs => matchesText (⟨c, quoted⟩ :: rest) cs
          | [] => false)
    else
      match cs with
      | [] => false
      | x :: cs =>
        if c == '?' then matchesText rest cs
        else if c == '[' then
          match readSet rest with
          | some s => s.has x && matchesText (rest.drop s.size) cs
          | none => x == c && matchesText rest cs
        else x == c && matchesText rest cs
termination_by p.length + cs.length
decreasing_by all_goals simp_wf; try omega

/-- Some character of the pattern may match other characters. -/
def isOpen (p : Pattern) : Bool := p.any fun c => !c.quoted && "*?[".toList.contains c.char

/-- The text without the shortest or longest start that the pattern matches. -/
def dropStart (p : Pattern) (longest : Bool) (cs : List Char) : List Char :=
  let sizes := List.range (cs.length + 1)
  let sizes := if longest then sizes.reverse else sizes
  match sizes.find? fun n => p.matchesText (cs.take n) with
  | some n => cs.drop n
  | none => cs

/-- The text without the shortest or longest end that the pattern matches. -/
def dropEnd (p : Pattern) (longest : Bool) (cs : List Char) : List Char :=
  let sizes := List.range (cs.length + 1)
  let sizes := if longest then sizes else sizes.reverse
  match sizes.find? fun n => p.matchesText (cs.drop n) with
  | some n => cs.take n
  | none => cs

end Pattern

end Stagehand.Shell
