/-!
# Captured output

What a process prints is taken line by line. A line ends with a line feed, or with a carriage return
and a line feed; the last one may lack its end. Taking stops at the first line that is no text: that
line and all behind it are lost.

The captured text is the lines one below the other. A line feed is put in front of a line only if
there is some text already, so empty lines at the start leave no trace in it.
-/

namespace Stagehand.Live

/-! ## Lines -/

/-- Puts a byte in front of lines; a line feed starts a line of its own. -/
def consByte (b : UInt8) : List (List UInt8) → List (List UInt8)
  | [] => [[b]]
  | line :: rest => if b = 10 then [b] :: line :: rest else (b :: line) :: rest

/-- The lines of bytes, each with its end. -/
def rawLines (bytes : List UInt8) : List (List UInt8) := bytes.foldr consByte []

def isEnded (line : List UInt8) : Bool := line.getLast? == some 10

/-- A line without its end. -/
def dropEnd (line : List Char) : List Char :=
  match line.reverse with
  | '\n' :: '\r' :: rest => rest.reverse
  | '\n' :: rest => rest.reverse
  | _ => line

/-- The text of a line, if it is one. -/
def lineText? (line : List UInt8) : Option String :=
  (String.fromUTF8? ⟨line.toArray⟩).map fun s => String.ofList (dropEnd s.toList)

/-- The texts of lines, up to the first that is none. -/
def readable : List (List UInt8) → List String
  | [] => []
  | line :: rest =>
    match lineText? line with
    | some text => text :: readable rest
    | none => []

/-- The lines that are taken from the bytes of a process that has ended. -/
def lines (bytes : List UInt8) : List String := readable (rawLines bytes)

/-! ## The captured text -/

/-- A captured text with one more line. -/
def addLine (text line : String) : String :=
  if text.isEmpty then line else text ++ "\n" ++ line

def captured (lines : List String) : String := lines.foldl addLine ""

end Stagehand.Live
