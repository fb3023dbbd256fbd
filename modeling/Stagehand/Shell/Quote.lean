import Stagehand.Text.Search

/-!
# Quoting words for a shell

A word of plain characters stands for itself. Any other word is put between single quotes, where
every character stands for itself but the quote, which is written as: end the quotes, an escaped
quote, start quotes again.
-/

namespace Stagehand.Shell

/-- Characters that mean nothing to a shell. -/
def isPlain (c : Char) : Bool := c.isAlphanum || "-_./:=@,+%".toList.contains c

/-- A quote inside single quotes. -/
def escapedQuote : List Char := ['\'', '\\', '\'', '\'']

/-- A text with each quote written as it is inside single quotes. -/
def escapeQuotes (cs : List Char) : List Char :=
  cs.flatMap fun c => if c = '\'' then escapedQuote else [c]

/-- A word as a shell reads it back. -/
def quoteChars (cs : List Char) : List Char :=
  if !cs.isEmpty && cs.all isPlain then cs else '\'' :: (escapeQuotes cs ++ ['\''])

/-- A word as a shell reads it back, as a string. -/
def quote (word : String) : String := String.ofList (quoteChars word.toList)

/-- Quoted words with a space between them. -/
def quoteAll (words : List String) : String := Text.joinWith " " (words.map quote)

end Stagehand.Shell
