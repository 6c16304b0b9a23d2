import ChallengeForge.PythonText
import ChallengeForge.Sha256
import ChallengeForge.Utf8
import Mathlib.Data.List.DropRight

/-!
# The canonical document

`normalize_to_canonical`: unify the newlines, strip trailing blanks of each
line, drop the empty lines at both ends.  The offsets of the chunks are measured
against the text it returns.
-/

namespace ChallengeForge

/-- `PARSER_VERSION`. -/
def parserVersion : String := "cf-parse-2"

/-- What a document is taken for. -/
inductive ContentKind
  | markdown
  | code
  | prose
  | empty
  deriving DecidableEq, Repr

/-- The value of the enumeration. -/
def ContentKind.value : ContentKind → String
  | markdown => "markdown"
  | code => "code"
  | prose => "prose"
  | empty => "empty"

/-- Structure-preserving normalized artifact text. -/
structure CanonicalDocument where
  text : List Char
  kind : ContentKind
  parserVersion : String
  contentSha256 : String
  lineCount : Nat
  deriving DecidableEq

namespace CanonicalDocument

/-- `char_count`. -/
def charCount (doc : CanonicalDocument) : Nat := doc.text.length

end CanonicalDocument

/-- `hashlib.sha256(text.encode("utf-8")).hexdigest()`. -/
def sha (text : List Char) : String := Sha256.hexdigest (Utf8.encode text)

/-- A line that reads like code. -/
def isCodey (line : List Char) : Bool :=
  ["def ", "class ", "import ", "from ", "function ", "package "].any (startsWith line) ||
    endsWith (rstrip line) "\x7b" ||
    ["public ", "private ", "static "].any (startsWith (strip line))

/-- `_detect_kind(text)`: counts of headings, fences and lines like code decide. -/
def detectKind (text : List Char) : ContentKind :=
  if strip text = [] then .empty
  else
    let lines := splitLines text
    let headingHits := lines.countP (fun line => startsWith (lstrip line) "#")
    let fenceHits := lines.countP (fun line => startsWith (strip line) "```")
    let codey := lines.countP isCodey
    if fenceHits ≥ 1 ∨ headingHits ≥ 2 then .markdown
    else if codey ≥ 2 ∧ headingHits = 0 then .code
    else .prose

/-- `ln.rstrip(" \t")`. -/
def rstripBlanks (line : List Char) : List Char :=
  rstripWhile (fun c => c = ' ' || c = '\t') line

/-- Drop the empty lines at both ends. -/
def trimEmptyLines (lines : List (List Char)) : List (List Char) :=
  (lines.dropWhile List.isEmpty).rdropWhile List.isEmpty

/-- The lines of the canonical text. -/
def canonicalLines (rawText : List Char) : List (List Char) :=
  trimEmptyLines ((splitLines (replaceCr (replaceCrLf rawText))).map rstripBlanks)

/-- `normalize_to_canonical(raw_text)`. -/
def normalizeToCanonical (rawText : List Char) : CanonicalDocument :=
  let text := joinLines (canonicalLines rawText)
  { text := text
    kind := detectKind text
    parserVersion := parserVersion
    contentSha256 := sha text
    lineCount := if text = [] then 0 else text.count '\n' + 1 }

example : (normalizeToCanonical " \r\n# a \r  b\t\n\n".toList).text = "# a\n  b".toList := by
  decide

end ChallengeForge
