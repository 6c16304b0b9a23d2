import ChallengeForge.CanonicalText

/-!
# Chunking

`chunk_hybrid`, over canonical documents.  The text is cut into logical units
(fences, headings, lists, paragraphs; blocks of lines in code), units that are
too long are split, neighbours are packed while they fit, and each group becomes
one chunk.

Offsets count code points.  The loop of `_unitize_structured` runs on fuel, as
many turns as there are lines, which is what it can take at most.
-/

namespace ChallengeForge

/-- `CHUNKER_VERSION`. -/
def chunkerVersion : String := "cf-chunk-hybrid-1"

/-- What a unit is. -/
inductive BlockType
  | heading
  | paragraph
  | codeFence
  | code
  | list
  | hardSplit
  | mixed
  deriving DecidableEq, Repr

/-- The name of a block type in the rows. -/
def BlockType.value : BlockType → String
  | heading => "heading"
  | paragraph => "paragraph"
  | codeFence => "code_fence"
  | code => "code"
  | list => "list"
  | hardSplit => "hard_split"
  | mixed => "mixed"

/-- A block of lines with its place and its open headings. -/
structure LogicalUnit where
  text : List Char
  charStart : Nat
  charEnd : Nat
  lineStart : Nat
  lineEnd : Nat
  blockType : BlockType
  headingPath : List (List Char)
  deriving DecidableEq

/-- A chunk before it has a row. -/
structure ChunkDraft where
  ordinal : Nat
  content : List Char
  contentSha256 : String
  charStart : Nat
  charEnd : Nat
  lineStart : Nat
  lineEnd : Nat
  blockType : String
  headingPath : List (List Char)
  oversizedSplit : Bool
  deriving DecidableEq

/-! ## Lines and their offsets -/

/-- Index 0 unused; index L is the offset where line L begins. -/
def lineStarts (text : List Char) : List Nat :=
  [0, 0] ++ (text.zipIdx.filter (fun chi => chi.1 = '\n' ∧ chi.2 + 1 < text.length)).map
    (fun chi => chi.2 + 1)

/-- The binary search of `_line_of`. -/
def lineSearch (starts : List Nat) (offset : Nat) : Nat → Nat → Nat → Nat → Nat
  | 0, _, _, ans => ans
  | fuel + 1, lo, hi, ans =>
      if lo ≤ hi then
        let mid := (lo + hi) / 2
        if starts.getD mid 0 ≤ offset then lineSearch starts offset fuel (mid + 1) hi mid
        else lineSearch starts offset fuel lo (mid - 1) ans
      else ans

/-- `_line_of`; every offset the chunker asks about is at least 0. -/
def lineOf (starts : List Nat) (offset : Nat) : Nat :=
  lineSearch starts offset starts.length 1 (starts.length - 1) 1

/-- Offsets and text of the lines `[line0, line1)`, counted from 0. -/
def span (text : List Char) (starts : List Nat) (line0 line1 : Nat) : Nat × Nat × List Char :=
  if text = [] ∨ line0 ≥ line1 then (0, 0, [])
  else
    let cs := starts.getD (line0 + 1) 0
    let ce :=
      if line1 + 1 < starts.length then
        let ce := starts.getD (line1 + 1) 0
        if ce > cs ∧ text[ce - 1]? = some '\n' then ce - 1 else ce
      else text.length
    (cs, ce, slice text cs ce)

/-! ## Splitting what is too long -/

/-- Where to cut a window of `maxChars` characters: after its last newline, else
after its last space, unless these come too early. -/
def windowCut (window : List Char) (maxChars : Nat) : Nat :=
  let cut := rfind window '\n'
  let cut := if cut < (maxChars / 4 : Nat) then rfind window ' ' else cut
  if cut < (maxChars / 4 : Nat) then maxChars else (cut + 1).toNat

/-- The loop of `_split_oversized`, from position `pos` of the unit. -/
def splitFrom (unit : LogicalUnit) (maxChars : Nat) : Nat → Nat → List LogicalUnit
  | 0, _ => []
  | fuel + 1, pos =>
      if pos < unit.text.length then
        let remaining := unit.text.length - pos
        let cut :=
          if remaining ≤ maxChars then remaining
          else windowCut (slice unit.text pos (pos + maxChars)) maxChars
        let piece := slice unit.text pos (pos + cut)
        if piece = [] then []
        else
          { unit with
            text := piece
            charStart := unit.charStart + pos
            charEnd := unit.charStart + pos + piece.length
            blockType := .hardSplit } :: splitFrom unit maxChars fuel (pos + cut)
      else []

/-- `_split_oversized(unit, max_chars)`. -/
def splitOversized (unit : LogicalUnit) (maxChars : Nat) : List LogicalUnit :=
  if unit.text.length ≤ maxChars then [unit]
  else splitFrom unit maxChars unit.text.length 0

/-! ## Logical units -/

/-- `_HEADING_RE.match(line)`: the level and the text of the heading. -/
def matchHeading (line : List Char) : Option (Nat × List Char) :=
  let level := (line.takeWhile (fun c => c = '#')).length
  let rest := line.dropWhile (fun c => c = '#')
  let gap := rest.takeWhile isSpace
  let body := rest.dropWhile isSpace
  if level = 0 ∨ level > 6 ∨ gap = [] then none
  else if body ≠ [] then some (level, body)
  -- `\s+` gives its last character to `.+` when nothing else is left
  else if gap.length ≥ 2 then some (level, gap.drop (gap.length - 1))
  else none

/-- `_LIST_RE.match(line)`. -/
def matchesList (line : List Char) : Bool :=
  let marker := line.dropWhile isSpace
  match marker with
  | [] => false
  | c :: rest =>
      if c = '-' ∨ c = '*' ∨ c = '+' then rest.head?.any isSpace
      else match marker.dropWhile isDecimal with
        | '.' :: rest => isDecimal c && rest.head?.any isSpace
        | _ => false

/-- The line opens or closes a fence. -/
def isFence (line : List Char) : Bool := startsWith line "```"

/-- The open headings with their levels. -/
abbrev HeadingStack := List (Nat × List Char)

/-- Their titles. -/
def HeadingStack.path (stack : HeadingStack) : List (List Char) := stack.map Prod.snd

/-- A heading closes the sections of its level and below, and opens its own. -/
def HeadingStack.enter (stack : HeadingStack) (level : Nat) (title : List Char) : HeadingStack :=
  stack.rdropWhile (fun heading => decide (heading.1 ≥ level)) ++ [(level, title)]

/-- `while j < n and p(lines[j]): j += 1`. -/
def scanWhile (lines : List (List Char)) (p : List Char → Bool) (j : Nat) : Nat :=
  j + ((lines.drop j).takeWhile p).length

/-- A block goes on at this line. -/
def blockGoesOn (codeMode isList : Bool) (line : List Char) : Bool :=
  strip line ≠ [] &&
    (codeMode ||
      !(isFence line || (matchHeading line).isSome) &&
        (if isList then matchesList line || startsWith line " " || startsWith line "\t"
          else !matchesList line))

/-- The unit of the lines `[i, j)`. -/
def unitOfLines (text : List Char) (blockType : BlockType) (i j : Nat) (stack : HeadingStack) :
    LogicalUnit :=
  let spanned := span text (lineStarts text) i j
  { text := spanned.2.2
    charStart := spanned.1
    charEnd := spanned.2.1
    lineStart := i + 1
    lineEnd := j
    blockType := blockType
    headingPath := stack.path }

/-- `if body.strip(): units.append(…)`. -/
def LogicalUnit.unlessBlank (unit : LogicalUnit) : List LogicalUnit :=
  if strip unit.text ≠ [] then [unit] else []

/-- One turn of the loop of `_unitize_structured`, at line `i`: the units it
appends, the line it goes on at, and the heading stack. -/
def unitizeStep (text : List Char) (codeMode : Bool) (i : Nat) (stack : HeadingStack) :
    List LogicalUnit × Nat × HeadingStack :=
  let lines := splitLines text
  let line := lines.getD i []
  if !codeMode && isFence line then
    let j := scanWhile lines (fun other => !isFence other) (i + 1)
    let j := if j < lines.length then j + 1 else j
    ((unitOfLines text .codeFence i j stack).unlessBlank, j, stack)
  else
    match if codeMode then none else matchHeading line with
    | some (level, group) =>
        let stack := stack.enter level (strip group)
        ([unitOfLines text .heading i (i + 1) stack], i + 1, stack)
    | none =>
        if strip line = [] then ([], i + 1, stack)
        else
          let isList := !codeMode && matchesList line
          let j := scanWhile lines (blockGoesOn codeMode isList) i
          let blockType := if codeMode then .code else if isList then .list else .paragraph
          ((unitOfLines text blockType i j stack).unlessBlank, j, stack)

/-- The loop of `_unitize_structured`, from line `i`. -/
def unitizeFrom (text : List Char) (codeMode : Bool) :
    Nat → Nat → HeadingStack → List LogicalUnit
  | 0, _, _ => []
  | fuel + 1, i, stack =>
      if i < (splitLines text).length then
        let turn := unitizeStep text codeMode i stack
        turn.1 ++ unitizeFrom text codeMode fuel turn.2.1 turn.2.2
      else []

/-- `_unitize_structured(text, code_mode)`. -/
def unitizeStructured (text : List Char) (codeMode : Bool) : List LogicalUnit :=
  if text = [] then []
  else unitizeFrom text codeMode (splitLines text).length 0 []

/-- `unitize(doc)`. -/
def unitize (doc : CanonicalDocument) : List LogicalUnit :=
  if doc.kind = .empty ∨ strip doc.text = [] then []
  else unitizeStructured doc.text (doc.kind = .code)

/-! ## Packing units into chunks -/

/-- The lines of the span `[charStart, charEnd)`. -/
def spanLines (text : List Char) (charStart charEnd : Nat) : Nat × Nat :=
  if text = [] then (1, 1)
  else (lineOf (lineStarts text) charStart,
    lineOf (lineStarts text) (max charStart (charEnd - 1)))

/-- The lines of every unit, computed from its span. -/
def fixLines (text : List Char) (units : List LogicalUnit) : List LogicalUnit :=
  units.map (fun unit =>
    { unit with
      lineStart := (spanLines text unit.charStart unit.charEnd).1
      lineEnd := (spanLines text unit.charStart unit.charEnd).2 })

/-- The loop that puts `doc.text[u.char_start:u.char_end]` where a unit differs. -/
def repair (text : List Char) (units : List LogicalUnit) : List LogicalUnit :=
  units.map (fun unit =>
    let expected := slice text unit.charStart unit.charEnd
    if expected ≠ unit.text then { unit with text := expected } else unit)

/-- The groups flushed so far, and the current one. -/
structure Packing where
  groups : List (List LogicalUnit)
  current : List LogicalUnit

namespace Packing

/-- The groups, with the one that is being filled. -/
def flush (packing : Packing) : List (List LogicalUnit) :=
  if packing.current = [] then packing.groups else packing.groups ++ [packing.current]

/-- One turn of the loop of `_pack`. -/
def add (maxChars : Nat) (packing : Packing) (unit : LogicalUnit) : Packing :=
  match packing.current with
  | [] => { packing with current := [unit] }
  | first :: rest =>
      let last := (first :: rest).getLast (List.cons_ne_nil first rest)
      if (unit.charEnd : Int) - first.charStart ≤ maxChars ∧ unit.charStart ≥ last.charStart then
        { packing with current := packing.current ++ [unit] }
      else { groups := packing.flush, current := [unit] }

end Packing

/-- Pack contiguous units so each group maps to `text[start:end]` exactly. -/
def pack (units : List LogicalUnit) (maxChars : Nat) : List (List LogicalUnit) :=
  (units.foldl (Packing.add maxChars) ⟨[], []⟩).flush

/-- The heading path of a group: the deepest that extends the first. -/
def groupHeading (first : LogicalUnit) (group : List LogicalUnit) : List (List Char) :=
  group.foldl
    (fun heading unit =>
      if unit.headingPath.take heading.length = heading ∧
          unit.headingPath.length > heading.length then unit.headingPath
      else if heading = [] then unit.headingPath
      else heading)
    first.headingPath

/-- The chunk of a group of units, unless its text is blank. -/
def draftOfGroup (doc : CanonicalDocument) (maxChars ordinal : Nat) (first : LogicalUnit)
    (rest : List LogicalUnit) : Option ChunkDraft :=
  let group := first :: rest
  let charStart := first.charStart
  let charEnd := (group.getLast (List.cons_ne_nil first rest)).charEnd
  let content := slice doc.text charStart charEnd
  if strip content = [] then none
  else
    let kept := if content.length > maxChars then content.take maxChars else content
    let charEnd := if content.length > maxChars then charStart + kept.length else charEnd
    let isSplit := group.any (fun unit => unit.blockType = .hardSplit)
    let blockType : BlockType :=
      if group.all (fun unit => unit.blockType = first.blockType) then first.blockType
      else if isSplit then .hardSplit
      else .mixed
    some
      { ordinal := ordinal
        content := kept
        contentSha256 := sha kept
        charStart := charStart
        charEnd := charEnd
        lineStart := (spanLines doc.text charStart charEnd).1
        lineEnd := (spanLines doc.text charStart charEnd).2
        blockType := blockType.value
        headingPath := groupHeading first group
        oversizedSplit := isSplit }

/-- One turn of the last loop of `chunk_hybrid`; a group is never empty. -/
def addChunk (doc : CanonicalDocument) (maxChars : Nat) (chunks : List ChunkDraft)
    (group : List LogicalUnit) : List ChunkDraft :=
  match group with
  | [] => chunks
  | first :: rest => chunks ++ (draftOfGroup doc maxChars chunks.length first rest).toList

/-- The units that are packed: split, located and repaired. -/
def expandedUnits (doc : CanonicalDocument) (maxChars : Nat) : List LogicalUnit :=
  let expanded := (unitize doc).flatMap (fun unit => splitOversized unit maxChars)
  fixLines doc.text (repair doc.text (fixLines doc.text expanded))

/-- `chunk_hybrid(doc, max_chars)`. -/
def chunkHybrid (doc : CanonicalDocument) (maxChars : Nat) : Except String (List ChunkDraft) :=
  if maxChars < 1 then .error "max_chars must be >= 1"
  else .ok ((pack (expandedUnits doc maxChars) maxChars).foldl (addChunk doc maxChars) [])

end ChallengeForge
