import KacheDB.Foundation.Lines
import KacheDB.Foundation.Segments

/-!
# The Markdown chunker

`MarkdownChunker.chunk_document` reads a document line by line, collects the lines and flushes what
it has collected as a chunk: in front of a heading, when the chunk is long enough, and at the end.
Some of the last lines of a chunk stay collected as its overlap with the next one.

The text that the loop works on is a list of characters, and a line is one, too.
-/

namespace KacheDB

open Foundation

/-! ## Lines -/

/-- A line of white space. -/
def isBlank (line : List Char) : Bool :=
  line.all isWhitespace

/-- `CODE_FENCE_REGEX.match(line)` -/
def isCodeFence (line : List Char) : Bool :=
  "```".toList.isPrefixOf line

/-- `HEADING_REGEX.match(line)` with the length of its first group and its second group.  White
space between the two groups goes to the first pattern that takes it, up to one character that the
second group needs. -/
def headingMatch (line : List Char) : Option (ℕ × List Char) :=
  let hashes := line.takeWhile (· == '#')
  let rest := line.dropWhile (· == '#')
  let space := rest.takeWhile isWhitespace
  let text := rest.dropWhile isWhitespace
  if hashes = [] ∨ 6 < hashes.length then none
  else if text ≠ [] then
    if space = [] then none else some (hashes.length, text)
  else if space.length < 2 then none
  else some (hashes.length, space.drop (space.length - 1))

/-- Estimate token count for standard transformer embedding models. -/
def estimateTokens (text : List Char) : ℕ :=
  if text = [] then 0 else max 1 (text.length / 4)

/-! ## Chunks -/

/-- A discrete semantic chunk of a larger parent document. -/
structure DocumentChunk where
  chunkId : String
  content : String
  sectionTitle : String
  parentKey : String
  tokenCount : ℕ
  deriving DecidableEq

/-- Header-aware Markdown chunker. -/
structure MarkdownChunker where
  targetSize : ℕ
  overlap : ℤ
  le_targetSize : 50 ≤ targetSize
  overlap_le : overlap ≤ targetSize / 2

/-- What `chunk_document` keeps between the lines of a document. -/
structure ChunkState where
  chunks : List DocumentChunk := []
  chunkIdx : ℕ := 0
  headingStack : List (ℕ × String) := []
  currentLines : List (List Char) := []
  inCodeBlock : Bool := false

/-- `get_current_breadcrumb` -/
def getCurrentBreadcrumb (headingStack : List (ℕ × String)) : String :=
  if headingStack = [] then "General" else " > ".intercalate (headingStack.map Prod.snd)

/-- The stack with a new heading, without those at or below its level. -/
def pushHeading (headingStack : List (ℕ × String)) (level : ℕ) (title : String) :
    List (ℕ × String) :=
  headingStack.rdropWhile (fun heading => level ≤ heading.1) ++ [(level, title)]

namespace MarkdownChunker

/-- `MarkdownChunker(target_chunk_size, overlap)` -/
def new (targetChunkSize overlap : ℤ) : MarkdownChunker where
  targetSize := (max 50 targetChunkSize).toNat
  overlap := min overlap ((max 50 targetChunkSize).toNat / 2)
  le_targetSize := by omega
  overlap_le := min_le_right _ _

/-- The loop over the reversed lines that collects the overlap. -/
def overlapLines (overlap : ℤ) (accumTokens : ℕ) (kept : List (List Char)) :
    List (List Char) → List (List Char)
  | [] => kept
  | line :: rest =>
    if (accumTokens + estimateTokens line : ℤ) > overlap then kept
    else overlapLines overlap (accumTokens + estimateTokens line) (line :: kept) rest

variable (self : MarkdownChunker) (parentKey : String)

/-- The lines that are kept when these lines have been flushed. -/
def carryOver (currentLines : List (List Char)) : List (List Char) :=
  if self.overlap > 0 ∧ currentLines.length > 1 then
    overlapLines self.overlap 0 [] currentLines.reverse
  else []

/-- `flush_current_chunk` -/
def flushCurrentChunk (s : ChunkState) : ChunkState :=
  let content := stripChars (joinLines s.currentLines)
  if content = [] then { s with currentLines := [] }
  else
    { s with
      chunks := s.chunks ++ [
        { chunkId := parentKey ++ ":chunk_" ++ toString s.chunkIdx
          content := .ofList content
          sectionTitle := getCurrentBreadcrumb s.headingStack
          parentKey := parentKey
          tokenCount := estimateTokens content }]
      chunkIdx := s.chunkIdx + 1
      currentLines := self.carryOver s.currentLines }

/-- The toggle of a code fence. -/
def toggleFence (s : ChunkState) (line : List Char) : ChunkState :=
  if isCodeFence line then { s with inCodeBlock := !s.inCodeBlock } else s

/-- The section boundary check of a line. -/
def enterSection (s : ChunkState) (line : List Char) : ChunkState :=
  if s.inCodeBlock then s
  else
    match headingMatch line with
    | none => s
    | some (level, text) =>
      let title := String.ofList (stripChars text)
      let s := { s with headingStack := pushHeading s.headingStack level title }
      if s.currentLines ≠ [] then
        if estimateTokens (joinLines s.currentLines) ≥ self.targetSize / 2 then
          self.flushCurrentChunk parentKey s
        else s
      else s

/-- The line is collected, and a chunk that is long enough is flushed. -/
def collectLine (s : ChunkState) (line : List Char) : ChunkState :=
  let s := { s with currentLines := s.currentLines ++ [line] }
  if estimateTokens (joinLines s.currentLines) ≥ self.targetSize ∧ s.inCodeBlock = false then
    self.flushCurrentChunk parentKey s
  else s

/-- One turn of the main loop. -/
def processLine (s : ChunkState) (line : List Char) : ChunkState :=
  self.collectLine parentKey (self.enterSection parentKey (toggleFence s line) line) line

/-- Split a Markdown document into hierarchical chunks linked to `parentKey`. -/
def chunkDocument (markdownText : String) : List DocumentChunk :=
  let text := stripChars markdownText.toList
  if text = [] then []
  else if estimateTokens text ≤ self.targetSize then
    [{ chunkId := parentKey ++ ":chunk_0"
       content := .ofList text
       sectionTitle := "Root"
       parentKey := parentKey
       tokenCount := estimateTokens text }]
  else
    let s := (splitLines text).foldl (self.processLine parentKey) {}
    if s.currentLines ≠ [] then (self.flushCurrentChunk parentKey s).chunks else s.chunks

end MarkdownChunker

end KacheDB
