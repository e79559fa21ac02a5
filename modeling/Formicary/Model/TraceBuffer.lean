import Mathlib

/-! # The trace buffer

The buffer an ant writes the output of a task through. -/

namespace Formicary.Trace

def maskedText : List Char := "[****]".toList

def defaultBytesLimit : ℤ := 4 * 1024 * 1024

/-- The colour codes of `ansi_colors.go`, which are switched off. -/
def ansiBoldRed : String := ""

def ansiReset : String := ""

/-- A trie of the third-party package: `search` returns the registered values that have a prefix. -/
structure MaskTree where
  values : List (List Char)
  search : List Char → List (List Char)
  mem_search : ∀ rest s, s ∈ search rest ↔ s ∈ values ∧ rest <+: s
  nodup_search : ∀ rest, (search rest).Nodup

/-- The length in bytes of a text. -/
def byteLength (text : List Char) : ℕ :=
  (text.map Char.utf8Size).sum

/-- The buffer. `fed` are the lines passed to the callback, and `log` is what was written to the
log file. -/
structure Buffer where
  advanceBuffer : List Char
  lineBuffer : List Char
  fed : List (List Char)
  log : List Char
  logSize : ℕ
  bytesLimit : ℤ
  maskTree : Option MaskTree

namespace Buffer

def new : Buffer where
  advanceBuffer := []
  lineBuffer := []
  fed := []
  log := []
  logSize := 0
  bytesLimit := defaultBytesLimit
  maskTree := none

variable (b : Buffer)

/-- `SetMasked`, with the trie the values are added to. -/
def setMasked (tree : MaskTree) : Buffer :=
  if tree.values.length = 0 then { b with maskTree := none } else { b with maskTree := some tree }

def setLimit (size : ℤ) : Buffer :=
  { b with bytesLimit := size }

/-- `advanceAllUnsafe`. A line ends in CRLF. -/
def advanceAllUnsafe : Buffer :=
  let line := b.lineBuffer ++ b.advanceBuffer
  let ended := ['\r', '\n'].isSuffixOf line
  { b with
    lineBuffer := if ended then [] else line
    fed := if ended then b.fed ++ [line] else b.fed
    log := b.log ++ b.advanceBuffer
    logSize := b.logSize + byteLength b.advanceBuffer
    advanceBuffer := [] }

/-- `advanceLogUnsafe`, run for every rune. -/
def advanceLogUnsafe : Buffer :=
  match b.maskTree with
  | none => advanceAllUnsafe b
  | some tree =>
    let rest := b.advanceBuffer
    let results := tree.search rest
    if results.length = 0 then advanceAllUnsafe b
    else if results.length = 1 ∧ results.head? = some rest then
      advanceAllUnsafe { b with advanceBuffer := maskedText }
    else b

def limitExceededMessage (bytesLimit : ℤ) : List Char :=
  ("\n" ++ ansiBoldRed ++ "Job's log exceeded limit of " ++ toString bytesLimit ++ " bytes." ++
    ansiReset ++ "\n").toList

/-- `writeRune`. Over the limit the rune is dropped. -/
def writeRune (r : Char) : Buffer :=
  if b.logSize > b.bytesLimit then b
  else
    let b := advanceLogUnsafe { b with advanceBuffer := b.advanceBuffer ++ [r] }
    if b.logSize ≤ b.bytesLimit then b
    else advanceAllUnsafe { b with advanceBuffer := limitExceededMessage b.bytesLimit }

/-! ## Reading runes -/

/-- `ReadRune` of a buffered reader: an invalid encoding consumes one byte and gives U+FFFD. -/
def readRune (bytes : List UInt8) : Option (Char × List UInt8) :=
  match bytes with
  | [] => none
  | _ :: rest =>
    match bytes.toByteArray.utf8DecodeChar? 0 with
    | some r => some (r, bytes.drop r.utf8Size)
    | none => some (Char.ofNat 0xfffd, rest)

/-- The runes of a stream of bytes; every rune takes one byte at least. -/
def readRunes (bytes : List UInt8) : List Char :=
  go bytes.length bytes
where
  go : ℕ → List UInt8 → List Char
    | 0, _ => []
    | n + 1, bytes =>
      match readRune bytes with
      | none => []
      | some (r, rest) => r :: go n rest

/-- `process`: reads the pipe, into which the chunks have been written, to its end. -/
def process (chunks : List (List UInt8)) : Buffer :=
  advanceAllUnsafe ((readRunes chunks.flatten).foldl writeRune b)

end Buffer

end Formicary.Trace
