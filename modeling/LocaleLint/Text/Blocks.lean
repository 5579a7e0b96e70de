import LocaleLint.Text.Newline
import LocaleLint.Text.Utf8

/-! # Text that comes in blocks

The bytes of a file are fetched in chunks, and its text is handed out in blocks of a fixed number of
characters, the first two of them together. Bytes that are no text come to light with the chunk that they
arrive in, so the blocks that were complete before that chunk are still handed out. -/

namespace LocaleLint.Text

/-- Text, and the bytes after it that are none if it breaks off there. -/
structure Excerpt where
  text : List Char
  failure : Option Utf8.Failure

namespace Blocks

def blockSize : Nat := 4096

/-- The least number of bytes that are fetched together. -/
def chunkSize : Nat := 8192

/-- The number of characters that are handed out before the block of the one at an index. -/
def before (index : Nat) : Nat :=
  if index < 2 * blockSize then 0 else index / blockSize * blockSize

/-- The text that bytes hold up to the first of them that are none. -/
def textOf (bytes : List UInt8) : List Char :=
  match Utf8.decode bytes with
  | .ok s => s
  | .error failure => (Utf8.decode (bytes.take failure.position)).toOption.getD []

/-- The number of characters that the first bytes of a file give. A carriage return at their end waits for
    the character after it. -/
def ready (bytes : List UInt8) (fetched : Nat) : Nat :=
  let s := textOf (bytes.take fetched)
  (unifyNewlines s).length - (if s.getLast? = some '\r' then 1 else 0)

/-- The size of the chunk after the first `fetched` bytes, the last `chunk` of which came together: as many
    bytes as the characters that the current block lacks took in that chunk. -/
def nextChunk (bytes : List UInt8) (fetched chunk : Nat) : Nat :=
  let now := ready bytes fetched
  let lacking := blockSize - now % blockSize
  max chunkSize (lacking * chunk / (now - ready bytes (fetched - chunk)))

theorem nextChunk_pos (bytes : List UInt8) (fetched chunk : Nat) : 0 < nextChunk bytes fetched chunk :=
  Nat.lt_of_lt_of_le (by decide : 0 < chunkSize) (Nat.le_max_left ..)

/-- The number of characters that are ready before the byte at an offset is fetched, when the first
    `fetched` bytes are there and the last `chunk` of them came together. -/
def readyBefore (bytes : List UInt8) (offset fetched chunk : Nat) : Nat :=
  if offset < fetched + nextChunk bytes fetched chunk then ready bytes fetched
  else readyBefore bytes offset (fetched + nextChunk bytes fetched chunk) (nextChunk bytes fetched chunk)
termination_by offset - fetched
decreasing_by
  have := nextChunk_pos bytes fetched chunk
  omega

/-- The number of characters that are ready when bytes that are no text come to light: with the byte that
    cannot stand where it does, or with the end of the file. -/
def readyAt (bytes : List UInt8) (failure : Utf8.Failure) : Nat :=
  match failure.cause with
  | .invalidStart => readyBefore bytes failure.position 0 0
  | .invalidContinuation => readyBefore bytes (failure.position + failure.length) 0 0
  | .unexpectedEnd => ready bytes bytes.length

/-- The text of a file, its line ends unified. -/
def ofBytes (bytes : List UInt8) : Excerpt :=
  match Utf8.decode bytes with
  | .ok s => ⟨unifyNewlines s, none⟩
  | .error failure =>
    ⟨(unifyNewlines (textOf bytes)).take (before (readyAt bytes failure)), some failure⟩

end Blocks

end LocaleLint.Text
