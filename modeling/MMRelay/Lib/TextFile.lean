import MMRelay.Lib.Utf8

/-!
# Reading text files

What iterating over a file opened with `encoding="utf-8"` yields: the file is read in chunks, an
incremental decoder keeps a sequence that a chunk cuts off, and a malformed one raises
`UnicodeDecodeError` after the lines that were complete before its chunk.

* `decodeChunk`, `decodeChunks`: the incremental decoder;
* `textLines`: universal newlines;
* `TextFile`, `TextFile.ofBytes`.
-/

namespace MMRelay

/-- A string as its characters. -/
abbrev Text := List Char

/-- Put a character in front of what the rest decodes to. -/
def consChar (n : ℕ) (r : Option (Text × List UInt8)) : Option (Text × List UInt8) :=
  r.map fun r => (Char.ofNat n :: r.1, r.2)

/-- The characters of a chunk and the bytes of a sequence that it cuts off; `none` when a sequence
is malformed. -/
def decodeChunk : List UInt8 → Option (Text × List UInt8)
  | [] => some ([], [])
  | b :: bs =>
    let n := b.toNat
    if n < 0x80 then consChar n (decodeChunk bs)
    else if n < 0xc2 then none
    else if n < 0xe0 then
      match bs with
      | [] => some ([], [b])
      | c :: cs =>
        if isCont c then consChar (n % 0x20 * 0x40 + contBits c) (decodeChunk cs) else none
    else if n < 0xf0 then
      match bs with
      | [] => some ([], [b])
      | c :: cs =>
        if !fitsThree n c then none
        else
          match cs with
          | [] => some ([], [b, c])
          | d :: ds =>
            if isCont d then
              consChar (n % 0x10 * 0x1000 + contBits c * 0x40 + contBits d) (decodeChunk ds)
            else none
    else if n < 0xf5 then
      match bs with
      | [] => some ([], [b])
      | c :: cs =>
        if !fitsFour n c then none
        else
          match cs with
          | [] => some ([], [b, c])
          | d :: ds =>
            if !isCont d then none
            else
              match ds with
              | [] => some ([], [b, c, d])
              | e :: es =>
                if isCont e then
                  consChar (n % 0x8 * 0x40000 + contBits c * 0x1000 + contBits d * 0x40
                    + contBits e) (decodeChunk es)
                else none
    else none

/-- The characters before the chunk that cannot be decoded, and whether there is one. -/
def decodeChunks (pending : List UInt8) : List (List UInt8) → Text × Bool
  | [] => ([], !pending.isEmpty)
  | chunk :: chunks =>
    match decodeChunk (pending ++ chunk) with
    | none => ([], true)
    | some (cs, rest) =>
      let r := decodeChunks rest chunks
      (cs ++ r.1, r.2)

/-- The lines without their line ends; `acc` is the current line, last character first. What the
last line end does not close is a line only at the end of the file. -/
def textLines (eof : Bool) : Text → Text → List Text
  | [], acc => if eof && !acc.isEmpty then [acc.reverse] else []
  | ['\r'], acc => if eof then [acc.reverse] else []
  | '\r' :: '\n' :: cs, acc => acc.reverse :: textLines eof cs []
  | '\r' :: cs, acc => acc.reverse :: textLines eof cs []
  | '\n' :: cs, acc => acc.reverse :: textLines eof cs []
  | c :: cs, acc => textLines eof cs (c :: acc)

/-- What iterating over a text file yields: lines, and then the end or a `UnicodeDecodeError`. -/
structure TextFile where
  lines : List Text
  undecodable : Bool
  deriving DecidableEq

/-- A file of these bytes that is read in chunks of a size. -/
def TextFile.ofBytes (chunkSize : ℕ) (bytes : List UInt8) : TextFile :=
  let r := decodeChunks [] (bytes.toChunks chunkSize)
  ⟨textLines (!r.2) r.1 [], r.2⟩

end MMRelay
