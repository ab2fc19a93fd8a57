import DataCheck.Lib.Text

/-!
# The text layer

Strict UTF-8 with an optional byte order mark (`encoding="utf-8-sig"`), and the lines of a text
file opened with `newline=""`: a line ends after LF, CRLF or a bare CR, and keeps its end.
-/

namespace DataCheck.Lib

def LF : PyChar := 10
def CR : PyChar := 13

namespace Utf8

/-- `codecs.utf_8_decode(bytes, "strict", final)`, in the middle of a character that needs `n` more
bytes, the next of them between `lo` and `hi`, with the value `acc` so far; `none` is
`UnicodeDecodeError`.  Where the input is not final, a character cut off at its end is left for
later. -/
def decodeFrom (final : Bool) : (n lo hi acc : ℕ) → Bytes → Option PyStr
  | 0, _, _, _, [] => some []
  | _ + 1, _, _, _, [] => if final then none else some []
  | 0, _, _, _, b :: r =>
    let v := b.toNat
    if v < 0x80 then (decodeFrom final 0 0 0 0 r).map (Fin.ofNat 0x110000 v :: ·)
    else if v < 0xC2 then none
    else if v < 0xE0 then decodeFrom final 1 0x80 0xBF (v - 0xC0) r
    else if v = 0xE0 then decodeFrom final 2 0xA0 0xBF 0 r
    else if v = 0xED then decodeFrom final 2 0x80 0x9F 0xD r
    else if v < 0xF0 then decodeFrom final 2 0x80 0xBF (v - 0xE0) r
    else if v = 0xF0 then decodeFrom final 3 0x90 0xBF 0 r
    else if v < 0xF4 then decodeFrom final 3 0x80 0xBF (v - 0xF0) r
    else if v = 0xF4 then decodeFrom final 3 0x80 0x8F 4 r
    else none
  | n + 1, lo, hi, acc, b :: r =>
    let v := b.toNat
    if lo ≤ v ∧ v ≤ hi then
      let acc' := acc * 64 + (v - 0x80)
      if n = 0 then (decodeFrom final 0 0 0 0 r).map (Fin.ofNat 0x110000 acc' :: ·)
      else decodeFrom final n 0x80 0xBF acc' r
    else none

/-- `codecs.utf_8_decode(bytes, "strict", final)` -/
def decode (final : Bool) (b : Bytes) : Option PyStr := decodeFrom final 0 0 0 0 b

def bom : Bytes := [0xEF, 0xBB, 0xBF]

/-- The decoder of `utf-8-sig` on the first bytes of a stream.  Bytes too few to tell whether they
are a byte order mark are held back, also at the end of the stream. -/
def decodeSig (final : Bool) (b : Bytes) : Option PyStr :=
  if b.length < 3 ∧ b <+: bom then some []
  else if bom <+: b then decode final (b.drop 3)
  else decode final b

end Utf8

/-- The lines of a text, each with the LF, CRLF or bare CR that ends it. -/
def splitLines : PyStr → List PyStr
  | [] => []
  | c :: s =>
    if c = LF then [c] :: splitLines s
    else if c = CR then
      match s with
      | d :: s' => if d = LF then [c, d] :: splitLines s' else [c] :: splitLines (d :: s')
      | [] => [[c]]
    else
      match splitLines s with
      | [] => [[c]]
      | l :: ls => (c :: l) :: ls

/-- The text of the most blocks of 8,192 bytes, out of the first `n`, that decode. -/
def decodedBlocks (b : Bytes) : ℕ → PyStr
  | 0 => []
  | n + 1 =>
    match Utf8.decodeSig false (b.take (8192 * (n + 1))) with
    | some s => s
    | none => decodedBlocks b n

/-- The lines that the text layer hands out before it needs more input: not the last one, unless LF
ends it (after a CR an LF may still follow). -/
def finishedLines (s : PyStr) : List PyStr :=
  let ls := splitLines s
  if (ls.getLast?.bind List.getLast?) = some LF then ls else ls.dropLast

/-- What iterating over a text file yields: its lines, and whether it then raises
`UnicodeDecodeError`.  The file is read and decoded in blocks, so before the exception come the
lines that end in the blocks before the bad one. -/
def fileLines (b : Bytes) : List PyStr × Bool :=
  match Utf8.decodeSig true b with
  | some s => (splitLines s, false)
  | none => (finishedLines (decodedBlocks b (b.length / 8192 + 1)), true)

end DataCheck.Lib
