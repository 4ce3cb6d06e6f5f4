/-!
# UTF-8 text and its incremental reading

`decode` reads any octets as text: a well-formed sequence gives its character, and each longest
start of a sequence that is not completed gives one replacement character. `encode` writes text.
`Decoder` reads octets that arrive in chunks: it holds back a sequence that the end of a chunk
has cut, and gives the text of everything before it.
-/
namespace FilterBench.Utf8

abbrev Bytes := List UInt8

/-- Stands for octets that are not part of a well-formed sequence. -/
def replacement : Char := '\uFFFD'

/-- What the first octet of a longer sequence promises: how many octets are owed, the range in
which the next one must lie, and the bits of the character it carries itself. -/
structure Lead where
  owed : Nat
  low : UInt8
  high : UInt8
  bits : Nat
  deriving DecidableEq, Repr

/-- No well-formed sequence starts with the octets for which this is `none`. -/
def Lead.of? (b : UInt8) : Option Lead :=
  if 0xC2 ≤ b ∧ b ≤ 0xDF then some ⟨1, 0x80, 0xBF, b.toNat - 0xC0⟩
  else if b = 0xE0 then some ⟨2, 0xA0, 0xBF, 0⟩
  else if b = 0xED then some ⟨2, 0x80, 0x9F, 0xD⟩
  else if 0xE1 ≤ b ∧ b ≤ 0xEF then some ⟨2, 0x80, 0xBF, b.toNat - 0xE0⟩
  else if b = 0xF0 then some ⟨3, 0x90, 0xBF, 0⟩
  else if b = 0xF4 then some ⟨3, 0x80, 0x8F, 4⟩
  else if 0xF1 ≤ b ∧ b ≤ 0xF3 then some ⟨3, 0x80, 0xBF, b.toNat - 0xF0⟩
  else none

/-- Takes one more octet of a sequence; `none` when the octet cannot belong to it. -/
def Lead.next? (l : Lead) (b : UInt8) : Option Lead :=
  if l.low ≤ b ∧ b ≤ l.high then
    some ⟨l.owed - 1, 0x80, 0xBF, l.bits * 64 + (b.toNat - 0x80)⟩
  else none

/-- Reads octets, with the sequence that is open so far. -/
def decodeFrom : Option Lead → Bytes → List Char
  | none, [] => []
  | some _, [] => [replacement]
  | none, b :: rest =>
    if b < 0x80 then Char.ofNat b.toNat :: decodeFrom none rest
    else match Lead.of? b with
      | some l => decodeFrom (some l) rest
      | none => replacement :: decodeFrom none rest
  | some l, b :: rest =>
    match l.next? b with
    | some m =>
      if m.owed = 0 then Char.ofNat m.bits :: decodeFrom none rest else decodeFrom (some m) rest
    | none =>
      replacement ::
        (if b < 0x80 then Char.ofNat b.toNat :: decodeFrom none rest
        else match Lead.of? b with
          | some l => decodeFrom (some l) rest
          | none => replacement :: decodeFrom none rest)

/-- The text of some octets, each ill-formed part replaced. -/
def decode (bytes : Bytes) : List Char := decodeFrom none bytes

/-- The octets of some text. -/
def encode (text : String) : Bytes := text.toList.flatMap String.utf8EncodeChar

def isContinuation (b : UInt8) : Bool := b &&& 0xC0 == 0x80

/-- How long a sequence its first octet announces, whether or not it can be completed;
`0` for an octet that announces none. -/
def announced (b : UInt8) : Nat :=
  if b &&& 0xE0 == 0xC0 then 2
  else if b &&& 0xF0 == 0xE0 then 3
  else if b &&& 0xF8 == 0xF0 then 4
  else 0

/-- Octets held back from earlier chunks: none, or a first octet with some of the continuations
that it announced. -/
structure Decoder where
  held : Bytes := []
  deriving DecidableEq, Repr

namespace Decoder

/-- How many octets the held sequence still lacks. -/
def missing (d : Decoder) : Nat :=
  match d.held with
  | [] => 0
  | b :: _ => announced b - d.held.length

/-- How many octets at the end of a chunk are the cut start of a sequence. Only the last four
octets matter, and a sequence must have its first octet in the chunk. -/
def cutLength (chunk : Bytes) : Nat :=
  let last := chunk.reverse.take 4
  let trail := (last.takeWhile isContinuation).length
  match last[trail]? with
  | some b => if trail + 1 < announced b then trail + 1 else 0
  | none => 0

/-- Reads octets that follow no held sequence. -/
def readFresh (chunk : Bytes) : Decoder × List Char :=
  let keep := chunk.length - cutLength chunk
  (⟨chunk.drop keep⟩, decode (chunk.take keep))

/-- Reads one chunk: completes the held sequence first, or gives it up at an octet that does not
continue it, and holds back what the end of the chunk cuts. -/
def read (d : Decoder) (chunk : Bytes) : Decoder × List Char :=
  if d.missing = 0 then readFresh chunk
  else
    let more := (chunk.take d.missing).takeWhile isContinuation
    let rest := chunk.drop more.length
    if more.length < d.missing ∧ rest = [] then (⟨d.held ++ more⟩, [])
    else
      let (d', text) := readFresh rest
      (d', decode (d.held ++ more) ++ text)

end Decoder

end FilterBench.Utf8
