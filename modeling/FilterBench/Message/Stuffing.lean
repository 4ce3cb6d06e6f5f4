import FilterBench.Text.Utf8

/-!
# Message content on the wire

Content is sent as lines ended by CRLF, a dot at the start of a line being doubled, and a line of
one dot ends it. `Stuffing` writes content that comes in any pieces; `receive` is the other side:
it reads the lines up to the end mark and takes the doubled dots away. `canonical` says which
content the receiver gets: bare line feeds have become CRLF and the last line is ended.
-/
namespace FilterBench
open Utf8

def carriageReturn : UInt8 := 13
def lineFeed : UInt8 := 10
def dot : UInt8 := 46

/-- What the encoder remembers between pieces. -/
structure Stuffing where
  lineStart : Bool := true
  afterReturn : Bool := false
  deriving DecidableEq, Repr, Inhabited

namespace Stuffing

/-- The octets one octet of content becomes. -/
def octet (s : Stuffing) (b : UInt8) : Bytes :=
  (if s.lineStart ∧ b = dot then [dot] else []) ++
    (if b = lineFeed ∧ ¬ s.afterReturn then [carriageReturn] else []) ++ [b]

/-- The memory after one octet of content. -/
def after (b : UInt8) : Stuffing := ⟨b == lineFeed, b == carriageReturn⟩

def encode (s : Stuffing) : Bytes → Stuffing × Bytes
  | [] => (s, [])
  | b :: rest =>
    let (t, out) := (after b).encode rest
    (t, s.octet b ++ out)

/-- The end mark, after a line end when the content did not end its line; the encoder is as new. -/
def finish (s : Stuffing) : Stuffing × Bytes :=
  let mark := [dot, carriageReturn, lineFeed]
  ({}, if s.lineStart then mark else carriageReturn :: lineFeed :: mark)

end Stuffing

namespace Content

/-- Content with every bare line feed made CRLF. -/
def withReturns : Bool → Bytes → Bytes
  | _, [] => []
  | afterReturn, b :: rest =>
    (if b = lineFeed ∧ ¬ afterReturn then [carriageReturn, b] else [b]) ++
      withReturns (b == carriageReturn) rest

/-- The content that a receiver is to get: line ends are CRLF and the last line is ended. -/
def canonical (content : Bytes) : Bytes :=
  let lines := withReturns false content
  if content = [] ∨ content.getLast? = some lineFeed then lines
  else lines ++ [carriageReturn, lineFeed]

/-- The octets before the first CRLF, and those after it. -/
def splitLine? : Bytes → Option (Bytes × Bytes)
  | [] => none
  | [_] => none
  | a :: b :: rest =>
    if a = carriageReturn ∧ b = lineFeed then some ([], rest)
    else (splitLine? (b :: rest)).map fun (line, more) => (a :: line, more)

theorem splitLine?_length {bytes line more : Bytes} (h : splitLine? bytes = some (line, more)) :
    more.length < bytes.length := by
  fun_induction splitLine? bytes generalizing line more with
  | case1 => simp at h
  | case2 => simp at h
  | case3 a b rest hc =>
    simp only [Option.some.injEq, Prod.mk.injEq] at h
    rw [← h.2]
    simp only [List.length_cons]
    omega
  | case4 a b rest hc ih =>
    obtain ⟨⟨l, m⟩, hm, hp⟩ := Option.map_eq_some_iff.1 h
    simp only [Prod.mk.injEq] at hp
    have := ih hm
    rw [← hp.2]
    simp only [List.length_cons] at this ⊢
    omega

/-- A line as the receiver keeps it: one leading dot is taken away. -/
def unstuff : Bytes → Bytes
  | b :: rest => if b = dot then rest else b :: rest
  | [] => []

/-- Reads lines up to the end mark: the content, and the octets after the mark. -/
def receive (bytes : Bytes) : Option (Bytes × Bytes) :=
  match h : splitLine? bytes with
  | none => none
  | some (line, more) =>
    have := splitLine?_length h
    if line = [dot] then some ([], more)
    else (receive more).map fun (content, rest) =>
      (unstuff line ++ carriageReturn :: lineFeed :: content, rest)
termination_by bytes.length

end Content

end FilterBench
