/-!
# Quoted text

Text between double quotes, as a message shows a line that may hold anything: a quote and a
backslash are escaped, the usual control characters have short escapes, and the others are
written with four hexadecimal digits.
-/
namespace FilterBench.Quoted

/-- The low four bits of `n` as a digit. -/
def hexDigit (n : Nat) : Char := Nat.digitChar (n % 16)

def escape (c : Char) : List Char :=
  if c = '"' then ['\\', '"']
  else if c = '\\' then ['\\', '\\']
  else if c = '\n' then ['\\', 'n']
  else if c = '\r' then ['\\', 'r']
  else if c = '\t' then ['\\', 't']
  else if c = '\x08' then ['\\', 'b']
  else if c = '\x0c' then ['\\', 'f']
  else if c.toNat < 32 then ['\\', 'u', '0', '0', hexDigit (c.toNat / 16), hexDigit c.toNat]
  else [c]

def encode (text : List Char) : List Char := '"' :: text.flatMap escape ++ ['"']

end FilterBench.Quoted
