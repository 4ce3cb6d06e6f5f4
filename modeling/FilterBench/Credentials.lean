import FilterBench.Text.Utf8
import FilterBench.Text.Base64

/-!
# Logging in with a name and a password

The PLAIN mechanism sends the identity to act as, the name and the password in one response,
divided by NUL characters. `Plain.read?` is what a server makes of the response. All three are texts of
characters: half of a surrogate pair by itself, which a text of 16-bit units can hold, is none and is
not represented.
-/
namespace FilterBench

/-- How a session proves who it is: the name of the mechanism and its first response. -/
structure Mechanism where
  name : String
  response : Utf8.Bytes
  deriving DecidableEq, Repr

/-- The response as it stands in a command; a single `=` is an empty one. -/
def Mechanism.initial (m : Mechanism) : String :=
  if m.response = [] then "=" else String.ofList (Base64.encode m.response)

structure Plain where
  identity : String
  username : String
  password : String
  deriving DecidableEq, Repr

namespace Plain

def nul : Char := Char.ofNat 0

/-- The response of the PLAIN mechanism. -/
def response (p : Plain) : Utf8.Bytes :=
  Utf8.encode (p.identity ++ nul.toString ++ p.username ++ nul.toString ++ p.password)

def mechanism (p : Plain) : Mechanism := ⟨"PLAIN", p.response⟩

/-- The parts of a text between NUL characters. -/
def parts : List Char → List (List Char)
  | [] => [[]]
  | c :: rest =>
    if c = nul then [] :: parts rest
    else match parts rest with
      | [] => [[c]]
      | p :: more => (c :: p) :: more

/-- Reads a response back. -/
def read? (response : Utf8.Bytes) : Option Plain :=
  match parts (Utf8.decode response) with
  | [i, u, p] => some ⟨String.ofList i, String.ofList u, String.ofList p⟩
  | _ => none

end Plain

/-- The passwords that test accounts have: one for a named identity, one for all others. -/
structure Accounts where
  common : String := "password1"
  otherIdentity : String := "user2@example.com"
  otherPassword : String := "password2"
  deriving DecidableEq, Repr, Inhabited

def Accounts.passwordFor (a : Accounts) (identity : String) : String :=
  if identity = a.otherIdentity then a.otherPassword else a.common

end FilterBench
