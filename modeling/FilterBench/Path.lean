/-!
# Paths of files

Paths are written with slashes. `join` puts a name below a directory and resolves `.` and `..`;
`base` is the last name of a path.
-/
namespace FilterBench.Path

/-- The names between the slashes of a path. -/
def names : List Char → List (List Char)
  | [] => [[]]
  | c :: rest =>
    if c = '/' then [] :: names rest
    else match names rest with
      | [] => [[c]]
      | n :: more => (c :: n) :: more

/-- Resolves names from the left onto those already resolved, the last of which comes first. What
would leave the root of an absolute path stays there. -/
def resolve (absolute : Bool) : List (List Char) → List (List Char) → List (List Char)
  | done, [] => done.reverse
  | done, n :: rest =>
    if n = [] ∨ n = ['.'] then resolve absolute done rest
    else if n = ['.', '.'] then
      match done with
      | [] => resolve absolute (if absolute then [] else [n]) rest
      | d :: up => if d = ['.', '.'] then resolve absolute (n :: done) rest
        else resolve absolute up rest
    else resolve absolute (n :: done) rest

/-- The shortest way to write a path. -/
def normal (path : List Char) : List Char :=
  let absolute := path.head? = some '/'
  let trailing := path.getLast? = some '/'
  let body := List.intercalate ['/'] (resolve absolute [] (names path))
  let body := if body = [] ∧ ¬ absolute then ['.'] else body
  let body := if trailing ∧ body ≠ [] then body ++ ['/'] else body
  if absolute then '/' :: body else body

def join (directory name : String) : String :=
  String.ofList (normal (directory.toList ++ '/' :: name.toList))

/-- The last name of a path. Slashes at its end do not count. -/
def base (path : String) : String :=
  let reversed := path.toList.reverse.dropWhile (· == '/')
  String.ofList (reversed.takeWhile (· != '/')).reverse

end FilterBench.Path
