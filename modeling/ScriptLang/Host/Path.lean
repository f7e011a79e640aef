import ScriptLang.Text.Pieces

/-!
# Paths

Paths as texts with slashes between their segments.

* `Path.normalize` takes `.`, `..` and repeated slashes out and keeps a slash at the end.
* `Path.join` puts segments together, `Path.resolve` reads them from the right until one is
  absolute.
* `Path.dirname`, `Path.basename` and `Path.extname` take a path apart.
-/

namespace ScriptLang.Path

/-- Whether a path starts at the root. -/
def isAbsolute (path : String) : Bool := path.toList.head? == some '/'

/-- Takes one more segment into a list of segments, the last one first. -/
def step (absolute : Bool) (done : List String) (segment : String) : List String :=
  if segment = "" ∨ segment = "." then done
  else if segment = ".." then
    match done with
    | last :: rest => if last = ".." then ".." :: done else rest
    | [] => if absolute then [] else [".."]
  else segment :: done

/-- The segments that remain of a path, in order. -/
def segments (path : String) : List String :=
  ((Pieces.splitText '/' path).foldl (step (isAbsolute path)) []).reverse

/-- A path without `.`, `..` where it can be taken back, and repeated slashes. -/
def normalize (path : String) : String :=
  if path.isEmpty then "."
  else
    let joined := String.intercalate "/" (segments path)
    let result := if isAbsolute path then "/" ++ joined else joined
    if result.isEmpty then "."
    else if path.toList.getLast? == some '/' && result.toList.getLast? != some '/' then
      result ++ "/"
    else result

/-- Segments put together. -/
def join (parts : List String) : String :=
  normalize (String.intercalate "/" (parts.filter fun p => !p.isEmpty))

/-- The segments that decide a resolution: from the last one back to the first absolute one, which
`found` tells whether there is. -/
def relevant : List String → List String × Bool
  | [] => ([], false)
  | p :: ps =>
    if p.isEmpty then relevant ps
    else if isAbsolute p then ([p], true)
    else
      let (qs, found) := relevant ps
      (p :: qs, found)

/-- Segments as one path, from the working directory if none of them is absolute. -/
def resolve (cwd : String) (parts : List String) : String :=
  let (qs, found) := relevant parts.reverse
  let qs := if found then qs else qs ++ [cwd]
  let path := normalize (String.intercalate "/" qs.reverse)
  match path.toList.reverse with
  | '/' :: rest => if rest.isEmpty then path else String.ofList rest.reverse
  | _ => path

/-- The characters of a path without the slashes at its end; of slashes alone one remains. -/
def dropSlashes (cs : List Char) : List Char :=
  let kept := (cs.reverse.dropWhile (· == '/')).reverse
  if kept.isEmpty && cs.head? == some '/' then ['/'] else kept

/-- What stands after the last slash. -/
def afterSlash (cs : List Char) : List Char := (cs.reverse.takeWhile (· != '/')).reverse

/-- The path of the directory that holds a path. -/
def dirname (path : String) : String :=
  if path.isEmpty then "."
  else
    let cs := dropSlashes path.toList
    if cs == ['/'] then "/"
    else
      match (cs.reverse.dropWhile (· != '/')) with
      | [] => "."
      | _ :: before =>
        if before.isEmpty then "/" else String.ofList (dropSlashes before.reverse)

/-- A text without an ending, if it has it. -/
def dropEnding (ending cs : List Char) : List Char :=
  if ending.isSuffixOf cs then cs.take (cs.length - ending.length) else cs

/-- The last segment of a path, without an ending that is not all of it. -/
def basename (path : String) (ending : Option String) : String :=
  let cs := dropSlashes path.toList
  if cs == ['/'] then ""
  else
    let base := afterSlash cs
    match ending with
    | some e =>
      if !e.isEmpty && base != e.toList then String.ofList (dropEnding e.toList base)
      else String.ofList base
    | none => String.ofList base

/-- The last segment of a path from its last point on, unless that comes first. -/
def extname (path : String) : String :=
  let base := (basename path none).toList
  match base.reverse.dropWhile (· != '.') with
  | [] => ""
  | _ :: before =>
    if before.isEmpty then "" else String.ofList (base.drop before.length)

end ScriptLang.Path
