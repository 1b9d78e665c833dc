/-
FieldCheck.FilePath — names of files.

A path is a list of steps with slashes between them. A path that starts
with a slash starts at the root, all others at a working folder. `collapsed`
removes the steps that lead nowhere or back, by the look of the path alone
and without any knowledge of the files.
-/

namespace FieldCheck.FilePath

/-! ## Parts -/

/-- The steps of a path. -/
def steps (p : String) : List String := (p.toList.splitOn '/').map String.ofList

/-- The path starts at the root. -/
def isAbsolute (p : String) : Bool := p.toList.head? == some '/'

/-- A path inside a folder; one that starts at the root stays as it is. -/
def join (folder p : String) : String :=
  if isAbsolute p || folder.isEmpty then p
  else if folder.toList.getLast? == some '/' then folder ++ p
  else folder ++ "/" ++ p

/-- The characters of the folder part of a path. -/
def folderChars (cs : List Char) : List Char :=
  let front := (cs.reverse.dropWhile (· != '/')).reverse
  let bare := (front.reverse.dropWhile (· == '/')).reverse
  if bare.isEmpty then front else bare

/-- The folder that a path is in. -/
def folderOf (p : String) : String := String.ofList (folderChars p.toList)

/-! ## Collapsing -/

/-- Adds a step to the steps so far, the last one first. -/
def addStep (done : List String) (step : String) : List String :=
  if step = "" ∨ step = "." then done
  else if step = ".." then done.drop 1
  else step :: done

/-- The steps that are left when those that lead nowhere or back are removed. -/
def collapsed (ss : List String) : List String := (ss.foldl addStep []).reverse

/-- The path from the root along some steps. -/
def rooted (ss : List String) : String := "/" ++ "/".intercalate ss

/-- A path in its shortest form, seen from a working folder. -/
def resolved (work p : String) : String := rooted (collapsed (steps (join work p)))

/-- The path starts with two slashes and no more. -/
def hasDoubleRoot (p : String) : Bool :=
  match p.toList with
  | '/' :: '/' :: '/' :: _ => false
  | '/' :: '/' :: _ => true
  | _ => false

/-- A path in its shortest form, where two slashes at the start are kept. -/
def normalized (work p : String) : String :=
  if hasDoubleRoot (join work p) then "/" ++ resolved work p else resolved work p

end FieldCheck.FilePath
