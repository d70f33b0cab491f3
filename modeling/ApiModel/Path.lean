/-!
File paths as texts of names between slashes. Empty names and single dots count for nothing, except
the slash or dot a path begins with; two dots stay as they are written.
-/

namespace ApiModel.Path

/-- The root slash or leading dot of a path, and what follows it. -/
def lead : List Char → List Char × List Char
  | '/' :: rest => (['/'], rest)
  | ['.'] => (['.'], [])
  | '.' :: '/' :: rest => (['.'], '/' :: rest)
  | path => ([], path)

/-- Drops the last name and the slash before it. The body is given and taken in reverse. -/
def dropName (reversed : List Char) : List Char := (reversed.dropWhile (· ≠ '/')).drop 1

theorem length_dropName_lt {reversed : List Char} (h : reversed ≠ []) :
    (dropName reversed).length < reversed.length := by
  cases reversed with
  | nil => exact absurd rfl h
  | cons c rest =>
    unfold dropName
    rw [List.length_drop]
    by_cases hc : c = '/'
    · simp [hc]
    · have hle := (List.dropWhile_sublist (l := rest) (fun x => !decide (x = '/'))).length_le
      simp [hc]
      omega

/-- Drops the names at the end that count for nothing. The body is given and taken in reverse. -/
def dropBlank (reversed : List Char) : List Char :=
  let name := reversed.takeWhile (· ≠ '/')
  if _h : reversed ≠ [] ∧ (name = [] ∨ name = ['.']) then dropBlank (dropName reversed)
  else reversed
termination_by reversed.length
decreasing_by exact length_dropName_lt _h.1

/-- The path without its last name; none if it has no name to drop. -/
def parent? (path : String) : Option String :=
  let (start, body) := lead path.toList
  match dropBlank body.reverse with
  | [] => if start = ['.'] then some "" else none
  | reversed => some (String.ofList (start ++ (dropBlank (dropName reversed)).reverse))

/-- `path` as seen from the directory `dir`. A path from the root stands by itself. -/
def join (dir path : String) : String :=
  if path.startsWith "/" || dir.isEmpty then path
  else if dir.endsWith "/" then dir ++ path
  else dir ++ "/" ++ path

/-- The last name of the path, unless that is two dots. -/
def fileName? (path : String) : Option String :=
  match (dropBlank (lead path.toList).2.reverse).takeWhile (· ≠ '/') with
  | [] => none
  | ['.', '.'] => none
  | reversed => some (String.ofList reversed.reverse)

/-- What follows the last dot of the file name. A dot at its start begins no extension. -/
def extension? (path : String) : Option String :=
  (fileName? path).bind fun name =>
    let reversed := name.toList.reverse
    match (reversed.dropWhile (· ≠ '.')).drop 1 with
    | [] => none
    | _ => some (String.ofList (reversed.takeWhile (· ≠ '.')).reverse)

end ApiModel.Path
