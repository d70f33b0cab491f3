import ApiModel.Path
import ApiModel.Pointer
import ApiModel.Url

/-!
References: the origin of a document, a `#`, and a pointer into it. References are built from keys,
and the texts that documents refer with are resolved against the document they stand in.
-/

namespace ApiModel.Reference

/-- The document part: what stands before the first `#`. -/
def document (reference : String) : String :=
  String.ofList (reference.toList.takeWhile (· ≠ '#'))

/-- The fragment: what stands after the first `#`, if there is one. -/
def fragment? (reference : String) : Option String :=
  match reference.toList.dropWhile (· ≠ '#') with
  | [] => none
  | _ :: rest => some (String.ofList rest)

/-- The reference of a document's root. -/
def root (origin : String) : String := origin ++ "#"

/-- The reference of the part of a node under keys. -/
def child (reference : String) : List String → String
  | [] => reference
  | key :: rest => child (reference ++ "/" ++ Pointer.escape key) rest

/-- The key that a reference ends in; none without a fragment or where that key would be empty. -/
def name? (reference : String) : Option String :=
  (fragment? reference).bind fun fragment =>
    match (fragment.toList.reverse.takeWhile (· ≠ '/')).reverse with
    | [] => none
    | last => some (Pointer.unescape last)

/-- A document's address as seen from the document at `origin`. -/
def resolveDocument (origin document : String) : String :=
  match Url.parse? origin with
  | some base => ((Url.join? base document).map Url.text).getD document
  | none =>
    match Path.parent? (Reference.document origin) with
    | some dir => Path.join dir document
    | none => document

/-- The reference that `target` means in the document at `origin`. A fragment alone stays in the
document, an absolute URL stays as it is written, and anything else names a document beside it. -/
def resolve (origin target : String) : String :=
  if target.startsWith "#" then origin ++ target
  else if (Url.parse? target).isSome then
    if '#' ∈ target.toList then target else target ++ "#"
  else
    resolveDocument origin (document target) ++ "#" ++ (fragment? target).getD ""

end ApiModel.Reference
