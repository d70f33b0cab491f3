import ApiModel.Proofs.Reference
import ApiModel.Proofs.Url.Relative

/-!
# Relative references

A text that names a document by a path is put behind the directory of the document it stands in, as it is
written, unless that document is at a URL. So `./` in front of it stays in the reference, which means another
document. Beside a URL the same `./` adds nothing (`Reference.resolve_dotted`).
-/

namespace ApiModel

namespace Path

end Path

namespace Reference

/-- The directory of a document at a path, with a slash behind it. It is empty if the path is a name alone. -/
def directory (origin : String) : String :=
  match Path.parent? (document origin) with
  | none => ""
  | some dir => if dir.isEmpty || dir.endsWith "/" then dir else dir ++ "/"

section Parts

variable {origin target : String}

end Parts

end Reference

end ApiModel
