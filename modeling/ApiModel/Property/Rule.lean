import ApiModel.Error
import ApiModel.Property
import ApiModel.Registry
import ApiModel.Site

/-!
The rules by which a node gets its properties. A rule lists the parts that the properties come from.
-/

namespace ApiModel

/-- One way to find properties of a node. -/
inductive PropertyRule where
  /-- The entries of `properties`. -/
  | declared
  /-- The properties of the members of `allOf`. -/
  | allOf
  deriving DecidableEq, Inhabited

/-- Where properties of a node come from. -/
inductive PropertyPart where
  | declared (properties : List Property)
  /-- All properties of an inner node. -/
  | member (site : Site)
  /-- All properties of the node that a `$ref` text leads to. -/
  | inherited (target : String)

/-- The properties that a node declares itself. -/
def declaredProperties (site : Site) : List Property :=
  let required := ((site.node.itemsAt? "required").getD []).filterMap Document.text?
  (site.entries "properties").map fun (name, inner) =>
    Property.ofNode name inner.reference inner.node (name ∈ required)

/-- A member of `allOf` is inherited from if it is a reference. -/
def PropertyPart.ofMember (member : Site) : PropertyPart :=
  match member.target? with
  | some target => .inherited target
  | none => .member member

namespace PropertyRule

/-- Whether a rule applies to a node. -/
def supports (site : Site) : PropertyRule → Bool
  | declared => (site.node.entriesAt? "properties").isSome
  | allOf => (site.node.itemsAt? "allOf").isSome

/-- The parts that a rule finds, in order. -/
def parts (site : Site) : PropertyRule → List PropertyPart
  | declared => [.declared (declaredProperties site)]
  | allOf => (site.items "allOf").map PropertyPart.ofMember

theorem sizeOf_parts_lt {site inner : Site} {rule : PropertyRule}
    (h : PropertyPart.member inner ∈ rule.parts site) : sizeOf inner.node < sizeOf site.node := by
  cases rule with
  | declared => simp [parts] at h
  | allOf =>
    obtain ⟨member, hmember, hpart⟩ := List.mem_map.1 h
    unfold PropertyPart.ofMember at hpart
    split at hpart
    · cases hpart
    · cases hpart; exact Site.sizeOf_items_lt hmember

end PropertyRule

end ApiModel
