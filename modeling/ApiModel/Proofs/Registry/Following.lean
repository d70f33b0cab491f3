import ApiModel.Proofs.Registry.Lookup
import ApiModel.Proofs.Site
import ApiModel.Registry.Following
import Mathlib.Logic.Relation

/-!
# Walks that follow references end

A walk stands at a site, with the references that were followed on the way. It goes on to a site inside,
or along a reference that is not being followed yet, and nothing else holds it back. Still every walk ends
(`Walk.acc_moves`). After its first reference a walk is in the documents of the registry, where only the
targets can be followed, each once, and from one reference to the next the nodes get smaller.

`Registry.follow?` asks in addition whether some document holds the reference. On a walk that begins
without references this never decides anything (`Walk.Settled.follow?`).
-/

namespace ApiModel

/-- A site that points into a document, and all of whose references are targets. -/
structure Registry.Covers (registry : Registry) (site : Site) : Prop where
  fragment : '#' ∈ site.reference.toList
  targets : ∀ text ∈ site.node.refs, site.resolve text ∈ registry.targets

/-- Where a walk stands: at a site, with the references that were followed on the way to it. -/
structure Walk where
  followed : List String
  site : Site

/-- A walk goes on to a site inside, or it follows a reference that it is not following already. -/
inductive Walk.Moves (registry : Registry) : Walk → Walk → Prop where
  | inside {followed : List String} {site inner : Site} : inner.Inside site →
    Moves registry ⟨followed, site⟩ ⟨followed, inner⟩
  | follow {followed : List String} {site : Site} {text : String} {node : Document} :
    text ∈ site.node.refs → registry.node? (site.resolve text) = some node →
      site.resolve text ∉ followed →
        Moves registry ⟨followed, site⟩ ⟨site.resolve text :: followed, ⟨node, site.resolve text⟩⟩

namespace Registry

variable {registry : Registry}

/-- What a reference leads to is covered. -/
theorem covers_of_node? {site : Site} {text : String} {node : Document}
    (h : registry.node? (site.resolve text) = some node) :
    registry.Covers ⟨node, site.resolve text⟩ where
  fragment := Reference.mem_resolve site.origin text
  targets := by
    intro inner hinner
    exact mem_targets_of_node? h hinner

theorem Covers.inside {site inner : Site} (h : registry.Covers site) (hinside : inner.Inside site) :
    registry.Covers inner where
  fragment := hinside.fragment h.fragment
  targets := by
    intro text htext
    have htarget := h.targets text (hinside.refs text htext)
    show Reference.resolve inner.origin text ∈ registry.targets
    rw [hinside.origin h.fragment]
    exact htarget

end Registry

namespace Walk

variable {registry : Registry} {walk next : Walk}

/-! ## Every walk ends -/

/-- A walk in the documents ends: it follows targets, each of them once, and otherwise its nodes get
smaller. -/
theorem acc_moves_of_covers (h : registry.Covers walk.site) :
    Acc (fun next walk => Moves registry walk next) walk := by
  -- the outer induction is on the targets that are left, the inner one on the size of the node
  induction hleft : registry.unfollowed walk.followed using Nat.strongRecOn generalizing walk with
  | ind left ihfollow =>
    induction hsize : sizeOf walk.site.node using Nat.strongRecOn generalizing walk with
    | ind size ihinside =>
      apply Acc.intro
      intro next hmove
      cases hmove with
      | inside hinside =>
        have hlt := hinside.smaller
        subst hsize
        exact ihinside _ hlt (h.inside hinside) hleft rfl
      | @follow followed site text node htext hnode hnew =>
        have htarget := h.targets text htext
        have hgo : registry.follow? followed (site.resolve text) =
            some (site.resolve text :: followed) := by
          simp [Registry.follow?, hnew, htarget]
        have hlt := Registry.unfollowed_lt hgo
        subst hleft
        exact ihfollow _ hlt (Registry.covers_of_node? hnode) rfl

/-- Every walk ends, whatever registry it goes through and wherever it stands. -/
theorem acc_moves (registry : Registry) (walk : Walk) :
    Acc (fun next walk => Moves registry walk next) walk := by
  induction hsize : sizeOf walk.site.node using Nat.strongRecOn generalizing walk with
  | ind size ih =>
    apply Acc.intro
    intro next hmove
    cases hmove with
    | inside hinside =>
      have hlt := hinside.smaller
      subst hsize
      exact ih _ hlt _ rfl
    | follow htext hnode hnew => exact acc_moves_of_covers (Registry.covers_of_node? hnode)

/-! ## Walks from a start -/

/-- A walk that follows no reference yet, or that is in the documents. -/
def Settled (registry : Registry) (walk : Walk) : Prop :=
  walk.followed = [] ∨ registry.Covers walk.site

theorem Settled.moves (h : walk.Settled registry) (hmove : Moves registry walk next) :
    next.Settled registry := by
  cases hmove with
  | inside hinside => exact h.imp_right fun hcovers => hcovers.inside hinside
  | follow _ hnode _ => exact Or.inr (Registry.covers_of_node? hnode)

/-- On a settled walk a reference is followed exactly if it is not being followed already. -/
theorem Settled.follow? (h : walk.Settled registry) {text : String}
    (htext : text ∈ walk.site.node.refs) :
    registry.follow? walk.followed (walk.site.resolve text) =
      if walk.site.resolve text ∈ walk.followed then none
      else some (walk.site.resolve text :: walk.followed) := by
  have hopen : walk.followed = [] ∨ walk.site.resolve text ∈ registry.targets :=
    h.imp_right fun hcovers => hcovers.targets text htext
  simp [Registry.follow?, hopen]

/-- The references that are being followed lead to nodes. -/
def Resolved (registry : Registry) (walk : Walk) : Prop :=
  ∀ reference ∈ walk.followed, (registry.node? reference).isSome

theorem Resolved.moves (h : walk.Resolved registry) (hmove : Moves registry walk next) :
    next.Resolved registry := by
  cases hmove with
  | inside _ => exact h
  | follow _ hnode _ =>
    intro reference hreference
    rcases List.mem_cons.1 hreference with rfl | hreference
    · simp [hnode]
    · exact h reference hreference

/-- What holds at the start and stays with every move holds of all walks from there. -/
theorem of_reached {calls : Walk → Walk → Prop} (hcalls : ∀ a b, calls a b → Moves registry a b)
    {P : Walk → Prop} (hmoves : ∀ a b, P a → Moves registry a b → P b) (h : P walk)
    (hpath : Relation.ReflTransGen calls walk next) : P next := by
  induction hpath with
  | refl => exact h
  | tail _ hcall ih => exact hmoves _ _ ih (hcalls _ _ hcall)

end Walk

end ApiModel
