import ApiModel.Registry

/-!
Following references from node to node. The references on the way are remembered, and none of them
is followed again, so every such walk ends.
-/

namespace ApiModel.Registry

/-- The references on the way once `target` is followed too; none if it is on the way already. What
was reached by a reference stands in a document, so a reference that no document holds can only be
the first one. -/
def follow? (registry : Registry) (followed : List String) (target : String) :
    Option (List String) :=
  if target ∈ followed then none
  else if followed = [] || target ∈ registry.targets then some (target :: followed)
  else none

/-- How many references may come after those on the way. -/
def unfollowed (registry : Registry) (followed : List String) : Nat :=
  if followed = [] then registry.targets.length + 1
  else (registry.targets.filter (· ∉ followed)).length

theorem unfollowed_lt {registry : Registry} {followed longer : List String} {target : String}
    (h : registry.follow? followed target = some longer) :
    registry.unfollowed longer < registry.unfollowed followed := by
  unfold follow? at h
  split at h
  · simp at h
  · next hnew =>
    split at h
    · next hstart =>
      cases h
      unfold unfollowed
      rw [if_neg (List.cons_ne_nil _ _)]
      split
      · exact Nat.lt_succ_of_le (List.length_filter_le _ _)
      · next hne =>
        have htarget : target ∈ registry.targets := by simpa [hne] using hstart
        have hsplit : registry.targets.filter (· ∉ target :: followed) =
            (registry.targets.filter (· ∉ followed)).filter (· ≠ target) := by
          rw [List.filter_filter]
          exact List.filter_congr fun x _ => by simp [not_or]
        rw [hsplit, List.length_filter_lt_length_iff_exists]
        exact ⟨target, List.mem_filter.2 ⟨htarget, by simpa using hnew⟩, by simp⟩
    · simp at h

end ApiModel.Registry
