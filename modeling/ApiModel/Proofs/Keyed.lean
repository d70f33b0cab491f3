import ApiModel.Keyed
import Mathlib.Data.List.Induction

/-!
# Lists with keys, proved

What `Keyed.get?`, `Keyed.modify` and `Keyed.addNew` do to a list, above all to one in which every
key stands once. In such a list an element is found exactly under its own key, and changing it
leaves all others in their places. Lists that are joined may each be reduced to the first element of every
key before: the first elements of the whole stay the same.
-/

namespace ApiModel.Keyed

variable {α κ : Type} [DecidableEq κ] {key : α → κ}

/-! ## Looking up -/

theorem get?_eq_none_iff {k : κ} {xs : List α} :
    get? key k xs = none ↔ ∀ x ∈ xs, key x ≠ k := by
  induction xs with
  | nil => simp [get?]
  | cons y ys ih =>
    by_cases hk : key y = k
    · simp [get?, hk]
    · simp [get?, hk, ih]

theorem get?_append (k : κ) (xs ys : List α) :
    get? key k (xs ++ ys) = (get? key k xs).or (get? key k ys) := by
  induction xs with
  | nil => simp [get?]
  | cons x xs ih =>
    by_cases hk : key x = k
    · simp [get?, hk]
    · simp [get?, hk, ih]

/-- Where every key stands once, an element is what its key leads to. -/
theorem get?_eq_some_of_mem {x : α} {xs : List α} (hkeys : (xs.map key).Nodup) (hx : x ∈ xs) :
    get? key (key x) xs = some x := by
  induction xs with
  | nil => cases hx
  | cons y ys ih =>
    rw [List.map_cons, List.nodup_cons] at hkeys
    rcases List.mem_cons.1 hx with rfl | hys
    · simp [get?]
    · have hne : key y ≠ key x := fun heq => hkeys.1 (heq ▸ List.mem_map_of_mem hys)
      rw [get?, if_neg hne]
      exact ih hkeys.2 hys

theorem get?_eq_some_iff {k : κ} {x : α} {xs : List α} (hkeys : (xs.map key).Nodup) :
    get? key k xs = some x ↔ x ∈ xs ∧ key x = k := by
  constructor
  · intro h
    exact ⟨mem_of_get? h, key_of_get? h⟩
  · rintro ⟨hx, rfl⟩
    exact get?_eq_some_of_mem hkeys hx

theorem get?_append_cons {k : κ} {x : α} {before after : List α}
    (hbefore : ∀ y ∈ before, key y ≠ k) (hx : key x = k) :
    get? key k (before ++ x :: after) = some x := by
  rw [get?_append, get?_eq_none_iff.2 hbefore, Option.none_or, get?, if_pos hx]

/-- What is found is the first of its key. -/
theorem eq_append_cons_of_get? {k : κ} {x : α} {xs : List α} (h : get? key k xs = some x) :
    ∃ before after, xs = before ++ x :: after ∧ ∀ y ∈ before, key y ≠ k := by
  induction xs with
  | nil => cases h
  | cons y ys ih =>
    rw [get?] at h
    split at h
    · cases h
      exact ⟨[], ys, rfl, fun y hy => absurd hy List.not_mem_nil⟩
    · next hne =>
      obtain ⟨before, after, rfl, hbefore⟩ := ih h
      refine ⟨y :: before, after, rfl, fun z hz => ?_⟩
      rcases List.mem_cons.1 hz with rfl | hz
      · exact hne
      · exact hbefore z hz

/-- A function that keeps keys can be applied before or after the look-up. -/
theorem get?_map {β : Type} {key' : β → κ} {f : α → β} (hf : ∀ x, key' (f x) = key x) (k : κ)
    (xs : List α) : get? key' k (xs.map f) = (get? key k xs).map f := by
  induction xs with
  | nil => rfl
  | cons x xs ih =>
    by_cases hk : key x = k
    · simp [get?, hf, hk]
    · simp [get?, hf, hk, ih]

/-- Leaving out elements with other keys changes nothing for a look-up. -/
theorem get?_filter {k : κ} {p : α → Bool} (hp : ∀ x, key x = k → p x) (xs : List α) :
    get? key k (xs.filter p) = get? key k xs := by
  induction xs with
  | nil => rfl
  | cons x xs ih =>
    by_cases hk : key x = k
    · simp [get?, hk, hp x hk]
    · by_cases hx : p x
      · simp [get?, hk, hx, ih]
      · simp [get?, hk, hx, ih]

omit [DecidableEq κ] in
/-- No element before another one has its key, if keys stand once. -/
theorem ne_of_mem_before {x : α} {before after : List α}
    (hkeys : ((before ++ x :: after).map key).Nodup) {y : α} (hy : y ∈ before) :
    key y ≠ key x := by
  rw [List.map_append, List.map_cons, List.nodup_append] at hkeys
  exact hkeys.2.2 _ (List.mem_map_of_mem hy) _ List.mem_cons_self

/-! ## Changing one element -/

theorem modify_append_cons {k : κ} {f : α → α} {x : α} {before after : List α}
    (hbefore : ∀ y ∈ before, key y ≠ k) (hx : key x = k) :
    modify key k f (before ++ x :: after) = before ++ f x :: after := by
  induction before with
  | nil => simp [modify, hx]
  | cons y ys ih =>
    have hne : key y ≠ k := hbefore y List.mem_cons_self
    rw [List.cons_append, modify, if_neg hne, ih fun z hz => hbefore z (List.mem_cons_of_mem _ hz)]
    rfl

/-- Changing the element under a key changes every element with that key, if keys stand once. -/
theorem modify_eq_map {k : κ} {f : α → α} {xs : List α} (hkeys : (xs.map key).Nodup) :
    modify key k f xs = xs.map fun x => if key x = k then f x else x := by
  induction xs with
  | nil => rfl
  | cons x xs ih =>
    rw [List.map_cons, List.nodup_cons] at hkeys
    by_cases hk : key x = k
    · have hrest : ∀ y ∈ xs, key y ≠ k := by
        intro y hy heq
        exact hkeys.1 (List.mem_map.2 ⟨y, hy, heq.trans hk.symm⟩)
      have hsame : (xs.map fun y => if key y = k then f y else y) = xs := by
        rw [List.map_congr_left fun y hy => if_neg (hrest y hy), List.map_id']
      rw [modify, if_pos hk, List.map_cons, if_pos hk, hsame]
    · rw [modify, if_neg hk, List.map_cons, if_neg hk, ih hkeys.2]

/-- What a change keeps of an element, it keeps of the list. -/
theorem map_modify {β : Type} {g : α → β} {k : κ} {f : α → α} (hf : ∀ x, g (f x) = g x)
    (xs : List α) : (modify key k f xs).map g = xs.map g := by
  induction xs with
  | nil => rfl
  | cons x xs ih =>
    by_cases hk : key x = k
    · simp [modify, hk, hf]
    · simp [modify, hk, ih]

/-- A change that keeps keys shows under its own key and no other. -/
theorem get?_modify {k other : κ} {f : α → α} (hf : ∀ x, key (f x) = key x) (xs : List α) :
    get? key other (modify key k f xs) =
      if other = k then (get? key other xs).map f else get? key other xs := by
  induction xs with
  | nil => simp [modify, get?]
  | cons x xs ih =>
    by_cases hk : key x = k
    · by_cases hother : other = k
      · simp [modify, get?, hk, hf, hother]
      · have hne : ¬ k = other := fun heq => hother heq.symm
        simp [modify, get?, hk, hf, hother, hne]
    · by_cases hx : key x = other
      · have hne : ¬ other = k := fun heq => hk (hx.trans heq)
        simp [modify, get?, hx, hne]
      · simp [modify, get?, hk, hx, ih]

/-- Only what is done to the element under the key matters. -/
theorem modify_congr {k : κ} {f g : α → α} {xs : List α}
    (h : ∀ x, get? key k xs = some x → f x = g x) : modify key k f xs = modify key k g xs := by
  induction xs with
  | nil => rfl
  | cons x xs ih =>
    by_cases hk : key x = k
    · rw [modify, modify, if_pos hk, if_pos hk, h x (by rw [get?, if_pos hk])]
    · rw [modify, modify, if_neg hk, if_neg hk, ih fun y hy => h y (by rw [get?, if_neg hk, hy])]

theorem modify_id (k : κ) (xs : List α) : modify key k id xs = xs := by
  induction xs with
  | nil => rfl
  | cons x xs ih => rw [modify, ih, id, ite_self]

/-- Two changes under one key are one change, if the first keeps the key. -/
theorem modify_modify {k : κ} {f g : α → α} (hf : ∀ x, key (f x) = key x) (xs : List α) :
    modify key k g (modify key k f xs) = modify key k (g ∘ f) xs := by
  induction xs with
  | nil => rfl
  | cons x xs ih =>
    by_cases hk : key x = k
    · simp [modify, hf, hk]
    · simp [modify, hk, ih]

theorem mem_modify {k : κ} {f : α → α} {y : α} {xs : List α} (h : y ∈ modify key k f xs) :
    y ∈ xs ∨ ∃ x ∈ xs, y = f x := by
  induction xs with
  | nil => cases h
  | cons x xs ih =>
    rw [modify] at h
    split at h
    · rcases List.mem_cons.1 h with rfl | h
      · exact Or.inr ⟨x, List.mem_cons_self, rfl⟩
      · exact Or.inl (List.mem_cons_of_mem x h)
    · rcases List.mem_cons.1 h with rfl | h
      · exact Or.inl List.mem_cons_self
      · rcases ih h with h | ⟨z, hz, heq⟩
        · exact Or.inl (List.mem_cons_of_mem x h)
        · exact Or.inr ⟨z, List.mem_cons_of_mem x hz, heq⟩

/-- Changing one element after another, each under its key, changes them all, if keys stand once. -/
theorem foldl_modify {f : α → α → α} (hf : ∀ x y, key (f x y) = key y) {xs : List α}
    (hkeys : (xs.map key).Nodup) :
    xs.foldl (fun ys x => modify key (key x) (f x) ys) xs = xs.map fun x => f x x := by
  -- those that were changed stand before those that were not, with the keys they had
  have hsplit : ∀ todo done : List α, ((done ++ todo).map key).Nodup →
      todo.foldl (fun ys x => modify key (key x) (f x) ys) (done ++ todo) =
        done ++ todo.map fun x => f x x := by
    intro todo
    induction todo with
    | nil => exact fun _ _ => rfl
    | cons x todo ih =>
      intro done hkeys
      have hshift : done ++ f x x :: todo = (done ++ [f x x]) ++ todo := by simp
      have hsame : ((done ++ [f x x]) ++ todo).map key = (done ++ x :: todo).map key := by
        simp [hf]
      rw [List.foldl_cons, modify_append_cons (fun y hy => ne_of_mem_before hkeys hy) rfl, hshift,
        ih _ (hsame ▸ hkeys), List.append_assoc]
      rfl
  exact hsplit xs [] hkeys

theorem erase_append_cons {k : κ} {x : α} {before after : List α}
    (hbefore : ∀ y ∈ before, key y ≠ k) (hx : key x = k) :
    erase key k (before ++ x :: after) = before ++ after := by
  induction before with
  | nil => simp [erase, hx]
  | cons y ys ih =>
    have hne : key y ≠ k := hbefore y List.mem_cons_self
    rw [List.cons_append, erase, if_neg hne, ih fun z hz => hbefore z (List.mem_cons_of_mem _ hz)]
    rfl

theorem erase_sublist (k : κ) (xs : List α) : (erase key k xs).Sublist xs := by
  induction xs with
  | nil => exact List.Sublist.refl []
  | cons x xs ih =>
    rw [erase]
    split
    · exact List.sublist_cons_self x xs
    · exact ih.cons_cons x

/-! ## Putting one element -/

theorem mem_put {x y : α} {xs : List α} (h : y ∈ put key x xs) : y = x ∨ y ∈ xs := by
  induction xs with
  | nil => exact Or.inl (by simpa [put] using h)
  | cons z zs ih =>
    unfold put at h
    split at h
    · rcases List.mem_cons.1 h with rfl | hzs
      · exact Or.inl rfl
      · exact Or.inr (List.mem_cons_of_mem _ hzs)
    · rcases List.mem_cons.1 h with rfl | hzs
      · exact Or.inr List.mem_cons_self
      · exact (ih hzs).imp_right (List.mem_cons_of_mem _)

theorem nodup_put {x : α} {xs : List α} (hkeys : (xs.map key).Nodup) :
    ((put key x xs).map key).Nodup := by
  induction xs with
  | nil => simp [put]
  | cons y ys ih =>
    rw [List.map_cons, List.nodup_cons] at hkeys
    unfold put
    split
    · next hk => rw [List.map_cons, ← hk, List.nodup_cons]; exact hkeys
    · next hk =>
      rw [List.map_cons, List.nodup_cons]
      refine ⟨fun hmem => ?_, ih hkeys.2⟩
      obtain ⟨z, hz, heq⟩ := List.mem_map.1 hmem
      rcases mem_put hz with rfl | hys
      · exact hk heq.symm
      · exact hkeys.1 (List.mem_map.2 ⟨z, hys, heq⟩)

/-- A put adds its key, unless that is there. -/
theorem map_put (x : α) (xs : List α) : (put key x xs).map key = addNew (key x) (xs.map key) := by
  induction xs with
  | nil => rfl
  | cons y ys ih =>
    unfold put
    split
    · next hk => simp [addNew, hk]
    · next hk =>
      have hne : ¬ key x = key y := fun heq => hk heq.symm
      rw [List.map_cons, ih, List.map_cons, addNew, addNew]
      simp only [List.mem_cons, hne, false_or]
      split
      · rfl
      · rfl

/-- Of two elements of one key the one that is put last stays. -/
theorem put_put {x y : α} (hkey : key y = key x) (xs : List α) :
    put key x (put key y xs) = put key x xs := by
  induction xs with
  | nil => simp [put, hkey]
  | cons z zs ih =>
    by_cases hz : key z = key x
    · simp [put, hz, hkey]
    · simp [put, hz, hkey, ih]

theorem put_eq_append {x : α} {xs : List α} (h : ∀ y ∈ xs, key y ≠ key x) :
    put key x xs = xs ++ [x] := by
  induction xs with
  | nil => rfl
  | cons y ys ih =>
    rw [put, if_neg (h y List.mem_cons_self), ih fun z hz => h z (List.mem_cons_of_mem _ hz)]
    rfl

/-! ### Many elements -/

section Many

variable {β : Type} {f : β → α}

/-- What many puts leave was there before or has been put. -/
theorem mem_foldl_put {x : α} (ys : List β) (xs : List α)
    (h : x ∈ ys.foldl (fun xs y => put key (f y) xs) xs) : x ∈ xs ∨ ∃ y ∈ ys, x = f y := by
  induction ys generalizing xs with
  | nil => exact Or.inl h
  | cons y ys ih =>
    rcases ih _ h with h | ⟨z, hz, heq⟩
    · rcases mem_put h with rfl | h
      · exact Or.inr ⟨y, List.mem_cons_self, rfl⟩
      · exact Or.inl h
    · exact Or.inr ⟨z, List.mem_cons_of_mem y hz, heq⟩

theorem nodup_foldl_put (ys : List β) {xs : List α} (hkeys : (xs.map key).Nodup) :
    ((ys.foldl (fun xs y => put key (f y) xs) xs).map key).Nodup := by
  induction ys generalizing xs with
  | nil => exact hkeys
  | cons y ys ih => exact ih (nodup_put hkeys)

theorem map_foldl_put (ys : List β) (xs : List α) :
    (ys.foldl (fun xs y => put key (f y) xs) xs).map key =
      (ys.map fun y => key (f y)).foldl (fun set k => addNew k set) (xs.map key) := by
  induction ys generalizing xs with
  | nil => rfl
  | cons y ys ih => rw [List.foldl_cons, ih, map_put, List.map_cons, List.foldl_cons]

/-- Elements with new keys, each of its own, are put behind those that are there. -/
theorem foldl_put_eq_append (ys : List β) {xs : List α}
    (hkeys : ((xs ++ ys.map f).map key).Nodup) :
    ys.foldl (fun xs y => put key (f y) xs) xs = xs ++ ys.map f := by
  induction ys generalizing xs with
  | nil => exact (List.append_nil xs).symm
  | cons y ys ih =>
    have hnew : ∀ x ∈ xs, key x ≠ key (f y) := fun x hx => ne_of_mem_before hkeys hx
    have hput : put key (f y) xs = xs ++ [f y] := put_eq_append hnew
    have hsplit : xs ++ (y :: ys).map f = (xs ++ [f y]) ++ ys.map f := by
      rw [List.map_cons, List.append_assoc, List.singleton_append]
    rw [List.foldl_cons, hput, hsplit]
    rw [hsplit] at hkeys
    exact ih hkeys

end Many

/-! ## The first of each key -/

theorem mem_of_mem_firsts {x : α} {xs : List α} (h : x ∈ firsts key xs) : x ∈ xs := by
  unfold firsts at h
  generalize ([] : List κ) = seen at h
  induction xs generalizing seen with
  | nil => rw [firsts.go] at h; exact h
  | cons y ys ih =>
    rw [firsts.go] at h
    split at h
    · exact List.mem_cons_of_mem y (ih seen h)
    · rcases List.mem_cons.1 h with rfl | h
      · exact List.mem_cons_self
      · exact List.mem_cons_of_mem y (ih _ h)

/-- The first of each key is what its key leads to. -/
theorem get?_of_mem_firsts {x : α} {xs : List α} (h : x ∈ firsts key xs) :
    get? key (key x) xs = some x := by
  -- what is kept behind some keys has none of them
  have hgo : ∀ seen : List κ, x ∈ firsts.go key seen xs →
      key x ∉ seen ∧ get? key (key x) xs = some x := by
    clear h
    induction xs with
    | nil =>
      intro seen h
      cases h
    | cons y ys ih =>
      intro seen h
      rw [firsts.go] at h
      split at h
      · next hseen =>
        obtain ⟨hnew, hfind⟩ := ih seen h
        have hne : key y ≠ key x := fun heq => hnew (heq ▸ hseen)
        exact ⟨hnew, by rw [get?, if_neg hne, hfind]⟩
      · next hseen =>
        rcases List.mem_cons.1 h with rfl | h
        · exact ⟨hseen, by rw [get?, if_pos rfl]⟩
        · obtain ⟨hnew, hfind⟩ := ih _ h
          rw [List.mem_cons, not_or] at hnew
          have hne : key y ≠ key x := fun heq => hnew.1 heq.symm
          exact ⟨hnew.2, by rw [get?, if_neg hne, hfind]⟩
  exact (hgo [] h).2

/-! ### Firsts of firsts -/

/-- Only which keys were seen matters. -/
theorem firstsGo_congr {seen others : List κ} (h : ∀ k, k ∈ seen ↔ k ∈ others) (xs : List α) :
    firsts.go key seen xs = firsts.go key others xs := by
  induction xs generalizing seen others with
  | nil => rfl
  | cons x xs ih =>
    have hgrow : ∀ k, k ∈ key x :: seen ↔ k ∈ key x :: others := by
      intro k
      rw [List.mem_cons, List.mem_cons, h]
    rw [firsts.go, firsts.go, ih h, ih hgrow]
    simp only [h]

/-- Behind other elements, their keys have been seen. -/
theorem firstsGo_append (seen : List κ) (xs ys : List α) :
    firsts.go key seen (xs ++ ys) =
      firsts.go key seen xs ++ firsts.go key (xs.map key ++ seen) ys := by
  induction xs generalizing seen with
  | nil => rfl
  | cons x xs ih =>
    rw [List.cons_append, firsts.go, firsts.go]
    by_cases hseen : key x ∈ seen
    · have hsame : ∀ k, k ∈ xs.map key ++ seen ↔ k ∈ (x :: xs).map key ++ seen := by
        intro k
        simp only [List.map_cons, List.cons_append, List.mem_cons, List.mem_append]
        constructor
        · intro h
          exact Or.inr h
        · rintro (rfl | h)
          · exact Or.inr hseen
          · exact h
      rw [if_pos hseen, if_pos hseen, ih, firstsGo_congr hsame]
    · have hsame : ∀ k, k ∈ xs.map key ++ key x :: seen ↔ k ∈ (x :: xs).map key ++ seen := by
        intro k
        simp only [List.map_cons, List.cons_append, List.mem_cons, List.mem_append]
        exact or_left_comm
      rw [if_neg hseen, if_neg hseen, ih, firstsGo_congr hsame, List.cons_append]

/-- What an earlier pass skipped would have been skipped anyway. -/
theorem firstsGo_firstsGo {seen before : List κ} (h : ∀ k ∈ before, k ∈ seen) (xs : List α) :
    firsts.go key seen (firsts.go key before xs) = firsts.go key seen xs := by
  induction xs generalizing seen before with
  | nil => rfl
  | cons x xs ih =>
    rw [firsts.go, firsts.go]
    by_cases hbefore : key x ∈ before
    · rw [if_pos hbefore, if_pos (h _ hbefore), ih h]
    · rw [if_neg hbefore, firsts.go]
      by_cases hseen : key x ∈ seen
      · have hgrow : ∀ k ∈ key x :: before, k ∈ seen := by
          intro k hk
          rcases List.mem_cons.1 hk with rfl | hk
          · exact hseen
          · exact h k hk
        rw [if_pos hseen, if_pos hseen, ih hgrow]
      · have hgrow : ∀ k ∈ key x :: before, k ∈ key x :: seen := by
          intro k hk
          rcases List.mem_cons.1 hk with rfl | hk
          · exact List.mem_cons_self
          · exact List.mem_cons_of_mem _ (h k hk)
        rw [if_neg hseen, if_neg hseen, ih hgrow]

theorem mem_map_firstsGo {k : κ} {seen : List κ} {xs : List α} :
    k ∈ (firsts.go key seen xs).map key ↔ k ∈ xs.map key ∧ k ∉ seen := by
  induction xs generalizing seen with
  | nil => simp [firsts.go]
  | cons x xs ih =>
    rw [firsts.go]
    by_cases hseen : key x ∈ seen
    · rw [if_pos hseen, ih, List.map_cons, List.mem_cons]
      constructor
      · rintro ⟨hk, hnew⟩
        exact ⟨Or.inr hk, hnew⟩
      · rintro ⟨rfl | hk, hnew⟩
        · exact absurd hseen hnew
        · exact ⟨hk, hnew⟩
    · rw [if_neg hseen, List.map_cons, List.mem_cons, ih, List.map_cons, List.mem_cons,
        List.mem_cons, not_or]
      constructor
      · rintro (rfl | ⟨hk, _, hnew⟩)
        · exact ⟨Or.inl rfl, hseen⟩
        · exact ⟨Or.inr hk, hnew⟩
      · rintro ⟨rfl | hk, hnew⟩
        · exact Or.inl rfl
        · by_cases heq : k = key x
          · exact Or.inl heq
          · exact Or.inr ⟨hk, heq, hnew⟩

/-- Taking the first of each key in parts changes nothing for the whole. -/
theorem firstsGo_flatMap_firsts {β : Type} (f : β → List α) (seen : List κ) (bs : List β) :
    firsts.go key seen (bs.flatMap fun b => firsts key (f b)) =
      firsts.go key seen (bs.flatMap f) := by
  induction bs generalizing seen with
  | nil => rfl
  | cons b bs ih =>
    have hkeys : ∀ k, k ∈ (firsts key (f b)).map key ++ seen ↔ k ∈ (f b).map key ++ seen := by
      intro k
      unfold firsts
      rw [List.mem_append, List.mem_append, mem_map_firstsGo]
      simp
    have hpart : firsts.go key seen (firsts key (f b)) = firsts.go key seen (f b) :=
      firstsGo_firstsGo (fun k hk => absurd hk List.not_mem_nil) (f b)
    rw [List.flatMap_cons, List.flatMap_cons, firstsGo_append, firstsGo_append, hpart,
      firstsGo_congr hkeys, ih]

/-- The first of each key in a list with parts that were cut down by themselves before. -/
theorem firsts_append_flatMap_firsts {β : Type} (xs : List α) (f : β → List α) (bs : List β) :
    firsts key (xs ++ bs.flatMap fun b => firsts key (f b)) = firsts key (xs ++ bs.flatMap f) := by
  unfold firsts
  rw [firstsGo_append, firstsGo_append]
  congr 1
  exact firstsGo_flatMap_firsts f _ bs

/-! ## Sets -/

@[simp] theorem mem_addNew {x y : κ} {xs : List κ} : y ∈ addNew x xs ↔ y = x ∨ y ∈ xs := by
  unfold addNew
  split
  · next hx => exact ⟨Or.inr, fun h => h.elim (· ▸ hx) id⟩
  · rw [List.mem_append, List.mem_singleton, or_comm]

theorem mem_foldl_addNew {y : κ} (xs set : List κ) :
    y ∈ xs.foldl (fun set x => addNew x set) set ↔ y ∈ set ∨ y ∈ xs := by
  induction xs generalizing set with
  | nil => simp
  | cons x xs ih =>
    rw [List.foldl_cons, ih, mem_addNew, List.mem_cons, or_assoc, or_left_comm]

/-- A set that is filled from a list holds the elements of the list, each where it came first. -/
theorem foldl_addNew_eq_eraseDups (xs : List κ) :
    xs.foldl (fun set x => addNew x set) [] = xs.eraseDups := by
  induction xs using List.reverseRecOn with
  | nil => rfl
  | append_singleton xs x ih =>
    rw [List.foldl_append, ih, List.eraseDups_append, List.foldl_cons, List.foldl_nil, addNew]
    by_cases hx : x ∈ xs
    · simp [hx, List.removeAll]
    · simp [hx, List.removeAll, List.eraseDups_cons]

end ApiModel.Keyed
