import Mathlib.Data.List.Forall2
import Mathlib.Data.List.Perm.Basic

/-!
# Traversals that may fail

`List.mapM` and `List.foldlM` over `Except`: when they succeed, what they then give, and that the
order of a traversal decides neither.
-/

namespace ApiModel.Traversal

variable {ε α β : Type}

theorem bind_eq_ok {x : Except ε α} {f : α → Except ε β} {y : β} :
    x >>= f = .ok y ↔ ∃ a, x = .ok a ∧ f a = .ok y := by
  cases x with
  | error e => simp [bind, Except.bind]
  | ok a => simp [bind, Except.bind]

theorem map_eq_ok {x : Except ε α} {f : α → β} {y : β} :
    x.map f = .ok y ↔ ∃ a, x = .ok a ∧ f a = y := by
  cases x with
  | error e => simp [Except.map]
  | ok a => simp [Except.map]

theorem bind_eq_error {x : Except ε α} {f : α → Except ε β} {e : ε} :
    x >>= f = .error e ↔ x = .error e ∨ ∃ a, x = .ok a ∧ f a = .error e := by
  cases x with
  | error e' => simp [bind, Except.bind]
  | ok a => simp [bind, Except.bind]

theorem map_eq_error {x : Except ε α} {f : α → β} {e : ε} : x.map f = .error e ↔ x = .error e := by
  cases x with
  | error e' => simp [Except.map]
  | ok a => simp [Except.map]

/-! ## Lists side by side -/

/-- Every element of the one list has its partner in the other. -/
theorem exists_of_mem_left {R : α → β → Prop} {xs : List α} {ys : List β} (h : List.Forall₂ R xs ys)
    {x : α} (hx : x ∈ xs) : ∃ y ∈ ys, R x y := by
  induction h with
  | nil => cases hx
  | cons hfirst _ ih =>
    rcases List.mem_cons.1 hx with rfl | hx
    · exact ⟨_, List.mem_cons_self, hfirst⟩
    · obtain ⟨y, hy, hxy⟩ := ih hx
      exact ⟨y, List.mem_cons_of_mem _ hy, hxy⟩

/-- Lists that are alike as a third one is to both are alike through it. -/
theorem forall₂_trans {γ : Type} {R : α → β → Prop} {S : β → γ → Prop} {T : α → γ → Prop}
    (hstep : ∀ x y z, R x y → S y z → T x z) {xs : List α} {ys : List β} {zs : List γ}
    (h : List.Forall₂ R xs ys) (hnext : List.Forall₂ S ys zs) : List.Forall₂ T xs zs := by
  induction h generalizing zs with
  | nil =>
    cases hnext
    exact .nil
  | cons hfirst _ ih =>
    cases hnext with
    | cons hsecond hrest => exact .cons (hstep _ _ _ hfirst hsecond) (ih hrest)

/-- What partners share the lists share, element by element. -/
theorem map_eq_of_forall₂ {γ : Type} {R : α → β → Prop} {g : α → γ} {g' : β → γ} {xs : List α}
    {ys : List β} (hstep : ∀ x y, R x y → g' y = g x) (h : List.Forall₂ R xs ys) :
    ys.map g' = xs.map g := by
  induction h with
  | nil => rfl
  | cons hfirst _ ih => rw [List.map_cons, List.map_cons, hstep _ _ hfirst, ih]

/-! ## Results -/

/-- A traversal succeeds with the results of its steps. -/
theorem mapM_eq_ok_iff {f : α → Except ε β} {xs : List α} {ys : List β} :
    xs.mapM f = .ok ys ↔ List.Forall₂ (fun x y => f x = .ok y) xs ys := by
  induction xs generalizing ys with
  | nil =>
    rw [List.mapM_nil, List.forall₂_nil_left_iff]
    exact ⟨fun h => (Except.ok.inj h).symm, fun h => congrArg Except.ok h.symm⟩
  | cons x xs ih =>
    rw [List.mapM_cons, List.forall₂_cons_left_iff, bind_eq_ok]
    constructor
    · rintro ⟨y, hy, h⟩
      obtain ⟨rest, hrest, heq⟩ := bind_eq_ok.1 h
      exact ⟨y, rest, hy, ih.1 hrest, (Except.ok.inj heq).symm⟩
    · rintro ⟨y, rest, hy, hrest, rfl⟩
      exact ⟨y, hy, bind_eq_ok.2 ⟨rest, ih.2 hrest, rfl⟩⟩

theorem exists_of_mem_mapM {f : α → Except ε β} {xs : List α} {ys : List β}
    (h : xs.mapM f = .ok ys) {y : β} (hy : y ∈ ys) : ∃ x ∈ xs, f x = .ok y :=
  exists_of_mem_left (mapM_eq_ok_iff.1 h).flip hy

theorem exists_of_mapM_mem {f : α → Except ε β} {xs : List α} {ys : List β}
    (h : xs.mapM f = .ok ys) {x : α} (hx : x ∈ xs) : ∃ y ∈ ys, f x = .ok y :=
  exists_of_mem_left (mapM_eq_ok_iff.1 h) hx

/-- What every step makes of an element that is traversed, the traversal does element by element. -/
theorem forall₂_of_mapM {R : α → β → Prop} {f : α → Except ε β} {xs : List α} {ys : List β}
    (hstep : ∀ x ∈ xs, ∀ y, f x = .ok y → R x y) (h : xs.mapM f = .ok ys) : List.Forall₂ R xs ys :=
  ((List.forall₂_and_left xs ys).2 ⟨hstep, mapM_eq_ok_iff.1 h⟩).imp fun _ y hboth => hboth.1 y hboth.2

/-- What every step hands on from an element to its result is handed on element by element. -/
theorem map_eq_of_mapM {γ : Type} {f : α → Except ε β} {g : α → γ} {g' : β → γ} {xs : List α}
    {ys : List β} (hstep : ∀ x y, f x = .ok y → g' y = g x) (h : xs.mapM f = .ok ys) :
    ys.map g' = xs.map g :=
  map_eq_of_forall₂ hstep (mapM_eq_ok_iff.1 h)

/-- A traversal fails where one of its steps does. -/
theorem exists_of_mapM_eq_error {f : α → Except ε β} {xs : List α} {e : ε}
    (h : xs.mapM f = .error e) : ∃ x ∈ xs, f x = .error e := by
  induction xs with
  | nil => cases h
  | cons x xs ih =>
    rw [List.mapM_cons] at h
    rcases bind_eq_error.1 h with hx | ⟨_, _, h⟩
    · exact ⟨x, List.mem_cons_self, hx⟩
    · rcases bind_eq_error.1 h with hxs | ⟨_, _, h⟩
      · obtain ⟨y, hy, hfail⟩ := ih hxs
        exact ⟨y, List.mem_cons_of_mem _ hy, hfail⟩
      · cases h

/-- Where every step that succeeds is one that another traversal takes too, the other one succeeds with
the same results. -/
theorem mapM_imp {f g : α → Except ε β} {xs : List α} {ys : List β}
    (himp : ∀ x y, f x = .ok y → g x = .ok y) (h : xs.mapM f = .ok ys) : xs.mapM g = .ok ys :=
  mapM_eq_ok_iff.2 ((mapM_eq_ok_iff.1 h).imp himp)

theorem mapM_congr {f g : α → Except ε β} {xs : List α} (h : ∀ x ∈ xs, f x = g x) :
    xs.mapM f = xs.mapM g := by
  induction xs with
  | nil => rfl
  | cons x xs ih =>
    rw [List.mapM_cons, List.mapM_cons, h x List.mem_cons_self,
      ih fun y hy => h y (List.mem_cons_of_mem _ hy)]

/-- A traversal whose steps all find something succeeds with what is made of their finds. -/
theorem mapM_eq_ok_of_filterMap {γ : Type} {f : α → Except ε β} {find : α → Option γ} {g : γ → β}
    {xs : List α} (h : ∀ x ∈ xs, ∃ c, find x = some c ∧ f x = .ok (g c)) :
    xs.mapM f = .ok ((xs.filterMap find).map g) := by
  induction xs with
  | nil => rfl
  | cons x xs ih =>
    obtain ⟨c, hfind, hx⟩ := h x List.mem_cons_self
    have hrest := ih fun y hy => h y (List.mem_cons_of_mem _ hy)
    rw [List.mapM_cons, hx, hrest, List.filterMap_cons_some hfind, List.map_cons]
    rfl

/-- A traversal over the same elements in another order succeeds too, with the same results in that
order. -/
theorem mapM_perm {f : α → Except ε β} {xs xs' : List α} (hperm : xs.Perm xs') {ys : List β}
    (h : xs.mapM f = .ok ys) : ∃ ys', xs'.mapM f = .ok ys' ∧ ys.Perm ys' := by
  have hall := mapM_eq_ok_iff.1 h
  obtain ⟨ys', hall', hys⟩ :=
    (List.perm_comp_forall₂ hperm.symm hall : Relation.Comp _ _ xs' ys)
  exact ⟨ys', mapM_eq_ok_iff.2 hall', hys.symm⟩

/-- What every step keeps, a traversal keeps. -/
theorem foldlM_preserves {P : β → Prop} {f : β → α → Except ε β} {xs : List α}
    (hstep : ∀ b x b', x ∈ xs → P b → f b x = .ok b' → P b') {b b' : β} (hb : P b)
    (h : xs.foldlM f b = .ok b') : P b' := by
  induction xs generalizing b with
  | nil => cases h; exact hb
  | cons x xs ih =>
    rw [List.foldlM_cons] at h
    obtain ⟨next, hnext, hrest⟩ := bind_eq_ok.1 h
    exact ih (fun b y b' hy => hstep b y b' (List.mem_cons_of_mem _ hy))
      (hstep b x next List.mem_cons_self hb hnext) hrest

/-- A loop fails where one of its steps does, after steps that kept what they keep. -/
theorem exists_of_foldlM_eq_error {P : β → Prop} {f : β → α → Except ε β} {xs : List α}
    (hstep : ∀ b x b', x ∈ xs → P b → f b x = .ok b' → P b') {b : β} (hb : P b) {e : ε}
    (h : xs.foldlM f b = .error e) : ∃ b' x, x ∈ xs ∧ P b' ∧ f b' x = .error e := by
  induction xs generalizing b with
  | nil => cases h
  | cons x xs ih =>
    rw [List.foldlM_cons] at h
    rcases bind_eq_error.1 h with hx | ⟨next, hnext, hrest⟩
    · exact ⟨b, x, List.mem_cons_self, hb, hx⟩
    · obtain ⟨b', y, hy, hkept, hfail⟩ :=
        ih (fun b y b' hy => hstep b y b' (List.mem_cons_of_mem _ hy))
          (hstep b x next List.mem_cons_self hb hnext) hrest
      exact ⟨b', y, List.mem_cons_of_mem _ hy, hkept, hfail⟩

/-- A loop that changes one element after another, each into what a step makes of it whatever the others
are, is a traversal. `state` is what the loop runs on, made from the elements. -/
theorem foldlM_eq_mapM {σ κ : Type} {step : σ → κ → Except ε σ} {f : α → Except ε α}
    {key : α → κ} (state : List α → σ) (I : σ → Prop) (todo done : List α)
    (hstep : ∀ done x rest, x ∈ todo → I (state (done ++ x :: rest)) →
      step (state (done ++ x :: rest)) (key x) = (f x).map fun y => state (done ++ y :: rest))
    (hkeep : ∀ done x rest y, x ∈ todo → I (state (done ++ x :: rest)) → f x = .ok y →
      I (state (done ++ y :: rest)))
    (h : I (state (done ++ todo))) :
    (todo.map key).foldlM step (state (done ++ todo)) =
      (todo.mapM f).map fun ys => state (done ++ ys) := by
  induction todo generalizing done with
  | nil => rfl
  | cons x todo ih =>
    rw [List.map_cons, List.foldlM_cons, List.mapM_cons, hstep done x todo List.mem_cons_self h]
    cases hx : f x with
    | error error => rfl
    | ok y =>
      -- the element that was changed joins those that are done
      have hnext := hkeep done x todo y List.mem_cons_self h hx
      have hshift : done ++ y :: todo = (done ++ [y]) ++ todo := by
        rw [List.append_assoc, List.singleton_append]
      show List.foldlM step (state (done ++ y :: todo)) _ = _
      rw [hshift] at hnext ⊢
      rw [ih (done ++ [y]) (fun done x rest hx => hstep done x rest (List.mem_cons_of_mem _ hx))
        (fun done x rest y hx => hkeep done x rest y (List.mem_cons_of_mem _ hx)) hnext]
      show Except.map _ _ = Except.map _ (todo.mapM f >>= _)
      cases todo.mapM f with
      | error error => rfl
      | ok ys => exact congrArg (fun zs => Except.ok (state zs)) (List.append_assoc done [y] ys)

end ApiModel.Traversal
