/-!
Lists whose elements carry their own key. `Keyed.put` keeps the first position of a key and the
last value given for it, which is how documents, registries and classes keep their parts in order.
-/

namespace ApiModel.Keyed

variable {α κ : Type} [DecidableEq κ]

/-- The first element under `k`. -/
def get? (key : α → κ) (k : κ) : List α → Option α
  | [] => none
  | x :: xs => if key x = k then some x else get? key k xs

/-- Replaces the element with the key of `x` where it stands, or appends `x`. -/
def put (key : α → κ) (x : α) : List α → List α
  | [] => [x]
  | y :: ys => if key y = key x then x :: ys else y :: put key x ys

/-- Changes the first element under `k`, if there is one. -/
def modify (key : α → κ) (k : κ) (f : α → α) : List α → List α
  | [] => []
  | x :: xs => if key x = k then f x :: xs else x :: modify key k f xs

/-- Drops the first element under `k`; the others keep their order. -/
def erase (key : α → κ) (k : κ) : List α → List α
  | [] => []
  | x :: xs => if key x = k then xs else x :: erase key k xs

/-- Appends `x` unless it is there already. -/
def addNew (x : κ) (xs : List κ) : List κ :=
  if x ∈ xs then xs else xs ++ [x]

/-- The elements in order, each key only once and with its first element. -/
def firsts (key : α → κ) (xs : List α) : List α :=
  go [] xs
where
  /-- Skips the keys in `seen`. -/
  go (seen : List κ) : List α → List α
    | [] => []
    | x :: xs => if key x ∈ seen then go seen xs else x :: go (key x :: seen) xs

theorem key_of_get? {key : α → κ} {k : κ} {xs : List α} {x : α} (h : get? key k xs = some x) :
    key x = k := by
  induction xs with
  | nil => simp [get?] at h
  | cons y ys ih =>
    unfold get? at h
    split at h
    · next hk => cases h; exact hk
    · exact ih h

theorem mem_of_get? {key : α → κ} {k : κ} {xs : List α} {x : α} (h : get? key k xs = some x) :
    x ∈ xs := by
  induction xs with
  | nil => simp [get?] at h
  | cons y ys ih =>
    unfold get? at h
    split at h
    · cases h; exact List.mem_cons_self
    · exact List.mem_cons_of_mem _ (ih h)

theorem get?_put_self (key : α → κ) (x : α) (xs : List α) :
    get? key (key x) (put key x xs) = some x := by
  induction xs with
  | nil => simp [put, get?]
  | cons y ys ih =>
    unfold put
    split
    · simp [get?]
    · next hk => simp [get?, hk, ih]

theorem get?_put_of_ne {key : α → κ} {k : κ} {x : α} (hne : key x ≠ k) (xs : List α) :
    get? key k (put key x xs) = get? key k xs := by
  induction xs with
  | nil => simp [put, get?, hne]
  | cons y ys ih =>
    unfold put
    split
    · next hk => simp [get?, hk, hne]
    · simp [get?, ih]

end ApiModel.Keyed
