import ApiModel.Identifier
import ApiModel.Proofs.Text.UpperCamel
import Mathlib.Data.List.Nodup
import Mathlib.Data.List.Perm.Subperm
import Mathlib.Order.Bounds.Defs

/-!
# Identifiers are well formed and differ

Whatever a name is made of, if it is spelled in ASCII its identifier is a capital letter with letters and
digits behind it (`Proper`).

A base whose lower-case form is not given yet is its own identifier. Any other base gets a counter. Digits
stay what they are in lower case, so no two counters give one form, and only as many of them can be taken as
there are forms: a least free one is always there (`distinct_cases`). So no two of the identifiers that are
given in turn are equal in lower case (`assign_exact`).
-/

namespace ApiModel.Identifier

/-- The lower-case forms of identifiers. -/
def forms (identifiers : List String) : List String := identifiers.map Text.lowercase

/-! ## Well-formed identifiers -/

/-- A capital letter, and letters and digits behind it, all of them ASCII characters. -/
def Proper (text : String) : Prop :=
  ∃ first rest, text.toList = first :: rest ∧ first.isUpper ∧ ∀ c ∈ rest, c.isAlphanum

section Spelling

variable {spell : Text.Spelling} (hascii : ∀ text, Text.Ascii (spell text))
include hascii

/-- How a name is spelled plays no part, as long as it is spelled in ASCII. -/
theorem proper_ofChars {fallback : List Char} (h : Proper (String.ofList fallback)) (name : List Char) :
    Proper (String.ofList (ofChars spell fallback name)) := by
  obtain ⟨hchars, hfirst⟩ := Text.titled_upperCamelChars (hascii name)
  unfold ofChars
  split
  · exact h
  · next c rest hcamel =>
    rw [hcamel] at hchars hfirst
    split
    · exact ⟨'N', c :: rest, String.toList_ofList, rfl, hchars⟩
    · next hdigit =>
      refine ⟨c, rest, String.toList_ofList, (hfirst c rfl).resolve_right hdigit, ?_⟩
      exact fun d hd => hchars d (List.mem_cons_of_mem c hd)

theorem proper_ofProperty (name : String) : Proper (ofProperty spell name) :=
  proper_ofChars hascii ⟨'P', "roperty".toList, rfl, rfl, List.all_eq_true.1 (by decide)⟩ _

theorem proper_ofClass (name : String) : Proper (ofClass spell name) :=
  proper_ofChars hascii ⟨'M', "odel".toList, rfl, rfl, List.all_eq_true.1 (by decide)⟩ _

end Spelling

/-- A counter behind an identifier keeps it well formed. -/
theorem Proper.numbered {base : String} (h : Proper base) (counter : Nat) :
    Proper (numbered base counter) := by
  obtain ⟨first, rest, hbase, hfirst, hrest⟩ := h
  obtain ⟨-, hdigits, -⟩ := Pointer.digits_toString counter
  refine ⟨first, rest ++ (toString counter).toList, ?_, hfirst, fun c hc => ?_⟩
  · rw [Identifier.numbered, String.toList_append, hbase, List.cons_append]
  · rcases List.mem_append.1 hc with hc | hc
    · exact hrest c hc
    · exact Text.isAlphanum_of_isDigit (hdigits c hc)

/-! ## Counters -/

/-- A counter stays what it is in lower case. -/
theorem lowercase_numbered (base : String) (counter : Nat) :
    Text.lowercase (numbered base counter) = Text.lowercase base ++ toString counter := by
  obtain ⟨-, hdigits, -⟩ := Pointer.digits_toString counter
  unfold Text.lowercase numbered
  rw [String.toList_append, Text.lowerChars_append_digits [] base.toList hdigits,
    String.ofList_append, String.ofList_toList]

/-- Different counters give different forms. -/
theorem lowercase_numbered_injective (base : String) :
    Function.Injective fun counter => Text.lowercase (numbered base counter) := by
  intro n m h
  dsimp only at h
  rw [lowercase_numbered, lowercase_numbered, String.append_right_inj] at h
  exact Pointer.toString_injective h

/-- No counter gives the form of the base. -/
theorem lowercase_numbered_ne (base : String) (counter : Nat) :
    Text.lowercase (numbered base counter) ≠ Text.lowercase base := by
  obtain ⟨hne, -, -⟩ := Pointer.digits_toString counter
  rw [lowercase_numbered]
  intro h
  have hchars := congrArg String.toList h
  rw [String.toList_append] at hchars
  exact hne (List.append_right_eq_self.1 hchars)

/-- The counters from `first` on whose forms are not taken. -/
def freeCounters (base : String) (taken : List String) (first : Nat) : Set Nat :=
  {counter | first ≤ counter ∧ Text.lowercase (numbered base counter) ∉ taken}

/-- A first counter that is taken makes no difference, and no later one has its form. -/
theorem freeCounters_succ {base : String} {taken : List String} {first : Nat}
    (h : Text.lowercase (numbered base first) ∈ taken) :
    freeCounters base (taken.erase (Text.lowercase (numbered base first))) (first + 1) =
      freeCounters base taken first := by
  ext counter
  show first + 1 ≤ counter ∧ _ ↔ first ≤ counter ∧ _
  rcases Nat.lt_trichotomy counter first with hlt | rfl | hgt
  · constructor <;> intro hfree <;> omega
  · exact ⟨fun hfree => absurd hfree.1 (by omega), fun hfree => absurd h hfree.2⟩
  · have hne : Text.lowercase (numbered base counter) ≠ Text.lowercase (numbered base first) :=
      fun heq => Nat.ne_of_gt hgt (lowercase_numbered_injective base heq)
    rw [List.mem_erase_of_ne hne]
    exact and_congr_left fun _ => ⟨fun _ => Nat.le_of_lt hgt, fun _ => hgt⟩

/-- The search ends at the least free counter. -/
theorem freeCounter_isLeast (base : String) (taken : List String) (first : Nat) :
    IsLeast (freeCounters base taken first) (freeCounter base taken first) := by
  fun_induction freeCounter base taken first with
  | case1 taken first form hmem ih =>
    rw [← freeCounters_succ hmem]
    exact ih
  | case2 taken first form hnot => exact ⟨⟨Nat.le_refl first, hnot⟩, fun _ hfree => hfree.1⟩

/-- The least free counter comes within as many steps as there are forms that a counter can have. -/
theorem le_of_isLeast_freeCounters {base : String} {taken : List String} {first counter : Nat}
    (h : IsLeast (freeCounters base taken first) counter)
    (hbase : Text.lowercase base ∈ taken) : counter + 1 ≤ first + taken.length := by
  -- the forms of all counters before it are taken, and that of the base is too
  have hbefore : ∀ form ∈ (List.range' first (counter - first)).map
      (fun counter => Text.lowercase (numbered base counter)), form ∈ taken.erase (Text.lowercase base) := by
    intro form hform
    obtain ⟨other, hother, rfl⟩ := List.mem_map.1 hform
    obtain ⟨hle, hlt⟩ := List.mem_range'_1.1 hother
    rw [List.mem_erase_of_ne (lowercase_numbered_ne base other)]
    by_contra hfree
    have hleast := h.2 ⟨hle, hfree⟩
    omega
  have hnodup := List.Nodup.map (lowercase_numbered_injective base)
    (List.nodup_range' (s := first) (n := counter - first))
  have hlength := (hnodup.subperm hbefore).length_le
  rw [List.length_map, List.length_range', List.length_erase_of_mem hbase] at hlength
  have hpos := List.length_pos_of_mem hbase
  omega

/-! ## One identifier -/

/-- A base that is not taken is its own identifier, and any other gets the least free counter. -/
theorem distinct_cases (taken : List String) (base : String) :
    Text.lowercase base ∉ taken ∧ distinct taken base = base ∨
      Text.lowercase base ∈ taken ∧ ∃ counter, counter ≤ taken.length + 1 ∧
        distinct taken base = numbered base counter ∧ IsLeast (freeCounters base taken 2) counter := by
  unfold distinct
  split
  · next hmem =>
    have hleast := freeCounter_isLeast base taken 2
    have hle := le_of_isLeast_freeCounters hleast hmem
    exact Or.inr ⟨hmem, _, by omega, rfl, hleast⟩
  · next hnot => exact Or.inl ⟨hnot, rfl⟩

theorem lowercase_distinct_not_mem (taken : List String) (base : String) :
    Text.lowercase (distinct taken base) ∉ taken := by
  rcases distinct_cases taken base with ⟨hfree, heq⟩ | ⟨-, counter, -, heq, hleast⟩
  · rw [heq]
    exact hfree
  · rw [heq]
    exact hleast.1.2

theorem Proper.distinct {base : String} (h : Proper base) (taken : List String) :
    Proper (distinct taken base) := by
  rcases distinct_cases taken base with ⟨-, heq⟩ | ⟨-, counter, -, heq, -⟩
  · rw [heq]
    exact h
  · rw [heq]
    exact h.numbered counter

/-! ## Identifiers in turn -/

theorem length_assignFrom (taken bases : List String) :
    (assignFrom taken bases).length = bases.length := by
  induction bases generalizing taken with
  | nil => rfl
  | cons base rest ih => rw [assignFrom, List.length_cons, ih, List.length_cons]

/-- A later base finds the forms taken that were taken before, and those of the identifiers given since. -/
theorem assignFrom_concat (taken bases : List String) (base : String) :
    assignFrom taken (bases ++ [base]) = assignFrom taken bases ++
      [distinct ((forms (assignFrom taken bases)).reverse ++ taken) base] := by
  induction bases generalizing taken with
  | nil => rfl
  | cons first rest ih =>
    rw [List.cons_append, assignFrom, assignFrom, ih, forms, forms, List.map_cons, List.reverse_cons,
      List.append_assoc]
    rfl

/-- No form is given twice, and none that was taken. -/
theorem nodup_forms_assignFrom (taken bases : List String) :
    (forms (assignFrom taken bases)).Nodup ∧ ∀ form ∈ forms (assignFrom taken bases), form ∉ taken := by
  induction bases generalizing taken with
  | nil => exact ⟨List.nodup_nil, fun form hform => absurd hform List.not_mem_nil⟩
  | cons base rest ih =>
    obtain ⟨hnodup, hnew⟩ := ih (Text.lowercase (distinct taken base) :: taken)
    have hforms : forms (assignFrom taken (base :: rest)) = Text.lowercase (distinct taken base) ::
        forms (assignFrom (Text.lowercase (distinct taken base) :: taken) rest) := rfl
    rw [hforms]
    refine ⟨List.nodup_cons.2 ⟨fun hmem => hnew _ hmem List.mem_cons_self, hnodup⟩, ?_⟩
    intro form hform
    rcases List.mem_cons.1 hform with rfl | hform
    · exact lowercase_distinct_not_mem taken base
    · exact fun hmem => hnew form hform (List.mem_cons_of_mem _ hmem)

theorem proper_assignFrom (taken : List String) {bases : List String} (h : ∀ base ∈ bases, Proper base) :
    ∀ identifier ∈ assignFrom taken bases, Proper identifier := by
  induction bases generalizing taken with
  | nil => exact fun _ hmem => absurd hmem List.not_mem_nil
  | cons base rest ih =>
    intro identifier hmem
    rcases List.mem_cons.1 hmem with rfl | hmem
    · exact (h base List.mem_cons_self).distinct taken
    · exact ih _ (fun other hother => h other (List.mem_cons_of_mem base hother)) identifier hmem

/-- Every base gets an identifier. It is the base itself if none before is equal to it in lower case, and
else the base with the least counter from 2 on that makes it so. No two of the identifiers are equal in lower
case, and no counter is greater than the number of bases up to its own. -/
theorem assign_exact :
    (∀ bases base, ∃ identifier, assign (bases ++ [base]) = assign bases ++ [identifier] ∧
      (Text.lowercase base ∉ forms (assign bases) ∧ identifier = base ∨
        Text.lowercase base ∈ forms (assign bases) ∧ ∃ counter, identifier = base ++ toString counter ∧
          counter ≤ bases.length + 1 ∧
          IsLeast {free | 2 ≤ free ∧
            Text.lowercase (base ++ toString free) ∉ forms (assign bases)} counter)) ∧
      ∀ bases, (assign bases).length = bases.length ∧ (forms (assign bases)).Nodup := by
  refine ⟨fun bases base => ⟨_, assignFrom_concat [] bases base, ?_⟩, fun bases =>
    ⟨length_assignFrom [] bases, (nodup_forms_assignFrom [] bases).1⟩⟩
  have hlength : (forms (assignFrom [] bases)).reverse.length = bases.length := by
    rw [List.length_reverse, forms, List.length_map, length_assignFrom]
  have hcases := distinct_cases (forms (assignFrom [] bases)).reverse base
  unfold freeCounters at hcases
  rw [hlength] at hcases
  simp only [List.mem_reverse] at hcases
  rw [List.append_nil]
  rcases hcases with hfree | ⟨htaken, counter, hle, heq, hleast⟩
  · exact Or.inl hfree
  · exact Or.inr ⟨htaken, counter, heq, hle, hleast⟩

/-- A counter that is taken by a base of its own is passed over. -/
example : assign ["Name2", "Name", "name"] = ["Name2", "Name", "name3"] := by decide +kernel

end ApiModel.Identifier
