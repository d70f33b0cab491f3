import ApiModel.Proofs.Text.Folding

/-!
# Singulars cut at bytes

A rule finds the end of a word in small letters and cuts a number of bytes off the word itself
(`singularize?`). The end is made of ASCII characters in the word too, since only these have ASCII characters
for their small letters. So every cut lies in the word and between two of its characters, and it drops as many
characters as it drops bytes (`singularize?_eq_some`).
-/

namespace ApiModel.Text

/-! ## Cuts -/

/-- The first `n` bytes of a text; none where it has not so many, or where they end inside a character. -/
def takeBytes? : Nat → List Char → Option (List Char)
  | 0, _ => some []
  | _ + 1, [] => none
  | n + 1, c :: rest =>
    if c.utf8Size ≤ n + 1 then (takeBytes? (n + 1 - c.utf8Size) rest).map (c :: ·) else none

/-- The text without its last `n` bytes; none where it has not so many, or where a character would be cut. -/
def dropEndBytes? (n : Nat) (chars : List Char) : Option (List Char) :=
  if n ≤ byteLength chars then takeBytes? (byteLength chars - n) chars else none

theorem byteLength_cons (c : Char) (rest : List Char) :
    byteLength (c :: rest) = c.utf8Size + byteLength rest := by
  have hfrom : ∀ chars : List Char, ∀ start : Nat,
      chars.foldl (fun length c => length + c.utf8Size) start = start + byteLength chars := by
    intro chars
    unfold byteLength
    induction chars with
    | nil => intro start; rfl
    | cons c rest ih =>
      intro start
      rw [List.foldl_cons, List.foldl_cons, ih, ih (0 + c.utf8Size), Nat.zero_add, Nat.add_assoc]
  rw [byteLength, List.foldl_cons, hfrom, Nat.zero_add]

theorem byteLength_append (front back : List Char) :
    byteLength (front ++ back) = byteLength front + byteLength back := by
  induction front with
  | nil => exact (Nat.zero_add _).symm
  | cons c rest ih => rw [List.cons_append, byteLength_cons, byteLength_cons, ih, Nat.add_assoc]

theorem byteLength_of_ascii {chars : List Char} (h : ∀ c ∈ chars, c.toNat < 128) :
    byteLength chars = chars.length := by
  induction chars with
  | nil => rfl
  | cons c rest ih =>
    have hc : c.utf8Size = 1 := of_ascii (p := fun c => c.utf8Size = 1) (by decide +kernel)
      (h c List.mem_cons_self)
    rw [byteLength_cons, hc, ih fun d hd => h d (List.mem_cons_of_mem c hd), List.length_cons, Nat.add_comm]

theorem takeBytes?_cons (c : Char) (n : Nat) (rest : List Char) :
    takeBytes? (c.utf8Size + n) (c :: rest) = (takeBytes? n rest).map (c :: ·) := by
  obtain ⟨size, hsize⟩ := Nat.exists_eq_add_one.2 c.utf8Size_pos
  have hsum : c.utf8Size + n = size + n + 1 := by omega
  have hrest : size + n + 1 - c.utf8Size = n := by omega
  rw [hsum, takeBytes?, if_pos (by omega), hrest]

theorem takeBytes?_append (front back : List Char) :
    takeBytes? (byteLength front) (front ++ back) = some front := by
  induction front with
  | nil =>
    have hzero : byteLength [] = 0 := rfl
    rw [hzero, takeBytes?]
  | cons c rest ih => rw [byteLength_cons, List.cons_append, takeBytes?_cons, ih]; rfl

/-- There is a cut at a number of bytes exactly where some characters from the start have that many, and it
gives these. -/
theorem takeBytes?_eq_some_iff {n : Nat} {chars front : List Char} :
    takeBytes? n chars = some front ↔ ∃ back, chars = front ++ back ∧ byteLength front = n := by
  constructor
  · intro h
    fun_induction takeBytes? n chars generalizing front with
    | case1 chars =>
      rw [← Option.some.inj h]
      exact ⟨chars, rfl, rfl⟩
    | case2 n => cases h
    | case3 n c rest hsize ih =>
      obtain ⟨front, hfront, rfl⟩ := Option.map_eq_some_iff.1 h
      obtain ⟨back, rfl, hlength⟩ := ih hfront
      refine ⟨back, rfl, ?_⟩
      rw [byteLength_cons, hlength]
      omega
    | case4 n c rest hsize => cases h
  · rintro ⟨back, rfl, rfl⟩
    exact takeBytes?_append front back

theorem utf8ByteSize_ofList (chars : List Char) : (String.ofList chars).utf8ByteSize = byteLength chars := by
  induction chars with
  | nil => rfl
  | cons c rest ih =>
    have hcons : String.ofList (c :: rest) = String.singleton c ++ String.ofList rest := by
      rw [← String.toList_inj, String.toList_append, String.toList_ofList, String.toList_ofList,
        String.toList_singleton]
      rfl
    rw [hcons, String.utf8ByteSize_append, String.utf8ByteSize_singleton, ih, byteLength_cons]

/-- There is a cut at a number of bytes exactly where that is a position in the text between two characters. -/
theorem isSome_takeBytes?_iff {n : Nat} {chars : List Char} :
    (takeBytes? n chars).isSome ↔ String.Pos.Raw.IsValid (String.ofList chars) ⟨n⟩ := by
  rw [Option.isSome_iff_exists, String.Pos.Raw.isValid_iff_exists_append]
  constructor
  · rintro ⟨front, hfront⟩
    obtain ⟨back, rfl, rfl⟩ := takeBytes?_eq_some_iff.1 hfront
    refine ⟨String.ofList front, String.ofList back, String.ofList_append, ?_⟩
    rw [String.Pos.Raw.ext_iff, String.byteIdx_rawEndPos, utf8ByteSize_ofList]
  · rintro ⟨front, back, hchars, hn⟩
    refine ⟨front.toList, takeBytes?_eq_some_iff.2 ⟨back.toList, ?_, ?_⟩⟩
    · rw [← String.toList_append, ← hchars, String.toList_ofList]
    · rw [← utf8ByteSize_ofList, String.ofList_toList]
      exact (String.Pos.Raw.ext_iff.1 hn).symm

/-! ## The rules with their cuts -/

/-- The singular by the suffix rules, with every cut made at a byte of the word. -/
def singularBySuffix? (word folded : List Char) : Option (List Char) :=
  if 4 < byteLength folded && endsInAny ["ies"] folded then (dropEndBytes? 3 word).map (· ++ ['y'])
  else if endsInAny ["quizzes"] folded then dropEndBytes? 3 word
  else if endsInAny ["sses", "xes", "ches", "shes", "zzes"] folded then dropEndBytes? 2 word
  else if endsInAny ["ss", "us", "is"] folded then some word
  else if 1 < byteLength folded && endsInAny ["s"] folded then dropEndBytes? 1 word
  else some word

/-- The singular of a noun, with every cut made at a byte of the word; none if one of them is out of the word
or inside a character. -/
def singularize? (word : String) : Option String :=
  let folded := asciiLower word
  if folded ∈ uninflected then some word
  else
    match irregularPlurals.lookup folded with
    | some singular => some (String.ofList (matchCase word.toList singular.toList))
    | none => (singularBySuffix? word.toList folded.toList).map String.ofList

section Cuts

variable {word : List Char} {n : Nat}

theorem toNat_lt_of_toLower {c : Char} (h : c.toLower.toNat < 128) : c.toNat < 128 := by
  by_cases hupper : c.isUpper
  · exact toNat_lt_of_isAlphanum (isAlphanum_of_isUpper hupper)
  · rwa [toLower_of_not_isUpper hupper] at h

/-- A cut in an end that is ASCII in small letters drops as many characters as bytes. -/
theorem dropEndBytes?_of_ascii {stem ending : List Char} (hword : word.map Char.toLower = stem ++ ending)
    (hascii : ∀ c ∈ ending, c.toNat < 128) (hn : n ≤ ending.length) :
    dropEndBytes? n word = some (dropEnd n word) := by
  obtain ⟨front, back, rfl, -, rfl⟩ := List.map_eq_append_iff.1 hword
  rw [List.length_map] at hn
  have hback : ∀ c ∈ back, c.toNat < 128 :=
    fun c hc => toNat_lt_of_toLower (hascii _ (List.mem_map_of_mem hc))
  have hsplit : front ++ back = dropEnd n (front ++ back) ++ back.drop (back.length - n) := by
    rw [dropEnd_append front hn, List.append_assoc, dropEnd, List.take_append_drop]
  have hdropped : byteLength (back.drop (back.length - n)) = n := by
    rw [byteLength_of_ascii fun c hc => hback c (List.mem_of_mem_drop hc), List.length_drop]
    omega
  have hlength : byteLength (front ++ back) = byteLength (dropEnd n (front ++ back)) + n := by
    conv_lhs => rw [hsplit, byteLength_append, hdropped]
  have hkept : byteLength (front ++ back) - n = byteLength (dropEnd n (front ++ back)) := by omega
  rw [dropEndBytes?, if_pos (by omega), hkept]
  exact takeBytes?_eq_some_iff.2 ⟨_, hsplit, rfl⟩

/-- What a rule may cut off: no more characters than the suffixes have, which are ASCII. -/
theorem dropEndBytes?_of_endsInAny {suffixes : List String}
    (h : endsInAny suffixes (word.map Char.toLower))
    (hsuffixes : ∀ suffix ∈ suffixes, n ≤ suffix.toList.length ∧ suffix.toList.all (·.toNat < 128)) :
    dropEndBytes? n word = some (dropEnd n word) := by
  obtain ⟨suffix, hmem, stem, hword⟩ := exists_stem_of_endsInAny h
  obtain ⟨hn, hall⟩ := hsuffixes suffix hmem
  have hascii : ∀ c ∈ suffix.toList, c.toNat < 128 :=
    fun c hc => of_decide_eq_true (List.all_eq_true.1 hall c hc)
  exact dropEndBytes?_of_ascii hword hascii hn

/-- The rules never cut out of the word or inside a character. -/
theorem singularBySuffix?_eq_some (word : List Char) :
    singularBySuffix? word (word.map Char.toLower) =
      some (singularBySuffix word (word.map Char.toLower)) := by
  unfold singularBySuffix? singularBySuffix
  split
  · next hrule =>
    rw [dropEndBytes?_of_endsInAny (Bool.and_eq_true_iff.1 hrule).2 (by decide)]
    rfl
  · split
    · next hrule => exact dropEndBytes?_of_endsInAny hrule (by decide)
    · split
      · next hrule => exact dropEndBytes?_of_endsInAny hrule (by decide)
      · split
        · rfl
        · split
          · next hrule => exact dropEndBytes?_of_endsInAny (Bool.and_eq_true_iff.1 hrule).2 (by decide)
          · rfl

end Cuts

theorem singularize?_eq_some (word : String) : singularize? word = some (singularize word) := by
  have hfolded : (asciiLower word).toList = word.toList.map Char.toLower := String.toList_map
  unfold singularize? singularize singularizeChars
  dsimp only
  rw [← hfolded, String.ofList_toList]
  split
  · rw [String.ofList_toList]
  · cases irregularPlurals.lookup (asciiLower word) with
    | some singular => rfl
    | none =>
      dsimp only
      rw [hfolded, singularBySuffix?_eq_some]
      rfl

/-- No cut in a word fails. The singular in small letters is that of the word in small letters, only an empty
word has an empty singular, and the first character stays, so that it is a capital exactly if that of the word
is one. -/
theorem singularize_exact (word : String) :
    singularize? word = some (singularize word) ∧
      asciiLower (singularize word) = singularize (asciiLower word) ∧
      (singularize word = "" ↔ word = "") ∧
      (singularize word).toList.head? = word.toList.head? ∧
      (singularize word).toList.head?.any Char.isUpper = word.toList.head?.any Char.isUpper := by
  have hhead : (singularize word).toList.head? = word.toList.head? := by
    rw [singularize, String.toList_ofList, head?_singularizeChars]
  refine ⟨singularize?_eq_some word, ?_, ?_, hhead, by rw [hhead]⟩
  · apply String.toList_injective
    rw [asciiLower, String.toList_map, singularize, singularize, String.toList_ofList, String.toList_ofList,
      map_toLower_singularizeChars, asciiLower, String.toList_map]
  · rw [← String.toList_eq_nil_iff, ← String.toList_eq_nil_iff, ← List.head?_eq_none_iff, hhead,
      List.head?_eq_none_iff]

end ApiModel.Text
