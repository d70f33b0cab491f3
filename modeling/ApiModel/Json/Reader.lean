import ApiModel.Json.Number
import ApiModel.Text.Percent

/-!
Reading JSON. A reader takes what it understands from the front of the text and returns the rest;
anything that is not JSON gives nothing. Arrays and objects may nest up to a given depth.
-/

namespace ApiModel.Json

/-- Drops the blanks that JSON allows between its tokens. -/
def skipBlank (chars : List Char) : List Char :=
  chars.dropWhile fun c => c = ' ' || c = '\t' || c = '\n' || c = '\x0d'

/-- The number that four hexadecimal digits stand for. -/
def hex4? (a b c d : Char) : Option Nat :=
  match [a, b, c, d].mapM Text.Percent.hexValue? with
  | some [w, x, y, z] => some (w * 4096 + x * 256 + y * 16 + z)
  | _ => none

/-- The character of a single-letter escape. -/
def escaped? : Char → Option Char
  | '"' => some '"'
  | '\\' => some '\\'
  | '/' => some '/'
  | 'b' => some '\x08'
  | 'f' => some '\x0c'
  | 'n' => some '\n'
  | 'r' => some '\x0d'
  | 't' => some '\t'
  | _ => none

/-- Reads the rest of a string, after its opening quote. Escapes of surrogates come in pairs. -/
def stringBody? : List Char → Option (List Char × List Char)
  | [] => none
  | '"' :: rest => some ([], rest)
  | '\\' :: 'u' :: a :: b :: c :: d :: rest =>
    match hex4? a b c d with
    | none => none
    | some code =>
      if 0xD800 ≤ code && code < 0xDC00 then
        match rest with
        | '\\' :: 'u' :: e :: f :: g :: h :: tail =>
          match hex4? e f g h with
          | none => none
          | some low =>
            if 0xDC00 ≤ low && low < 0xE000 then
              let c := Char.ofNat (0x10000 + (code - 0xD800) * 1024 + (low - 0xDC00))
              (stringBody? tail).map fun (body, after) => (c :: body, after)
            else none
        | _ => none
      else if 0xDC00 ≤ code && code < 0xE000 then none
      else (stringBody? rest).map fun (body, after) => (Char.ofNat code :: body, after)
  | '\\' :: e :: rest =>
    (escaped? e).bind fun c => (stringBody? rest).map fun (body, after) => (c :: body, after)
  | c :: rest =>
    if c < ' ' || c = '\\' then none
    else (stringBody? rest).map fun (body, after) => (c :: body, after)

/-- The digits at the front of a text, and the rest. -/
def digits (chars : List Char) : List Nat × List Char :=
  ((chars.takeWhile Char.isDigit).map (·.toNat - 48), chars.dropWhile Char.isDigit)

/-- Reads a fraction, if there is one. -/
def fraction? : List Char → Option (Option (List Nat) × List Char)
  | '.' :: rest =>
    match digits rest with
    | ([], _) => none
    | (places, after) => some (some places, after)
  | chars => some (none, chars)

/-- Reads the sign of an exponent, if there is one: whether it is a minus. -/
def exponentSign : List Char → Bool × List Char
  | '-' :: rest => (true, rest)
  | '+' :: rest => (false, rest)
  | chars => (false, chars)

/-- Reads an exponent, if there is one. -/
def exponent? : List Char → Option (Option Int × List Char)
  | [] => some (none, [])
  | c :: rest =>
    if c = 'e' || c = 'E' then
      match digits (exponentSign rest).2 with
      | ([], _) => none
      | (ds, after) =>
        let size : Nat := ds.foldl (fun n d => n * 10 + d) 0
        some (some (if (exponentSign rest).1 then -(size : Int) else size), after)
    else some (none, c :: rest)

/-- Reads a number without its sign. A zero at its start is its only digit before the point. -/
def number? (negative : Bool) (chars : List Char) : Option (Document × List Char) :=
  match digits chars with
  | ([], _) => none
  | (0 :: _ :: _, _) => none
  | (whole, rest) =>
    (fraction? rest).bind fun (fraction, rest) =>
      (exponent? rest).bind fun (exponent, rest) =>
        (Literal.value? { negative, whole, fraction, exponent }).map fun value => (value, rest)

/-- Drops a word from the front of a text. -/
def dropWord? : List Char → List Char → Option (List Char)
  | [], rest => some rest
  | c :: word, d :: rest => if c = d then dropWord? word rest else none
  | _ :: _, [] => none

/-- Reads a string, a number or a word. -/
def scalar? : List Char → Option (Document × List Char)
  | '"' :: rest => (stringBody? rest).map fun (body, after) => (.string (String.ofList body), after)
  | '-' :: rest => number? true rest
  | 'n' :: rest => (dropWord? ['u', 'l', 'l'] rest).map fun after => (.null, after)
  | 't' :: rest => (dropWord? ['r', 'u', 'e'] rest).map fun after => (.bool true, after)
  | 'f' :: rest => (dropWord? ['a', 'l', 's', 'e'] rest).map fun after => (.bool false, after)
  | chars => number? false chars

/-! What is left after a token is shorter than before, so that what follows it can be read. -/

theorem length_skipBlank_le (chars : List Char) : (skipBlank chars).length ≤ chars.length :=
  (List.dropWhile_sublist _).length_le

theorem length_lt_of_skipBlank {chars rest : List Char} {c : Char}
    (h : skipBlank chars = c :: rest) : rest.length < chars.length := by
  have := length_skipBlank_le chars
  rw [h, List.length_cons] at this
  omega

theorem length_stringBody?_lt {chars : List Char} {body : List Char × List Char}
    (h : stringBody? chars = some body) : body.2.length < chars.length := by
  fun_induction stringBody? chars generalizing body <;>
    simp_all [Option.map_eq_some_iff, Option.bind_eq_some_iff] <;> grind

theorem length_digits_le (chars : List Char) : (digits chars).2.length ≤ chars.length :=
  (List.dropWhile_sublist _).length_le

theorem length_digits_lt {chars after : List Char} {digit : Nat} {rest : List Nat}
    (h : digits chars = (digit :: rest, after)) : after.length < chars.length := by
  cases chars with
  | nil => simp [digits] at h
  | cons c chars =>
    by_cases hc : c.isDigit
    · have hle := (List.dropWhile_sublist (l := chars) Char.isDigit).length_le
      simp only [digits, List.dropWhile_cons, hc, if_true, Prod.mk.injEq] at h
      rw [← h.2, List.length_cons]
      omega
    · simp [digits, hc] at h

theorem length_fraction?_le {chars : List Char} {fraction : Option (List Nat) × List Char}
    (h : fraction? chars = some fraction) : fraction.2.length ≤ chars.length := by
  have hdigits := length_digits_le
  fun_cases fraction? chars <;> grind [fraction?]

theorem length_exponentSign_le (chars : List Char) :
    (exponentSign chars).2.length ≤ chars.length := by
  fun_cases exponentSign chars <;> simp

theorem length_exponent?_le {chars : List Char} {exponent : Option Int × List Char}
    (h : exponent? chars = some exponent) : exponent.2.length ≤ chars.length := by
  cases chars with
  | nil =>
    cases h
    simp
  | cons c rest =>
    have hsign := length_exponentSign_le rest
    have hdigits := length_digits_le (exponentSign rest).2
    simp only [exponent?] at h
    split at h
    · split at h
      · cases h
      · next ds after _ heq =>
        rw [heq] at hdigits
        cases h
        simp only [List.length_cons] at *
        omega
    · cases h
      simp

theorem length_number?_lt {negative : Bool} {chars : List Char} {number : Document × List Char}
    (h : number? negative chars = some number) : number.2.length < chars.length := by
  unfold number? at h
  split at h
  · cases h
  · cases h
  · next whole rest hne _ hdigits =>
    simp only [Option.bind_eq_some_iff, Option.map_eq_some_iff] at h
    obtain ⟨⟨_, rest₁⟩, hfraction, ⟨_, rest₂⟩, hexponent, _, _, rfl⟩ := h
    have h₁ := length_fraction?_le hfraction
    have h₂ := length_exponent?_le hexponent
    have h₃ : rest.length < chars.length := by
      cases whole with
      | nil => exact (hne rfl).elim
      | cons digit others => exact length_digits_lt hdigits
    simp only at *
    omega

theorem length_dropWord?_le {word chars after : List Char} (h : dropWord? word chars = some after) :
    after.length ≤ chars.length := by
  fun_induction dropWord? word chars <;> grind

theorem length_scalar?_lt {chars : List Char} {scalar : Document × List Char}
    (h : scalar? chars = some scalar) : scalar.2.length < chars.length := by
  unfold scalar? at h
  split at h
  · obtain ⟨_, hbody, rfl⟩ := Option.map_eq_some_iff.mp h
    exact Nat.lt_succ_of_lt (length_stringBody?_lt hbody)
  · exact Nat.lt_succ_of_lt (length_number?_lt h)
  · obtain ⟨_, hword, rfl⟩ := Option.map_eq_some_iff.mp h
    exact Nat.lt_succ_of_le (length_dropWord?_le hword)
  · obtain ⟨_, hword, rfl⟩ := Option.map_eq_some_iff.mp h
    exact Nat.lt_succ_of_le (length_dropWord?_le hword)
  · obtain ⟨_, hword, rfl⟩ := Option.map_eq_some_iff.mp h
    exact Nat.lt_succ_of_le (length_dropWord?_le hword)
  · exact length_number?_lt h

/-- What a reader takes from the front of a text, and what is left of the text. -/
structure Taken (α : Type) (chars : List Char) where
  value : α
  rest : List Char
  shorter : rest.length < chars.length

/-- The same piece of a longer text, its value changed. -/
def Taken.within {α β : Type} {inner chars : List Char} (taken : Taken α inner)
    (longer : inner.length ≤ chars.length) (f : α → β) : Taken β chars :=
  ⟨f taken.value, taken.rest, Nat.lt_of_lt_of_le taken.shorter longer⟩

mutual

/-- Reads a value. `depth` is how deep arrays and objects may still nest. -/
def value? (depth : Nat) (chars : List Char) : Option (Taken Document chars) :=
  match h : skipBlank chars with
  | '[' :: body =>
    have := length_lt_of_skipBlank h
    match depth, hbody : skipBlank body with
    | 0, _ => none
    | _ + 1, ']' :: rest =>
      have := length_lt_of_skipBlank hbody
      some ⟨.list [], rest, by omega⟩
    | inner + 1, _ => (items? inner body).map (·.within (by omega) .list)
  | '\x7b' :: body =>
    have := length_lt_of_skipBlank h
    match depth, hbody : skipBlank body with
    | 0, _ => none
    | _ + 1, '\x7d' :: rest =>
      have := length_lt_of_skipBlank hbody
      some ⟨.map [], rest, by omega⟩
    | inner + 1, _ => (members? inner body).map (·.within (by omega) Document.ofEntries)
  | chars' =>
    have : chars'.length ≤ chars.length := h ▸ length_skipBlank_le chars
    match hscalar : scalar? chars' with
    | none => none
    | some (value, rest) =>
      have : rest.length < chars'.length := length_scalar?_lt hscalar
      some ⟨value, rest, by omega⟩
termination_by (depth, chars.length, 0)

/-- Reads values between commas up to a closing bracket. -/
def items? (depth : Nat) (chars : List Char) : Option (Taken (List Document) chars) :=
  match value? depth chars with
  | none => none
  | some ⟨item, after, _⟩ =>
    match h : skipBlank after with
    | ']' :: rest =>
      have := length_lt_of_skipBlank h
      some ⟨[item], rest, by omega⟩
    | ',' :: others =>
      have := length_lt_of_skipBlank h
      (items? depth others).map (·.within (by omega) (item :: ·))
    | _ => none
termination_by (depth, chars.length, 1)

/-- Reads keys and values between commas up to a closing brace. -/
def members? (depth : Nat) (chars : List Char) : Option (Taken (List (String × Document)) chars) :=
  match h : skipBlank chars with
  | '"' :: quoted =>
    have := length_lt_of_skipBlank h
    match hkey : stringBody? quoted with
    | none => none
    | some (key, after) =>
      have : after.length < quoted.length := length_stringBody?_lt hkey
      match hcolon : skipBlank after with
      | ':' :: body =>
        have := length_lt_of_skipBlank hcolon
        match value? depth body with
        | none => none
        | some ⟨value, after, _⟩ =>
          match hnext : skipBlank after with
          | '\x7d' :: rest =>
            have := length_lt_of_skipBlank hnext
            some ⟨[(String.ofList key, value)], rest, by omega⟩
          | ',' :: others =>
            have := length_lt_of_skipBlank hnext
            (members? depth others).map
              (·.within (by omega) ((String.ofList key, value) :: ·))
          | _ => none
      | _ => none
  | _ => none
termination_by (depth, chars.length, 1)

end

/-- The value of a whole text, its arrays and objects nested at most `depth` deep. -/
def parseWithin? (depth : Nat) (text : String) : Option Document :=
  match value? depth text.toList with
  | none => none
  | some taken => if skipBlank taken.rest = [] then some taken.value else none

/-- The value of a document, its arrays and objects nested at most 127 deep. -/
def parse? (text : String) : Option Document := parseWithin? 127 text

end ApiModel.Json
