import ApiModel.Proofs.Operation.Naming
import ApiModel.Proofs.Text.Words
import ApiModel.Text.Transliteration

/-!
# Two names, one identifier

An operation has a name for its function and one for its endpoint. By its id they are joined from the same
tokens, and by its path they are cased from the same text. Either way the name of the endpoint is in Pascal
case and the name of the function is that name without its first capital, so each is read off the other
(`Operation.names_cased`).

All characters of a path that come into a name are ASCII, since those of its parts are. Characters of an id
may be spelled in any way: only letters and digits are left in its tokens.
-/

namespace ApiModel

/-! ## Names from tokens -/

namespace OperationNames

/-- The names are one identifier, with and without a capital at its start. -/
def Cased (names : OperationNames) : Prop :=
  Text.classify names.function = names.endpoint ∧ Text.camelize names.endpoint = names.function

theorem cased_of_pascal {names : OperationNames} (h : Text.Pascal names.endpoint.toList)
    (hfunction : names.function = Text.uncapitalize names.endpoint) : names.Cased := by
  rw [Cased, hfunction]
  constructor
  · rw [Text.uncapitalize, Text.classify, String.toList_ofList, h.classifyChars_uncapitalizeChars,
      String.ofList_toList]
  · rw [Text.camelize, Text.classify, h.classifyChars, String.ofList_toList]

/-- Neither of two cased names is empty without the other. -/
theorem Cased.function_eq_empty_iff {names : OperationNames} (h : names.Cased) :
    names.function = "" ↔ names.endpoint = "" := by
  constructor
  · intro hempty
    rw [← h.1, hempty]
    rfl
  · intro hempty
    rw [← h.2, hempty]
    rfl

/-- A token is made of letters and digits, and there is one at least. -/
def IsToken (token : String) : Prop := token.toList ≠ [] ∧ ∀ c ∈ token.toList, c.isAlphanum

variable {tokens : List String}

theorem toList_endpoint_ofTokens (tokens : List String) :
    (ofTokens tokens).endpoint.toList =
      tokens.flatMap fun token => Text.capitalizeChars token.toList := by
  have hjoined : (ofTokens tokens).endpoint = String.join (tokens.map Text.capitalize) := rfl
  rw [hjoined, String.toList_join, List.flatMap_map]
  exact List.flatMap_congr fun token _ => String.toList_ofList

theorem pascal_endpoint_ofTokens (h : ∀ token ∈ tokens, IsToken token) :
    Text.Pascal (ofTokens tokens).endpoint.toList := by
  rw [toList_endpoint_ofTokens]
  exact (Text.titled_flatMap fun token htoken => Text.titled_capitalizeChars (h token htoken).2).pascal

/-- A letter or digit has the same small letter as its capital. -/
theorem uncapitalizeChars_capitalizeChars {word : List Char} (h : ∀ c ∈ word, c.isAlphanum)
    (rest : List Char) (hne : word ≠ []) :
    Text.uncapitalizeChars (Text.capitalizeChars word ++ rest) = Text.uncapitalizeChars word ++ rest := by
  cases word with
  | nil => exact absurd rfl hne
  | cons c word =>
    have hc := h c List.mem_cons_self
    have hsame := Text.lower_toUpper (Text.toNat_lt_of_isAlphanum hc)
    rw [Text.capitalizeChars, Text.upper_of_isAlphanum hc, Text.uncapitalizeChars,
      List.singleton_append, List.cons_append, Text.uncapitalizeChars, hsame, List.append_assoc]

/-- The capital of the first token is all that the two names differ in. -/
theorem function_ofTokens (h : ∀ token ∈ tokens, IsToken token) :
    (ofTokens tokens).function = Text.uncapitalize (ofTokens tokens).endpoint := by
  rw [← String.toList_inj, Text.uncapitalize, String.toList_ofList, toList_endpoint_ofTokens]
  cases tokens with
  | nil => rfl
  | cons first rest =>
    obtain ⟨hne, hfirst⟩ := h first List.mem_cons_self
    have hrest := toList_endpoint_ofTokens rest
    rw [List.flatMap_cons, uncapitalizeChars_capitalizeChars hfirst _ hne, ← hrest, ofTokens,
      String.toList_append, Text.uncapitalize, String.toList_ofList]
    rfl

theorem cased_ofTokens (h : ∀ token ∈ tokens, IsToken token) : (ofTokens tokens).Cased :=
  cased_of_pascal (pascal_endpoint_ofTokens h) (function_ofTokens h)

/-- Names from tokens are empty only if there is no token. -/
theorem endpoint_ofTokens_eq_empty_iff (h : ∀ token ∈ tokens, IsToken token) :
    (ofTokens tokens).endpoint = "" ↔ tokens = [] := by
  constructor
  · intro hempty
    have hchars := toList_endpoint_ofTokens tokens
    rw [hempty] at hchars
    cases tokens with
    | nil => rfl
    | cons first rest =>
      obtain ⟨hne, hfirst⟩ := h first List.mem_cons_self
      have hnil : Text.capitalizeChars first.toList = [] := (List.append_eq_nil_iff.1 hchars.symm).1
      cases hword : first.toList with
      | nil => exact absurd hword hne
      | cons c word =>
        rw [hword] at hnil hfirst
        rw [Text.capitalizeChars, Text.upper_of_isAlphanum (hfirst c List.mem_cons_self)] at hnil
        cases hnil
  · rintro rfl
    rfl

end OperationNames

theorem Text.isToken_of_mem_slugTokens {spell : Spelling} {text token : String}
    (h : token ∈ slugTokens spell text) : OperationNames.IsToken token := by
  obtain ⟨run, hrun, rfl⟩ := List.mem_map.1 h
  obtain ⟨hrun, hne⟩ := List.mem_filter.1 hrun
  rw [OperationNames.IsToken, String.toList_ofList]
  exact ⟨of_decide_eq_true hne, fun c hc => by simpa using (mem_of_mem_splitWhere hrun hc).2⟩

/-! ## Characters of a path -/

namespace PathTemplate

/-- The characters that a part gives to a name. -/
def Part.chars : Part → List Char
  | .placeholders names => names.flatten
  | .literal text => text

/-- A name between braces is read from the text. -/
theorem mem_of_mem_placeholderNames {read : Option (List Char)} {text name : List Char} {c : Char}
    (hname : name ∈ placeholderNames read text) (hc : c ∈ name) :
    c ∈ text ∨ ∃ before ∈ read, c ∈ before := by
  induction text generalizing read with
  | nil => cases hname
  | cons d rest ih =>
    have hnone : name ∈ placeholderNames none rest → c ∈ d :: rest := by
      intro hname
      rcases ih hname with hc | ⟨before, hbefore, -⟩
      · exact List.mem_cons_of_mem d hc
      · cases hbefore
    by_cases hopen : d = '\x7b'
    · rw [hopen, placeholderNames_open] at hname
      rcases ih hname with hc | ⟨before, hbefore, hc⟩
      · exact Or.inl (List.mem_cons_of_mem d hc)
      · rw [← Option.some.inj hbefore] at hc
        cases hc
    by_cases hclose : d = '\x7d'
    · subst hclose
      match read with
      | none | some [] => exact Or.inl (hnone hname)
      | some (e :: more) =>
        rw [placeholderNames_close] at hname
        rcases List.mem_cons.1 hname with rfl | hname
        · exact Or.inr ⟨e :: more, rfl, List.mem_reverse.1 hc⟩
        · exact Or.inl (hnone hname)
    · rw [placeholderNames_other (isBrace_of_ne hopen hclose)] at hname
      rcases ih hname with hc | ⟨before, hbefore, hc⟩
      · exact Or.inl (List.mem_cons_of_mem d hc)
      · obtain ⟨earlier, hearlier, rfl⟩ := Option.map_eq_some_iff.1 hbefore
        rcases List.mem_cons.1 hc with rfl | hc
        · exact Or.inl List.mem_cons_self
        · exact Or.inr ⟨earlier, hearlier, hc⟩

theorem Part.mem_of_mem_chars_ofChars {text : List Char} {c : Char} (h : c ∈ (ofChars text).chars) :
    c ∈ text := by
  unfold ofChars at h
  split at h
  · exact h
  · obtain ⟨name, hname, hc⟩ := List.mem_flatten.1 h
    rcases mem_of_mem_placeholderNames hname hc with hc | ⟨before, hbefore, -⟩
    · exact hc
    · cases hbefore

/-- The parts of a path hold characters of parts only. -/
theorem isPartChar_of_mem_parts {path : List Char} {part : Part} (hpart : part ∈ parts path) :
    ∀ c ∈ part.chars, isPartChar c := by
  induction path using parts.induct with
  | case1 path hdrop =>
    rw [parts_of_all (List.dropWhile_eq_nil_iff.1 hdrop)] at hpart
    cases hpart
  | case2 path d rest hdrop _ _ _ hdropped ih =>
    rw [parts_of_dropWhile hdrop] at hpart
    dsimp only at hpart
    rw [if_pos hdropped] at hpart
    exact ih hpart
  | case3 path d rest hdrop _ after text hkept ih =>
    rw [parts_of_dropWhile hdrop] at hpart
    dsimp only at hpart
    rw [if_neg hkept] at hpart
    rcases List.mem_cons.1 hpart with rfl | hpart
    · exact fun c hc => List.mem_takeWhile_imp (Part.mem_of_mem_chars_ofChars hc)
    · exact ih hpart

theorem toNat_lt_of_isPartChar {c : Char} (h : isPartChar c) : c.toNat < 128 := by
  rw [isPartChar, isPartChar.isBrace, Bool.or_eq_true, Bool.or_eq_true, Bool.or_eq_true,
    decide_eq_true_eq, decide_eq_true_eq, decide_eq_true_eq] at h
  obtain (halphanum | rfl) | rfl | rfl := h
  · exact Text.toNat_lt_of_isAlphanum halphanum
  · decide
  · decide
  · decide

theorem ascii_pascalName {name : List Char} (h : Text.Ascii name) (atStart : Bool) :
    Text.Ascii (pascalName atStart name) := by
  induction name generalizing atStart with
  | nil => exact h
  | cons c rest ih =>
    have hc := h c List.mem_cons_self
    have hrest := ih fun d hd => h d (List.mem_cons_of_mem c hd)
    rw [pascalName]
    split
    · exact hrest true
    · refine Text.Ascii.append ?_ (hrest false)
      split
      · exact Text.ascii_upper hc
      · exact fun d hd => List.mem_singleton.1 hd ▸ hc

end PathTemplate

namespace Operation

open PathTemplate

theorem ascii_partWords {part : Part} (h : Text.Ascii part.chars) : Text.Ascii (partWords part) := by
  cases part with
  | literal text => exact Text.Ascii.capitalizeChars h
  | placeholders names =>
    refine Text.ascii_flatMap fun name hname => ?_
    have hby : Text.Ascii ['B', 'y'] := by decide
    exact hby.append (ascii_pascalName (fun c hc => h c (List.mem_flatten_of_mem hname hc)) true)

/-- A word of a path is the word of a part, or its singular. -/
theorem exists_part_of_mem_singularizeLastLiteral {parts : List Part} {word : List Char}
    (h : word ∈ singularizeLastLiteral parts) :
    ∃ part ∈ parts, word = partWords part ∨ word = Text.singularizeChars (partWords part) := by
  induction parts with
  | nil => cases h
  | cons first rest ih =>
    have hlater : word ∈ singularizeLastLiteral rest → ∃ part ∈ first :: rest,
        word = partWords part ∨ word = Text.singularizeChars (partWords part) := fun h =>
      (ih h).imp fun part hpart => hpart.imp_left (List.mem_cons_of_mem first)
    cases first with
    | placeholders names =>
      rw [singularizeLastLiteral_placeholders] at h
      rcases List.mem_cons.1 h with rfl | h
      · exact ⟨_, List.mem_cons_self, Or.inl rfl⟩
      · exact hlater h
    | literal text =>
      rw [singularizeLastLiteral_literal] at h
      split at h
      · rcases List.mem_cons.1 h with rfl | h
        · exact ⟨_, List.mem_cons_self, Or.inl rfl⟩
        · exact hlater h
      · rcases List.mem_cons.1 h with rfl | h
        · exact ⟨_, List.mem_cons_self, Or.inr rfl⟩
        · obtain ⟨part, hpart, rfl⟩ := List.mem_map.1 h
          exact ⟨part, List.mem_cons_of_mem _ hpart, Or.inl rfl⟩

theorem ascii_of_mem_pathWords {operation : Operation} {word : List Char}
    (h : word ∈ operation.pathWords) : Text.Ascii word := by
  have hparts : ∀ part ∈ parts operation.path.toList, Text.Ascii (partWords part) := fun part hpart =>
    ascii_partWords fun c hc => toNat_lt_of_isPartChar (isPartChar_of_mem_parts hpart c hc)
  unfold pathWords at h
  dsimp only at h
  split at h
  · obtain ⟨part, hpart, rfl⟩ := List.mem_map.1 h
    exact hparts part hpart
  · obtain ⟨part, hpart, rfl | rfl⟩ := exists_part_of_mem_singularizeLastLiteral h
    · exact hparts part hpart
    · intro c hc
      rcases Text.mem_singularizeChars hc with hc | hc
      · exact hparts part hpart c hc
      · exact Text.toNat_lt_of_isAlphanum (Text.isAlphanum_of_isAlpha hc)

theorem ascii_urlName {operation : Operation} (h : Text.Ascii operation.method.toList) :
    Text.Ascii operation.urlName.toList := by
  have hwords : Text.Ascii operation.pathWords.flatten := by
    intro c hc
    obtain ⟨word, hword, hc⟩ := List.mem_flatten.1 hc
    exact ascii_of_mem_pathWords hword c hc
  rw [urlName, String.toList_append, Text.lowercase, String.toList_ofList, String.toList_ofList]
  exact (h.lowerChars []).append hwords.capitalizeChars

/-! ## Names of an operation -/

section Spelling

variable {spell : Text.Spelling} (hspell : spell [] = [])
include hspell

/-- An id that is missing has no tokens, since an empty text has no spelling. -/
theorem hasUsableId_iff (operation : Operation) :
    operation.hasUsableId spell ↔ operation.idTokens spell ≠ [] := by
  unfold hasUsableId idTokens
  cases operation.id? with
  | none =>
    have hempty : Text.slugTokens spell "" = [] := by
      rw [Text.slugTokens, show "".toList = [] from rfl, hspell]
      rfl
    exact ⟨fun h => Bool.noConfusion h, fun h => absurd hempty h⟩
  | some id => exact decide_eq_true_iff

theorem names_fallback (operation : Operation) :
    operation.names spell .fallback =
      if operation.idTokens spell = [] then operation.namesByUrl else operation.namesById spell := by
  rw [names]
  by_cases hnone : operation.idTokens spell = []
  · rw [if_pos hnone, if_neg fun h => (hasUsableId_iff hspell operation).1 h hnone]
  · rw [if_neg hnone, if_pos ((hasUsableId_iff hspell operation).2 hnone)]

end Spelling

theorem cased_namesByUrl {operation : Operation} (h : Text.Ascii operation.method.toList) :
    operation.namesByUrl.Cased := by
  refine OperationNames.cased_of_pascal ?_ rfl
  rw [namesByUrl, Text.classify, String.toList_ofList]
  exact Text.pascal_classifyChars (ascii_urlName h)

/-- By every strategy the two names of an operation are one identifier in two casings. The names that fall
back on the path do so where the id gives none. This holds of ids in any spelling that leaves an empty text
empty. -/
theorem names_cased {spell : Text.Spelling} (hspell : spell [] = []) {operation : Operation}
    (hmethod : Text.Ascii operation.method.toList) :
    (∀ strategy, (operation.names spell strategy).Cased) ∧
      ((operation.names spell .operationId).function = "" ↔
        (operation.names spell .operationId).endpoint = "") ∧
      operation.names spell .fallback =
        if (operation.names spell .operationId).endpoint = "" then operation.names spell .url
        else operation.names spell .operationId := by
  have htokens : ∀ token ∈ operation.idTokens spell, OperationNames.IsToken token :=
    fun token htoken => Text.isToken_of_mem_slugTokens htoken
  have hid : (operation.names spell .operationId).Cased := OperationNames.cased_ofTokens htokens
  have hempty : (operation.names spell .operationId).endpoint = "" ↔ operation.idTokens spell = [] :=
    OperationNames.endpoint_ofTokens_eq_empty_iff htokens
  refine ⟨fun strategy => ?_, hid.function_eq_empty_iff, ?_⟩
  · cases strategy with
    | operationId => exact hid
    | url => exact cased_namesByUrl hmethod
    | fallback =>
      rw [names_fallback hspell]
      split
      · exact cased_namesByUrl hmethod
      · exact hid
  · rw [names_fallback hspell]
    exact if_congr hempty.symm rfl rfl

namespace Library

/-- An operation with an id that begins with an underscore and an acronym. -/
def getUrl : Operation :=
  ⟨"GET", "/files", "d#/paths/~1files/get", .map [("operationId", .string "_URL-get by_élève")]⟩

end Library

open Library in
/-- The id gives one pair of names, and the path gives another one to an operation without an id. -/
theorem names_cased_library :
    Text.transliterate [] = [] ∧
      Text.Ascii getUrl.method.toList ∧
      getUrl.names Text.transliterate .fallback = ⟨"uRLGetByEleve", "URLGetByEleve"⟩ ∧
      (getUrl.names Text.transliterate .fallback).Cased ∧
      Text.Ascii deleteFile.method.toList ∧
      deleteFile.names Text.transliterate .fallback = deleteFile.names Text.transliterate .url ∧
      (deleteFile.names Text.transliterate .fallback).Cased := by
  have hspell : Text.transliterate [] = [] := rfl
  have hget : Text.Ascii getUrl.method.toList := by decide
  have hdelete : Text.Ascii deleteFile.method.toList := by decide
  obtain ⟨hcased, -, -⟩ := names_cased hspell hget
  obtain ⟨hcased', -, hfallback⟩ := names_cased hspell hdelete
  rw [if_pos (by decide +kernel)] at hfallback
  exact ⟨hspell, hget, by decide +kernel, hcased .fallback, hdelete, hfallback, hcased' .fallback⟩

end Operation

end ApiModel
