import ApiModel.Operation.Naming
import ApiModel.Proofs.Operation.PathTemplate
import ApiModel.Proofs.Text.Singular
import Mathlib.Data.List.Basic

/-!
# Names that are read off a path

A template gives one word for each of its segments: a literal with a capital, the last one in the singular
unless the operation returns an array, and `By` with the name for each placeholder. Behind the method in
lower case these words are the name of the operation, as long as no name of a placeholder holds a dot
(`Operation.urlName_of_template`). A dot is no character of a part, so it cuts a placeholder in two, and the
opening brace stays.
-/

namespace ApiModel

/-- Whether a part is a literal. -/
def PathTemplate.Part.isLiteral : PathTemplate.Part → Bool
  | .literal _ => true
  | .placeholders _ => false

namespace PathTemplate.Segment

/-- Whether a segment is a literal. -/
def isLiteral (segment : Segment) : Bool := segment.part.isLiteral

/-- The word that a segment gives, a literal in the singular if asked for. -/
def word (singular : Bool) : Segment → List Char
  | literal text =>
    if singular then Text.singularizeChars (Text.capitalizeChars text) else Text.capitalizeChars text
  | placeholders names => names.flatMap fun name => ['B', 'y'] ++ pascalName true name

/-- The words of segments, the last literal in the singular if asked for. -/
def words (singular : Bool) : List Segment → List (List Char)
  | [] => []
  | segment :: rest => segment.word (singular && !rest.any isLiteral) :: words singular rest

/-- The word of a segment is made of letters and digits, and it begins with a capital or a digit. -/
theorem titled_word {segment : Segment} (h : segment.WellFormed) (singular : Bool) :
    Text.Titled (segment.word singular) := by
  cases segment with
  | literal text =>
    have htitled : Text.Titled (Text.capitalizeChars text) := Text.titled_capitalizeChars h
    rw [word]
    split
    · exact htitled.singularizeChars
    · exact htitled
  | placeholders names =>
    have hby : Text.Titled ['B', 'y'] := by
      refine ⟨List.all_eq_true.1 (by decide), fun c hc => ?_⟩
      rw [← Option.some.inj hc]
      decide
    refine Text.titled_flatMap fun name hname => ⟨fun c hc => ?_, hby.2⟩
    rcases List.mem_append.1 hc with hc | hc
    · exact hby.1 c hc
    · exact isAlphanum_of_mem_pascalName (h.2 name hname).2 hc

theorem titled_of_mem_words {segments : List Segment} (h : ∀ segment ∈ segments, segment.WellFormed)
    {singular : Bool} {text : List Char} (htext : text ∈ words singular segments) :
    Text.Titled text := by
  induction segments with
  | nil => cases htext
  | cons segment rest ih =>
    rcases List.mem_cons.1 htext with rfl | htext
    · exact titled_word (h segment List.mem_cons_self) _
    · exact ih (fun other hother => h other (List.mem_cons_of_mem segment hother)) htext

/-- Without literals there is nothing to put in the singular. -/
theorem words_of_placeholders {segments : List Segment} (h : segments.any isLiteral = false)
    (singular : Bool) : words singular segments = words false segments := by
  induction segments with
  | nil => rfl
  | cons segment rest ih =>
    obtain ⟨hsegment, hrest⟩ := Bool.or_eq_false_iff.1 h
    cases segment with
    | literal text => cases hsegment
    | placeholders names => rw [words, words, ih hrest]; rfl

end PathTemplate.Segment

namespace Operation

open PathTemplate

/-! ## The words of a path -/

theorem singularizeLastLiteral_placeholders (names : List (List Char)) (rest : List Part) :
    singularizeLastLiteral (.placeholders names :: rest) =
      partWords (.placeholders names) :: singularizeLastLiteral rest := by
  rw [singularizeLastLiteral]
  rintro text h
  cases h

theorem singularizeLastLiteral_literal (text : List Char) (rest : List Part) :
    singularizeLastLiteral (.literal text :: rest) =
      if rest.any Part.isLiteral then partWords (.literal text) :: singularizeLastLiteral rest
      else Text.singularizeChars (partWords (.literal text)) :: rest.map partWords := by
  conv_lhs => unfold singularizeLastLiteral
  dsimp only
  split
  · next hlast =>
    have hnone : (!rest.any Part.isLiteral) = true := hlast
    rw [if_neg (by simpa using hnone)]
  · next hother =>
    have hsome : rest.any Part.isLiteral = true := by
      by_contra hnone
      have hlast : (!rest.any Part.isLiteral) = true := by simpa using hnone
      exact hother text rfl hlast
    rw [if_pos hsome]

/-- A literal has the word of its segment, and so has a row of placeholders. -/
theorem partWords_part (segment : Segment) : partWords segment.part = segment.word false := by
  cases segment with
  | literal text => rfl
  | placeholders names => rfl

theorem map_partWords_part (segments : List Segment) :
    (segments.map Segment.part).map partWords = Segment.words false segments := by
  induction segments with
  | nil => rfl
  | cons segment rest ih => rw [List.map_cons, List.map_cons, partWords_part, ih]; rfl

theorem singularizeLastLiteral_map_part (segments : List Segment) :
    singularizeLastLiteral (segments.map Segment.part) = Segment.words true segments := by
  induction segments with
  | nil => rfl
  | cons segment rest ih =>
    cases segment with
    | literal text =>
      have hany : (rest.map Segment.part).any Part.isLiteral = rest.any Segment.isLiteral := List.any_map
      rw [List.map_cons, Segment.part, singularizeLastLiteral_literal, hany, ih, map_partWords_part,
        Segment.words]
      cases hlast : rest.any Segment.isLiteral with
      | true => rfl
      | false => rw [Segment.words_of_placeholders hlast]; rfl
    | placeholders names =>
      rw [List.map_cons, Segment.part, singularizeLastLiteral_placeholders, ih]
      rfl

/-- The words of a path without dots are those of its segments. -/
theorem pathWords_of_undotted {operation : Operation} {template : Template}
    (hpath : operation.path = template.path) (hdots : template.Undotted) :
    operation.pathWords = Segment.words (!operation.returnsArray) template.segments := by
  have hparts : PathTemplate.parts operation.path.toList = template.segments.map Segment.part := by
    rw [hpath, Template.path, String.toList_ofList,
      parts_flatMap_chars template.wellFormed template.separated, List.map_eq_flatMap]
    exact List.flatMap_congr fun segment hsegment =>
      Segment.parts_chars (template.wellFormed segment hsegment) (hdots segment hsegment)
  rw [pathWords, hparts, map_partWords_part, singularizeLastLiteral_map_part]
  cases operation.returnsArray with
  | true => rfl
  | false => rfl

/-- Putting literals in the singular leaves the first character of each word. -/
theorem exists_mem_singularizeLastLiteral {parts : List Part} {part : Part} (h : part ∈ parts) :
    ∃ word ∈ singularizeLastLiteral parts, word.head? = (partWords part).head? := by
  induction parts with
  | nil => cases h
  | cons first rest ih =>
    cases first with
    | placeholders names =>
      rw [singularizeLastLiteral_placeholders]
      rcases List.mem_cons.1 h with rfl | h
      · exact ⟨_, List.mem_cons_self, rfl⟩
      · obtain ⟨word, hword, hhead⟩ := ih h
        exact ⟨word, List.mem_cons_of_mem _ hword, hhead⟩
    | literal text =>
      rw [singularizeLastLiteral_literal]
      split
      · rcases List.mem_cons.1 h with rfl | h
        · exact ⟨_, List.mem_cons_self, rfl⟩
        · obtain ⟨word, hword, hhead⟩ := ih h
          exact ⟨word, List.mem_cons_of_mem _ hword, hhead⟩
      · rcases List.mem_cons.1 h with rfl | h
        · exact ⟨_, List.mem_cons_self, Text.head?_singularizeChars _⟩
        · exact ⟨_, List.mem_cons_of_mem _ (List.mem_map_of_mem h), rfl⟩

/-- Every part has a word in the path, which begins as the part does. -/
theorem exists_mem_pathWords {operation : Operation} {part : Part}
    (h : part ∈ PathTemplate.parts operation.path.toList) :
    ∃ word ∈ operation.pathWords, word.head? = (partWords part).head? := by
  unfold pathWords
  dsimp only
  split
  · exact ⟨_, List.mem_map_of_mem h, rfl⟩
  · exact exists_mem_singularizeLastLiteral h

/-- A brace in the words of a path stays in the name. -/
theorem mem_urlName_of_mem_pathWords {operation : Operation} {word : List Char}
    (hword : word ∈ operation.pathWords) (hbrace : '\x7b' ∈ word) :
    '\x7b' ∈ operation.urlName.toList := by
  have hmem : '\x7b' ∈ operation.pathWords.flatten := List.mem_flatten_of_mem hword hbrace
  rw [urlName, String.toList_append, String.toList_ofList]
  apply List.mem_append_right
  cases hchars : operation.pathWords.flatten with
  | nil => rw [hchars] at hmem; cases hmem
  | cons c rest =>
    rw [hchars] at hmem
    rw [Text.capitalizeChars]
    rcases List.mem_cons.1 hmem with rfl | hmem
    · exact List.mem_append_left rest (by decide)
    · exact List.mem_append_right _ hmem

/-- Behind the method the name of an operation on a template is made of the words of the segments, unless
a name of a placeholder holds a dot. Where a segment begins with a placeholder that does, a brace stays. -/
theorem urlName_of_template {operation : Operation} {template : Template}
    (hpath : operation.path = template.path) :
    (template.Undotted →
      operation.urlName = Text.lowercase operation.method ++
          String.ofList (Segment.words (!operation.returnsArray) template.segments).flatten ∧
        ∀ word ∈ Segment.words (!operation.returnsArray) template.segments, ∀ c ∈ word, c.isAlphanum) ∧
    ∀ name names, .placeholders (name :: names) ∈ template.segments → '.' ∈ name →
      '\x7b' ∈ operation.urlName.toList := by
  constructor
  · intro hdots
    have htitled : ∀ word ∈ Segment.words (!operation.returnsArray) template.segments,
        Text.Titled word := fun word hword => Segment.titled_of_mem_words template.wellFormed hword
    have hall : Text.Titled (Segment.words (!operation.returnsArray) template.segments).flatten := by
      rw [← List.flatMap_id]
      exact Text.titled_flatMap htitled
    refine ⟨?_, fun word hword => (htitled word hword).1⟩
    rw [urlName, pathWords_of_undotted hpath hdots, hall.capitalizeChars]
  · intro name names hsegment hdot
    obtain ⟨text, hliteral⟩ :=
      Segment.exists_literal_mem_parts (template.wellFormed _ hsegment) hdot
    have hpart : .literal ('\x7b' :: text) ∈ PathTemplate.parts operation.path.toList := by
      rw [hpath, Template.path, String.toList_ofList,
        parts_flatMap_chars template.wellFormed template.separated]
      exact List.mem_flatMap.2 ⟨_, hsegment, hliteral⟩
    obtain ⟨word, hword, hhead⟩ := exists_mem_pathWords hpart
    have hopen : word.head? = some '\x7b' := hhead.trans (by rfl)
    exact mem_urlName_of_mem_pathWords hword (List.mem_of_head? hopen)

namespace Library

/-- Two placeholders in a row behind a literal. -/
def files : Template where
  segments := [.literal "files".toList, .placeholders ["owner_id".toList, "file_name".toList]]
  wellFormed := by decide
  separated := by decide

/-- A placeholder with a dot behind a literal. -/
def owners : Template where
  segments := [.literal "pets".toList, .placeholders ["owner.name".toList]]
  wellFormed := by decide
  separated := by decide

def deleteFile : Operation := ⟨"DELETE", files.path, "d#/paths/~1files/delete", .map []⟩

def getOwner : Operation := ⟨"GET", owners.path, "d#/paths/~1pets/get", .map []⟩

end Library

open Library in
/-- The last literal is put in the singular, and a brace stays where a name is cut. -/
theorem urlName_of_template_files :
    deleteFile.path = files.path ∧ files.Undotted ∧
        deleteFile.urlName = "deleteFileByOwnerIdByFileName" ∧
      getOwner.path = owners.path ∧ '\x7b' ∈ getOwner.urlName.toList := by
  obtain ⟨hname, -⟩ := (@urlName_of_template deleteFile files rfl).1 (by decide)
  have hbrace := (@urlName_of_template getOwner owners rfl).2 "owner.name".toList []
    (List.mem_cons_of_mem _ List.mem_cons_self) (by decide)
  exact ⟨rfl, by decide, hname.trans (by decide +kernel), rfl, hbrace⟩

open Library in
/-- A name with a dot is not put behind `By`: it is cut into two literals with a brace each, and the literal
before it is not the last one. -/
theorem urlName_of_dotted_name :
    getOwner.urlName = "getPets\x7bownerName\x7d" ∧
      getOwner.urlName ≠ Text.lowercase getOwner.method ++
        String.ofList (Segment.words (!getOwner.returnsArray) owners.segments).flatten := by
  have hparts : PathTemplate.parts getOwner.path.toList =
      [.literal "pets".toList, .literal "\x7bowner".toList, .literal "name\x7d".toList] := by
    have hpath : getOwner.path.toList =
        ('/' :: "pets".toList) ++ '/' :: ("\x7bowner".toList ++ '.' :: "name\x7d".toList) := by
      decide +kernel
    have hpets : ∀ c ∈ "pets".toList, isPartChar c := List.all_eq_true.1 (by decide)
    have howner : ∀ c ∈ "\x7bowner".toList, isPartChar c := List.all_eq_true.1 (by decide)
    have hname : ∀ c ∈ "name\x7d".toList, isPartChar c := List.all_eq_true.1 (by decide)
    rw [hpath, parts_append (closed_slash (by decide) hpets) (by decide), ← List.cons_append,
      parts_append (closed_slash (by decide) howner) (by decide),
      parts_slash hpets, parts_slash howner, parts_token (by decide) hname]
    decide +kernel
  have hname : getOwner.urlName = "getPets\x7bownerName\x7d" := by
    rw [urlName, pathWords, hparts]
    decide +kernel
  refine ⟨hname, ?_⟩
  rw [hname]
  decide +kernel

end Operation

end ApiModel
