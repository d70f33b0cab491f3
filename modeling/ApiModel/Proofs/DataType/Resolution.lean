import ApiModel.Proofs.DataType.Rule
import ApiModel.Proofs.Registry.Likeness

/-!
# The object types that are found

An object type names a class by reference and name. Whatever rules decide a type and however deep an
object stands in it, the registry that the type was found in has the class under that reference, and
the class has that name.
-/

namespace ApiModel

namespace DataType

/-- An object type stands in a type, at any depth. -/
inductive Holds (reference name : String) : DataType → Prop where
  | object : Holds reference name (.object reference name)
  | items {items : DataType} : Holds reference name items → Holds reference name (.array items)
  | values {values : DataType} : Holds reference name values → Holds reference name (.map values)
  | variant {types : List DataType} {type : DataType} :
    type ∈ types → Holds reference name type → Holds reference name (.multiple types)

variable {reference name : String}

mutual

/-- `objects` lists the object types that stand in a type, and no others. -/
theorem mem_objects_iff : ∀ {type : DataType},
    (reference, name) ∈ type.objects ↔ type.Holds reference name
  | .object other called => by
    rw [objects, List.mem_singleton]
    constructor
    · intro h
      cases h
      exact .object
    · intro h
      cases h
      rfl
  | .array items => by
    rw [objects, mem_objects_iff]
    exact ⟨.items, fun h => by cases h; assumption⟩
  | .map values => by
    rw [objects, mem_objects_iff]
    exact ⟨.values, fun h => by cases h; assumption⟩
  | .multiple types => by
    rw [objects, mem_objectsOfTypes_iff]
    constructor
    · rintro ⟨type, hmem, h⟩
      exact .variant hmem h
    · intro h
      cases h with
      | variant hmem h => exact ⟨_, hmem, h⟩
  | .scalar _ | .dateTime _ _ | .mixed => by
    simp only [objects]
    constructor
    · intro h
      cases h
    · intro h
      cases h

theorem mem_objectsOfTypes_iff : ∀ {types : List DataType},
    (reference, name) ∈ objectsOfTypes types ↔ ∃ type ∈ types, type.Holds reference name
  | [] => by simp [objectsOfTypes]
  | type :: rest => by
    rw [objectsOfTypes, List.mem_append, mem_objects_iff, mem_objectsOfTypes_iff]
    simp only [List.mem_cons, exists_eq_or_imp]

end

/-- The class of every object that stands in a type is among the references of the type. -/
theorem Holds.mem_classReferences {type : DataType} (h : type.Holds reference name) :
    reference ∈ type.classReferences :=
  List.mem_map.2 ⟨_, mem_objects_iff.2 h, rfl⟩

/-- What stands in a list of variants stands in one of them. -/
theorem Holds.of_ofVariants {types : List DataType} (h : (ofVariants types).Holds reference name) :
    ∃ type ∈ types, type.Holds reference name := by
  match types, h with
  | [], h => cases h
  | [type], h => exact ⟨type, List.mem_singleton_self type, h⟩
  | _ :: _ :: _, .variant hmem h => exact ⟨_, hmem, h⟩

theorem Holds.of_headD {types : List DataType} (h : (types.headD .mixed).Holds reference name) :
    ∃ type ∈ types, type.Holds reference name := by
  cases types with
  | nil => cases h
  | cons type rest => exact ⟨type, List.mem_cons_self, h⟩

end DataType

namespace TypeRule

variable {registry : Registry} {site : Site} {rule : TypeRule} {reference name : String}

/-- A rule that knows the type of a node it supports names a class of the registry, if any. -/
theorem names_of_known {type : DataType} (hsupports : rule.supports registry site)
    (hplan : rule.plan registry site = .ok (.known type)) (h : type.Holds reference name) :
    registry.Names reference name := by
  -- only the first two rules name a class; what the others know holds no object
  cases planned_of_plan hplan with
  | named hclass =>
    cases h
    exact ⟨_, hclass, rfl⟩
  | object =>
    cases h
    obtain ⟨c, hclass⟩ := Option.isSome_iff_exists.1 (Bool.and_eq_true_iff.1 hsupports).2
    exact ⟨c, hclass, by rw [hclass]; rfl⟩
  | dateTime => cases h
  | untyped =>
    cases h with
    | items h => cases h
  | anything =>
    cases h with
    | values h => cases h
  | scalar => cases h

/-- The class that a rule names is what the text under `$ref` means, or there is no such text and the node
itself is the class. -/
theorem reference_of_known {type : DataType} (hsupports : rule.supports registry site)
    (hplan : rule.plan registry site = .ok (.known type)) (h : type.Holds reference name) :
    (∃ text, site.target? = some text ∧ site.resolve text = reference) ∨
      site.target? = none ∧ site.reference = reference := by
  cases planned_of_plan hplan with
  | named =>
    cases h
    obtain ⟨text, htext⟩ := Option.isSome_iff_exists.1 hsupports
    exact Or.inl ⟨text, htext, by rw [htext, Option.getD_some]⟩
  | object =>
    cases h
    have hnone := (Bool.and_eq_true_iff.1 hsupports).1
    exact Or.inr ⟨Option.isNone_iff_eq_none.1 hnone, rfl⟩
  | dateTime => cases h
  | untyped =>
    cases h with
    | items h => cases h
  | anything =>
    cases h with
    | values h => cases h
  | scalar => cases h

/-- What stands in a combined type stands in one of the types it is made from. -/
theorem holds_of_combine {sites : List Site} {build : List DataType → DataType}
    (hplan : rule.plan registry site = .ok (.combine sites build)) {types : List DataType}
    (h : (build types).Holds reference name) : ∃ type ∈ types, type.Holds reference name := by
  -- what the rules put around the types is no object
  cases planned_of_plan hplan with
  | types => exact h.of_ofVariants
  | members =>
    cases h with
    | variant hmem h => exact ⟨_, hmem, h⟩
  | items =>
    cases h with
    | items h => exact h.of_headD
  | tuple =>
    cases h with
    | items h =>
      cases h with
      | variant hmem h => exact ⟨_, hmem, h⟩
  | values =>
    cases h with
    | values h => exact h.of_headD

end TypeRule

/-- Every object type that stands in the type of a node names a class of the registry. -/
theorem names_of_typeAt {rules : List TypeRule} {registry : Registry} {followed : List String}
    {site : Site} {type : DataType} (htype : typeAt rules registry followed site = .ok type)
    {reference name : String} (h : type.Holds reference name) : registry.Names reference name := by
  -- the recursion of `typeAt`: a reference is followed, or the node gives way to smaller ones
  induction followed, site using typeAt.induct rules registry generalizing type with
  | case1 followed site hnone =>
    rw [typeAt_eq, hnone] at htype
    cases htype
    cases h
  | case2 followed site rule hrule error hplan =>
    rw [typeAt_eq, hrule] at htype
    simp only [hplan] at htype
    cases htype
  | case3 followed site rule hrule known hplan =>
    rw [typeAt_eq, hrule] at htype
    simp only [hplan] at htype
    cases htype
    exact TypeRule.names_of_known (by simpa using List.find?_some hrule) hplan h
  | case4 followed site rule hrule target hplan hstop =>
    rw [typeAt_eq, hrule] at htype
    simp only [hplan, hstop] at htype
    cases htype
    cases h
  | case5 followed site rule hrule target hplan longer hgo ih =>
    rw [typeAt_eq, hrule] at htype
    simp only [hplan, hgo] at htype
    exact ih htype h
  | case6 followed site rule hrule sites build hplan ih =>
    rw [typeAt_eq, hrule] at htype
    simp only [hplan] at htype
    obtain ⟨types, htypes, rfl⟩ := Traversal.map_eq_ok.1 htype
    obtain ⟨inner, hinner, hholds⟩ := TypeRule.holds_of_combine hplan h
    obtain ⟨innerSite, hsite, htypeAt⟩ := Traversal.exists_of_mem_mapM htypes hinner
    exact ih ⟨innerSite, hsite⟩ htypeAt hholds

end ApiModel
