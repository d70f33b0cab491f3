import ApiModel.Config
import ApiModel.Proofs.Json.Reader
import ApiModel.Proofs.Registry.Identifiers
import ApiModel.Proofs.Registry.Location
import ApiModel.Proofs.Yaml.Graph

/-!
# The documents of a configuration

A loader may serve any document, and so what holds of a build often rests on the documents being well-formed.
Those that a configuration loads are read from texts, and in either format a text gives a well-formed document
(`wellFormed_loadDocument`). So each class that a configuration builds stands at the path of a document that
its reference names (`Config.located_of_build`).
-/

namespace ApiModel

theorem DocumentFormat.wellFormed_decode {format : DocumentFormat} {path text : String} {root : Document}
    (hlength : text.length ≤ 2 ^ 64) (h : format.decode path text = .ok root) : root.WellFormed := by
  unfold decode at h
  split at h
  · cases h
  · next value hparse =>
    split at h
    · cases h
      unfold parse? at hparse
      split at hparse
      · exact Json.wellFormed_parse? hlength hparse
      · exact Yaml.wellFormed_parse? hlength hparse
    · cases h

/-- A document that is loaded from a text is well-formed. The length of a text in memory fits 64 bits. -/
theorem wellFormed_loadDocument {format : DocumentFormat} {read? : String → Option String}
    (hread : ∀ path text, read? path = some text → text.length ≤ 2 ^ 64) {origin : String}
    {root : Document} (h : loadDocument format read? origin = .ok root) : root.WellFormed := by
  obtain ⟨path, -, h⟩ := Traversal.bind_eq_ok.1 h
  split at h
  · cases h
  · next text htext => exact DocumentFormat.wellFormed_decode (hread path text htext) h

/-- Each class that a configuration builds has the reference of a path in one of the documents, and its node
is the part of that document at the path. -/
theorem Config.located_of_build {config : Config} {spell : Text.Spelling} {read? : String → Option String}
    (hread : ∀ path text, read? path = some text → text.length ≤ 2 ^ 64) {registry : Registry}
    (hregistry : config.registry = .ok registry) {context : Context}
    (h : config.build spell read? registry = .ok context) :
    ∀ schema ∈ context.registry.schemas, ∀ c ∈ schema.classes,
      c.site.Located (loadDocument config.format read?) config.documents := by
  obtain ⟨⟨⟩, -, hstart⟩ := Traversal.bind_eq_ok.1 hregistry
  obtain ⟨built, hbuilt, heq⟩ := Traversal.bind_eq_ok.1 h
  cases hstart
  cases heq
  intro schema hschema c hc
  obtain ⟨read, hreadDocuments, hfrom⟩ := Registry.exists_found_of_build hbuilt
  obtain ⟨found, resolved, kind, hfound, hresolve, rfl⟩ := hfrom schema hschema c hc
  have hload : ∀ origin ∈ config.documents, ∀ root,
      loadDocument config.format read? origin = .ok root → root.WellFormed :=
    fun origin _ root => wellFormed_loadDocument hread
  obtain ⟨-, hlocated, -⟩ := Registry.located_of_class? hload hreadDocuments hfound
  -- finding the members of a class leaves its site alone
  have hsite : resolved.site = found.site := by
    obtain ⟨_, -, hresolve⟩ := Traversal.bind_eq_ok.1 hresolve
    obtain ⟨_, -, hresolve⟩ := Traversal.bind_eq_ok.1 hresolve
    cases hresolve
    rfl
  exact hsite ▸ hlocated

end ApiModel
