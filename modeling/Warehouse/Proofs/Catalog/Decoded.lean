/-
Module: Warehouse.Proofs.Catalog.Decoded
Purpose: The keys that a document names when it is read off a text. Each is cut at its only point,
  so neither part of it has one; hence the fingerprint text of a catalog that is read says which
  datasets the catalog has.
Trusted boundary: none
Main exports: CatalogDocument.legible_of_decode, Catalog.exists_document,
  Catalog.fingerprintText_eq_iff_of_ofJsonText
-/
import Warehouse.Proofs.Catalog.DisplayedKeys
import Warehouse.Proofs.Catalog.Fingerprint
import Warehouse.Proofs.Json.Yields

namespace Warehouse

open Json (Decoder Fields)

/-! ### Keys -/

/-- A key that is read from JSON names a dataset plainly. -/
theorem DatasetKey.yields_decode : DatasetKey.decode.Yields Plain :=
  .stringWith fun _ _ => plain_of_parse?

/-! ### Datasets -/

private theorem Lineage.yields_decode : Lineage.decode.Yields fun l => l.input.Plain :=
  .record (.other (.other (.map (.required DatasetKey.yields_decode) fun _ plain _ _ => plain)))

/-- A column names the inputs that feed it plainly. -/
private theorem Column.yields_decode : Column.decode.Yields fun c =>
    ∀ l ∈ c.lineage, l.input.Plain := by
  refine .record (.seq ?_ (.optionalList Lineage.yields_decode))
  iterate 6 refine .other ?_
  exact .map (.any _) fun _ _ _ _ _ _ _ _ _ plain => plain

/-- So do all references of a dataset: inputs, base and lineage. -/
theorem Dataset.yields_decode : Dataset.decode.Yields fun d => ∀ k ∈ d.references, k.Plain := by
  refine .record (.seq (.other (.seq (.other (.seq ?_ (.optionalList DatasetKey.yields_decode)))
    (.optionalList Column.yields_decode))) (.optionalNullable DatasetKey.yields_decode))
  iterate 9 refine .other ?_
  refine .map (.any _)
    fun _ _ _ _ _ _ _ _ _ _ _ ks plainInputs _ cs plainColumns _ o plainHistOf k named => ?_
  rcases (Dataset.mem_references _).mp named with input | hist | ⟨c, there, l, feeds, rfl⟩
  · exact plainInputs k input
  · exact plainHistOf k hist
  · exact plainColumns c there l feeds

/-! ### Query nodes -/

/-- Whether a kind of node names no dataset or a plain one. -/
def NodeKind.Plain : NodeKind → Prop
  | .select dataset? _ _ => ∀ k, dataset? = some k → k.Plain
  | _ => True

/-- Whichever kind a node names, what it reads is named plainly. -/
private theorem NodeKind.yields_decoderOfKind :
    NodeKind.decoderOfKind.Yields fun d => d.Yields NodeKind.Plain := by
  have select : decodeSelect.Yields NodeKind.Plain :=
    .record (.other
      (.other (.map (.optionalNullable DatasetKey.yields_decode) fun _ plain _ _ => plain)))
  have aggregate : decodeAggregate.Yields NodeKind.Plain :=
    .record (.other (.map (.any _) fun _ _ _ => trivial))
  have union : decodeUnion.Yields NodeKind.Plain :=
    .record (.other (.map (.any _) fun _ _ _ => trivial))
  have window : decodeWindow.Yields NodeKind.Plain := .record (.map (.any _) fun _ _ => trivial)
  refine .choice fun alternative there => ?_
  simp only [List.mem_cons, List.not_mem_nil, or_false] at there
  rcases there with rfl | rfl | rfl | rfl
  · exact select
  · exact aggregate
  · exact union
  · exact window

theorem QueryNode.yields_decode : QueryNode.decode.Yields fun n => ∀ k, n.dataset? = some k →
    k.Plain := by
  refine .after fun (id, input) => .bind (P := NodeKind.Plain) (.again ?_) fun kind plain =>
    .pure fun k named => ?_
  · exact .bind (.lookahead (.object (.required NodeKind.yields_decoderOfKind)))
      fun _ yields => yields
  · cases kind with
    | select dataset? columns filter? => exact plain k named
    | _ => cases named

/-! ### Documents -/

/-- A document that is read from JSON is one whose keys can be read off. -/
theorem CatalogDocument.yields_decode : CatalogDocument.decode.Yields Legible := by
  refine .record
    (.seq (.seq ?_ (.optionalList Dataset.yields_decode)) (.optionalList QueryNode.yields_decode))
  exact .map (.any _) fun _ _ _ plainDatasets _ plainNodes => ⟨plainDatasets, plainNodes⟩

/-- All keys that a document names are plain if it is read off a text. -/
theorem CatalogDocument.legible_of_decode {text : String} {doc : CatalogDocument}
    (decoded : Json.decode CatalogDocument.decode text = .ok doc) : doc.Legible :=
  CatalogDocument.yields_decode.of_decode decoded

/-- The catalog of a text is that of a document whose keys are plain. -/
theorem Catalog.exists_document {text : String} {c : Catalog} (read : ofJsonText text = .ok c) :
    ∃ doc : CatalogDocument, doc.Legible ∧ ofDocument doc = .ok c := by
  rw [ofJsonText] at read
  split at read
  · cases read
  · next doc decoded =>
      exact ⟨doc, CatalogDocument.legible_of_decode decoded, mapError_eq_ok_iff.mp read⟩

/-- The catalogs of two texts have one fingerprint text just if they have the same datasets. -/
theorem Catalog.fingerprintText_eq_iff_of_ofJsonText {text text' : String} {c c' : Catalog}
    (read : ofJsonText text = .ok c) (read' : ofJsonText text' = .ok c') :
    c.fingerprintText = c'.fingerprintText ↔ c.datasets.Perm c'.datasets := by
  obtain ⟨doc, legible, accepted⟩ := exists_document read
  obtain ⟨doc', legible', accepted'⟩ := exists_document read'
  exact fingerprintText_eq_iff (syncedAll_of_ofDocument accepted).distinct
    (legible_of_ofDocument accepted legible) (legible_of_ofDocument accepted' legible')

end Warehouse
