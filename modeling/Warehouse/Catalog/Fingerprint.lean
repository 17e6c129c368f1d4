/-
Module: Warehouse.Catalog.Fingerprint
Purpose: A short text by which two catalogs can be told apart: the hash of the JSON form of all
  datasets, in the order of their keys, so that the order of the document does not count.
Trusted boundary: none
Main exports: Catalog.fingerprintText, Catalog.fingerprint
-/
import Warehouse.Catalog.Encoding
import Warehouse.Digest.Sha256

namespace Warehouse

namespace Catalog

/-- The datasets in the order of their keys. -/
def datasetsByKey (c : Catalog) : List Dataset := c.datasets.mergeSort fun a b => a.key.le b.key

/-- The text that is hashed. -/
def fingerprintText (c : Catalog) : String :=
  (Json.array (c.datasetsByKey.map Dataset.toJson)).sorted.compact

/-- The hash of the datasets. -/
def fingerprint (c : Catalog) : String := Digest.sha256Hex c.fingerprintText

end Catalog

end Warehouse
