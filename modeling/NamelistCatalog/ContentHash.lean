import NamelistCatalog.Catalog
import NamelistCatalog.Sha256
import NamelistCatalog.Text.Utf8

/-!
The content hash of a catalog, which shows edits that were made outside of the library. It covers
the versions of the catalog and every field of every entry. A byte 0 ends each field, a byte 30 ends
the versions and each entry, and a leading letter tells an unset default from an empty literal.
-/

namespace NamelistCatalog.ContentHash

def fieldEnd : UInt8 := 0

/-- The byte that ends the versions, and each entry. -/
def recordEnd : UInt8 := 0x1e

def taggedDefault : DefaultValue → String
  | .unset => "U"
  | .literal text => "L" ++ text

/-- The fields of an entry, in the order in which they are hashed. -/
def entryFields (e : Entry) : List String :=
  [e.name, e.namelist, e.valueType.label, toString e.dim.toNat,
    (e.order.map fun n => toString n.toNat).getD "", taggedDefault e.defaultValue, e.summary, e.doc,
    e.version.text, e.origin]

def entryBytes (e : Entry) : List UInt8 :=
  (entryFields e).flatMap (fun field => Text.Utf8.encode field ++ [fieldEnd]) ++ [recordEnd]

/-- The four bytes of a word, the least significant first. -/
def littleEndian (n : UInt32) : List UInt8 :=
  [UInt8.ofNat n.toNat, UInt8.ofNat (n.toNat / 256), UInt8.ofNat (n.toNat / 65536),
    UInt8.ofNat (n.toNat / 16777216)]

def bytes (schemaVersion : UInt32) (sourceVersion : SourceVersion) (entries : List Entry) :
    List UInt8 :=
  littleEndian schemaVersion ++ Text.Utf8.encode sourceVersion.text ++ [recordEnd] ++
    entries.flatMap entryBytes

/-- The hash of entries in this order, in hexadecimal. -/
def ofEntries (schemaVersion : UInt32) (sourceVersion : SourceVersion) (entries : List Entry) :
    String :=
  Sha256.hex (Sha256.digest (bytes schemaVersion sourceVersion entries))

end NamelistCatalog.ContentHash

namespace NamelistCatalog.Catalog

def contentHash (c : Catalog) : String :=
  ContentHash.ofEntries c.info.schemaVersion c.info.sourceVersion c.entries.toList

end NamelistCatalog.Catalog
