import Std.Data.ExtTreeMap
import Quorum.Store.Call

/-!
# Blobs in memory

A blob store held in memory: a map from keys to bytes, kept in ascending order of keys. Any
string is a key, an empty one and one ending in `/` included, and no call fails.

A prefix listing reads the keys from the first one not below the prefix and stops at the first
key that does not start with it; since every key that starts with the prefix sorts at or after
it, and the keys starting with it are contiguous in the order, this gives the same keys as
filtering the whole listing.
-/

namespace Quorum

/-- A blob store held in memory. -/
structure Blobs where
  objects : Std.ExtTreeMap String ByteArray compare

namespace Blobs

def empty : Blobs := ⟨∅⟩

def get? (s : Blobs) (k : String) : Option ByteArray := s.objects[k]?

def put (s : Blobs) (k : String) (v : ByteArray) : Blobs := ⟨s.objects.insert k v⟩

def erase (s : Blobs) (k : String) : Blobs := ⟨s.objects.erase k⟩

def contains (s : Blobs) (k : String) : Bool := s.objects.contains k

def keys (s : Blobs) : List String := s.objects.keys

def keysFrom (s : Blobs) (pre : String) : List String :=
  (s.keys.dropWhile (fun k => compare k pre == .lt)).takeWhile (fun k => pre.isPrefixOf k)

def toList (s : Blobs) : List (String × ByteArray) := s.objects.toList

def answer : StoreAnswer Blobs
  | .get p, s => (.ok (s.get? p), s)
  | .put p d, s => (.ok (), s.put p d)
  | .listAll, s => (.ok s.keys, s)
  | .listPrefix pre, s => (.ok (s.keysFrom pre), s)
  | .delete p, s => (.ok (), s.erase p)
  | .contains p, s => (.ok (s.contains p), s)

@[simp] theorem get?_put_self (s : Blobs) (k : String) (v : ByteArray) :
    (s.put k v).get? k = some v := by
  simp [get?, put]

@[simp] theorem get?_erase_self (s : Blobs) (k : String) : (s.erase k).get? k = none := by
  simp [get?, erase]

end Blobs

end Quorum
