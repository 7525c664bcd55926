/-!
# Records of named fields

Settings are read from a source of loosely typed values (a TOML document, or layers of a file
and the environment) into typed records. What a record is made of does not depend on the
source: its fields, their names and aliases, which ones have defaults, and how each value is
read into the record read so far. How a value is found wanting does depend on the source, and so
does the order a record's entries are visited in.

A `Decoder` holds the source's readers of plain values, lists and records; a `Field` holds one
field of a record, read by any decoder of the same source.
-/

namespace Quorum

/-- A field of a record read from values of type `V`, refused with `E`: its name and aliases,
and how a value of it is read into the record read so far. -/
structure Field (V E σ : Type) where
  name : String
  aliases : List String := []
  /-- Whether a missing value is refused rather than taken from the default. -/
  required : Bool := false
  present : σ → Bool
  read : σ → V → Except E σ

def Field.accepts {V E σ : Type} (f : Field V E σ) (k : String) : Bool :=
  f.name == k || f.aliases.contains k

/-- The readers of a source of values of type `V`, whose refusals are of type `E`. -/
structure Decoder (V E : Type) where
  text : String → V → Except E String
  unsigned : String → V → Except E Nat
  /-- Reads one of a fixed list of names, for a choice of the given type name. -/
  choice : String → List String → V → Except E String
  list : {α : Type} → (V → Except E α) → V → Except E (List α)
  /-- Reads a record of the given name and fields, starting from the given empty record. -/
  record : {σ : Type} → String → List (Field V E σ) → σ → V → Except E σ

end Quorum
