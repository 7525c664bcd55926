import Quorum.Metadata
import Quorum.Proofs.WrittenJson

/-!
# Stored metadata reads back

The metadata of a version is stored as a JSON object with its four members in the order account,
sequence, chain id, description. Reading the stored bytes back gives the metadata again, whatever
characters its chain id and description hold (`Metadata.decode_encode`), so every co-signer and
the broadcaster sign with the numbers the publisher wrote.

The stored text is a written JSON object (`Metadata.written`), so any JSON reader finds in it the
object of exactly these four members (`Metadata.parseValue_encode`).
-/

namespace Quorum

open Json

theorem length_digit_bytes {cs : List Char} (h : ∀ c ∈ cs, c.isDigit = true) :
    (cs.flatMap String.utf8EncodeChar).length = cs.length := by
  induction cs with
  | nil => rfl
  | cons c cs ih =>
    rw [List.flatMap_cons, List.length_append, (digit_bytes (h c List.mem_cons_self)).1,
      ih fun d hd => h d (List.mem_cons_of_mem c hd), List.length_singleton, List.length_cons,
      Nat.add_comm]

theorem length_repr_bytes (n : Nat) :
    (Nat.repr n).toByteArray.data.toList.length = (Nat.repr n).length := by
  rw [toByteArray_toList, String.length, Nat.toList_repr]
  exact length_digit_bytes fun c hc => Nat.isDigit_of_mem_toDigits (by decide) (by decide) hc

namespace Metadata

/-- The bytes of stored metadata between its braces: each key, a colon and the value, with commas
between the members. -/
def memberBytes (m : Metadata) : List UInt8 :=
  (quote "account").toByteArray.data.toList ++ [58] ++
    (Nat.repr m.account.toNat).toByteArray.data.toList ++
  [44] ++ (quote "sequence").toByteArray.data.toList ++ [58] ++
    (Nat.repr m.sequence.toNat).toByteArray.data.toList ++
  [44] ++ (quote "chain-id").toByteArray.data.toList ++ [58] ++
    (quote m.chainId).toByteArray.data.toList ++
  [44] ++ (quote "description").toByteArray.data.toList ++ [58] ++
    (quote m.description).toByteArray.data.toList

theorem encode_bytes (m : Metadata) : m.encode.data.toList = [123] ++ m.memberBytes ++ [125] := by
  unfold encode render objectText memberBytes
  rw [String.toUTF8_eq_toByteArray]
  simp only [toByteArray_toList, List.map_cons, List.map_nil, String.intercalate_cons_cons,
    String.intercalate_singleton, String.toList_append, List.flatMap_append, List.append_assoc]
  rfl

theorem reads_members (m : Metadata) {fuel : Nat} (hfuel : m.memberBytes.length ≤ fuel + 3) :
    Reads (readRecordMembers shape.fields (fuel + 5) true shape.empty) m.memberBytes
      ⟨some m.account.toNat.toUInt64, some m.sequence.toNat.toUInt64, some m.chainId,
        some m.description⟩ (·.head? = some 125) := by
  have hlen := hfuel
  simp only [memberBytes, quote_bytes, List.length_append, List.length_cons, List.length_nil,
    length_repr_bytes] at hlen
  have hkeys : (escapedBytes "account").length = 7 ∧ (escapedBytes "sequence").length = 8 ∧
      (escapedBytes "chain-id").length = 8 ∧ (escapedBytes "description").length = 11 :=
    ⟨rfl, rfl, rfl, rfl⟩
  have hcomma : isDigitByte 44 = false ∧ (44 : UInt8) ≠ 46 ∧ (44 : UInt8) ≠ 101 ∧
      (44 : UInt8) ≠ 69 := by
    decide
  -- each member as the grammar of members has it: no blanks, a comma before all but the first
  have htok : m.memberBytes =
      ([] ++ separator true ++ [] ++ ([34] ++ (escapedBytes "account" ++ [34]))) ++
        ([] ++ [58] ++ ((Nat.repr m.account.toNat).toByteArray.data.toList ++
      (([] ++ separator false ++ [] ++ ([34] ++ (escapedBytes "sequence" ++ [34]))) ++
        ([] ++ [58] ++ ((Nat.repr m.sequence.toNat).toByteArray.data.toList ++
      (([] ++ separator false ++ [] ++ ([34] ++ (escapedBytes "chain-id" ++ [34]))) ++
        ([] ++ [58] ++ (([34] ++ (escapedBytes m.chainId ++ [34])) ++
      (([] ++ separator false ++ [] ++ ([34] ++ (escapedBytes "description" ++ [34]))) ++
        ([] ++ [58] ++ (([34] ++ (escapedBytes m.description ++ [34])) ++ []))))))))))) := by
    simp [memberBytes, quote_bytes]
  rw [htok]
  refine reads_readRecordMembers_member (reads_nextKey true blanks_nil blanks_nil
      (stringSpells_escapedBytes "account") (by omega)) rfl rfl blanks_nil
    (Reads.bind_nil (reads_readU64 hcomma m.account.toNat_lt (by omega)) (Reads.pure _)
      (fun _ h => h)) ?_ (fun _ _ => rfl)
  refine reads_readRecordMembers_member (reads_nextKey false blanks_nil blanks_nil
      (stringSpells_escapedBytes "sequence") (by omega)) rfl rfl blanks_nil
    (Reads.bind_nil (reads_readU64 hcomma m.sequence.toNat_lt (by omega)) (Reads.pure _)
      (fun _ h => h)) ?_ (fun _ _ => rfl)
  refine reads_readRecordMembers_member (reads_nextKey false blanks_nil blanks_nil
      (stringSpells_escapedBytes "chain-id") (by omega)) rfl rfl blanks_nil
    (Reads.bind_nil (reads_readText (stringSpells_escapedBytes m.chainId) (by omega))
      (Reads.pure _) (fun _ h => h)) ?_ (fun _ _ => trivial)
  refine reads_readRecordMembers_member (reads_nextKey false blanks_nil blanks_nil
      (stringSpells_escapedBytes "description") (by omega)) rfl rfl blanks_nil
    (Reads.bind_nil (reads_readText (stringSpells_escapedBytes m.description) (by omega))
      (Reads.pure _) (fun _ h => h)) ?_ (fun _ _ => trivial)
  exact reads_readRecordMembers_end blanks_nil

theorem decode_encode (m : Metadata) : decode m.encode = .ok m := by
  have hbytes := encode_bytes m
  have hsize : m.encode.size = m.memberBytes.length + 2 := by
    rw [ByteArray.size, ← Array.length_toList, hbytes]
    simp only [List.length_append, List.length_singleton]
    omega
  have hlong : 2 ≤ m.memberBytes.length := by
    simp only [memberBytes, quote_bytes, List.length_append, List.length_cons, List.length_nil]
    omega
  -- the document's fuel is its size and one, a round per member and the closing brace to spare
  obtain ⟨fuel, hfuel⟩ : ∃ fuel, m.encode.size + 1 = fuel + 5 ∧ m.memberBytes.length ≤ fuel + 3 :=
    ⟨m.memberBytes.length - 2, by omega, by omega⟩
  let s : Scan := ⟨m.encode, 0, nestingLimit⟩
  have hs : s.rest = [123] ++ (m.memberBytes ++ ([125] ++ [])) := by
    simp [s, Scan.rest, hbytes]
  have hrecord := run_readRecord_object (reads_members m hfuel.2) rfl s [] hs
    (show 1 < nestingLimit by decide)
  have hend : (s.advance (1 + (m.memberBytes.length + 1))).rest = [] := by
    simp only [Scan.rest, Scan.advance, s, hbytes]
    simp only [List.length_append, List.length_singleton, List.drop_eq_nil_iff]
    omega
  have hblank := reads_skipBlanks_end _ [] (by rw [hend]; rfl) rfl
  simp only [s] at hrecord hblank
  have hpure (x : Metadata) (s : Scan) : (pure x : ReadM Metadata).run.run s = (.ok x, s) := rfl
  unfold decode readDocument
  simp only [hfuel.1, run_bind, hrecord, hpure, hblank, Option.getD_some]
  simp

/-- The stored metadata as a written JSON object: its four members in the order they are
stored, the numbers as plain decimals. -/
def written (m : Metadata) : Written :=
  .object [("account", .number false m.account.toNat [] none),
    ("sequence", .number false m.sequence.toNat [] none),
    ("chain-id", .string m.chainId), ("description", .string m.description)]

theorem render_eq_text (m : Metadata) : m.render = m.written.text := by
  simp [render, objectText, written, Written.text, Written.membersText, Written.numberText,
    String.intercalate_cons_cons, String.append_assoc]

theorem encode_bytes_written (m : Metadata) : m.encode.data.toList = m.written.bytes := by
  rw [encode, String.toUTF8_eq_toByteArray, render_eq_text]
  rfl

theorem value_written (m : Metadata) :
    m.written.value = .object [("account", .number (.nat m.account.toNat)),
      ("chain-id", .string m.chainId), ("description", .string m.description),
      ("sequence", .number (.nat m.sequence.toNat))] := by
  have hlt : ¬ ("sequence" : String) < "account" ∧ ¬ ("chain-id" : String) < "account" ∧
      ("chain-id" : String) < "sequence" ∧ ¬ ("description" : String) < "account" ∧
      ¬ ("description" : String) < "chain-id" ∧ ("description" : String) < "sequence" := by
    decide
  simp [written, Written.value, Written.membersValue, Value.insertMember, Parsed.toNumber, hlt]

theorem parseValue_encode (m : Metadata) :
    parseValue m.encode = .ok (.object [("account", .number (.nat m.account.toNat)),
      ("chain-id", .string m.chainId), ("description", .string m.description),
      ("sequence", .number (.nat m.sequence.toNat))]) := by
  have hint : Written.membersIntegral [("account", .number false m.account.toNat [] none),
      ("sequence", .number false m.sequence.toNat [] none),
      ("chain-id", .string m.chainId), ("description", .string m.description)] = true := by
    have ha : m.account.toNat < Nat.pow 2 64 := m.account.toNat_lt
    have hs : m.sequence.toNat < Nat.pow 2 64 := m.sequence.toNat_lt
    simp [Written.membersIntegral, Written.integral, ha, hs]
  have hnest : m.written.nesting < nestingLimit := by
    simp [written, Written.nesting, Written.membersNesting, nestingLimit]
  rw [← value_written]
  exact parseValue_object blanks_nil (Written.spells_bytes m.written) blanks_nil
    (by rw [encode_bytes_written, List.nil_append, List.append_nil]) hint hnest

/-- Stored metadata is the JSON object of the members account, sequence, chain-id and
description, each once and in that order; a JSON reader finds exactly these four members in it,
and reading it as metadata gives the metadata back, whatever its numbers and texts. -/
theorem stored_object_reads_back (m : Metadata) :
    m.encode.data.toList = m.written.bytes ∧
    parseValue m.encode = .ok (.object [("account", .number (.nat m.account.toNat)),
      ("chain-id", .string m.chainId), ("description", .string m.description),
      ("sequence", .number (.nat m.sequence.toNat))]) ∧
    decode m.encode = .ok m :=
  ⟨encode_bytes_written m, parseValue_encode m, decode_encode m⟩

end Metadata

end Quorum
