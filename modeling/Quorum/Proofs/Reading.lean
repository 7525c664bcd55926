import Quorum.Json.Decode
import Quorum.Json.Writer
import Quorum.Proofs.Numerals
import Mathlib.Tactic.SplitIfs

/-!
# Reading written JSON back

What the reader makes of the JSON text that the writer produces. A reader runs over the bytes of a
text from a place; `Reads r tok a follow` says that `r`, started where the bytes `tok` stand,
takes exactly those bytes and gives `a`, whatever follows them, as long as what follows satisfies
`follow`. Readers in sequence read the concatenation of their tokens (`Reads.bind`), so the
reading of a whole text is assembled from the readings of its pieces.
-/

namespace Quorum.Json

variable {α β : Type}

def Scan.rest (s : Scan) : List UInt8 := s.bytes.data.toList.drop s.pos

def Scan.advance (s : Scan) (n : Nat) : Scan := { s with pos := s.pos + n }

theorem Scan.rest_advance {s : Scan} {tok rest : List UInt8} (h : s.rest = tok ++ rest) :
    (s.advance tok.length).rest = rest := by
  simp only [Scan.rest, Scan.advance] at h ⊢
  rw [← List.drop_drop, h, List.drop_left]

@[simp] theorem Scan.advance_advance (s : Scan) (m n : Nat) :
    (s.advance m).advance n = s.advance (m + n) := by
  simp [Scan.advance, Nat.add_assoc]

theorem getElem?_eq_head?_rest (s : Scan) : s.bytes[s.pos]? = s.rest.head? := by
  rw [Scan.rest, List.head?_drop, Array.getElem?_toList]
  by_cases h : s.pos < s.bytes.size
  · rw [getElem?_pos s.bytes s.pos h, getElem?_pos s.bytes.data s.pos h]
    rfl
  · rw [getElem?_neg s.bytes s.pos h, getElem?_neg s.bytes.data s.pos h]

theorem toList_loop_eq (b : ByteArray) (i : Nat) (r : List UInt8) :
    ByteArray.toList.loop b i r = r.reverse ++ b.data.toList.drop i := by
  fun_induction ByteArray.toList.loop b i r with
  | case1 i r hi ih =>
    rw [ih, List.reverse_cons, List.append_assoc]
    congr 1
    have hlen : i < b.data.toList.length := by simpa using hi
    rw [List.drop_eq_getElem_cons hlen]
    simp [ByteArray.get!, hi]
  | case2 i r hi =>
    rw [List.drop_eq_nil_of_le (by simpa using hi), List.append_nil]

theorem toList_eq_data (b : ByteArray) : b.toList = b.data.toList := by
  simp [ByteArray.toList, toList_loop_eq]

theorem Scan.extract_toList (s : Scan) : (s.bytes.extract s.pos s.bytes.size).toList = s.rest := by
  rw [toList_eq_data, ByteArray.data_extract, Array.toList_extract, Scan.rest]
  exact List.take_of_length_le (by simp)

theorem Scan.extract_toList_of_rest {s : Scan} {tok rest : List UInt8} (h : s.rest = tok ++ rest) :
    (s.bytes.extract s.pos (s.pos + tok.length)).toList = tok := by
  rw [toList_eq_data, ByteArray.data_extract, Array.toList_extract, List.extract_eq_take_drop,
    Nat.add_sub_cancel_left]
  change (s.rest).take tok.length = tok
  rw [h, List.take_left]

theorem Scan.le_size_of_rest {s : Scan} {tok rest : List UInt8} (h : s.rest = tok ++ rest)
    (hne : 0 < tok.length) : s.pos + tok.length ≤ s.bytes.size := by
  have hlen := congrArg List.length h
  simp only [Scan.rest, List.length_drop, Array.length_toList, ByteArray.size_data,
    List.length_append] at hlen
  omega

/-! ## Readers that take a known token -/

/-- The reader `r`, started where the bytes `tok` stand and followed by bytes that `follow`
accepts, takes exactly `tok` and gives `a`. -/
def Reads (r : ReadM α) (tok : List UInt8) (a : α) (follow : List UInt8 → Prop) : Prop :=
  ∀ s rest, s.rest = tok ++ rest → follow rest → r.run.run s = (.ok a, s.advance tok.length)

theorem run_bind (x : ReadM α) (f : α → ReadM β) (s : Scan) :
    (x >>= f).run.run s =
      match x.run.run s with
      | (.ok a, s') => (f a).run.run s'
      | (.error e, s') => (.error e, s') := by
  simp only [ExceptT.run_bind, StateT.run_bind]
  rcases x.run.run s with ⟨_ | _, _⟩ <;> rfl

theorem run_attempt (x : ReadM α) (s : Scan) :
    (attempt x).run.run s = (.ok (x.run.run s).1, (x.run.run s).2) := rfl

theorem run_get (s : Scan) : (get : ReadM Scan).run.run s = (.ok s, s) := rfl

theorem run_set (s s' : Scan) : (set s' : ReadM Unit).run.run s = (.ok (), s') := rfl

theorem run_peek? (s : Scan) : peek?.run.run s = (.ok s.rest.head?, s) := by
  rw [← getElem?_eq_head?_rest]; rfl

theorem run_bump (s : Scan) : bump.run.run s = (.ok (), s.advance 1) := rfl

namespace Reads

variable {x : ReadM α} {f : α → ReadM β} {tok tok₁ tok₂ : List UInt8} {a : α} {b : β}
  {F F₁ F₂ : List UInt8 → Prop}

theorem pure (a : α) : Reads (Pure.pure a : ReadM α) [] a F := fun _ _ _ _ => rfl

theorem bind (hx : Reads x tok₁ a F₁) (hf : Reads (f a) tok₂ b F₂)
    (hF : ∀ rest, F₂ rest → F₁ (tok₂ ++ rest)) : Reads (x >>= f) (tok₁ ++ tok₂) b F₂ := by
  intro s rest hs hrest
  have h₁ := hx s (tok₂ ++ rest) (by rw [hs, List.append_assoc]) (hF rest hrest)
  rw [run_bind, h₁]
  dsimp only
  have h₂ := hf (s.advance tok₁.length) rest
    (Scan.rest_advance (show s.rest = tok₁ ++ (tok₂ ++ rest) by rw [hs, List.append_assoc])) hrest
  rw [h₂, Scan.advance_advance, List.length_append]

theorem bind_nil (hx : Reads x tok₁ a F₁) (hf : Reads (f a) [] b F₂)
    (hF : ∀ rest, F₂ rest → F₁ rest) : Reads (x >>= f) tok₁ b F₂ := by
  have h := Reads.bind hx hf hF
  rwa [List.append_nil] at h

theorem nil_bind (hx : Reads x [] a F₁) (hf : Reads (f a) tok₂ b F₂)
    (hF : ∀ rest, F₂ rest → F₁ (tok₂ ++ rest)) : Reads (x >>= f) tok₂ b F₂ :=
  Reads.bind hx hf hF

theorem attempt (h : Reads x tok a F) : Reads (Json.attempt x) tok (.ok a) F := by
  intro s rest hs hrest
  rw [run_attempt, h s rest hs hrest]

theorem fixPlace (h : Reads x tok a F) : Reads (Json.fixPlace x) tok a F := by
  unfold Json.fixPlace
  exact bind_nil h.attempt (Reads.pure a) (fun _ h => h)

theorem withEnd {body : ReadM α} {close : ReadM Unit} (hbody : Reads body tok a F)
    (hclose : Reads close tok₂ () F₂) (hF : ∀ rest, F₂ rest → F (tok₂ ++ rest)) :
    Reads (Json.withEnd body close) (tok ++ tok₂) a F₂ := by
  unfold Json.withEnd
  exact Reads.bind hbody.attempt (bind_nil hclose.attempt (Reads.pure a) (fun _ h => h)) hF

end Reads

theorem run_fixPlace_ok {x : ReadM α} {s s' : Scan} {a : α} (h : x.run.run s = (.ok a, s')) :
    (fixPlace x).run.run s = (.ok a, s') := by
  unfold fixPlace
  rw [run_bind, run_attempt, h]
  rfl

theorem reads_peek? (b : UInt8) : Reads peek? [] (some b) (·.head? = some b) := by
  intro s rest hs hb
  simp only [List.nil_append] at hs
  rw [run_peek?, hs, hb]
  rfl

theorem reads_peekOrNull (b : UInt8) : Reads peekOrNull [] b (·.head? = some b) :=
  Reads.bind_nil (reads_peek? b) (Reads.pure b) (fun _ h => h)

theorem reads_bump (b : UInt8) : Reads bump [b] () fun _ => True := fun _ _ _ _ => rfl

theorem reads_next? (b : UInt8) : Reads next? [b] (some b) fun _ => True := by
  intro s rest hs _
  simp only [next?, run_bind, run_peek?, hs]
  rfl

/-- A blank between tokens: a space, a line feed, a tab or a carriage return. -/
def blankByte (b : UInt8) : Bool := b = 32 || b = 10 || b = 9 || b = 13

def Blanks (g : List UInt8) : Prop := ∀ b ∈ g, blankByte b = true

instance (g : List UInt8) : Decidable (Blanks g) :=
  decidable_of_iff (g.all blankByte = true) (by simp [Blanks])

@[simp] theorem blanks_nil : Blanks [] := fun _ h => nomatch h

theorem Blanks.append {g₁ g₂ : List UInt8} (h₁ : Blanks g₁) (h₂ : Blanks g₂) :
    Blanks (g₁ ++ g₂) := by
  intro b hb
  rcases List.mem_append.mp hb with hb | hb
  · exact h₁ b hb
  · exact h₂ b hb

theorem run_skipBlanks {s : Scan} {g rest : List UInt8} (hg : Blanks g)
    (hrest : ∀ b ∈ rest.head?, blankByte b = false) (hs : s.rest = g ++ rest) :
    skipBlanks.run.run s = (.ok rest.head?, s.advance g.length) := by
  have htake : (s.rest.takeWhile fun b => b = 32 || b = 10 || b = 9 || b = 13) = g := by
    change List.takeWhile blankByte s.rest = g
    rw [hs, List.takeWhile_append_of_pos hg]
    cases rest with
    | nil => rw [List.takeWhile_nil, List.append_nil]
    | cons b r =>
      rw [List.takeWhile_cons_of_neg (by simpa using hrest b rfl), List.append_nil]
  simp only [skipBlanks, run_bind, run_get, run_set, Scan.extract_toList, htake, run_peek?]
  rw [show ({ s with pos := s.pos + g.length } : Scan) = s.advance g.length from rfl,
    Scan.rest_advance hs]

theorem reads_skipBlanks_over {g : List UInt8} (hg : Blanks g) {b : UInt8}
    (hb : blankByte b = false) : Reads skipBlanks g (some b) (·.head? = some b) := by
  intro s rest hs hhead
  rw [run_skipBlanks hg (by rw [hhead]; simpa using hb) hs, hhead]

theorem reads_skipBlanks {b : UInt8} (hb : (b = 32 || b = 10 || b = 9 || b = 13) = false) :
    Reads skipBlanks [] (some b) (·.head? = some b) :=
  reads_skipBlanks_over blanks_nil hb

theorem reads_skipBlanks_end_over {g : List UInt8} (hg : Blanks g) :
    Reads skipBlanks g none (· = []) := by
  intro s rest hs hend
  subst hend
  exact run_skipBlanks hg (by simp) hs

theorem reads_skipBlanks_end : Reads skipBlanks [] none (· = []) :=
  reads_skipBlanks_end_over blanks_nil

theorem reads_expectColon {g : List UInt8} (hg : Blanks g) :
    Reads expectColon (g ++ [58]) () fun _ => True :=
  Reads.bind (reads_skipBlanks_over hg (b := 58) rfl) (reads_bump 58) (fun _ _ => rfl)

theorem reads_endObject : Reads endObject [125] () fun _ => True :=
  Reads.bind (reads_skipBlanks (b := 125) rfl) (reads_bump 125) (fun _ _ => rfl)

/-! ## The bytes of a text -/

theorem toByteArray_toList (t : String) :
    t.toByteArray.data.toList = t.toList.flatMap String.utf8EncodeChar := by
  rw [← String.utf8Encode_toList, List.utf8Encode, List.toList_data_toByteArray]

theorem ascii_bytes {c : Char} (h : c.toNat < 128) :
    String.utf8EncodeChar c = [c.val.toUInt8] ∧ c.val.toUInt8.toNat = c.toNat := by
  have hsize : c.utf8Size = 1 := by
    rw [Char.utf8Size_eq_one_iff, UInt32.le_iff_toNat_le, Char.toNat_val]
    exact Nat.le_of_lt_succ h
  refine ⟨String.utf8EncodeChar_eq_singleton hsize, ?_⟩
  rw [UInt32.toNat_toUInt8, Char.toNat_val]
  omega

theorem utf8EncodeChar_ge {c : Char} (h : 128 ≤ c.toNat) :
    ∀ b ∈ String.utf8EncodeChar c, 128 ≤ b.toNat := by
  have hc : 0x7f < c.val.toNat := h
  intro b hb
  simp only [String.utf8EncodeChar] at hb
  split at hb
  · omega
  split at hb
  · simp only [List.mem_cons, List.not_mem_nil, or_false] at hb
    rcases hb with rfl | rfl <;> simp <;> omega
  split at hb
  · simp only [List.mem_cons, List.not_mem_nil, or_false] at hb
    rcases hb with rfl | rfl | rfl <;> simp <;> omega
  · simp only [List.mem_cons, List.not_mem_nil, or_false] at hb
    rcases hb with rfl | rfl | rfl | rfl <;> simp <;> omega

theorem utf8Of_eq (n : Nat) : utf8Of n = String.utf8EncodeChar (Char.ofNat n) := by
  rw [utf8Of, toList_eq_data, String.toUTF8_eq_toByteArray, toByteArray_toList]
  simp

theorem fromUTF8?_utf8Encode (str : String) :
    String.fromUTF8? (ByteArray.mk (str.toList.flatMap String.utf8EncodeChar).toArray) = some str := by
  have h : ByteArray.mk (str.toList.flatMap String.utf8EncodeChar).toArray = str.toByteArray := by
    rw [← String.utf8Encode_toList, List.utf8Encode]
    exact ByteArray.ext (List.data_toByteArray).symm
  rw [h, String.fromUTF8?, dif_pos str.isValidUTF8]
  rfl

/-! ## Strings -/

/-- The letters of the escapes `\"`, `\\`, `\/`, `\b`, `\f`, `\n`, `\r` and `\t`, each with the
character it stands for. -/
def letterEscapes : List (UInt8 × Char) :=
  [(34, '"'), (92, '\\'), (47, '/'), (98, '\x08'), (102, '\x0c'), (110, '\n'), (114, '\r'),
    (116, '\t')]

def hexDigit (upper : Bool) (v : Nat) : UInt8 :=
  if v < 10 then (48 + v).toUInt8 else ((if upper then 55 else 87) + v).toUInt8

/-- The four hexadecimal digits of a code unit below `0x10000`, each in the case that `upper`
gives its place. -/
def unitDigits (upper : Fin 4 → Bool) (u : Nat) : List UInt8 :=
  [hexDigit (upper 0) (u / 0x1000 % 16), hexDigit (upper 1) (u / 0x100 % 16),
    hexDigit (upper 2) (u / 0x10 % 16), hexDigit (upper 3) (u % 16)]

/-- How a character may stand between the quotes of a string: as its own bytes unless it is a
control character, a quote or a backslash; as a letter escape; as a `\u` escape of its code
point below `0x10000`; or, above, as the `\u` escapes of its two surrogates. -/
inductive CharSpells : Char → List UInt8 → Prop
  | plain {c : Char} : 0x20 ≤ c.toNat → c ≠ '"' → c ≠ '\\' →
      CharSpells c (String.utf8EncodeChar c)
  | letter {c : Char} {l : UInt8} : (l, c) ∈ letterEscapes → CharSpells c [92, l]
  | unit {c : Char} (upper : Fin 4 → Bool) : c.toNat < 0x10000 →
      CharSpells c (92 :: 117 :: unitDigits upper c.toNat)
  | pair {c : Char} (high low : Fin 4 → Bool) : 0x10000 ≤ c.toNat →
      CharSpells c (92 :: 117 :: (unitDigits high (0xD800 + (c.toNat - 0x10000) / 0x400) ++
        92 :: 117 :: unitDigits low (0xDC00 + (c.toNat - 0x10000) % 0x400)))

/-- How a text may stand between the quotes of a string, character by character. -/
inductive StringSpells : List Char → List UInt8 → Prop
  | nil : StringSpells [] []
  | cons {c : Char} {cs : List Char} {p body : List UInt8} :
      CharSpells c p → StringSpells cs body → StringSpells (c :: cs) (p ++ body)

theorem hexValue?_hexDigit (upper : Bool) (v : Fin 16) : hexValue? (hexDigit upper v) = some v := by
  revert upper v
  decide

theorem reads_readHexEscape (upper : Fin 4 → Bool) {u : Nat} (hu : u < 0x10000) :
    Reads readHexEscape (unitDigits upper u) u fun _ => True := by
  have hdigits : (unitDigits upper u).mapM hexValue? =
      some [u / 0x1000 % 16, u / 0x100 % 16, u / 0x10 % 16, u % 16] := by
    simp only [unitDigits, List.mapM_cons, List.mapM_nil]
    rw [hexValue?_hexDigit (upper 0) ⟨_, Nat.mod_lt _ (by decide)⟩,
      hexValue?_hexDigit (upper 1) ⟨_, Nat.mod_lt _ (by decide)⟩,
      hexValue?_hexDigit (upper 2) ⟨_, Nat.mod_lt _ (by decide)⟩,
      hexValue?_hexDigit (upper 3) ⟨_, Nat.mod_lt _ (by decide)⟩]
    rfl
  have hvalue : [u / 0x1000 % 16, u / 0x100 % 16, u / 0x10 % 16, u % 16].foldl
      (fun acc v => acc * 16 + v) 0 = u := by
    simp only [List.foldl_cons, List.foldl_nil]
    omega
  intro s rest hs _
  have hle := Scan.le_size_of_rest hs (by simp [unitDigits])
  have hds := Scan.extract_toList_of_rest hs
  have hlen : (unitDigits upper u).length = 4 := rfl
  rw [hlen] at hle hds
  simp only [readHexEscape, run_bind, run_get, if_pos hle, hds, run_set, hdigits, hvalue]
  rfl

theorem reads_readEscape_letter :
    ∀ p ∈ letterEscapes, Reads readEscape [p.1] (String.utf8EncodeChar p.2) fun _ => True := by
  intro p hp
  simp only [letterEscapes, List.mem_cons, List.not_mem_nil, or_false] at hp
  unfold readEscape
  rcases hp with rfl | rfl | rfl | rfl | rfl | rfl | rfl | rfl <;>
    exact Reads.bind_nil (reads_next? _) (Reads.pure _) (fun _ _ => trivial)

theorem toNat_not_surrogate (c : Char) : c.toNat < 0xD800 ∨ 0xDFFF < c.toNat ∧ c.toNat < 0x110000 := by
  have h := c.valid
  simp only [UInt32.isValidChar, Nat.isValidChar] at h
  exact h

theorem reads_readEscape_unit {c : Char} (upper : Fin 4 → Bool) (hc : c.toNat < 0x10000) :
    Reads readEscape (117 :: unitDigits upper c.toNat) (String.utf8EncodeChar c)
      fun _ => True := by
  have hsurrogate := toNat_not_surrogate c
  have h1 : (decide (0xDC00 ≤ c.toNat) && decide (c.toNat ≤ 0xDFFF)) = false := by
    simp only [Bool.and_eq_false_iff, decide_eq_false_iff_not]
    omega
  have h2 : (decide (c.toNat < 0xD800) || decide (c.toNat > 0xDBFF)) = true := by
    simp only [Bool.or_eq_true, decide_eq_true_iff]
    omega
  have hunicode : Reads readUnicodeEscape (unitDigits upper c.toNat) (String.utf8EncodeChar c)
      fun _ => True := by
    unfold readUnicodeEscape
    refine Reads.bind_nil (reads_readHexEscape upper hc) ?_ (fun _ _ => trivial)
    simp only [h1, h2, Bool.false_eq_true, if_false, if_true, utf8Of_eq, Char.ofNat_toNat]
    exact Reads.pure _
  unfold readEscape
  exact Reads.bind (reads_next? 117) hunicode (fun _ _ => trivial)

theorem reads_readEscape_pair {c : Char} (high low : Fin 4 → Bool) (hc : 0x10000 ≤ c.toNat) :
    Reads readEscape (117 :: (unitDigits high (0xD800 + (c.toNat - 0x10000) / 0x400) ++
      92 :: 117 :: unitDigits low (0xDC00 + (c.toNat - 0x10000) % 0x400)))
      (String.utf8EncodeChar c) fun _ => True := by
  have hmax := toNat_not_surrogate c
  have hn : 0xD800 + (c.toNat - 0x10000) / 0x400 < 0x10000 := by omega
  have hn2 : 0xDC00 + (c.toNat - 0x10000) % 0x400 < 0x10000 := by omega
  have h1 : (decide (0xDC00 ≤ 0xD800 + (c.toNat - 0x10000) / 0x400) &&
      decide (0xD800 + (c.toNat - 0x10000) / 0x400 ≤ 0xDFFF)) = false := by
    simp only [Bool.and_eq_false_iff, decide_eq_false_iff_not]
    omega
  have h2 : (decide (0xD800 + (c.toNat - 0x10000) / 0x400 < 0xD800) ||
      decide (0xD800 + (c.toNat - 0x10000) / 0x400 > 0xDBFF)) = false := by
    rw [Bool.or_eq_false_iff, decide_eq_false_iff_not, decide_eq_false_iff_not]
    omega
  have h3 : (decide (0xDC00 + (c.toNat - 0x10000) % 0x400 < 0xDC00) ||
      decide (0xDC00 + (c.toNat - 0x10000) % 0x400 > 0xDFFF)) = false := by
    rw [Bool.or_eq_false_iff, decide_eq_false_iff_not, decide_eq_false_iff_not]
    omega
  have hpoint : (0xD800 + (c.toNat - 0x10000) / 0x400 - 0xD800) * 1024 +
      (0xDC00 + (c.toNat - 0x10000) % 0x400 - 0xDC00) + 0x10000 = c.toNat := by
    omega
  have hunicode : Reads readUnicodeEscape (unitDigits high (0xD800 + (c.toNat - 0x10000) / 0x400) ++
      92 :: 117 :: unitDigits low (0xDC00 + (c.toNat - 0x10000) % 0x400))
      (String.utf8EncodeChar c) fun _ => True := by
    unfold readUnicodeEscape
    refine Reads.bind (reads_readHexEscape high hn) ?_ (fun _ _ => trivial)
    simp only [h1, h2, Bool.false_eq_true, if_false]
    refine Reads.bind (reads_next? 92) ?_ (fun _ _ => trivial)
    refine Reads.bind (reads_next? 117) ?_ (fun _ _ => trivial)
    refine Reads.bind_nil (reads_readHexEscape low hn2) ?_ (fun _ _ => trivial)
    simp only [h3, Bool.false_eq_true, if_false, hpoint, utf8Of_eq, Char.ofNat_toNat]
    exact Reads.pure _
  unfold readEscape
  exact Reads.bind (reads_next? 117) hunicode (fun _ _ => trivial)

theorem utf8EncodeChar_plain {c : Char} (hq : c ≠ '"') (hb : c ≠ '\\') (hctl : 0x20 ≤ c.toNat) :
    ∀ b ∈ String.utf8EncodeChar c, 32 ≤ b ∧ b ≠ 34 ∧ b ≠ 92 := by
  have hq' : c.toNat ≠ 34 := fun h => hq (Char.ext (UInt32.toNat_inj.mp h))
  have hb' : c.toNat ≠ 92 := fun h => hb (Char.ext (UInt32.toNat_inj.mp h))
  intro b hmem
  have hbyte : 128 ≤ b.toNat ∨ b.toNat = c.toNat := by
    by_cases hascii : c.toNat < 128
    · obtain ⟨hbytes, hval⟩ := ascii_bytes hascii
      rw [hbytes, List.mem_singleton] at hmem
      exact .inr (hmem ▸ hval)
    · exact .inl (utf8EncodeChar_ge (by omega) b hmem)
  simp only [UInt8.le_iff_toNat_le, ne_eq, ← UInt8.toNat_inj]
  simp
  omega

theorem run_readStringBytes_plain {bs : List UInt8} (hbs : ∀ b ∈ bs, 32 ≤ b ∧ b ≠ 34 ∧ b ≠ 92)
    (fuel : Nat) (acc : Array UInt8) (s : Scan) (rest : List UInt8) (hs : s.rest = bs ++ rest) :
    (readStringBytes (fuel + bs.length) acc).run.run s =
      (readStringBytes fuel (acc ++ bs.toArray)).run.run (s.advance bs.length) := by
  induction bs generalizing acc s with
  | nil => simp [Scan.advance]
  | cons b bs ih =>
    obtain ⟨hlo, h34, h92⟩ := hbs b (by simp)
    rw [List.length_cons, ← Nat.add_assoc]
    simp only [readStringBytes, run_bind, reads_next? b s (bs ++ rest) hs trivial]
    rw [if_neg (UInt8.not_lt.mpr hlo), ih (fun x hx => hbs x (by simp [hx])) (acc.push b)
      (s.advance [b].length) (Scan.rest_advance hs), Scan.advance_advance]
    simp [Nat.add_comm]

theorem run_readStringBytes_escape {tok out : List UInt8}
    (h : Reads readEscape tok out fun _ => True) (fuel : Nat) (acc : Array UInt8) (s : Scan)
    (rest : List UInt8) (hs : s.rest = 92 :: tok ++ rest) :
    (readStringBytes (fuel + 1) acc).run.run s =
      (readStringBytes fuel (acc ++ out.toArray)).run.run (s.advance (1 + tok.length)) := by
  simp only [readStringBytes, run_bind, reads_next? 92 s _ hs trivial]
  rw [h _ rest (Scan.rest_advance (show s.rest = [92] ++ (tok ++ rest) by exact hs)) trivial,
    Scan.advance_advance]
  rfl

theorem run_readStringBytes_char {c : Char} {p : List UInt8} (h : CharSpells c p) :
    ∃ k ≤ p.length, ∀ fuel acc s rest, s.rest = p ++ rest →
      (readStringBytes (fuel + k) acc).run.run s =
        (readStringBytes fuel (acc ++ (String.utf8EncodeChar c).toArray)).run.run
          (s.advance p.length) := by
  -- an escape takes one round, a plain character one per byte
  have hescape : ∀ tok, Reads readEscape tok (String.utf8EncodeChar c) (fun _ => True) →
      p = 92 :: tok → ∃ k ≤ p.length, ∀ fuel acc s rest, s.rest = p ++ rest →
        (readStringBytes (fuel + k) acc).run.run s =
          (readStringBytes fuel (acc ++ (String.utf8EncodeChar c).toArray)).run.run
            (s.advance p.length) := by
    rintro tok hread rfl
    refine ⟨1, by simp, fun fuel acc s rest hs => ?_⟩
    rw [run_readStringBytes_escape hread fuel acc s rest hs, List.length_cons, Nat.add_comm]
  cases h with
  | plain hctl hq hb =>
    exact ⟨_, Nat.le_refl _, run_readStringBytes_plain (utf8EncodeChar_plain hq hb hctl)⟩
  | letter hl => exact hescape [_] (reads_readEscape_letter _ hl) rfl
  | unit upper hc => exact hescape _ (reads_readEscape_unit upper hc) rfl
  | pair high low hc => exact hescape _ (reads_readEscape_pair high low hc) rfl

theorem run_readStringBytes_spells {cs : List Char} {body : List UInt8}
    (h : StringSpells cs body) :
    ∃ k ≤ body.length, ∀ fuel acc s rest, s.rest = body ++ rest →
      (readStringBytes (fuel + k) acc).run.run s =
        (readStringBytes fuel (acc ++ (cs.flatMap String.utf8EncodeChar).toArray)).run.run
          (s.advance body.length) := by
  induction h with
  | nil => exact ⟨0, Nat.le_refl _, fun fuel acc s rest _ => by simp [Scan.advance]⟩
  | cons hc _ ih =>
    obtain ⟨k, hk, hrun⟩ := run_readStringBytes_char hc
    obtain ⟨k', hk', hrun'⟩ := ih
    refine ⟨k' + k, by simp only [List.length_append]; omega, fun fuel acc s rest hs => ?_⟩
    rw [List.append_assoc] at hs
    rw [← Nat.add_assoc, hrun (fuel + k') acc s _ hs, hrun' fuel _ _ rest (Scan.rest_advance hs),
      Scan.advance_advance, List.length_append, List.flatMap_cons, ← List.append_toArray,
      Array.append_assoc]

theorem reads_readStringBytes_close (fuel : Nat) (acc : Array UInt8) :
    Reads (readStringBytes (fuel + 1) acc) [34] acc fun _ => True := by
  unfold readStringBytes
  exact Reads.bind_nil (reads_next? 34) (Reads.pure acc) (fun _ _ => trivial)

theorem reads_readString {cs : List Char} {body : List UInt8} (h : StringSpells cs body)
    {fuel : Nat} (hfuel : body.length < fuel) :
    Reads (readString fuel) (body ++ [34]) (String.ofList cs) fun _ => True := by
  intro s rest hs _
  obtain ⟨k, hk, hrun⟩ := run_readStringBytes_spells h
  obtain ⟨f, rfl⟩ : ∃ f, fuel = f + 1 + k := ⟨fuel - 1 - k, by omega⟩
  rw [List.append_assoc] at hs
  unfold readString
  simp only [run_bind, run_get]
  rw [hrun (f + 1) #[] s ([34] ++ rest) hs,
    reads_readStringBytes_close f _ _ rest (Scan.rest_advance hs) trivial]
  have hutf : String.fromUTF8? (ByteArray.mk (#[] ++ (cs.flatMap String.utf8EncodeChar).toArray)) =
      some (String.ofList cs) := by
    rw [Array.empty_append, ← fromUTF8?_utf8Encode (String.ofList cs), String.toList_ofList]
  simp only [hutf, Scan.advance_advance, List.length_append]
  rfl

theorem reads_readText {str : String} {body : List UInt8} (h : StringSpells str.toList body)
    {fuel : Nat} (hfuel : body.length < fuel) :
    Reads (readText fuel) ([34] ++ (body ++ [34])) str fun _ => True := by
  have hstring := reads_readString h hfuel
  rw [String.ofList_toList] at hstring
  unfold readText
  refine Reads.fixPlace (Reads.nil_bind (reads_skipBlanks (b := 34) rfl) ?_ (fun _ _ => rfl))
  exact Reads.bind (reads_bump 34) hstring (fun _ _ => trivial)

/-! ## The writer's strings -/

/-- The bytes between the quotes of a string literal as the writer writes it: each character
escaped. -/
def escapedBytes (str : String) : List UInt8 :=
  str.toList.flatMap fun c => (escapeChar c).toByteArray.data.toList

theorem quote_bytes (str : String) :
    (quote str).toByteArray.data.toList = [34] ++ (escapedBytes str ++ [34]) := by
  have hq : String.utf8EncodeChar '"' = [34] := by decide
  simp only [toByteArray_toList, escapedBytes]
  simp [quote, String.toList_join, List.flatMap_map, List.flatMap_assoc, hq]

theorem unicode_escape_table : ∀ n < 32,
    ("\\u00" ++ ("0123456789abcdef".toList.getD (n / 16) '0').toString ++
      ("0123456789abcdef".toList.getD (n % 16) '0').toString).toByteArray.data.toList =
    92 :: 117 :: unitDigits (fun _ => false) n := by
  decide

theorem charSpells_escapeChar (c : Char) : CharSpells c (escapeChar c).toByteArray.data.toList := by
  -- one case per `if` of the writer; `split_ifs` over the whole chain is far slower
  by_cases hq : c = '"'
  · subst hq; exact .letter (by decide)
  by_cases hb : c = '\\'
  · subst hb; exact .letter (by decide)
  by_cases h8 : c = '\x08'
  · subst h8; exact .letter (by decide)
  by_cases h12 : c = '\x0c'
  · subst h12; exact .letter (by decide)
  by_cases h10 : c = '\n'
  · subst h10; exact .letter (by decide)
  by_cases h13 : c = '\r'
  · subst h13; exact .letter (by decide)
  by_cases h9 : c = '\t'
  · subst h9; exact .letter (by decide)
  have hwrite : escapeChar c = if c.toNat < 0x20 then
      "\\u00" ++ ("0123456789abcdef".toList.getD (c.toNat / 16) '0').toString ++
        ("0123456789abcdef".toList.getD (c.toNat % 16) '0').toString
      else c.toString := by
    rw [escapeChar, if_neg hq, if_neg hb, if_neg h8, if_neg h12, if_neg h10, if_neg h13, if_neg h9]
  by_cases hctl : c.toNat < 32
  · rw [hwrite, if_pos hctl, unicode_escape_table c.toNat hctl]
    exact .unit _ (by omega)
  · have hplain : c.toString.toByteArray.data.toList = String.utf8EncodeChar c := by
      rw [toByteArray_toList]
      simp
    rw [hwrite, if_neg hctl, hplain]
    exact .plain (by omega) hq hb

theorem stringSpells_escapedBytes (str : String) : StringSpells str.toList (escapedBytes str) := by
  unfold escapedBytes
  induction str.toList with
  | nil => exact .nil
  | cons c cs ih => exact .cons (charSpells_escapeChar c) ih

/-! ## Numbers -/

theorem isDigitByte_facts {d : UInt8} (h : isDigitByte d = true) :
    (d = 32 || d = 10 || d = 9 || d = 13) = false ∧ d ≠ 45 := by
  have hrange : 48 ≤ d.toNat ∧ d.toNat ≤ 57 := by
    simpa [isDigitByte, UInt8.le_iff_toNat_le] using h
  simp only [Bool.or_eq_false_iff, decide_eq_false_iff_not, ne_eq, ← UInt8.toNat_inj]
  simp
  omega

theorem digit_bytes {c : Char} (h : c.isDigit = true) :
    String.utf8EncodeChar c = [c.val.toUInt8] ∧ isDigitByte c.val.toUInt8 = true ∧
      c.val.toUInt8.toNat = c.toNat := by
  have hlo : 48 ≤ c.toNat ∧ c.toNat ≤ 57 := by
    simp only [Char.isDigit, Bool.and_eq_true, decide_eq_true_eq] at h
    rw [ge_iff_le, UInt32.le_iff_toNat_le, UInt32.le_iff_toNat_le] at h
    exact h
  obtain ⟨hbyte, hval⟩ := ascii_bytes (c := c) (by omega)
  refine ⟨hbyte, ?_, hval⟩
  simp only [isDigitByte, Bool.and_eq_true, decide_eq_true_eq, UInt8.le_iff_toNat_le, hval]
  exact hlo

theorem eq_zero_of_toDigits_eq_zero_cons {n : Nat} {cs : List Char}
    (h : Nat.toDigits 10 n = '0' :: cs) : n = 0 := by
  induction n using Nat.strongRecOn generalizing cs with
  | ind n ih =>
    rw [Nat.toDigits_eq_if (by decide)] at h
    split at h
    · rename_i hn
      have hd := (List.cons.inj h).1
      revert hd hn
      generalize n = m
      revert m
      decide
    · rename_i hn
      obtain ⟨c, cs', hc⟩ := List.exists_cons_of_ne_nil (Nat.toDigits_ne_nil (b := 10) (n := n / 10))
      rw [hc, List.cons_append] at h
      obtain ⟨rfl, -⟩ := List.cons.inj h
      have := ih (n / 10) (by omega) hc
      omega

/-- An integer as the reader keeps it: a natural number, or a negative one. -/
def Parsed.ofInteger (negative : Bool) (m : Nat) : Parsed :=
  if negative then .neg (-(m : Int)) else .nat m

@[simp] theorem Parsed.ofInteger_false (m : Nat) : Parsed.ofInteger false m = .nat m := rfl

section Numbers

/- What follows a number: a byte that neither continues its digits nor starts a fraction or an
exponent. -/
variable {b : UInt8} (hb : isDigitByte b = false ∧ b ≠ 46 ∧ b ≠ 101 ∧ b ≠ 69)
include hb

theorem reads_readNumberTail (negative : Bool) {m : Nat}
    (hm : negative = true → 0 < m ∧ m ≤ Nat.pow 2 63) (fuel : Nat) :
    Reads (readNumberTail fuel (!negative) m) [] (Parsed.ofInteger negative m)
      (·.head? = some b) := by
  obtain ⟨hd, h46, h101, h69⟩ := hb
  unfold readNumberTail
  refine Reads.bind_nil (reads_peekOrNull b) ?_ (fun _ h => h)
  split
  · exact absurd rfl h46
  · exact absurd rfl h101
  · exact absurd rfl h69
  · cases negative with
    | false => exact Reads.pure _
    | true =>
      obtain ⟨hpos, hle⟩ := hm rfl
      have hkept : (decide (m = 0) || decide (m > Nat.pow 2 63)) = false := by
        simp only [Bool.or_eq_false_iff, decide_eq_false_iff_not]
        omega
      simp only [Bool.not_true, Bool.false_eq_true, if_false, hkept]
      exact Reads.pure _

theorem reads_digits (negative : Bool) {cs : List Char} (hcs : ∀ c ∈ cs, c.isDigit = true)
    (fuel m : Nat) (hfuel : cs.length ≤ fuel) (hmax : Nat.ofDigitChars 10 cs m ≤ maxU64)
    (hneg : negative = true →
      0 < Nat.ofDigitChars 10 cs m ∧ Nat.ofDigitChars 10 cs m ≤ Nat.pow 2 63) :
    Reads (readInteger.digits (!negative) fuel m) (cs.flatMap String.utf8EncodeChar)
      (Parsed.ofInteger negative (Nat.ofDigitChars 10 cs m)) (·.head? = some b) := by
  induction cs generalizing fuel m with
  | nil =>
    cases fuel with
    | zero => exact reads_readNumberTail hb negative hneg 0
    | succ f =>
      unfold readInteger.digits
      refine Reads.bind_nil (reads_peekOrNull b) ?_ (fun _ h => h)
      rw [if_neg (by simp [hb.1])]
      exact reads_readNumberTail hb negative hneg f
  | cons c cs ih =>
    obtain ⟨f, rfl⟩ : ∃ f, fuel = f + 1 := ⟨fuel - 1, by simp at hfuel; omega⟩
    obtain ⟨hbyte, hdigit, hval⟩ := digit_bytes (hcs c (by simp))
    have hstep := Numeral.ofDigitChars_le_append [] cs (10 * m + (c.toNat - '0'.toNat))
    rw [Nat.ofDigitChars_cons] at hmax hneg ⊢
    simp only [Nat.ofDigitChars_nil, List.nil_append, Char.reduceToNat] at hstep hmax hneg ⊢
    simp only [List.flatMap_cons, hbyte, List.singleton_append]
    unfold readInteger.digits
    refine Reads.bind (reads_peekOrNull _) ?_ (fun _ _ => rfl)
    have hle : ¬ (m * 10 + (c.val.toUInt8.toNat - 48) > maxU64) := by
      rw [hval]; omega
    rw [if_pos hdigit]
    simp only [if_neg hle]
    have hm' : m * 10 + (c.val.toUInt8.toNat - 48) = 10 * m + (c.toNat - 48) := by
      rw [hval, Nat.mul_comm]
    rw [hm']
    exact Reads.bind (reads_bump _)
      (ih (fun x hx => hcs x (by simp [hx])) f _ (by simp at hfuel; omega) hmax hneg)
      (fun _ _ => trivial)

theorem reads_readInteger (negative : Bool) {n : Nat} (hn : n ≤ maxU64)
    (hneg : negative = true → 0 < n ∧ n ≤ Nat.pow 2 63) {fuel : Nat}
    (hfuel : (Nat.toDigits 10 n).length ≤ fuel + 1) :
    Reads (readInteger fuel (!negative)) ((Nat.toDigits 10 n).flatMap String.utf8EncodeChar)
      (Parsed.ofInteger negative n) (·.head? = some b) := by
  have hdigits : ∀ c ∈ Nat.toDigits 10 n, c.isDigit = true :=
    fun c hc => Nat.isDigit_of_mem_toDigits (by decide) (by decide) hc
  have hvalue := Nat.ofDigitChars_ten_toDigits (n := n)
  obtain ⟨c, cs, hcs⟩ := List.exists_cons_of_ne_nil (Nat.toDigits_ne_nil (b := 10) (n := n))
  rw [hcs] at hdigits hvalue hfuel ⊢
  obtain ⟨hbyte, hdigit, hval⟩ := digit_bytes (hdigits c (by simp))
  simp only [List.flatMap_cons, hbyte, List.singleton_append]
  unfold readInteger
  refine Reads.bind (reads_next? _) ?_ (fun _ _ => trivial)
  split
  · rename_i h
    cases h
  · -- a leading zero: the numeral is `0` alone
    rename_i h
    have h48 : c.toNat = 48 := by rw [← hval, Option.some.inj h]; rfl
    have hc : c = '0' := Char.ext (UInt32.toNat_inj.mp h48)
    subst hc
    obtain rfl := eq_zero_of_toDigits_eq_zero_cons hcs
    obtain rfl : cs = [] := (List.cons.inj (hcs.symm.trans (Nat.toDigits_zero 10))).2
    refine Reads.bind_nil (reads_peekOrNull b) ?_ (fun _ h => h)
    rw [if_neg (by simp [hb.1])]
    exact reads_readNumberTail hb negative hneg fuel
  · -- a leading nonzero digit starts the digit loop
    rename_i d _ h
    obtain rfl := Option.some.inj h
    rw [if_pos hdigit, hval]
    rw [Nat.ofDigitChars_cons, Nat.mul_zero, Nat.zero_add] at hvalue
    subst hvalue
    exact reads_digits hb negative (fun x hx => hdigits x (by simp [hx])) fuel _
      (by simp at hfuel; omega) hn hneg

theorem reads_readNatBelow {bits n : Nat} (hbits : bits ≤ 64) (hn : n < Nat.pow 2 bits)
    (name : String) {fuel : Nat} (hfuel : (Nat.repr n).length ≤ fuel + 1) :
    Reads (readNatBelow bits name fuel) ((Nat.repr n).toByteArray.data.toList) n
      (·.head? = some b) := by
  rw [toByteArray_toList, Nat.toList_repr]
  have hdigits : ∀ c ∈ Nat.toDigits 10 n, c.isDigit = true :=
    fun c hc => Nat.isDigit_of_mem_toDigits (by decide) (by decide) hc
  obtain ⟨c, cs, hcs⟩ := List.exists_cons_of_ne_nil (Nat.toDigits_ne_nil (b := 10) (n := n))
  obtain ⟨hbyte, hdigit, hval⟩ := digit_bytes (hdigits c (by simp [hcs]))
  have hlead : (Nat.toDigits 10 n).flatMap String.utf8EncodeChar =
      c.val.toUInt8 :: cs.flatMap String.utf8EncodeChar := by
    simp [hcs, hbyte]
  obtain ⟨hblank, h45⟩ := isDigitByte_facts hdigit
  have hwide : Nat.pow 2 bits ≤ Nat.pow 2 64 := Nat.pow_le_pow_right (by decide) hbits
  have hint : Reads (readInteger fuel true) ((Nat.toDigits 10 n).flatMap String.utf8EncodeChar)
      (.nat n) (·.head? = some b) :=
    reads_readInteger hb false (by unfold maxU64; omega) (by simp)
      (by simpa [String.length, Nat.toList_repr] using hfuel)
  unfold readNatBelow
  rw [hlead] at hint ⊢
  refine Reads.fixPlace (Reads.bind (reads_skipBlanks hblank) ?_ (fun _ _ => rfl))
  dsimp only
  rw [if_neg h45, if_pos hdigit]
  exact Reads.bind_nil hint (by dsimp only; rw [if_pos hn]; exact Reads.pure n) (fun _ h => h)

theorem reads_readU64 {n : Nat} (hn : n < Nat.pow 2 64) {fuel : Nat}
    (hfuel : (Nat.repr n).length ≤ fuel + 1) :
    Reads (readU64 fuel) ((Nat.repr n).toByteArray.data.toList) n (·.head? = some b) :=
  reads_readNatBelow hb (Nat.le_refl 64) hn "u64" hfuel

theorem reads_readU32 {n : Nat} (hn : n < Nat.pow 2 32) {fuel : Nat}
    (hfuel : (Nat.repr n).length ≤ fuel + 1) :
    Reads (readU32 fuel) ((Nat.repr n).toByteArray.data.toList) n (·.head? = some b) :=
  reads_readNatBelow hb (by decide) hn "u32" hfuel

end Numbers

/-! ## Objects -/

def separator (first : Bool) : List UInt8 := if first then [] else [44]

@[simp] theorem separator_true : separator true = [] := rfl

@[simp] theorem separator_false : separator false = [44] := rfl

theorem reads_nextKey (first : Bool) {before after : List UInt8} (hbefore : Blanks before)
    (hafter : Blanks after) {k : String} {key : List UInt8} (hk : StringSpells k.toList key)
    {fuel : Nat} (hfuel : key.length < fuel) :
    Reads (nextKey first fuel) (before ++ separator first ++ after ++ ([34] ++ (key ++ [34])))
      (some k) fun _ => True := by
  have hstring := reads_readString hk hfuel
  rw [String.ofList_toList] at hstring
  unfold nextKey
  cases first with
  | true =>
    rw [separator_true, List.append_nil]
    exact Reads.bind (reads_skipBlanks_over (hbefore.append hafter) (b := 34) rfl)
      (Reads.nil_bind (Reads.pure (F := fun _ => True) _) (Reads.bind (reads_bump 34)
        (Reads.bind_nil hstring (Reads.pure _) (fun _ h => h)) (fun _ h => h)) (fun _ h => h))
      (fun _ _ => rfl)
  | false =>
    rw [separator_false]
    simp only [List.append_assoc]
    exact Reads.bind (reads_skipBlanks_over hbefore (b := 44) rfl)
      (Reads.bind (reads_bump 44) (Reads.bind (reads_skipBlanks_over hafter (b := 34) rfl)
        (Reads.nil_bind (Reads.pure (F := fun _ => True) _) (Reads.bind (reads_bump 34)
          (Reads.bind_nil hstring (Reads.pure _) (fun _ h => h)) (fun _ h => h))
          (fun _ h => h)) (fun _ _ => rfl)) (fun _ _ => trivial))
      (fun _ _ => rfl)

theorem reads_nextKey_end (first : Bool) {g : List UInt8} (hg : Blanks g) (fuel : Nat) :
    Reads (nextKey first fuel) g none (·.head? = some 125) := by
  unfold nextKey
  exact Reads.bind_nil (reads_skipBlanks_over hg (b := 125) rfl) (Reads.pure _) (fun _ h => h)

section Records

variable {σ : Type} {fields : List (Field σ)} {fuel : Nat} {first : Bool} {acc acc' res : σ}
  {k : String} {f : Field σ} {g ktok vtok tok : List UInt8} {F Fv : List UInt8 → Prop}

theorem reads_readRecordMembers_member
    (hkey : Reads (nextKey first fuel) ktok (some k) fun _ => True)
    (hfind : fields.find? (·.name == k) = some f) (hnew : f.present acc = false) (hg : Blanks g)
    (hval : Reads (f.read acc fuel) vtok acc' Fv)
    (hrest : Reads (readRecordMembers fields fuel false acc') tok res F)
    (hF : ∀ rest, F rest → Fv (tok ++ rest)) :
    Reads (readRecordMembers fields (fuel + 1) first acc) (ktok ++ (g ++ [58] ++ (vtok ++ tok)))
      res F := by
  unfold readRecordMembers
  refine Reads.bind hkey ?_ (fun _ _ => trivial)
  dsimp only
  rw [hfind]
  dsimp only
  rw [if_neg (by simp [hnew])]
  exact Reads.bind (reads_expectColon hg) (Reads.bind hval hrest hF) (fun _ _ => trivial)

theorem reads_readRecordMembers_end (hg : Blanks g) :
    Reads (readRecordMembers fields (fuel + 1) first acc) g acc (·.head? = some 125) := by
  unfold readRecordMembers
  exact Reads.bind_nil (reads_nextKey_end first hg fuel) (Reads.pure _) (fun _ h => h)

end Records

theorem run_enter {s : Scan} (h : 1 < s.depth) :
    enter.run.run s = (.ok (), { s with depth := s.depth - 1 }) := by
  simp only [enter, run_bind, run_get, if_neg (Nat.not_le.mpr h)]
  rfl

theorem run_leave (s : Scan) : leave.run.run s = (.ok (), { s with depth := s.depth + 1 }) := rfl

theorem run_readRecord_object {σ : Type} {r : Record σ} {fuel : Nat} {acc : σ} {tok : List UInt8}
    (hbody : Reads (readRecordMembers r.fields fuel true r.empty) tok acc (·.head? = some 125))
    (hmiss : firstMissing r.fields acc = none) (s : Scan) (rest : List UInt8)
    (hs : s.rest = [123] ++ (tok ++ ([125] ++ rest))) (hd : 1 < s.depth) :
    (readRecord r fuel).run.run s = (.ok acc, s.advance (1 + (tok.length + 1))) := by
  have hrest : ({ s with depth := s.depth - 1 }.advance 1).rest = (tok ++ [125]) ++ rest := by
    rw [List.append_assoc]
    exact Scan.rest_advance (s := { s with depth := s.depth - 1 }) hs
  unfold readRecord
  rw [run_fixPlace_ok]
  simp only [run_bind, reads_skipBlanks (b := 123) rfl s _ hs rfl]
  rw [show s.advance [].length = s from rfl, run_enter hd]
  dsimp only
  rw [run_bump]
  dsimp only
  rw [Reads.withEnd (a := acc) (F := (·.head? = some 125)) ?body reads_endObject (fun _ _ => rfl)
    _ rest hrest trivial]
  case body =>
    refine Reads.bind_nil hbody ?_ (fun _ h => h)
    rw [hmiss]
    exact Reads.pure acc
  dsimp only
  rw [run_leave]
  dsimp only
  congr 1
  cases s
  simp only [Scan.advance, Scan.mk.injEq, true_and, List.length_append, List.length_cons,
    List.length_nil] at hd ⊢
  omega

end Quorum.Json
