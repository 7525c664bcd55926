import Quorum.Proofs.WrittenJson

/-!
# Skipping JSON values

A value that a record does not know is skipped: its form is checked, nothing of it is kept. The
skipper reads strings and numbers byte by byte and walks arrays and objects with a stack of open
brackets instead of by descent, so it has no nesting limit.

After a value inside the brackets `stack`, the skipper closes the brackets that the text closes and
goes on with the next item or member; `afterValue c f stack` is that continuation, `c` the rounds
left for closing and `f` those left for the values after. Every machine step is a lemma, each
taking the blanks before the byte it acts on, and a mutual induction over the spellings of a value
carries the skipper from the value to the continuation after it.
-/

namespace Quorum.Json

open Written

/-! ## Strings -/

section Strings

variable (fuel : Nat) (s : Scan) (rest : List UInt8)

theorem run_skipString_byte {b : UInt8} (hb : 32 ≤ b ∧ b ≠ 34 ∧ b ≠ 92)
    (hs : s.rest = b :: rest) :
    (skipString (fuel + 1)).run.run s = (skipString fuel).run.run (s.advance 1) := by
  obtain ⟨hlo, h34, h92⟩ := hb
  rw [skipString, run_bind, reads_peek? b s (b :: rest) hs rfl]
  dsimp only
  split
  · rename_i h
    cases h
  · rename_i h
    exact absurd (Option.some.inj h) h34
  · rename_i h
    exact absurd (Option.some.inj h) h92
  · rename_i b' _ _ h
    obtain rfl := Option.some.inj h
    rw [if_neg (UInt8.not_lt.mpr hlo), run_bind, run_bump]
    rfl

theorem run_skipString_plain {bs : List UInt8} (hbs : ∀ b ∈ bs, 32 ≤ b ∧ b ≠ 34 ∧ b ≠ 92)
    (hs : s.rest = bs ++ rest) :
    (skipString (fuel + bs.length)).run.run s =
      (skipString fuel).run.run (s.advance bs.length) := by
  induction bs generalizing s with
  | nil => rfl
  | cons b bs ih =>
    rw [List.length_cons, ← Nat.add_assoc,
      run_skipString_byte _ s (bs ++ rest) (hbs b (by simp)) hs,
      ih (s.advance 1) (fun x hx => hbs x (by simp [hx])) (@Scan.rest_advance _ [b] _ hs),
      Scan.advance_advance, Nat.add_comm 1]

theorem run_skipString_letter {l : UInt8}
    (hl : (l = 34 || l = 92 || l = 47 || l = 98 || l = 102 || l = 110 || l = 114 || l = 116) = true)
    (hs : s.rest = 92 :: l :: rest) :
    (skipString (fuel + 1)).run.run s = (skipString fuel).run.run (s.advance 2) := by
  rw [skipString, run_bind, reads_peek? 92 s _ hs rfl]
  dsimp only
  split
  · rename_i h
    cases h
  · rename_i h
    exact absurd (Option.some.inj h) (by decide)
  rotate_left
  · rename_i b _ h92 h
    exact absurd (Option.some.inj h).symm h92
  rw [show s.advance [].length = s from rfl, run_bind, run_bump]
  dsimp only
  rw [run_bind, reads_next? l (s.advance 1) rest (@Scan.rest_advance _ [92] _ hs) trivial]
  dsimp only
  have h117 : l ≠ 117 := by
    intro h
    subst h
    exact absurd hl (by decide)
  split
  · rename_i h
    cases h
  · rename_i h
    exact absurd (Option.some.inj h) h117
  · rename_i l' _ h
    obtain rfl := Option.some.inj h
    rw [if_pos hl, Scan.advance_advance]
    rfl

theorem run_skipString_unicode {ds : List UInt8} {n : Nat}
    (hhex : Reads readHexEscape ds n fun _ => True) (hs : s.rest = 92 :: 117 :: ds ++ rest) :
    (skipString (fuel + 1)).run.run s = (skipString fuel).run.run (s.advance (2 + ds.length)) := by
  rw [skipString, run_bind, reads_peek? 92 s _ hs rfl]
  dsimp only
  split
  · rename_i h
    cases h
  · rename_i h
    exact absurd (Option.some.inj h) (by decide)
  rotate_left
  · rename_i b _ h92 h
    exact absurd (Option.some.inj h).symm h92
  rw [show s.advance [].length = s from rfl, run_bind, run_bump]
  dsimp only
  rw [run_bind, reads_next? 117 (s.advance 1) (ds ++ rest) (@Scan.rest_advance _ [92] _ hs) trivial]
  dsimp only
  split
  · rename_i h
    cases h
  · rw [run_bind, hhex ((s.advance 1).advance [117].length) rest (@Scan.rest_advance _ [117] _
      (@Scan.rest_advance _ [92] _ hs)) trivial]
    simp only [Scan.advance_advance]
    congr 2
  · rename_i c h117 h
    exact absurd (Option.some.inj h).symm h117

end Strings

theorem letter_of_mem_letterEscapes {l : UInt8} {c : Char} (h : (l, c) ∈ letterEscapes) :
    (l = 34 || l = 92 || l = 47 || l = 98 || l = 102 || l = 110 || l = 114 || l = 116) = true := by
  simp only [letterEscapes, List.mem_cons, List.not_mem_nil, or_false, Prod.mk.injEq] at h
  rcases h with ⟨rfl, -⟩ | ⟨rfl, -⟩ | ⟨rfl, -⟩ | ⟨rfl, -⟩ | ⟨rfl, -⟩ | ⟨rfl, -⟩ | ⟨rfl, -⟩ |
    ⟨rfl, -⟩ <;> rfl

theorem run_skipString_char {c : Char} {p : List UInt8} (h : CharSpells c p) :
    ∃ k ≤ p.length, ∀ fuel s rest, s.rest = p ++ rest →
      (skipString (fuel + k)).run.run s = (skipString fuel).run.run (s.advance p.length) := by
  cases h with
  | plain hctl hq hb =>
    exact ⟨_, Nat.le_refl _, fun fuel s rest hs =>
      run_skipString_plain fuel s rest (utf8EncodeChar_plain hq hb hctl) hs⟩
  | letter hl =>
    exact ⟨1, by simp, fun fuel s rest hs =>
      run_skipString_letter fuel s rest (letter_of_mem_letterEscapes hl) hs⟩
  | unit upper hc =>
    exact ⟨1, by simp, fun fuel s rest hs =>
      run_skipString_unicode fuel s rest (reads_readHexEscape upper hc) hs⟩
  | pair high low hc =>
    -- the skipper does not pair surrogates: each is a `\u` escape of its own round
    have hmax := toNat_not_surrogate c
    refine ⟨2, by simp, fun fuel s rest hs => ?_⟩
    have hs' : s.rest = 92 :: 117 :: unitDigits high (0xD800 + (c.toNat - 0x10000) / 0x400) ++
        (92 :: 117 :: unitDigits low (0xDC00 + (c.toNat - 0x10000) % 0x400) ++ rest) := by
      rw [hs]
      simp
    rw [run_skipString_unicode (fuel + 1) s _ (reads_readHexEscape high (by omega)) hs',
      run_skipString_unicode fuel (s.advance (2 + (unitDigits high _).length)) rest
        (reads_readHexEscape low (by omega)) (Scan.rest_advance hs'), Scan.advance_advance]
    rfl

theorem run_skipString_spells {cs : List Char} {body : List UInt8} (h : StringSpells cs body) :
    ∃ k ≤ body.length, ∀ fuel s rest, s.rest = body ++ rest →
      (skipString (fuel + k)).run.run s = (skipString fuel).run.run (s.advance body.length) := by
  induction h with
  | nil => exact ⟨0, Nat.le_refl _, fun fuel s rest _ => rfl⟩
  | cons hc _ ih =>
    obtain ⟨k, hk, hrun⟩ := run_skipString_char hc
    obtain ⟨k', hk', hrun'⟩ := ih
    refine ⟨k' + k, by simp only [List.length_append]; omega, fun fuel s rest hs => ?_⟩
    rw [List.append_assoc] at hs
    rw [← Nat.add_assoc, hrun (fuel + k') s _ hs, hrun' fuel _ rest (Scan.rest_advance hs),
      Scan.advance_advance, List.length_append]

theorem reads_skipString {cs : List Char} {body : List UInt8} (h : StringSpells cs body)
    {fuel : Nat} (hfuel : body.length < fuel) :
    Reads (skipString fuel) (body ++ [34]) () fun _ => True := by
  intro s rest hs _
  obtain ⟨k, hk, hrun⟩ := run_skipString_spells h
  obtain ⟨f, rfl⟩ : ∃ f, fuel = f + 1 + k := ⟨fuel - 1 - k, by omega⟩
  have hs' : s.rest = body ++ ([34] ++ rest) := by rw [hs, List.append_assoc]
  rw [hrun (f + 1) s ([34] ++ rest) hs']
  have hclose : (skipString (f + 1)).run.run (s.advance body.length) =
      (.ok (), (s.advance body.length).advance 1) := by
    rw [skipString, run_bind, reads_peek? 34 _ (34 :: rest) (Scan.rest_advance hs') rfl]
    rfl
  rw [hclose, Scan.advance_advance, List.length_append]
  rfl

/-! ## Numbers -/

theorem reads_skipDigits {b : UInt8} (hb : isDigitByte b = false) {cs : List Char}
    (hcs : ∀ c ∈ cs, c.isDigit = true) (fuel : Nat) (hfuel : cs.length ≤ fuel) :
    Reads (skipDigits fuel) (cs.flatMap String.utf8EncodeChar) cs.length (·.head? = some b) := by
  induction cs generalizing fuel with
  | nil =>
    cases fuel with
    | zero => exact Reads.pure 0
    | succ f =>
      unfold skipDigits
      refine Reads.bind_nil (reads_peekOrNull b) ?_ (fun _ h => h)
      rw [if_neg (by simp [hb])]
      exact Reads.pure 0
  | cons c cs ih =>
    obtain ⟨f, rfl⟩ : ∃ f, fuel = f + 1 := ⟨fuel - 1, by simp at hfuel; omega⟩
    obtain ⟨hbyte, hdigit, -⟩ := digit_bytes (hcs c (by simp))
    simp only [List.flatMap_cons, hbyte, List.singleton_append]
    unfold skipDigits
    refine Reads.nil_bind (reads_peekOrNull _) ?_ (fun _ _ => rfl)
    rw [if_pos hdigit, List.length_cons, Nat.add_comm]
    exact Reads.bind (reads_bump _) (Reads.bind_nil (ih (fun x hx => hcs x (by simp [hx])) f
      (by simp at hfuel; omega)) (Reads.pure _) (fun _ h => h)) (fun _ _ => trivial)

theorem bytesOf_repr_cons (n : Nat) : ∃ c cs, Written.bytesOf (Nat.repr n) =
    c.val.toUInt8 :: cs.flatMap String.utf8EncodeChar ∧ Nat.toDigits 10 n = c :: cs ∧
    isDigitByte c.val.toUInt8 = true ∧ (∀ x ∈ cs, x.isDigit = true) ∧
    (c.val.toUInt8 = 48 → cs = []) := by
  obtain ⟨c, cs, hcs⟩ := List.exists_cons_of_ne_nil (Nat.toDigits_ne_nil (b := 10) (n := n))
  have hdigits : ∀ x ∈ Nat.toDigits 10 n, x.isDigit = true :=
    fun x hx => Nat.isDigit_of_mem_toDigits (by decide) (by decide) hx
  obtain ⟨hbyte, hdigit, hval⟩ := digit_bytes (hdigits c (by simp [hcs]))
  refine ⟨c, cs, by simp [bytesOf_repr, hcs, hbyte], hcs, hdigit,
    fun x hx => hdigits x (by simp [hcs, hx]), fun h48 => ?_⟩
  have hc : c = '0' := Char.ext (UInt32.toNat_inj.mp (show c.toNat = 48 by rw [← hval, h48]; rfl))
  subst hc
  obtain rfl := eq_zero_of_toDigits_eq_zero_cons hcs
  exact (List.cons.inj (hcs.symm.trans (Nat.toDigits_zero 10))).2

theorem length_le_length_flatMap_utf8 (cs : List Char) :
    cs.length ≤ (cs.flatMap String.utf8EncodeChar).length := by
  induction cs with
  | nil => simp
  | cons c cs ih =>
    rw [List.flatMap_cons, List.length_append, String.length_utf8EncodeChar, List.length_cons]
    have := Char.utf8Size_pos c
    omega


theorem zeros_repr_cons (zeros n : Nat) : ∃ (c : Char) (cs : List Char),
    List.replicate zeros 48 ++ bytesOf (Nat.repr n) =
      c.val.toUInt8 :: cs.flatMap String.utf8EncodeChar ∧
    isDigitByte c.val.toUInt8 = true ∧ ∀ x ∈ cs, x.isDigit = true := by
  have hzeros : ∀ m : Nat,
      List.replicate m (48 : UInt8) = (List.replicate m '0').flatMap String.utf8EncodeChar := by
    intro m
    induction m with
    | zero => rfl
    | succ m ih => rw [List.replicate_succ, List.replicate_succ, List.flatMap_cons, ← ih]; rfl
  have hall : ∀ x ∈ List.replicate zeros '0' ++ Nat.toDigits 10 n, x.isDigit = true := by
    intro x hx
    rcases List.mem_append.mp hx with hx | hx
    · rw [List.eq_of_mem_replicate hx]
      rfl
    · exact Nat.isDigit_of_mem_toDigits (by decide) (by decide) hx
  obtain ⟨c, cs, hcs⟩ := List.exists_cons_of_ne_nil
    (show List.replicate zeros '0' ++ Nat.toDigits 10 n ≠ [] by simp [Nat.toDigits_ne_nil])
  obtain ⟨hbyte, hdigit, -⟩ := digit_bytes (hall c (by simp [hcs]))
  refine ⟨c, cs, ?_, hdigit, fun x hx => hall x (by simp [hcs, hx])⟩
  rw [hzeros, bytesOf_repr, ← List.flatMap_append, hcs, List.flatMap_cons, hbyte]
  rfl

theorem reads_skipExponent {b : UInt8} (hb : isDigitByte b = false) {e : Int} {tail : List UInt8}
    (h : ExponentSpells (some e) tail) (fuel : Nat) (hfuel : tail.length ≤ fuel + 1) :
    Reads (skipExponent fuel) tail () (·.head? = some b) := by
  cases h with
  | @some _ letter sign zeros _ hsign =>
    obtain ⟨c, cs, hbytes, hdigit, hdigits⟩ := zeros_repr_cons zeros e.natAbs
    rw [hbytes] at hfuel ⊢
    have hlen := length_le_length_flatMap_utf8 cs
    simp only [List.length_cons, List.length_append] at hfuel
    have hsign' : sign = [] ∨ sign = [45] ∨ sign = [43] := by
      rcases hsign with h | ⟨-, h⟩
      · split at h <;> simp [h]
      · exact .inr (.inr h)
    have hdigitsRead : Reads (do
        let x ← next?
        if isDigitByte (x.getD 0) = true then do
          let _ ← skipDigits fuel
          pure ()
        else fail ErrorCode.invalidNumber)
        (c.val.toUInt8 :: cs.flatMap String.utf8EncodeChar) () (·.head? = some b) := by
      refine Reads.bind (reads_next? _) ?_ (fun _ _ => trivial)
      rw [Option.getD_some, if_pos hdigit]
      exact Reads.bind_nil (reads_skipDigits hb hdigits fuel (by omega))
        (Reads.pure ()) (fun _ h => h)
    unfold skipExponent
    refine Reads.bind (reads_bump letter) ?_ (fun _ _ => trivial)
    rcases hsign' with rfl | rfl | rfl
    · refine Reads.nil_bind (reads_peekOrNull _) ?_ (fun _ _ => rfl)
      split
      · rename_i h
        rw [h] at hdigit
        exact absurd hdigit (by decide)
      · rename_i h
        rw [h] at hdigit
        exact absurd hdigit (by decide)
      · exact hdigitsRead
    · exact Reads.nil_bind (reads_peekOrNull 45)
        (Reads.bind (reads_bump 45) hdigitsRead (fun _ _ => trivial)) (fun _ _ => rfl)
    · exact Reads.nil_bind (reads_peekOrNull 43)
        (Reads.bind (reads_bump 43) hdigitsRead (fun _ _ => trivial)) (fun _ _ => rfl)

theorem reads_skipNumberTail {b : UInt8} (hb : isDigitByte b = false ∧ b ≠ 46 ∧ b ≠ 101 ∧ b ≠ 69)
    (fraction : List (Fin 10)) {exponent : Option Int} {tail : List UInt8}
    (hexp : ExponentSpells exponent tail) (fuel : Nat)
    (hfuel : (fractionBytes fraction ++ tail).length ≤ fuel + 1) :
    Reads (skipNumberTail fuel) (fractionBytes fraction ++ tail) () (·.head? = some b) := by
  obtain ⟨hdigit, h46, h101, h69⟩ := hb
  unfold skipNumberTail
  cases fraction with
  | nil =>
    rw [show fractionBytes [] = [] from rfl, List.nil_append] at hfuel ⊢
    cases hexp with
    | none =>
      refine Reads.nil_bind (reads_peekOrNull b) ?_ (fun _ h => h)
      split
      · exact absurd rfl h46
      · exact absurd rfl h101
      · exact absurd rfl h69
      · exact Reads.pure ()
    | some zeros hletter hsign =>
      have hexp := reads_skipExponent hdigit (.some zeros hletter hsign) fuel hfuel
      rcases hletter with rfl | rfl
      · exact Reads.nil_bind (reads_peekOrNull 101) hexp (fun _ _ => rfl)
      · exact Reads.nil_bind (reads_peekOrNull 69) hexp (fun _ _ => rfl)
  | cons d ds =>
    have hdigits : ∀ c ∈ (d :: ds).map (fun d => Nat.digitChar d.val), c.isDigit = true := by
      intro c hc
      obtain ⟨d, -, rfl⟩ := List.mem_map.mp hc
      simp [Nat.isDigit_digitChar, d.isLt]
    have hlen := length_le_length_flatMap_utf8 ((d :: ds).map fun d => Nat.digitChar d.val)
    have hpos : ((d :: ds).map fun d => Nat.digitChar d.val).length ≠ 0 := by simp
    rw [show fractionBytes (d :: ds) = 46 :: ((d :: ds).map fun d => Nat.digitChar d.val).flatMap
      String.utf8EncodeChar from rfl, List.cons_append] at hfuel ⊢
    rw [List.length_cons, List.length_append] at hfuel
    refine Reads.nil_bind (reads_peekOrNull 46) ?_ (fun _ _ => rfl)
    refine Reads.bind (reads_bump 46) ?_ (fun _ _ => trivial)
    rw [List.append_eq]
    cases hexp with
    | none =>
      simp only [List.append_nil, List.length_nil, Nat.add_zero] at hfuel ⊢
      refine Reads.bind_nil (reads_skipDigits hdigit hdigits fuel (by omega)) ?_ (fun _ h => h)
      rw [if_neg hpos]
      refine Reads.nil_bind (reads_peekOrNull b) ?_ (fun _ h => h)
      split
      · exact absurd rfl h101
      · exact absurd rfl h69
      · exact Reads.pure ()
    | @some e letter _ zeros hletter hsign =>
      have hexp := reads_skipExponent hdigit (.some zeros hletter hsign) fuel (by
        simp only [List.length_cons] at hfuel ⊢
        omega)
      have hend : isDigitByte letter = false := by rcases hletter with rfl | rfl <;> rfl
      refine Reads.bind (reads_skipDigits hend hdigits fuel (by omega)) ?_ (fun _ _ => rfl)
      rw [if_neg hpos]
      rcases hletter with rfl | rfl
      · exact Reads.nil_bind (reads_peekOrNull 101) hexp (fun _ _ => rfl)
      · exact Reads.nil_bind (reads_peekOrNull 69) hexp (fun _ _ => rfl)

theorem head?_numberTail {b : UInt8} (hb : isDigitByte b = false) (fraction : List (Fin 10))
    {exponent : Option Int} {tail : List UInt8} (hexp : ExponentSpells exponent tail) :
    ∃ nb, isDigitByte nb = false ∧ ∀ rest, rest.head? = some b →
      (fractionBytes fraction ++ tail ++ rest).head? = some nb := by
  cases fraction with
  | cons d ds => exact ⟨46, by decide, fun _ _ => rfl⟩
  | nil =>
    cases hexp with
    | @some _ letter _ _ hletter _ =>
      exact ⟨letter, by rcases hletter with rfl | rfl <;> rfl, fun _ _ => rfl⟩
    | none => exact ⟨b, hb, fun _ h => h⟩

theorem reads_skipNumber {b : UInt8} (hb : isDigitByte b = false ∧ b ≠ 46 ∧ b ≠ 101 ∧ b ≠ 69)
    (whole : Nat) (fraction : List (Fin 10)) {exponent : Option Int} {tail : List UInt8}
    (hexp : ExponentSpells exponent tail) (fuel : Nat)
    (hfuel : (bytesOf (Nat.repr whole) ++ (fractionBytes fraction ++ tail)).length ≤ fuel + 1) :
    Reads (skipNumber fuel) (bytesOf (Nat.repr whole) ++ (fractionBytes fraction ++ tail)) ()
      (·.head? = some b) := by
  obtain ⟨c, cs, hbytes, -, hdigit, hdigits, hzero⟩ := bytesOf_repr_cons whole
  obtain ⟨nb, hnb, hfollow⟩ := head?_numberTail hb.1 fraction hexp
  rw [hbytes, List.cons_append] at hfuel ⊢
  unfold skipNumber
  refine Reads.bind (reads_next? _) ?_ (fun _ _ => trivial)
  rw [List.append_eq]
  dsimp only [Option.getD_some]
  have hlen := length_le_length_flatMap_utf8 cs
  simp only [List.length_cons, List.length_append] at hfuel
  have htail := reads_skipNumberTail hb fraction hexp fuel
    (by simp only [List.length_append]; omega)
  by_cases h48 : c.val.toUInt8 = 48
  · -- a leading zero: no digit may follow it
    obtain rfl := hzero h48
    rw [if_pos h48, List.flatMap_nil, List.nil_append]
    refine Reads.nil_bind (reads_peekOrNull nb) ?_ hfollow
    rw [if_neg (by simp [hnb])]
    exact htail
  · rw [if_neg h48, if_pos hdigit]
    exact Reads.bind (reads_skipDigits hnb hdigits fuel (by omega)) htail hfollow

/-! ## Scalars and opening brackets -/

theorem reads_closing {α : Type} {r : ReadM α} {tok : List UInt8} {a : α}
    (h : ∀ b : UInt8, blankByte b = true ∨ b = 44 ∨ b = 93 ∨ b = 125 →
      Reads r tok a (·.head? = some b)) :
    Reads r tok a Closing :=
  fun s rest hs hrest => readsAt_closing (d := 0) h s rest hs hrest (Nat.zero_le _)

theorem reads_skipScalarOrOpen_scalar {fuel : Nat} {g : List UInt8} (hg : Blanks g) :
    {w : Written} → {v : List UInt8} → Spells w v → w.nesting = 0 → v.length ≤ fuel + 1 →
    Reads (skipScalarOrOpen fuel) (g ++ v) none Closing
  | _, _, .null, _, _ => by
    rw [bytes_null]
    unfold skipScalarOrOpen
    refine Reads.bind (reads_skipBlanks_over hg (b := 110) rfl) ?_ (fun _ _ => rfl)
    exact Reads.bind (reads_bump 110) (Reads.bind_nil (reads_expectIdent nullTail) (Reads.pure _)
      (fun _ _ => trivial)) (fun _ _ => trivial)
  | _, _, .bool true, _, _ => by
    rw [bytes_true]
    unfold skipScalarOrOpen
    refine Reads.bind (reads_skipBlanks_over hg (b := 116) rfl) ?_ (fun _ _ => rfl)
    exact Reads.bind (reads_bump 116) (Reads.bind_nil (reads_expectIdent trueTail) (Reads.pure _)
      (fun _ _ => trivial)) (fun _ _ => trivial)
  | _, _, .bool false, _, _ => by
    rw [bytes_false]
    unfold skipScalarOrOpen
    refine Reads.bind (reads_skipBlanks_over hg (b := 102) rfl) ?_ (fun _ _ => rfl)
    exact Reads.bind (reads_bump 102) (Reads.bind_nil (reads_expectIdent falseTail) (Reads.pure _)
      (fun _ _ => trivial)) (fun _ _ => trivial)
  | _, _, .string hs, _, hfuel => by
    simp only [List.length_append, List.length_cons, List.length_nil] at hfuel
    unfold skipScalarOrOpen
    refine Reads.bind (reads_skipBlanks_over hg (b := 34) rfl) ?_ (fun _ _ => rfl)
    exact Reads.bind (reads_bump 34) (Reads.bind_nil (reads_skipString hs (by omega))
      (Reads.pure _) (fun _ _ => trivial)) (fun _ _ => trivial)
  | _, _, @Spells.number true whole fraction _ _ hexp, _, hfuel => by
    rw [if_pos rfl] at hfuel ⊢
    simp only [List.length_append, List.length_singleton] at hfuel
    have hnumber := reads_closing fun b hb => reads_skipNumber (closing_ends_number hb) whole
      fraction hexp fuel (by simp only [List.length_append]; omega)
    unfold skipScalarOrOpen
    refine Reads.bind (reads_skipBlanks_over hg (b := 45) rfl) ?_ (fun _ _ => rfl)
    exact Reads.bind (reads_bump 45) (Reads.bind_nil hnumber (Reads.pure _) (fun _ h => h))
      (fun _ _ => trivial)
  | _, _, @Spells.number false whole fraction _ _ hexp, _, hfuel => by
    obtain ⟨c, cs, hbytes, -, hdigit, -, -⟩ := bytesOf_repr_cons whole
    have hblank : blankByte c.val.toUInt8 = false := (startsValue_of_isDigitByte hdigit).1
    rw [if_neg Bool.false_ne_true, List.nil_append] at hfuel ⊢
    have hnumber := reads_closing fun b hb => reads_skipNumber (closing_ends_number hb) whole
      fraction hexp fuel hfuel
    rw [hbytes, List.cons_append] at hnumber ⊢
    unfold skipScalarOrOpen
    refine Reads.bind (reads_skipBlanks_over hg hblank) ?_ (fun _ _ => rfl)
    split
    · rename_i h
      cases h
    case h_2 | h_3 | h_4 | h_5 | h_6 | h_7 | h_8 =>
      rename_i h
      rw [Option.some.inj h] at hdigit
      exact absurd hdigit (by decide)
    · rename_i h
      obtain rfl := Option.some.inj h
      rw [if_pos hdigit]
      exact Reads.bind_nil hnumber (Reads.pure none) (fun _ h => h)
  | _, _, .array _ _, h, _ => by simp [nesting] at h
  | _, _, .object _ _, h, _ => by simp [nesting] at h

theorem reads_skipScalarOrOpen_open {fuel : Nat} {g : List UInt8} (hg : Blanks g) {o : UInt8}
    {F : List UInt8 → Prop} (ho : o = 91 ∨ o = 123) :
    Reads (skipScalarOrOpen fuel) (g ++ [o]) (some o) F := by
  unfold skipScalarOrOpen
  rcases ho with rfl | rfl
  · exact Reads.bind (reads_skipBlanks_over hg (b := 91) rfl)
      (Reads.bind_nil (reads_bump 91) (Reads.pure _) (fun _ _ => trivial)) (fun _ _ => rfl)
  · exact Reads.bind (reads_skipBlanks_over hg (b := 123) rfl)
      (Reads.bind_nil (reads_bump 123) (Reads.pure _) (fun _ _ => trivial)) (fun _ _ => rfl)

theorem reads_skipKey {g : List UInt8} (hg : Blanks g) {cs : List Char} {key : List UInt8}
    (hk : StringSpells cs key) {beforeColon : List UInt8} (hbc : Blanks beforeColon) {fuel : Nat}
    (hfuel : key.length < fuel) :
    Reads (skipKey fuel) (g ++ ([34] ++ (key ++ [34])) ++ (beforeColon ++ [58])) ()
      fun _ => True := by
  rw [List.append_assoc g, List.append_assoc [34]]
  unfold skipKey
  refine Reads.bind (reads_skipBlanks_over hg (b := 34) rfl) ?_ (fun _ _ => rfl)
  dsimp only
  refine Reads.bind (reads_bump 34) ?_ (fun _ _ => trivial)
  exact Reads.bind (reads_skipString hk hfuel)
    (Reads.bind (reads_skipBlanks_over hbc (b := 58) rfl) (reads_bump 58) (fun _ _ => rfl))
    (fun _ _ => trivial)

/-! ## The bracket stack -/

/-- After a value inside the brackets `stack`: closes the brackets the text closes. -/
def closeRest (c : Nat) : List UInt8 → ReadM (Option (UInt8 × List UInt8))
  | [] => pure none
  | frame :: rest => closeFrames c true frame rest

/-- After a value or a closed bracket: goes on with the next item or member of the bracket that
`closeFrames` returned, or stops when none is left. -/
def goOn (f : Nat) : Option (UInt8 × List UInt8) → ReadM Unit
  | none => pure ()
  | some (frame, rest) => do
    if frame = 123 then skipKey f
    skipWithin f (frame :: rest)

/-- What the skipper does after a value inside the brackets `stack`: it closes the brackets that
the text closes, given `c` rounds for that, and goes on with the next item or member, given `f`
rounds. -/
def afterValue (c f : Nat) (stack : List UInt8) : ReadM Unit :=
  closeRest c stack >>= goOn f

section Machine

variable (c f : Nat) (stack : List UInt8) (s : Scan) (rest : List UInt8) {g : List UInt8}

theorem run_skipWithin_scalar {s' : Scan} (h : (skipScalarOrOpen f).run.run s = (.ok none, s')) :
    (skipWithin (f + 1) stack).run.run s = (afterValue f f stack).run.run s' := by
  rw [skipWithin, run_bind, h]
  cases stack <;> rfl

theorem run_skipWithin_open {o : UInt8} {s' : Scan}
    (h : (skipScalarOrOpen f).run.run s = (.ok (some o), s')) :
    (skipWithin (f + 1) stack).run.run s = (closeFrames f false o stack >>= goOn f).run.run s' := by
  rw [skipWithin, run_bind, h]
  rfl

theorem run_closeFrames_close (acceptComma : Bool) (hg : Blanks g) {frame b : UInt8}
    (hb : (b = 93 ∧ frame = 91) ∨ (b = 125 ∧ frame = 123)) (hs : s.rest = g ++ b :: rest) :
    (closeFrames (c + 1) acceptComma frame stack).run.run s =
      (closeRest c stack).run.run (s.advance (g.length + 1)) := by
  have hblank : blankByte b = false := by
    rcases hb with ⟨rfl, -⟩ | ⟨rfl, -⟩ <;> rfl
  have hcloses : ((b = 93 && frame = 91) || (b = 125 && frame = 123)) = true := by
    rcases hb with ⟨rfl, rfl⟩ | ⟨rfl, rfl⟩ <;> rfl
  unfold closeFrames
  rw [run_bind, reads_skipBlanks_over hg hblank s (b :: rest) hs rfl]
  dsimp only
  split
  · rename_i h
    rcases hb with ⟨rfl, -⟩ | ⟨rfl, -⟩ <;> exact absurd (Option.some.inj h) (by decide)
  · rename_i b' _ h
    obtain rfl := Option.some.inj h
    rw [if_pos hcloses, run_bind, run_bump, Scan.advance_advance]
    cases stack <;> rfl
  · rename_i h
    cases h

theorem run_closeFrames_comma (hg : Blanks g) {frame : UInt8} (hs : s.rest = g ++ [44] ++ rest) :
    (closeFrames (c + 1) true frame stack).run.run s =
      (.ok (some (frame, stack)), s.advance (g ++ [44]).length) := by
  unfold closeFrames
  rw [run_bind, reads_skipBlanks_over hg (b := 44) rfl s (44 :: rest) (by rw [hs]; simp) rfl,
    List.length_append, List.length_singleton, ← Scan.advance_advance]
  rfl

theorem run_closeFrames_value (hg : Blanks g) {frame b : UInt8} (hblank : blankByte b = false)
    (hopen : ((b = 93 && frame = 91) || (b = 125 && frame = 123)) = false)
    (hs : s.rest = g ++ b :: rest) :
    (closeFrames (c + 1) false frame stack).run.run s =
      (.ok (some (frame, stack)), s.advance g.length) := by
  unfold closeFrames
  rw [run_bind, reads_skipBlanks_over hg hblank s (b :: rest) hs rfl]
  dsimp only
  split
  · rfl
  · rename_i b' _ h
    obtain rfl := Option.some.inj h
    rw [if_neg (by simp [hopen])]
    rfl
  · rename_i h
    cases h

theorem run_goOn_array :
    (goOn f (some (91, stack))).run.run s = (skipWithin f (91 :: stack)).run.run s :=
  rfl

theorem run_goOn_object :
    (goOn f (some (123, stack))).run.run s =
      (skipKey f >>= fun _ => skipWithin f (123 :: stack)).run.run s :=
  rfl

theorem run_closeFrames_close_goOn (acceptComma : Bool) (hg : Blanks g) {frame b : UInt8}
    (hb : (b = 93 ∧ frame = 91) ∨ (b = 125 ∧ frame = 123)) (hs : s.rest = g ++ b :: rest) :
    (closeFrames (c + 1) acceptComma frame stack >>= goOn f).run.run s =
      (afterValue c f stack).run.run (s.advance (g.length + 1)) := by
  rw [run_bind, run_closeFrames_close c stack s rest acceptComma hg hb hs, afterValue, run_bind]

theorem run_afterValue_close (hg : Blanks g) {frame b : UInt8}
    (hb : (b = 93 ∧ frame = 91) ∨ (b = 125 ∧ frame = 123)) (hs : s.rest = g ++ b :: rest) :
    (afterValue (c + 1) f (frame :: stack)).run.run s =
      (afterValue c f stack).run.run (s.advance (g.length + 1)) :=
  run_closeFrames_close_goOn c f stack s rest true hg hb hs

theorem run_afterValue_comma (hg : Blanks g) {frame : UInt8} (hs : s.rest = g ++ [44] ++ rest) :
    (afterValue (c + 1) f (frame :: stack)).run.run s =
      (goOn f (some (frame, stack))).run.run (s.advance (g ++ [44]).length) := by
  rw [afterValue, run_bind, closeRest, run_closeFrames_comma c stack s rest hg hs]

theorem run_skipWithin_array_first (hg : Blanks g) {g' : List UInt8} (hg' : Blanks g') {b : UInt8}
    (hb : StartsValue b) (hs : s.rest = g ++ [91] ++ g' ++ b :: rest) :
    (skipWithin (f + 1 + 1) stack).run.run s =
      (skipWithin (f + 1) (91 :: stack)).run.run (s.advance (g ++ [91] ++ g').length) := by
  obtain ⟨hblank, -, h93⟩ := hb
  have hs' : s.rest = (g ++ [91]) ++ (g' ++ b :: rest) := by rw [hs]; simp
  rw [run_skipWithin_open (f + 1) stack s
      (reads_skipScalarOrOpen_open (F := fun _ => True) hg (.inl rfl) s _ hs' trivial),
    run_bind, run_closeFrames_value f stack _ rest hg' hblank (by simp [h93]) (Scan.rest_advance hs'),
    Scan.advance_advance, ← List.length_append]
  rfl

theorem run_skipWithin_object_first (hg : Blanks g) {g' : List UInt8} (hg' : Blanks g')
    (hs : s.rest = g ++ [123] ++ g' ++ 34 :: rest) :
    (skipWithin (f + 1 + 1) stack).run.run s =
      (skipKey (f + 1) >>= fun _ => skipWithin (f + 1) (123 :: stack)).run.run
        (s.advance (g ++ [123] ++ g').length) := by
  have hs' : s.rest = (g ++ [123]) ++ (g' ++ 34 :: rest) := by rw [hs]; simp
  rw [run_skipWithin_open (f + 1) stack s
      (reads_skipScalarOrOpen_open (F := fun _ => True) hg (.inr rfl) s _ hs' trivial),
    run_bind, run_closeFrames_value f stack _ rest hg' rfl rfl (Scan.rest_advance hs'),
    Scan.advance_advance, ← List.length_append]
  rfl

theorem run_skipWithin_empty (hg : Blanks g) {gap : List UInt8} (hgap : Blanks gap) {o b : UInt8}
    (hb : (b = 93 ∧ o = 91) ∨ (b = 125 ∧ o = 123)) (hs : s.rest = (g ++ [o]) ++ (gap ++ b :: rest)) :
    (skipWithin (f + 1 + 1) stack).run.run s =
      (afterValue f (f + 1) stack).run.run (s.advance ((g ++ [o]).length + (gap.length + 1))) := by
  have ho : o = 91 ∨ o = 123 := by rcases hb with ⟨-, rfl⟩ | ⟨-, rfl⟩ <;> simp
  rw [run_skipWithin_open (f + 1) stack s
      (reads_skipScalarOrOpen_open (F := fun _ => True) hg ho s _ hs trivial),
    run_closeFrames_close_goOn f (f + 1) stack _ rest false hgap hb (Scan.rest_advance hs),
    Scan.advance_advance]

end Machine

/-! ## Spelled values -/

section Values

variable {g : List UInt8}

theorem run_skipWithin_scalar_spells (hg : Blanks g) {w : Written} {v : List UInt8}
    (hv : Spells w v) (hw : w.nesting = 0) {f : Nat} (stack : List UInt8) {s : Scan}
    {rest : List UInt8} (hf : (g ++ v).length ≤ f) (hs : s.rest = g ++ v ++ rest)
    (hrest : Closing rest) :
    ∃ c f', f + 1 - (g ++ v).length ≤ c ∧ f + 1 - (g ++ v).length ≤ f' ∧
      (skipWithin (f + 1) stack).run.run s =
        (afterValue c f' stack).run.run (s.advance (g ++ v).length) := by
  have hpos := hv.length_pos
  have hlen : (g ++ v).length = g.length + v.length := List.length_append
  exact ⟨f, f, by omega, by omega, run_skipWithin_scalar f stack s
    (reads_skipScalarOrOpen_scalar hg hv hw (by omega) s rest hs hrest)⟩

mutual

theorem run_skipWithin_spells : {w : Written} → {v : List UInt8} → Spells w v → (f : Nat) →
    (stack : List UInt8) → (s : Scan) → (g rest : List UInt8) → Blanks g →
    (g ++ v).length ≤ f → s.rest = g ++ v ++ rest → Closing rest →
    ∃ c f', f + 1 - (g ++ v).length ≤ c ∧ f + 1 - (g ++ v).length ≤ f' ∧
      (skipWithin (f + 1) stack).run.run s =
        (afterValue c f' stack).run.run (s.advance (g ++ v).length)
  | _, _, .null, _, stack, _, _, _, hg, hf, hs, hrest =>
    run_skipWithin_scalar_spells hg .null rfl stack hf hs hrest
  | _, _, .bool b, _, stack, _, _, _, hg, hf, hs, hrest =>
    run_skipWithin_scalar_spells hg (.bool b) rfl stack hf hs hrest
  | _, _, .number hexp, _, stack, _, _, _, hg, hf, hs, hrest =>
    run_skipWithin_scalar_spells hg (.number hexp) rfl stack hf hs hrest
  | _, _, .string hstr, _, stack, _, _, _, hg, hf, hs, hrest =>
    run_skipWithin_scalar_spells hg (.string hstr) rfl stack hf hs hrest
  | _, _, @Spells.array _ _ gap .nil hgap, f, stack, s, g, rest, hg, hf, hs, _ => by
    simp only [List.length_append, List.length_singleton, List.length_nil] at hf ⊢
    obtain ⟨e, rfl⟩ : ∃ e, f = e + 1 := ⟨f - 1, by omega⟩
    refine ⟨e, e + 1, by omega, by omega, ?_⟩
    rw [run_skipWithin_empty e stack s rest hg hgap (.inl ⟨rfl, rfl⟩) (by rw [hs]; simp)]
    congr 2
    simp only [List.length_append, List.length_singleton]
    omega
  | _, _, @Spells.array _ _ gap (@ItemsSpell.cons _ _ _ before after v body hbefore hafter hv hitems)
      hgap, f, stack, s, g, rest, hg, hf, hs, _ => by
    -- the first item right after the bracket, the others after their commas
    have hpos := hv.length_pos
    obtain ⟨b, hb, hstart⟩ := hv.head?
    obtain ⟨tail, rfl⟩ := List.head?_eq_some_iff.mp hb
    simp only [List.length_append, List.length_cons, separator_true, List.length_nil] at hf hpos ⊢
    obtain ⟨e, rfl⟩ : ∃ e, f = e + 1 := ⟨f - 1, by omega⟩
    have hs1 : s.rest = g ++ [91] ++ (before ++ after) ++ b :: (tail ++ (body ++ (gap ++ 93 :: rest))) := by
      rw [hs]
      simp
    have hs2 : s.rest = (g ++ [91] ++ (before ++ after)) ++
        ([] ++ b :: tail ++ (body ++ (gap ++ 93 :: rest))) := by
      rw [hs]
      simp
    obtain ⟨c1, f1, hc1, hf1, hrun1⟩ := run_skipWithin_spells hv e (91 :: stack) _ [] _ blanks_nil
      (by simp only [List.nil_append, List.length_cons]; omega) (Scan.rest_advance hs2)
      (hitems.closing (closing_blanks hgap ⟨93, rfl, .inr (.inr (.inl rfl))⟩))
    simp only [List.nil_append, List.length_cons] at hc1 hf1
    obtain ⟨c2, f2, hc2, hf2, hrun2⟩ := run_afterValue_items hitems c1 f1 stack _ rest gap hgap
      (by simp only [List.length_append]; omega) (Scan.rest_advance (Scan.rest_advance hs2))
    simp only [List.length_append] at hc2 hf2
    refine ⟨c2, f2, by omega, by omega, ?_⟩
    rw [run_skipWithin_array_first e stack s _ hg (hbefore.append hafter) hstart hs1, hrun1, hrun2]
    simp only [Scan.advance_advance]
    congr 2
    simp only [List.length_append, List.nil_append, List.length_cons, List.length_nil]
    omega
  | _, _, @Spells.object _ _ gap .nil hgap, f, stack, s, g, rest, hg, hf, hs, _ => by
    simp only [List.length_append, List.length_singleton, List.length_nil] at hf ⊢
    obtain ⟨e, rfl⟩ : ∃ e, f = e + 1 := ⟨f - 1, by omega⟩
    refine ⟨e, e + 1, by omega, by omega, ?_⟩
    rw [run_skipWithin_empty e stack s rest hg hgap (.inr ⟨rfl, rfl⟩) (by rw [hs]; simp)]
    congr 2
    simp only [List.length_append, List.length_singleton]
    omega
  | _, _, @Spells.object _ _ gap (@MembersSpell.cons _ _ _ _ before after key beforeColon afterColon
      v body hbefore hafter hkey hbeforeColon hafterColon hv hmembers) hgap, f, stack, s, g, rest,
      hg, hf, hs, _ => by
    have hpos := hv.length_pos
    simp only [List.length_append, List.length_cons, separator_true, List.length_nil] at hf hpos ⊢
    obtain ⟨e, rfl⟩ : ∃ e, f = e + 1 := ⟨f - 1, by omega⟩
    have hs1 : s.rest = g ++ [123] ++ (before ++ after) ++ 34 :: (key ++ ([34] ++ (beforeColon ++
        [58])) ++ (afterColon ++ v ++ (body ++ (gap ++ 125 :: rest)))) := by
      rw [hs]
      simp
    have hs2 : s.rest = (g ++ [123] ++ (before ++ after)) ++
        (([] ++ ([34] ++ (key ++ [34])) ++ (beforeColon ++ [58])) ++
          (afterColon ++ v ++ (body ++ (gap ++ 125 :: rest)))) := by
      rw [hs]
      simp
    have hs3 := Scan.rest_advance hs2
    obtain ⟨c1, f1, hc1, hf1, hrun1⟩ := run_skipWithin_spells hv e (123 :: stack) _ afterColon _
      hafterColon (by simp only [List.length_append]; omega) (Scan.rest_advance hs3)
      (hmembers.closing (closing_blanks hgap ⟨125, rfl, .inr (.inr (.inr rfl))⟩))
    simp only [List.length_append] at hc1 hf1
    obtain ⟨c2, f2, hc2, hf2, hrun2⟩ := run_afterValue_members hmembers c1 f1 stack _ rest gap hgap
      (by simp only [List.length_append]; omega) (Scan.rest_advance (Scan.rest_advance hs3))
    simp only [List.length_append] at hc2 hf2
    refine ⟨c2, f2, by omega, by omega, ?_⟩
    rw [run_skipWithin_object_first e stack s _ hg (hbefore.append hafter) hs1, run_bind,
      reads_skipKey blanks_nil hkey hbeforeColon (by omega) _ _ hs3 trivial]
    dsimp only
    rw [hrun1, hrun2]
    simp only [Scan.advance_advance]
    congr 2
    simp only [List.length_append, List.nil_append, List.length_cons, List.length_nil]
    omega

theorem run_afterValue_items : {items : List Written} → {body : List UInt8} →
    ItemsSpell false items body → (c f : Nat) → (stack : List UInt8) → (s : Scan) →
    (rest gap : List UInt8) → Blanks gap → (body ++ gap).length < min c f →
    s.rest = body ++ (gap ++ 93 :: rest) →
    ∃ c' f', min c f - ((body ++ gap).length + 1) ≤ c' ∧
      min c f - ((body ++ gap).length + 1) ≤ f' ∧
      (afterValue c f (91 :: stack)).run.run s =
        (afterValue c' f' stack).run.run (s.advance ((body ++ gap).length + 1))
  | _, _, .nil, c, f, stack, s, rest, gap, hgap, hlt, hs => by
    rw [List.nil_append] at hlt hs ⊢
    obtain ⟨c, rfl⟩ : ∃ c', c = c' + 1 := ⟨c - 1, by omega⟩
    exact ⟨c, f, by omega, by omega, run_afterValue_close c f stack s rest hgap (.inl ⟨rfl, rfl⟩) hs⟩
  | _, _, @ItemsSpell.cons _ _ _ before after v body hbefore hafter hv hitems, c, f, stack, s, rest,
      gap, hgap, hlt, hs => by
    have hpos := hv.length_pos
    simp only [List.length_append, List.length_singleton, separator_false] at hlt ⊢
    obtain ⟨c, rfl⟩ : ∃ c', c = c' + 1 := ⟨c - 1, by omega⟩
    obtain ⟨e, rfl⟩ : ∃ e, f = e + 1 := ⟨f - 1, by omega⟩
    have hs1 : s.rest = (before ++ [44]) ++ (after ++ v ++ (body ++ (gap ++ 93 :: rest))) := by
      rw [hs]
      simp
    have hs2 := Scan.rest_advance hs1
    obtain ⟨c1, f1, hc1, hf1, hrun1⟩ := run_skipWithin_spells hv e (91 :: stack) _ after _ hafter
      (by simp only [List.length_append]; omega) hs2
      (hitems.closing (closing_blanks hgap ⟨93, rfl, .inr (.inr (.inl rfl))⟩))
    simp only [List.length_append] at hc1 hf1
    obtain ⟨c2, f2, hc2, hf2, hrun2⟩ := run_afterValue_items hitems c1 f1 stack _ rest gap hgap
      (by simp only [List.length_append]; omega) (Scan.rest_advance hs2)
    simp only [List.length_append] at hc2 hf2
    refine ⟨c2, f2, by omega, by omega, ?_⟩
    rw [run_afterValue_comma c (e + 1) stack s _ hbefore (by rw [hs1, List.append_assoc]),
      run_goOn_array, hrun1, hrun2]
    simp only [Scan.advance_advance]
    congr 2
    simp only [List.length_append, List.length_singleton]
    omega

theorem run_afterValue_members : {members : List (String × Written)} → {body : List UInt8} →
    MembersSpell false members body → (c f : Nat) → (stack : List UInt8) → (s : Scan) →
    (rest gap : List UInt8) → Blanks gap → (body ++ gap).length < min c f →
    s.rest = body ++ (gap ++ 125 :: rest) →
    ∃ c' f', min c f - ((body ++ gap).length + 1) ≤ c' ∧
      min c f - ((body ++ gap).length + 1) ≤ f' ∧
      (afterValue c f (123 :: stack)).run.run s =
        (afterValue c' f' stack).run.run (s.advance ((body ++ gap).length + 1))
  | _, _, .nil, c, f, stack, s, rest, gap, hgap, hlt, hs => by
    rw [List.nil_append] at hlt hs ⊢
    obtain ⟨c, rfl⟩ : ∃ c', c = c' + 1 := ⟨c - 1, by omega⟩
    exact ⟨c, f, by omega, by omega, run_afterValue_close c f stack s rest hgap (.inr ⟨rfl, rfl⟩) hs⟩
  | _, _, @MembersSpell.cons _ _ _ _ before after key beforeColon afterColon v body hbefore hafter
      hkey hbeforeColon hafterColon hv hmembers, c, f, stack, s, rest, gap, hgap, hlt, hs => by
    have hpos := hv.length_pos
    simp only [List.length_append, List.length_cons, separator_false] at hlt ⊢
    obtain ⟨c, rfl⟩ : ∃ c', c = c' + 1 := ⟨c - 1, by omega⟩
    obtain ⟨e, rfl⟩ : ∃ e, f = e + 1 := ⟨f - 1, by omega⟩
    have hs1 : s.rest = (before ++ [44]) ++ ((after ++ ([34] ++ (key ++ [34])) ++
        (beforeColon ++ [58])) ++ (afterColon ++ v ++ (body ++ (gap ++ 125 :: rest)))) := by
      rw [hs]
      simp
    have hs2 := Scan.rest_advance hs1
    have hs3 := Scan.rest_advance hs2
    obtain ⟨c1, f1, hc1, hf1, hrun1⟩ := run_skipWithin_spells hv e (123 :: stack) _ afterColon _
      hafterColon (by simp only [List.length_append]; omega) hs3
      (hmembers.closing (closing_blanks hgap ⟨125, rfl, .inr (.inr (.inr rfl))⟩))
    simp only [List.length_append] at hc1 hf1
    obtain ⟨c2, f2, hc2, hf2, hrun2⟩ := run_afterValue_members hmembers c1 f1 stack _ rest gap hgap
      (by simp only [List.length_append]; omega) (Scan.rest_advance hs3)
    simp only [List.length_append] at hc2 hf2
    refine ⟨c2, f2, by omega, by omega, ?_⟩
    rw [run_afterValue_comma c (e + 1) stack s _ hbefore (by rw [hs1, List.append_assoc]),
      run_goOn_object, run_bind, reads_skipKey hafter hkey hbeforeColon (by omega) _ _ hs2 trivial]
    dsimp only
    rw [hrun1, hrun2]
    simp only [Scan.advance_advance]
    congr 2
    simp only [List.length_append, List.length_cons, List.length_nil]
    omega

end

end Values

theorem reads_skipValue {w : Written} {v g : List UInt8} (hv : Spells w v) (hg : Blanks g)
    {fuel : Nat} (hfuel : (g ++ v).length ≤ fuel) :
    Reads (skipValue (fuel + 1)) (g ++ v) () Closing := by
  intro s rest hs hrest
  obtain ⟨c, f, -, -, hrun⟩ := run_skipWithin_spells hv fuel [] s g rest hg hfuel hs hrest
  rw [skipValue, hrun]
  rfl

theorem reads_readRecordMembers_unknown {σ : Type} {fields : List (Field σ)} {fuel : Nat}
    {first : Bool} {acc res : σ} {k : String} {g ktok vtok tok : List UInt8}
    {F Fv : List UInt8 → Prop}
    (hkey : Reads (nextKey first fuel) ktok (some k) fun _ => True)
    (hfind : fields.find? (·.name == k) = none) (hg : Blanks g)
    (hval : Reads (skipValue fuel) vtok () Fv)
    (hrest : Reads (readRecordMembers fields fuel false acc) tok res F)
    (hF : ∀ rest, F rest → Fv (tok ++ rest)) :
    Reads (readRecordMembers fields (fuel + 1) first acc) (ktok ++ (g ++ [58] ++ (vtok ++ tok)))
      res F := by
  unfold readRecordMembers
  refine Reads.bind hkey ?_ (fun _ _ => trivial)
  dsimp only
  rw [hfind]
  exact Reads.bind (reads_expectColon hg) (Reads.bind hval hrest hF) (fun _ _ => trivial)

end Quorum.Json
