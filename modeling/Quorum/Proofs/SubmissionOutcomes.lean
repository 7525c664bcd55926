import Quorum.Chain.Outcome
import Quorum.Proofs.SkippedJson
import Quorum.Proofs.Numerals

/-!
# Reading submission outcomes

The program prints the outcome of a submitted transaction either as lines `code: 0` and
`txhash: ABC` among others, or as a JSON object with members `code` and `txhash`, possibly followed
by other text. `parse` reads either form.

Of the lines, the first `code:` line and the first `txhash:` line count (`readLines_eq`): the
lines are read as `codeOf` and `hashOf` describe them, one line at a time. Of a JSON object, the
members `code` and `txhash` are read and every other member is skipped, however the object is
written (`reads_shapeMembers`).
-/
namespace Quorum.Outcome

/-! ## Trimming -/

theorem strip_eq_self {p : Char → Bool} {l : List Char} (hhead : ∀ x ∈ l.head?, p x = false)
    (hlast : ∀ x ∈ l.getLast?, p x = false) : ((l.dropWhile p).reverse.dropWhile p).reverse = l := by
  have hkeep : ∀ {m : List Char}, (∀ x ∈ m.head?, p x = false) → m.dropWhile p = m := by
    intro m hm
    cases m with
    | nil => rfl
    | cons x m => simp [hm x rfl]
  rw [hkeep hhead, hkeep (by rwa [List.head?_reverse]), List.reverse_reverse]

theorem trimBlank_space {cs : List Char} (hhead : ∀ x ∈ cs.head?, Text.isBlank x = false)
    (hlast : ∀ x ∈ cs.getLast?, Text.isBlank x = false) :
    Text.trimBlank (String.ofList (' ' :: cs)) = String.ofList cs := by
  unfold Text.trimBlank
  rw [String.toList_ofList, List.dropWhile_cons_of_pos (by decide)]
  rw [strip_eq_self hhead hlast]

theorem dropQuotes_eq_self {h : String} (hhead : ∀ x ∈ h.toList.head?, x ≠ '"')
    (hlast : ∀ x ∈ h.toList.getLast?, x ≠ '"') : dropQuotes h = h := by
  unfold dropQuotes
  rw [strip_eq_self (by simpa using hhead) (by simpa using hlast), String.ofList_toList]

/-! ## Lines -/

/-- The code that lines give after the code `found` before them: that code, or else the number on
the first `code:` line, which must be one. -/
def codeOf (ls : List String) : Option Nat → Except ChainError (Option Nat)
  | some c => .ok (some c)
  | none =>
    match ls.find? isCodeLine with
    | none => .ok none
    | some l =>
      match Numeral.parseU32 (lineValue 5 l) with
      | .ok c => .ok (some c)
      | .error _ =>
        .error (.unparsable ("code " ++ Text.quote (lineValue 5 l) ++ " in tx response is not an integer"))

def hashOf (ls : List String) : Option String :=
  (ls.find? isHashLine).map fun l => dropQuotes (lineValue 7 l)

theorem isHashLine_eq_false {l : String} (h : isCodeLine l = true) : isHashLine l = false := by
  unfold isCodeLine at h
  unfold isHashLine
  obtain ⟨t, ht⟩ := List.isPrefixOf_iff_prefix.mp h
  rw [← ht]
  rfl

theorem codeOf_cons {l : String} (ls : List String) (found : Option Nat)
    (h : isCodeLine l = false) : codeOf (l :: ls) found = codeOf ls found := by
  cases found with
  | some c => rfl
  | none => simp only [codeOf, List.find?_cons_of_neg (p := isCodeLine) (a := l) (by simp [h])]

theorem hashOf_cons {l : String} (ls : List String) (h : isHashLine l = false) :
    hashOf (l :: ls) = hashOf ls := by
  simp only [hashOf, List.find?_cons_of_neg (p := isHashLine) (a := l) (by simp [h])]

theorem hashOf_cons_of_pos {l : String} (ls : List String) (h : isHashLine l = true) :
    hashOf (l :: ls) = some (dropQuotes (lineValue 7 l)) := by
  simp only [hashOf, List.find?_cons_of_pos (p := isHashLine) h]
  rfl

theorem readLines_eq (ls : List String) (code : Option Nat) (txhash : Option String) :
    readLines ls code txhash =
      codeOf ls code >>= fun c => complete c (txhash.or (hashOf ls)) := by
  induction ls generalizing code txhash with
  | nil =>
    cases code <;> cases txhash <;> rfl
  | cons l ls ih =>
    rw [readLines]
    by_cases hcode : isCodeLine l = true
    · -- a `code:` line: read when no code was found before, and never a `txhash:` line
      rw [hashOf_cons ls (isHashLine_eq_false hcode)]
      cases code with
      | some c =>
        have hline : readLine l (some c) txhash = .ok (some c, txhash) := by
          unfold readLine
          rw [if_pos hcode]
        rw [hline]
        exact ih (some c) txhash
      | none =>
        simp only [codeOf, List.find?_cons_of_pos (p := isCodeLine) hcode]
        cases hp : Numeral.parseU32 (lineValue 5 l) with
        | ok c =>
          have hline : readLine l none txhash = .ok (some c, txhash) := by
            unfold readLine
            rw [if_pos hcode, hp]
          rw [hline]
          exact ih (some c) txhash
        | error e =>
          have hline : readLine l none txhash = .error (.unparsable ("code " ++
              Text.quote (lineValue 5 l) ++ " in tx response is not an integer")) := by
            unfold readLine
            rw [if_pos hcode, hp]
          rw [hline]
          rfl
    · rw [codeOf_cons ls code (by simpa using hcode)]
      by_cases hhash : isHashLine l = true
      · -- a `txhash:` line: read when no hash was found before
        cases txhash with
        | some h =>
          have hline : readLine l code (some h) = .ok (code, some h) := by
            unfold readLine
            rw [if_neg hcode, if_pos hhash]
          have hrest := ih code (some h)
          rw [Option.some_or] at hrest
          rw [hline, Option.some_or]
          exact hrest
        | none =>
          have hline : readLine l code none = .ok (code, some (dropQuotes (lineValue 7 l))) := by
            unfold readLine
            rw [if_neg hcode, if_pos hhash]
          have hrest := ih code (some (dropQuotes (lineValue 7 l)))
          rw [Option.some_or] at hrest
          rw [hline, hashOf_cons_of_pos ls hhash, Option.none_or]
          exact hrest
      · have hline : readLine l code txhash = .ok (code, txhash) := by
          unfold readLine
          rw [if_neg hcode, if_neg hhash]
        rw [hline, hashOf_cons ls (by simpa using hhash)]
        exact ih code txhash

/-! ## Completing an outcome -/

theorem complete_some {c : Nat} {h : String} (hh : h ≠ "") :
    complete (some c) (some h) = .ok ⟨c, h⟩ := by
  simp [complete, String.isEmpty_iff, hh]

theorem complete_eq_ok {code : Option Nat} {txhash : Option String} {o : Outcome} :
    complete code txhash = .ok o ↔
      code = some o.code ∧ txhash = some o.txhash ∧ o.txhash ≠ "" := by
  constructor
  · intro h
    unfold complete at h
    split at h
    · cases h
    · split at h
      · rename_i c t
        by_cases he : t.isEmpty = true
        · rw [if_pos he] at h
          cases h
        · rw [if_neg he] at h
          cases h
          exact ⟨rfl, rfl, by simpa [String.isEmpty_iff] using he⟩
      · cases h
  · rintro ⟨rfl, rfl, hh⟩
    exact complete_some hh

/-! ## Outputs written as lines -/

theorem isBlank_eq_false_of_isDigit {x : Char} (h : x.isDigit = true) : Text.isBlank x = false := by
  have hrange : 48 ≤ x.toNat ∧ x.toNat ≤ 57 := by
    simp only [Char.isDigit, Bool.and_eq_true, decide_eq_true_eq] at h
    rw [ge_iff_le, UInt32.le_iff_toNat_le, UInt32.le_iff_toNat_le] at h
    exact h
  simp [Text.isBlank]
  omega

theorem lines_intercalate {lines : List String} (hne : lines ≠ [])
    (hbreak : ∀ l ∈ lines, '\n' ∉ l.toList) :
    (("\n".intercalate lines).toList.splitOn '\n').map String.ofList = lines := by
  rw [String.toList_intercalate, show "\n".toList = ['\n'] from rfl,
    List.splitOn_intercalate '\n' (by simpa using hbreak) (by simpa using hne), List.map_map]
  simp

theorem lineValue_code {l : String} {c : Nat} (hl : Text.trimBlank l = "code: " ++ Nat.repr c) :
    lineValue 5 l = Nat.repr c := by
  have hdigits : ∀ x ∈ (Nat.repr c).toList, Text.isBlank x = false := fun x hx =>
    isBlank_eq_false_of_isDigit
      (Nat.isDigit_of_mem_toDigits (b := 10) (by decide) (by decide) (by rwa [← Nat.toList_repr]))
  have hdrop : (Text.trimBlank l).toList.drop 5 = ' ' :: (Nat.repr c).toList := by
    rw [hl, String.toList_append]
    rfl
  unfold lineValue
  rw [hdrop, trimBlank_space (fun x hx => hdigits x (List.mem_of_mem_head? hx))
    (fun x hx => hdigits x (List.mem_of_mem_getLast? hx)), String.ofList_toList]

theorem lineValue_hash {l h : String} (hl : Text.trimBlank l = "txhash: " ++ h)
    (hfirst : ∀ x ∈ h.toList.head?, Text.isBlank x = false ∧ x ≠ '"')
    (hlast : ∀ x ∈ h.toList.getLast?, Text.isBlank x = false ∧ x ≠ '"') :
    dropQuotes (lineValue 7 l) = h := by
  have hdrop : (Text.trimBlank l).toList.drop 7 = ' ' :: h.toList := by
    rw [hl, String.toList_append]
    rfl
  unfold lineValue
  rw [hdrop, trimBlank_space (fun x hx => (hfirst x hx).1) (fun x hx => (hlast x hx).1),
    String.ofList_toList]
  exact dropQuotes_eq_self (fun x hx => (hfirst x hx).2) (fun x hx => (hlast x hx).2)

theorem parse_lines {output : ByteArray} {lines : List String} {c : Nat} {h : String}
    (hc : c < Nat.pow 2 32) (hh : h ≠ "")
    (hfirst : ∀ x ∈ h.toList.head?, Text.isBlank x = false ∧ x ≠ '"')
    (hlast : ∀ x ∈ h.toList.getLast?, Text.isBlank x = false ∧ x ≠ '"')
    (hbreak : ∀ l ∈ lines, '\n' ∉ l.toList)
    (htext : Text.decodeLossy output = "\n".intercalate lines)
    (hbrace : ((Text.decodeLossy output).toList.dropWhile Text.isBlank).head? ≠ some '{')
    (hcode : (lines.find? isCodeLine).map Text.trimBlank = some ("code: " ++ Nat.repr c))
    (hhash : (lines.find? isHashLine).map Text.trimBlank = some ("txhash: " ++ h)) :
    parse output = .ok ⟨c, h⟩ := by
  obtain ⟨lc, hfc, hlc⟩ := Option.map_eq_some_iff.mp hcode
  obtain ⟨lh, hfh, hlh⟩ := Option.map_eq_some_iff.mp hhash
  have hne : lines ≠ [] := by
    rintro rfl
    cases hfc
  unfold parse
  dsimp only
  rw [if_neg hbrace]
  dsimp only
  rw [htext, lines_intercalate hne hbreak, readLines_eq]
  have hread : codeOf lines none = .ok (some c) := by
    simp only [codeOf, hfc, lineValue_code hlc, Numeral.parseU32, Numeral.parse_repr hc]
  have hfound : hashOf lines = some h := by
    rw [hashOf, hfh, Option.map_some, lineValue_hash hlh hfirst hlast]
  rw [hread, hfound]
  exact complete_some hh

/-! ## Outputs that start with an object -/

open Json

theorem reads_readOption_some {α : Type} {r : Nat → ReadM α} {fuel : Nat} {g : List UInt8}
    (hg : Blanks g) {b : UInt8} {bs : List UInt8} {a : α} {F : List UInt8 → Prop}
    (hb : blankByte b = false) (hn : b ≠ 110) (h : Reads (r fuel) (b :: bs) a F) :
    Reads (readOption r fuel) (g ++ b :: bs) (some a) F := by
  unfold readOption
  refine Reads.bind (reads_skipBlanks_over hg hb) ?_ (fun _ _ => rfl)
  split
  · rename_i hnull
    exact absurd (Option.some.inj hnull) hn
  · rw [map_eq_pure_bind]
    exact Reads.bind_nil h (Reads.pure _) (fun _ h => h)

theorem reads_readOption_u32 {g : List UInt8} (hg : Blanks g) {c : Nat} (hc : c < Nat.pow 2 32)
    {fuel : Nat} (hfuel : (Nat.repr c).length ≤ fuel + 1) :
    Reads (readOption readU32 fuel) (g ++ Written.bytesOf (Nat.repr c)) (some c) Closing := by
  obtain ⟨d, ds, hbytes, -, hdigit, -, -⟩ := bytesOf_repr_cons c
  have hnumber : Reads (readU32 fuel) (Written.bytesOf (Nat.repr c)) c Closing :=
    reads_closing fun b hb => reads_readU32 (closing_ends_number hb) hc hfuel
  rw [hbytes] at hnumber ⊢
  have hn : d.val.toUInt8 ≠ 110 := fun hd => absurd (hd ▸ hdigit) (by decide)
  exact reads_readOption_some hg (startsValue_of_isDigitByte hdigit).1 hn hnumber

theorem reads_readOption_text {g : List UInt8} (hg : Blanks g) {h : String} {body : List UInt8}
    (hs : StringSpells h.toList body) {fuel : Nat} (hfuel : body.length < fuel) :
    Reads (readOption readText fuel) (g ++ ([34] ++ (body ++ [34]))) (some h) fun _ => True :=
  reads_readOption_some hg rfl (by decide) (reads_readText hs hfuel)

theorem eq_some_of_cons_eq_toList {α β : Type} {f : α → β} {b : β} {l : List β} :
    ∀ {o : Option α}, b :: l = (o.map f).toList → ∃ a, o = some a ∧ b = f a ∧ l = []
  | none, h => nomatch h
  | some a, h => by
    simp only [Option.map_some, Option.toList_some, List.cons.injEq] at h
    exact ⟨a, rfl, h.1, h.2⟩

theorem reads_shapeMembers (ms : List (String × Written)) :
    ∀ {first : Bool} {body : List UInt8}, Written.MembersSpell first ms body →
    ∀ (oc : Option Nat) (oh : Option String) (fuel : Nat) (acc : Partial) {gap : List UInt8},
    Blanks gap →
    (ms.filter (·.1 = "code")).map (·.2) = (oc.map fun c => Written.number false c [] none).toList →
    (ms.filter (·.1 = "txhash")).map (·.2) = (oh.map Written.string).toList →
    (∀ c ∈ oc, c < Nat.pow 2 32 ∧ acc.code = none) → (∀ _ ∈ oh, acc.txhash = none) →
    (body ++ gap).length < fuel →
    Reads (readRecordMembers shape.fields fuel first acc) (body ++ gap)
      ⟨(oc.map some).or acc.code, (oh.map some).or acc.txhash⟩ (·.head? = some 125) := by
  induction ms with
  | nil =>
    intro first body hms oc oh fuel acc gap hgap hc hh _ _ hfuel
    cases hms
    obtain rfl : oc = none := by cases oc <;> simp_all
    obtain rfl : oh = none := by cases oh <;> simp_all
    obtain ⟨f, rfl⟩ : ∃ f, fuel = f + 1 := ⟨fuel - 1, by omega⟩
    exact reads_readRecordMembers_end hgap
  | cons m ms ih =>
    intro first body hms oc oh fuel acc gap hgap hc hh hcfresh hhfresh hfuel
    cases hms with
    | @cons _ k w _ before after key beforeColon afterColon v body hbefore hafter hkey
        hbeforeColon hafterColon hv hrest =>
    have hpos := hv.length_pos
    simp only [List.length_append, List.length_cons, List.length_nil] at hfuel
    obtain ⟨f, rfl⟩ : ∃ f, fuel = f + 1 := ⟨fuel - 1, by omega⟩
    have htok : before ++ separator first ++ after ++ ([34] ++ (key ++ [34])) ++
        (beforeColon ++ [58] ++ (afterColon ++ v ++ body)) ++ gap =
        (before ++ separator first ++ after ++ ([34] ++ (key ++ [34]))) ++
          (beforeColon ++ [58] ++ ((afterColon ++ v) ++ (body ++ gap))) := by
      simp only [List.append_assoc]
    have hclose : ∀ r, r.head? = some 125 → Closing (body ++ gap ++ r) := fun r hr => by
      rw [List.append_assoc]
      exact hrest.closing (closing_blanks hgap ⟨125, hr, .inr (.inr (.inr rfl))⟩)
    rw [htok]
    by_cases hcode : k = "code"
    · -- the one `code` member, read as a number
      subst hcode
      rw [List.filter_cons_of_pos (by simp), List.map_cons] at hc
      rw [List.filter_cons_of_neg (by simp)] at hh
      obtain ⟨c, rfl, rfl, hrest'⟩ := eq_some_of_cons_eq_toList hc
      obtain ⟨hsmall, hfresh⟩ := hcfresh c rfl
      obtain rfl := hv.eq_of_nat
      rw [length_bytesOf_repr] at hfuel
      exact reads_readRecordMembers_member (reads_nextKey first hbefore hafter hkey (by omega)) rfl
        (by simp [hfresh]) hbeforeColon
        (Reads.bind_nil (reads_readOption_u32 hafterColon hsmall (by omega)) (Reads.pure _)
          (fun _ h => h))
        (ih hrest none oh f { acc with code := some (some c) } hgap hrest' hh (by simp) hhfresh
          (by simp only [List.length_append]; omega)) hclose
    by_cases hhash : k = "txhash"
    · -- the one `txhash` member, read as a string
      subst hhash
      rw [List.filter_cons_of_neg (by simp)] at hc
      rw [List.filter_cons_of_pos (by simp), List.map_cons] at hh
      obtain ⟨h, rfl, rfl, hrest'⟩ := eq_some_of_cons_eq_toList hh
      have hfresh := hhfresh h rfl
      obtain ⟨hbody, hs, rfl⟩ := hv.eq_of_string
      simp only [List.length_append, List.length_cons, List.length_nil] at hfuel
      exact reads_readRecordMembers_member (reads_nextKey first hbefore hafter hkey (by omega)) rfl
        (by simp [hfresh]) hbeforeColon
        (Reads.bind_nil (reads_readOption_text hafterColon hs (by omega)) (Reads.pure _)
          (fun _ h => h))
        (ih hrest oc none f { acc with txhash := some (some h) } hgap hc hrest' hcfresh (by simp)
          (by simp only [List.length_append]; omega)) (fun _ _ => trivial)
    rw [List.filter_cons_of_neg (by simpa using hcode)] at hc
    rw [List.filter_cons_of_neg (by simpa using hhash)] at hh
    obtain ⟨g, rfl⟩ : ∃ g, f = g + 1 := ⟨f - 1, by omega⟩
    have hfind : shape.fields.find? (·.name == k) = none := by
      simp [shape, Ne.symm hcode, Ne.symm hhash]
    exact reads_readRecordMembers_unknown (reads_nextKey first hbefore hafter hkey (by omega)) hfind
      hbeforeColon (reads_skipValue hv hafterColon (by simp only [List.length_append]; omega))
      (ih hrest oc oh (g + 1) acc hgap hc hh hcfresh hhfresh
        (by simp only [List.length_append]; omega)) hclose

theorem toUTF8_ofList_append (t : String) (rest : List Char) :
    (String.ofList (t.toList ++ rest)).toUTF8.data.toList =
      Written.bytesOf t ++ rest.flatMap String.utf8EncodeChar := by
  rw [String.toUTF8_eq_toByteArray, toByteArray_toList, String.toList_ofList, List.flatMap_append,
    Written.bytesOf, toByteArray_toList]

theorem toList_eq_brace {t : String} {ms : List (String × Written)}
    (hv : Written.Spells (.object ms) (Written.bytesOf t)) : ∃ t', t.toList = '{' :: t' := by
  have hhead : (Written.bytesOf t).head? = some 123 := by
    generalize Written.bytesOf t = v at hv
    cases hv
    rfl
  rw [Written.bytesOf, toByteArray_toList] at hhead
  cases ht : t.toList with
  | nil =>
    rw [ht] at hhead
    cases hhead
  | cons x t' =>
    refine ⟨t', ?_⟩
    rw [ht, List.flatMap_cons] at hhead
    by_cases hascii : x.toNat < 128
    · obtain ⟨hbytes, hval⟩ := ascii_bytes hascii
      rw [hbytes, List.singleton_append, List.head?_cons, Option.some.injEq] at hhead
      rw [hhead] at hval
      rw [Char.toNat_inj.mp (show x.toNat = '{'.toNat by rw [← hval]; rfl)]
    · obtain ⟨y, ys, hy⟩ := List.exists_cons_of_ne_nil (List.ne_nil_of_length_pos
        (by rw [String.length_utf8EncodeChar]; exact Char.utf8Size_pos x))
      rw [hy, List.cons_append, List.head?_cons, Option.some.injEq] at hhead
      have hge := utf8EncodeChar_ge (c := x) (by omega) y (by rw [hy]; exact List.mem_cons_self)
      rw [hhead] at hge
      exact absurd hge (by decide)

theorem readLeadingObject_object {t : String} {ms : List (String × Written)} {rest : List Char}
    {c : Nat} {h : String} (hv : Written.Spells (.object ms) (Written.bytesOf t))
    (hc : c < Nat.pow 2 32)
    (hcode : (ms.filter (·.1 = "code")).map (·.2) = [.number false c [] none])
    (hhash : (ms.filter (·.1 = "txhash")).map (·.2) = [.string h]) :
    readLeadingObject (String.ofList (t.toList ++ rest)) = some ⟨some (some c), some (some h)⟩ := by
  have hbytes := toUTF8_ofList_append t rest
  unfold readLeadingObject
  dsimp only
  generalize (String.ofList (t.toList ++ rest)).toUTF8 = bytes at hbytes ⊢
  generalize Written.bytesOf t = v at hv hbytes
  cases hv with
  | @object _ body gap hmembers hgap =>
  have hs : (⟨bytes, 0, nestingLimit⟩ : Scan).rest =
      [123] ++ ((body ++ gap) ++ ([125] ++ rest.flatMap String.utf8EncodeChar)) := by
    show bytes.data.toList.drop 0 = _
    rw [List.drop_zero, hbytes]
    simp only [List.append_assoc]
  have hsize : (body ++ gap).length < bytes.size + 1 := by
    have hlen : bytes.size = bytes.data.toList.length := (@Array.length_toList _ bytes.data).symm
    rw [hlen, hbytes]
    simp only [List.length_append, List.length_singleton]
    omega
  have hmembers := reads_shapeMembers ms hmembers (some c) (some h) (bytes.size + 1) {} hgap hcode
    hhash (fun _ hx => by cases hx; exact ⟨hc, rfl⟩) (fun _ _ => rfl) hsize
  rw [run_readRecord_object hmembers rfl _ _ hs (show 1 < nestingLimit by decide)]
  rfl

theorem parse_object {output : ByteArray} {blanks rest : List Char} {t : String}
    {ms : List (String × Written)} {c : Nat} {h : String} (hc : c < Nat.pow 2 32) (hh : h ≠ "")
    (hblanks : ∀ x ∈ blanks, Text.isBlank x = true)
    (hv : Written.Spells (.object ms) (Written.bytesOf t))
    (htext : Text.decodeLossy output = String.ofList (blanks ++ t.toList ++ rest))
    (hcode : (ms.filter (·.1 = "code")).map (·.2) = [.number false c [] none])
    (hhash : (ms.filter (·.1 = "txhash")).map (·.2) = [.string h]) :
    parse output = .ok ⟨c, h⟩ := by
  obtain ⟨t', ht⟩ := toList_eq_brace hv
  have hlead : (blanks ++ t.toList ++ rest).dropWhile Text.isBlank = t.toList ++ rest := by
    rw [List.append_assoc, List.dropWhile_append_of_pos hblanks, ht, List.cons_append,
      List.dropWhile_cons_of_neg (by decide)]
  unfold parse
  dsimp only
  rw [htext, String.toList_ofList, hlead, if_pos (by rw [ht]; rfl),
    readLeadingObject_object hv hc hcode hhash]
  exact complete_some hh

/-! ## Where an outcome comes from -/

theorem codeOf_eq_some {ls : List String} {c : Nat} (h : codeOf ls none = .ok (some c)) :
    ∃ l, ls.find? isCodeLine = some l ∧ Numeral.parseU32 (lineValue 5 l) = .ok c := by
  cases hl : ls.find? isCodeLine with
  | none =>
    simp only [codeOf, hl] at h
    cases h
  | some l =>
    simp only [codeOf, hl] at h
    cases hp : Numeral.parseU32 (lineValue 5 l) with
    | ok c' =>
      rw [hp] at h
      cases h
      exact ⟨l, rfl, hp⟩
    | error e =>
      rw [hp] at h
      cases h

theorem parse_ok_source {output : ByteArray} {o : Outcome} (h : parse output = .ok o) :
    o.txhash ≠ "" ∧
      ((((Text.decodeLossy output).toList.dropWhile Text.isBlank).head? = some '{' ∧
          readLeadingObject (String.ofList ((Text.decodeLossy output).toList.dropWhile
            Text.isBlank)) = some ⟨some (some o.code), some (some o.txhash)⟩) ∨
        ∃ lc lh, (((Text.decodeLossy output).toList.splitOn '\n').map String.ofList).find?
            isCodeLine = some lc ∧ Numeral.parseU32 (lineValue 5 lc) = .ok o.code ∧
          (((Text.decodeLossy output).toList.splitOn '\n').map String.ofList).find?
            isHashLine = some lh ∧ dropQuotes (lineValue 7 lh) = o.txhash) := by
  unfold parse at h
  dsimp only at h
  split at h
  · -- the object at the start was read
    rename_i p hp
    obtain ⟨hcode, hhash, hne⟩ := complete_eq_ok.mp h
    split at hp
    · rename_i hbrace
      refine ⟨hne, .inl ⟨hbrace, ?_⟩⟩
      rw [hp]
      obtain ⟨code, txhash⟩ := p
      cases code <;> cases txhash <;> cases hcode <;> cases hhash
      rfl
    · cases hp
  · -- the lines were read
    rw [readLines_eq] at h
    cases hc : codeOf (((Text.decodeLossy output).toList.splitOn '\n').map String.ofList) none with
    | error e =>
      rw [hc] at h
      cases h
    | ok code =>
      rw [hc] at h
      obtain ⟨rfl, hhash, hne⟩ := complete_eq_ok.mp h
      obtain ⟨lc, hfc, hlc⟩ := codeOf_eq_some hc
      obtain ⟨lh, hfh, hlh⟩ := Option.map_eq_some_iff.mp hhash
      exact ⟨hne, .inr ⟨lc, lh, hfc, hlc, hfh, hlh⟩⟩

/-! ## Both forms -/

/-- An outcome reads back from its lines and from a JSON object alike, and every outcome read
comes from one of the two. For a code `c` below `2 ^ 32` and a hash `h` that is not empty:
an output as lines, not starting with a brace, whose first `code:` line is `code: c` and whose
first `txhash:` line is `txhash: h`, with `h` neither starting nor ending with a blank or a
quote, reads as `c` and `h`; so does an output that starts, after blanks, with a JSON text `t` of
an object, however it is written, having one `code` member `c` and one `txhash` member `h`,
whatever its other members and whatever follows it. -/
theorem outcome_read_from_lines_or_object :
    (∀ (output : ByteArray) (lines : List String) (c : Nat) (h : String),
      c < Nat.pow 2 32 → h ≠ "" →
      (∀ x ∈ h.toList.head?, Text.isBlank x = false ∧ x ≠ '"') →
      (∀ x ∈ h.toList.getLast?, Text.isBlank x = false ∧ x ≠ '"') →
      (∀ l ∈ lines, '\n' ∉ l.toList) → Text.decodeLossy output = "\n".intercalate lines →
      ((Text.decodeLossy output).toList.dropWhile Text.isBlank).head? ≠ some '{' →
      (lines.find? isCodeLine).map Text.trimBlank = some ("code: " ++ Nat.repr c) →
      (lines.find? isHashLine).map Text.trimBlank = some ("txhash: " ++ h) →
      parse output = .ok ⟨c, h⟩) ∧
    (∀ (output : ByteArray) (blanks rest : List Char) (t : String) (ms : List (String × Written))
      (c : Nat) (h : String), c < Nat.pow 2 32 → h ≠ "" → (∀ x ∈ blanks, Text.isBlank x = true) →
      Written.Spells (.object ms) (Written.bytesOf t) →
      Text.decodeLossy output = String.ofList (blanks ++ t.toList ++ rest) →
      (ms.filter (·.1 = "code")).map (·.2) = [.number false c [] none] →
      (ms.filter (·.1 = "txhash")).map (·.2) = [.string h] →
      parse output = .ok ⟨c, h⟩) ∧
    (∀ (output : ByteArray) (o : Outcome), parse output = .ok o →
      o.txhash ≠ "" ∧
        ((((Text.decodeLossy output).toList.dropWhile Text.isBlank).head? = some '{' ∧
            readLeadingObject (String.ofList ((Text.decodeLossy output).toList.dropWhile
              Text.isBlank)) = some ⟨some (some o.code), some (some o.txhash)⟩) ∨
          ∃ lc lh, (((Text.decodeLossy output).toList.splitOn '\n').map String.ofList).find?
              isCodeLine = some lc ∧ Numeral.parseU32 (lineValue 5 lc) = .ok o.code ∧
            (((Text.decodeLossy output).toList.splitOn '\n').map String.ofList).find?
              isHashLine = some lh ∧ dropQuotes (lineValue 7 lh) = o.txhash)) :=
  ⟨fun _ _ _ _ hc hh hfirst hlast hbreak htext hbrace hcode hhash =>
      parse_lines hc hh hfirst hlast hbreak htext hbrace hcode hhash,
    fun _ _ _ _ _ _ _ hc hh hblanks hv htext hcode hhash =>
      parse_object hc hh hblanks hv htext hcode hhash,
    fun _ _ h => parse_ok_source h⟩

namespace Sample

def linesOutput : ByteArray :=
  "code: 32\ntxhash: ABCD\nraw_log: account sequence mismatch".toUTF8

/-- A submission printed as a spaced JSON object whose hash has an escape, with a warning after
it. -/
def objectOutput : ByteArray :=
  "\x7b\"code\": 0, \"txhash\": \"A\\u0042\"\x7d\nwarning: gas estimate is deprecated\n".toUTF8

def objectText : String := "\x7b\"code\": 0, \"txhash\": \"A\\u0042\"\x7d"

def objectMembers : List (String × Written) :=
  [("code", .number false 0 [] none), ("txhash", .string "AB")]

theorem objectText_spells : Written.Spells (.object objectMembers) (Written.bytesOf objectText) := by
  have hspace : Blanks [32] := by decide
  have hhash : StringSpells ['A', 'B'] (String.utf8EncodeChar 'A' ++
      ((92 :: 117 :: unitDigits (fun _ => false) 'B'.toNat) ++ [])) :=
    .cons (.plain (by decide) (by decide) (by decide)) (.cons (.unit _ (by decide)) .nil)
  have h : Written.Spells (.object objectMembers) _ :=
    .object (.cons blanks_nil blanks_nil (stringSpells_escapedBytes "code") blanks_nil hspace
      (.number .none)
      (.cons blanks_nil hspace (stringSpells_escapedBytes "txhash") blanks_nil hspace
        (.string hhash) .nil)) blanks_nil
  exact (congrArg (Written.Spells (.object objectMembers)) (by decide +kernel)).mpr h

end Sample

/-- A witness of `outcome_read_from_lines_or_object`: an outcome printed as lines and one printed
as a spaced object with an escape, followed by a warning. -/
theorem outcome_read_on_samples :
    parse Sample.linesOutput = .ok ⟨32, "ABCD"⟩ ∧ parse Sample.objectOutput = .ok ⟨0, "AB"⟩ :=
  ⟨outcome_read_from_lines_or_object.1 Sample.linesOutput
      ["code: 32", "txhash: ABCD", "raw_log: account sequence mismatch"] 32 "ABCD"
      (by decide) (by simp) (by simp [Text.isBlank]) (by simp [Text.isBlank]) (by decide)
      (by decide +kernel) (by decide +kernel) (by decide +kernel) (by decide +kernel),
    outcome_read_from_lines_or_object.2.1 Sample.objectOutput []
      "\nwarning: gas estimate is deprecated\n".toList Sample.objectText Sample.objectMembers 0 "AB"
      (by decide) (by simp) (by simp) Sample.objectText_spells (by decide +kernel) rfl rfl⟩

end Quorum.Outcome
