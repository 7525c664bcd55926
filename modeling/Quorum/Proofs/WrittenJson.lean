import Quorum.Proofs.Reading

/-!
# Reading written JSON values

JSON values as written: literals, numbers with a sign, a whole part, and an optional fraction and
exponent, strings, arrays and objects. `Written.Spells w bytes` says that `bytes` is a JSON text of
`w`: blanks may stand around every item, key, colon and comma and before a closing bracket, a
character of a string may stand as itself or as any of its escapes, and an exponent may be
written with `e` or `E`, with a `+` and with leading zeros. `Written.text` is the one text of `w`
that the writer makes, with no blanks and strings as `quote` writes them; it is one of them.

The reader counts the arrays and objects it is inside of and refuses a value that nests 128 or
more of them. `ReadsAt r tok a follow d` says that `r` takes exactly the bytes `tok` and gives `a`
whenever it starts with at least `d` levels of nesting left.
-/

namespace Quorum.Json

/-- A JSON value as written. A number is its sign, its whole part, the digits of its fraction
(none when empty) and its exponent. -/
inductive Written where
  | null
  | bool (b : Bool)
  | number (negative : Bool) (whole : Nat) (fraction : List (Fin 10)) (exponent : Option Int)
  | string (s : String)
  | array (items : List Written)
  | object (members : List (String × Written))

namespace Written

def numberText (negative : Bool) (whole : Nat) (fraction : List (Fin 10)) (exponent : Option Int) :
    String :=
  (if negative then "-" else "") ++ Nat.repr whole ++
    (if fraction.isEmpty then "" else "." ++ String.ofList (fraction.map fun d => Nat.digitChar d.val)) ++
    (match exponent with
      | none => ""
      | some e => "e" ++ toString e)

mutual

/-- The text the writer makes of a value: no blanks, and strings as `quote` writes them. -/
def text : Written → String
  | .null => "null"
  | .bool b => if b then "true" else "false"
  | .number negative whole fraction exponent => numberText negative whole fraction exponent
  | .string s => quote s
  | .array items => "[" ++ itemsText true items ++ "]"
  | .object members => "\x7b" ++ membersText true members ++ "\x7d"

def itemsText : Bool → List Written → String
  | _, [] => ""
  | first, w :: rest => (if first then "" else ",") ++ w.text ++ itemsText false rest

def membersText : Bool → List (String × Written) → String
  | _, [] => ""
  | first, (k, w) :: rest =>
    (if first then "" else ",") ++ quote k ++ ":" ++ w.text ++ membersText false rest

end

mutual

/-- Whether every number of a written value is an integer from `-2 ^ 63` to `2 ^ 64 - 1`, written
with neither fraction nor exponent: the numbers the reader keeps as integers. -/
def integral : Written → Bool
  | .number negative whole fraction exponent =>
    fraction.isEmpty && exponent.isNone &&
      (if negative then decide (0 < whole ∧ whole ≤ Nat.pow 2 63)
      else decide (whole < Nat.pow 2 64))
  | .array items => itemsIntegral items
  | .object members => membersIntegral members
  | _ => true

def itemsIntegral : List Written → Bool
  | [] => true
  | w :: rest => w.integral && itemsIntegral rest

def membersIntegral : List (String × Written) → Bool
  | [] => true
  | (_, w) :: rest => w.integral && membersIntegral rest

end

mutual

/-- The tree that the reader makes of a written value whose numbers are integers. An object's
members are put in one after another, a later one replacing an earlier one of the same key. -/
def value : Written → Value
  | .null => .null
  | .bool b => .bool b
  | .number negative whole _ _ => .number (Parsed.ofInteger negative whole).toNumber
  | .string s => .string s
  | .array items => .array (itemsValue items)
  | .object members => .object (membersValue members [])

def itemsValue : List Written → List Value
  | [] => []
  | w :: rest => w.value :: itemsValue rest

def membersValue : List (String × Written) → List (String × Value) → List (String × Value)
  | [], acc => acc
  | (k, w) :: rest, acc => membersValue rest (Value.insertMember k w.value acc)

end

mutual

def nesting : Written → Nat
  | .array items => itemsNesting items + 1
  | .object members => membersNesting members + 1
  | _ => 0

def itemsNesting : List Written → Nat
  | [] => 0
  | w :: rest => max w.nesting (itemsNesting rest)

def membersNesting : List (String × Written) → Nat
  | [] => 0
  | (_, w) :: rest => max w.nesting (membersNesting rest)

end

def bytesOf (t : String) : List UInt8 := t.toByteArray.data.toList

@[simp] theorem bytesOf_append (a b : String) : bytesOf (a ++ b) = bytesOf a ++ bytesOf b := by
  simp only [bytesOf, toByteArray_toList, String.toList_append, List.flatMap_append]

@[simp] theorem bytesOf_empty : bytesOf "" = [] := rfl

def bytes (w : Written) : List UInt8 := bytesOf w.text

theorem bytes_object (members : List (String × Written)) :
    (object members).bytes = [123] ++ (bytesOf (membersText true members) ++ [125]) := by
  simp only [bytes, text, bytesOf_append, List.append_assoc]
  rfl

theorem bytes_array (items : List Written) :
    (array items).bytes = [91] ++ (bytesOf (itemsText true items) ++ [93]) := by
  simp only [bytes, text, bytesOf_append, List.append_assoc]
  rfl

theorem bytesOf_membersText_cons (first : Bool) (k : String) (w : Written)
    (rest : List (String × Written)) :
    bytesOf (membersText first ((k, w) :: rest)) =
      separator first ++ (bytesOf (quote k) ++ ([58] ++ (w.bytes ++
        bytesOf (membersText false rest)))) := by
  simp only [membersText, bytesOf_append, bytes, List.append_assoc]
  cases first <;> rfl

theorem bytesOf_itemsText_cons (first : Bool) (w : Written) (rest : List Written) :
    bytesOf (itemsText first (w :: rest)) =
      separator first ++ (w.bytes ++ bytesOf (itemsText false rest)) := by
  simp only [itemsText, bytesOf_append, bytes, List.append_assoc]
  cases first <;> rfl

def fractionBytes (fraction : List (Fin 10)) : List UInt8 :=
  if fraction.isEmpty then []
  else 46 :: (fraction.map fun d => Nat.digitChar d.val).flatMap String.utf8EncodeChar

/-- The bytes of a number's exponent as the writer writes it: nothing, or an `e` and the exponent
with its sign. -/
def exponentBytes : Option Int → List UInt8
  | none => []
  | some e => 101 :: bytesOf (toString e)

theorem bytes_number (negative : Bool) (whole : Nat) (fraction : List (Fin 10))
    (exponent : Option Int) :
    (number negative whole fraction exponent).bytes =
      (if negative then [45] else []) ++ (bytesOf (Nat.repr whole) ++
        (fractionBytes fraction ++ exponentBytes exponent)) := by
  have hminus : bytesOf "-" = [45] := by decide
  have hpoint : bytesOf "." = [46] := by decide
  have he : bytesOf "e" = [101] := by decide
  simp only [bytes, text, numberText, bytesOf_append, List.append_assoc]
  congr 1
  · split <;> simp [hminus]
  congr 2
  · unfold fractionBytes
    split
    · rfl
    · rw [bytesOf_append, hpoint, bytesOf, toByteArray_toList, String.toList_ofList]
      rfl
  · cases exponent <;> simp [exponentBytes, he]

theorem bytes_null : null.bytes = [110, 117, 108, 108] := by decide

theorem bytes_true : (bool true).bytes = [116, 114, 117, 101] := by decide

theorem bytes_false : (bool false).bytes = [102, 97, 108, 115, 101] := by decide

theorem bytes_string (str : String) : (string str).bytes = [34] ++ (escapedBytes str ++ [34]) :=
  quote_bytes str

theorem bytes_nat (n : Nat) : (number false n [] none).bytes = bytesOf (Nat.repr n) := by
  simp [bytes, text, numberText]

/-! ## The texts of a written value -/

/-- How the exponent of a number may be written: nothing when it has none; else `e` or `E`, a sign
(a `+` may stand before one that is not negative), and its digits after any number of zeros. -/
inductive ExponentSpells : Option Int → List UInt8 → Prop
  | none : ExponentSpells none []
  | some {e : Int} {letter : UInt8} {sign : List UInt8} (zeros : Nat) :
      letter = 101 ∨ letter = 69 → sign = (if e < 0 then [45] else []) ∨ (0 ≤ e ∧ sign = [43]) →
      ExponentSpells (some e)
        (letter :: (sign ++ (List.replicate zeros 48 ++ bytesOf (Nat.repr e.natAbs))))

mutual

/-- `Spells w bytes`: the bytes are a JSON text of the written value `w`. -/
inductive Spells : Written → List UInt8 → Prop
  | null : Spells .null null.bytes
  | bool (b : Bool) : Spells (.bool b) (bool b).bytes
  | number {negative : Bool} {whole : Nat} {fraction : List (Fin 10)} {exponent : Option Int}
      {tail : List UInt8} : ExponentSpells exponent tail →
      Spells (.number negative whole fraction exponent)
        ((if negative then [45] else []) ++ (bytesOf (Nat.repr whole) ++
          (fractionBytes fraction ++ tail)))
  | string {str : String} {body : List UInt8} : StringSpells str.toList body →
      Spells (.string str) ([34] ++ (body ++ [34]))
  | array {items : List Written} {body gap : List UInt8} : ItemsSpell true items body →
      Blanks gap → Spells (.array items) ([91] ++ (body ++ gap ++ [93]))
  | object {members : List (String × Written)} {body gap : List UInt8} :
      MembersSpell true members body → Blanks gap →
      Spells (.object members) ([123] ++ (body ++ gap ++ [125]))

/-- The items of an array, each after blanks, its comma unless it is the first, and blanks. -/
inductive ItemsSpell : Bool → List Written → List UInt8 → Prop
  | nil {first : Bool} : ItemsSpell first [] []
  | cons {first : Bool} {w : Written} {rest : List Written} {before after v body : List UInt8} :
      Blanks before → Blanks after → Spells w v → ItemsSpell false rest body →
      ItemsSpell first (w :: rest) (before ++ separator first ++ after ++ (v ++ body))

/-- The members of an object, each after blanks, its comma unless it is the first, and blanks: its
key, blanks, a colon, blanks and its value. -/
inductive MembersSpell : Bool → List (String × Written) → List UInt8 → Prop
  | nil {first : Bool} : MembersSpell first [] []
  | cons {first : Bool} {k : String} {w : Written} {rest : List (String × Written)}
      {before after key beforeColon afterColon v body : List UInt8} :
      Blanks before → Blanks after → StringSpells k.toList key → Blanks beforeColon →
      Blanks afterColon → Spells w v → MembersSpell false rest body →
      MembersSpell first ((k, w) :: rest)
        (before ++ separator first ++ after ++ ([34] ++ (key ++ [34])) ++
          (beforeColon ++ [58] ++ (afterColon ++ v ++ body)))

end

theorem exponentSpells_exponentBytes : (e : Option Int) → ExponentSpells e (exponentBytes e)
  | none => .none
  | some (.ofNat m) => by
    have h := @ExponentSpells.some (.ofNat m) 101 [] 0 (.inl rfl) (.inl (by simp))
    have htext : toString (Int.ofNat m) = Nat.repr m := rfl
    rw [exponentBytes, htext]
    simpa using h
  | some (.negSucc m) => by
    have h := @ExponentSpells.some (.negSucc m) 101 [45] 0 (.inl rfl)
      (.inl (by simp [Int.negSucc_lt_zero]))
    have htext : toString (Int.negSucc m) = "-" ++ Nat.repr (m + 1) := rfl
    have hminus : bytesOf "-" = [45] := by decide
    simpa [exponentBytes, htext, hminus] using h

mutual

theorem spells_bytes : (w : Written) → Spells w w.bytes
  | .null => .null
  | .bool b => .bool b
  | .number negative whole fraction exponent => by
    rw [bytes_number]
    exact .number (exponentSpells_exponentBytes exponent)
  | .string str => by
    rw [bytes_string]
    exact .string (stringSpells_escapedBytes str)
  | .array items => by
    have h := Spells.array (itemsSpell_itemsText true items) blanks_nil
    rwa [List.append_nil, ← bytes_array] at h
  | .object members => by
    have h := Spells.object (membersSpell_membersText true members) blanks_nil
    rwa [List.append_nil, ← bytes_object] at h

theorem itemsSpell_itemsText : (first : Bool) → (items : List Written) →
    ItemsSpell first items (bytesOf (itemsText first items))
  | first, [] => by
    rw [show bytesOf (itemsText first []) = [] by simp [itemsText]]
    exact .nil
  | first, w :: rest => by
    have h : ItemsSpell first (w :: rest) _ :=
      .cons blanks_nil blanks_nil (spells_bytes w) (itemsSpell_itemsText false rest)
    rwa [List.nil_append, List.append_nil, ← bytesOf_itemsText_cons] at h

theorem membersSpell_membersText : (first : Bool) → (members : List (String × Written)) →
    MembersSpell first members (bytesOf (membersText first members))
  | first, [] => by
    rw [show bytesOf (membersText first []) = [] by simp [membersText]]
    exact .nil
  | first, (k, w) :: rest => by
    have h : MembersSpell first ((k, w) :: rest) _ :=
      .cons blanks_nil blanks_nil (stringSpells_escapedBytes k) blanks_nil blanks_nil
        (spells_bytes w) (membersSpell_membersText false rest)
    rw [bytesOf_membersText_cons, bytesOf, quote_bytes]
    simpa only [List.nil_append, List.append_nil, List.append_assoc] using h

end

end Written

/-! ## Readers under a nesting budget -/

variable {α β : Type}

/-- The reader `r`, started where the bytes `tok` stand with at least `d` levels of nesting left
and followed by bytes that `follow` accepts, takes exactly `tok`, gives `a`, and leaves the levels
as it found them. -/
def ReadsAt (r : ReadM α) (tok : List UInt8) (a : α) (follow : List UInt8 → Prop) (d : Nat) :
    Prop :=
  ∀ s rest, s.rest = tok ++ rest → follow rest → d ≤ s.depth →
    r.run.run s = (.ok a, s.advance tok.length)

namespace ReadsAt

variable {x : ReadM α} {f : α → ReadM β} {tok tok₁ tok₂ : List UInt8} {a : α} {b : β}
  {F F₁ F₂ : List UInt8 → Prop} {d : Nat}

theorem ofReads (h : Reads x tok a F) (d : Nat) : ReadsAt x tok a F d :=
  fun s rest hs hrest _ => h s rest hs hrest

theorem mono {d' : Nat} (h : ReadsAt x tok a F d) (hle : d ≤ d') : ReadsAt x tok a F d' :=
  fun s rest hs hrest hd => h s rest hs hrest (Nat.le_trans hle hd)

theorem weaken {F' : List UInt8 → Prop} (h : ReadsAt x tok a F d) (hF : ∀ rest, F' rest → F rest) :
    ReadsAt x tok a F' d :=
  fun s rest hs hrest hd => h s rest hs (hF rest hrest) hd

theorem bind (hx : ReadsAt x tok₁ a F₁ d) (hf : ReadsAt (f a) tok₂ b F₂ d)
    (hF : ∀ rest, F₂ rest → F₁ (tok₂ ++ rest)) : ReadsAt (x >>= f) (tok₁ ++ tok₂) b F₂ d := by
  intro s rest hs hrest hd
  have h₁ := hx s (tok₂ ++ rest) (by rw [hs, List.append_assoc]) (hF rest hrest) hd
  rw [run_bind, h₁]
  dsimp only
  have h₂ := hf (s.advance tok₁.length) rest
    (Scan.rest_advance (show s.rest = tok₁ ++ (tok₂ ++ rest) by rw [hs, List.append_assoc])) hrest hd
  rw [h₂, Scan.advance_advance, List.length_append]

theorem bind_nil (hx : ReadsAt x tok₁ a F₁ d) (hf : ReadsAt (f a) [] b F₂ d)
    (hF : ∀ rest, F₂ rest → F₁ rest) : ReadsAt (x >>= f) tok₁ b F₂ d := by
  have h := ReadsAt.bind hx hf hF
  rwa [List.append_nil] at h

theorem attempt (h : ReadsAt x tok a F d) : ReadsAt (Json.attempt x) tok (.ok a) F d := by
  intro s rest hs hrest hd
  rw [run_attempt, h s rest hs hrest hd]

theorem fixPlace (h : ReadsAt x tok a F d) : ReadsAt (Json.fixPlace x) tok a F d := by
  unfold Json.fixPlace
  exact bind_nil h.attempt (ofReads (Reads.pure a) d) (fun _ h => h)

theorem withEnd {body : ReadM α} {close : ReadM Unit} (hbody : ReadsAt body tok a F d)
    (hclose : Reads close tok₂ () F₂) (hF : ∀ rest, F₂ rest → F (tok₂ ++ rest)) :
    ReadsAt (Json.withEnd body close) (tok ++ tok₂) a F₂ d := by
  unfold Json.withEnd
  exact ReadsAt.bind hbody.attempt
    (bind_nil (ofReads hclose.attempt d) (ofReads (Reads.pure a) d) (fun _ h => h)) hF

theorem enclosed {body : ReadM β} {close : ReadM Unit} {g : β → α} {o : UInt8}
    {ctok : List UInt8} (hbody : ReadsAt body tok b F₁ d) (hclose : Reads close ctok () F)
    (hF : ∀ rest, F rest → F₁ (ctok ++ rest)) (hd : 0 < d) :
    ReadsAt (do enter; bump; let x ← Json.withEnd body close; leave; pure (g x))
      ([o] ++ (tok ++ ctok)) (g b) F (d + 1) := by
  intro s rest hs hrest hdepth
  have hinner : ({ s with depth := s.depth - 1 }.advance 1).rest = (tok ++ ctok) ++ rest :=
    Scan.rest_advance (show ({ s with depth := s.depth - 1 }).rest = [o] ++ ((tok ++ ctok) ++ rest)
      by rw [← List.append_assoc]; exact hs)
  rw [run_bind, run_enter (by omega)]
  dsimp only
  rw [run_bind, run_bump]
  dsimp only
  rw [run_bind, ReadsAt.withEnd hbody hclose hF _ rest hinner hrest
    (show d ≤ s.depth - 1 by omega)]
  dsimp only
  rw [run_bind, run_leave]
  dsimp only
  congr 1
  cases s
  simp only [Scan.advance, Scan.mk.injEq, true_and, List.length_append, List.length_cons,
    List.length_nil] at hdepth ⊢
  omega

end ReadsAt

/-! ## Tokens -/

theorem reads_expectIdent : (bs : List UInt8) → Reads (expectIdent bs) bs () fun _ => True
  | [] => Reads.pure ()
  | b :: bs => by
    unfold expectIdent
    refine Reads.bind (reads_next? b) ?_ (fun _ _ => trivial)
    dsimp only
    rw [if_pos rfl]
    exact reads_expectIdent bs

theorem reads_nextItem_close (first : Bool) {g : List UInt8} (hg : Blanks g) :
    Reads (nextItem first) g none (·.head? = some 93) := by
  unfold nextItem
  exact Reads.bind_nil (reads_skipBlanks_over hg (b := 93) rfl) (Reads.pure _) (fun _ h => h)

/-- A byte that may start a value: not a blank, not a comma and not a closing bracket. -/
def StartsValue (b : UInt8) : Prop :=
  blankByte b = false ∧ b ≠ 44 ∧ b ≠ 93

instance (b : UInt8) : Decidable (StartsValue b) :=
  inferInstanceAs (Decidable (_ ∧ _ ∧ _))

theorem reads_nextItem (first : Bool) {before after : List UInt8} (hbefore : Blanks before)
    (hafter : Blanks after) {b : UInt8} (hb : StartsValue b) :
    Reads (nextItem first) (before ++ separator first ++ after) (some b) (·.head? = some b) := by
  obtain ⟨hblank, h44, h93⟩ := hb
  unfold nextItem
  cases first with
  | true =>
    rw [separator_true, List.append_nil]
    refine Reads.bind_nil (reads_skipBlanks_over (hbefore.append hafter) hblank) ?_
      (fun _ h => h)
    split
    · rename_i h; exact absurd (Option.some.inj h) h93
    · rename_i h; exact absurd (Option.some.inj h) h44
    · rename_i b' _ _ h
      obtain rfl := Option.some.inj h
      exact Reads.pure _
    · rename_i h; cases h
  | false =>
    rw [separator_false, List.append_assoc]
    refine Reads.bind (reads_skipBlanks_over hbefore (b := 44) rfl) ?_ (fun _ _ => rfl)
    rw [if_neg (by decide)]
    refine Reads.bind (reads_bump 44) (Reads.bind_nil (reads_skipBlanks_over hafter hblank) ?_
      (fun _ h => h)) (fun _ _ => trivial)
    split
    · rename_i h; exact absurd (Option.some.inj h) h93
    · rename_i b' _ h
      obtain rfl := Option.some.inj h
      exact Reads.pure _
    · rename_i h; cases h

theorem reads_endArray : Reads endArray [93] () fun _ => True :=
  Reads.bind (reads_skipBlanks (b := 93) rfl) (reads_bump 93) (fun _ _ => rfl)

/-! ## Values, one kind at a time -/

section Values

variable {fuel d : Nat} {g : List UInt8} {F : List UInt8 → Prop}

theorem reads_readValue_null (hg : Blanks g) :
    Reads (readValue (fuel + 1)) (g ++ [110, 117, 108, 108]) .null F := by
  unfold readValue
  refine Reads.fixPlace (Reads.bind (reads_skipBlanks_over hg (b := 110) rfl) ?_ (fun _ _ => rfl))
  exact Reads.bind (reads_bump 110) (Reads.bind_nil (reads_expectIdent nullTail) (Reads.pure _)
    (fun _ _ => trivial)) (fun _ _ => trivial)

theorem reads_readValue_true (hg : Blanks g) :
    Reads (readValue (fuel + 1)) (g ++ [116, 114, 117, 101]) (.bool true) F := by
  unfold readValue
  refine Reads.fixPlace (Reads.bind (reads_skipBlanks_over hg (b := 116) rfl) ?_ (fun _ _ => rfl))
  exact Reads.bind (reads_bump 116) (Reads.bind_nil (reads_expectIdent trueTail) (Reads.pure _)
    (fun _ _ => trivial)) (fun _ _ => trivial)

theorem reads_readValue_false (hg : Blanks g) :
    Reads (readValue (fuel + 1)) (g ++ [102, 97, 108, 115, 101]) (.bool false) F := by
  unfold readValue
  refine Reads.fixPlace (Reads.bind (reads_skipBlanks_over hg (b := 102) rfl) ?_ (fun _ _ => rfl))
  exact Reads.bind (reads_bump 102) (Reads.bind_nil (reads_expectIdent falseTail) (Reads.pure _)
    (fun _ _ => trivial)) (fun _ _ => trivial)

theorem reads_readValue_string (hg : Blanks g) {str : String} {body : List UInt8}
    (hs : StringSpells str.toList body) (hfuel : body.length < fuel) :
    Reads (readValue (fuel + 1)) (g ++ ([34] ++ (body ++ [34]))) (.string str) F := by
  have hstring := reads_readString hs hfuel
  rw [String.ofList_toList] at hstring
  unfold readValue
  refine Reads.fixPlace (Reads.bind (reads_skipBlanks_over hg (b := 34) rfl) ?_ (fun _ _ => rfl))
  exact Reads.bind (reads_bump 34) (Reads.bind_nil hstring (Reads.pure _)
    (fun _ _ => trivial)) (fun _ _ => trivial)

theorem readsAt_readValue_object (hg : Blanks g) {mtok : List UInt8} {ms : List (String × Value)}
    (hmembers : ReadsAt (readMembers fuel true []) mtok ms (·.head? = some 125) d) (hd : 0 < d) :
    ReadsAt (readValue (fuel + 1)) (g ++ ([123] ++ (mtok ++ [125]))) (.object ms) F (d + 1) := by
  unfold readValue
  refine ReadsAt.fixPlace (ReadsAt.bind (ReadsAt.ofReads (reads_skipBlanks_over hg (b := 123) rfl) _)
    ?_ (fun _ _ => rfl))
  exact ReadsAt.enclosed hmembers (fun s rest hs _ => reads_endObject s rest hs trivial) (fun _ _ => rfl) hd

theorem readsAt_readValue_array (hg : Blanks g) {itok : List UInt8} {items : Array Value}
    (hitems : ReadsAt (readItems fuel true #[]) itok items (·.head? = some 93) d) (hd : 0 < d) :
    ReadsAt (readValue (fuel + 1)) (g ++ ([91] ++ (itok ++ [93]))) (.array items.toList) F
      (d + 1) := by
  unfold readValue
  refine ReadsAt.fixPlace (ReadsAt.bind (ReadsAt.ofReads (reads_skipBlanks_over hg (b := 91) rfl) _)
    ?_ (fun _ _ => rfl))
  exact ReadsAt.enclosed hitems (fun s rest hs _ => reads_endArray s rest hs trivial) (fun _ _ => rfl) hd

theorem bytesOf_repr (n : Nat) :
    Written.bytesOf (Nat.repr n) = (Nat.toDigits 10 n).flatMap String.utf8EncodeChar := by
  rw [Written.bytesOf, toByteArray_toList, Nat.toList_repr]

theorem length_bytesOf_repr (n : Nat) : (Written.bytesOf (Nat.repr n)).length = (Nat.repr n).length := by
  have hdigits : ∀ c ∈ Nat.toDigits 10 n, c.isDigit = true :=
    fun c hc => Nat.isDigit_of_mem_toDigits (by decide) (by decide) hc
  rw [bytesOf_repr, String.length, Nat.toList_repr]
  generalize Nat.toDigits 10 n = cs at hdigits ⊢
  induction cs with
  | nil => rfl
  | cons c cs ih =>
    rw [List.flatMap_cons, List.length_append, (digit_bytes (hdigits c (by simp))).1,
      ih (fun x hx => hdigits x (by simp [hx]))]
    simp [Nat.add_comm]

theorem reads_readValue_integer (hg : Blanks g) (negative : Bool) {n : Nat}
    (hn : if negative then 0 < n ∧ n ≤ Nat.pow 2 63 else n < Nat.pow 2 64)
    (hfuel : (Nat.repr n).length ≤ fuel + 1) {b : UInt8}
    (hb : isDigitByte b = false ∧ b ≠ 46 ∧ b ≠ 101 ∧ b ≠ 69) :
    Reads (readValue (fuel + 1))
      (g ++ ((if negative then [45] else []) ++ Written.bytesOf (Nat.repr n)))
      (.number (Parsed.ofInteger negative n).toNumber) (·.head? = some b) := by
  have hdigits : ∀ c ∈ Nat.toDigits 10 n, c.isDigit = true :=
    fun c hc => Nat.isDigit_of_mem_toDigits (by decide) (by decide) hc
  obtain ⟨c, cs, hcs⟩ := List.exists_cons_of_ne_nil (Nat.toDigits_ne_nil (b := 10) (n := n))
  obtain ⟨hbyte, hdigit, -⟩ := digit_bytes (hdigits c (by simp [hcs]))
  obtain ⟨hblank, -⟩ := isDigitByte_facts hdigit
  have hint : Reads (readInteger fuel (!negative))
      ((Nat.toDigits 10 n).flatMap String.utf8EncodeChar) (Parsed.ofInteger negative n)
      (·.head? = some b) := by
    refine reads_readInteger hb negative ?_ (fun h => by simpa [h] using hn)
      (by simpa [String.length, Nat.toList_repr] using hfuel)
    cases negative <;> simp [maxU64] at hn ⊢ <;> omega
  have hlead : (Nat.toDigits 10 n).flatMap String.utf8EncodeChar =
      c.val.toUInt8 :: cs.flatMap String.utf8EncodeChar := by
    simp [hcs, hbyte]
  rw [bytesOf_repr]
  rw [hlead] at hint ⊢
  unfold readValue
  cases negative with
  | true =>
    rw [if_pos rfl]
    refine Reads.fixPlace (Reads.bind (reads_skipBlanks_over hg (b := 45) rfl) ?_ (fun _ _ => rfl))
    exact Reads.bind (reads_bump 45) (Reads.bind_nil hint (Reads.pure _) (fun _ h => h))
      (fun _ _ => trivial)
  | false =>
    rw [if_neg Bool.false_ne_true, List.nil_append]
    refine Reads.fixPlace (Reads.bind (reads_skipBlanks_over hg hblank) ?_ (fun _ _ => rfl))
    split
    · rename_i h
      cases h
    case h_2 | h_3 | h_4 | h_5 | h_6 | h_7 | h_8 =>
      rename_i h
      rw [Option.some.inj h] at hdigit
      exact absurd hdigit (by decide)
    · rename_i h
      obtain rfl := Option.some.inj h
      rw [if_pos hdigit]
      exact Reads.bind_nil hint (Reads.pure _) (fun _ h => h)

end Values

/-! ## Spelled values -/

/-- The bytes that may follow a value inside an array or an object: a blank, a comma or a closing
bracket. -/
def Closing (rest : List UInt8) : Prop :=
  ∃ b, rest.head? = some b ∧ (blankByte b = true ∨ b = 44 ∨ b = 93 ∨ b = 125)

theorem readsAt_closing {r : ReadM α} {tok : List UInt8} {a : α} {d : Nat}
    (h : ∀ b : UInt8, blankByte b = true ∨ b = 44 ∨ b = 93 ∨ b = 125 →
      Reads r tok a (·.head? = some b)) :
    ReadsAt r tok a Closing d := by
  intro s rest hs ⟨b, hb, hclose⟩ _
  exact h b hclose s rest hs hb

theorem closing_ends_number {b : UInt8} (hb : blankByte b = true ∨ b = 44 ∨ b = 93 ∨ b = 125) :
    isDigitByte b = false ∧ b ≠ 46 ∧ b ≠ 101 ∧ b ≠ 69 := by
  rcases hb with hb | rfl | rfl | rfl
  · simp only [blankByte, Bool.or_eq_true, decide_eq_true_eq] at hb
    rcases hb with ((rfl | rfl) | rfl) | rfl <;> decide
  all_goals decide

theorem closing_blanks {g r : List UInt8} (hg : Blanks g) (hr : Closing r) : Closing (g ++ r) := by
  cases g with
  | nil => exact hr
  | cons b g => exact ⟨b, rfl, .inl (hg b List.mem_cons_self)⟩

theorem startsValue_of_isDigitByte {b : UInt8} (h : isDigitByte b = true) : StartsValue b := by
  have hrange : 48 ≤ b.toNat ∧ b.toNat ≤ 57 := by
    simpa [isDigitByte, UInt8.le_iff_toNat_le] using h
  simp only [StartsValue, blankByte, Bool.or_eq_false_iff, decide_eq_false_iff_not, ne_eq,
    ← UInt8.toNat_inj]
  simp
  omega

namespace Written

theorem Spells.head? {w : Written} {v : List UInt8} (h : Spells w v) :
    ∃ b, v.head? = some b ∧ StartsValue b := by
  cases h with
  | null => exact ⟨110, by rw [bytes_null]; rfl, by decide⟩
  | bool b => cases b with
    | true => exact ⟨116, by rw [bytes_true]; rfl, by decide⟩
    | false => exact ⟨102, by rw [bytes_false]; rfl, by decide⟩
  | @number negative whole _ _ _ _ =>
    cases negative with
    | true => exact ⟨45, rfl, by decide⟩
    | false =>
      obtain ⟨c, cs, hcs⟩ := List.exists_cons_of_ne_nil (Nat.toDigits_ne_nil (b := 10) (n := whole))
      have hc : c ∈ Nat.toDigits 10 whole := by simp [hcs]
      obtain ⟨hbyte, hdigit, -⟩ :=
        digit_bytes (Nat.isDigit_of_mem_toDigits (by decide) (by decide) hc)
      refine ⟨c.val.toUInt8, ?_, startsValue_of_isDigitByte hdigit⟩
      simp [bytesOf_repr, hcs, hbyte]
  | string => exact ⟨34, rfl, by decide⟩
  | array => exact ⟨91, rfl, by decide⟩
  | object => exact ⟨123, rfl, by decide⟩

theorem Spells.length_pos {w : Written} {v : List UInt8} (h : Spells w v) : 0 < v.length := by
  obtain ⟨b, hb, -⟩ := h.head?
  cases v with
  | nil => cases hb
  | cons _ _ => simp

mutual

theorem Spells.nesting_le : {w : Written} → {v : List UInt8} → Spells w v → w.nesting ≤ v.length
  | _, _, .null | _, _, .bool _ | _, _, .number _ | _, _, .string _ => by simp [nesting]
  | _, _, .array hitems _ => by
    have := ItemsSpell.nesting_le hitems
    simp only [nesting, List.length_append, List.length_singleton]
    omega
  | _, _, .object hmembers _ => by
    have := MembersSpell.nesting_le hmembers
    simp only [nesting, List.length_append, List.length_singleton]
    omega

theorem ItemsSpell.nesting_le : {first : Bool} → {items : List Written} → {body : List UInt8} →
    ItemsSpell first items body → itemsNesting items ≤ body.length
  | _, _, _, .nil => by simp [itemsNesting]
  | _, _, _, .cons _ _ hv hrest => by
    have h₁ := Spells.nesting_le hv
    have h₂ := ItemsSpell.nesting_le hrest
    simp only [itemsNesting, List.length_append]
    omega

theorem MembersSpell.nesting_le : {first : Bool} → {members : List (String × Written)} →
    {body : List UInt8} → MembersSpell first members body → membersNesting members ≤ body.length
  | _, _, _, .nil => by simp [membersNesting]
  | _, _, _, .cons _ _ _ _ _ hv hrest => by
    have h₁ := Spells.nesting_le hv
    have h₂ := MembersSpell.nesting_le hrest
    simp only [membersNesting, List.length_append]
    omega

end

theorem Spells.eq_of_nat {n : Nat} {v : List UInt8} (h : Spells (Written.number false n [] none) v) :
    v = bytesOf (Nat.repr n) := by
  cases h with
  | number hexp =>
    cases hexp
    simp [fractionBytes]

theorem Spells.eq_of_string {str : String} {v : List UInt8} (h : Spells (Written.string str) v) :
    ∃ body, StringSpells str.toList body ∧ v = [34] ++ (body ++ [34]) := by
  cases h with
  | string hs => exact ⟨_, hs, rfl⟩

theorem ItemsSpell.closing {items : List Written} {body : List UInt8}
    (h : ItemsSpell false items body) {r : List UInt8} (hr : Closing r) : Closing (body ++ r) := by
  cases h with
  | nil => exact hr
  | @cons _ _ _ before _ _ _ hbefore _ _ _ =>
    rw [List.append_assoc, List.append_assoc, List.append_assoc]
    exact closing_blanks hbefore ⟨44, rfl, .inr (.inl rfl)⟩

theorem MembersSpell.closing {members : List (String × Written)} {body : List UInt8}
    (h : MembersSpell false members body) {r : List UInt8} (hr : Closing r) :
    Closing (body ++ r) := by
  cases h with
  | nil => exact hr
  | @cons _ _ _ _ before _ _ _ _ _ _ hbefore _ _ _ _ _ _ =>
    simp only [List.append_assoc]
    exact closing_blanks hbefore ⟨44, rfl, .inr (.inl rfl)⟩

end Written

/-! ## Reading spelled values -/

open Written in
mutual

theorem reads_readValue : {w : Written} → {v : List UInt8} → Spells w v → w.integral = true →
    (fuel d : Nat) → (g : List UInt8) → Blanks g → (g ++ v).length ≤ fuel + 1 → w.nesting < d →
    ReadsAt (readValue (fuel + 1)) (g ++ v) w.value Closing d
  | _, _, .null, _, _, d, _, hg, _, _ => by
    rw [bytes_null]
    exact ReadsAt.ofReads (reads_readValue_null hg) d
  | _, _, .bool true, _, _, d, _, hg, _, _ => by
    rw [bytes_true]
    exact ReadsAt.ofReads (reads_readValue_true hg) d
  | _, _, .bool false, _, _, d, _, hg, _, _ => by
    rw [bytes_false]
    exact ReadsAt.ofReads (reads_readValue_false hg) d
  | _, _, @Spells.number negative whole fraction exponent tail hexp, hint, fuel, d, g, hg,
      hfuel, _ => by
    simp only [integral, Bool.and_eq_true, List.isEmpty_iff, Option.isNone_iff_eq_none] at hint
    obtain ⟨⟨rfl, rfl⟩, hwhole⟩ := hint
    cases hexp
    simp only [fractionBytes, List.isEmpty_nil, if_true, List.append_nil] at hfuel ⊢
    have hlen : (Nat.repr whole).length ≤ fuel + 1 := by
      rw [← length_bytesOf_repr]
      simp only [List.length_append] at hfuel
      omega
    refine readsAt_closing fun b hb => ?_
    refine reads_readValue_integer hg negative ?_ hlen (closing_ends_number hb)
    cases negative <;> simpa using hwhole
  | _, _, .string hs, _, fuel, d, g, hg, hfuel, _ => by
    simp only [List.length_append, List.length_cons, List.length_nil] at hfuel
    exact ReadsAt.ofReads (reads_readValue_string hg hs (by omega)) d
  | _, _, @Spells.array items body gap hitems hgap, hint, fuel, d, g, hg, hfuel, hd => by
    simp only [nesting] at hd
    obtain ⟨d, rfl⟩ : ∃ d', d = d' + 1 := ⟨d - 1, by omega⟩
    simp only [List.length_append, List.length_cons, List.length_nil] at hfuel
    have hitems := reads_readItems hitems (by simpa only [integral] using hint) fuel d #[] gap hgap
      (by simp only [List.length_append]; omega) (by omega)
    have hvalue : (array items).value =
        .array (((#[] : Array Value).toList ++ itemsValue items).toArray.toList) := by
      simp [value]
    rw [hvalue]
    exact readsAt_readValue_array hg hitems (by omega)
  | _, _, @Spells.object members body gap hmembers hgap, hint, fuel, d, g, hg, hfuel, hd => by
    simp only [nesting] at hd
    obtain ⟨d, rfl⟩ : ∃ d', d = d' + 1 := ⟨d - 1, by omega⟩
    simp only [List.length_append, List.length_cons, List.length_nil] at hfuel
    exact readsAt_readValue_object hg (reads_readMembers hmembers
      (by simpa only [integral] using hint) fuel d [] gap hgap
      (by simp only [List.length_append]; omega) (by omega)) (by omega)

theorem reads_readItems : {first : Bool} → {items : List Written} → {body : List UInt8} →
    ItemsSpell first items body → itemsIntegral items = true → (fuel d : Nat) →
    (acc : Array Value) → (gap : List UInt8) → Blanks gap → (body ++ gap).length < fuel →
    itemsNesting items < d →
    ReadsAt (readItems fuel first acc) (body ++ gap) (acc.toList ++ itemsValue items).toArray
      (·.head? = some 93) d
  | first, _, _, .nil, _, fuel, d, acc, gap, hgap, hfuel, _ => by
    obtain ⟨f, rfl⟩ : ∃ f, fuel = f + 1 := ⟨fuel - 1, by omega⟩
    have hvalue : (acc.toList ++ itemsValue []).toArray = acc := by simp [itemsValue]
    rw [hvalue, List.nil_append]
    unfold readItems
    exact ReadsAt.ofReads (Reads.bind_nil (reads_nextItem_close first hgap) (Reads.pure acc)
      (fun _ h => h)) d
  | first, _, _, @ItemsSpell.cons _ w rest before after v body hbefore hafter hv hrest, hint, fuel,
      d, acc, gap, hgap, hfuel, hd => by
    simp only [itemsIntegral, Bool.and_eq_true] at hint
    simp only [itemsNesting, Nat.max_lt] at hd
    obtain ⟨b, hb, hstart⟩ := hv.head?
    have hpos := hv.length_pos
    simp only [List.length_append] at hfuel
    obtain ⟨f, rfl⟩ : ∃ f, fuel = f + 1 := ⟨fuel - 1, by omega⟩
    obtain ⟨g, rfl⟩ : ∃ g, f = g + 1 := ⟨f - 1, by omega⟩
    have hvalue := reads_readValue hv hint.1 g d [] blanks_nil (by simp; omega) hd.1
    have hitems := reads_readItems hrest hint.2 (g + 1) d (acc.push w.value) gap hgap
      (by simp only [List.length_append]; omega) hd.2
    have hacc : (acc.toList ++ itemsValue (w :: rest)).toArray =
        ((acc.push w.value).toList ++ itemsValue rest).toArray := by
      simp [itemsValue]
    have htok : before ++ separator first ++ after ++ (v ++ body) ++ gap =
        (before ++ separator first ++ after) ++ (v ++ (body ++ gap)) := by
      simp only [List.append_assoc]
    rw [hacc, htok]
    unfold readItems
    refine ReadsAt.bind (ReadsAt.ofReads (reads_nextItem first hbefore hafter hstart) d) ?_
      (fun _ _ => by rw [List.append_assoc, List.head?_append, hb]; rfl)
    refine ReadsAt.bind hvalue hitems (fun rest hr => ?_)
    rw [List.append_assoc]
    exact hrest.closing (closing_blanks hgap ⟨93, hr, .inr (.inr (.inl rfl))⟩)

theorem reads_readMembers : {first : Bool} → {members : List (String × Written)} →
    {body : List UInt8} → MembersSpell first members body → membersIntegral members = true →
    (fuel d : Nat) → (acc : List (String × Value)) → (gap : List UInt8) → Blanks gap →
    (body ++ gap).length < fuel → membersNesting members < d →
    ReadsAt (readMembers fuel first acc) (body ++ gap) (membersValue members acc)
      (·.head? = some 125) d
  | first, _, _, .nil, _, fuel, d, acc, gap, hgap, hfuel, _ => by
    obtain ⟨f, rfl⟩ : ∃ f, fuel = f + 1 := ⟨fuel - 1, by omega⟩
    rw [List.nil_append]
    unfold readMembers
    exact ReadsAt.ofReads (Reads.bind_nil (reads_nextKey_end first hgap f) (Reads.pure acc)
      (fun _ h => h)) d
  | first, _, _, @MembersSpell.cons _ k w rest before after key beforeColon afterColon v body
      hbefore hafter hkey hbeforeColon hafterColon hv hrest, hint, fuel, d, acc, gap, hgap, hfuel,
      hd => by
    simp only [membersIntegral, Bool.and_eq_true] at hint
    simp only [membersNesting, Nat.max_lt] at hd
    have hpos := hv.length_pos
    simp only [List.length_append, List.length_cons, List.length_nil] at hfuel
    obtain ⟨f, rfl⟩ : ∃ f, fuel = f + 1 := ⟨fuel - 1, by omega⟩
    obtain ⟨g, rfl⟩ : ∃ g, f = g + 1 := ⟨f - 1, by omega⟩
    have hvalue := reads_readValue hv hint.1 g d afterColon hafterColon
      (by simp only [List.length_append]; omega) hd.1
    have hmembers := reads_readMembers hrest hint.2 (g + 1) d (Value.insertMember k w.value acc)
      gap hgap (by simp only [List.length_append]; omega) hd.2
    have htok : before ++ separator first ++ after ++ ([34] ++ (key ++ [34])) ++
        (beforeColon ++ [58] ++ (afterColon ++ v ++ body)) ++ gap =
        (before ++ separator first ++ after ++ ([34] ++ (key ++ [34]))) ++
          ((beforeColon ++ [58]) ++ ((afterColon ++ v) ++ (body ++ gap))) := by
      simp only [List.append_assoc]
    rw [htok]
    unfold readMembers
    refine ReadsAt.bind (ReadsAt.ofReads (reads_nextKey first hbefore hafter hkey (by omega)) d) ?_
      (fun _ _ => trivial)
    refine ReadsAt.bind (ReadsAt.ofReads (reads_expectColon hbeforeColon) d) ?_ (fun _ _ => trivial)
    refine ReadsAt.bind hvalue hmembers (fun rest hr => ?_)
    rw [List.append_assoc]
    exact hrest.closing (closing_blanks hgap ⟨125, hr, .inr (.inr (.inr rfl))⟩)

end

/-! ## Documents -/

theorem readDocument_of_readsAt {r : Nat → ReadM α} {bytes : ByteArray} {tok after : List UInt8}
    {a : α} (hbytes : bytes.data.toList = tok ++ after) (hafter : Blanks after)
    (h : ReadsAt (r (bytes.size + 1)) tok a (· = after) nestingLimit) :
    readDocument bytes r = .ok a := by
  have hs : (⟨bytes, 0, nestingLimit⟩ : Scan).rest = tok ++ after := by
    simp [Scan.rest, hbytes]
  unfold readDocument
  dsimp only
  rw [run_bind, h _ after hs rfl (Nat.le_refl _)]
  dsimp only
  rw [run_bind, reads_skipBlanks_end_over hafter _ [] (by rw [Scan.rest_advance hs,
    List.append_nil]) rfl]
  rfl

open Written in
theorem parseValue_object {bytes : ByteArray} {members : List (String × Written)}
    {before v after : List UInt8} (hbefore : Blanks before) (hv : Spells (object members) v)
    (hafter : Blanks after) (hbytes : bytes.data.toList = before ++ v ++ after)
    (hint : membersIntegral members = true) (hnest : (object members).nesting < nestingLimit) :
    parseValue bytes = .ok (object members).value := by
  have hsize : bytes.size = (before ++ v ++ after).length := by
    rw [← hbytes, Array.length_toList, ByteArray.size]
  simp only [nesting, nestingLimit] at hnest
  cases hv with
  | @object _ body gap hmembers hgap =>
    simp only [List.length_append, List.length_cons, List.length_nil] at hsize
    unfold parseValue
    refine readDocument_of_readsAt hbytes hafter ?_
    exact (readsAt_readValue_object hbefore (reads_readMembers hmembers hint bytes.size
      (nestingLimit - 1) [] gap hgap (by simp only [List.length_append]; omega)
      (by unfold nestingLimit; omega)) (by unfold nestingLimit; omega)).mono
      (by unfold nestingLimit; omega)

/-! ## Members of a written object -/

namespace Written

theorem mem_insertMember {k : String} {v : Value} {l : List (String × Value)}
    {p : String × Value} (h : p ∈ Value.insertMember k v l) : p = (k, v) ∨ p ∈ l := by
  induction l with
  | nil => simpa [Value.insertMember] using h
  | cons q l ih =>
    unfold Value.insertMember at h
    split at h
    · simpa using h
    · split at h
      · simp only [List.mem_cons] at h ⊢
        rcases h with h | h
        · exact .inl h
        · exact .inr (.inr h)
      · simp only [List.mem_cons] at h ⊢
        rcases h with h | h
        · exact .inr (.inl h)
        · rcases ih h with h | h
          · exact .inl h
          · exact .inr (.inr h)

theorem mem_membersValue {ms : List (String × Written)} {acc : List (String × Value)}
    {p : String × Value} (h : p ∈ membersValue ms acc) :
    p ∈ acc ∨ ∃ w, (p.1, w) ∈ ms ∧ p.2 = w.value := by
  induction ms generalizing acc with
  | nil => exact .inl h
  | cons m ms ih =>
    obtain ⟨k, w⟩ := m
    rcases ih h with h | ⟨w', hw', hv⟩
    · rcases mem_insertMember h with rfl | h
      · exact .inr ⟨w, by simp, rfl⟩
      · exact .inl h
    · exact .inr ⟨w', List.mem_cons_of_mem _ hw', hv⟩

theorem get?_value {ms : List (String × Written)} {k : String} {v : Value}
    (h : (object ms).value.get? k = some v) : ∃ w, (k, w) ∈ ms ∧ w.value = v := by
  simp only [value, Value.get?, Option.map_eq_some_iff] at h
  obtain ⟨p, hp, rfl⟩ := h
  have hk : p.1 = k := by simpa using List.find?_some hp
  rcases mem_membersValue (List.mem_of_find?_eq_some hp) with hnil | ⟨w, hw, hv⟩
  · cases hnil
  · exact ⟨w, hk ▸ hw, hv.symm⟩

theorem nesting_le_membersNesting {ms : List (String × Written)} {k : String} {w : Written}
    (h : (k, w) ∈ ms) : w.nesting ≤ membersNesting ms := by
  induction ms with
  | nil => cases h
  | cons m ms ih =>
    obtain ⟨k', w'⟩ := m
    simp only [membersNesting]
    rcases List.mem_cons.mp h with h | h
    · obtain ⟨-, rfl⟩ := Prod.mk.inj h
      omega
    · have := ih h
      omega

end Written

end Quorum.Json
