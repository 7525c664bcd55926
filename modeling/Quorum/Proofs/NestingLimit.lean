import Quorum.Proofs.WrittenJson

/-!
# The nesting limit

The reader takes a level of nesting on entering an array or an object and refuses to enter one
when a single level is left. A document starts with `nestingLimit` levels, so a value that
nests `nestingLimit` arrays and objects or more is refused, however it is written and whatever it
holds: the reader reads the values before the deepest one and fails inside it.

`FailsAt r tok d` says that `r` fails when it starts where the bytes `tok` stand with exactly `d`
levels left, whatever follows them.
-/

namespace Quorum.Json

variable {α β : Type}

/-- The reader `r`, started where the bytes `tok` stand with `d` levels of nesting left, fails,
whatever bytes follow. -/
def FailsAt (r : ReadM α) (tok : List UInt8) (d : Nat) : Prop :=
  ∀ s rest, s.rest = tok ++ rest → s.depth = d → ∃ e s', r.run.run s = (.error e, s')

namespace FailsAt

variable {x : ReadM α} {f : α → ReadM β} {tok tok₁ tok₂ : List UInt8} {a : α}
  {F : List UInt8 → Prop} {d : Nat}

theorem extend (h : FailsAt x tok d) (more : List UInt8) : FailsAt x (tok ++ more) d := by
  intro s rest hs hd
  exact h s (more ++ rest) (by rw [hs, List.append_assoc]) hd

theorem bind_left (h : FailsAt x tok d) : FailsAt (x >>= f) tok d := by
  intro s rest hs hd
  obtain ⟨e, s', hrun⟩ := h s rest hs hd
  exact ⟨e, s', by rw [run_bind, hrun]⟩

theorem bind_right (hx : ReadsAt x tok₁ a F d) (hf : FailsAt (f a) tok₂ d)
    (hF : ∀ rest, F (tok₂ ++ rest)) : FailsAt (x >>= f) (tok₁ ++ tok₂) d := by
  intro s rest hs hd
  have hs' : s.rest = tok₁ ++ (tok₂ ++ rest) := by rw [hs, List.append_assoc]
  rw [run_bind, hx s (tok₂ ++ rest) hs' (hF rest) (Nat.le_of_eq hd.symm)]
  exact hf (s.advance tok₁.length) rest (Scan.rest_advance hs') hd

theorem nil_bind (hx : ReadsAt x [] a F d) (hf : FailsAt (f a) tok₂ d)
    (hF : ∀ rest, F (tok₂ ++ rest)) : FailsAt (x >>= f) tok₂ d :=
  bind_right hx hf hF

theorem fixPlace (h : FailsAt x tok d) : FailsAt (Json.fixPlace x) tok d := by
  intro s rest hs hd
  obtain ⟨⟨c, place⟩, s', hrun⟩ := h s rest hs hd
  unfold Json.fixPlace
  rw [run_bind, run_attempt, hrun]
  cases place <;> exact ⟨_, _, rfl⟩

theorem withEnd {body : ReadM α} {close : ReadM Unit} (h : FailsAt body tok₁ d) :
    FailsAt (Json.withEnd body close) (tok₁ ++ tok₂) d := by
  intro s rest hs hd
  obtain ⟨e, s', hrun⟩ := h s (tok₂ ++ rest) (by rw [hs, List.append_assoc]) hd
  unfold Json.withEnd
  rw [run_bind, run_attempt, hrun]
  exact ⟨e, _, rfl⟩

theorem enclosed_shallow {body : ReadM β} {close : ReadM Unit} {g : β → α} (hd : d ≤ 1) :
    FailsAt (do enter; bump; let x ← Json.withEnd body close; leave; pure (g x)) tok d := by
  intro s rest _ hdepth
  rw [run_bind]
  simp only [enter, run_bind, run_get, if_pos (show s.depth ≤ 1 by omega)]
  exact ⟨_, _, rfl⟩

theorem enclosed {body : ReadM β} {close : ReadM Unit} {g : β → α} {o : UInt8}
    (hbody : FailsAt body tok (d - 1)) (hd : 1 < d) :
    FailsAt (do enter; bump; let x ← Json.withEnd body close; leave; pure (g x)) ([o] ++ tok) d := by
  intro s rest hs hdepth
  have hinner : ({ s with depth := s.depth - 1 }.advance 1).rest = tok ++ rest :=
    Scan.rest_advance (show ({ s with depth := s.depth - 1 }).rest = [o] ++ (tok ++ rest) by
      rw [← List.append_assoc]; exact hs)
  have hend : FailsAt (Json.withEnd body close) (tok ++ []) (d - 1) := FailsAt.withEnd hbody
  obtain ⟨e, s', hrun⟩ := hend _ rest (by rw [List.append_nil]; exact hinner)
    (show s.depth - 1 = d - 1 by omega)
  rw [run_bind, run_enter (by omega)]
  dsimp only
  rw [run_bind, run_bump]
  dsimp only
  rw [run_bind, hrun]
  exact ⟨e, s', rfl⟩

end FailsAt

/-! ## Values, one kind at a time -/

section Values

variable {fuel d : Nat} {g : List UInt8}

theorem failsAt_readValue_object_shallow (hg : Blanks g) (hd : d ≤ 1) (tok : List UInt8) :
    FailsAt (readValue (fuel + 1)) (g ++ ([123] ++ tok)) d := by
  unfold readValue
  exact FailsAt.fixPlace (FailsAt.bind_right
    (ReadsAt.ofReads (reads_skipBlanks_over hg (b := 123) rfl) d) (FailsAt.enclosed_shallow hd)
    (fun _ => rfl))

theorem failsAt_readValue_array_shallow (hg : Blanks g) (hd : d ≤ 1) (tok : List UInt8) :
    FailsAt (readValue (fuel + 1)) (g ++ ([91] ++ tok)) d := by
  unfold readValue
  exact FailsAt.fixPlace (FailsAt.bind_right
    (ReadsAt.ofReads (reads_skipBlanks_over hg (b := 91) rfl) d) (FailsAt.enclosed_shallow hd)
    (fun _ => rfl))

theorem failsAt_readValue_object (hg : Blanks g) {mtok : List UInt8}
    (hmembers : FailsAt (readMembers fuel true []) mtok (d - 1)) (hd : 1 < d) (tok : List UInt8) :
    FailsAt (readValue (fuel + 1)) (g ++ ([123] ++ (mtok ++ tok))) d := by
  unfold readValue
  exact FailsAt.fixPlace (FailsAt.bind_right
    (ReadsAt.ofReads (reads_skipBlanks_over hg (b := 123) rfl) d)
    (FailsAt.enclosed (hmembers.extend tok) hd) (fun _ => rfl))

theorem failsAt_readValue_array (hg : Blanks g) {itok : List UInt8}
    (hitems : FailsAt (readItems fuel true #[]) itok (d - 1)) (hd : 1 < d) (tok : List UInt8) :
    FailsAt (readValue (fuel + 1)) (g ++ ([91] ++ (itok ++ tok))) d := by
  unfold readValue
  exact FailsAt.fixPlace (FailsAt.bind_right
    (ReadsAt.ofReads (reads_skipBlanks_over hg (b := 91) rfl) d)
    (FailsAt.enclosed (hitems.extend tok) hd) (fun _ => rfl))

end Values

/-! ## Values nested too deep -/

open Written in
mutual

theorem failsAt_readValue : {w : Written} → {v : List UInt8} → Spells w v → w.integral = true →
    (fuel d : Nat) → (g : List UInt8) → Blanks g → (g ++ v).length ≤ fuel + 1 → 0 < d →
    d ≤ w.nesting → FailsAt (readValue (fuel + 1)) (g ++ v) d
  | _, _, .null, _, _, _, _, _, _, hd, hle
  | _, _, .bool _, _, _, _, _, _, _, hd, hle
  | _, _, .number _, _, _, _, _, _, _, hd, hle
  | _, _, .string _, _, _, _, _, _, _, hd, hle => by
    simp only [nesting] at hle
    omega
  | _, _, @Spells.array _ body gap hitems _, hint, fuel, d, g, hg, hfuel, hd, hle => by
    simp only [List.length_append, List.length_cons, List.length_nil] at hfuel
    simp only [nesting] at hle
    rw [List.append_assoc body gap]
    by_cases hshallow : d ≤ 1
    · exact failsAt_readValue_array_shallow hg hshallow _
    · exact failsAt_readValue_array hg (failsAt_readItems hitems
        (by simpa only [integral] using hint) fuel (d - 1) #[] (by omega) (by omega) (by omega))
        (by omega) (gap ++ [93])
  | _, _, @Spells.object _ body gap hmembers _, hint, fuel, d, g, hg, hfuel, hd, hle => by
    simp only [List.length_append, List.length_cons, List.length_nil] at hfuel
    simp only [nesting] at hle
    rw [List.append_assoc body gap]
    by_cases hshallow : d ≤ 1
    · exact failsAt_readValue_object_shallow hg hshallow _
    · exact failsAt_readValue_object hg (failsAt_readMembers hmembers
        (by simpa only [integral] using hint) fuel (d - 1) [] (by omega) (by omega) (by omega))
        (by omega) (gap ++ [125])

theorem failsAt_readItems : {first : Bool} → {items : List Written} → {body : List UInt8} →
    ItemsSpell first items body → itemsIntegral items = true → (fuel d : Nat) →
    (acc : Array Value) → body.length < fuel → 0 < d → d ≤ itemsNesting items →
    FailsAt (readItems fuel first acc) body d
  | _, _, _, .nil, _, _, _, _, _, hd, hle => by
    simp only [itemsNesting] at hle
    omega
  | first, _, _, @ItemsSpell.cons _ w rest before after v body hbefore hafter hv hrest, hint, fuel,
      d, acc, hfuel, hd, hle => by
    simp only [itemsIntegral, Bool.and_eq_true] at hint
    simp only [itemsNesting] at hle
    obtain ⟨b, hb, hstart⟩ := hv.head?
    have hpos := hv.length_pos
    simp only [List.length_append] at hfuel
    obtain ⟨f, rfl⟩ : ∃ f, fuel = f + 1 := ⟨fuel - 1, by omega⟩
    obtain ⟨g, rfl⟩ : ∃ g, f = g + 1 := ⟨f - 1, by omega⟩
    unfold readItems
    refine FailsAt.bind_right (ReadsAt.ofReads (reads_nextItem first hbefore hafter hstart) d) ?_
      (fun _ => by rw [List.append_assoc, List.head?_append, hb]; rfl)
    by_cases hdeep : d ≤ w.nesting
    · -- this item is too deep
      exact FailsAt.bind_left ((failsAt_readValue hv hint.1 g d [] blanks_nil
        (by rw [List.nil_append]; omega) hd hdeep).extend body)
    · -- this item reads back, and a later one is too deep
      have hlater : d ≤ itemsNesting rest := by omega
      have hclose : ∀ r, Closing (body ++ r) := by
        cases hrest with
        | nil =>
          simp only [itemsNesting] at hlater
          omega
        | @cons _ _ _ before' _ _ _ hbefore' _ _ _ =>
          intro r
          simp only [separator_false, List.append_assoc]
          exact closing_blanks hbefore' ⟨44, rfl, .inr (.inl rfl)⟩
      exact FailsAt.bind_right (reads_readValue hv hint.1 g d [] blanks_nil
          (by rw [List.nil_append]; omega) (by omega))
        (failsAt_readItems hrest hint.2 (g + 1) d (acc.push w.value) (by omega) hd hlater) hclose

theorem failsAt_readMembers : {first : Bool} → {members : List (String × Written)} →
    {body : List UInt8} → MembersSpell first members body → membersIntegral members = true →
    (fuel d : Nat) → (acc : List (String × Value)) → body.length < fuel → 0 < d →
    d ≤ membersNesting members → FailsAt (readMembers fuel first acc) body d
  | _, _, _, .nil, _, _, _, _, _, hd, hle => by
    simp only [membersNesting] at hle
    omega
  | first, _, _, @MembersSpell.cons _ k w rest before after key beforeColon afterColon v body
      hbefore hafter hkey hbeforeColon hafterColon hv hrest, hint, fuel, d, acc, hfuel, hd,
      hle => by
    simp only [membersIntegral, Bool.and_eq_true] at hint
    simp only [membersNesting] at hle
    have hpos := hv.length_pos
    simp only [List.length_append, List.length_cons, List.length_nil] at hfuel
    obtain ⟨f, rfl⟩ : ∃ f, fuel = f + 1 := ⟨fuel - 1, by omega⟩
    obtain ⟨g, rfl⟩ : ∃ g, f = g + 1 := ⟨f - 1, by omega⟩
    have htok : before ++ separator first ++ after ++ ([34] ++ (key ++ [34])) ++
        (beforeColon ++ [58] ++ (afterColon ++ v ++ body)) =
        (before ++ separator first ++ after ++ ([34] ++ (key ++ [34]))) ++
          ((beforeColon ++ [58]) ++ ((afterColon ++ v) ++ body)) := by
      simp only [List.append_assoc]
    rw [htok]
    unfold readMembers
    refine FailsAt.bind_right (ReadsAt.ofReads (reads_nextKey first hbefore hafter hkey (by omega))
      d) ?_ (fun _ => trivial)
    refine FailsAt.bind_right (ReadsAt.ofReads (reads_expectColon hbeforeColon) d) ?_
      (fun _ => trivial)
    by_cases hdeep : d ≤ w.nesting
    · -- this member's value is too deep
      exact FailsAt.bind_left ((failsAt_readValue hv hint.1 g d afterColon hafterColon
        (by simp only [List.length_append]; omega) hd hdeep).extend body)
    · -- this member reads back, and a later one is too deep
      have hlater : d ≤ membersNesting rest := by omega
      have hclose : ∀ r, Closing (body ++ r) := by
        cases hrest with
        | nil =>
          simp only [membersNesting] at hlater
          omega
        | @cons _ _ _ _ before' _ _ _ _ _ _ hbefore' _ _ _ _ _ _ =>
          intro r
          simp only [separator_false, List.append_assoc]
          exact closing_blanks hbefore' ⟨44, rfl, .inr (.inl rfl)⟩
      exact FailsAt.bind_right (reads_readValue hv hint.1 g d afterColon hafterColon
          (by simp only [List.length_append]; omega) (by omega))
        (failsAt_readMembers hrest hint.2 (g + 1) d (Value.insertMember k w.value acc) (by omega)
          hd hlater) hclose

end

open Written in
theorem parseValue_object_deep {bytes : ByteArray} {members : List (String × Written)}
    {before v after : List UInt8} (hbefore : Blanks before) (hv : Spells (object members) v)
    (hbytes : bytes.data.toList = before ++ v ++ after) (hint : membersIntegral members = true)
    (hnest : nestingLimit ≤ (object members).nesting) : ∃ e, parseValue bytes = .error e := by
  have hsize : bytes.size = (before ++ v ++ after).length := by
    rw [← hbytes, Array.length_toList, ByteArray.size]
  have hfails := failsAt_readValue hv (by simpa only [integral] using hint) bytes.size
    nestingLimit before hbefore (by simp only [List.length_append] at hsize ⊢; omega) (by decide)
    hnest
  have hs : (⟨bytes, 0, nestingLimit⟩ : Scan).rest = before ++ v ++ after := by
    simp [Scan.rest, hbytes]
  obtain ⟨e, s', hrun⟩ := hfails _ after hs rfl
  unfold parseValue readDocument
  dsimp only
  rw [run_bind, hrun]
  exact ⟨e, rfl⟩

end Quorum.Json
