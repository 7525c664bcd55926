import Quorum.Coin
import Quorum.Proofs.Numerals
import Mathlib.Data.List.Induction
import Mathlib.Data.List.TakeWhile
import Mathlib.Tactic.SplitIfs

/-!
# Coin text

A coin is written as the decimal digits of its amount followed directly by its denomination, and
reading takes the longest run of digits as the amount. A denomination starts with a letter, so the
digits of a written amount are exactly that run: every coin reads back as itself, and a text that
reads as a coin is the coin's text with blanks around it and zeros before the amount.
-/

namespace Quorum

namespace Numeral

theorem digitsValue_eq_ofDigitChars (cs : List Char) :
    digitsValue cs = Nat.ofDigitChars 10 cs 0 := by
  have hstep : (fun (acc : Nat) (c : Char) => acc * 10 + (c.toNat - '0'.toNat)) =
      fun acc c => 10 * acc + (c.toNat - '0'.toNat) := by
    funext acc c
    rw [Nat.mul_comm]
  simp only [digitsValue, Nat.ofDigitChars, hstep]

theorem toNat_range_of_isDigit {c : Char} (h : c.isDigit = true) : 48 ≤ c.toNat ∧ c.toNat ≤ 57 := by
  simpa using Char.isDigit_iff_toNat.mp h

theorem digitChar_toNat_sub {c : Char} (h : c.isDigit = true) : (c.toNat - 48).digitChar = c := by
  have hr := toNat_range_of_isDigit h
  rw [← Char.toNat_inj, Nat.toNat_digitChar_of_lt_ten (by omega)]
  omega

theorem ofDigitChars_pos {c : Char} {cs : List Char} (hc : c.isDigit = true) (h0 : c ≠ '0') :
    0 < Nat.ofDigitChars 10 (c :: cs) 0 := by
  have hr := toNat_range_of_isDigit hc
  have hne : c.toNat ≠ 48 := fun h => h0 (Char.toNat_inj.mp h)
  rw [Nat.ofDigitChars_cons, Nat.ofDigitChars_eq_ofDigitChars_zero]
  have hpow : 0 < 10 ^ cs.length := Nat.pow_pos (by decide)
  have hlead : 0 < 10 * 0 + (c.toNat - '0'.toNat) := by simp; omega
  exact Nat.add_pos_left (Nat.mul_pos hpow hlead) _

theorem toDigits_ofDigitChars {ds : List Char} (hd : ∀ d ∈ ds, d.isDigit = true) (hne : ds ≠ [])
    (h0 : ds.head? ≠ some '0') : Nat.toDigits 10 (Nat.ofDigitChars 10 ds 0) = ds := by
  induction ds using List.reverseRecOn with
  | nil => exact absurd rfl hne
  | append_singleton init d ih =>
    have hdd : d.isDigit = true := hd d (by simp)
    have hlt : d.toNat - 48 < 10 := by have := toNat_range_of_isDigit hdd; omega
    have hlast : Nat.toDigits 10 (d.toNat - 48) = [d] := by
      rw [Nat.toDigits_of_lt_base hlt, digitChar_toNat_sub hdd]
    have h48 : '0'.toNat = 48 := rfl
    rw [Nat.ofDigitChars_append, Nat.ofDigitChars_cons, Nat.ofDigitChars_nil, h48]
    cases init with
    | nil => simpa using hlast
    | cons c cs =>
      have hc : c.isDigit = true := hd c (by simp)
      have hc0 : c ≠ '0' := fun h => h0 (by simp [h])
      -- the value is ten times the value of the digits before the last one, plus the last
      rw [← Nat.toDigits_append_toDigits (by decide) (ofDigitChars_pos hc hc0) hlt, hlast,
        ih (fun x hx => hd x (List.mem_append_left _ hx)) (by simp) (by simpa using hc0)]

theorem eq_zeros_append_toDigits {ds : List Char} (hd : ∀ d ∈ ds, d.isDigit = true)
    (hne : ds ≠ []) : ∃ k, ds = List.replicate k '0' ++ Nat.toDigits 10 (Nat.ofDigitChars 10 ds 0) := by
  induction ds with
  | nil => exact absurd rfl hne
  | cons c cs ih =>
    by_cases hc : c = '0'
    · subst hc
      cases cs with
      | nil => exact ⟨0, by decide⟩
      | cons c' cs' =>
        obtain ⟨k, hk⟩ := ih (fun x hx => hd x (by simp [hx])) (by simp)
        have hv : Nat.ofDigitChars 10 ('0' :: c' :: cs') 0 = Nat.ofDigitChars 10 (c' :: cs') 0 := by
          simp [Nat.ofDigitChars_cons]
        refine ⟨k + 1, ?_⟩
        rw [hv, List.replicate_succ, List.cons_append, ← hk]
    · exact ⟨0, (toDigits_ofDigitChars hd (by simp) (by simpa using hc)).symm⟩

theorem span_digits_append {ds r : List Char} (hd : ∀ d ∈ ds, d.isDigit = true)
    (hr : ∀ x ∈ r.head?, x.isDigit = false) :
    (ds ++ r).takeWhile Char.isDigit = ds ∧ (ds ++ r).dropWhile Char.isDigit = r := by
  rw [List.takeWhile_append_of_pos hd, List.dropWhile_append_of_pos hd]
  cases r with
  | nil => simp
  | cons x r => simp [hr x rfl]

end Numeral

namespace Text

theorem dropWhile_eq_self {p : Char → Bool} {l : List Char} (h : ∀ c ∈ l.head?, p c = false) :
    l.dropWhile p = l := by
  cases l with
  | nil => rfl
  | cons c r => simp [h c rfl]

theorem trimBlank_eq_self {s : String} (hhead : ∀ c ∈ s.toList.head?, isBlank c = false)
    (hlast : ∀ c ∈ s.toList.getLast?, isBlank c = false) : trimBlank s = s := by
  have hrev : ∀ c ∈ s.toList.reverse.head?, isBlank c = false := by
    rw [List.head?_reverse]; exact hlast
  rw [trimBlank, dropWhile_eq_self hhead, dropWhile_eq_self hrev, List.reverse_reverse,
    String.ofList_toList]

theorem isBlank_eq_false_of_range {c : Char} (h : 33 ≤ c.toNat ∧ c.toNat ≤ 127) :
    isBlank c = false := by
  simp only [isBlank, Bool.or_eq_false_iff, Bool.and_eq_false_iff, decide_eq_false_iff_not]
  omega

end Text

namespace Coin

theorem ext {a b : Coin} (hamount : a.amount = b.amount) (hdenom : a.denom = b.denom) : a = b := by
  cases a
  cases b
  simp_all

theorem toNat_range_of_isAlpha {c : Char} (h : c.isAlpha = true) :
    (65 ≤ c.toNat ∧ c.toNat ≤ 90) ∨ (97 ≤ c.toNat ∧ c.toNat ≤ 122) := by
  delta Char.isAlpha Char.isUpper Char.isLower at h
  simpa [UInt32.le_iff_toNat_le] using h

theorem toNat_range_of_denomChar {c : Char} (h : denomChar c = true) :
    33 ≤ c.toNat ∧ c.toNat ≤ 127 := by
  simp only [denomChar, Char.isAlphanum, Bool.or_eq_true, decide_eq_true_eq] at h
  rcases h with ((((hc | hc) | hc) | hc) | hc) | hc
  · rcases hc with hc | hc
    · have := toNat_range_of_isAlpha hc; omega
    · have := Numeral.toNat_range_of_isDigit hc; omega
  all_goals subst hc; decide

theorem denom_toList (c : Coin) :
    ∃ first rest, c.denom.toList = first :: rest ∧ first.isAlpha = true ∧
      ∀ x ∈ rest, denomChar x = true := by
  have h := c.denom_valid
  unfold validDenom at h
  cases hl : c.denom.toList with
  | nil => simp [hl] at h
  | cons first rest =>
    simp only [hl, Bool.and_eq_true, List.all_eq_true] at h
    exact ⟨first, rest, rfl, h.1.1.1, h.2⟩

theorem render_toList (c : Coin) : c.render.toList = Nat.toDigits 10 c.amount ++ c.denom.toList := by
  simp [render, Nat.toList_repr]

theorem parse_of_split {s : String} {ds : List Char} {x : Char} {r : List Char}
    (hs : (Text.trimBlank s).toList = ds ++ x :: r) (hd : ∀ d ∈ ds, d.isDigit = true)
    (hne : ds ≠ []) (hx : x.isDigit = false) :
    parse s = if h : Nat.ofDigitChars 10 ds 0 < amountBound then
      new? (Nat.ofDigitChars 10 ds 0) h (String.ofList (x :: r))
    else .error (.overflow (Text.trimBlank s)) := by
  obtain ⟨htake, hdrop⟩ := Numeral.span_digits_append hd (r := x :: r) (by simpa using hx)
  have hempty : (ds.isEmpty) = false := List.isEmpty_eq_false_iff.mpr hne
  unfold parse
  simp only [hs, htake, hdrop, List.isEmpty_cons, hempty, Bool.or_self, Bool.false_eq_true,
    if_false, Numeral.digitsValue_eq_ofDigitChars]

theorem split_or_format (s : String) :
    (∃ ds x r, (Text.trimBlank s).toList = ds ++ x :: r ∧ (∀ d ∈ ds, d.isDigit = true) ∧
      ds ≠ [] ∧ x.isDigit = false) ∨ parse s = .error (.format (Text.trimBlank s)) := by
  by_cases hsplit : ((Text.trimBlank s).toList.dropWhile Char.isDigit).isEmpty ||
      ((Text.trimBlank s).toList.takeWhile Char.isDigit).isEmpty
  · right
    unfold parse
    simp only [hsplit, if_true]
  · left
    simp only [Bool.or_eq_true, not_or, Bool.not_eq_true, List.isEmpty_eq_false_iff] at hsplit
    obtain ⟨hrest, hdigits⟩ := hsplit
    obtain ⟨x, r, hxr⟩ := List.exists_cons_of_ne_nil hrest
    have hx : x.isDigit = false := by
      have := List.head_dropWhile_not Char.isDigit hrest
      simp only [hxr, List.head_cons] at this
      simpa using this
    refine ⟨_, x, r, ?_, fun d hd => List.mem_takeWhile_imp hd, hdigits, hx⟩
    rw [← hxr, List.takeWhile_append_dropWhile]

theorem parse_render (c : Coin) : parse c.render = .ok c := by
  obtain ⟨first, rest, hden, halpha, hrest⟩ := c.denom_toList
  have hdigits : ∀ d ∈ Nat.toDigits 10 c.amount, d.isDigit = true :=
    fun d hd => Nat.isDigit_of_mem_toDigits (by decide) (by decide) hd
  have hfirst : first.isDigit = false := by
    have := toNat_range_of_isAlpha halpha
    cases h : first.isDigit
    · rfl
    · have := Numeral.toNat_range_of_isDigit h; omega
  have htrim : Text.trimBlank c.render = c.render := by
    have hlast : ∀ x ∈ (first :: rest).getLast?, Text.isBlank x = false := by
      intro x hx
      rcases List.mem_cons.mp (List.mem_of_getLast? hx) with rfl | hmem
      · have := toNat_range_of_isAlpha halpha
        exact Text.isBlank_eq_false_of_range (by omega)
      · exact Text.isBlank_eq_false_of_range (toNat_range_of_denomChar (hrest x hmem))
    apply Text.trimBlank_eq_self
    · obtain ⟨d, ds, hds⟩ := List.exists_cons_of_ne_nil (Nat.toDigits_ne_nil (b := 10) (n := c.amount))
      intro x hx
      rw [render_toList, hds] at hx
      simp only [List.cons_append, List.head?_cons, Option.mem_def, Option.some.injEq] at hx
      subst hx
      have := Numeral.toNat_range_of_isDigit (hdigits d (by simp [hds]))
      exact Text.isBlank_eq_false_of_range (by omega)
    · intro x hx
      rw [render_toList, hden, List.getLast?_append] at hx
      obtain ⟨y, hy⟩ := List.getLast?_isSome.mpr (List.cons_ne_nil first rest) |> Option.isSome_iff_exists.mp
      rw [hy, Option.some_or] at hx
      exact hlast x (by rw [hy]; exact hx)
  have hs : (Text.trimBlank c.render).toList = Nat.toDigits 10 c.amount ++ first :: rest := by
    rw [htrim, render_toList, hden]
  rw [parse_of_split hs hdigits Nat.toDigits_ne_nil hfirst, Nat.ofDigitChars_ten_toDigits,
    dif_pos c.amount_lt, ← hden, String.ofList_toList, new?, dif_pos c.denom_valid]

theorem trimBlank_eq_of_parse {s : String} {c : Coin} (h : parse s = .ok c) :
    ∃ k, Text.trimBlank s = String.ofList (List.replicate k '0') ++ c.render := by
  rcases split_or_format s with ⟨ds, x, r, hs, hd, hne, hx⟩ | hformat
  · rw [parse_of_split hs hd hne hx] at h
    split at h
    · rename_i hlt
      unfold new? at h
      split at h
      · obtain rfl := Except.ok.inj h
        obtain ⟨k, hk⟩ := Numeral.eq_zeros_append_toDigits hd hne
        refine ⟨k, String.toList_inj.mp ?_⟩
        rw [hs, String.toList_append, String.toList_ofList, render_toList, String.toList_ofList,
          ← List.append_assoc, ← hk]
      · cases h
    · cases h
  · rw [hformat] at h
    cases h

theorem parse_overflow_iff (s : String) :
    (∃ t, parse s = .error (.overflow t)) ↔
      ∃ ds x r, (Text.trimBlank s).toList = ds ++ x :: r ∧ ds ≠ [] ∧
        (∀ d ∈ ds, d.isDigit = true) ∧ x.isDigit = false ∧
        amountBound ≤ Nat.ofDigitChars 10 ds 0 := by
  constructor
  · rintro ⟨t, ht⟩
    rcases split_or_format s with ⟨ds, x, r, hs, hd, hne, hx⟩ | hformat
    · rw [parse_of_split hs hd hne hx] at ht
      split at ht
      · -- a valid amount gives a coin or a refused denomination, never an overflow
        unfold new? at ht
        split at ht <;> cases ht
      · rename_i hge
        exact ⟨ds, x, r, hs, hne, hd, hx, Nat.le_of_not_lt hge⟩
    · rw [hformat] at ht
      cases ht
  · rintro ⟨ds, x, r, hs, hne, hd, hx, hge⟩
    exact ⟨_, by rw [parse_of_split hs hd hne hx, dif_neg (Nat.not_lt_of_le hge)]⟩

theorem add?_eq_some_iff {x y c : Coin} :
    x.add? y = some c ↔
      x.denom = y.denom ∧ x.amount + y.amount < amountBound ∧ c.amount = x.amount + y.amount ∧
        c.denom = x.denom := by
  unfold add?
  split_ifs with hd hlt
  · constructor
    · rintro h
      obtain rfl := Option.some.inj h
      exact ⟨hd, hlt, rfl, rfl⟩
    · rintro ⟨-, -, ha, hn⟩
      exact congrArg some (ext ha.symm hn.symm)
  · simp [hd, hlt]
  · simp [hd]

theorem getD_add?_amount (x y : Coin) :
    ((x.add? y).getD x).amount =
      if x.denom = y.denom ∧ x.amount + y.amount < amountBound then x.amount + y.amount
      else x.amount := by
  unfold add?
  split_ifs with hd hlt <;> simp_all

/-- Coin text is a faithful encoding: every coin reads back from its text; a text that reads as a
coin is its text up to blanks around it and zeros before the amount; reading refuses an amount as
too large exactly when the trimmed text starts with digits worth more than `2 ^ 128 - 1` followed
by something else; and two coins add up exactly when they share a denomination and the sum fits
in 128 bits. -/
theorem text_encoding_faithful :
    (∀ c : Coin, parse c.render = .ok c) ∧
    (∀ (s : String) (c : Coin), parse s = .ok c →
      ∃ k, Text.trimBlank s = String.ofList (List.replicate k '0') ++ c.render) ∧
    (∀ s : String, (∃ t, parse s = .error (.overflow t)) ↔
      ∃ ds x r, (Text.trimBlank s).toList = ds ++ x :: r ∧ ds ≠ [] ∧
        (∀ d ∈ ds, d.isDigit = true) ∧ x.isDigit = false ∧
        amountBound ≤ Nat.ofDigitChars 10 ds 0) ∧
    (∀ x y : Coin, (∃ c, x.add? y = some c ∧ c.amount = x.amount + y.amount ∧ c.denom = x.denom) ↔
      x.denom = y.denom ∧ x.amount + y.amount < amountBound) := by
  refine ⟨parse_render, fun _ _ h => trimBlank_eq_of_parse h, parse_overflow_iff, fun x y => ?_⟩
  constructor
  · rintro ⟨c, hc, -⟩
    obtain ⟨hd, hlt, -⟩ := add?_eq_some_iff.mp hc
    exact ⟨hd, hlt⟩
  · rintro ⟨hd, hlt⟩
    exact ⟨⟨x.amount + y.amount, x.denom, hlt, x.denom_valid⟩, add?_eq_some_iff.mpr ⟨hd, hlt, rfl, rfl⟩,
      rfl, rfl⟩

example : (parse " 007uatom ").toOption.map render = some "7uatom" := by decide +kernel

end Coin

end Quorum
