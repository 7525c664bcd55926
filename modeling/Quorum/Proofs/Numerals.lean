import Quorum.Numeral

/-!
# Decimal numerals read back

A natural number written in decimal reads back as itself at every width it fits in
(`Numeral.parse_repr`). The reading builds the value digit by digit and checks the bound after
each digit; the value only grows as digits are added, so the bound on the whole numeral covers
every step (`Numeral.ofDigitChars_le_append`).
-/

namespace Quorum

namespace Numeral

theorem ofDigitChars_le_append (p q : List Char) (init : Nat) :
    Nat.ofDigitChars 10 p init ≤ Nat.ofDigitChars 10 (p ++ q) init := by
  rw [Nat.ofDigitChars_append, Nat.ofDigitChars_eq_ofDigitChars_zero (l := q)]
  exact Nat.le_add_right_of_le (Nat.le_mul_of_pos_left _ (Nat.pow_pos (by decide)))

theorem readDigits_eq_ok {bits acc : Nat} {cs : List Char} (hd : ∀ c ∈ cs, c.isDigit = true)
    (hlt : Nat.ofDigitChars 10 cs acc < Nat.pow 2 bits) :
    readDigits bits acc cs = .ok (Nat.ofDigitChars 10 cs acc) := by
  induction cs generalizing acc with
  | nil => rfl
  | cons c cs ih =>
    have hstep := ofDigitChars_le_append [c] cs acc
    simp only [Nat.ofDigitChars_cons, Nat.ofDigitChars_nil, List.cons_append,
      List.nil_append] at hlt hstep ⊢
    have hv : acc * 10 + (c.toNat - '0'.toNat) < Nat.pow 2 bits := by
      rw [Nat.mul_comm]; omega
    simp only [readDigits, hd c (by simp), if_true, hv]
    rw [Nat.mul_comm]
    exact ih (fun x hx => hd x (by simp [hx])) hlt

theorem parse_repr {bits n : Nat} (h : n < Nat.pow 2 bits) : parse bits (Nat.repr n) = .ok n := by
  have hdigits : ∀ c ∈ Nat.toDigits 10 n, c.isDigit = true :=
    fun c hc => Nat.isDigit_of_mem_toDigits (by decide) (by decide) hc
  have hread := readDigits_eq_ok hdigits (by rwa [Nat.ofDigitChars_ten_toDigits])
  rw [Nat.ofDigitChars_ten_toDigits] at hread
  obtain ⟨c, cs, hcs⟩ := List.exists_cons_of_ne_nil (Nat.toDigits_ne_nil (b := 10) (n := n))
  -- a numeral starts with a digit, never with the sign that `parse` also accepts
  have hc : c ≠ '+' := by
    intro hplus
    have := hdigits c (by simp [hcs])
    simp [hplus] at this
  unfold parse
  rw [Nat.toList_repr, hcs]
  rw [hcs] at hread
  split
  · contradiction
  · rename_i h; simp at h; exact absurd h.1 hc
  · rename_i h; simp at h; exact absurd h.1 hc
  · exact hread

theorem parseU64_repr (i : UInt64) : parseU64 (Nat.repr i.toNat) = .ok i := by
  simp [parseU64, parse_repr (UInt64.toNat_lt i), Except.map]

end Numeral

end Quorum
