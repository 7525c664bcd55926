import Quorum.Chain.Binary
import Quorum.Proofs.Coins

/-!
# The balance check before a delegation

Before a delegation is generated, the client asks the chain for the balance of the amount's
denomination and refuses a balance that falls short. The balance is compared with the amount plus
the fee when the fee is of the same denomination; a query that fails lets the delegation through.

The sum of amount and fee is taken with an addition that gives nothing when it overflows 128
bits, and the check then falls back to the amount alone, the same as for a fee of another
denomination. A balance is itself below `2 ^ 128`, so a delegation whose amount and fee add up
past `2 ^ 128 - 1` can never be paid for, yet it is refused only when the balance is below the
amount.
-/

namespace Quorum

namespace Numeral

theorem readDigits_lt {bits acc n : Nat} {cs : List Char} (hacc : acc < Nat.pow 2 bits)
    (h : readDigits bits acc cs = .ok n) : n < Nat.pow 2 bits := by
  induction cs generalizing acc with
  | nil =>
    obtain rfl := Except.ok.inj h
    exact hacc
  | cons c cs ih =>
    unfold readDigits at h
    split at h
    · dsimp only at h
      split at h
      · rename_i hv
        exact ih hv h
      · cases h
    · cases h

theorem parse_lt {bits n : Nat} {s : String} (h : parse bits s = .ok n) : n < Nat.pow 2 bits := by
  have hzero : 0 < Nat.pow 2 bits := Nat.pow_pos (by decide)
  unfold parse at h
  split at h
  · cases h
  · cases h
  · exact readDigits_lt hzero h
  · exact readDigits_lt hzero h

end Numeral

theorem parseBalance_lt {out : ByteArray} {denom : String} {n : Nat}
    (h : parseBalance out denom = .ok n) : n < amountBound := by
  unfold parseBalance at h
  split at h
  · cases h
  · split at h
    · cases h
    · split at h
      · rename_i m hm
        obtain rfl := Except.ok.inj h
        exact Numeral.parse_lt hm
      · cases h

namespace ChainBinary

variable {σ : Type} (answer : (r : Host.Request) → σ → Host.Reply r × σ)

theorem run_balance (b : ChainBinary) (address denom node : String) (s : σ) :
    Program.run answer (b.balance address denom node) s =
      match Program.run answer (b.run (["query", "bank", "balances", "--output", "json"] ++
          optionArgs "--node" (some node) ++ [address])) s with
      | (.ok (.ok out), s') => (.ok (parseBalance out denom), s')
      | (.ok (.error e), s') => (.ok (.error e), s')
      | (.error d, s') => (.error d, s') := by
  unfold balance
  refine (Program.run_bind answer _ _ s).trans ?_
  rcases Program.run answer (b.run _) s with ⟨(d | (e | out)), s'⟩ <;> rfl

theorem balance_lt {b : ChainBinary} {address denom node : String} {s s' : σ} {bal : Nat}
    (h : Program.run answer (b.balance address denom node) s = (.ok (.ok bal), s')) :
    bal < amountBound := by
  rw [run_balance] at h
  split at h
  · rename_i out _ _
    obtain ⟨hout, -⟩ := Prod.mk.inj h
    exact parseBalance_lt (Except.ok.inj hout)
  · cases (Prod.mk.inj h).1
  · cases (Prod.mk.inj h).1

theorem run_ensureBalance (b : ChainBinary) (address node : String) (amount fees : Coin) (s : σ) :
    Program.run answer (b.ensureBalance address node amount fees) s =
      match Program.run answer (b.balance address amount.denom node) s with
      | (.ok (.ok bal), s') =>
        (.ok (if bal < ((amount.add? fees).getD amount).amount then
            .error (.insufficientBalance (Nat.repr bal ++ amount.denom)
              ((amount.add? fees).getD amount).render)
          else .ok ()), s')
      | (.ok (.error _), s') => (.ok (.ok ()), s')
      | (.error d, s') => (.error d, s') := by
  unfold ensureBalance
  refine (Program.run_bind answer _ _ s).trans ?_
  rcases Program.run answer (b.balance address amount.denom node) s with ⟨(d | (e | bal)), s'⟩
  · rfl
  · rfl
  · dsimp only
    split <;> rfl

/-- Which balances the check refuses, for every host. A query that fails lets the delegation
pass. A balance that is read, always below `2 ^ 128`, is refused exactly when it is below the
amount plus the fee if they share a denomination and their sum fits in 128 bits, and below the
amount alone otherwise: for a sum past `2 ^ 128 - 1` too, which no balance covers. -/
theorem ensureBalance_decides (b : ChainBinary) (address node : String) (amount fees : Coin)
    (s : σ) :
    let query := Program.run answer (b.balance address amount.denom node) s
    let check := Program.run answer (b.ensureBalance address node amount fees) s
    (∀ e s', query = (.ok (.error e), s') → check = (.ok (.ok ()), s')) ∧
    (∀ bal s', query = (.ok (.ok bal), s') →
      bal < amountBound ∧ check.2 = s' ∧
      (check.1 = .ok (.ok ()) ∨
        ∃ shown required, check.1 = .ok (.error (.insufficientBalance shown required))) ∧
      ((∃ shown required, check.1 = .ok (.error (.insufficientBalance shown required))) ↔
        bal < if amount.denom = fees.denom ∧ amount.amount + fees.amount < amountBound then
          amount.amount + fees.amount else amount.amount)) := by
  dsimp only
  refine ⟨fun e s' hq => ?_, fun bal s' hq => ?_⟩
  · rw [run_ensureBalance, hq]
  · rw [run_ensureBalance, hq]
    dsimp only
    rw [← Coin.getD_add?_amount]
    refine ⟨balance_lt answer hq, rfl, ?_, ?_⟩
    · split
      · exact .inr ⟨_, _, rfl⟩
      · exact .inl rfl
    · split
      · rename_i hlt
        exact ⟨fun _ => hlt, fun _ => ⟨_, _, rfl⟩⟩
      · rename_i hge
        refine ⟨?_, fun hlt => absurd hlt hge⟩
        rintro ⟨_, _, h⟩
        cases h

end ChainBinary

namespace Sample

/-- A host whose every program prints `out` and succeeds; it has no files, scratch directories,
environment or input. -/
def printing (out : ByteArray) : (c : Host.Request) → Unit → Host.Reply c × Unit
  | .fs _, u => (.error (.other "no file system"), u)
  | .run _ _ _, u => (.finished ⟨0, out, ByteArray.empty⟩, u)
  | .scratchDir _, u => (.error (.other "no scratch directory"), u)
  | .env _, u => (none, u)
  | .environment, u => ([], u)
  | .readLine, u => ("", u)
  | .write _ _, u => ((), u)
  | .workDir, u => ([], u)
  | .now, u => ((0 : Int), u)

def client : ChainBinary := { binary := "fakechaind" }

def fullBalance : ByteArray :=
  "\x7b\"balances\":[\x7b\"denom\":\"uatom\",\"amount\":\"340282366920938463463374607431768211455\"\x7d]\x7d".toUTF8

def largestAtoms : Coin := ⟨amountBound - 1, "uatom", by decide, by decide⟩

def oneAtom : Coin := ⟨1, "uatom", by decide, by decide⟩

theorem parseBalance_fullBalance : parseBalance fullBalance "uatom" = .ok (amountBound - 1) := by
  have h : (parseBalance fullBalance "uatom").toOption = some (amountBound - 1) := by
    decide +kernel
  revert h
  cases parseBalance fullBalance "uatom" <;> simp [Except.toOption]

theorem run_client_printing (out : ByteArray) (args : List String) :
    Program.run (printing out) (client.run args) () = (.ok (.ok out), ()) := rfl

theorem run_balance_fullBalance (address node : String) :
    Program.run (printing fullBalance) (client.balance address "uatom" node) () =
      (.ok (.ok (amountBound - 1)), ()) := by
  rw [ChainBinary.run_balance, run_client_printing]
  dsimp only
  rw [parseBalance_fullBalance]

end Sample

namespace ChainBinary

/-- A witness of `ensureBalance_decides`: on the host that prints the largest balance, the query
gives that balance, and the check of one `uatom` with a fee of one `uatom` passes, the balance
covering their sum. -/
theorem ensureBalance_decides_on_full_balance :
    Program.run (Sample.printing Sample.fullBalance)
      (Sample.client.balance "cosmos1multi" Sample.oneAtom.denom "http://n") () =
        (.ok (.ok (amountBound - 1)), ()) ∧
      (Program.run (Sample.printing Sample.fullBalance)
        (Sample.client.ensureBalance "cosmos1multi" "http://n" Sample.oneAtom Sample.oneAtom) ()).1 =
          .ok (.ok ()) := by
  have hq := Sample.run_balance_fullBalance "cosmos1multi" "http://n"
  refine ⟨hq, ?_⟩
  obtain ⟨-, -, hpass | ⟨shown, required, hrefused⟩, hiff⟩ :=
    (ensureBalance_decides (Sample.printing Sample.fullBalance) Sample.client "cosmos1multi"
      "http://n" Sample.oneAtom Sample.oneAtom ()).2 (amountBound - 1) () hq
  · exact hpass
  · have hlt := hiff.mp ⟨shown, required, hrefused⟩
    simp [Sample.oneAtom, amountBound] at hlt

/-- The check lets through a delegation that no balance can pay for: the largest amount with a
fee of one in the same denomination, against the largest balance, which is below their sum. -/
theorem unpayable_delegation_passes_balance_check :
    Sample.largestAtoms.denom = Sample.oneAtom.denom ∧
      Program.run (Sample.printing Sample.fullBalance)
        (Sample.client.balance "cosmos1multi" Sample.largestAtoms.denom "http://n") () =
          (.ok (.ok (amountBound - 1)), ()) ∧
      amountBound - 1 < Sample.largestAtoms.amount + Sample.oneAtom.amount ∧
      Program.run (Sample.printing Sample.fullBalance)
        (Sample.client.ensureBalance "cosmos1multi" "http://n" Sample.largestAtoms Sample.oneAtom)
          () = (.ok (.ok ()), ()) := by
  have hq : Program.run (Sample.printing Sample.fullBalance)
      (Sample.client.balance "cosmos1multi" Sample.largestAtoms.denom "http://n") () =
        (.ok (.ok (amountBound - 1)), ()) :=
    Sample.run_balance_fullBalance "cosmos1multi" "http://n"
  refine ⟨rfl, hq, by simp [Sample.largestAtoms, Sample.oneAtom, amountBound], ?_⟩
  rw [run_ensureBalance, hq]
  dsimp only
  -- the sum overflows, so the balance is compared with the amount alone
  have hsum : ((Sample.largestAtoms.add? Sample.oneAtom).getD Sample.largestAtoms).amount =
      amountBound - 1 := by
    rw [Coin.getD_add?_amount, if_neg]
    · rfl
    · simp [Sample.largestAtoms, Sample.oneAtom, amountBound]
  simp only [hsum, Nat.lt_irrefl, if_false]

end ChainBinary

end Quorum
