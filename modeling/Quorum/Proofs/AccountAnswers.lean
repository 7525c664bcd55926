import Quorum.Chain.Account
import Quorum.Proofs.NestingLimit
import Quorum.Proofs.Numerals

/-!
# Account numbers from an account answer

The answer to an account query is a JSON object. A base account holds its account number and
sequence itself; a vesting account keeps its base account at `base_vesting_account.base_account`,
and an Ethereum-style account, one whose type contains `EthAccount`, at `base_account`. An answer
may wrap the account in envelopes: objects that hold it as their `account` and have no `@type`
text. A number is a JSON integer or a decimal text, and a sequence of zero may be left out or
null.

Such an answer, however it is written, with blanks anywhere, any escapes in its strings and every
number an integer from `-2 ^ 63` to `2 ^ 64 - 1`, gives back its numbers exactly when it nests
fewer than `nestingLimit` objects and arrays. Each envelope is one more level, so a base account
in 127 envelopes is not read at all. Every refusal is `unparsable`: an account of another type, a
base account without an account number, and a number that is neither an integer below `2 ^ 64`
nor a decimal text of one are refused so.
-/
namespace Quorum

open Json

/-! ## Pointers -/

namespace Json.Value

theorem step?_eq_get? {t : String} (ht : index? t = none) (u : Value) : u.step? t = u.get? t := by
  cases u <;> simp [step?, get?, ht]

theorem pointer?_base_vesting (v : Value) :
    v.pointer? "/base_vesting_account/base_account" =
      (v.get? "base_vesting_account").bind (·.get? "base_account") := by
  have hempty : "/base_vesting_account/base_account".isEmpty = false := by decide +kernel
  have hsplit : "/base_vesting_account/base_account".toList.splitOn '/' =
      [[], "base_vesting_account".toList, "base_account".toList] := by decide +kernel
  have hvesting : unescapeToken (String.ofList "base_vesting_account".toList) =
      "base_vesting_account" := by decide +kernel
  have hbase : unescapeToken (String.ofList "base_account".toList) = "base_account" := by
    decide +kernel
  have hstep₁ := step?_eq_get? (t := "base_vesting_account") (by decide +kernel)
  have hstep₂ := step?_eq_get? (t := "base_account") (by decide +kernel)
  unfold pointer?
  rw [hempty, hsplit]
  simp only [Bool.false_eq_true, if_false, List.foldlM_cons, List.foldlM_nil, hvesting, hbase,
    hstep₁, hstep₂]
  cases v.get? "base_vesting_account" <;> simp

end Json.Value

/-! ## Account answers -/

/-- How a base account writes a 64-bit number: as a JSON integer or as a decimal text. -/
def WritesNumber (n : UInt64) (v : Value) : Prop :=
  v = .number (.nat n.toNat) ∨ v = .string (Nat.repr n.toNat)

/-- A base account holding account number `a` and sequence `s`: the account number is written,
and so is the sequence, unless it is zero and left out or null. -/
def HoldsNumbers (a s : UInt64) (b : Value) : Prop :=
  (∃ v, b.get? "account_number" = some v ∧ WritesNumber a v) ∧
    ((∃ v, b.get? "sequence" = some v ∧ WritesNumber s v) ∨
      (s = 0 ∧ (b.get? "sequence" = none ∨ b.get? "sequence" = some .null)))

/-- Where an account of type `kind` keeps its base account `b`. -/
inductive KeepsBase (v : Value) : String → Value → Prop
  | base : KeepsBase v baseAccountType v
  | vesting {kind : String} {vesting b : Value} : kind ∈ vestingAccountTypes →
      v.get? "base_vesting_account" = some vesting → vesting.get? "base_account" = some b →
      KeepsBase v kind b
  | ethereum {kind : String} {b : Value} : "EthAccount".toList <:+: kind.toList →
      v.get? "base_account" = some b → KeepsBase v kind b

/-- An account answer holding account number `a` and sequence `s` in `n` envelopes. -/
inductive AccountAnswer (a s : UInt64) : Nat → Value → Prop
  | account {v b : Value} {kind : String} : v.get? "@type" = some (.string kind) →
      KeepsBase v kind b → HoldsNumbers a s b → AccountAnswer a s 0 v
  | envelope {v inner : Value} {n : Nat} : (v.get? "@type").bind Value.asString? = none →
      v.get? "account" = some inner → AccountAnswer a s n inner → AccountAnswer a s (n + 1) v

/-- A member that is not a 64-bit number: neither null, nor a natural number below `2 ^ 64`, nor
a text that reads as one. -/
def NotInteger : Value → Prop
  | .null => False
  | .number (.nat n) => Nat.pow 2 64 ≤ n
  | .string t => ∀ n, Numeral.parseU64 t ≠ .ok n
  | _ => True

/-- A base account whose numbers are refused: the account number is missing, or one of the two
numbers is not an integer. -/
def BadNumbers (b : Value) : Prop :=
  (b.get? "account_number" = none ∨ b.get? "account_number" = some .null) ∨
    (∃ x, b.get? "account_number" = some x ∧ NotInteger x) ∨
    (∃ x, b.get? "sequence" = some x ∧ NotInteger x)

/-- An answer that is refused, inside envelopes: an account of a type that is not supported, or of
a supported type whose base account has bad numbers. -/
inductive RefusedAnswer : Value → Prop
  | otherKind {v : Value} {kind : String} : v.get? "@type" = some (.string kind) →
      kind ≠ baseAccountType → kind ∉ vestingAccountTypes → ¬ "EthAccount".toList <:+: kind.toList →
      RefusedAnswer v
  | badNumbers {v b : Value} {kind : String} : v.get? "@type" = some (.string kind) →
      KeepsBase v kind b → BadNumbers b → RefusedAnswer v
  | envelope {v inner : Value} : (v.get? "@type").bind Value.asString? = none →
      v.get? "account" = some inner → RefusedAnswer inner → RefusedAnswer v

/-! ## Numbers of a base account -/

section Numbers

variable {b v : Value} {field : String}

theorem numberMember_of_writes {n : UInt64} (hget : b.get? field = some v) (hw : WritesNumber n v) :
    numberMember b field = .ok (some n) := by
  unfold numberMember
  rcases hw with rfl | rfl
  · have hlt : n.toNat < Nat.pow 2 64 := n.toNat_lt
    simp [hget, hlt]
  · simp [hget, Numeral.parseU64_repr]

theorem numberMember_of_absent (h : b.get? field = none ∨ b.get? field = some .null) :
    numberMember b field = .ok none := by
  unfold numberMember
  rcases h with h | h <;> rw [h]

theorem numberMember_of_notInteger (hget : b.get? field = some v) (hv : NotInteger v) :
    numberMember b field = .error (.unparsable (field ++ " is not an integer")) := by
  unfold numberMember
  dsimp only
  rw [hget]
  match v, hv with
  | .number (.nat n), hv => simp [Nat.not_lt.mpr hv]
  | .number (.neg _), _ | .number (.double _), _ | .bool _, _ | .array _, _ | .object _, _ => rfl
  | .string t, hv =>
    cases hp : Numeral.parseU64 t with
    | error _ =>
      dsimp only
      rw [hp]
    | ok n => exact absurd hp (hv n)

theorem numberMember_error {e : ChainError} (h : numberMember b field = .error e) :
    ∃ m, e = .unparsable m := by
  unfold numberMember at h
  dsimp only at h
  split at h
  · cases h
  · cases h
  · split at h
    · cases h
    · exact ⟨_, (Except.error.inj h).symm⟩
  · split at h
    · cases h
    · exact ⟨_, (Except.error.inj h).symm⟩
  · exact ⟨_, (Except.error.inj h).symm⟩

theorem baseNumbers_of_holds {a s : UInt64} (h : HoldsNumbers a s b) :
    baseNumbers b = .ok ⟨a, s⟩ := by
  obtain ⟨⟨v, hv, hw⟩, hseq⟩ := h
  unfold baseNumbers
  rw [numberMember_of_writes hv hw]
  rcases hseq with ⟨v', hv', hw'⟩ | ⟨rfl, habsent⟩
  · rw [numberMember_of_writes hv' hw']
    rfl
  · rw [numberMember_of_absent habsent]
    rfl

theorem baseNumbers_error {e : ChainError} (h : baseNumbers b = .error e) :
    ∃ m, e = .unparsable m := by
  unfold baseNumbers at h
  cases hn : numberMember b "account_number" with
  | error e' =>
    rw [hn] at h
    have he : e' = e := Except.error.inj h
    subst he
    exact numberMember_error hn
  | ok number =>
    rw [hn] at h
    cases number with
    | none => exact ⟨_, (Except.error.inj h).symm⟩
    | some n =>
      cases hs : numberMember b "sequence" with
      | error e' =>
        rw [hs] at h
        have he : e' = e := Except.error.inj h
        subst he
        exact numberMember_error hs
      | ok sequence =>
        rw [hs] at h
        cases h

theorem baseNumbers_of_bad (h : BadNumbers b) : ∃ e, baseNumbers b = .error e := by
  rcases h with hmissing | ⟨x, hx, hbad⟩ | ⟨x, hx, hbad⟩
  · refine ⟨.unparsable "account number is missing", ?_⟩
    unfold baseNumbers
    rw [numberMember_of_absent hmissing]
    rfl
  · refine ⟨.unparsable ("account_number" ++ " is not an integer"), ?_⟩
    unfold baseNumbers
    rw [numberMember_of_notInteger hx hbad]
    rfl
  · -- the account number is read or refused first; then the sequence is refused
    unfold baseNumbers
    cases hn : numberMember b "account_number" with
    | error e => exact ⟨e, rfl⟩
    | ok number =>
      cases number with
      | none => exact ⟨_, rfl⟩
      | some n =>
        refine ⟨.unparsable ("sequence" ++ " is not an integer"), ?_⟩
        show (do
          let sequence ← numberMember b "sequence"
          return (⟨n, sequence.getD 0⟩ : AccountNumbers)) = _
        rw [numberMember_of_notInteger hx hbad]
        rfl

end Numbers

/-! ## Kinds of account -/

theorem baseAccountType_not_vesting : baseAccountType ∉ vestingAccountTypes := by decide +kernel

theorem not_ethereum_of_supported {kind : String}
    (h : kind = baseAccountType ∨ kind ∈ vestingAccountTypes) :
    ¬ "EthAccount".toList <:+: kind.toList := by
  have hbase : ¬ "EthAccount".toList <:+: baseAccountType.toList := by decide +kernel
  have hvesting : ∀ k ∈ vestingAccountTypes, ¬ "EthAccount".toList <:+: k.toList := by
    decide +kernel
  rcases h with rfl | h
  · exact hbase
  · exact hvesting kind h

theorem containsText_eq_true_iff {s part : String} :
    containsText s part = true ↔ part.toList <:+: s.toList :=
  String.contains_string_iff

theorem accountBase_of_keeps {v b : Value} {kind : String} (h : KeepsBase v kind b) :
    accountBase kind v = .ok b := by
  unfold accountBase
  cases h with
  | base => rw [if_pos rfl]
  | vesting hkind hv hb =>
    have hne : kind ≠ baseAccountType := fun h => baseAccountType_not_vesting (h ▸ hkind)
    rw [if_neg hne, if_pos (List.contains_iff_mem.mpr hkind), Value.pointer?_base_vesting, hv]
    simp [hb]
  | ethereum hinfix hb =>
    have hne : kind ≠ baseAccountType := fun h => not_ethereum_of_supported (.inl h) hinfix
    have hnv : kind ∉ vestingAccountTypes := fun h => not_ethereum_of_supported (.inr h) hinfix
    rw [if_neg hne, if_neg (by simpa using hnv), if_pos (containsText_eq_true_iff.mpr hinfix), hb]

theorem accountBase_of_other {v : Value} {kind : String} (hbase : kind ≠ baseAccountType)
    (hvesting : kind ∉ vestingAccountTypes) (heth : ¬ "EthAccount".toList <:+: kind.toList) :
    accountBase kind v = .error (.unparsable ("cannot parse account type " ++ kind)) := by
  unfold accountBase
  have hcontains : containsText kind "EthAccount" = false :=
    Bool.eq_false_iff.mpr fun h => heth (containsText_eq_true_iff.mp h)
  rw [if_neg hbase, if_neg (by simpa using hvesting), hcontains]
  rfl

theorem accountBase_error {v : Value} {kind : String} {e : ChainError}
    (h : accountBase kind v = .error e) : ∃ m, e = .unparsable m := by
  unfold accountBase at h
  dsimp only at h
  split at h
  · cases h
  · split at h
    · split at h
      · cases h
      · exact ⟨_, (Except.error.inj h).symm⟩
    · split at h
      · split at h
        · cases h
        · exact ⟨_, (Except.error.inj h).symm⟩
      · exact ⟨_, (Except.error.inj h).symm⟩

/-! ## Envelopes -/

section Envelopes

variable {v : Value} {fuel : Nat}

theorem numbersOf_typed {kind : String} (h : (v.get? "@type").bind Value.asString? = some kind) :
    numbersOf (fuel + 1) v = (accountBase kind v).bind baseNumbers := by
  unfold numbersOf
  rw [h]

theorem numbersOf_envelope {inner : Value} (hnone : (v.get? "@type").bind Value.asString? = none)
    (hinner : v.get? "account" = some inner) : numbersOf (fuel + 1) v = numbersOf fuel inner := by
  rw [numbersOf, hnone, hinner]

theorem kind_of_get? {kind : String} (h : v.get? "@type" = some (.string kind)) :
    (v.get? "@type").bind Value.asString? = some kind := by
  rw [h]
  rfl

theorem numbersOf_of_answer {a s : UInt64} {n : Nat} (h : AccountAnswer a s n v) (hfuel : n < fuel) :
    numbersOf fuel v = .ok ⟨a, s⟩ := by
  induction h generalizing fuel with
  | account htype hkeeps hholds =>
    obtain ⟨f, rfl⟩ : ∃ f, fuel = f + 1 := ⟨fuel - 1, by omega⟩
    rw [numbersOf_typed (kind_of_get? htype), accountBase_of_keeps hkeeps]
    exact baseNumbers_of_holds hholds
  | envelope hnone hinner _ ih =>
    obtain ⟨f, rfl⟩ : ∃ f, fuel = f + 1 := ⟨fuel - 1, by omega⟩
    rw [numbersOf_envelope hnone hinner]
    exact ih (by omega)

theorem numbersOf_refused (h : RefusedAnswer v) (fuel : Nat) :
    ∃ m, numbersOf fuel v = .error (.unparsable m) := by
  induction h generalizing fuel with
  | otherKind htype hbase hvesting heth =>
    cases fuel with
    | zero => exact ⟨_, rfl⟩
    | succ f =>
      rw [numbersOf_typed (kind_of_get? htype), accountBase_of_other hbase hvesting heth]
      exact ⟨_, rfl⟩
  | badNumbers htype hkeeps hbad =>
    cases fuel with
    | zero => exact ⟨_, rfl⟩
    | succ f =>
      rw [numbersOf_typed (kind_of_get? htype), accountBase_of_keeps hkeeps]
      obtain ⟨e, he⟩ := baseNumbers_of_bad hbad
      obtain ⟨m, rfl⟩ := baseNumbers_error he
      exact ⟨m, he⟩
  | envelope hnone hinner _ ih =>
    cases fuel with
    | zero => exact ⟨_, rfl⟩
    | succ f =>
      rw [numbersOf_envelope hnone hinner]
      exact ih f

theorem numbersOf_error {e : ChainError} (h : numbersOf fuel v = .error e) :
    ∃ m, e = .unparsable m := by
  induction fuel generalizing v with
  | zero => exact ⟨_, (Except.error.inj h).symm⟩
  | succ f ih =>
    unfold numbersOf at h
    split at h
    · exact ih h
    · cases hbase : accountBase _ v with
      | error e' =>
        rw [hbase] at h
        have he : e' = e := Except.error.inj h
        subst he
        exact accountBase_error hbase
      | ok b =>
        rw [hbase] at h
        exact baseNumbers_error h
    · exact ⟨_, (Except.error.inj h).symm⟩

end Envelopes

/-! ## Written answers -/

namespace Json.Written

theorem eq_object_of_get? {w : Written} {k : String} {x : Value} (h : w.value.get? k = some x) :
    ∃ ms, w = object ms := by
  cases w with
  | object ms => exact ⟨ms, rfl⟩
  | _ => simp [value, Value.get?] at h

end Json.Written

theorem AccountAnswer.eq_object {a s : UInt64} {n : Nat} {w : Written}
    (h : AccountAnswer a s n w.value) : ∃ ms, w = .object ms := by
  cases h with
  | account htype _ _ => exact Written.eq_object_of_get? htype
  | envelope _ hinner _ => exact Written.eq_object_of_get? hinner

theorem AccountAnswer.lt_nesting {a s : UInt64} {n : Nat} {w : Written}
    (h : AccountAnswer a s n w.value) : n < w.nesting := by
  generalize hv : w.value = v at h
  induction h generalizing w with
  | account htype _ _ =>
    subst hv
    obtain ⟨ms, rfl⟩ := Written.eq_object_of_get? htype
    simp [Written.nesting]
  | envelope _ hinner _ ih =>
    subst hv
    obtain ⟨ms, rfl⟩ := Written.eq_object_of_get? hinner
    obtain ⟨w', hmem, hw'⟩ := Written.get?_value hinner
    have hle := Written.nesting_le_membersNesting hmem
    have := ih hw'
    simp only [Written.nesting]
    omega

theorem parseAccount_of_json {out : ByteArray} {v : Value} (h : parseValue out = .ok v) :
    parseAccount out = numbersOf (out.size + 2) v := by
  unfold parseAccount
  rw [h]

theorem parseAccount_of_not_json {out : ByteArray} {e : Error} (h : parseValue out = .error e) :
    parseAccount out = .error (.unparsable ("account query output is not JSON: " ++ e.message)) := by
  unfold parseAccount
  rw [h]

theorem parseAccount_written {a s : UInt64} {n : Nat} {w : Written} {before v after : List UInt8}
    {out : ByteArray} (hbefore : Blanks before) (hv : Written.Spells w v) (hafter : Blanks after)
    (hout : out.data.toList = before ++ v ++ after) (hint : w.integral = true)
    (h : AccountAnswer a s n w.value) :
    parseAccount out = .ok ⟨a, s⟩ ↔ w.nesting < nestingLimit := by
  obtain ⟨ms, rfl⟩ := h.eq_object
  have hms : Written.membersIntegral ms = true := by simpa only [Written.integral] using hint
  rcases Nat.lt_or_ge (Written.object ms).nesting nestingLimit with hnest | hdeep
  · refine ⟨fun _ => hnest, fun _ => ?_⟩
    rw [parseAccount_of_json (parseValue_object hbefore hv hafter hout hms hnest)]
    -- an envelope per level at most, and a level per byte at most
    have hsize : out.size = (before ++ v ++ after).length := by
      rw [← hout, Array.length_toList, ByteArray.size]
    have hlevels := hv.nesting_le
    have henvelopes := h.lt_nesting
    simp only [List.length_append] at hsize
    exact numbersOf_of_answer h (by omega)
  · refine ⟨fun hok => ?_, fun hlt => absurd hlt (Nat.not_lt.mpr hdeep)⟩
    obtain ⟨e, he⟩ := parseValue_object_deep hbefore hv hout hms hdeep
    rw [parseAccount_of_not_json he] at hok
    cases hok

theorem parseAccount_error {out : ByteArray} {e : ChainError} (h : parseAccount out = .error e) :
    ∃ m, e = .unparsable m := by
  unfold parseAccount at h
  split at h
  · exact ⟨_, (Except.error.inj h).symm⟩
  · exact numbersOf_error h

/-- Account numbers are recovered from every supported account answer whose numbers are
integers, however it is written and among blanks, exactly when it nests fewer than `nestingLimit`
levels; every refused answer gives an `unparsable` failure, and so does every failure. -/
theorem account_numbers_recovered :
    (∀ (a s : UInt64) (n : Nat) (w : Written) (before v after : List UInt8) (out : ByteArray),
      Blanks before → Written.Spells w v → Blanks after → out.data.toList = before ++ v ++ after →
      w.integral = true → AccountAnswer a s n w.value →
        (parseAccount out = .ok ⟨a, s⟩ ↔ w.nesting < nestingLimit)) ∧
    (∀ (out : ByteArray) (v : Value), parseValue out = .ok v → RefusedAnswer v →
      ∃ m, parseAccount out = .error (.unparsable m)) ∧
    (∀ (out : ByteArray) (e : ChainError), parseAccount out = .error e → ∃ m, e = .unparsable m) := by
  refine ⟨fun a s n w before v after out hbefore hv hafter hout hint h =>
    parseAccount_written hbefore hv hafter hout hint h, ?_,
    fun out e h => parseAccount_error h⟩
  intro out v hv hrefused
  rw [parseAccount_of_json hv]
  exact numbersOf_refused hrefused _

/-! ## Answers nested too deep -/

namespace Sample

/-- A base account with account number `5` written as a decimal text and no sequence. -/
def baseAnswer : Written :=
  .object [("@type", .string baseAccountType), ("account_number", .string "5")]

/-- `baseAnswer` written with blanks and its account number as a `\u` escape. -/
def baseText : String :=
  "\x7b \"@type\": \"/cosmos.auth.v1beta1.BaseAccount\",\n  \"account_number\": \"\\u0035\" \x7d"

theorem baseText_spells : Written.Spells baseAnswer (Written.bytesOf baseText) := by
  have hspace : Blanks [32] := by decide
  have hbreak : Blanks [10, 32, 32] := by decide
  have hfive : StringSpells ['5'] ((92 :: 117 :: unitDigits (fun _ => false) '5'.toNat) ++ []) :=
    .cons (.unit _ (by decide)) .nil
  have h : Written.Spells baseAnswer _ :=
    .object (.cons hspace blanks_nil (stringSpells_escapedBytes "@type") blanks_nil hspace
      (.string (stringSpells_escapedBytes baseAccountType))
      (.cons blanks_nil hbreak (stringSpells_escapedBytes "account_number") blanks_nil hspace
        (.string hfive) .nil)) hspace
  exact (congrArg (Written.Spells baseAnswer) (by decide +kernel)).mpr h

def moduleAnswer : Written :=
  .object [("@type", .string "/cosmos.auth.v1beta1.ModuleAccount"), ("account_number", .string "5")]

def wrapped : Nat → Written → Written
  | 0, w => w
  | k + 1, w => .object [("account", wrapped k w)]

def output (w : Written) : ByteArray := ⟨w.bytes.toArray⟩

theorem output_data (w : Written) : (output w).data.toList = [] ++ w.bytes ++ [] := by
  simp [output]

theorem baseAnswer_answer : AccountAnswer 5 0 0 baseAnswer.value :=
  .account rfl .base ⟨⟨.string "5", rfl, .inr rfl⟩, .inr ⟨rfl, .inl rfl⟩⟩

theorem answer_wrapped {a s : UInt64} {n : Nat} {w : Written} (h : AccountAnswer a s n w.value) :
    ∀ k, AccountAnswer a s (n + k) (wrapped k w).value
  | 0 => h
  | k + 1 => .envelope rfl rfl (answer_wrapped h k)

theorem nesting_wrapped (w : Written) : ∀ k, (wrapped k w).nesting = w.nesting + k
  | 0 => rfl
  | k + 1 => by
    simp only [wrapped, Written.nesting, Written.membersNesting, nesting_wrapped w k]
    omega

theorem integral_wrapped (w : Written) : ∀ k, (wrapped k w).integral = w.integral
  | 0 => rfl
  | k + 1 => by
    simp only [wrapped, Written.integral, Written.membersIntegral, integral_wrapped w k,
      Bool.and_true]

end Sample

/-- A witness of `account_numbers_recovered`: a base account answer, spaced and with an escape,
gives its numbers, and an account of another type is refused. -/
theorem account_numbers_recovered_on_samples :
    parseAccount Sample.baseText.toUTF8 = .ok ⟨5, 0⟩ ∧
      ∃ m, parseAccount (Sample.output Sample.moduleAnswer) = .error (.unparsable m) := by
  have hout : Sample.baseText.toUTF8.data.toList = [] ++ Written.bytesOf Sample.baseText ++ [] := by
    rw [List.nil_append, List.append_nil, String.toUTF8_eq_toByteArray]
    rfl
  refine ⟨(account_numbers_recovered.1 5 0 0 Sample.baseAnswer [] _ [] _ blanks_nil
    Sample.baseText_spells blanks_nil hout (by decide) Sample.baseAnswer_answer).mpr (by decide), ?_⟩
  have hparse : parseValue (Sample.output Sample.moduleAnswer) = .ok Sample.moduleAnswer.value :=
    parseValue_object blanks_nil (Written.spells_bytes _) blanks_nil (Sample.output_data _)
      (by decide) (by decide)
  have hother : "/cosmos.auth.v1beta1.ModuleAccount" ≠ baseAccountType ∧
      "/cosmos.auth.v1beta1.ModuleAccount" ∉ vestingAccountTypes ∧
      ¬ "EthAccount".toList <:+: "/cosmos.auth.v1beta1.ModuleAccount".toList := by
    decide +kernel
  exact account_numbers_recovered.2.1 _ _ hparse
    (.otherKind rfl hother.1 hother.2.1 hother.2.2)

/-- A base account in 127 envelopes is an account answer, yet it nests `nestingLimit` levels and
is refused as unparsable. -/
theorem deep_envelopes_refused :
    AccountAnswer 5 0 127 (Sample.wrapped 127 Sample.baseAnswer).value ∧
      nestingLimit ≤ (Sample.wrapped 127 Sample.baseAnswer).nesting ∧
      ∃ m, parseAccount (Sample.output (Sample.wrapped 127 Sample.baseAnswer)) =
        .error (.unparsable m) := by
  have hnest : nestingLimit ≤ (Sample.wrapped 127 Sample.baseAnswer).nesting := by
    rw [Sample.nesting_wrapped]
    decide
  refine ⟨Sample.answer_wrapped Sample.baseAnswer_answer 127, hnest, ?_⟩
  have hint : Written.membersIntegral [("account", Sample.wrapped 126 Sample.baseAnswer)] = true := by
    simp only [Written.membersIntegral, Sample.integral_wrapped, Bool.and_true]
    decide
  obtain ⟨e, he⟩ := parseValue_object_deep blanks_nil
    (Written.spells_bytes (.object [("account", Sample.wrapped 126 Sample.baseAnswer)]))
    (Sample.output_data (Sample.wrapped 127 Sample.baseAnswer)) hint hnest
  exact ⟨_, parseAccount_of_not_json he⟩

end Quorum
