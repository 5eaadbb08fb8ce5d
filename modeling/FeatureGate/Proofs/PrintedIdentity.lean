import FeatureGate.Context.Basic
import FeatureGate.Json.Token

/-!
# Printed identities

An identity is printed as the first thirty-two hexadecimal digits of the digest of its text, and the
number that these digits spell decides every bucket. Between the bytes of a digest and the padded
digits of a number stand the digits of a number at a fixed width: printing writes them, a reader
spells the number back from them, and for the number of some bytes they are the digits of each byte
in turn.
-/

namespace FeatureGate

namespace Hexadecimal

/-- The last digits of a number, as many as the width. -/
def digits : Nat → Nat → List Char
  | 0, _ => []
  | width + 1, n => digits width (n / 16) ++ [Nat.digitChar (n % 16)]

/-- Two digits for each byte, the higher half first. -/
def ofBytes (bytes : List UInt8) : List Char :=
  bytes.flatMap fun b => [Nat.digitChar (b.toNat / 16), Nat.digitChar (b.toNat % 16)]

def alphabet : List Char := "0123456789abcdef".toList

theorem ofBytes_cons (b : UInt8) (bytes : List UInt8) :
    ofBytes (b :: bytes) =
      Nat.digitChar (b.toNat / 16) :: Nat.digitChar (b.toNat % 16) :: ofBytes bytes := rfl

theorem digitChar_mem_alphabet : ∀ d < 16, Nat.digitChar d ∈ alphabet := by decide

theorem hexValue?_digitChar : ∀ d < 16, Json.hexValue? (Nat.digitChar d) = some d := by decide

/-! ## Digits at a fixed width -/

@[simp] theorem length_digits (width n : Nat) : (digits width n).length = width := by
  induction width generalizing n with
  | zero => rfl
  | succ width ih => rw [digits, List.length_append, ih, List.length_singleton]

theorem mem_alphabet_of_mem_digits {c : Char} {width n : Nat} (h : c ∈ digits width n) :
    c ∈ alphabet := by
  induction width generalizing n with
  | zero => cases h
  | succ width ih =>
    rcases List.mem_append.mp h with higher | last
    · exact ih higher
    · rw [List.mem_singleton.mp last]
      exact digitChar_mem_alphabet _ (Nat.mod_lt _ (by decide))

theorem digits_zero (width : Nat) : digits width 0 = List.replicate width '0' := by
  induction width with
  | zero => rfl
  | succ width ih =>
    rw [digits, Nat.zero_div, ih, List.replicate_succ']
    rfl

theorem div_lt_of_lt_pow_succ {width n : Nat} (small : n < 16 ^ (width + 1)) :
    n / 16 < 16 ^ width := by
  rw [Nat.pow_succ'] at small
  exact Nat.div_lt_of_lt_mul small

/-- Padding to a width that suffices gives the digits of that width. The width is not zero, since
zero itself is written with a digit. -/
theorem replicate_append_toDigits {width n : Nat} (small : n < 16 ^ (width + 1)) :
    List.replicate (width + 1 - (Nat.toDigits 16 n).length) '0' ++ Nat.toDigits 16 n =
      digits (width + 1) n := by
  induction width generalizing n with
  | zero =>
    have one : n < 16 := small
    rw [Nat.toDigits_of_lt_base one, digits, digits, Nat.mod_eq_of_lt one]
    rfl
  | succ width ih =>
    rw [digits]
    by_cases one : n < 16
    · rw [Nat.toDigits_of_lt_base one, Nat.div_eq_of_lt one, digits_zero, Nat.mod_eq_of_lt one]
      rfl
    · have higher := ih (div_lt_of_lt_pow_succ small)
      rw [Nat.toDigits_of_base_le (by decide) (Nat.le_of_not_lt one), List.length_append,
        List.length_singleton, Nat.add_sub_add_right, ← List.append_assoc, higher]

theorem hexNumber?_append_singleton (cs : List Char) (c : Char) :
    Json.hexNumber? (cs ++ [c]) =
      (Json.hexNumber? cs).bind fun n => (Json.hexValue? c).map (16 * n + ·) := by
  rw [Json.hexNumber?, List.foldlM_append]
  simp [Json.hexNumber?]

/-- A number reads back from its digits. -/
theorem hexNumber?_digits {width n : Nat} (small : n < 16 ^ width) :
    Json.hexNumber? (digits width n) = some n := by
  induction width generalizing n with
  | zero =>
    obtain rfl : n = 0 := Nat.lt_one_iff.mp small
    rfl
  | succ width ih =>
    have higher := ih (div_lt_of_lt_pow_succ small)
    have last := hexValue?_digitChar (n % 16) (Nat.mod_lt _ (by decide))
    rw [digits, hexNumber?_append_singleton, higher, Option.bind_some, last, Option.map_some,
      Nat.div_add_mod]

/-! ## Digits of bytes -/

theorem digits_byte (width n : Nat) (b : UInt8) :
    digits (width + 2) (256 * n + b.toNat) =
      digits width n ++ [Nat.digitChar (b.toNat / 16), Nat.digitChar (b.toNat % 16)] := by
  have byte := b.toNat_lt
  have number : (256 * n + b.toNat) / 16 / 16 = n := by omega
  have high : (256 * n + b.toNat) / 16 % 16 = b.toNat / 16 := by omega
  have low : (256 * n + b.toNat) % 16 = b.toNat % 16 := by omega
  rw [digits, digits, number, high, low, List.append_assoc]
  rfl

/-- Bytes that follow a number append their digits to those of the number. -/
theorem digits_foldl_bytes (bytes : List UInt8) (width n : Nat) :
    digits (width + 2 * bytes.length) (bytes.foldl (fun n b => 256 * n + b.toNat) n) =
      digits width n ++ ofBytes bytes := by
  induction bytes generalizing width n with
  | nil => exact (List.append_nil _).symm
  | cons b bytes ih =>
    -- The first byte joins the number and brings two digits of width along.
    have longer : width + 2 * (b :: bytes).length = width + 2 + 2 * bytes.length := by
      rw [List.length_cons]
      omega
    rw [longer, List.foldl_cons, ih, digits_byte, List.append_assoc, ofBytes_cons]
    rfl

theorem digits_numberOfBytes (bytes : List UInt8) :
    digits (2 * bytes.length) (ContextId.numberOfBytes bytes) = ofBytes bytes := by
  have whole := digits_foldl_bytes bytes 0 0
  rwa [Nat.zero_add] at whole

theorem take_ofBytes (bytes : List UInt8) (count : Nat) :
    (ofBytes bytes).take (2 * count) = ofBytes (bytes.take count) := by
  induction bytes generalizing count with
  | nil => rw [List.take_nil, ofBytes, List.flatMap_nil, List.take_nil]
  | cons b bytes ih =>
    cases count with
    | zero => rfl
    | succ count =>
      rw [Nat.mul_succ, ofBytes_cons, List.take_succ_cons, List.take_succ_cons, ih,
        List.take_succ_cons, ofBytes_cons]

end Hexadecimal

/-! ## Identities -/

namespace ContextId

theorem value_lt (id : ContextId) : id.value < 16 ^ 32 := id.bits.isLt

theorem hex_eq (id : ContextId) : id.hex = String.ofList (Hexadecimal.digits 32 id.value) :=
  congrArg String.ofList (Hexadecimal.replicate_append_toDigits id.value_lt)

theorem hex_ofText (canonical : String) :
    (ofText canonical).hex = String.ofList
      ((Hexadecimal.ofBytes (Sha256.digest canonical.toUTF8.toList)).take 32) := by
  have digits := Hexadecimal.digits_numberOfBytes
    ((Sha256.digest canonical.toUTF8.toList).take 16)
  rw [length_take_digest, ← value_ofText, ← Hexadecimal.take_ofBytes] at digits
  rw [hex_eq]
  exact congrArg String.ofList digits

/-- The identity of a text is printed as the beginning of the digest. Every identity is printed with
thirty-two digits in lower case, leading zeros included; its bucket among some is the remainder of
the number that these digits spell, and it is one of them. -/
theorem hex_spells_digest :
    (∀ canonical : String, (ofText canonical).hex = String.ofList
      ((Hexadecimal.ofBytes (Sha256.digest canonical.toUTF8.toList)).take 32)) ∧
    ∀ id : ContextId,
      id.hex.length = 32 ∧ (∀ c ∈ id.hex.toList, c ∈ Hexadecimal.alphabet) ∧
        Json.hexNumber? id.hex.toList = some id.value ∧ id.bucket 0 = 0 ∧
        ∀ modulus : UInt64, 0 < modulus →
          (id.bucket modulus).toNat = id.value % modulus.toNat ∧ id.bucket modulus < modulus := by
  refine ⟨hex_ofText, ?_⟩
  intro id
  rw [hex_eq, String.length_ofList, String.toList_ofList]
  have length := Hexadecimal.length_digits 32 id.value
  have number := Hexadecimal.hexNumber?_digits id.value_lt
  refine ⟨length, fun c => Hexadecimal.mem_alphabet_of_mem_digits, number, rfl, ?_⟩
  intro modulus positive
  have remainder := id.toNat_bucket positive
  refine ⟨remainder, ?_⟩
  rw [UInt64.lt_iff_toNat_lt] at positive ⊢
  rw [remainder]
  exact Nat.mod_lt _ positive

/-- The identity of a context without attributes. -/
example : Context.empty.identity.hex = "44136fa355b3678a1146ad16f7e8649e" := by decide +kernel

/-- A text whose digest begins with four zeros. -/
def paddedText : String := "\x7b\"id\":12623\x7d"

/-- The zeros are printed, and the digits spell a number beyond the largest number of buckets. -/
theorem hex_spells_digest_paddedText :
    (ofText paddedText).hex = "00006420c4f203341a299f028f4a18da" ∧
      (0 : UInt64) < 18446744073709551615 ∧
      ((ofText paddedText).bucket 18446744073709551615).toNat = 1885322844279938062 := by
  obtain ⟨printed, spelled⟩ := hex_spells_digest
  obtain ⟨-, -, number, -, buckets⟩ := spelled (ofText paddedText)
  have digest : String.ofList
      ((Hexadecimal.ofBytes (Sha256.digest paddedText.toUTF8.toList)).take 32) =
        "00006420c4f203341a299f028f4a18da" := by
    decide +kernel
  have hex := (printed paddedText).trans digest
  have positive : (0 : UInt64) < 18446744073709551615 := by decide
  have read : Json.hexNumber? "00006420c4f203341a299f028f4a18da".toList =
      some 0x6420c4f203341a299f028f4a18da := by
    decide
  rw [hex, read, Option.some.injEq] at number
  refine ⟨hex, positive, ?_⟩
  rw [(buckets _ positive).1, ← number]
  rfl

end ContextId

end FeatureGate
