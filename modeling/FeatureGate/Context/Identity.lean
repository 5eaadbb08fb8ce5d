import FeatureGate.Context.Canonical
import FeatureGate.Sha256

/-!
# Identities

The identity of a context is the number spelled by the first sixteen bytes of the digest of its
canonical text. It decides the bucket of the context.
-/

namespace FeatureGate

/-- A number of 128 bits that identifies a context. -/
structure ContextId where
  bits : BitVec 128
deriving DecidableEq

namespace ContextId

def value (id : ContextId) : Nat := id.bits.toNat

/-- The number that bytes spell, the highest byte first. -/
def numberOfBytes (bytes : List UInt8) : Nat := bytes.foldl (fun n b => 256 * n + b.toNat) 0

/-- The identity of a canonical text. -/
def ofText (canonical : String) : ContextId :=
  ⟨BitVec.ofNat 128 (numberOfBytes ((Sha256.digest canonical.toUTF8.toList).take 16))⟩

theorem foldl_bytes_inj {as bs : List UInt8} {m n : Nat} (length : as.length = bs.length)
    (h : as.foldl (fun n b => 256 * n + b.toNat) m = bs.foldl (fun n b => 256 * n + b.toNat) n) :
    m = n ∧ as = bs := by
  induction as generalizing bs m n with
  | nil =>
    cases bs with
    | nil => exact ⟨h, rfl⟩
    | cons b bs => cases length
  | cons a as ih =>
    cases bs with
    | nil => cases length
    | cons b bs =>
      obtain ⟨heads, tails⟩ := ih (Nat.succ.inj length) h
      have numbers : 256 * m + a.toNat = 256 * n + b.toNat := heads
      have lowA := a.toNat_lt
      have lowB := b.toNat_lt
      have same : a.toNat = b.toNat := by omega
      refine ⟨by omega, ?_⟩
      rw [UInt8.toNat_inj.mp same, tails]

theorem foldl_bytes_lt (bytes : List UInt8) (n : Nat) :
    bytes.foldl (fun n b => 256 * n + b.toNat) n < (n + 1) * 256 ^ bytes.length := by
  induction bytes generalizing n with
  | nil => simp
  | cons b bytes ih =>
    have byte := b.toNat_lt
    have first : 256 * n + b.toNat + 1 ≤ (n + 1) * 256 := by omega
    calc (b :: bytes).foldl (fun n b => 256 * n + b.toNat) n
        < (256 * n + b.toNat + 1) * 256 ^ bytes.length := ih _
      _ ≤ (n + 1) * 256 * 256 ^ bytes.length := Nat.mul_le_mul_right _ first
      _ = (n + 1) * 256 ^ (b :: bytes).length := by
        rw [List.length_cons, Nat.pow_succ', Nat.mul_assoc]

theorem length_take_digest (message : List UInt8) :
    ((Sha256.digest message).take 16).length = 16 := by
  rw [List.length_take, Sha256.length_digest]
  rfl

/-- Sixteen bytes fit into an identity. -/
theorem value_ofText (canonical : String) :
    (ofText canonical).value =
      numberOfBytes ((Sha256.digest canonical.toUTF8.toList).take 16) := by
  have bound := foldl_bytes_lt ((Sha256.digest canonical.toUTF8.toList).take 16) 0
  rw [length_take_digest] at bound
  rw [ofText, value, BitVec.toNat_ofNat]
  exact Nat.mod_eq_of_lt bound

/-- Two texts have one identity exactly if their digests begin alike. -/
theorem ofText_eq_ofText_iff {s t : String} :
    ofText s = ofText t ↔
      (Sha256.digest s.toUTF8.toList).take 16 = (Sha256.digest t.toUTF8.toList).take 16 := by
  constructor
  · intro h
    have number := congrArg ContextId.value h
    rw [value_ofText, value_ofText] at number
    exact (foldl_bytes_inj (by rw [length_take_digest, length_take_digest]) number).2
  · intro h
    rw [ofText, ofText, h]

/-- The remainder by the number of buckets, taken in 128 bits and narrowed to 64; there is one
bucket when the number is zero. -/
def bucket (id : ContextId) (modulus : UInt64) : UInt64 :=
  if modulus = 0 then 0 else ⟨(id.bits % modulus.toBitVec.setWidth 128).setWidth 64⟩

/-- The narrowing loses nothing, because a remainder is smaller than the number of buckets. -/
theorem toNat_bucket (id : ContextId) {modulus : UInt64} (positive : 0 < modulus) :
    (id.bucket modulus).toNat = id.value % modulus.toNat := by
  have nonzero : modulus ≠ 0 := by
    rintro rfl
    cases positive
  have wide : modulus.toNat % 2 ^ 128 = modulus.toNat :=
    Nat.mod_eq_of_lt (Nat.lt_trans modulus.toNat_lt (by decide))
  have narrow : id.value % modulus.toNat < 2 ^ 64 :=
    Nat.lt_trans (Nat.mod_lt _ (UInt64.lt_iff_toNat_lt.mp positive)) modulus.toNat_lt
  rw [bucket, if_neg nonzero, UInt64.toNat, BitVec.toNat_setWidth, BitVec.toNat_umod,
    BitVec.toNat_setWidth, UInt64.toNat_toBitVec, wide]
  exact Nat.mod_eq_of_lt narrow

/-- Thirty-two hexadecimal digits in lower case. -/
def hex (id : ContextId) : String :=
  let digits := Nat.toDigits 16 id.value
  String.ofList (List.replicate (32 - digits.length) '0' ++ digits)

end ContextId

/-- Rollouts are percentages, so contexts fall into a hundred buckets. -/
def rolloutBuckets : UInt64 := 100

end FeatureGate
