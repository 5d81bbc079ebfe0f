import Mathlib
import XcodeProject.ObjectId

/-!
# Different seeds are different bytes

The id of a new object is the beginning of a hash of bytes, and the bytes are those of the seed and
of the attempt.  Neither the number of parts of a seed nor the place where the attempt begins is
written down, yet the bytes determine both: every part begins with its length, so parts are taken
off the front one by one (`partBytes_append_inj`), and what is left in the end are the four bytes of
the attempt, which are too few for a part.

An id shows the first bytes of the hash without loss (`flatMap_hexByte_inj`).  So where two seeds
have one id, the hash has a collision in the bytes that ids show.
-/

namespace XcodeProject.ObjectId

/-! ## Numbers and strings in bytes -/

@[simp] lemma length_littleEndian (count n : Nat) : (littleEndian count n).length = count := by
  induction count generalizing n with
  | zero => rfl
  | succ count ih => rw [littleEndian, List.length_cons, ih]

lemma littleEndian_inj {count m n : Nat} (hm : m < 256 ^ count) (hn : n < 256 ^ count)
    (h : littleEndian count m = littleEndian count n) : m = n := by
  induction count generalizing m n with
  | zero => omega
  | succ count ih =>
    obtain ⟨hlow, hhigh⟩ := List.cons.inj h
    have hmod : m % 256 = n % 256 := by
      simpa using congrArg UInt8.toNat hlow
    have hdiv : m / 256 = n / 256 := by
      rw [pow_succ'] at hm hn
      exact ih (Nat.div_lt_of_lt_mul hm) (Nat.div_lt_of_lt_mul hn) hhigh
    omega

lemma length_utf8 (part : String) : part.toUTF8.data.toList.length = part.utf8ByteSize :=
  rfl

lemma utf8_inj {part part' : String} (h : part.toUTF8.data.toList = part'.toUTF8.data.toList) :
    part = part' :=
  String.toByteArray_inj.mp (ByteArray.ext (Array.toList_inj.mp h))

/-! ## Parts -/

/-- A part at the front of some bytes is determined by them, and so is what follows it. -/
lemma partBytes_append_inj {part part' : String} (hpart : part.utf8ByteSize < 2 ^ 64)
    (hpart' : part'.utf8ByteSize < 2 ^ 64) {rest rest' : List UInt8}
    (h : partBytes part ++ rest = partBytes part' ++ rest') : part = part' ∧ rest = rest' := by
  unfold partBytes at h
  rw [List.append_assoc, List.append_assoc] at h
  -- The length takes eight bytes in both, and only then is it known where the string ends.
  obtain ⟨hsize, hbytes⟩ := List.append_inj h (by simp)
  have hlength := littleEndian_inj (by simpa using hpart) (by simpa using hpart') hsize
  obtain ⟨hutf8, hrest⟩ := List.append_inj hbytes (by rw [length_utf8, length_utf8, hlength])
  exact ⟨utf8_inj hutf8, hrest⟩

lemma length_partBytes (part : String) : (partBytes part).length = 8 + part.utf8ByteSize := by
  rw [partBytes, List.length_append, length_littleEndian, length_utf8]

/-! ## Seeds -/

lemma seedBytes_nil (attempt : UInt32) : seedBytes [] attempt = littleEndian 4 attempt.toNat :=
  rfl

lemma seedBytes_cons (part : String) (seed : List String) (attempt : UInt32) :
    seedBytes (part :: seed) attempt = partBytes part ++ seedBytes seed attempt := by
  rw [seedBytes, List.flatMap_cons, List.append_assoc]
  rfl

/-- The bytes of the attempt alone are too few to begin with a part. -/
lemma seedBytes_nil_ne_cons (attempt attempt' : UInt32) (part : String) (seed : List String) :
    seedBytes [] attempt ≠ seedBytes (part :: seed) attempt' := by
  intro h
  have hlength := congrArg List.length h
  rw [seedBytes_nil, length_littleEndian, seedBytes_cons, List.length_append,
    length_partBytes] at hlength
  omega

lemma seedBytes_inj {seed seed' : List String} (hseed : ∀ part ∈ seed, part.utf8ByteSize < 2 ^ 64)
    (hseed' : ∀ part ∈ seed', part.utf8ByteSize < 2 ^ 64) {attempt attempt' : UInt32}
    (h : seedBytes seed attempt = seedBytes seed' attempt') :
    seed = seed' ∧ attempt = attempt' := by
  induction seed generalizing seed' with
  | nil =>
    cases seed' with
    | nil =>
      have hnumber := littleEndian_inj attempt.toNat_lt attempt'.toNat_lt h
      exact ⟨rfl, UInt32.toNat_inj.mp hnumber⟩
    | cons part' seed' => exact absurd h (seedBytes_nil_ne_cons _ _ _ _)
  | cons part seed ih =>
    cases seed' with
    | nil => exact absurd h.symm (seedBytes_nil_ne_cons _ _ _ _)
    | cons part' seed' =>
      obtain ⟨hpart, hparts⟩ := List.forall_mem_cons.mp hseed
      obtain ⟨hpart', hparts'⟩ := List.forall_mem_cons.mp hseed'
      rw [seedBytes_cons, seedBytes_cons] at h
      obtain ⟨rfl, hrest⟩ := partBytes_append_inj hpart hpart' h
      obtain ⟨rfl, rfl⟩ := ih hparts hparts' hrest
      exact ⟨rfl, rfl⟩

/-! ## Ids -/

lemma hexDigit_inj {m n : Nat} (hm : m < 16) (hn : n < 16) (h : hexDigit m = hexDigit n) :
    m = n := by
  have hall : ∀ m n : Fin 16, hexDigit m = hexDigit n → m = n := by decide
  exact congrArg Fin.val (hall ⟨m, hm⟩ ⟨n, hn⟩ h)

lemma hexByte_inj {a b : UInt8} (h : hexByte a = hexByte b) : a = b := by
  have ha := a.toNat_lt
  have hb := b.toNat_lt
  simp only [hexByte, List.cons.injEq, and_true] at h
  have hhigh := hexDigit_inj (by omega) (by omega) h.1
  have hlow := hexDigit_inj (by omega) (by omega) h.2
  exact UInt8.toNat_inj.mp (by omega)

lemma flatMap_hexByte_inj {bytes bytes' : List UInt8}
    (h : bytes.flatMap hexByte = bytes'.flatMap hexByte) : bytes = bytes' := by
  induction bytes generalizing bytes' with
  | nil =>
    cases bytes' with
    | nil => rfl
    | cons b rest => simp [hexByte] at h
  | cons a rest ih =>
    cases bytes' with
    | nil => simp [hexByte] at h
    | cons b rest' =>
      rw [List.flatMap_cons, List.flatMap_cons] at h
      obtain ⟨hbyte, hrest⟩ := List.append_inj h rfl
      rw [hexByte_inj hbyte, ih hrest]

/-- Two sequences of bytes that the hash does not tell apart in the bytes that an id shows. -/
def Collide (bytes bytes' : List UInt8) : Prop :=
  bytes ≠ bytes' ∧ (Blake3.digest bytes).take size = (Blake3.digest bytes').take size

lemma derive_eq_derive_iff {seed seed' : List String} {attempt attempt' : UInt32} :
    derive seed attempt = derive seed' attempt' ↔
      (Blake3.digest (seedBytes seed attempt)).take size =
        (Blake3.digest (seedBytes seed' attempt')).take size := by
  constructor
  · intro h
    exact flatMap_hexByte_inj (String.ofList_inj.mp h)
  · intro h
    rw [derive, derive, h]

/-- The bytes that are hashed determine the seed and the attempt, so two of them share an id only
through a collision of the hash. -/
theorem seeds_are_told_apart_by_their_bytes {seed seed' : List String}
    (hseed : ∀ part ∈ seed, part.utf8ByteSize < 2 ^ 64)
    (hseed' : ∀ part ∈ seed', part.utf8ByteSize < 2 ^ 64) (attempt attempt' : UInt32) :
    (seedBytes seed attempt = seedBytes seed' attempt' ↔ seed = seed' ∧ attempt = attempt') ∧
      (derive seed attempt = derive seed' attempt' ↔ (seed = seed' ∧ attempt = attempt') ∨
        Collide (seedBytes seed attempt) (seedBytes seed' attempt')) := by
  have hbytes : seedBytes seed attempt = seedBytes seed' attempt' ↔
      seed = seed' ∧ attempt = attempt' := by
    constructor
    · exact seedBytes_inj hseed hseed'
    · rintro ⟨rfl, rfl⟩
      rfl
  refine ⟨hbytes, ?_⟩
  rw [derive_eq_derive_iff, Collide, ← hbytes]
  constructor
  · intro hdigest
    by_cases hsame : seedBytes seed attempt = seedBytes seed' attempt'
    · exact .inl hsame
    · exact .inr ⟨hsame, hdigest⟩
  · rintro (hsame | ⟨-, hdigest⟩)
    · rw [hsame]
    · exact hdigest

theorem seeds_are_told_apart_by_their_bytes_shifted :
    (∀ part ∈ ["ab", "c"], part.utf8ByteSize < 2 ^ 64) ∧
      (∀ part ∈ ["a", "bc", ""], part.utf8ByteSize < 2 ^ 64) ∧
      seedBytes ["ab", "c"] 0 ≠ seedBytes ["a", "bc", ""] 0 ∧
      (derive ["ab", "c"] 0 = derive ["a", "bc", ""] 0 ↔
        Collide (seedBytes ["ab", "c"] 0) (seedBytes ["a", "bc", ""] 0)) := by
  have hseed : ∀ part ∈ ["ab", "c"], part.utf8ByteSize < 2 ^ 64 := by decide
  have hseed' : ∀ part ∈ ["a", "bc", ""], part.utf8ByteSize < 2 ^ 64 := by decide
  obtain ⟨hbytes, hids⟩ := seeds_are_told_apart_by_their_bytes hseed hseed' 0 0
  have hne : ¬ (["ab", "c"] = ["a", "bc", ""] ∧ (0 : UInt32) = 0) := by decide
  exact ⟨hseed, hseed', fun h => hne (hbytes.mp h), hids.trans (or_iff_right hne)⟩

end XcodeProject.ObjectId
