import Mathlib

/-!
# Bytes and texts

A byte string is stored as a text if it is the UTF-8 encoding of characters none of which is NUL.
`decodeText` reads such a text; `Fits n b` says that the first `n` bytes of `b` are one, so that
cutting `b` there splits no character.
-/

namespace PortageEngine.Library

open List
namespace Utf8

abbrev Bytes := List UInt8

def encode (chars : List Char) : Bytes :=
  chars.flatMap String.utf8EncodeChar

/-- The text that the bytes encode, if there is one without NUL. -/
def decodeText (b : Bytes) : Option String :=
  if b.contains 0 then none else b.toByteArray.utf8Decode?.map fun chars => String.ofList chars.toList

/-- The first `n` bytes are whole characters other than NUL. -/
def Fits (n : Nat) (b : Bytes) : Prop :=
  ∃ chars rest, b = encode chars ++ rest ∧ '\x00' ∉ chars ∧ (encode chars).length = min n b.length

@[simp] theorem encode_nil : encode [] = [] := rfl

variable {c : Char} {n : Nat} {b : Bytes}

variable {chars : List Char}

@[simp] theorem encode_cons :
    encode (c :: chars) = String.utf8EncodeChar c ++ encode chars := rfl

theorem encode_append {xs ys : List Char} : encode (xs ++ ys) = encode xs ++ encode ys :=
  flatMap_append

theorem length_encode_replicate :
    (encode (List.replicate n c)).length = n * (String.utf8EncodeChar c).length := by
  simp [encode]

/-! ## NUL -/

theorem zero_mem_utf8EncodeChar : (0 : UInt8) ∈ String.utf8EncodeChar c ↔ c = '\x00' := by
  have hval : c = '\x00' ↔ c.val.toNat = 0 := by
    constructor
    · rintro rfl
      rfl
    · intro h
      exact Char.ext (UInt32.toNat_inj.mp h)
  have hbyte : ∀ n, n < 256 → ((0 : UInt8) = UInt8.ofNat n ↔ n = 0) := by
    intro n hn
    rw [← UInt8.toNat_inj]
    simp [Nat.mod_eq_of_lt hn, eq_comm]
  rw [hval]
  unfold String.utf8EncodeChar
  dsimp only
  -- one case for each length of the encoding: only the shortest has a byte that can be zero
  split_ifs with h1 h2 h3
  · rw [mem_singleton, hbyte _ (by omega)]
  · simp only [mem_cons, not_mem_nil, or_false]
    rw [hbyte _ (by omega), hbyte _ (by omega)]
    omega
  · simp only [mem_cons, not_mem_nil, or_false]
    rw [hbyte _ (by omega), hbyte _ (by omega), hbyte _ (by omega)]
    omega
  · simp only [mem_cons, not_mem_nil, or_false]
    rw [hbyte _ (by omega), hbyte _ (by omega), hbyte _ (by omega), hbyte _ (by omega)]
    omega

theorem zero_mem_encode : (0 : UInt8) ∈ encode chars ↔ '\x00' ∈ chars := by
  simp [encode, zero_mem_utf8EncodeChar]

/-! ## Decoding -/

theorem isSome_decodeText :
    (decodeText b).isSome = true ↔ ∃ chars, b = encode chars ∧ '\x00' ∉ chars := by
  have hvalid : b.toByteArray.utf8Decode?.isSome = true ↔ ∃ chars, b = encode chars := by
    rw [ByteArray.isSome_utf8Decode?_eq_validateUTF8, ByteArray.validateUTF8_eq_true_iff]
    constructor
    · rintro ⟨chars, heq⟩
      exact ⟨chars, toByteArray_inj.mp heq⟩
    · rintro ⟨chars, rfl⟩
      exact ⟨chars, rfl⟩
  unfold decodeText
  by_cases hzero : (0 : UInt8) ∈ b
  · have hnone : ¬ ∃ chars, b = encode chars ∧ '\x00' ∉ chars := by
      rintro ⟨chars, rfl, hnul⟩
      exact hnul (zero_mem_encode.mp hzero)
    simp [hzero, hnone]
  rw [if_neg (by simpa using hzero), Option.isSome_map, hvalid]
  constructor
  · rintro ⟨chars, rfl⟩
    exact ⟨chars, rfl, fun hnul => hzero (zero_mem_encode.mpr hnul)⟩
  · rintro ⟨chars, rfl, _⟩
    exact ⟨chars, rfl⟩

theorem isSome_decodeText_take :
    (decodeText (b.take n)).isSome = true ↔ Fits n b := by
  rw [isSome_decodeText]
  constructor
  · rintro ⟨chars, htake, hnul⟩
    refine ⟨chars, b.drop n, ?_, hnul, ?_⟩
    · rw [← htake, take_append_drop]
    · rw [← htake, length_take]
  · rintro ⟨chars, rest, heq, hnul, hlength⟩
    refine ⟨chars, ?_, hnul⟩
    rcases Nat.le_total n b.length with hle | hle
    · rw [Nat.min_eq_left hle] at hlength
      rw [heq, ← hlength, take_left]
    -- nothing is cut off
    have hrest : rest = [] := by
      have hsum := congrArg List.length heq
      rw [length_append] at hsum
      exact eq_nil_of_length_eq_zero (by omega)
    rw [take_of_length_le hle, heq, hrest, append_nil]

theorem exists_encode_of_append {a : Bytes} {cs m : List Char}
    (h : a ++ encode (c :: cs) = encode m) : ∃ chars, a = encode chars := by
  induction m generalizing a with
  | nil =>
    have hne : String.utf8EncodeChar c ≠ [] := String.utf8EncodeChar_ne_nil
    simp [hne] at h
  | cons d m ih =>
    rcases append_eq_append_iff.mp h with ⟨x, hd, hrest⟩ | ⟨x, ha, hrest⟩
    · -- the cut falls into the character `d`, but what follows it starts with a character
      cases x with
      | nil => exact ⟨[d], by simpa using hd.symm⟩
      | cons y x =>
        have hfirst : y.IsUTF8FirstByte := by
          have hlength : 0 < (String.utf8EncodeChar c).length :=
            length_pos_iff.mpr String.utf8EncodeChar_ne_nil
          have hhead : (String.utf8EncodeChar c).head? = some y := by
            have heq := congrArg List.head? hrest
            simpa using heq
          rw [head?_eq_getElem?, getElem?_eq_getElem hlength] at hhead
          rw [← Option.some.inj hhead]
          exact UInt8.isUTF8FirstByte_getElem_utf8EncodeChar.mpr rfl
        have hin : a.length < (String.utf8EncodeChar d).length := by simp [hd]
        have hget : (String.utf8EncodeChar d)[a.length] = y := by simp [hd]
        rw [← hget, UInt8.isUTF8FirstByte_getElem_utf8EncodeChar] at hfirst
        exact ⟨[], eq_nil_of_length_eq_zero hfirst⟩
    · rcases ih hrest.symm with ⟨chars, rfl⟩
      exact ⟨d :: chars, ha⟩

theorem isSome_decodeText_take_append {cs : List Char}
    (hmark : '\x00' ∉ c :: cs) :
    (decodeText (b.take n ++ encode (c :: cs))).isSome = true ↔ Fits n b := by
  rw [← isSome_decodeText_take, isSome_decodeText, isSome_decodeText]
  constructor
  · rintro ⟨m, heq, hnul⟩
    rcases exists_encode_of_append heq with ⟨chars, hchars⟩
    refine ⟨chars, hchars, ?_⟩
    intro hmem
    refine hnul (zero_mem_encode.mp ?_)
    rw [← heq, hchars]
    exact mem_append_left _ (zero_mem_encode.mpr hmem)
  · rintro ⟨chars, heq, hnul⟩
    refine ⟨chars ++ c :: cs, by rw [heq, encode_append], ?_⟩
    rw [mem_append, not_or]
    exact ⟨hnul, hmark⟩

theorem encode_length_le {xs ys : List Char} (h : xs <+: ys) :
    (encode xs).length ≤ (encode ys).length := by
  rcases h with ⟨zs, rfl⟩
  rw [encode_append, length_append]
  exact Nat.le_add_right _ _

theorem not_fits_of_split {before after : List Char}
    (hbefore : (encode before).length < n)
    (hafter : n < (encode before).length + (String.utf8EncodeChar c).length) :
    ¬ Fits n (encode (before ++ c :: after)) := by
  rintro ⟨chars, rest, heq, _, hlength⟩
  have hsize : (encode (before ++ c :: after)).length =
      (encode before).length + (String.utf8EncodeChar c).length + (encode after).length := by
    rw [encode_append, encode_cons, length_append, length_append, Nat.add_assoc]
  have hprefix : chars <+: before ++ c :: after := by
    refine isPrefix_of_utf8Encode_append_eq_utf8Encode rest.toByteArray ?_
    exact (toByteArray_append.symm.trans (congrArg List.toByteArray heq.symm))
  have hcut : before ++ [c] <+: before ++ c :: after := ⟨after, by simp⟩
  -- the characters up to the bound end before `c`, or contain it
  rcases prefix_or_prefix_of_prefix hprefix hcut with h | h
  · rcases prefix_concat_iff.mp h with rfl | h
    · rw [encode_append, encode_cons, encode_nil, append_nil, length_append] at hlength
      omega
    · have hle := encode_length_le h
      omega
  · have hle := encode_length_le h
    rw [encode_append, encode_cons, encode_nil, append_nil, length_append] at hle
    omega

end Utf8
end PortageEngine.Library
