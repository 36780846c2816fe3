import Mathlib.Data.List.Forall2

/-!
# Texts as UTF-8 bytes

Decoding bytes replaces each sequence that is no character.  A pass over UTF-8 bytes that keeps a
character or puts one space for each of its bytes leaves a valid text of the same length.  Where it
keeps the ends of lines, they stay at their offsets.
-/

namespace Utf8

open List

def encode (chars : List Char) : List UInt8 := chars.flatMap String.utf8EncodeChar

@[simp] lemma encode_nil : encode [] = [] := rfl

@[simp] lemma encode_cons (char : Char) (rest : List Char) :
    encode (char :: rest) = String.utf8EncodeChar char ++ encode rest := rfl

@[simp] lemma encode_append (left right : List Char) :
    encode (left ++ right) = encode left ++ encode right := flatMap_append

/-- The bytes of a text. -/
lemma toList_toUTF8 (content : String) :
    content.toUTF8.data.toList = encode content.toList := by
  have h := String.utf8Encode_toList (b := content)
  rw [String.toUTF8_eq_toByteArray, ← h, utf8Encode, toList_data_toByteArray, encode]

lemma fromUTF8_encode (chars : List Char) :
    String.fromUTF8? (encode chars).toByteArray = some (String.ofList chars) := by
  have h : (encode chars).toByteArray.IsValidUTF8 := ⟨chars, rfl⟩
  rw [String.fromUTF8?, dif_pos h]
  rfl

/-! ## One character -/

/-- The bytes of a character that is not ASCII. -/
lemma le_of_mem_utf8EncodeChar {char : Char} (h : char.utf8Size ≠ 1) :
    ∀ byte ∈ String.utf8EncodeChar char, 128 ≤ byte := by
  have hor (x y : UInt8) (hy : 128 ≤ y) : 128 ≤ x ||| y := by
    exact Nat.le_trans (UInt8.le_iff_toNat_le.mp hy) Nat.right_le_or
  intro byte hbyte
  rcases Char.utf8Size_eq char with hsize | hsize | hsize | hsize
  · exact absurd hsize h
  · rw [String.utf8EncodeChar_eq_cons_cons hsize] at hbyte
    simp only [mem_cons, not_mem_nil, or_false] at hbyte
    rcases hbyte with rfl | rfl <;> exact hor _ _ (by decide)
  · rw [String.utf8EncodeChar_eq_cons_cons_cons hsize] at hbyte
    simp only [mem_cons, not_mem_nil, or_false] at hbyte
    rcases hbyte with rfl | rfl | rfl <;> exact hor _ _ (by decide)
  · rw [String.utf8EncodeChar_eq_cons_cons_cons_cons hsize] at hbyte
    simp only [mem_cons, not_mem_nil, or_false] at hbyte
    rcases hbyte with rfl | rfl | rfl | rfl <;> exact hor _ _ (by decide)

/-- An ASCII byte belongs to one character. -/
lemma eq_of_toUInt8_eq {char other : Char} (hchar : char.utf8Size = 1)
    (hother : other.utf8Size = 1) (h : char.val.toUInt8 = other.val.toUInt8) : char = other := by
  have hchar' := UInt32.le_iff_toNat_le.mp (Char.utf8Size_eq_one_iff.mp hchar)
  have hother' := UInt32.le_iff_toNat_le.mp (Char.utf8Size_eq_one_iff.mp hother)
  have hlimit : (127 : UInt32).toNat = 127 := rfl
  have hbytes := congrArg UInt8.toNat h
  rw [UInt32.toNat_toUInt8, UInt32.toNat_toUInt8] at hbytes
  exact Char.ext (UInt32.toNat_inj.mp (by omega))

lemma eq_of_encode_cons {char : Char} {rest : List Char} {byte : UInt8} {bytes : List UInt8}
    (h : encode (char :: rest) = byte :: bytes) (ascii : Char) (hascii : ascii.utf8Size = 1)
    (hbyte : byte = ascii.val.toUInt8) : char = ascii ∧ encode rest = bytes := by
  by_cases hsize : char.utf8Size = 1
  · rw [encode_cons, String.utf8EncodeChar_eq_singleton hsize, singleton_append] at h
    obtain ⟨hhead, htail⟩ := cons.inj h
    exact ⟨eq_of_toUInt8_eq hsize hascii (hhead.trans hbyte), htail⟩
  · obtain ⟨first, others, hfirst⟩ := exists_cons_of_ne_nil String.utf8EncodeChar_ne_nil
    have hhigh := le_of_mem_utf8EncodeChar hsize first (hfirst ▸ mem_cons_self)
    rw [encode_cons, hfirst, cons_append] at h
    obtain rfl := (cons.inj h).1
    have hlow := UInt32.le_iff_toNat_le.mp (Char.utf8Size_eq_one_iff.mp hascii)
    have hlimit : (127 : UInt32).toNat = 127 := rfl
    have hbytes := congrArg UInt8.toNat hbyte
    rw [UInt32.toNat_toUInt8] at hbytes
    have := UInt8.le_iff_toNat_le.mp hhigh
    have hleast : (128 : UInt8).toNat = 128 := rfl
    omega

/-! ## Decoding -/

/-- How many bytes a character has that begins with a byte, one if none does. -/
def width (first : UInt8) : ℕ :=
  if 0xC2 ≤ first ∧ first ≤ 0xDF then 2
  else if 0xE0 ≤ first ∧ first ≤ 0xEF then 3
  else if 0xF0 ≤ first ∧ first ≤ 0xF4 then 4
  else 1

/-- Whether a byte may be the second one of a character. -/
def continues (first second : UInt8) : Bool :=
  if first = 0xE0 then 0xA0 ≤ second ∧ second ≤ 0xBF
  else if first = 0xED then 0x80 ≤ second ∧ second ≤ 0x9F
  else if first = 0xF0 then 0x90 ≤ second ∧ second ≤ 0xBF
  else if first = 0xF4 then 0x80 ≤ second ∧ second ≤ 0x8F
  else 0x80 ≤ second ∧ second ≤ 0xBF

/-- How many bytes are passed over where no character begins: as many as begin one, and at least
one. -/
def invalidLength : List UInt8 → ℕ
  | first :: second :: rest =>
    if 2 < width first ∧ continues first second then
      2 + ((rest.take (width first - 3)).takeWhile fun byte => 0x80 ≤ byte ∧ byte ≤ 0xBF).length
    else 1
  | _ => 1

/-- The characters of at most so many bytes, with a replacement for what is none. -/
def decodeWith (replacement : Char) : ℕ → List UInt8 → List Char
  | 0, _ => []
  | _, [] => []
  | fuel + 1, byte :: rest =>
    match (byte :: rest).toByteArray.utf8DecodeChar? 0 with
    | some char => char :: decodeWith replacement fuel ((byte :: rest).drop char.utf8Size)
    | none =>
      replacement :: decodeWith replacement fuel ((byte :: rest).drop (invalidLength (byte :: rest)))

/-- The characters of bytes, with a replacement for each sequence that is none. -/
def decodeLossy (replacement : Char) (bytes : List UInt8) : List Char :=
  decodeWith replacement bytes.length bytes

lemma utf8DecodeChar?_encode_cons (char : Char) (rest : List Char) :
    (encode (char :: rest)).toByteArray.utf8DecodeChar? 0 = some char := by
  rw [encode_cons, toByteArray_append]
  exact ByteArray.utf8DecodeChar?_utf8EncodeChar_append

lemma decodeWith_encode (replacement : Char) {fuel : ℕ} {chars : List Char}
    (h : (encode chars).length ≤ fuel) : decodeWith replacement fuel (encode chars) = chars := by
  induction chars generalizing fuel with
  | nil => cases fuel <;> rfl
  | cons char rest ih =>
    obtain ⟨byte, bytes, hbytes⟩ :=
      exists_cons_of_ne_nil (append_ne_nil_of_left_ne_nil String.utf8EncodeChar_ne_nil
        (encode rest))
    have hdecode := utf8DecodeChar?_encode_cons char rest
    have hdrop : (encode (char :: rest)).drop char.utf8Size = encode rest := by
      rw [encode_cons, ← String.length_utf8EncodeChar, drop_left]
    rw [encode_cons, length_append, String.length_utf8EncodeChar] at h
    cases fuel with
    | zero => exact absurd h (by have := char.utf8Size_pos; omega)
    | succ fuel =>
      rw [encode_cons, hbytes] at hdecode hdrop ⊢
      have hrest := @ih fuel (by have := char.utf8Size_pos; omega)
      rw [decodeWith, hdecode]
      show char :: decodeWith replacement fuel ((byte :: bytes).drop char.utf8Size) = char :: rest
      rw [hdrop, hrest]

lemma decodeLossy_encode (replacement : Char) (chars : List Char) :
    decodeLossy replacement (encode chars) = chars := decodeWith_encode replacement (Nat.le_refl _)

/-! ## Blanking -/

/-- Characters that are kept, or are no ends of lines and become spaces. -/
inductive Blanked : List Char → List Char → Prop
  | nil : Blanked [] []
  | keep {chars blanked} (char : Char) : Blanked chars blanked →
      Blanked (char :: chars) (char :: blanked)
  | blank {chars blanked char} : char ≠ '\n' → Blanked chars blanked →
      Blanked (char :: chars) (List.replicate char.utf8Size ' ' ++ blanked)

/-- Bytes that are both, or neither, the end of a line. -/
def SameLine (before after : UInt8) : Prop := before = 10 ↔ after = 10

lemma encode_replicate_space (count : Nat) :
    encode (replicate count ' ') = replicate count 32 := by
  induction count with
  | zero => rfl
  | succ count ih =>
    rw [replicate_succ, encode_cons, ih, replicate_succ]
    rfl

/-- The end of a line is one byte of one character. -/
lemma newline_notMem {char : Char} (h : char ≠ '\n') : 10 ∉ String.utf8EncodeChar char := by
  intro hmem
  by_cases hsize : char.utf8Size = 1
  · rw [String.utf8EncodeChar_eq_singleton hsize, mem_singleton] at hmem
    exact h (eq_of_toUInt8_eq hsize (by decide) hmem.symm)
  · exact absurd (le_of_mem_utf8EncodeChar hsize 10 hmem) (by decide)

/-- **Blanking keeps the length of a text and the ends of its lines.** -/
lemma Blanked.sameLine {chars blanked : List Char} (h : Blanked chars blanked) :
    Forall₂ SameLine (encode chars) (encode blanked) := by
  induction h with
  | nil => exact .nil
  | keep char _ ih =>
    have hsame : Forall₂ SameLine (String.utf8EncodeChar char) (String.utf8EncodeChar char) :=
      forall₂_same.mpr fun _ _ => Iff.rfl
    exact rel_append hsame ih
  | @blank chars blanked char hchar _ ih =>
    rw [encode_cons, encode_append, encode_replicate_space]
    refine rel_append (R := SameLine) ?_ ih
    refine forall₂_iff_get.mpr ⟨by simp, fun index hindex hspaces => ?_⟩
    refine ⟨fun hnewline => ?_, fun hspace => ?_⟩
    · exact absurd (hnewline ▸ get_mem _ _) (newline_notMem hchar)
    · simp at hspace

def Blanks (chars : List Char) (bytes : List UInt8) : Prop :=
  ∃ blanked, Blanked chars blanked ∧ encode blanked = bytes

namespace Blanks

lemma nil : Blanks [] [] := ⟨[], .nil, rfl⟩

variable {char : Char} {chars : List Char} {bytes : List UInt8}

lemma keep (char : Char) (h : Blanks chars bytes) :
    Blanks (char :: chars) (String.utf8EncodeChar char ++ bytes) := by
  obtain ⟨blanked, hblanked, rfl⟩ := h
  exact ⟨char :: blanked, hblanked.keep char, rfl⟩

lemma blank (hchar : char ≠ '\n') (h : Blanks chars bytes) :
    Blanks (char :: chars) (replicate char.utf8Size 32 ++ bytes) := by
  obtain ⟨blanked, hblanked, rfl⟩ := h
  refine ⟨_, hblanked.blank hchar, ?_⟩
  rw [encode_append, encode_replicate_space]

lemma keep_ascii (hsize : char.utf8Size = 1) (h : Blanks chars bytes) :
    Blanks (char :: chars) (char.val.toUInt8 :: bytes) := by
  have := h.keep char
  rwa [String.utf8EncodeChar_eq_singleton hsize, singleton_append] at this

lemma blank_ascii (hsize : char.utf8Size = 1) (hchar : char ≠ '\n') (h : Blanks chars bytes) :
    Blanks (char :: chars) (32 :: bytes) := by
  have := h.blank hchar
  rwa [hsize, replicate_one, singleton_append] at this

end Blanks

end Utf8
