import Mathlib.Algebra.Order.Ring.Nat
import Mathlib.Data.List.Basic

/-!
# Injective encodings

Fixed-width little-endian bytes, fixed-width hexadecimal digits, and the concatenation of
length-prefixed parts.  Each is injective on the values that fit its width, which is what a
client needs to turn an equality of encoded keys into an equality of keys.  Encodings that mark
their own end compose without any width.
-/

namespace Encoding

open List

/-! ## Little-endian bytes -/

/-- The `width` low bytes of a number, least significant first. -/
def leBytes : Nat → Nat → List UInt8
  | 0, _ => []
  | width + 1, n => UInt8.ofNat n :: leBytes width (n / 256)

@[simp] lemma length_leBytes (width n : Nat) : (leBytes width n).length = width := by
  induction width generalizing n with
  | zero => rfl
  | succ width ih => simp [leBytes, ih]

lemma leBytes_injective {width n m : Nat} (hn : n < 256 ^ width) (hm : m < 256 ^ width)
    (h : leBytes width n = leBytes width m) : n = m := by
  induction width generalizing n m with
  | zero => omega
  | succ width ih =>
    obtain ⟨hbyte, hrest⟩ := cons.inj h
    have hlow : n % 256 = m % 256 := by
      have := congrArg UInt8.toNat hbyte
      simpa using this
    have hhigh : n / 256 = m / 256 := by
      refine ih ?_ ?_ hrest <;> rw [Nat.div_lt_iff_lt_mul (by decide)] <;> rwa [← Nat.pow_succ]
    omega

/-! ## Hexadecimal digits -/

def hexChar (digit : Nat) : Char :=
  if digit < 10 then Char.ofNat ('0'.toNat + digit) else Char.ofNat ('a'.toNat + (digit - 10))

/-- The `width` low hexadecimal digits of a number, most significant first. -/
def hexDigits : Nat → Nat → List Char
  | 0, _ => []
  | width + 1, n => hexDigits width (n / 16) ++ [hexChar (n % 16)]

lemma hexChar_injective : ∀ a < 16, ∀ b < 16, hexChar a = hexChar b → a = b := by decide

lemma hexDigits_injective {width n m : Nat} (hn : n < 16 ^ width) (hm : m < 16 ^ width)
    (h : hexDigits width n = hexDigits width m) : n = m := by
  induction width generalizing n m with
  | zero => omega
  | succ width ih =>
    obtain ⟨hrest, hdigit⟩ := append_inj' h rfl
    have hlow : n % 16 = m % 16 :=
      hexChar_injective _ (Nat.mod_lt _ (by decide)) _ (Nat.mod_lt _ (by decide))
        (cons.inj hdigit).1
    have hhigh : n / 16 = m / 16 := by
      refine ih ?_ ?_ hrest <;> rw [Nat.div_lt_iff_lt_mul (by decide)] <;> rwa [← Nat.pow_succ]
    omega

/-! ## Length-prefixed parts -/

/-- A part behind its length. -/
def prefixedPart (width : Nat) (part : List UInt8) : List UInt8 :=
  leBytes width part.length ++ part

def prefixedParts (width : Nat) (parts : List (List UInt8)) : List UInt8 :=
  parts.flatMap (prefixedPart width)

/-- Where one length-prefixed part ends and the next bytes begin is determined. -/
lemma prefixedPart_append_injective {width : Nat} {part part' rest rest' : List UInt8}
    (hpart : part.length < 256 ^ width) (hpart' : part'.length < 256 ^ width)
    (h : prefixedPart width part ++ rest = prefixedPart width part' ++ rest') :
    part = part' ∧ rest = rest' := by
  unfold prefixedPart at h
  rw [append_assoc, append_assoc] at h
  obtain ⟨hlen, htail⟩ := append_inj h (by simp)
  exact append_inj htail (leBytes_injective hpart hpart' hlen)

lemma prefixedParts_injective {width : Nat} (hwidth : width ≠ 0)
    {parts parts' : List (List UInt8)} (hparts : ∀ p ∈ parts, p.length < 256 ^ width)
    (hparts' : ∀ p ∈ parts', p.length < 256 ^ width)
    (h : prefixedParts width parts = prefixedParts width parts') : parts = parts' := by
  have hnonempty : ∀ part, prefixedPart width part ≠ [] := by
    intro part hnil
    have hlen := congrArg List.length hnil
    simp only [prefixedPart, length_append, length_leBytes, length_nil] at hlen
    omega
  induction parts generalizing parts' with
  | nil =>
    cases parts' with
    | nil => rfl
    | cons part' rest' =>
      exact absurd (append_eq_nil_iff.mp h.symm).1 (hnonempty part')
  | cons part rest ih =>
    cases parts' with
    | nil =>
      exact absurd (append_eq_nil_iff.mp h).1 (hnonempty part)
    | cons part' rest' =>
      obtain ⟨hpart, hrest⟩ := forall_mem_cons.mp hparts
      obtain ⟨hpart', hrest'⟩ := forall_mem_cons.mp hparts'
      obtain ⟨rfl, htail⟩ := prefixedPart_append_injective hpart hpart' h
      rw [ih hrest hrest' htail]

/-! ## Encodings that mark their own end -/

/-- An encoding whose end is determined by its own symbols. -/
structure Delimited (σ α : Type*) where
  encode : α → List σ
  cancel : ∀ value value' rest rest', encode value ++ rest = encode value' ++ rest' →
    value = value' ∧ rest = rest'

namespace Delimited

variable {σ α β : Type*}

lemma injective (code : Delimited σ α) : Function.Injective code.encode := by
  intro value value' h
  exact (code.cancel value value' [] [] (congrArg (· ++ []) h)).1

def symbol : Delimited σ σ where
  encode value := [value]
  cancel _ _ _ _ h := cons.inj h

def prod (first : Delimited σ α) (second : Delimited σ β) : Delimited σ (α × β) where
  encode value := first.encode value.1 ++ second.encode value.2
  cancel value value' rest rest' h := by
    rw [append_assoc, append_assoc] at h
    obtain ⟨hfirst, htail⟩ := first.cancel _ _ _ _ h
    obtain ⟨hsecond, hrest⟩ := second.cancel _ _ _ _ htail
    exact ⟨Prod.ext hfirst hsecond, hrest⟩

def map (code : Delimited σ β) (f : α → β) (hf : Function.Injective f) : Delimited σ α where
  encode value := code.encode (f value)
  cancel value value' rest rest' h := by
    obtain ⟨hvalue, hrest⟩ := code.cancel _ _ _ _ h
    exact ⟨hf hvalue, hrest⟩

/-- Every element stands behind a symbol that says that there is one. -/
def list (more stop : σ) (hne : more ≠ stop) (code : Delimited σ α) : Delimited σ (List α) where
  encode values := values.flatMap (fun value => more :: code.encode value) ++ [stop]
  cancel values values' rest rest' h := by
    induction values generalizing values' with
    | nil =>
      cases values' with
      | nil => exact ⟨rfl, (cons.inj h).2⟩
      | cons value' values' => exact absurd (cons.inj h).1.symm hne
    | cons value values ih =>
      cases values' with
      | nil => exact absurd (cons.inj h).1 hne
      | cons value' values' =>
        simp only [flatMap_cons, cons_append, append_assoc] at h
        obtain ⟨hvalue, htail⟩ := code.cancel _ _ _ _ (cons.inj h).2
        obtain ⟨hvalues, hrest⟩ := ih values' (by simpa using htail)
        exact ⟨congrArg₂ List.cons hvalue hvalues, hrest⟩

end Delimited

end Encoding
