import Mathlib.Data.List.Basic

/-!
# Texts of IP addresses

The texts that name an IP address: four decimal numbers between dots, or groups of hexadecimal
digits between colons, of which `::` leaves some out and the last two may be written as an IPv4
address.  A reader takes what it can from the front of a text and gives back the rest.
-/

/-- An address, as its bytes or as its groups of 16 bits. -/
inductive IpAddr
  | v4 (octets : List ℕ)
  | v6 (groups : List ℕ)
  deriving DecidableEq

namespace IpAddr

def digitValue (radix : ℕ) (c : Char) : Option ℕ :=
  let value :=
    if '0' ≤ c ∧ c ≤ '9' then some (c.toNat - '0'.toNat)
    else if 'a' ≤ c ∧ c ≤ 'z' then some (c.toNat - 'a'.toNat + 10)
    else if 'A' ≤ c ∧ c ≤ 'Z' then some (c.toNat - 'A'.toNat + 10)
    else none
  value.filter (· < radix)

/-- A number below `limit`, of at most `maxDigits` digits. -/
def readNumber (radix maxDigits limit : ℕ) (allowZeroPrefix : Bool) (text : List Char) :
    Option (ℕ × List Char) :=
  let digits := text.takeWhile fun c => (digitValue radix c).isSome
  let value := (digits.filterMap (digitValue radix)).foldl (fun number d => number * radix + d) 0
  if digits = [] ∨ maxDigits < digits.length then none
  else if allowZeroPrefix = false ∧ digits.head? = some '0' ∧ 1 < digits.length then none
  else if value < limit then some (value, text.drop digits.length)
  else none

/-- What stands at an index, behind a separator unless it is the first. -/
def readSeparated {α : Type} (separator : Char) (index : ℕ)
    (inner : List Char → Option (α × List Char)) (text : List Char) : Option (α × List Char) :=
  if index = 0 then inner text
  else
    match text with
    | [] => none
    | c :: rest => if c = separator then inner rest else none

def readOctets : ℕ → ℕ → List Char → Option (List ℕ × List Char)
  | 0, _, text => some ([], text)
  | remaining + 1, index, text => do
    let (octet, text) ← readSeparated '.' index (readNumber 10 3 256 false) text
    let (octets, text) ← readOctets remaining (index + 1) text
    some (octet :: octets, text)

def readIpv4 (text : List Char) : Option (List ℕ × List Char) := readOctets 4 0 text

/-- The groups from an index on, as many as there are, and whether they end with an IPv4 address. -/
def readGroups : ℕ → ℕ → List Char → List ℕ × Bool × List Char
  | 0, _, text => ([], false, text)
  | remaining + 1, index, text =>
    match if 0 < remaining then readSeparated ':' index readIpv4 text else none with
    | some ([one, two, three, four], text) => ([one * 256 + two, three * 256 + four], true, text)
    | _ =>
      match readSeparated ':' index (readNumber 16 4 65536 true) text with
      | some (group, text) =>
        let (groups, ipv4, text) := readGroups remaining (index + 1) text
        (group :: groups, ipv4, text)
      | none => ([], false, text)

def readIpv6 (text : List Char) : Option (List ℕ × List Char) :=
  let (head, ipv4, text) := readGroups 8 0 text
  if head.length = 8 then some (head, text)
  -- An IPv4 address may only stand at the very end.
  else if ipv4 then none
  else
    match text with
    | ':' :: ':' :: text =>
      let (tail, _, text) := readGroups (7 - head.length) 0 text
      some (head ++ List.replicate (8 - head.length - tail.length) 0 ++ tail, text)
    | _ => none

def parse (text : List Char) : Option IpAddr :=
  match readIpv4 text with
  | some (octets, rest) => if rest = [] then some (v4 octets) else none
  | none =>
    match readIpv6 text with
    | some (groups, rest) => if rest = [] then some (v6 groups) else none
    | none => none

/-- The addresses by which a machine reaches itself. -/
def isLoopback : IpAddr → Bool
  | v4 octets => octets.head? = some 127
  | v6 groups => groups = [0, 0, 0, 0, 0, 0, 0, 1]

/-- No address begins with a character that is neither a digit nor a colon. -/
lemma parse_eq_none {c : Char} {rest : List Char} (hdigit : digitValue 16 c = none)
    (hdecimal : digitValue 10 c = none) (hcolon : c ≠ ':') : parse (c :: rest) = none := by
  have hnumber : ∀ radix maxDigits limit allowZeroPrefix, digitValue radix c = none →
      readNumber radix maxDigits limit allowZeroPrefix (c :: rest) = none := by
    intro radix maxDigits limit allowZeroPrefix h
    rw [readNumber, List.takeWhile_cons_of_neg (by rw [h]; exact Bool.false_ne_true)]
    exact if_pos (.inl rfl)
  have hv4 : readIpv4 (c :: rest) = none := by
    rw [readIpv4, readOctets, readSeparated, if_pos rfl, hnumber _ _ _ _ hdecimal]
    rfl
  have hgroups : readGroups 8 0 (c :: rest) = ([], false, c :: rest) := by
    rw [readGroups, readSeparated, readSeparated, if_pos (Nat.succ_pos 6), if_pos rfl, if_pos rfl,
      hv4, hnumber _ _ _ _ hdigit]
  have hv6 : readIpv6 (c :: rest) = none := by
    rw [readIpv6, hgroups]
    simp only [List.length_nil, Nat.reduceEqDiff, if_false, Bool.false_eq_true]
    split
    · next heq => exact absurd (List.cons.inj heq).1 hcolon
    · rfl
  rw [parse, hv4, hv6]

end IpAddr
