import Mathlib.Algebra.Ring.Nat
import Mathlib.Data.List.Basic

/-!
# Block and transaction hashes

A hash is 32 bytes, ordered as its big-endian number.  Checkpoints travel
through the `vars` table as lower-case hex text, so the codec is part of the
model: what `hex::encode` writes, `from_str` and SQL `decode(.., 'hex')` read
back as the same hash.
-/

namespace VecnoIndexer

/-- `vecno_hashes::Hash`, 32 bytes read as one big-endian number. -/
abbrev Hash := BitVec 256

instance : LawfulBEq Hash := inferInstance

/-- Byte strings: scripts, payloads, nonces. -/
abbrev Bytes := List UInt8

namespace Hash

/-- The lower-case hex digit of a value below 16. -/
def hexDigit (digit : Nat) : Char :=
  if digit < 10 then Char.ofNat (48 + digit) else Char.ofNat (87 + digit)

/-- The value of a hex digit of either case. -/
def hexValue (char : Char) : Option Nat :=
  if '0' ≤ char ∧ char ≤ '9' then some (char.toNat - 48)
  else if 'a' ≤ char ∧ char ≤ 'f' then some (char.toNat - 87)
  else if 'A' ≤ char ∧ char ≤ 'F' then some (char.toNat - 55)
  else none

/-- The last `count` base-16 digits of a number, most significant first. -/
def digits : Nat → Nat → List Nat
  | 0, _ => []
  | count + 1, value => digits count (value / 16) ++ [value % 16]

/-- The number a list of base-16 digits denotes. -/
def ofDigits (values : List Nat) : Nat :=
  values.foldl (fun number digit => number * 16 + digit) 0

/-- `hex::encode(hash.as_bytes())`. -/
def encode (hash : Hash) : String :=
  String.ofList ((digits 64 hash.toNat).map hexDigit)

/-- `Hash::from_str` on the texts that `encode` writes, which are the only ones stored: exactly
64 hex digits. Of longer texts it may accept some, which this does not. -/
def fromStr (text : String) : Option Hash :=
  if text.toList.length = 64 then
    (text.toList.mapM hexValue).map fun values => BitVec.ofNat 256 (ofDigits values)
  else
    none

theorem length_digits (count value : Nat) : (digits count value).length = count := by
  induction count generalizing value with
  | zero => rfl
  | succ count ih => simp [digits, ih]

theorem lt_of_mem_digits {count value digit : Nat} (member : digit ∈ digits count value) :
    digit < 16 := by
  induction count generalizing value with
  | zero => simp [digits] at member
  | succ count ih =>
      rcases List.mem_append.mp member with inFront | isLast
      · exact ih inFront
      · rw [List.mem_singleton] at isLast
        omega

theorem ofDigits_digits {count value : Nat} (bound : value < 16 ^ count) :
    ofDigits (digits count value) = value := by
  induction count generalizing value with
  | zero => simp [digits, ofDigits]; omega
  | succ count ih =>
      have quotient : value / 16 < 16 ^ count := by
        rw [Nat.pow_succ] at bound
        omega
      have front : (digits count (value / 16)).foldl
          (fun number digit => number * 16 + digit) 0 = value / 16 := ih quotient
      simp only [ofDigits, digits, List.foldl_append, front, List.foldl_cons, List.foldl_nil]
      omega

theorem hexValue_hexDigit {digit : Nat} (bound : digit < 16) :
    hexValue (hexDigit digit) = some digit := by
  have all : ∀ value : Fin 16, hexValue (hexDigit value) = some value.val := by decide
  exact all ⟨digit, bound⟩

theorem mapM_hexValue_map_hexDigit {values : List Nat} (bound : ∀ digit ∈ values, digit < 16) :
    (values.map hexDigit).mapM hexValue = some values := by
  induction values with
  | nil => rfl
  | cons first rest ih =>
      have restParsed := ih fun digit member => bound digit (List.mem_cons_of_mem first member)
      simp [List.mapM_cons, hexValue_hexDigit (bound first List.mem_cons_self), restParsed]

/-- Saved checkpoints are read back as the hash that was saved. -/
@[simp]
theorem fromStr_encode (hash : Hash) : fromStr (encode hash) = some hash := by
  have parsed : ((digits 64 hash.toNat).map hexDigit).mapM hexValue =
      some (digits 64 hash.toNat) :=
    mapM_hexValue_map_hexDigit fun _ member => lt_of_mem_digits member
  have value : ofDigits (digits 64 hash.toNat) = hash.toNat :=
    ofDigits_digits (by simpa using hash.isLt)
  simp [fromStr, encode, length_digits, parsed, value]

theorem encode_injective : Function.Injective encode := by
  intro first second equal
  have parsed : fromStr (encode first) = fromStr (encode second) := congrArg fromStr equal
  simpa using parsed

end Hash

end VecnoIndexer
