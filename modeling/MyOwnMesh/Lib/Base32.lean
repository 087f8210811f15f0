import Mathlib.Data.BitVec
import Mathlib.Data.List.Basic
import Mathlib.Tactic.Cases

/-!
# Base32 without padding

The RFC 4648 alphabet `A–Z2–7`, five bits a symbol, most significant bit first.
The encoder fills the last symbol with zero bits; the decoder refuses foreign
symbols, impossible lengths and non-zero filling, so every byte string has one
encoding. Symbols are uppercase; case mapping is the caller's.
-/

namespace Lib.Base32

/-- The bits of a byte, most significant first. -/
def byteBits (b : UInt8) : List Bool :=
  [b.toBitVec.getMsbD 0, b.toBitVec.getMsbD 1, b.toBitVec.getMsbD 2, b.toBitVec.getMsbD 3,
    b.toBitVec.getMsbD 4, b.toBitVec.getMsbD 5, b.toBitVec.getMsbD 6, b.toBitVec.getMsbD 7]

/-- The number a bit list writes, most significant bit first. -/
def bitsValue (bs : List Bool) : Nat := bs.foldl (fun n b ↦ 2 * n + b.toNat) 0

/-- The symbol of a five-bit value. -/
def symbol (n : Nat) : Char :=
  if n < 26 then Char.ofNat (65 + n) else Char.ofNat (24 + n)

/-- The five bits of a value below 32, most significant first. -/
def quintet (n : Nat) : List Bool :=
  [n / 16 % 2 == 1, n / 8 % 2 == 1, n / 4 % 2 == 1, n / 2 % 2 == 1, n % 2 == 1]

/-- The five bits of a symbol of the alphabet. -/
def symbolBits (c : Char) : Option (List Bool) :=
  let n := c.toNat
  if 65 ≤ n ∧ n ≤ 90 then some (quintet (n - 65))
  else if 50 ≤ n ∧ n ≤ 55 then some (quintet (n - 24))
  else none

/-- Cut a bit stream into symbols, filling the last one with zero bits. -/
def encodeBits : List Bool → List Char
  | [] => []
  | [a] => [symbol (bitsValue [a, false, false, false, false])]
  | [a, b] => [symbol (bitsValue [a, b, false, false, false])]
  | [a, b, c] => [symbol (bitsValue [a, b, c, false, false])]
  | [a, b, c, d] => [symbol (bitsValue [a, b, c, d, false])]
  | a :: b :: c :: d :: e :: rest => symbol (bitsValue [a, b, c, d, e]) :: encodeBits rest

/-- Encode bytes. -/
def encode (bytes : List UInt8) : List Char := encodeBits (bytes.flatMap byteBits)

/-- The bit stream of a symbol list, or nothing when a symbol is foreign. -/
def decodeBits : List Char → Option (List Bool)
  | [] => some []
  | c :: rest => do
    let b ← symbolBits c
    let bs ← decodeBits rest
    return b ++ bs

/-- Pack whole bytes from a bit stream; fewer than eight remaining bits are dropped. -/
def packBytes : List Bool → List UInt8
  | a :: b :: c :: d :: e :: f :: g :: h :: rest =>
    UInt8.ofNat (bitsValue [a, b, c, d, e, f, g, h]) :: packBytes rest
  | _ => []

/-- Decode symbols. The bits past the last whole byte must be fewer than a symbol and zero. -/
def decode (cs : List Char) : Option (List UInt8) := do
  let bits ← decodeBits cs
  let filling := bits.drop (bits.length / 8 * 8)
  if filling.length < 5 ∧ filling.all (! ·) then return packBytes bits else none

/-- Five bits survive being written as a symbol. -/
theorem symbolBits_symbol (a b c d e : Bool) :
    symbolBits (symbol (bitsValue [a, b, c, d, e])) = some [a, b, c, d, e] := by
  cases a <;> cases b <;> cases c <;> cases d <;> cases e <;> decide

/-- Every symbol survives lowering and raising its case. -/
theorem toUpper_toLower_symbol (a b c d e : Bool) :
    (symbol (bitsValue [a, b, c, d, e])).toLower.toUpper =
      symbol (bitsValue [a, b, c, d, e]) := by
  cases a <;> cases b <;> cases c <;> cases d <;> cases e <;> decide

/-- The lowercase form of a symbol is an ASCII letter or digit of the lowercase alphabet. -/
theorem isAlphanum_toLower_symbol (a b c d e : Bool) :
    (symbol (bitsValue [a, b, c, d, e])).toLower.isAlphanum = true ∧
      (symbol (bitsValue [a, b, c, d, e])).toLower.toLower =
        (symbol (bitsValue [a, b, c, d, e])).toLower := by
  cases a <;> cases b <;> cases c <;> cases d <;> cases e <;> decide

/-- Every character of an encoding is the symbol of some five bits. -/
theorem mem_encodeBits {bs : List Bool} {x : Char} (h : x ∈ encodeBits bs) :
    ∃ a b c d e : Bool, x = symbol (bitsValue [a, b, c, d, e]) := by
  induction bs using encodeBits.induct with
  | case1 => simp [encodeBits] at h
  | case2 a => exact ⟨a, _, _, _, _, by simpa [encodeBits] using h⟩
  | case3 a b => exact ⟨a, b, _, _, _, by simpa [encodeBits] using h⟩
  | case4 a b c => exact ⟨a, b, c, _, _, by simpa [encodeBits] using h⟩
  | case5 a b c d => exact ⟨a, b, c, d, _, by simpa [encodeBits] using h⟩
  | case6 a b c d e rest ih =>
    rw [encodeBits, List.mem_cons] at h
    rcases h with h | h
    · exact ⟨a, b, c, d, e, h⟩
    · exact ih h

/-- A text that decodes has symbols only. -/
theorem symbol_of_decode {cs : List Char} {bytes : List UInt8} (h : decode cs = some bytes)
    {c : Char} (hc : c ∈ cs) : 50 ≤ c.toNat ∧ c.toNat ≤ 90 := by
  have hbits : ∃ bits, decodeBits cs = some bits := by
    cases hb : decodeBits cs with
    | none => simp [decode, hb] at h
    | some bits => exact ⟨bits, rfl⟩
  clear h
  induction cs with
  | nil => cases hc
  | cons x rest ih =>
    obtain ⟨bits, hbits⟩ := hbits
    simp only [decodeBits, Option.bind_eq_bind, Option.bind_eq_some_iff] at hbits
    obtain ⟨b, hx, bs, hrest, -⟩ := hbits
    rcases List.mem_cons.mp hc with rfl | hmem
    · unfold symbolBits at hx
      simp only at hx
      split at hx
      · omega
      · split at hx
        · omega
        · cases hx
    · exact ih hmem ⟨bs, hrest⟩

/-- The symbols of a bit stream decode to that stream and at most four filling zeros. -/
theorem decodeBits_encodeBits (bs : List Bool) :
    ∃ k < 5, decodeBits (encodeBits bs) = some (bs ++ List.replicate k false) := by
  induction bs using encodeBits.induct with
  | case1 => exact ⟨0, by decide, rfl⟩
  | case2 a => exact ⟨4, by decide, by simp [encodeBits, decodeBits, symbolBits_symbol]⟩
  | case3 a b => exact ⟨3, by decide, by simp [encodeBits, decodeBits, symbolBits_symbol]⟩
  | case4 a b c => exact ⟨2, by decide, by simp [encodeBits, decodeBits, symbolBits_symbol]⟩
  | case5 a b c d => exact ⟨1, by decide, by simp [encodeBits, decodeBits, symbolBits_symbol]⟩
  | case6 a b c d e rest ih =>
    obtain ⟨k, hk, h⟩ := ih
    exact ⟨k, hk, by simp [encodeBits, decodeBits, symbolBits_symbol, h]⟩

private theorem byteBits_value (v : BitVec 8) :
    UInt8.ofNat (bitsValue (byteBits (UInt8.ofBitVec v))) = UInt8.ofBitVec v := by
  revert v
  decide +kernel

/-- Packing the bits of a byte gives the byte back. -/
theorem ofNat_bitsValue_byteBits (b : UInt8) : UInt8.ofNat (bitsValue (byteBits b)) = b := by
  have h := byteBits_value b.toBitVec
  rwa [UInt8.ofBitVec_toBitVec] at h

/-- Whole bytes at the front of a bit stream are packed first. -/
theorem packBytes_append (bytes : List UInt8) (rest : List Bool) :
    packBytes (bytes.flatMap byteBits ++ rest) = bytes ++ packBytes rest := by
  induction bytes with
  | nil => rfl
  | cons b bs ih =>
    have hb := ofNat_bitsValue_byteBits b
    simp only [List.flatMap_cons, List.append_assoc]
    simp only [byteBits] at hb ⊢
    simp only [List.cons_append, List.nil_append, packBytes, hb, List.cons.injEq, true_and]
    exact ih

/-- Fewer than eight bits pack to nothing. -/
theorem packBytes_of_length_lt {bs : List Bool} (h : bs.length < 8) : packBytes bs = [] := by
  unfold packBytes
  split
  · simp only [List.length_cons] at h
    omega
  · rfl

/-- A bit stream has a symbol for every five bits, the last one filled up. -/
theorem length_encodeBits (bs : List Bool) : (encodeBits bs).length = (bs.length + 4) / 5 := by
  fun_induction encodeBits bs with
  | case1 | case2 | case3 | case4 | case5 => simp
  | case6 a b c d e rest ih =>
    simp only [List.length_cons, ih]
    omega

/-- A byte string has eight bits a byte. -/
theorem length_flatMap_byteBits (bytes : List UInt8) :
    (bytes.flatMap byteBits).length = bytes.length * 8 := by
  induction bytes with
  | nil => rfl
  | cons b bs ih =>
    rw [List.flatMap_cons, List.length_append, ih, List.length_cons]
    simp only [byteBits, List.length_cons, List.length_nil]
    omega

/-- Decoding an encoding recovers the bytes. -/
theorem decode_encode (bytes : List UInt8) : decode (encode bytes) = some bytes := by
  obtain ⟨k, hk, h⟩ := decodeBits_encodeBits (bytes.flatMap byteBits)
  have hlen : (bytes.flatMap byteBits ++ List.replicate k false).length / 8 * 8 =
      (bytes.flatMap byteBits).length := by
    rw [List.length_append, length_flatMap_byteBits, List.length_replicate]
    omega
  have hpack : packBytes (List.replicate k false) = [] :=
    packBytes_of_length_lt (by rw [List.length_replicate]; omega)
  simp only [decode, encode, h, Option.bind_eq_bind, Option.bind_some, hlen, List.drop_left,
    packBytes_append, hpack, List.append_nil, List.length_replicate]
  simp [hk]

end Lib.Base32
