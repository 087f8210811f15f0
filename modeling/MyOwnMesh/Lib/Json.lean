import Mathlib.Data.List.Basic
import Mathlib.Data.String.Basic
import Mathlib.Tactic.IntervalCases

/-!
# Compact JSON text of strings, numbers and string arrays

The character sequences a compact JSON writer emits, with the unambiguity law of
each: two texts that continue differently but agree as wholes agree piece by
piece. Composite writers are unambiguous by chaining these laws.
-/

namespace Lib.Json

/-- Lowercase hexadecimal digit of a value below 16. -/
def hexDigit (n : Nat) : Char := if n < 10 then Char.ofNat (48 + n) else Char.ofNat (87 + n)

/-- The escape of one character inside a JSON string. -/
def escapeChar (c : Char) : List Char :=
  if c = '\"' then ['\\', '\"']
  else if c = '\\' then ['\\', '\\']
  else if c.toNat = 0x8 then ['\\', 'b']
  else if c.toNat = 0xC then ['\\', 'f']
  else if c = '\n' then ['\\', 'n']
  else if c = '\r' then ['\\', 'r']
  else if c = '\t' then ['\\', 't']
  else if c.toNat < 0x20 then
    ['\\', 'u', '0', '0', hexDigit (c.toNat / 16), hexDigit (c.toNat % 16)]
  else [c]

/-- A quoted JSON string. -/
def quote (s : String) : List Char := '\"' :: (s.toList.flatMap escapeChar ++ ['\"'])

/-- An object field: its quoted name, a colon and what follows. -/
def field (name : String) (rest : List Char) : List Char := quote name ++ ':' :: rest

/-- The rest of a string array after its first element. -/
def arrayTail : List String → List Char
  | [] => [']']
  | s :: rest => ',' :: (quote s ++ arrayTail rest)

/-- A JSON array of strings. -/
def array : List String → List Char
  | [] => ['[', ']']
  | s :: rest => '[' :: (quote s ++ arrayTail rest)

/-- A JSON unsigned number. -/
def number (n : Nat) : List Char := Nat.toDigits 10 n

/-- An optional number, absent as `null`. -/
def optionalNumber : Option Nat → List Char
  | none => ['n', 'u', 'l', 'l']
  | some n => number n

private def hexValue (c : Char) : Nat :=
  if c.toNat < 58 then c.toNat - 48 else c.toNat - 87

private def unescapeOne (c : Char) : Char :=
  if c = 'b' then Char.ofNat 0x8
  else if c = 'f' then Char.ofNat 0xC
  else if c = 'n' then '\n'
  else if c = 'r' then '\r'
  else if c = 't' then '\t'
  else c

/-- Reads an escaped body up to its closing quote; only the laws below use it. -/
private def unquote : List Char → Option (List Char × List Char)
  | [] => none
  | c :: rest =>
    if c = '\"' then some ([], rest)
    else if c = '\\' then
      match rest with
      | 'u' :: _ :: _ :: h :: l :: rest' =>
        (unquote rest').map fun p ↦ (Char.ofNat (hexValue h * 16 + hexValue l) :: p.1, p.2)
      | d :: rest' => (unquote rest').map fun p ↦ (unescapeOne d :: p.1, p.2)
      | [] => none
    else (unquote rest).map fun p ↦ (c :: p.1, p.2)

private theorem unquote_control (n : Nat) (h : n < 0x20) (tail : List Char) :
    unquote (escapeChar (Char.ofNat n) ++ tail) =
      (unquote tail).map fun p ↦ (Char.ofNat n :: p.1, p.2) := by
  interval_cases n <;> rfl

private theorem unquote_escapeChar (c : Char) (tail : List Char) :
    unquote (escapeChar c ++ tail) = (unquote tail).map fun p ↦ (c :: p.1, p.2) := by
  by_cases hc : c.toNat < 0x20
  · have h := unquote_control c.toNat hc tail
    rwa [Char.ofNat_toNat] at h
  · by_cases hq : c = '\"'
    · subst hq
      rfl
    · by_cases hb : c = '\\'
      · subst hb
        rfl
      · have hn : c ≠ '\n' := by rintro rfl; exact hc (by decide)
        have hr : c ≠ '\r' := by rintro rfl; exact hc (by decide)
        have ht : c ≠ '\t' := by rintro rfl; exact hc (by decide)
        have h8 : c.toNat ≠ 0x8 := by omega
        have h12 : c.toNat ≠ 0xC := by omega
        have he : escapeChar c = [c] := by
          simp only [escapeChar, hq, hb, h8, h12, hn, hr, ht, hc, ↓reduceIte]
        rw [he, List.singleton_append, unquote.eq_def]
        simp only [hq, hb, ↓reduceIte]

private theorem unquote_body (s rest : List Char) :
    unquote (s.flatMap escapeChar ++ '\"' :: rest) = some (s, rest) := by
  induction s with
  | nil =>
    rw [List.flatMap_nil, List.nil_append, unquote.eq_def]
    simp only [↓reduceIte]
  | cons c s ih =>
    rw [List.flatMap_cons, List.append_assoc, unquote_escapeChar, ih]
    rfl

/-- Quoted strings are unambiguous whatever follows them. -/
theorem quote_append_inj {s t : String} {r u : List Char}
    (h : quote s ++ r = quote t ++ u) : s = t ∧ r = u := by
  simp only [quote, List.cons_append, List.append_assoc, List.nil_append, List.cons.injEq,
    true_and] at h
  have hd := congrArg unquote h
  rw [unquote_body, unquote_body] at hd
  simp only [Option.some.injEq, Prod.mk.injEq] at hd
  exact ⟨String.toList_inj.mp hd.1, hd.2⟩

/-- A field is determined by its name and what follows. -/
theorem field_inj {name : String} {r u : List Char} :
    field name r = field name u ↔ r = u := by
  simp [field]

/-- A field followed by more text is a field. -/
theorem field_append (name : String) (r u : List Char) :
    field name r ++ u = field name (r ++ u) := by
  simp [field]

private theorem arrayTail_append_inj {xs ys : List String} {r u : List Char}
    (h : arrayTail xs ++ r = arrayTail ys ++ u) : xs = ys ∧ r = u := by
  induction xs generalizing ys with
  | nil =>
    cases ys with
    | nil => exact ⟨rfl, by simpa [arrayTail] using h⟩
    | cons y ys => simp [arrayTail] at h
  | cons x xs ih =>
    cases ys with
    | nil => simp [arrayTail] at h
    | cons y ys =>
      simp only [arrayTail, List.cons_append, List.append_assoc, List.cons.injEq, true_and] at h
      obtain ⟨rfl, ht⟩ := quote_append_inj h
      obtain ⟨rfl, hr⟩ := ih ht
      exact ⟨rfl, hr⟩

/-- String arrays are unambiguous whatever follows them. -/
theorem array_append_inj {xs ys : List String} {r u : List Char}
    (h : array xs ++ r = array ys ++ u) : xs = ys ∧ r = u := by
  have quote_ne (s : String) (tl v : List Char) : quote s ++ tl ≠ ']' :: v := by simp [quote]
  cases xs with
  | nil =>
    cases ys with
    | nil => exact ⟨rfl, by simpa [array] using h⟩
    | cons y ys =>
      simp only [array, List.cons_append, List.nil_append, List.cons.injEq, true_and,
        List.append_assoc] at h
      exact absurd h.symm (quote_ne y _ _)
  | cons x xs =>
    cases ys with
    | nil =>
      simp only [array, List.cons_append, List.nil_append, List.cons.injEq, true_and,
        List.append_assoc] at h
      exact absurd h (quote_ne x _ _)
    | cons y ys =>
      simp only [array, List.cons_append, List.append_assoc, List.cons.injEq, true_and] at h
      obtain ⟨rfl, ht⟩ := quote_append_inj h
      obtain ⟨rfl, hr⟩ := arrayTail_append_inj ht
      exact ⟨rfl, hr⟩

private theorem takeWhile_number (n : Nat) (c : Char) (r : List Char) (hc : c.isDigit = false) :
    (number n ++ c :: r).takeWhile Char.isDigit = number n := by
  rw [List.takeWhile_append_of_pos]
  · simp [hc]
  · exact fun d hd ↦ Nat.isDigit_of_mem_toDigits (by decide) (by decide) hd

/-- Numbers are unambiguous when no digit follows them. -/
theorem number_append_inj {m n : Nat} {c d : Char} {r u : List Char}
    (hc : c.isDigit = false) (hd : d.isDigit = false)
    (h : number m ++ c :: r = number n ++ d :: u) : m = n ∧ c :: r = d :: u := by
  have ht := congrArg (List.takeWhile Char.isDigit) h
  rw [takeWhile_number m c r hc, takeWhile_number n d u hd] at ht
  have hv := congrArg (fun l ↦ Nat.ofDigitChars 10 l 0) ht
  simp only [number, Nat.ofDigitChars_ten_toDigits] at hv
  subst hv
  exact ⟨rfl, List.append_cancel_left h⟩

/-- Optional numbers are unambiguous when no digit follows them. -/
theorem optionalNumber_append_inj {m n : Option Nat} {c d : Char} {r u : List Char}
    (hc : c.isDigit = false) (hd : d.isDigit = false)
    (h : optionalNumber m ++ c :: r = optionalNumber n ++ d :: u) :
    m = n ∧ c :: r = d :: u := by
  have null_ne (k : Nat) (e : Char) (v w : List Char) :
      optionalNumber none ++ w ≠ number k ++ e :: v := by
    intro hk
    have hne : number k ≠ [] := Nat.toDigits_ne_nil
    obtain ⟨a, l, hl⟩ := List.exists_cons_of_ne_nil hne
    have ha : a.isDigit = true :=
      Nat.isDigit_of_mem_toDigits (b := 10) (n := k) (by decide) (by decide) (by
        rw [show Nat.toDigits 10 k = a :: l from hl]
        simp)
    rw [hl] at hk
    simp only [optionalNumber, List.cons_append, List.cons.injEq] at hk
    rw [← hk.1] at ha
    exact absurd ha (by decide)
  cases m with
  | none =>
    cases n with
    | none => exact ⟨rfl, List.append_cancel_left h⟩
    | some n => exact absurd h (null_ne n d u (c :: r))
  | some m =>
    cases n with
    | none => exact absurd h.symm (null_ne m c r (d :: u))
    | some n =>
      obtain ⟨rfl, hr⟩ := number_append_inj hc hd h
      exact ⟨rfl, hr⟩

end Lib.Json
