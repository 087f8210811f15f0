import Mathlib.Data.String.Basic
import Mathlib.Data.List.DropRight
import Mathlib.Data.List.Sort

/-!
# Text operations of the host language's standard library

Trimming, lines and words, splitting at the first and the last separator, ASCII case mapping,
hexadecimal and the UTF-8 byte view, over Unicode scalar values. A string is observed through its
list of characters; lengths that the host language counts in bytes are `utf8ByteSize`.
-/

namespace Lib.Text

/-- The Unicode `White_Space` property, the one trimming is defined by. -/
def isWhitespace (c : Char) : Bool :=
  let n := c.toNat
  (0x9 ≤ n && n ≤ 0xD) || n == 0x20 || n == 0x85 || n == 0xA0 || n == 0x1680 ||
    (0x2000 ≤ n && n ≤ 0x200A) || n == 0x2028 || n == 0x2029 || n == 0x202F ||
    n == 0x205F || n == 0x3000

/-- Drop white space at both ends. -/
def trim (s : String) : String :=
  String.ofList ((s.toList.dropWhile isWhitespace).reverse.dropWhile isWhitespace).reverse

/-- Split at the last occurrence of a separator, which neither half keeps. -/
def rsplitOnceChars (sep : Char) : List Char → Option (List Char × List Char)
  | [] => none
  | c :: rest =>
    match rsplitOnceChars sep rest with
    | some (body, tail) => some (c :: body, tail)
    | none => if c = sep then some ([], rest) else none

/-- Split a string at the last occurrence of a separator. -/
def rsplitOnce (sep : Char) (s : String) : Option (String × String) :=
  (rsplitOnceChars sep s.toList).map fun p ↦ (String.ofList p.1, String.ofList p.2)

/-- The lines of a text: each ends at a line feed, which it does not keep, nor a carriage return
before it; the last one needs no line feed. The line read so far is held in reverse. -/
def linesFrom (line : List Char) : List Char → List (List Char)
  | [] => if line = [] then [] else [line.reverse]
  | c :: rest =>
    if c = '\n' then
      (if line.head? = some '\r' then line.tail else line).reverse :: linesFrom [] rest
    else linesFrom (c :: line) rest

/-- The lines of a string. -/
def lines (s : String) : List String := (linesFrom [] s.toList).map String.ofList

/-- Split at the first occurrence of a separator, which neither half keeps. -/
def splitOnceChars (sep : Char) : List Char → Option (List Char × List Char)
  | [] => none
  | c :: rest =>
    if c = sep then some ([], rest)
    else (splitOnceChars sep rest).map fun p ↦ (c :: p.1, p.2)

/-- Split a string at the first occurrence of a separator. -/
def splitOnce (sep : Char) (s : String) : Option (String × String) :=
  (splitOnceChars sep s.toList).map fun p ↦ (String.ofList p.1, String.ofList p.2)

/-- What follows leading characters, if the text starts with them. -/
def afterChars (lead cs : List Char) : Option (List Char) :=
  if lead.isPrefixOf cs then some (cs.drop lead.length) else none

/-- What follows a leading text, if the string starts with it. -/
def after (lead s : String) : Option String :=
  if lead.toList.isPrefixOf s.toList then some (String.ofList (s.toList.drop lead.toList.length))
  else none

/-- The ASCII white space that separates words. -/
def isAsciiWhitespace (c : Char) : Bool :=
  c == ' ' || c == '\t' || c == '\n' || c == '\r' || c == '\x0c'

/-- The words between white space. The word read so far is held in reverse. -/
def wordsFrom (word : List Char) : List Char → List (List Char)
  | [] => if word = [] then [] else [word.reverse]
  | c :: rest =>
    if isAsciiWhitespace c then
      if word = [] then wordsFrom [] rest else word.reverse :: wordsFrom [] rest
    else wordsFrom (c :: word) rest

/-- The words of a string, split at ASCII white space. -/
def splitAsciiWhitespace (s : String) : List String :=
  (wordsFrom [] s.toList).map String.ofList

/-- ASCII lowercase; every other character is kept. -/
def asciiLower (s : String) : String := String.ofList (s.toList.map Char.toLower)

/-- ASCII uppercase; every other character is kept. -/
def asciiUpper (s : String) : String := String.ofList (s.toList.map Char.toUpper)

/-- Equality up to ASCII case. -/
def eqIgnoreAsciiCase (a b : String) : Bool := asciiLower a == asciiLower b

/-- The UTF-8 bytes of a string. -/
def utf8 (s : String) : List UInt8 := s.toList.flatMap String.utf8EncodeChar

/-- The first bytes of a string. A cut is defined only between two characters. -/
def sliceTo (s : String) (n : Nat) : Option String :=
  if (⟨n⟩ : String.Pos.Raw).IsValid s then some (String.Pos.Raw.extract s 0 ⟨n⟩) else none

/-- The bytes of a string from a cut on. -/
def sliceFrom (s : String) (n : Nat) : Option String :=
  if (⟨n⟩ : String.Pos.Raw).IsValid s then some (String.Pos.Raw.extract s ⟨n⟩ s.rawEndPos)
  else none

/-- Ascending order of strings by code points, which is also their byte order. -/
def sortStrings (xs : List String) : List String := xs.insertionSort (· ≤ ·)

/-- Sorting forgets the order. -/
theorem sortStrings_of_perm {xs ys : List String} (h : xs.Perm ys) :
    sortStrings xs = sortStrings ys := by
  have hperm : (sortStrings xs).Perm (sortStrings ys) :=
    (List.perm_insertionSort _ xs).trans (h.trans (List.perm_insertionSort _ ys).symm)
  exact hperm.eq_of_pairwise' (List.pairwise_insertionSort (· ≤ ·) xs)
    (List.pairwise_insertionSort (· ≤ ·) ys)

/-- A line feed ends a line, whatever follows. -/
theorem linesFrom_append (line body rest : List Char) :
    linesFrom line (body ++ '\n' :: rest) =
      linesFrom line (body ++ ['\n']) ++ linesFrom [] rest := by
  induction body generalizing line with
  | nil => simp [linesFrom]
  | cons c body ih =>
    simp only [List.cons_append, linesFrom]
    split
    · rw [ih, List.cons_append]
    · exact ih (c :: line)

/-- A line is a part of the text, without its line feed. -/
theorem infix_of_mem_linesFrom {line cs l : List Char} (h : l ∈ linesFrom line cs) :
    l <:+: line.reverse ++ cs := by
  induction cs generalizing line with
  | nil =>
    rw [linesFrom] at h
    split at h
    · cases h
    · exact ⟨[], [], by simp [List.mem_singleton.mp h]⟩
  | cons c cs ih =>
    rw [linesFrom] at h
    split at h
    · rcases List.mem_cons.mp h with rfl | hmem
      · have hsuffix : (if line.head? = some '\r' then line.tail else line) <:+ line := by
          split
          · exact List.tail_suffix line
          · exact List.suffix_rfl
        exact (List.reverse_prefix.mpr hsuffix).isInfix.trans (List.prefix_append _ _).isInfix
      · have hrest := ih hmem
        exact hrest.trans ⟨line.reverse ++ [c], [], by simp⟩
    · have hrest := ih h
      rwa [List.reverse_cons, List.append_assoc, List.singleton_append] at hrest

/-- A text without the separator does not split. -/
theorem rsplitOnceChars_of_notMem {sep : Char} {cs : List Char} (h : sep ∉ cs) :
    rsplitOnceChars sep cs = none := by
  induction cs with
  | nil => rfl
  | cons c rest ih =>
    simp only [List.mem_cons, not_or] at h
    simp [rsplitOnceChars, ih h.2, Ne.symm h.1]

/-- Splitting at the last separator recovers body and tail when the tail has none. -/
theorem rsplitOnceChars_append {sep : Char} {body tail : List Char} (h : sep ∉ tail) :
    rsplitOnceChars sep (body ++ sep :: tail) = some (body, tail) := by
  induction body with
  | nil => simp [rsplitOnceChars, rsplitOnceChars_of_notMem h]
  | cons c rest ih => simp [rsplitOnceChars, ih]

/-- A text without the separator does not split. -/
theorem splitOnceChars_of_notMem {sep : Char} {cs : List Char} (h : sep ∉ cs) :
    splitOnceChars sep cs = none := by
  induction cs with
  | nil => rfl
  | cons c rest ih =>
    simp only [List.mem_cons, not_or] at h
    rw [splitOnceChars, if_neg (Ne.symm h.1), ih h.2]
    rfl

/-- Splitting at the first separator recovers both halves when the first has none. -/
theorem splitOnceChars_append {sep : Char} {head tail : List Char} (h : sep ∉ head) :
    splitOnceChars sep (head ++ sep :: tail) = some (head, tail) := by
  induction head with
  | nil => simp [splitOnceChars]
  | cons c rest ih =>
    simp only [List.mem_cons, not_or] at h
    rw [List.cons_append, splitOnceChars, if_neg (Ne.symm h.1), ih h.2]
    rfl

/-- What follows is what was put after the lead. -/
theorem afterChars_append (lead cs : List Char) : afterChars lead (lead ++ cs) = some cs := by
  have hprefix : lead.isPrefixOf (lead ++ cs) = true :=
    List.isPrefixOf_iff_prefix.mpr (List.prefix_append lead cs)
  rw [afterChars, if_pos hprefix, List.drop_left]

/-- A text that starts with another character does not follow one. -/
theorem afterChars_singleton_of_ne {c : Char} {cs : List Char} (h : cs.head? ≠ some c) :
    afterChars [c] cs = none := by
  cases cs with
  | nil => rfl
  | cons d rest =>
    have hne : c ≠ d := fun heq ↦ h (congrArg some heq.symm)
    simp [afterChars, hne]

/-- A text without white space has nothing to trim. -/
theorem trim_of_forall {s : String} (h : ∀ c ∈ s.toList, isWhitespace c = false) :
    trim s = s := by
  have drop (cs : List Char) (hcs : ∀ c ∈ cs, isWhitespace c = false) :
      cs.dropWhile isWhitespace = cs := by
    cases cs with
    | nil => rfl
    | cons c rest =>
      rw [List.dropWhile_cons_of_neg]
      simp [hcs c (by simp)]
  rw [trim, drop _ h, drop _ (fun c hc ↦ h c (List.mem_reverse.mp hc)),
    List.reverse_reverse, String.ofList_toList]

private theorem filter_dropWhile {p q : Char → Bool} (h : ∀ c, p c = true → q c = false)
    (cs : List Char) : (cs.dropWhile q).filter p = cs.filter p := by
  induction cs with
  | nil => rfl
  | cons c rest ih =>
    cases hq : q c with
    | false => rw [List.dropWhile_cons_of_neg (by simp [hq])]
    | true =>
      have hp : p c = false := by
        cases hp : p c with
        | false => rfl
        | true => rw [h c hp] at hq; cases hq
      rw [List.dropWhile_cons_of_pos hq, ih, List.filter_cons_of_neg (by simp [hp])]

/-- Trimming takes nothing away that is no white space. -/
theorem filter_trim {p : Char → Bool} (h : ∀ c, p c = true → isWhitespace c = false)
    (s : String) : (trim s).toList.filter p = s.toList.filter p := by
  rw [trim, String.toList_ofList, List.filter_reverse, filter_dropWhile h, List.filter_reverse,
    List.reverse_reverse, filter_dropWhile h]

/-- Trimming twice is trimming once. -/
theorem trim_trim (s : String) : trim (trim s) = trim s := by
  have hstart : ∀ cs : List Char, ((cs.dropWhile isWhitespace).rdropWhile isWhitespace).dropWhile
      isWhitespace = (cs.dropWhile isWhitespace).rdropWhile isWhitespace := by
    intro cs
    rw [List.dropWhile_eq_self_iff]
    intro hl
    rw [(List.rdropWhile_prefix isWhitespace (cs.dropWhile isWhitespace)).getElem hl]
    exact List.dropWhile_eq_self_iff.mp (List.dropWhile_idempotent isWhitespace cs) _
  have htrim : ∀ t : String, trim t =
      String.ofList ((t.toList.dropWhile isWhitespace).rdropWhile isWhitespace) := fun _ ↦ rfl
  rw [htrim, htrim s, String.toList_ofList, hstart, List.rdropWhile_idempotent]

/-- The two hexadecimal digits of a byte. -/
def hexDigits (b : UInt8) : List Char := [(b.toNat / 16).digitChar, (b.toNat % 16).digitChar]

/-- Bytes in lowercase hexadecimal. -/
def hexEncode (bytes : List UInt8) : String := String.ofList (bytes.flatMap hexDigits)

private theorem digitChar_inj {a b : Nat} (ha : a < 16) (hb : b < 16)
    (h : a.digitChar = b.digitChar) : a = b := by
  have hall : ∀ a b : Fin 16, a.val.digitChar = b.val.digitChar → a = b := by decide
  exact congrArg Fin.val (hall ⟨a, ha⟩ ⟨b, hb⟩ h)

/-- Different bytes have different hexadecimal texts. -/
theorem hexEncode_inj {a b : List UInt8} : hexEncode a = hexEncode b ↔ a = b := by
  constructor
  · intro h
    have hchars : a.flatMap hexDigits = b.flatMap hexDigits := by
      simpa [hexEncode] using congrArg String.toList h
    clear h
    induction a generalizing b with
    | nil =>
      cases b with
      | nil => rfl
      | cons y ys => simp [hexDigits] at hchars
    | cons x xs ih =>
      cases b with
      | nil => simp [hexDigits] at hchars
      | cons y ys =>
        simp only [List.flatMap_cons, hexDigits, List.cons_append, List.nil_append,
          List.cons.injEq] at hchars
        obtain ⟨hhigh, hlow, hrest⟩ := hchars
        have hx := x.toNat_lt
        have hy := y.toNat_lt
        have hdiv := digitChar_inj (by omega) (by omega) hhigh
        have hmod := digitChar_inj (Nat.mod_lt _ (by omega)) (Nat.mod_lt _ (by omega)) hlow
        have heq : x = y := UInt8.toNat_inj.mp (by omega)
        rw [heq, ih hrest]
  · exact congrArg hexEncode

/-- An ASCII text has as many bytes as characters. -/
theorem utf8ByteSize_ofList {cs : List Char} (h : ∀ c ∈ cs, c.toNat < 128) :
    (String.ofList cs).utf8ByteSize = cs.length := by
  induction cs with
  | nil => rfl
  | cons c rest ih =>
    have hc : c.utf8Size = 1 := by
      have hlt := h c (by simp)
      rw [Char.utf8Size_eq_one_iff, UInt32.le_iff_toNat_le]
      exact Nat.le_of_lt_succ hlt
    rw [← List.singleton_append, String.ofList_append, String.utf8ByteSize_append,
      ih (fun d hd ↦ h d (by simp [hd])), List.length_append, ← String.singleton_eq_ofList,
      String.utf8ByteSize_singleton, hc]
    rfl

/-- An ASCII text can be cut at every byte. -/
theorem isValid_of_ascii {s : String} (h : ∀ c ∈ s.toList, c.toNat < 128) {n : Nat}
    (hn : n ≤ s.utf8ByteSize) : (⟨n⟩ : String.Pos.Raw).IsValid s := by
  have hsize : s.utf8ByteSize = s.toList.length := by
    conv_lhs => rw [← String.ofList_toList (s := s)]
    exact utf8ByteSize_ofList h
  rw [String.Pos.Raw.isValid_iff_exists_take_toList]
  refine ⟨n, ?_⟩
  rw [utf8ByteSize_ofList fun c hc ↦ h c (List.mem_of_mem_take hc), List.length_take]
  show n = min n s.toList.length
  omega

/-- Different texts have different bytes. -/
theorem utf8_inj {s t : String} : utf8 s = utf8 t ↔ s = t := by
  constructor
  · intro h
    have hb : s.toList.utf8Encode = t.toList.utf8Encode := congrArg List.toByteArray h
    rw [← String.toByteArray_ofList, ← String.toByteArray_ofList, String.toByteArray_inj,
      String.ofList_toList, String.ofList_toList] at hb
    exact hb
  · exact congrArg utf8

/-- The size of a text is the number of its bytes. -/
theorem utf8ByteSize_eq (s : String) : s.utf8ByteSize = (utf8 s).length := by
  have hb : s.toByteArray = (utf8 s).toByteArray := by
    conv_lhs => rw [← String.ofList_toList (s := s), String.toByteArray_ofList]
    rfl
  rw [← String.size_toByteArray, hb, List.size_toByteArray]

/-- Splitting at the last separator recovers both halves when the tail has none. -/
theorem rsplitOnce_append {body tail : String} (h : '-' ∉ tail.toList) :
    rsplitOnce '-' (body ++ "-" ++ tail) = some (body, tail) := by
  have hl : (body ++ "-" ++ tail).toList = body.toList ++ '-' :: tail.toList := by simp
  rw [rsplitOnce, hl, rsplitOnceChars_append h]
  simp

end Lib.Text
