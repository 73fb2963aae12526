import Mathlib.Data.List.Forall2
import Mathlib.Data.Nat.Digits.Defs
import ChapterLayout.Proofs.Markup.Encode

/-! # References by number

A numeric reference writes the code point of a character in decimal or hexadecimal digits. It may
have any number of zeros in front, so its digits are only read as long as they can be the number of
a character. This guard never changes what a reference stands for, and so every way of writing a
character is read as that character:

* **`IsNumeral`** — whether digits write a number, in any case and with any zeros in front;
* **`codePoint?_eq_none`** — more digits than the limit write no code point;
* **`scalarText_codePoint?`** — numbers read with the limit give the text of the exact number;
* **`Writes`** — the ways of writing a character;
* **`decode_writes`** — decoding undoes them all, in one pass. -/

namespace ChapterLayout

namespace Entity

variable {isDigit : Char → Bool} {base limit n : Nat} {digits s rest : Text} {c d : Char}
  {asciiOnly : Bool}

/-! ## (1) Numerals -/

/-- Whether digits of a class write a number, the most significant digit first. -/
structure IsNumeral (isDigit : Char → Bool) (base : Nat) (digits : Text) (n : Nat) : Prop where
  ne_nil : digits ≠ []
  isDigit : ∀ d ∈ digits, isDigit d = true
  value : Nat.ofDigits base (digits.reverse.map digitValue) = n

instance (isDigit : Char → Bool) (base : Nat) (digits : Text) (n : Nat) :
    Decidable (IsNumeral isDigit base digits n) :=
  decidable_of_iff (digits ≠ [] ∧ digits.all isDigit = true ∧
      Nat.ofDigits base (digits.reverse.map digitValue) = n)
    ⟨fun h => ⟨h.1, List.all_eq_true.1 h.2.1, h.2.2⟩,
      fun h => ⟨h.1, List.all_eq_true.2 h.2, h.3⟩⟩

/-- Whether digits of a class are read in a base up to a number of digits: only the zero stands for
nothing, and one digit more than the limit writes no code point. -/
structure Reads (isDigit : Char → Bool) (base limit : Nat) : Prop where
  eq_zero : ∀ d, isDigit d = true → digitValue d = 0 → d = '0'
  lt_pow : 0x10FFFF < base ^ limit

/-- Digits are read in a base that is not zero. -/
theorem Reads.base_pos (h : Reads isDigit base limit) : 0 < base := by
  have hpow := h.lt_pow
  rw [Nat.pos_iff_ne_zero]
  rintro rfl
  cases limit <;> simp at hpow

/-- A character by its number. -/
theorem eq_of_toNat_eq {c d : Char} (h : c.toNat = d.toNat) : c = d := by
  rw [← Char.ofNat_toNat c, h, Char.ofNat_toNat]

/-- Decimal numbers. -/
theorem reads_decimal : Reads Char.isDigit 10 7 := by
  refine ⟨fun d hd hzero => eq_of_toNat_eq ?_, by decide⟩
  have hge : 48 ≤ d.toNat := by
    simp only [Char.isDigit, Bool.and_eq_true, decide_eq_true_eq] at hd
    exact UInt32.le_iff_toNat_le.1 hd.1
  rw [digitValue, if_pos hd] at hzero
  show d.toNat = 48
  omega

/-- Hexadecimal numbers. -/
theorem reads_hexadecimal : Reads isHexDigit 16 6 := by
  refine ⟨fun d hd hzero => ?_, by decide⟩
  by_cases hdecimal : d.isDigit = true
  · exact reads_decimal.eq_zero d hdecimal hzero
  · -- Letters stand for ten at least.
    simp only [isHexDigit, Bool.or_eq_true, Bool.and_eq_true, decide_eq_true_eq, or_assoc] at hd
    rw [digitValue, if_neg hdecimal] at hzero
    rcases hd.resolve_left hdecimal with ⟨hlow, hhigh⟩ | ⟨hlow, hhigh⟩
    · have hlow' : 97 ≤ d.toNat := UInt32.le_iff_toNat_le.1 hlow
      split at hzero <;> omega
    · have hlow' : 65 ≤ d.toNat := UInt32.le_iff_toNat_le.1 hlow
      have hhigh' : d.toNat ≤ 70 := UInt32.le_iff_toNat_le.1 hhigh
      have hcapital : ¬d.isLower = true := by
        intro hlower
        have hleast : 97 ≤ d.toNat := UInt32.le_iff_toNat_le.1
          (of_decide_eq_true (Bool.and_eq_true_iff.1 hlower).1)
        omega
      rw [if_neg hcapital] at hzero
      omega

/-- The value of digits is the number they write. -/
theorem value_eq_ofDigits (base : Nat) (digits : Text) :
    value base digits = Nat.ofDigits base (digits.reverse.map digitValue) := by
  rw [Nat.ofDigits_eq_foldr, List.foldr_map, List.foldr_reverse, value]
  congr 1
  funext n c
  rw [Nat.cast_id, Nat.mul_comm, Nat.add_comm]

/-- Zeros in front do not count. -/
theorem value_dropZeros (base : Nat) (digits : Text) :
    value base (digits.dropWhile (· == '0')) = value base digits := by
  induction digits with
  | nil => rfl
  | cons d digits ih =>
    by_cases hd : d = '0'
    · -- The zero in front adds its place times zero.
      subst hd
      rw [List.dropWhile_cons_of_pos (by decide), ih]
      show value base digits = digits.foldl _ (0 * base + digitValue '0')
      rw [Nat.zero_mul]
      rfl
    · rw [List.dropWhile_cons_of_neg (by simpa using hd)]

/-- A number is at least as great as the place of its first digit, unless that is zero. -/
theorem pow_le_value (h : digitValue d ≠ 0) (digits : Text) :
    base ^ digits.length ≤ value base (d :: digits) := by
  rw [value_eq_ofDigits, List.reverse_cons, List.map_append, Nat.ofDigits_append, List.length_map,
    List.length_reverse, List.map_singleton, Nat.ofDigits_singleton]
  exact (Nat.le_mul_of_pos_right _ (Nat.pos_of_ne_zero h)).trans (Nat.le_add_left _ _)

/-! ## (2) The limit of digits -/

/-- The text of a number: the character it is the code point of, if it is one and is wanted. -/
def textOf (asciiOnly : Bool) (n : Nat) : Text :=
  if n.isValidChar ∧ (asciiOnly = true → n ≤ 127) then [Char.ofNat n] else []

/-- What a numeric reference stands for is the text of its number. -/
theorem scalarText_some (asciiOnly : Bool) (n : Nat) :
    scalarText asciiOnly (some n) = textOf asciiOnly n := by
  unfold scalarText textOf Nat.isValidChar
  grind

/-- A number beyond the last code point has no text. -/
theorem textOf_of_lt (h : 0x10FFFF < n) (asciiOnly : Bool) : textOf asciiOnly n = [] := by
  rw [textOf, if_neg]
  rintro ⟨hvalid, -⟩
  unfold Nat.isValidChar at hvalid
  omega

/-- **More digits than the limit** write no code point. -/
theorem codePoint?_eq_none (h : Reads isDigit base limit) (hdigits : ∀ d ∈ digits, isDigit d = true)
    (hnone : codePoint? base limit digits = none) : 0x10FFFF < value base digits := by
  have hlong : limit < (digits.dropWhile (· == '0')).length := by
    by_contra hshort
    simp [codePoint?, hshort] at hnone
  rw [← value_dropZeros]
  cases hsignificant : digits.dropWhile (· == '0') with
  | nil => rw [hsignificant] at hlong; exact absurd hlong (Nat.not_lt_zero _)
  | cons d significant =>
    rw [hsignificant, List.length_cons] at hlong
    -- The first significant digit is no zero, so all places behind it count.
    have hd : d ∈ digits := (List.dropWhile_sublist _).subset (hsignificant ▸ List.mem_cons_self)
    have hne : ¬(d == '0') = true := by
      have hhead := List.head?_dropWhile_not (· == '0') digits
      rw [hsignificant] at hhead
      simpa using hhead
    have hvalue : digitValue d ≠ 0 := fun hzero =>
      hne (beq_iff_eq.2 (h.eq_zero d (hdigits d hd) hzero))
    calc 0x10FFFF < base ^ limit := h.lt_pow
      _ ≤ base ^ significant.length := Nat.pow_le_pow_right h.base_pos (Nat.le_of_lt_succ hlong)
      _ ≤ value base (d :: significant) := pow_le_value hvalue significant

/-- Digits that are read with the limit give the text of their number. -/
theorem IsNumeral.scalarText_eq (h : IsNumeral isDigit base digits n)
    (hreads : Reads isDigit base limit) (asciiOnly : Bool) :
    scalarText asciiOnly (codePoint? base limit digits) = textOf asciiOnly n := by
  have hvalue : Entity.value base digits = n := (value_eq_ofDigits base digits).trans h.value
  cases hcode : codePoint? base limit digits with
  | none =>
    -- What is not read is too great to be a code point.
    have hlarge := codePoint?_eq_none hreads h.isDigit hcode
    rw [hvalue] at hlarge
    exact (textOf_of_lt hlarge asciiOnly).symm
  | some code =>
    have hread : code = (Entity.value base digits : Int) := by
      unfold codePoint? at hcode
      simp only [value_dropZeros] at hcode
      split at hcode
      · cases hcode
      · exact (Option.some.inj hcode).symm
    rw [hread, hvalue, scalarText_some]

/-- **The limit of digits never changes a result.** Digits of any length, of which only seven
decimal or six hexadecimal ones are read after the zeros in front, stand for the text of the exact
number they write: its character if it is the code point of one, and of ASCII if only ASCII is
wanted, and nothing otherwise. -/
theorem scalarText_codePoint? (asciiOnly : Bool) (digits : Text) (n : Nat) :
    (IsNumeral Char.isDigit 10 digits n →
      scalarText asciiOnly (codePoint? 10 7 digits) = scalarText asciiOnly (some n)) ∧
    (IsNumeral isHexDigit 16 digits n →
      scalarText asciiOnly (codePoint? 16 6 digits) = scalarText asciiOnly (some n)) ∧
    scalarText asciiOnly (some n) =
      if n.isValidChar ∧ (asciiOnly = true → n ≤ 127) then [Char.ofNat n] else [] := by
  rw [scalarText_some]
  exact ⟨fun h => h.scalarText_eq reads_decimal asciiOnly,
    fun h => h.scalarText_eq reads_hexadecimal asciiOnly, rfl⟩

/-- Zeros in front of more digits than the limit, and a number that the limit cuts off. -/
theorem scalarText_codePoint?_zeros :
    (IsNumeral Char.isDigit 10 "000000000000128512".toList 128512 ∧
      scalarText false (codePoint? 10 7 "000000000000128512".toList) = ['😀']) ∧
    (IsNumeral isHexDigit 16 "fFFffFFff".toList 68719476735 ∧
      scalarText false (codePoint? 16 6 "fFFffFFff".toList) = []) := by
  have hdecimal : IsNumeral Char.isDigit 10 "000000000000128512".toList 128512 := by decide +kernel
  have hhex : IsNumeral isHexDigit 16 "fFFffFFff".toList 68719476735 := by decide +kernel
  refine ⟨⟨hdecimal, ?_⟩, hhex, ?_⟩
  · rw [(scalarText_codePoint? false _ _).1 hdecimal]
    decide +kernel
  · rw [(scalarText_codePoint? false _ _).2.1 hhex]
    decide +kernel

/-! ## (3) Ways of writing a character -/

/-- The ways of writing a character in markup: as it stands unless it is an ampersand, by its name
if it has one, and by its number in decimal or hexadecimal digits. -/
inductive Writes : Char → Text → Prop
  | letter {c : Char} (h : c ≠ '&') : Writes c [c]
  | named {name : Text} {c : Char} (h : (name, c) ∈ named) : Writes c ('&' :: name)
  | decimal {digits : Text} {c : Char} (h : IsNumeral Char.isDigit 10 digits c.toNat) :
      Writes c ('&' :: '#' :: (digits ++ [';']))
  | hexadecimal {mark : Char} {digits : Text} {c : Char} (hmark : mark = 'x' ∨ mark = 'X')
      (h : IsNumeral isHexDigit 16 digits c.toNat) :
      Writes c ('&' :: '#' :: mark :: (digits ++ [';']))

/-- Digits up to a semicolon are read. -/
theorem IsNumeral.numeric? (h : IsNumeral isDigit base digits c.toNat)
    (hreads : Reads isDigit base limit) (hend : isDigit ';' = false) (rest : Text) :
    numeric? isDigit base limit false (digits ++ ';' :: rest) = some ([c], rest) := by
  have htake : (digits ++ ';' :: rest).takeWhile isDigit = digits := by
    rw [List.takeWhile_append_of_pos h.isDigit, List.takeWhile_cons_of_neg (by simp [hend]),
      List.append_nil]
  have hdrop : (digits ++ ';' :: rest).dropWhile isDigit = ';' :: rest := by
    rw [List.dropWhile_append_of_pos h.isDigit, List.dropWhile_cons_of_neg (by simp [hend])]
  have htext : textOf false c.toNat = [c] := by
    rw [textOf, if_pos ⟨c.valid, fun h => nomatch h⟩, Char.ofNat_toNat]
  rw [Entity.numeric?, htake, hdrop]
  split
  · exact absurd rfl h.ne_nil
  · rename_i heq
    obtain rfl := (List.cons.inj heq).2
    rw [h.scalarText_eq hreads, htext]
  · rename_i hother
    exact absurd rfl (hother rest)

/-- A decimal number is not taken for a hexadecimal one, whose mark is no digit. -/
theorem reference?_decimal (h : IsNumeral Char.isDigit 10 digits c.toNat) (rest : Text) :
    reference? false ('#' :: (digits ++ ';' :: rest)) = some ([c], rest) := by
  obtain ⟨d, tail, rfl⟩ := List.exists_cons_of_ne_nil h.ne_nil
  have hd := h.isDigit d List.mem_cons_self
  rw [reference?]
  · exact h.numeric? reads_decimal (by decide) rest
  · rintro s heq
    obtain rfl := (List.cons.inj heq).1
    exact absurd hd (by decide)
  · rintro s heq
    obtain rfl := (List.cons.inj heq).1
    exact absurd hd (by decide)

/-- **One character.** However it is written, it is read, and what follows is read from there on. -/
theorem Writes.decode (h : Writes c s) (rest : Text) :
    decode false (s ++ rest) = c :: decode false rest := by
  cases h with
  | letter hne => exact decode_cons_letter hne
  | named hname => exact decode_reference (reference?_named hname false rest)
  | decimal hnumeral =>
    have href := reference?_decimal hnumeral rest
    simpa using decode_reference href
  | hexadecimal hmark hnumeral =>
    have hread := hnumeral.numeric? reads_hexadecimal (by decide) rest
    rcases hmark with rfl | rfl
    · simpa using decode_reference (s := '#' :: 'x' :: _) hread
    · simpa using decode_reference (s := '#' :: 'X' :: _) hread

/-- **Decoding undoes any encoding.** A text of which every character is written in any of the ways
there are is read as that text, also if it holds what looks like a reference. -/
theorem decode_writes {pieces : List Text} (h : List.Forall₂ Writes s pieces) :
    Entity.decode false pieces.flatten = s := by
  induction h with
  | nil => rw [List.flatten_nil, Entity.decode]
  | cons hpiece _ ih => rw [List.flatten_cons, hpiece.decode, ih]

/-- A text that looks like a reference, in all ways of writing a character. -/
theorem decode_writes_reference :
    let pieces : List Text :=
      ["&amp;".toList, "&#0000035;".toList, "6".toList, "&#x035;".toList, ";".toList,
        "&#X1f60A;".toList]
    List.Forall₂ Writes "&#65;😊".toList pieces ∧
      Entity.decode false pieces.flatten = "&#65;😊".toList := by
  intro pieces
  have hdecimal : IsNumeral Char.isDigit 10 "0000035".toList '#'.toNat := by decide +kernel
  have hhex : IsNumeral isHexDigit 16 "035".toList '5'.toNat := by decide +kernel
  have hhex' : IsNumeral isHexDigit 16 "1f60A".toList '😊'.toNat := by decide +kernel
  have hwrites : List.Forall₂ Writes "&#65;😊".toList pieces :=
    .cons (.named (by decide)) (.cons (.decimal hdecimal) (.cons (.letter (by decide))
      (.cons (.hexadecimal (.inl rfl) hhex) (.cons (.letter (by decide))
        (.cons (.hexadecimal (.inr rfl) hhex') .nil)))))
  exact ⟨hwrites, decode_writes hwrites⟩

end Entity

end ChapterLayout
