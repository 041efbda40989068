import Mathlib.Data.List.Induction

/-!
# Hexadecimal numerals

A numeral is told by what it looks like and by its value: it has lowercase
digits, no zeros in front, and stands for one number. Nothing is said of how
the digits are found, which the last two results are about.

Results:
* `idxOf_digitChar`, `digitChar_idxOf`: the sixteen digits and their values.
* `hexNumeral_toDigits`: the digits that are written of a number are a numeral
  of it.
* `HexNumeral.eq_toDigits`: there is no other one.
-/
namespace FilterList.Text

/-- The sixteen digits, in the order of their values. -/
def hexAlphabet : List Char :=
  "0123456789abcdef".toList

/-- The number that digits stand for, the first of them counting most. -/
def hexValue (digits : List Char) : Nat :=
  digits.foldl (fun n d => 16 * n + hexAlphabet.idxOf d) 0

/-- The digits are `n` in lowercase hexadecimal, without zeros in front. -/
structure HexNumeral (digits : List Char) (n : Nat) : Prop where
  ne_nil : digits ≠ []
  lowercase : ∀ d ∈ digits, d ∈ hexAlphabet
  unpadded : digits.head? = some '0' → digits = ['0']
  value : hexValue digits = n

/-! ## Digits -/

/-- A digit stands in the alphabet at the place of its value. -/
theorem idxOf_digitChar {k : Nat} (hk : k < 16) : hexAlphabet.idxOf (Nat.digitChar k) = k := by
  have hall : ∀ k ∈ List.range 16, hexAlphabet.idxOf (Nat.digitChar k) = k := by decide
  exact hall k (List.mem_range.mpr hk)

theorem digitChar_idxOf {d : Char} (hd : d ∈ hexAlphabet) :
    Nat.digitChar (hexAlphabet.idxOf d) = d := by
  have hall : (hexAlphabet.all fun d => Nat.digitChar (hexAlphabet.idxOf d) = d) = true := by
    decide
  exact of_decide_eq_true (List.all_eq_true.mp hall d hd)

theorem digitChar_mem {k : Nat} (hk : k < 16) : Nat.digitChar k ∈ hexAlphabet := by
  rw [← List.idxOf_lt_length_iff, idxOf_digitChar hk]
  exact hk

/-! ## The numeral of a number -/

theorem hexValue_concat (digits : List Char) (d : Char) :
    hexValue (digits ++ [d]) = 16 * hexValue digits + hexAlphabet.idxOf d := by
  simp [hexValue]

theorem hexNumeral_digitChar {k : Nat} (hk : k < 16) : HexNumeral [Nat.digitChar k] k := by
  refine ⟨List.cons_ne_nil _ _, ?_, ?_, ?_⟩
  · intro d hd
    rw [List.mem_singleton.mp hd]
    exact digitChar_mem hk
  · intro hzero
    rw [Option.some.inj hzero]
  · simp [hexValue, idxOf_digitChar hk]

/-- A number other than zero may have one more digit behind it. -/
theorem HexNumeral.concat {digits : List Char} {n k : Nat} (h : HexNumeral digits n) (hn : n ≠ 0)
    (hk : k < 16) : HexNumeral (digits ++ [Nat.digitChar k]) (16 * n + k) := by
  refine ⟨List.append_ne_nil_of_left_ne_nil h.ne_nil _, ?_, ?_, ?_⟩
  · intro d hd
    rcases List.mem_append.mp hd with hfront | hlast
    · exact h.lowercase d hfront
    · rw [List.mem_singleton.mp hlast]
      exact digitChar_mem hk
  · intro hhead
    have hzero : digits.head? = some '0' := by
      rwa [List.head?_append, Option.or_of_isSome (List.isSome_head?.mpr h.ne_nil)] at hhead
    -- A zero in front would be all of the digits, and the number would be zero.
    have hvalue := h.value
    rw [h.unpadded hzero] at hvalue
    exact absurd hvalue.symm hn
  · rw [hexValue_concat, h.value, idxOf_digitChar hk]

theorem hexNumeral_toDigits (n : Nat) : HexNumeral (Nat.toDigits 16 n) n := by
  induction n using Nat.strongRecOn with
  | ind n ih =>
    rw [Nat.toDigits_eq_if (by decide)]
    split
    · next hn => exact hexNumeral_digitChar hn
    · next hn =>
      have hfront : HexNumeral (Nat.toDigits 16 (n / 16)) (n / 16) := ih (n / 16) (by omega)
      have hconcat := hfront.concat (by omega) (Nat.mod_lt n (by decide))
      rwa [Nat.div_add_mod] at hconcat

/-! ## One numeral of a number -/

/-- The digits in front of the last one are a numeral, and they begin with no zero. -/
theorem HexNumeral.front {front : List Char} {d : Char} {n : Nat} (h : HexNumeral (front ++ [d]) n)
    (hne : front ≠ []) : HexNumeral front (hexValue front) ∧ front.head? ≠ some '0' := by
  have hzero : front.head? ≠ some '0' := by
    intro hzero
    have hdigits : front ++ [d] = [] ++ ['0'] := h.unpadded (by simp [hzero])
    exact hne (List.append_singleton_inj.mp hdigits).1
  refine ⟨⟨hne, ?_, ?_, rfl⟩, hzero⟩
  · intro c hc
    exact h.lowercase c (List.mem_append_left [d] hc)
  · intro hhead
    exact absurd hhead hzero

/-- A number has one numeral only. -/
theorem HexNumeral.eq_toDigits {digits : List Char} {n : Nat} (h : HexNumeral digits n) :
    digits = Nat.toDigits 16 n := by
  -- From the last digit to the front, as the digits are written.
  induction digits using List.reverseRecOn generalizing n with
  | nil => exact absurd rfl h.ne_nil
  | append_singleton front d ih =>
    have hd : d ∈ hexAlphabet := h.lowercase d (by simp)
    have hlt : hexAlphabet.idxOf d < 16 := List.idxOf_lt_length_iff.mpr hd
    have hlast : Nat.toDigits 16 (hexAlphabet.idxOf d) = [d] := by
      rw [Nat.toDigits_of_lt_base hlt, digitChar_idxOf hd]
    have hvalue : 16 * hexValue front + hexAlphabet.idxOf d = n := by
      rw [← hexValue_concat, h.value]
    by_cases hne : front = []
    · subst hne
      rw [← hvalue, show hexValue [] = 0 from rfl, Nat.mul_zero, Nat.zero_add, hlast,
        List.nil_append]
    · obtain ⟨hnumeral, hzero⟩ := h.front hne
      have hfront : front = Nat.toDigits 16 (hexValue front) := ih hnumeral
      have hpos : 0 < hexValue front := by
        rw [Nat.pos_iff_ne_zero]
        intro hnull
        rw [hnull] at hfront
        exact hzero (by rw [hfront]; rfl)
      calc front ++ [d]
          = Nat.toDigits 16 (hexValue front) ++ Nat.toDigits 16 (hexAlphabet.idxOf d) := by
            rw [← hfront, hlast]
        _ = Nat.toDigits 16 (16 * hexValue front + hexAlphabet.idxOf d) :=
            Nat.toDigits_append_toDigits (by decide) hpos hlt
        _ = Nat.toDigits 16 n := by rw [hvalue]

end FilterList.Text
