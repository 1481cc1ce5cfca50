/-
**Integers and their texts.**

The `Int` of the app is a signed 64-bit integer.  A number that comes from elsewhere — a text the
user typed, a floating-point number in a document — becomes an `Int` only if it can be represented
exactly.

* `Swift.int64Exactly` — an integer as an `Int`, if it is in range;
* `Swift.intOfText` — `Int(_ description: String)`: an optional sign followed by at least one
  decimal digit and nothing else, in range;
* `Swift.integerOfText` — the integer that a text shows, whether `Int` can hold it or not;
* `Swift.intOfSlider`, `Swift.intOfSlider_toInt_mem` — `Int(_: Float)`: a slider position, truncated
  toward zero, and the range it stays in;
* `Swift.intOfText_toString` — **reading back the text of an `Int` gives that `Int`**;
* `Swift.integerOfText_of_intOfText` — an `Int` that is read from a text is the integer it shows.
-/

import Mathlib.Data.Rat.Defs
import Mathlib.Data.List.Basic
import Mathlib.Data.List.DropRight

set_option relaxedAutoImplicit false
set_option autoImplicit false

namespace Swift

/-! ### Exact conversions -/

/-- An integer as an `Int`, if it is in range. -/
def int64Exactly (z : ℤ) : Option Int64 :=
  if Int64.minValue.toInt ≤ z ∧ z ≤ Int64.maxValue.toInt then some (Int64.ofInt z) else none

@[simp] theorem int64Exactly_toInt (n : Int64) : int64Exactly n.toInt = some n := by
  rw [int64Exactly, if_pos ⟨n.minValue_le_toInt, n.toInt_le⟩, Int64.ofInt_toInt]

theorem toInt_of_int64Exactly {z : ℤ} {n : Int64} (h : int64Exactly z = some n) :
    n.toInt = z := by
  rw [int64Exactly, Option.ite_none_right_eq_some, Option.some_inj] at h
  obtain ⟨⟨hmin, hmax⟩, rfl⟩ := h
  exact Int64.toInt_ofInt_of_le hmin (by
    have hbound : Int64.maxValue.toInt = 2 ^ 63 - 1 := rfl
    omega)

/-- The value of a non-empty list of decimal digits. -/
def natOfDigits (ds : List Char) : Option ℕ :=
  if ds ≠ [] ∧ ds.all Char.isDigit then some (Nat.ofDigitChars 10 ds 0) else none

theorem natOfDigits_toDigits (n : ℕ) : natOfDigits (Nat.toDigits 10 n) = some n := by
  have hall : (Nat.toDigits 10 n).all Char.isDigit := by
    rw [List.all_eq_true]
    exact fun c hc => Nat.isDigit_of_mem_toDigits (by decide) (by decide) hc
  rw [natOfDigits, if_pos ⟨Nat.toDigits_ne_nil, hall⟩, Nat.ofDigitChars_ten_toDigits]

/-- `Int(_ description: String)`. -/
def intOfText (text : String) : Option Int64 :=
  match text.toList with
  | '-' :: ds => (natOfDigits ds).bind fun n => int64Exactly (-n)
  | '+' :: ds => (natOfDigits ds).bind fun n => int64Exactly n
  | ds => (natOfDigits ds).bind fun n => int64Exactly n

theorem intOfText_of_neg {text : String} {ds : List Char} (h : text.toList = '-' :: ds) :
    intOfText text = (natOfDigits ds).bind fun n => int64Exactly (-n) := by
  simp only [intOfText, h]

theorem intOfText_of_digits {text : String} {n : ℕ} (h : text.toList = Nat.toDigits 10 n) :
    intOfText text = int64Exactly n := by
  have hdigit : ∀ c ∈ text.toList, c.isDigit :=
    fun c hc => Nat.isDigit_of_mem_toDigits (by decide) (by decide) (h ▸ hc)
  have hvalue : natOfDigits text.toList = some n := h ▸ natOfDigits_toDigits n
  rw [intOfText]
  -- a digit is not a sign
  split
  · next ds hds => exact absurd (hdigit '-' (by simp [hds])) (by decide)
  · next ds hds => exact absurd (hdigit '+' (by simp [hds])) (by decide)
  · rw [hvalue, Option.bind_some]

/-- **Reading back the text of an `Int` gives that `Int`.** -/
theorem intOfText_toString (n : Int64) : intOfText (toString n) = some n := by
  have htext : toString n = n.toInt.repr := rfl
  rw [htext]
  by_cases hpos : 0 ≤ n.toInt
  · obtain ⟨k, hk⟩ : ∃ k : ℕ, n.toInt = (k : ℤ) := ⟨n.toInt.natAbs, by omega⟩
    have hlist : n.toInt.repr.toList = Nat.toDigits 10 k := by
      rw [Int.repr_eq_if, if_pos hpos, hk]
      simp
    rw [intOfText_of_digits hlist, ← hk, int64Exactly_toInt]
  · obtain ⟨k, hk⟩ : ∃ k : ℕ, n.toInt = -(k : ℤ) := ⟨n.toInt.natAbs, by omega⟩
    have hlist : n.toInt.repr.toList = '-' :: Nat.toDigits 10 k := by
      rw [Int.repr_eq_if, if_neg hpos, hk]
      simp
    rw [intOfText_of_neg hlist, natOfDigits_toDigits, Option.bind_some, ← hk, int64Exactly_toInt]

example : intOfText "-0" = some 0 ∧ intOfText "+21" = some 21 ∧ intOfText " 21" = none := by decide

/-! ### The integer that a text shows -/

/-- The text without the blanks around it. -/
def withoutBlanks (cs : List Char) : List Char :=
  (cs.dropWhile Char.isWhitespace).rdropWhile Char.isWhitespace

theorem withoutBlanks_eq_self {cs : List Char} (h : ∀ c ∈ cs, c.isWhitespace = false) :
    withoutBlanks cs = cs := by
  have hfront : cs.dropWhile Char.isWhitespace = cs := by
    cases cs with
    | nil => rfl
    | cons c cs => rw [List.dropWhile_cons, h c List.mem_cons_self, if_neg Bool.false_ne_true]
  rw [withoutBlanks, hfront, List.rdropWhile_eq_self_iff]
  intro hne
  rw [h _ (List.getLast_mem hne)]
  exact Bool.false_ne_true

/-- The integer that a text shows: an optional sign followed by at least one decimal digit.  Blanks
around it do not count, and the integer can be of any size. -/
def integerOfText (text : String) : Option ℤ :=
  match withoutBlanks text.toList with
  | '-' :: ds => (natOfDigits ds).map fun n : ℕ => -(n : ℤ)
  | '+' :: ds => (natOfDigits ds).map fun n : ℕ => (n : ℤ)
  | ds => (natOfDigits ds).map fun n : ℕ => (n : ℤ)

theorem not_isWhitespace_of_natOfDigits {ds : List Char} {n : ℕ} (h : natOfDigits ds = some n) :
    ∀ c ∈ ds, c.isWhitespace = false := by
  intro c hc
  rw [natOfDigits, Option.ite_none_right_eq_some, List.all_eq_true] at h
  have hdigit := h.1.2 c hc
  rw [Bool.eq_false_iff]
  intro hblank
  simp only [Char.isWhitespace, Bool.or_eq_true, decide_eq_true_eq] at hblank
  rcases hblank with ((rfl | rfl) | rfl) | rfl <;> exact absurd hdigit (by decide)

/-- An `Int` that is read from a text is the integer the text shows. -/
theorem integerOfText_of_intOfText {text : String} {n : Int64} (h : intOfText text = some n) :
    integerOfText text = some n.toInt := by
  have hcons : ∀ {c : Char} {ds : List Char} {k : ℕ}, natOfDigits ds = some k →
      c.isWhitespace = false → ∀ d ∈ c :: ds, d.isWhitespace = false := by
    intro c ds k hk hc d hd
    rcases List.mem_cons.1 hd with rfl | hd
    · exact hc
    · exact not_isWhitespace_of_natOfDigits hk d hd
  rw [intOfText] at h
  rw [integerOfText]
  split at h
  · next ds hds =>
    obtain ⟨k, hk, hn⟩ := Option.bind_eq_some_iff.1 h
    rw [hds, withoutBlanks_eq_self (hcons hk rfl)]
    simp only [hk, Option.map_some, toInt_of_int64Exactly hn]
  · next ds hds =>
    obtain ⟨k, hk, hn⟩ := Option.bind_eq_some_iff.1 h
    rw [hds, withoutBlanks_eq_self (hcons hk rfl)]
    simp only [hk, Option.map_some, toInt_of_int64Exactly hn]
  · next hminus hplus =>
    obtain ⟨k, hk, hn⟩ := Option.bind_eq_some_iff.1 h
    rw [withoutBlanks_eq_self (not_isWhitespace_of_natOfDigits hk)]
    split
    · next ds hds => exact absurd hds (hminus ds)
    · next ds hds => exact absurd hds (hplus ds)
    · rw [hk, Option.map_some, toInt_of_int64Exactly hn]

theorem integerOfText_toString (n : Int64) : integerOfText (toString n) = some n.toInt :=
  integerOfText_of_intOfText (intOfText_toString n)

example : integerOfText " 21" = some 21 ∧
    integerOfText "99999999999999999999" = some 99999999999999999999 ∧
    intOfText "99999999999999999999" = none := by decide

/-! ### Sliders -/

/-- `Int(_: Float)`: the value of a slider, truncated toward zero. -/
def intOfSlider (value : ℚ) : Int64 := Int64.ofInt (value.num.tdiv value.den)

/-- A position between two integers, the lower one not negative, stays between them. -/
theorem intOfSlider_toInt_mem {value : ℚ} {a b : ℤ} (ha : 0 ≤ a)
    (hb : b ≤ Int64.maxValue.toInt) (hle : a ≤ value) (hge : value ≤ b) :
    a ≤ (intOfSlider value).toInt ∧ (intOfSlider value).toInt ≤ b := by
  have hden : (0 : ℤ) < value.den := Int.natCast_pos.2 value.den_pos
  have hlow : a * value.den ≤ value.num := by simpa [Rat.le_iff] using hle
  have hhigh : value.num ≤ b * value.den := by simpa [Rat.le_iff] using hge
  have hnum : 0 ≤ value.num := Int.le_trans (Int.mul_nonneg ha (Int.le_of_lt hden)) hlow
  -- truncating a number that is not negative is rounding it down
  have hquot : value.num.tdiv value.den = value.num / value.den := Int.tdiv_eq_ediv_of_nonneg hnum
  have hlow' : a ≤ value.num / value.den := (Int.le_ediv_iff_mul_le hden).2 hlow
  have hhigh' : value.num / value.den ≤ b := Int.ediv_le_of_le_mul hden hhigh
  have hmax : Int64.maxValue.toInt = 2 ^ 63 - 1 := rfl
  rw [intOfSlider, hquot, Int64.toInt_ofInt_of_le (by omega) (by omega)]
  exact ⟨hlow', hhigh'⟩

end Swift
