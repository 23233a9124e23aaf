import Mathlib.Algebra.Order.Field.Rat
import Mathlib.Data.List.DropRight
import Mathlib.Data.Nat.Cast.Order.Ring
import Mathlib.Tactic.FieldSimp
import Mathlib.Tactic.Linarith
import Mathlib.Tactic.Positivity
import Mathlib.Tactic.Ring

/-!
# Plain decimal numerals

A sign, digits and digits after a point. Zeros in front of the whole part and behind the
fraction do not change the value, and digits of one length are ordered as their values.
-/

namespace Screener.Lib

abbrev Text := List Char

def isZero (c : Char) : Bool := c = '0'

def IsDigits (ds : Text) : Prop := ∀ c ∈ ds, c.isDigit = true

def digitsValue (ds : Text) : Nat := Nat.ofDigitChars 10 ds 0

/-! ## Digits -/

theorem IsDigits.append {xs ys : Text} (hx : IsDigits xs) (hy : IsDigits ys) :
    IsDigits (xs ++ ys) :=
  List.forall_mem_append.mpr ⟨hx, hy⟩

theorem IsDigits.sublist {xs ys : Text} (h : IsDigits ys) (hsub : xs.Sublist ys) : IsDigits xs :=
  fun c hc => h c (hsub.subset hc)

theorem isDigits_zeros (n : Nat) : IsDigits (List.replicate n '0') := by
  intro c hc
  rw [List.eq_of_mem_replicate hc]
  rfl

theorem isDigits_toDigits (n : Nat) : IsDigits (Nat.toDigits 10 n) :=
  fun _ hc => Nat.isDigit_of_mem_toDigits (by decide) (by decide) hc

@[simp] theorem digitsValue_nil : digitsValue [] = 0 := Nat.ofDigitChars_nil

@[simp] theorem digitsValue_zeros (n : Nat) : digitsValue (List.replicate n '0') = 0 := by
  rw [digitsValue, Nat.ofDigitChars_replicate_zero, Nat.mul_zero]

@[simp] theorem digitsValue_toDigits (n : Nat) : digitsValue (Nat.toDigits 10 n) = n :=
  Nat.ofDigitChars_ten_toDigits

theorem digitsValue_append (xs ys : Text) :
    digitsValue (xs ++ ys) = digitsValue xs * 10 ^ ys.length + digitsValue ys := by
  rw [digitsValue, Nat.ofDigitChars_append, Nat.ofDigitChars_eq_ofDigitChars_zero, digitsValue,
    digitsValue, Nat.mul_comm]

theorem digitsValue_cons (c : Char) (ds : Text) :
    digitsValue (c :: ds) = digitsValue [c] * 10 ^ ds.length + digitsValue ds :=
  digitsValue_append [c] ds

theorem digitsValue_singleton (c : Char) : digitsValue [c] = c.toNat - 48 := by
  rw [digitsValue, Nat.ofDigitChars_cons, Nat.ofDigitChars_nil, Nat.mul_zero, Nat.zero_add]
  rfl

theorem isDigit_bounds {c : Char} (h : c.isDigit = true) : 48 ≤ c.toNat ∧ c.toNat ≤ 57 :=
  Char.isDigit_iff_toNat.mp h

theorem digitsValue_lt {ds : Text} (h : IsDigits ds) : digitsValue ds < 10 ^ ds.length := by
  induction ds with
  | nil => simp
  | cons c ds ih =>
    have hc := isDigit_bounds (h c List.mem_cons_self)
    have hds := ih fun d hd => h d (List.mem_cons_of_mem c hd)
    rw [digitsValue_cons, digitsValue_singleton, List.length_cons, Nat.pow_succ]
    have hle : (c.toNat - 48) * 10 ^ ds.length ≤ 9 * 10 ^ ds.length :=
      Nat.mul_le_mul_right _ (by omega)
    omega

theorem eq_replicate_zero {ds : Text} (h : ∀ c ∈ ds, isZero c = true) :
    ds = List.replicate ds.length '0' :=
  List.eq_replicate_iff.mpr ⟨rfl, fun c hc => by simpa [isZero] using h c hc⟩

/-! ## Order -/

/-- Digits of one length are compared one by one. -/
theorem lt_iff_digitsValue_lt {xs ys : Text} (hx : IsDigits xs) (hy : IsDigits ys)
    (hlength : xs.length = ys.length) : xs < ys ↔ digitsValue xs < digitsValue ys := by
  induction xs generalizing ys with
  | nil =>
    rw [List.length_eq_zero_iff.mp hlength.symm]
    simp
  | cons x xs ih =>
    cases ys with
    | nil => cases hlength
    | cons y ys =>
      have hbx := isDigit_bounds (hx x List.mem_cons_self)
      have hby := isDigit_bounds (hy y List.mem_cons_self)
      have hxs : IsDigits xs := fun c hc => hx c (List.mem_cons_of_mem x hc)
      have hys : IsDigits ys := fun c hc => hy c (List.mem_cons_of_mem y hc)
      have hlen : xs.length = ys.length := Nat.succ.inj hlength
      have hvx := digitsValue_lt hxs
      have hvy := digitsValue_lt hys
      rw [List.cons_lt_cons_iff, ih hxs hys hlen, digitsValue_cons x, digitsValue_cons y,
        digitsValue_singleton, digitsValue_singleton, hlen]
      rw [hlen] at hvx
      rcases Nat.lt_trichotomy x.toNat y.toNat with hlt | heq | hgt
      · have hstep : (x.toNat - 48 + 1) * 10 ^ ys.length ≤ (y.toNat - 48) * 10 ^ ys.length :=
          Nat.mul_le_mul_right _ (by omega)
        rw [Nat.add_mul, Nat.one_mul] at hstep
        have hchar : x < y := hlt
        simp only [hchar, true_or, true_iff]
        omega
      · have hsame : x = y := Char.toNat_inj.mp heq
        subst hsame
        simp
      · have hstep : (y.toNat - 48 + 1) * 10 ^ ys.length ≤ (x.toNat - 48) * 10 ^ ys.length :=
          Nat.mul_le_mul_right _ (by omega)
        rw [Nat.add_mul, Nat.one_mul] at hstep
        have hnot : ¬ x < y := fun hchar => absurd hgt (Nat.lt_asymm hchar)
        have hne : x ≠ y := fun hsame => by simp [hsame] at hgt
        simp only [hnot, hne, false_and, or_self, false_iff]
        omega

theorem eq_of_digitsValue_eq {xs ys : Text} (hx : IsDigits xs) (hy : IsDigits ys)
    (hlength : xs.length = ys.length) (h : digitsValue xs = digitsValue ys) : xs = ys := by
  induction xs generalizing ys with
  | nil => exact (List.length_eq_zero_iff.mp hlength.symm).symm
  | cons x xs ih =>
    cases ys with
    | nil => cases hlength
    | cons y ys =>
      have hbx := isDigit_bounds (hx x List.mem_cons_self)
      have hby := isDigit_bounds (hy y List.mem_cons_self)
      have hxs : IsDigits xs := fun c hc => hx c (List.mem_cons_of_mem x hc)
      have hys : IsDigits ys := fun c hc => hy c (List.mem_cons_of_mem y hc)
      have hlen : xs.length = ys.length := Nat.succ.inj hlength
      have hvx := digitsValue_lt hxs
      have hvy := digitsValue_lt hys
      rw [digitsValue_cons x, digitsValue_cons y, digitsValue_singleton, digitsValue_singleton,
        hlen] at h
      rw [hlen] at hvx
      have hpositive : 0 < 10 ^ ys.length := by positivity
      -- The first digits are the quotients, the others the remainders.
      have hfirst := congrArg (· / 10 ^ ys.length) h
      simp only [Nat.mul_comm _ (10 ^ ys.length), Nat.mul_add_div hpositive,
        Nat.div_eq_of_lt hvx, Nat.div_eq_of_lt hvy, Nat.add_zero] at hfirst
      have hsame : x = y := Char.toNat_inj.mp (by omega)
      subst hsame
      rw [ih hxs hys hlen (Nat.add_left_cancel h)]

/-! ## Zeros -/

theorem digitsValue_dropZeros (ds : Text) : digitsValue (ds.dropWhile isZero) = digitsValue ds := by
  have hzeros : ds.takeWhile isZero = List.replicate (ds.takeWhile isZero).length '0' :=
    eq_replicate_zero fun c hc => List.mem_takeWhile_imp hc
  conv_rhs => rw [← List.takeWhile_append_dropWhile (p := isZero) (l := ds), hzeros]
  rw [digitsValue_append, digitsValue_zeros, Nat.zero_mul, Nat.zero_add]

/-- The digits without the zeros in front of them; one zero stays for zero. -/
def trimLeft (ds : Text) : Text :=
  if ds.dropWhile isZero = [] then ['0'] else ds.dropWhile isZero

theorem digitsValue_trimLeft (ds : Text) : digitsValue (trimLeft ds) = digitsValue ds := by
  rw [← digitsValue_dropZeros ds, trimLeft]
  split
  · rename_i hempty
    rw [hempty]
    rfl
  · rfl

theorem trimLeft_ne_nil (ds : Text) : trimLeft ds ≠ [] := by
  unfold trimLeft
  split
  · simp
  · assumption

theorem isDigits_trimLeft {ds : Text} (h : IsDigits ds) : IsDigits (trimLeft ds) := by
  unfold trimLeft
  split
  · exact isDigits_zeros 1
  · exact h.sublist (List.dropWhile_sublist _)

theorem trimLeft_cons {ds rest : Text} (h : trimLeft ds = '0' :: rest) : rest = [] := by
  unfold trimLeft at h
  split_ifs at h with hempty
  · exact (List.cons.inj h).2.symm
  · have hhead := List.head_dropWhile_not isZero hempty
    simp only [h, List.head_cons] at hhead
    cases hhead

/-- Digits that are not all zeros are at least the power of ten of their first one. -/
theorem le_digitsValue {ds : Text} (h : IsDigits ds) (hsome : ds.dropWhile isZero ≠ []) :
    10 ^ ((ds.dropWhile isZero).length - 1) ≤ digitsValue ds := by
  rw [← digitsValue_dropZeros ds]
  have hhead := List.head_dropWhile_not isZero hsome
  have hdigits : IsDigits (ds.dropWhile isZero) := h.sublist (List.dropWhile_sublist _)
  generalize ds.dropWhile isZero = kept at hsome hhead hdigits
  cases kept with
  | nil => exact absurd rfl hsome
  | cons c cs =>
    have hbounds := isDigit_bounds (hdigits c List.mem_cons_self)
    have hnot : c.toNat ≠ 48 := by
      intro heq
      have hzero : c = '0' := Char.toNat_inj.mp heq
      simp [isZero, hzero] at hhead
    have hone : 1 * 10 ^ cs.length ≤ (c.toNat - 48) * 10 ^ cs.length :=
      Nat.mul_le_mul_right _ (by omega)
    rw [digitsValue_cons, digitsValue_singleton, List.length_cons, Nat.add_sub_cancel]
    omega

theorem trimLeft_large {ds : Text} (h : IsDigits ds) (hlength : 1 < (trimLeft ds).length) :
    10 ^ ((trimLeft ds).length - 1) ≤ digitsValue ds := by
  unfold trimLeft at hlength ⊢
  split_ifs at hlength ⊢ with hempty
  · simp at hlength
  · exact le_digitsValue h hempty

theorem trimLeft_zero_iff {ds : Text} (h : IsDigits ds) :
    trimLeft ds = ['0'] ↔ digitsValue ds = 0 := by
  constructor
  · intro hzero
    rw [← digitsValue_trimLeft, hzero]
    rfl
  · intro hzero
    by_contra hne
    have hsome : ds.dropWhile isZero ≠ [] := fun hempty => hne (by rw [trimLeft, if_pos hempty])
    have hlarge := le_digitsValue h hsome
    have hpositive : 0 < 10 ^ ((ds.dropWhile isZero).length - 1) := by positivity
    omega

/-- The length of trimmed digits says how large the number is. -/
theorem le_length_trimLeft_iff {ds : Text} (h : IsDigits ds) (hvalue : digitsValue ds ≠ 0)
    (n : Nat) :
    n + 1 ≤ (trimLeft ds).length ↔ 10 ^ n ≤ digitsValue ds := by
  constructor
  · intro hlength
    have hsome : ds.dropWhile isZero ≠ [] := by
      intro hempty
      exact hvalue ((trimLeft_zero_iff h).mp (if_pos hempty))
    rw [trimLeft, if_neg hsome] at hlength
    exact (Nat.pow_le_pow_right (by decide) (by omega)).trans (le_digitsValue h hsome)
  · intro hlarge
    have hbound := digitsValue_lt (isDigits_trimLeft h)
    rw [digitsValue_trimLeft] at hbound
    exact (Nat.pow_lt_pow_iff_right (by decide)).mp (hlarge.trans_lt hbound)

/-- Trimmed digits of two lengths are ordered by their lengths. -/
theorem trimLeft_lt_of_length {xs ys : Text} (hx : IsDigits xs) (hy : IsDigits ys)
    (hlength : (trimLeft xs).length < (trimLeft ys).length) : digitsValue xs < digitsValue ys := by
  have hbound := digitsValue_lt (isDigits_trimLeft hx)
  rw [digitsValue_trimLeft] at hbound
  have hpositive := List.length_pos_iff.mpr (trimLeft_ne_nil xs)
  have hlarge := trimLeft_large hy (by omega)
  have hpow : 10 ^ (trimLeft xs).length ≤ 10 ^ ((trimLeft ys).length - 1) :=
    Nat.pow_le_pow_right (by decide) (by omega)
  omega

/-- A fraction without the zeros behind it. -/
def trimRight (ds : Text) : Text := ds.rdropWhile isZero

theorem isDigits_trimRight {ds : Text} (h : IsDigits ds) : IsDigits (trimRight ds) :=
  h.sublist (List.rdropWhile_prefix _ _).sublist

theorem getLast?_trimRight (ds : Text) : (trimRight ds).getLast? ≠ some '0' := by
  intro hlast
  have hsome : trimRight ds ≠ [] := by
    intro hnil
    rw [hnil] at hlast
    cases hlast
  rw [List.getLast?_eq_some_getLast hsome, Option.some.injEq] at hlast
  have hzero : isZero ((trimRight ds).getLast hsome) = true := decide_eq_true hlast
  exact List.rdropWhile_last_not isZero ds hsome hzero

/-- The zeros behind a fraction are one power of ten. -/
theorem trimRight_zeros (ds : Text) : ∃ n, ds = trimRight ds ++ List.replicate n '0' := by
  refine ⟨(ds.rtakeWhile isZero).length, ?_⟩
  have hzeros : ds.rtakeWhile isZero = List.replicate (ds.rtakeWhile isZero).length '0' :=
    eq_replicate_zero fun c hc => List.mem_rtakeWhile_imp hc
  conv_lhs => rw [← List.rdropWhile_append_rtakeWhile (p := isZero) (l := ds), hzeros]
  rfl

/-! ## Numerals -/

/-- A fraction without digits has no point. -/
structure Numeral where
  negative : Bool
  whole : Text
  fraction : Text
  nonempty : whole ≠ []
  wholeDigits : IsDigits whole
  fractionDigits : IsDigits fraction

namespace Numeral

def pointed (fraction : Text) : Text := if fraction = [] then [] else '.' :: fraction

def signed (negative : Bool) (text : Text) : Text := if negative then '-' :: text else text

def unsigned (n : Numeral) : Text := n.whole ++ pointed n.fraction

def text (n : Numeral) : Text := signed n.negative n.unsigned

/-- The value without the sign. -/
def magnitude (n : Numeral) : ℚ := digitsValue (n.whole ++ n.fraction) / 10 ^ n.fraction.length

def value (n : Numeral) : ℚ := if n.negative then -n.magnitude else n.magnitude

theorem magnitude_nonneg (n : Numeral) : 0 ≤ n.magnitude := by
  unfold magnitude
  positivity

/-- The same number without zeros behind the fraction. -/
def trim (n : Numeral) : Numeral :=
  { n with fraction := trimRight n.fraction, fractionDigits := isDigits_trimRight n.fractionDigits }

theorem trim_magnitude (n : Numeral) : n.trim.magnitude = n.magnitude := by
  obtain ⟨zeros, hzeros⟩ := trimRight_zeros n.fraction
  have hscale : (10 : ℚ) ^ zeros ≠ 0 := by positivity
  have hvalue : digitsValue (n.whole ++ n.fraction) =
      digitsValue (n.whole ++ trimRight n.fraction) * 10 ^ zeros := by
    conv_lhs => rw [hzeros]
    rw [← List.append_assoc, digitsValue_append, digitsValue_zeros, List.length_replicate,
      Nat.add_zero]
  have hlength : n.fraction.length = (trimRight n.fraction).length + zeros := by
    conv_lhs => rw [hzeros]
    rw [List.length_append, List.length_replicate]
  show (digitsValue (n.whole ++ trimRight n.fraction) : ℚ) / 10 ^ (trimRight n.fraction).length =
    digitsValue (n.whole ++ n.fraction) / 10 ^ n.fraction.length
  rw [hvalue, hlength, pow_add, Nat.cast_mul, Nat.cast_pow, Nat.cast_ofNat]
  exact (mul_div_mul_right _ _ hscale).symm

@[simp] theorem trim_value (n : Numeral) : n.trim.value = n.value := by
  unfold value
  rw [trim_magnitude]
  rfl

/-- No zero in front of another digit, and none behind the fraction. -/
structure Canonical (n : Numeral) : Prop where
  whole : ∀ rest, n.whole = '0' :: rest → rest = []
  fraction : n.fraction.getLast? ≠ some '0'

theorem value_of_nonneg {n : Numeral} (h : n.negative = false) : n.value = n.magnitude := by
  rw [value, h]
  rfl

theorem text_of_nonneg {n : Numeral} (h : n.negative = false) : n.text = n.unsigned := by
  rw [text, h]
  rfl

theorem value_eq_zero_iff (n : Numeral) : n.value = 0 ↔ n.magnitude = 0 := by
  unfold value
  split
  · exact neg_eq_zero
  · rfl

theorem magnitude_eq_zero_iff (n : Numeral) :
    n.magnitude = 0 ↔ digitsValue (n.whole ++ n.fraction) = 0 := by
  have hpow : (10 : ℚ) ^ n.fraction.length ≠ 0 := by positivity
  rw [magnitude, div_eq_zero_iff, or_iff_left hpow, Nat.cast_eq_zero]

/-- The characters of a numeral. -/
theorem mem_text {n : Numeral} {c : Char} (h : c ∈ n.text) :
    c = '-' ∨ c = '.' ∨ c.isDigit = true := by
  have hunsigned : ∀ c ∈ n.unsigned, c = '.' ∨ c.isDigit = true := by
    intro c hc
    rcases List.mem_append.mp hc with hwhole | hfraction
    · exact .inr (n.wholeDigits c hwhole)
    · unfold pointed at hfraction
      split at hfraction
      · cases hfraction
      · rcases List.mem_cons.mp hfraction with hpoint | hdigit
        · exact .inl hpoint
        · exact .inr (n.fractionDigits c hdigit)
  unfold text signed at h
  split at h
  · rcases List.mem_cons.mp h with hsign | hrest
    · exact .inl hsign
    · exact .inr (hunsigned c hrest)
  · exact .inr (hunsigned c h)

end Numeral

end Screener.Lib
