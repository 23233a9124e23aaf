import Screener.Frontend.Format

/-!
# What the formatters make of a plain numeral

Each replacement is read as an operation on digits, and the results are numerals again.
-/

namespace Screener.Frontend

open Screener.Lib
open Screener.Lib.Pattern (Cursor)

/-! ## Zeros in front -/

/-- Before a digit the zeros go; of zeros alone one stays. -/
theorem greedy_leading {ds : Text} (h : IsDigits ds) :
    Pattern.greedy isZero none (fun c => (Pattern.ahead (.one Char.isDigit)).run some c) true ds =
      if ds = [] then none else some ⟨true, trimLeft ds, none⟩ := by
  induction ds with
  | nil => rfl
  | cons c ds ih =>
    have hc : c.isDigit = true := h c List.mem_cons_self
    rw [Pattern.greedy, ih fun d hd => h d (List.mem_cons_of_mem c hd)]
    cases hzero : isZero c with
    | true =>
      have hchar : c = '0' := by simpa [isZero] using hzero
      subst hchar
      cases ds with
      | nil => simp [Pattern.run, trimLeft, isZero]
      | cons d ds => simp [trimLeft, List.dropWhile_cons, hzero]
    | false => simp [Pattern.run, hc, trimLeft, hzero]

/-- `replace(/^0+(?=\d)/, "")` on digits. -/
theorem replace_leadingZeros {ds : Text} (h : IsDigits ds) (hsome : ds ≠ []) :
    leadingZeros.replace (fun _ => []) ds = trimLeft ds := by
  cases ds with
  | nil => exact absurd rfl hsome
  | cons c ds =>
    have hds : IsDigits ds := fun d hd => h d (List.mem_cons_of_mem c hd)
    have hgreedy := greedy_leading hds
    have hrun : leadingZeros.run some ⟨false, c :: ds, none⟩ =
        if isZero c = true then
          (if ds = [] then none else some ⟨true, trimLeft ds, none⟩) else none := by
      rw [← hgreedy]
      rfl
    rw [Pattern.replace, Pattern.replaceFrom, hrun]
    cases hzero : isZero c with
    | true =>
      have hchar : c = '0' := by simpa [isZero] using hzero
      subst hchar
      cases ds with
      | nil => rfl
      | cons d ds =>
        have hskip : trimLeft ('0' :: d :: ds) = trimLeft (d :: ds) := by
          simp [trimLeft, List.dropWhile_cons, hzero]
        rw [hskip]
        simp
    | false =>
      rw [leadingZeros]
      simp [Pattern.replaceFrom_start, trimLeft, hzero]

theorem orZero_leadingZeros {ds : Text} (h : IsDigits ds) :
    orZero (leadingZeros.replace (fun _ => []) ds) = trimLeft ds := by
  by_cases hnil : ds = []
  · rw [hnil]
    rfl
  · rw [replace_leadingZeros h hnil, orZero, if_neg (trimLeft_ne_nil ds)]

/-! ## Zeros behind -/

theorem trimRight_cons (c : Char) (ds : Text) [Decidable (∀ d ∈ c :: ds, isZero d = true)] :
    trimRight (c :: ds) = if ∀ d ∈ c :: ds, isZero d = true then [] else c :: trimRight ds :=
  Pattern.rdropWhile_cons isZero c ds

theorem trimRight_zeros_iff (ds : Text) : trimRight ds = [] ↔ ∀ d ∈ ds, isZero d = true :=
  List.rdropWhile_eq_nil_iff

/-- The first non-zero digit behind which there are only zeros, and at least one. -/
theorem lazy_trailing {ds : Text} (h : IsDigits ds) (capture : Text → Option Text)
    (moved : Bool) :
    Pattern.lazy Char.isDigit none (fun e => (Pattern.one isNonZeroDigit).run (fun f =>
        (Pattern.seq (.plus isZero) .finish).run some { f with captured := capture f.rest }) e)
      moved ds =
      if trimRight ds ≠ [] ∧ (trimRight ds).length < ds.length then
        some ⟨true, [], capture (ds.drop (trimRight ds).length)⟩
      else none := by
  induction ds generalizing moved with
  | nil => rfl
  | cons c ds ih =>
    have hc : c.isDigit = true := h c List.mem_cons_self
    have hrest := ih (fun d hd => h d (List.mem_cons_of_mem c hd)) true
    have hhere : (Pattern.one isNonZeroDigit).run (fun f => (Pattern.seq (.plus isZero) .finish).run
        some { f with captured := capture f.rest }) ⟨moved, c :: ds, none⟩ =
        if isNonZeroDigit c = true then
          (if ds ≠ [] ∧ ∀ d ∈ ds, isZero d = true then some ⟨true, [], capture ds⟩ else none)
        else none := by
      rw [← Pattern.run_plus_finish]
      rfl
    rw [Pattern.lazy, hhere, hrest, if_pos hc, trimRight_cons]
    by_cases hzeros : ∀ d ∈ ds, isZero d = true
    · have htrim : trimRight ds = [] := (trimRight_zeros_iff ds).mpr hzeros
      cases hzero : isZero c with
      | true =>
        have hall : ∀ d ∈ c :: ds, isZero d = true := List.forall_mem_cons.mpr ⟨hzero, hzeros⟩
        rw [if_pos hall]
        simp [isNonZeroDigit, hzero, htrim]
      | false =>
        have hnot : ¬ ∀ d ∈ c :: ds, isZero d = true := by simp [hzero]
        rw [if_neg hnot]
        cases ds with
        | nil => simp [isNonZeroDigit, hc, hzero, htrim]
        | cons d ds =>
          have hboth : d :: ds ≠ [] ∧ ∀ e ∈ d :: ds, isZero e = true :=
            ⟨List.cons_ne_nil d ds, hzeros⟩
          rw [if_pos hboth]
          simp [isNonZeroDigit, hc, hzero, htrim]
    · have htrim : trimRight ds ≠ [] := fun hnil => hzeros ((trimRight_zeros_iff ds).mp hnil)
      have hnot : ¬ ∀ d ∈ c :: ds, isZero d = true :=
        fun hall => hzeros (List.forall_mem_cons.mp hall).2
      have hnone : ¬ (ds ≠ [] ∧ ∀ d ∈ ds, isZero d = true) := fun hboth => hzeros hboth.2
      rw [if_neg hnot, if_neg hnone, ite_self]
      simp [htrim]

theorem trimRight_eq_self_iff {ds : Text} :
    trimRight ds = ds ↔ ¬ (trimRight ds).length < ds.length := by
  have htaken : trimRight ds <+: ds := List.rdropWhile_prefix _ _
  constructor
  · intro heq hlt
    rw [heq] at hlt
    exact lt_irrefl _ hlt
  · intro hge
    exact htaken.eq_of_length_le (not_lt.mp hge)

/-- The match at a point, before digits. -/
theorem run_trailingZeros {ds : Text} (h : IsDigits ds) (moved : Bool) :
    trailingZeros.run some ⟨moved, '.' :: ds, none⟩ =
      if trimRight ds = ds then none
      else some ⟨true, [], if trimRight ds = [] then none else some ('.' :: trimRight ds)⟩ := by
  have hfirst := lazy_trailing h
    (fun rest => some (('.' :: ds).take (('.' :: ds).length - rest.length))) true
  have hsecond := Pattern.run_plus_finish isZero none true some ds
  have hrun : trailingZeros.run some ⟨moved, '.' :: ds, none⟩ =
      ((if trimRight ds ≠ [] ∧ (trimRight ds).length < ds.length then
          some ⟨true, [], some (('.' :: ds).take
            (('.' :: ds).length - (ds.drop (trimRight ds).length).length))⟩
        else none : Option Cursor)).or
        (if ds ≠ [] ∧ ∀ c ∈ ds, isZero c = true then some ⟨true, [], none⟩ else none) := by
    rw [← hfirst, ← hsecond]
    rfl
  rw [hrun]
  by_cases hzeros : ∀ c ∈ ds, isZero c = true
  · have htrim : trimRight ds = [] := (trimRight_zeros_iff ds).mpr hzeros
    cases ds with
    | nil => rfl
    | cons c ds =>
      have hboth : c :: ds ≠ [] ∧ ∀ d ∈ c :: ds, isZero d = true := ⟨List.cons_ne_nil c ds, hzeros⟩
      rw [if_pos hboth, htrim]
      simp
  · have htrim : trimRight ds ≠ [] := fun hnil => hzeros ((trimRight_zeros_iff ds).mp hnil)
    have hnone : ¬ (ds ≠ [] ∧ ∀ c ∈ ds, isZero c = true) := fun hboth => hzeros hboth.2
    rw [if_neg hnone, if_neg htrim, Option.or_none]
    by_cases hshort : (trimRight ds).length < ds.length
    · have hkept : ds.take (trimRight ds).length = trimRight ds :=
        (List.prefix_iff_eq_take.mp (List.rdropWhile_prefix isZero ds)).symm
      have hwidth : ('.' :: ds).length - (ds.drop (trimRight ds).length).length =
          (trimRight ds).length + 1 := by
        rw [List.length_cons, List.length_drop]
        omega
      rw [if_pos ⟨htrim, hshort⟩, if_neg (fun hsame => trimRight_eq_self_iff.mp hsame hshort),
        hwidth,
        List.take_succ_cons, hkept]
    · rw [if_neg (fun hboth => hshort hboth.2), if_pos (trimRight_eq_self_iff.mpr hshort)]

/-- Nothing but a point begins a match. -/
theorem run_trailingZeros_of_ne {c : Char} (h : c ≠ '.') (moved : Bool) (rest : Text) :
    trailingZeros.run some ⟨moved, c :: rest, none⟩ = none := by
  simp [trailingZeros, Pattern.run, isPoint, h]

theorem run_trailingZeros_nil (moved : Bool) :
    trailingZeros.run some ⟨moved, [], none⟩ = none := rfl

/-- Text without a point stays. -/
theorem strip_no_point {before : Text} (h : '.' ∉ before) (moved : Bool) :
    Pattern.replaceFrom trailingZeros (fun captured => captured.getD []) moved before = before := by
  have hno : ∀ c ∈ before, ∀ moved rest, trailingZeros.run some ⟨moved, c :: rest, none⟩ = none :=
    fun c hc moved rest => run_trailingZeros_of_ne (fun heq => h (heq ▸ hc)) moved rest
  have hall := Pattern.replaceFrom_of_no_match (fun captured => captured.getD []) hno moved []
  rw [List.append_nil] at hall
  simpa [Pattern.replaceFrom, run_trailingZeros_nil] using hall

theorem not_point_of_digits {ds : Text} (h : IsDigits ds) : '.' ∉ ds := by
  intro hmem
  cases h '.' hmem

/-- The fraction loses its zeros, and the point goes with the last digit. -/
theorem strip_pointed {ds : Text} (h : IsDigits ds) (moved : Bool) :
    Pattern.replaceFrom trailingZeros (fun captured => captured.getD []) moved
        (Numeral.pointed ds) = Numeral.pointed (trimRight ds) := by
  unfold Numeral.pointed
  by_cases hnil : ds = []
  · subst hnil
    rfl
  · rw [if_neg hnil, Pattern.replaceFrom, run_trailingZeros h]
    by_cases hsame : trimRight ds = ds
    · rw [if_pos hsame, hsame, if_neg hnil, strip_no_point (not_point_of_digits h)]
    · rw [if_neg hsame]
      by_cases htrim : trimRight ds = []
      · simp [htrim]
      · simp [htrim]

/-- **Display.** A numeral is shown without the zeros behind its fraction. -/
theorem strip_numeral (n : Numeral) : stripTrailingZeros n.text = n.trim.text := by
  have hsign : '.' ∉ Numeral.signed n.negative n.whole := by
    unfold Numeral.signed
    have hwhole := not_point_of_digits n.wholeDigits
    split
    · simp [hwhole]
    · exact hwhole
  have hno : ∀ c ∈ Numeral.signed n.negative n.whole, ∀ moved rest,
      trailingZeros.run some ⟨moved, c :: rest, none⟩ = none :=
    fun c hc moved rest => run_trailingZeros_of_ne (fun heq => hsign (heq ▸ hc)) moved rest
  have hsplit : ∀ fraction, Numeral.signed n.negative (n.whole ++ Numeral.pointed fraction) =
      Numeral.signed n.negative n.whole ++ Numeral.pointed fraction := by
    intro fraction
    unfold Numeral.signed
    split <;> rfl
  show Pattern.replaceFrom trailingZeros _ false
      (Numeral.signed n.negative (n.whole ++ Numeral.pointed n.fraction)) =
    Numeral.signed n.negative (n.whole ++ Numeral.pointed (trimRight n.fraction))
  rw [hsplit, hsplit, Pattern.replaceFrom_of_no_match _ hno, strip_pointed n.fractionDigits]

/-! ## The parts of a numeral -/

theorem head_unsigned {n : Numeral} {c : Char} (h : n.unsigned.head? = some c) :
    c.isDigit = true := by
  obtain ⟨d, ds, hwhole⟩ := List.exists_cons_of_ne_nil n.nonempty
  have hd : d.isDigit = true := n.wholeDigits d (hwhole ▸ List.mem_cons_self)
  rw [Numeral.unsigned, hwhole, List.cons_append, List.head?_cons, Option.some.injEq] at h
  exact h ▸ hd

@[simp] theorem isNegative_text (n : Numeral) : isNegative n.text = n.negative := by
  unfold isNegative Numeral.text Numeral.signed
  cases hnegative : n.negative with
  | true => simp
  | false =>
    simp only [Bool.false_eq_true, if_false, decide_eq_false_iff_not]
    intro hminus
    cases head_unsigned hminus

@[simp] theorem withoutSign_text (n : Numeral) : withoutSign n.text = n.unsigned := by
  rw [withoutSign, isNegative_text]
  unfold Numeral.text Numeral.signed
  cases n.negative with
  | true => simp
  | false => simp

@[simp] theorem splitPoint_unsigned (n : Numeral) :
    splitPoint n.unsigned = (n.whole, n.fraction) := by
  have hwhole := not_point_of_digits n.wholeDigits
  have hfraction := not_point_of_digits n.fractionDigits
  unfold splitPoint Numeral.unsigned Numeral.pointed
  by_cases hnil : n.fraction = []
  · rw [if_pos hnil, List.append_nil, List.splitOn_eq_singleton hwhole, hnil]
  · rw [if_neg hnil, List.splitOn_append_cons_self_of_not_mem hwhole,
      List.splitOn_eq_singleton hfraction]

/-- A text is the numeral of one sign, whole part and fraction. -/
theorem text_injective : Function.Injective Numeral.text := by
  intro n m h
  have hnegative := congrArg isNegative h
  have hunsigned := congrArg withoutSign h
  rw [isNegative_text, isNegative_text] at hnegative
  rw [withoutSign_text, withoutSign_text] at hunsigned
  have hparts := congrArg splitPoint hunsigned
  rw [splitPoint_unsigned, splitPoint_unsigned, Prod.mk.injEq] at hparts
  obtain ⟨negative, whole, fraction, _, _, _⟩ := n
  obtain ⟨negative', whole', fraction', _, _, _⟩ := m
  obtain ⟨rfl, rfl, rfl⟩ : negative = negative' ∧ whole = whole' ∧ fraction = fraction' :=
    ⟨hnegative, hparts⟩
  rfl

/-! ## A hundred times -/

theorem isDigits_orZero {ds : Text} (h : IsDigits ds) : IsDigits (orZero ds) := by
  unfold orZero
  split
  · exact isDigits_zeros 1
  · exact h

theorem orZero_ne_nil (ds : Text) : orZero ds ≠ [] := by
  unfold orZero
  split
  · simp
  · assumption

theorem digitsValue_orZero_append (xs ys : Text) :
    digitsValue (orZero xs ++ ys) = digitsValue (xs ++ ys) := by
  rw [digitsValue_append, digitsValue_append]
  unfold orZero
  split
  · rename_i hnil
    rw [hnil]
    rfl
  · rfl

theorem isDigits_padStart {ds : Text} (h : IsDigits ds) (width : Nat) :
    IsDigits (padStart ds width) :=
  (isDigits_zeros _).append h

theorem length_padStart {ds : Text} {width : Nat} (h : ds.length ≤ width) :
    (padStart ds width).length = width := by
  rw [padStart, List.length_append, List.length_replicate]
  omega

/-- Digits with a point put before the last `scale` of them. -/
theorem digitsValue_point (ds : Text) (scale : Nat) :
    digitsValue (orZero (ds.take (ds.length - scale)) ++
      padStart (ds.drop (ds.length - scale)) scale) = digitsValue ds := by
  rw [digitsValue_orZero_append, padStart]
  by_cases hshort : ds.length ≤ scale
  · have hzero : ds.length - scale = 0 := by omega
    rw [hzero, List.take_zero, List.drop_zero, List.nil_append, digitsValue_append,
      digitsValue_zeros, Nat.zero_mul, Nat.zero_add]
  · have hfull : scale - (ds.drop (ds.length - scale)).length = 0 := by
      rw [List.length_drop]
      omega
    rw [hfull, List.replicate_zero, List.nil_append, List.take_append_drop]

/-- The digits of a numeral without a point and without zeros in front. -/
def allDigits (n : Numeral) : Text := trimLeft (n.whole ++ n.fraction)

theorem isDigits_allDigits (n : Numeral) : IsDigits (allDigits n) :=
  isDigits_trimLeft (n.wholeDigits.append n.fractionDigits)

/-- The point goes two places to the right. -/
def hundredfold (n : Numeral) : Numeral :=
  if n.fraction.length ≤ 2 then
    { negative := n.negative
      whole := allDigits n ++ List.replicate (2 - n.fraction.length) '0'
      fraction := []
      nonempty := List.append_ne_nil_of_left_ne_nil (trimLeft_ne_nil _) _
      wholeDigits := (isDigits_allDigits n).append (isDigits_zeros _)
      fractionDigits := by simp [IsDigits] }
  else
    let scale := n.fraction.length - 2
    { negative := n.negative
      whole := orZero ((allDigits n).take ((allDigits n).length - scale))
      fraction := padStart ((allDigits n).drop ((allDigits n).length - scale)) scale
      nonempty := orZero_ne_nil _
      wholeDigits := isDigits_orZero ((isDigits_allDigits n).sublist (List.take_sublist _ _))
      fractionDigits :=
        isDigits_padStart ((isDigits_allDigits n).sublist (List.drop_sublist _ _)) _ }

theorem hundredfold_negative (n : Numeral) : (hundredfold n).negative = n.negative := by
  unfold hundredfold
  split <;> rfl

theorem hundredfold_magnitude (n : Numeral) : (hundredfold n).magnitude = 100 * n.magnitude := by
  have hdigits : digitsValue (allDigits n) = digitsValue (n.whole ++ n.fraction) :=
    digitsValue_trimLeft _
  have hpow : (10 : ℚ) ^ n.fraction.length ≠ 0 := by positivity
  unfold hundredfold Numeral.magnitude
  split
  · rename_i hshort
    have hscale : (10 : ℚ) ^ (2 - n.fraction.length) * 10 ^ n.fraction.length = 100 := by
      rw [← pow_add, Nat.sub_add_cancel hshort]
      norm_num
    simp only [List.append_nil, List.length_nil, pow_zero, div_one]
    rw [digitsValue_append, digitsValue_zeros, List.length_replicate, Nat.add_zero, hdigits,
      Nat.cast_mul, Nat.cast_pow, Nat.cast_ofNat, ← mul_div_assoc, eq_div_iff hpow, mul_assoc,
        hscale,
      mul_comm]
  · rename_i hlong
    have hscale : (10 : ℚ) ^ n.fraction.length = 100 * 10 ^ (n.fraction.length - 2) := by
      rw [← Nat.sub_add_cancel (show 2 ≤ n.fraction.length by omega), pow_add]
      norm_num [mul_comm]
    have hdrop : ((allDigits n).drop ((allDigits n).length - (n.fraction.length - 2))).length ≤
        n.fraction.length - 2 := by
      rw [List.length_drop]
      omega
    simp only
    rw [digitsValue_point, length_padStart hdrop, hdigits, hscale,
      ← mul_div_assoc, mul_div_mul_left _ _ (by norm_num)]

theorem hundredfold_value (n : Numeral) : (hundredfold n).value = 100 * n.value := by
  unfold Numeral.value
  rw [hundredfold_negative, hundredfold_magnitude]
  split
  · rw [mul_neg]
  · rfl

/-- **Rates.** A numeral is shown a hundred times as large. -/
theorem decimalTimes100_numeral (n : Numeral) :
    decimalTimes100 n.text = (hundredfold n).trim.text := by
  have hunsigned : ∀ m : Numeral, stripTrailingZeros m.unsigned = m.trim.unsigned := by
    intro m
    exact strip_numeral { m with negative := false }
  have houtput : (hundredfold n).trim.text =
      Numeral.signed n.negative (stripTrailingZeros (hundredfold n).unsigned) := by
    rw [hunsigned, ← hundredfold_negative n]
    rfl
  rw [houtput, decimalTimes100, withoutSign_text, splitPoint_unsigned, isNegative_text]
  simp only [displayDecimal]
  rw [orZero_leadingZeros (n.wholeDigits.append n.fractionDigits)]
  refine congrArg (fun output => Numeral.signed n.negative (stripTrailingZeros output)) ?_
  unfold hundredfold Numeral.unsigned Numeral.pointed
  split
  · rw [if_pos rfl, List.append_nil]
    rfl
  · rename_i hlong
    have hfraction : padStart ((allDigits n).drop ((allDigits n).length - (n.fraction.length - 2)))
        (n.fraction.length - 2) ≠ [] := by
      rw [← List.length_pos_iff, length_padStart]
      · omega
      · rw [List.length_drop]
        omega
    rw [if_neg hfraction]
    rfl

/-! ## Comparison -/

/-- What a numeral is compared by. -/
theorem normalize_numeral (n : Numeral) :
    normalize n.text = ⟨n.negative, trimLeft n.whole, trimRight n.fraction⟩ := by
  rw [normalize, withoutSign_text, splitPoint_unsigned, isNegative_text]
  simp only [Pattern.replace_start_plus, Pattern.replace_plus_finish]
  rfl

/-- The sign of a comparison. -/
def comparison (a b : ℚ) : ℤ := if a < b then -1 else if b < a then 1 else 0

theorem comparison_neg (a b : ℚ) : comparison (-a) (-b) = -comparison a b := by
  unfold comparison
  rcases lt_trichotomy a b with hlt | heq | hgt
  · simp [hlt, not_lt.mpr hlt.le]
  · simp [heq]
  · simp [hgt, not_lt.mpr hgt.le]

theorem comparison_scale {a b c : ℚ} (hc : 0 < c) :
    comparison (a * c) (b * c) = comparison a b := by
  unfold comparison
  simp only [mul_lt_mul_iff_of_pos_right hc]

theorem whole_bounds (n : Numeral) :
    (digitsValue n.whole : ℚ) ≤ n.magnitude ∧ n.magnitude < digitsValue n.whole + 1 := by
  have hpow : (0 : ℚ) < 10 ^ n.fraction.length := by positivity
  have hlt : (digitsValue n.fraction : ℚ) < 10 ^ n.fraction.length := by
    exact_mod_cast digitsValue_lt n.fractionDigits
  have hnonneg : (0 : ℚ) ≤ digitsValue n.fraction := Nat.cast_nonneg _
  rw [Numeral.magnitude, digitsValue_append, Nat.cast_add, Nat.cast_mul, Nat.cast_pow,
    Nat.cast_ofNat,
    le_div_iff₀ hpow, div_lt_iff₀ hpow, add_mul, one_mul]
  exact ⟨le_add_of_nonneg_right hnonneg, by linarith⟩

/-- A longer whole part is larger. -/
theorem magnitude_lt_of_length {n m : Numeral}
    (h : (trimLeft n.whole).length < (trimLeft m.whole).length) : n.magnitude < m.magnitude := by
  have hwhole : (digitsValue n.whole : ℚ) + 1 ≤ digitsValue m.whole := by
    exact_mod_cast trimLeft_lt_of_length n.wholeDigits m.wholeDigits h
  have hn := (whole_bounds n).2
  have hm := (whole_bounds m).1
  linarith

/-- The digits that are compared are the value at the common scale. -/
theorem digits_value (n : Numeral) {width : Nat} (h : (trimRight n.fraction).length ≤ width) :
    (digitsValue ((normalize n.text).digits width) : ℚ) = n.magnitude * 10 ^ width := by
  have hpow : (10 : ℚ) ^ (trimRight n.fraction).length ≠ 0 := by positivity
  have hscale : (10 : ℚ) ^ width =
      10 ^ (trimRight n.fraction).length * 10 ^ (width - (trimRight n.fraction).length) := by
    rw [← pow_add, Nat.add_sub_cancel' h]
  have htrim : n.magnitude =
      digitsValue (n.whole ++ trimRight n.fraction) / 10 ^ (trimRight n.fraction).length :=
    (Numeral.trim_magnitude n).symm
  have hwhole : digitsValue (trimLeft n.whole ++ trimRight n.fraction) =
      digitsValue (n.whole ++ trimRight n.fraction) := by
    rw [digitsValue_append, digitsValue_append, digitsValue_trimLeft]
  rw [normalize_numeral, Normalized.digits, padEnd, ← List.append_assoc, digitsValue_append,
    digitsValue_zeros, List.length_replicate, Nat.add_zero, hwhole, htrim, hscale, ← mul_assoc,
    div_mul_cancel₀ _ hpow, Nat.cast_mul, Nat.cast_pow, Nat.cast_ofNat]

theorem isDigits_normalized (n : Numeral) (width : Nat) :
    IsDigits ((normalize n.text).digits width) := by
  rw [normalize_numeral]
  exact (isDigits_trimLeft n.wholeDigits).append
    ((isDigits_trimRight n.fractionDigits).append (isDigits_zeros _))

theorem length_digits (n : Numeral) {width : Nat} (h : (trimRight n.fraction).length ≤ width) :
    ((normalize n.text).digits width).length = (trimLeft n.whole).length + width := by
  rw [normalize_numeral, Normalized.digits, padEnd, List.length_append, List.length_append,
    List.length_replicate, Nat.add_sub_cancel' h]

/-- Digits filled up to one scale are compared as the values. -/
theorem compare_digits {n m : Numeral} {width : Nat} (hn : (trimRight n.fraction).length ≤ width)
    (hm : (trimRight m.fraction).length ≤ width)
    (hlength : (trimLeft n.whole).length = (trimLeft m.whole).length) (direction : ℤ) :
    (if (normalize n.text).digits width = (normalize m.text).digits width then 0
      else if (normalize m.text).digits width < (normalize n.text).digits width then direction
      else -direction) = direction * comparison n.magnitude m.magnitude := by
  have hpow : (0 : ℚ) < 10 ^ width := by positivity
  have hdn := isDigits_normalized n width
  have hdm := isDigits_normalized m width
  have hlengths : ((normalize n.text).digits width).length =
      ((normalize m.text).digits width).length := by
    rw [length_digits n hn, length_digits m hm, hlength]
  rw [← comparison_scale hpow, ← digits_value n hn, ← digits_value m hm, comparison]
  simp only [Nat.cast_lt, lt_iff_digitsValue_lt hdm hdn hlengths.symm]
  rcases lt_trichotomy (digitsValue ((normalize n.text).digits width))
      (digitsValue ((normalize m.text).digits width)) with hlt | heq | hgt
  · have hne : (normalize n.text).digits width ≠ (normalize m.text).digits width :=
      fun hsame => absurd (congrArg digitsValue hsame) hlt.ne
    rw [if_neg hne, if_neg (not_lt.mpr hlt.le), if_pos hlt, mul_neg, mul_one]
  · have hsame := eq_of_digitsValue_eq hdn hdm hlengths heq
    rw [if_pos hsame, if_neg heq.not_lt, if_neg heq.symm.not_lt, mul_zero]
  · have hne : (normalize n.text).digits width ≠ (normalize m.text).digits width :=
      fun hsame => absurd (congrArg digitsValue hsame) hgt.ne'
    rw [if_neg hne, if_pos hgt, if_neg (not_lt.mpr hgt.le), if_pos hgt, mul_one]

/-- Numerals of one sign are compared as their values. -/
theorem compare_same_sign {n m : Numeral} (hsign : n.negative = m.negative) :
    compareDecimal n.text m.text = comparison n.value m.value := by
  let direction : ℤ := if m.negative then -1 else 1
  have hunfold : compareDecimal n.text m.text =
      if (trimLeft n.whole).length ≠ (trimLeft m.whole).length then
        if (trimLeft m.whole).length < (trimLeft n.whole).length then direction else -direction
      else direction * comparison n.magnitude m.magnitude := by
    rw [compareDecimal]
    by_cases hlength : (trimLeft n.whole).length = (trimLeft m.whole).length
    · rw [← compare_digits (le_max_left _ _) (le_max_right _ _) hlength direction]
      simp only [normalize_numeral, hsign, ne_eq, not_true_eq_false, if_false]
      rfl
    · simp only [normalize_numeral, hsign, ne_eq, not_true_eq_false, if_false, if_pos hlength]
      rfl
  have hcompare : compareDecimal n.text m.text =
      direction * comparison n.magnitude m.magnitude := by
    rw [hunfold]
    by_cases hlength : (trimLeft n.whole).length = (trimLeft m.whole).length
    · rw [if_neg (not_not.mpr hlength)]
    · rw [if_pos hlength]
      rcases lt_or_gt_of_ne hlength with hlt | hgt
      · have hless := magnitude_lt_of_length hlt
        rw [if_neg (not_lt.mpr hlt.le), comparison, if_pos hless, mul_neg, mul_one]
      · have hless := magnitude_lt_of_length hgt
        rw [if_pos hgt, comparison, if_neg (not_lt.mpr hless.le), if_pos hless, mul_one]
  rw [hcompare]
  unfold Numeral.value
  rw [hsign]
  cases hnegative : m.negative with
  | true => simp [direction, hnegative, comparison_neg]
  | false => simp [direction, hnegative]

/-- **Order.** Numerals are compared as their values, except zeros of two signs. -/
theorem compare_numeral {n m : Numeral}
    (h : n.negative = m.negative ∨ n.magnitude ≠ 0 ∨ m.magnitude ≠ 0) :
    compareDecimal n.text m.text = comparison n.value m.value := by
  by_cases hsign : n.negative = m.negative
  · exact compare_same_sign hsign
  · have hn := n.magnitude_nonneg
    have hm := m.magnitude_nonneg
    have hpositive : 0 < n.magnitude + m.magnitude := by
      rcases h with hsame | hnonzero | hnonzero
      · exact absurd hsame hsign
      · have hlt := lt_of_le_of_ne hn hnonzero.symm
        linarith
      · have hlt := lt_of_le_of_ne hm hnonzero.symm
        linarith
    have hunfold : compareDecimal n.text m.text = if n.negative then -1 else 1 := by
      rw [compareDecimal]
      simp only [normalize_numeral]
      rw [if_pos hsign]
    rw [hunfold]
    unfold Numeral.value
    cases hnegative : n.negative with
    | true =>
      have hother : m.negative = false := by simpa [hnegative] using hsign
      have hlt : -n.magnitude < m.magnitude := by linarith
      simp [hother, comparison, hlt]
    | false =>
      have hother : m.negative = true := by simpa [hnegative] using hsign
      have hgt : -m.magnitude < n.magnitude := by linarith
      simp [hother, comparison, hgt, not_lt.mpr hgt.le]

end Screener.Frontend
