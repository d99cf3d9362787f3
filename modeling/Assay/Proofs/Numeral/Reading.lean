import Mathlib.Algebra.Order.Field.Power
import Mathlib.Data.List.TakeWhile
import Assay.Numeral.Decimal
import Assay.Numeral.Integer
import Assay.Proofs.Numeral.Rounding
import Assay.Token.Lexeme

/-!
# Reading numerals

Which texts are read as numerals, and what they denote.  An integer denotes the value of its
digits, if that fits a word; a decimal denotes the double nearest to its exact value, and of two
that are as near the even one.
-/

namespace Assay

namespace Numeral

open LexemeRule (takeWhile_eq)

/-! ## The texts of numerals -/

inductive SignText : List Char → Bool → Prop where
  | absent : SignText [] false
  | plus : SignText ['+'] false
  | minus : SignText ['-'] true

inductive ExponentText : List Char → Int → Prop where
  | absent : ExponentText [] 0
  | power {mark : Char} {sign digits : List Char} {negative : Bool}
      (hmark : mark = 'e' ∨ mark = 'E') (hsign : SignText sign negative) (hne : digits ≠ [])
      (hdigits : ∀ c ∈ digits, isDigit c) :
      ExponentText (mark :: (sign ++ digits)) (signed negative (value digits))

inductive DecimalText : List Char → Decimal → Prop where
  | whole {whole rest : List Char} {exponent : Int} (hne : whole ≠ [])
      (hwhole : ∀ c ∈ whole, isDigit c) (hrest : ExponentText rest exponent) :
      DecimalText (whole ++ rest) ⟨whole, [], exponent⟩
  | pointed {whole fraction rest : List Char} {exponent : Int} (hne : whole ≠ [] ∨ fraction ≠ [])
      (hwhole : ∀ c ∈ whole, isDigit c) (hfraction : ∀ c ∈ fraction, isDigit c)
      (hrest : ExponentText rest exponent) :
      DecimalText (whole ++ '.' :: (fraction ++ rest)) ⟨whole, fraction, exponent⟩

/-! ## Which texts are read -/

private theorem value?_eq_some_iff {text : List Char} {number : Nat} :
    value? text = some number ↔
      text ≠ [] ∧ (∀ c ∈ text, isDigit c) ∧ value text = number := by
  simp [value?, and_assoc]

private theorem splitSign_eq {text body : List Char} {negative : Bool}
    (h : splitSign text = (negative, body)) :
    ∃ sign, SignText sign negative ∧ text = sign ++ body := by
  unfold splitSign at h
  split at h <;> cases h
  · exact ⟨_, .plus, rfl⟩
  · exact ⟨_, .minus, rfl⟩
  · exact ⟨_, .absent, rfl⟩

theorem splitSign_append {sign body : List Char} {negative : Bool} (hsign : SignText sign negative)
    (hbody : ∀ c ∈ body.head?, c ≠ '+' ∧ c ≠ '-') :
    splitSign (sign ++ body) = (negative, body) := by
  cases hsign with
  | plus => rfl
  | minus => rfl
  | absent =>
      cases body with
      | nil => rfl
      | cons c rest =>
          have hc := hbody c rfl
          unfold splitSign
          split <;> simp_all

private theorem ne_sign_of_isDigit {c : Char} (h : isDigit c) : c ≠ '+' ∧ c ≠ '-' := by
  constructor <;> (rintro rfl; revert h; decide)

theorem ne_sign_of_digits {digits : List Char} (hdigits : ∀ c ∈ digits, isDigit c) :
    ∀ c ∈ digits.head?, c ≠ '+' ∧ c ≠ '-' :=
  fun c hc => ne_sign_of_isDigit (hdigits c (List.mem_of_mem_head? hc))

/-! ## Integers -/

private theorem ofInt_eq_some_iff {value : Int} {number : Int64} :
    (if Int64.minValue.toInt ≤ value ∧ value ≤ Int64.maxValue.toInt then some (Int64.ofInt value)
      else none) = some number ↔ value = number.toInt := by
  constructor
  · intro h
    split at h
    · next hrange =>
        have hmin : Int64.minValue.toInt = -2 ^ 63 := by decide
        have hmax : Int64.maxValue.toInt = 2 ^ 63 - 1 := by decide
        rw [← Option.some.inj h, Int64.toInt_ofInt_of_le (by omega) (by omega)]
    · cases h
  · rintro rfl
    rw [if_pos ⟨Int64.minValue_le_toInt number, Int64.toInt_le number⟩, Int64.ofInt_toInt]

theorem integer?_of_splitSign {text : String} {negative : Bool} {digits : List Char}
    (h : splitSign text.toList = (negative, digits)) {number : Int64} :
    integer? text = some number ↔ digits ≠ [] ∧ (∀ c ∈ digits, isDigit c) ∧
      signed negative (value digits) = number.toInt := by
  simp only [integer?, h, Option.bind_eq_bind, Option.bind_eq_some_iff, ofInt_eq_some_iff,
    value?_eq_some_iff]
  constructor
  · rintro ⟨_, ⟨hne, hdigits, rfl⟩, hvalue⟩
    exact ⟨hne, hdigits, hvalue⟩
  · rintro ⟨hne, hdigits, hvalue⟩
    exact ⟨_, ⟨hne, hdigits, rfl⟩, hvalue⟩

/-- An integer numeral is read as its value, if a word has that value. -/
theorem integer?_eq_some_iff {text : String} {number : Int64} :
    integer? text = some number ↔
      ∃ sign negative digits, text.toList = sign ++ digits ∧ SignText sign negative ∧
        digits ≠ [] ∧ (∀ c ∈ digits, isDigit c) ∧
        signed negative (value digits) = number.toInt := by
  constructor
  · intro h
    rcases hsplit : splitSign text.toList with ⟨negative, digits⟩
    obtain ⟨sign, hsign, htext⟩ := splitSign_eq hsplit
    exact ⟨sign, negative, digits, htext, hsign, (integer?_of_splitSign hsplit).mp h⟩
  · rintro ⟨sign, negative, digits, htext, hsign, hdigits⟩
    have hsplit := splitSign_append hsign (ne_sign_of_digits hdigits.2.1)
    exact (integer?_of_splitSign (htext ▸ hsplit)).mpr hdigits

/-! ## Decimals -/

private theorem exponent?_eq_some_iff {text : List Char} {exponent : Int} :
    exponent? text = some exponent ↔ ExponentText text exponent := by
  constructor
  · intro h
    unfold exponent? at h
    split at h
    · cases h
      exact .absent
    · split at h
      · next mark text hmark =>
          generalize hsplit : splitSign text = parts at h
          obtain ⟨negative, digits⟩ := parts
          obtain ⟨sign, hsign, rfl⟩ := splitSign_eq hsplit
          obtain ⟨number, hvalue, rfl⟩ := Option.map_eq_some_iff.mp h
          obtain ⟨hne, hdigits, rfl⟩ := value?_eq_some_iff.mp hvalue
          exact .power hmark hsign hne hdigits
      · cases h
  · intro h
    cases h with
    | absent => rfl
    | @power mark sign digits negative hmark hsign hne hdigits =>
        have hsplit := splitSign_append hsign (ne_sign_of_digits hdigits)
        simp [exponent?, hmark, hsplit, value?_eq_some_iff.mpr ⟨hne, hdigits, rfl⟩]

theorem ExponentText.head? {text : List Char} {exponent : Int} (h : ExponentText text exponent) :
    ∀ c ∈ text.head?, ¬ isDigit c ∧ c ≠ '.' := by
  cases h with
  | absent => simp
  | power hmark =>
      rintro _ ⟨⟩
      rcases hmark with rfl | rfl <;> decide

private theorem dropWhile_eq {digits rest : List Char} (hdigits : ∀ c ∈ digits, isDigit c)
    (hrest : ∀ c ∈ rest.head?, ¬ isDigit c) : (digits ++ rest).dropWhile isDigit = rest := by
  have hparts := List.takeWhile_append_dropWhile (p := isDigit) (l := digits ++ rest)
  rw [takeWhile_eq hdigits hrest] at hparts
  exact List.append_cancel_left hparts

private theorem ofText?_whole {whole rest : List Char} (hwhole : ∀ c ∈ whole, isDigit c)
    (hrest : ∀ c ∈ rest.head?, ¬ isDigit c ∧ c ≠ '.') :
    Decimal.ofText? (whole ++ rest) =
      if whole = [] then none else (exponent? rest).map (⟨whole, [], ·⟩) := by
  have hdigits : ∀ c ∈ rest.head?, ¬ isDigit c := fun c hc => (hrest c hc).1
  rw [Decimal.ofText?, takeWhile_eq hwhole hdigits, dropWhile_eq hwhole hdigits]
  cases rest with
  | nil => simp
  | cons c after =>
      have hpoint := (hrest c rfl).2
      simp [hpoint]

private theorem ofText?_pointed {whole fraction rest : List Char} (hwhole : ∀ c ∈ whole, isDigit c)
    (hfraction : ∀ c ∈ fraction, isDigit c) (hrest : ∀ c ∈ rest.head?, ¬ isDigit c) :
    Decimal.ofText? (whole ++ '.' :: (fraction ++ rest)) =
      if whole = [] ∧ fraction = [] then none
      else (exponent? rest).map (⟨whole, fraction, ·⟩) := by
  have hpoint : ∀ c ∈ ('.' :: (fraction ++ rest)).head?, ¬ isDigit c := by
    rintro _ ⟨⟩
    decide
  rw [Decimal.ofText?, takeWhile_eq hwhole hpoint, dropWhile_eq hwhole hpoint]
  simp only [takeWhile_eq hfraction hrest, dropWhile_eq hfraction hrest]

private theorem exists_digits (text : List Char) :
    ∃ digits rest, text = digits ++ rest ∧ (∀ c ∈ digits, isDigit c) ∧
      ∀ c ∈ rest.head?, ¬ isDigit c := by
  refine ⟨_, _, List.takeWhile_append_dropWhile.symm, fun c => List.mem_takeWhile_imp, ?_⟩
  intro c hc
  have hnot := List.head?_dropWhile_not isDigit text
  rw [Option.mem_def.mp hc] at hnot
  simpa using hnot

theorem Decimal.ofText?_eq_some_iff {text : List Char} {decimal : Decimal} :
    Decimal.ofText? text = some decimal ↔ DecimalText text decimal := by
  constructor
  · intro h
    obtain ⟨whole, tail, rfl, hwhole, htail⟩ := exists_digits text
    by_cases hpoint : '.' ∈ tail.head?
    · obtain ⟨after, rfl⟩ := List.head?_eq_some_iff.mp hpoint
      obtain ⟨fraction, rest, rfl, hfraction, hrest⟩ := exists_digits after
      rw [ofText?_pointed hwhole hfraction hrest] at h
      split at h
      · cases h
      · next hne =>
          obtain ⟨exponent, hexponent, rfl⟩ := Option.map_eq_some_iff.mp h
          exact .pointed (not_and_or.mp hne) hwhole hfraction (exponent?_eq_some_iff.mp hexponent)
    · have hrest : ∀ c ∈ tail.head?, ¬ isDigit c ∧ c ≠ '.' :=
        fun c hc => ⟨htail c hc, by rintro rfl; exact hpoint hc⟩
      rw [ofText?_whole hwhole hrest] at h
      split at h
      · cases h
      · next hne =>
          obtain ⟨exponent, hexponent, rfl⟩ := Option.map_eq_some_iff.mp h
          exact .whole hne hwhole (exponent?_eq_some_iff.mp hexponent)
  · intro h
    cases h with
    | whole hne hwhole hrest =>
        rw [ofText?_whole hwhole hrest.head?, if_neg hne, exponent?_eq_some_iff.mpr hrest]
        rfl
    | pointed hne hwhole hfraction hrest =>
        rw [ofText?_pointed hwhole hfraction fun c hc => (hrest.head? c hc).1,
          if_neg (not_and_or.mpr hne), exponent?_eq_some_iff.mpr hrest]
        rfl

/-! ## The values of numerals -/

private theorem digitValue_lt {c : Char} (h : isDigit c) : digitValue c < 10 := by
  have hbounds := isDigit_iff.mp h
  have hzero : '0'.toNat = 48 := rfl
  rw [digitValue, hzero]
  omega

private theorem value_concat (digits : List Char) (c : Char) :
    value (digits ++ [c]) = 10 * value digits + digitValue c := by
  simp [value]

private theorem value_append (left right : List Char) :
    value (left ++ right) = value left * 10 ^ right.length + value right := by
  induction right using List.reverseRecOn with
  | nil => simp [value]
  | append_singleton right c ih =>
      rw [← List.append_assoc, value_concat, ih, value_concat, List.length_append,
        List.length_singleton, pow_succ]
      ring

private theorem value_lt {digits : List Char} (hdigits : ∀ c ∈ digits, isDigit c) :
    value digits < 10 ^ digits.length := by
  induction digits using List.reverseRecOn with
  | nil => decide
  | append_singleton digits c ih =>
      have hlast := digitValue_lt (hdigits c (by simp))
      have hothers := ih fun d hd => hdigits d (by simp [hd])
      rw [value_concat, List.length_append, List.length_singleton, pow_succ]
      omega

namespace Decimal

def magnitude (decimal : Decimal) : ℚ :=
  (value decimal.whole + value decimal.fraction / 10 ^ decimal.fraction.length) *
    10 ^ decimal.exponent

private theorem magnitude_eq (decimal : Decimal) : decimal.magnitude =
    value (decimal.whole ++ decimal.fraction) *
      10 ^ (decimal.exponent - decimal.fraction.length) := by
  rw [magnitude, value_append, zpow_sub₀ (by norm_num), zpow_natCast]
  push_cast
  field_simp

private theorem two_pow_lt {exponent : Nat} (h : exponent ≤ 3 * 400) :
    (2 ^ exponent : ℚ) < 10 ^ 400 :=
  calc (2 ^ exponent : ℚ)
    _ ≤ 2 ^ (3 * 400) := pow_le_pow_right₀ one_le_two h
    _ = (2 ^ 3) ^ 400 := pow_mul 2 3 400
    _ < 10 ^ 400 := pow_lt_pow_left₀ (by norm_num) (by norm_num) (by decide)

private theorem lt_magnitude_one : 2 * (10 : ℚ) ^ (-400 : ℤ) < Binary64.magnitude 1 := by
  have hpower : (2 : ℚ) * 2 ^ 1074 < 10 ^ 400 := by
    rw [← pow_succ']
    exact two_pow_lt (by decide)
  have hten : (10 : ℚ) ^ (-400 : ℤ) = 1 / 10 ^ 400 := by
    rw [zpow_neg, one_div]
    rfl
  rw [Binary64.magnitude_one, hten, mul_one_div,
    div_lt_div_iff₀ (by positivity) (pow_pos two_pos _), one_mul]
  exact hpower

private theorem isNearest_zero_of_lt {number : ℚ} (hnonneg : 0 ≤ number)
    (h : number < 10 ^ (-400 : ℤ)) : Binary64.IsNearest number 0 := by
  have hone := lt_magnitude_one
  exact Binary64.isNearest_zero hnonneg (by linarith)

private theorem isNearest_infinity_of_le {number : ℚ} (h : 10 ^ 400 ≤ number) :
    Binary64.IsNearest number Binary64.infinityPattern := by
  refine Binary64.isNearest_infinity (le_trans ?_ h)
  rw [Binary64.magnitude_infinityPattern]
  exact (two_pow_lt (by decide)).le

private theorem isNearest_div_pow (significand power : Nat) :
    Binary64.IsNearest (significand * 10 ^ (-power : ℤ))
      (Binary64.magnitudePattern significand (Nat.pow 10 power)) := by
  have hquotient : (significand * 10 ^ (-power : ℤ) : ℚ) = significand / (10 ^ power : Nat) := by
    rw [zpow_neg, zpow_natCast, Nat.cast_pow, Nat.cast_ofNat, div_eq_mul_inv]
  rw [hquotient]
  exact Binary64.isNearest_magnitudePattern (Nat.pow_pos (by decide))

private theorem isNearest_mul_pow (significand power : Nat) :
    Binary64.IsNearest (significand * 10 ^ (power : ℤ))
      (Binary64.magnitudePattern (significand * Nat.pow 10 power) 1) := by
  have hquotient : (significand * 10 ^ (power : ℤ) : ℚ) =
      (significand * 10 ^ power : Nat) / (1 : Nat) := by
    rw [zpow_natCast, Nat.cast_mul, Nat.cast_pow, Nat.cast_ofNat, Nat.cast_one, div_one]
  rw [hquotient]
  exact Binary64.isNearest_magnitudePattern Nat.one_pos

section

variable {decimal : Decimal} (hdigits : ∀ c ∈ decimal.whole ++ decimal.fraction, isDigit c)

include hdigits

private theorem magnitude_lt : decimal.magnitude <
    10 ^ ((decimal.whole ++ decimal.fraction).length +
      (decimal.exponent - decimal.fraction.length : ℤ)) := by
  have hvalue : (value (decimal.whole ++ decimal.fraction) : ℚ) <
      10 ^ (decimal.whole ++ decimal.fraction).length := by
    exact_mod_cast value_lt hdigits
  rw [magnitude_eq, zpow_add₀ (by norm_num), zpow_natCast]
  exact mul_lt_mul_of_pos_right hvalue (by positivity)

theorem exists_isNearest (negative : Bool) :
    ∃ pattern, Binary64.IsNearest decimal.magnitude pattern ∧
      decimal.toBinary64 negative = .ofPattern negative pattern := by
  have hmagnitude := decimal.magnitude_eq
  have hlt := magnitude_lt hdigits
  unfold toBinary64
  generalize decimal.exponent - decimal.fraction.length = scale at hmagnitude hlt ⊢
  generalize decimal.whole ++ decimal.fraction = digits at hmagnitude hlt ⊢
  dsimp only
  split
  · next hsmall =>
      have hnonneg : 0 ≤ decimal.magnitude := by
        rw [hmagnitude]
        positivity
      refine ⟨0, isNearest_zero_of_lt hnonneg ?_, rfl⟩
      rcases hsmall with hzero | hscale
      · rw [hmagnitude, hzero, Nat.cast_zero, zero_mul]
        positivity
      · exact lt_of_lt_of_le hlt (zpow_le_zpow_right₀ (by norm_num) hscale.le)
  · next hlarge =>
      have hvalue : (1 : ℚ) ≤ value digits := by
        have hpos : 0 < value digits := by omega
        exact_mod_cast hpos
      rw [hmagnitude]
      split
      · next hscale =>
          refine ⟨_, isNearest_infinity_of_le ?_, rfl⟩
          calc (10 ^ 400 : ℚ)
            _ = 10 ^ (400 : ℤ) := (zpow_natCast 10 400).symm
            _ ≤ 10 ^ scale := zpow_le_zpow_right₀ (by norm_num) hscale.le
            _ ≤ value digits * 10 ^ scale := le_mul_of_one_le_left (by positivity) hvalue
      · split
        · next hnegative =>
            obtain ⟨power, rfl⟩ : ∃ power : Nat, scale = -power := ⟨(-scale).toNat, by omega⟩
            rw [neg_neg, Int.toNat_natCast]
            exact ⟨_, isNearest_div_pow _ power, rfl⟩
        · next hpositive =>
            obtain ⟨power, rfl⟩ : ∃ power : Nat, scale = power := ⟨scale.toNat, by omega⟩
            rw [Int.toNat_natCast]
            exact ⟨_, isNearest_mul_pow _ power, rfl⟩

end

end Decimal

/-! ## Numerals -/

inductive Reads : List Char → Binary64 → Prop where
  | infinity {sign name : List Char} {negative : Bool} {number : Binary64}
      (hsign : SignText sign negative)
      (hname : String.ofList (name.map Char.toLower) ∈ ["inf", "infinity"])
      (hpattern : number.HasPattern negative Binary64.infinityPattern) : Reads (sign ++ name) number
  | notANumber {sign name : List Char} {negative : Bool} (hsign : SignText sign negative)
      (hname : String.ofList (name.map Char.toLower) = "nan") : Reads (sign ++ name) .notANumber
  | nearest {sign body : List Char} {negative : Bool} {decimal : Decimal} {pattern : Nat}
      {number : Binary64} (hsign : SignText sign negative) (hbody : DecimalText body decimal)
      (hnearest : Binary64.IsNearest decimal.magnitude pattern)
      (hpattern : number.HasPattern negative pattern) : Reads (sign ++ body) number

theorem DecimalText.digits {text : List Char} {decimal : Decimal} (h : DecimalText text decimal) :
    ∀ c ∈ decimal.whole ++ decimal.fraction, isDigit c := by
  cases h with
  | whole _ hwhole _ => simpa using hwhole
  | pointed _ hwhole hfraction _ => exact List.forall_mem_append.mpr ⟨hwhole, hfraction⟩

theorem DecimalText.head {text : List Char} {decimal : Decimal} (h : DecimalText text decimal) :
    ∃ c rest, text = c :: rest ∧ (isDigit c ∨ c = '.') := by
  cases h with
  | @whole whole rest _ hne hwhole _ =>
      obtain ⟨c, others, rfl⟩ := List.exists_cons_of_ne_nil hne
      exact ⟨c, others ++ rest, rfl, .inl (hwhole c (by simp))⟩
  | @pointed whole fraction rest _ _ hwhole _ _ =>
      cases whole with
      | nil => exact ⟨'.', fraction ++ rest, rfl, .inr rfl⟩
      | cons c others => exact ⟨c, _, rfl, .inl (hwhole c (by simp))⟩

private theorem namedValue?_eq_some_iff {negative : Bool} {name : List Char} {number : Binary64} :
    namedValue? negative name = some number ↔
      (String.ofList (name.map Char.toLower) ∈ ["inf", "infinity"] ∧ number = .infinity negative) ∨
        (String.ofList (name.map Char.toLower) = "nan" ∧ number = .notANumber) := by
  unfold namedValue?
  generalize String.ofList (name.map Char.toLower) = lower
  split <;> simp_all [eq_comm]

private theorem toLower_eq {c : Char} (h : c.toNat ≤ 64) : c.toLower = c := by
  unfold Char.toLower
  rw [dif_neg]
  rintro ⟨hupper, -⟩
  have : 65 ≤ c.toNat := hupper
  omega

private theorem lt_toNat_of_named {c : Char} {rest : List Char}
    (h : String.ofList ((c :: rest).map Char.toLower) ∈ ["inf", "infinity", "nan"]) :
    64 < c.toNat := by
  by_contra hle
  have hnames : ∀ name ∈ ["inf", "infinity", "nan"], ∀ d ∈ name.toList.head?, 64 < d.toNat := by
    simp
  have hhead := hnames _ h c.toLower (by simp)
  rw [toLower_eq (by omega)] at hhead
  omega

private theorem mem_names {negative : Bool} {name : List Char} {number : Binary64}
    (h : namedValue? negative name = some number) :
    String.ofList (name.map Char.toLower) ∈ ["inf", "infinity", "nan"] := by
  rcases namedValue?_eq_some_iff.mp h with ⟨hname, -⟩ | ⟨hname, -⟩
  · exact List.mem_append_left ["nan"] hname
  · simp [hname]

private theorem named_ne_sign {negative : Bool} {name : List Char} {number : Binary64}
    (h : namedValue? negative name = some number) : ∀ c ∈ name.head?, c ≠ '+' ∧ c ≠ '-' := by
  intro c hc
  obtain ⟨rest, rfl⟩ := List.head?_eq_some_iff.mp hc
  have hletter := lt_toNat_of_named (mem_names h)
  constructor <;> (rintro rfl; revert hletter; decide)

theorem DecimalText.namedValue? {text : List Char} {decimal : Decimal}
    (h : DecimalText text decimal) (negative : Bool) : namedValue? negative text = none := by
  obtain ⟨c, rest, rfl, hc⟩ := h.head
  rw [Option.eq_none_iff_forall_ne_some]
  intro number hnamed
  have hletter := lt_toNat_of_named (mem_names hnamed)
  rcases hc with hdigit | rfl
  · have := isDigit_iff.mp hdigit
    omega
  · revert hletter
    decide

theorem DecimalText.ne_sign {text : List Char} {decimal : Decimal} (h : DecimalText text decimal) :
    ∀ c ∈ text.head?, c ≠ '+' ∧ c ≠ '-' := by
  obtain ⟨c, rest, rfl, hc⟩ := h.head
  rintro _ ⟨⟩
  rcases hc with hdigit | rfl
  · exact ne_sign_of_isDigit hdigit
  · decide

private theorem decimal?_of_splitSign {text : String} {negative : Bool} {body : List Char}
    (h : splitSign text.toList = (negative, body)) :
    decimal? text = (namedValue? negative body).or
      ((Decimal.ofText? body).map (Decimal.toBinary64 negative)) := by
  unfold decimal?
  rw [h]
  dsimp only
  cases namedValue? negative body <;> rfl

private theorem decimal?_of_named {text : String} {sign name : List Char} {negative : Bool}
    {number : Binary64} (htext : text.toList = sign ++ name) (hsign : SignText sign negative)
    (h : namedValue? negative name = some number) : decimal? text = some number := by
  have hsplit := splitSign_append hsign (named_ne_sign h)
  rw [decimal?_of_splitSign (htext ▸ hsplit), h, Option.some_or]

/-- A text is read as the double that it denotes; no other text is read. -/
theorem decimal?_eq_some_iff {text : String} {number : Binary64} :
    decimal? text = some number ↔ Reads text.toList number := by
  constructor
  · intro h
    rcases hsplit : splitSign text.toList with ⟨negative, body⟩
    rw [decimal?_of_splitSign hsplit, Option.or_eq_some_iff] at h
    obtain ⟨sign, hsign, htext⟩ := splitSign_eq hsplit
    rw [htext]
    rcases h with hnamed | ⟨-, hread⟩
    · rcases namedValue?_eq_some_iff.mp hnamed with ⟨hname, rfl⟩ | ⟨hname, rfl⟩
      · exact .infinity hsign hname ((Binary64.hasPattern_iff (Nat.le_refl _)).mpr rfl)
      · exact .notANumber hsign hname
    · obtain ⟨decimal, hdecimal, rfl⟩ := Option.map_eq_some_iff.mp hread
      have hbody := Decimal.ofText?_eq_some_iff.mp hdecimal
      obtain ⟨pattern, hnearest, hpattern⟩ := Decimal.exists_isNearest hbody.digits negative
      exact .nearest hsign hbody hnearest ((Binary64.hasPattern_iff hnearest.le).mpr hpattern)
  · intro h
    generalize htext : text.toList = chars at h
    cases h with
    | infinity hsign hname hpattern =>
        have hnumber := (Binary64.hasPattern_iff (Nat.le_refl _)).mp hpattern
        exact decimal?_of_named htext hsign (namedValue?_eq_some_iff.mpr (.inl ⟨hname, hnumber⟩))
    | notANumber hsign hname =>
        exact decimal?_of_named htext hsign (namedValue?_eq_some_iff.mpr (.inr ⟨hname, rfl⟩))
    | @nearest _ _ negative _ _ _ hsign hbody hnearest hpattern =>
        have hsplit := splitSign_append hsign hbody.ne_sign
        obtain ⟨other, hother, hread⟩ := Decimal.exists_isNearest hbody.digits negative
        rw [decimal?_of_splitSign (htext ▸ hsplit), hbody.namedValue?, Option.none_or,
          Decimal.ofText?_eq_some_iff.mpr hbody, Option.map_some, hread, hother.unique hnearest,
          (Binary64.hasPattern_iff hnearest.le).mp hpattern]

end Numeral

end Assay
