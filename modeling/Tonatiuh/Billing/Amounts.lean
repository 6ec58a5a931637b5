import Mathlib.Data.List.TakeWhile
import Tonatiuh.Billing.Types
import Tonatiuh.Numbers.Rounding

/-! Amounts of money as texts: `amount` of `saas/billing/yookassa.ts` writes the kopecks of a price
as roubles, and `kopecks` of `saas/billing/router.ts` reads them. Both compute with Numbers. -/

namespace Tonatiuh.Billing

open Numbers

/-! ## Digits -/

theorem digitsValue_eq (digits : List Char) :
    digitsValue digits = Nat.ofDigitChars 10 digits 0 := rfl

theorem digitsValue_append (xs ys : List Char) :
    digitsValue (xs ++ ys) = digitsValue xs * 10 ^ ys.length + digitsValue ys := by
  rw [digitsValue_eq, digitsValue_eq, digitsValue_eq, Nat.ofDigitChars_append,
    Nat.ofDigitChars_eq_ofDigitChars_zero, Nat.mul_comm]

/-! ## `kopecks` -/

/-- `kopecks`, which reads the digits with `Number`. -/
def kopecksNumber (value : String) : Option Number :=
  (kopecks value).map fun n : Nat => Number.ofRat n

/-- The number that a text of digits with a point denotes. -/
def decimalValue (value : String) : ℚ :=
  let whole := value.toList.takeWhile (· ≠ '.')
  let fraction := (value.toList.dropWhile (· ≠ '.')).tail
  digitsValue whole + digitsValue fraction / 10 ^ fraction.length

theorem span_isDigit {whole rest : List Char} (hwhole : ∀ c ∈ whole, c.isDigit = true) :
    (whole ++ '.' :: rest).span Char.isDigit = (whole, '.' :: rest) := by
  rw [List.span_eq_takeWhile_dropWhile, List.takeWhile_append_of_pos hwhole,
    List.dropWhile_append_of_pos hwhole]
  simp

/-- The texts that `^\d+\.\d{2}$` matches. -/
theorem kopecks_eq_some_iff {value : String} {n : Nat} : kopecks value = some n ↔
    ∃ whole a b, whole ≠ [] ∧ (∀ c ∈ whole, c.isDigit = true) ∧ a.isDigit = true ∧
      b.isDigit = true ∧
      value.toList = whole ++ ['.', a, b] ∧ digitsValue (whole ++ [a, b]) = n := by
  constructor
  · intro h
    rw [kopecks, List.span_eq_takeWhile_dropWhile] at h
    dsimp only at h
    split at h
    next first whole a b hwhole hrest =>
      rw [Option.ite_none_right_eq_some, Option.some_inj, Bool.and_eq_true] at h
      obtain ⟨⟨ha, hb⟩, hvalue⟩ := h
      refine ⟨_, a, b, ?_, fun c => List.mem_takeWhile_imp, ha, hb, ?_, hvalue⟩
      · rw [hwhole]
        exact List.cons_ne_nil _ _
      · rw [← hrest, List.takeWhile_append_dropWhile]
    next => cases h
  · rintro ⟨whole, a, b, hne, hwhole, ha, hb, hvalue, rfl⟩
    obtain ⟨first, rest, rfl⟩ := List.exists_cons_of_ne_nil hne
    simp only [kopecks, hvalue, span_isDigit hwhole, ha, hb, Bool.and_self, if_true]

theorem kopecks_decimalValue {value : String} {n : Nat} (h : kopecks value = some n) :
    (n : ℚ) = 100 * decimalValue value := by
  obtain ⟨whole, a, b, -, hwhole, -, -, hvalue, rfl⟩ := kopecks_eq_some_iff.mp h
  have hpoint : ∀ c ∈ whole, (decide (c ≠ '.')) = true := by
    intro c hc
    refine decide_eq_true fun hdot => ?_
    have hdigit := hwhole c hc
    rw [hdot] at hdigit
    cases hdigit
  rw [decimalValue, hvalue, List.takeWhile_append_of_pos hpoint,
    List.dropWhile_append_of_pos hpoint, digitsValue_append]
  simp only [ne_eq, not_true_eq_false, decide_false, Bool.false_eq_true, not_false_eq_true,
    List.takeWhile_cons_of_neg, List.append_nil, List.dropWhile_cons_of_neg, List.tail_cons,
    List.length_cons,
    List.length_nil]
  push_cast
  ring

/-! ## `amount` -/

/-- The digits of an integer, with zeros in front up to `k` of them. -/
def paddedDigits (n k : Nat) : List Char :=
  let m := Nat.toDigits 10 n
  List.replicate (k - m.length) '0' ++ m

/-- `x.toFixed(digits)` of a number below 10^21. -/
def toFixed (x : ℚ) (digits : Nat) : String :=
  let m := paddedDigits ⌊x * 10 ^ digits + 1 / 2⌋.toNat (digits + 1)
  .ofList (m.take (m.length - digits) ++ '.' :: m.drop (m.length - digits))

/-- `amount`, and the value of a refund: `(priceKopecks / 100).toFixed(2)`. -/
def amount (priceKopecks : Nat) : String := toFixed (nearest 53 (priceKopecks / 100)) 2

theorem le_length_paddedDigits (n k : Nat) : k ≤ (paddedDigits n k).length := by
  rw [paddedDigits, List.length_append, List.length_replicate]
  omega

theorem digitsValue_paddedDigits (n k : Nat) : digitsValue (paddedDigits n k) = n := by
  rw [digitsValue_eq, paddedDigits, Nat.ofDigitChars_append, Nat.ofDigitChars_replicate_zero,
    Nat.mul_zero, Nat.ofDigitChars_ten_toDigits]

theorem isDigit_of_mem_paddedDigits {n k : Nat} {c : Char} (h : c ∈ paddedDigits n k) :
    c.isDigit = true := by
  rcases List.mem_append.mp h with h | h
  · rw [List.eq_of_mem_replicate h]
    rfl
  · exact Nat.isDigit_of_mem_toDigits (by decide) (by decide) h

/-- A text of two decimals is accepted, and its digits are read. -/
theorem kopecks_toFixed (x : ℚ) : kopecks (toFixed x 2) = some ⌊x * 10 ^ 2 + 1 / 2⌋.toNat := by
  have hlength := le_length_paddedDigits ⌊x * 10 ^ 2 + 1 / 2⌋.toNat 3
  have hvalue := digitsValue_paddedDigits ⌊x * 10 ^ 2 + 1 / 2⌋.toNat 3
  have hdigit : ∀ c ∈ paddedDigits ⌊x * 10 ^ 2 + 1 / 2⌋.toNat 3, c.isDigit = true :=
    fun _ => isDigit_of_mem_paddedDigits
  rw [toFixed]
  generalize paddedDigits ⌊x * 10 ^ 2 + 1 / 2⌋.toNat 3 = m at *
  have htwo : (m.drop (m.length - 2)).length = 2 := by
    rw [List.length_drop]
    omega
  obtain ⟨a, b, hdrop⟩ := List.length_eq_two.mp htwo
  have hdecimals : ∀ c ∈ [a, b], c.isDigit = true :=
    fun c hc => hdigit c (List.mem_of_mem_drop (hdrop ▸ hc))
  refine kopecks_eq_some_iff.mpr ⟨m.take (m.length - 2), a, b, ?_,
    fun c hc => hdigit c (List.mem_of_mem_take hc),
    hdecimals a (by simp), hdecimals b (by simp), ?_, ?_⟩
  · refine List.ne_nil_of_length_pos ?_
    rw [List.length_take]
    omega
  · rw [String.toList_ofList, hdrop]
  · rw [← hdrop, List.take_append_drop, hvalue]

theorem kopecks_toFixed_div (p : Nat) : kopecks (toFixed (p / 100) 2) = some p := by
  have hfloor : ⌊(p / 100 : ℚ) * 10 ^ 2 + 1 / 2⌋ = p := by
    rw [Int.floor_eq_iff]
    constructor <;> push_cast <;> linarith
  rw [kopecks_toFixed, hfloor, Int.toNat_natCast]

/-- Below 2^46 the Numbers are closer to each other than the halves of kopecks. -/
theorem abs_sub_nearest_lt {x : ℚ} (hx : 0 < x) (h : x < 2 ^ 46) :
    |x - nearest 53 x| < 1 / 200 := by
  have hlog : Int.log 2 x < 46 :=
    (Int.lt_zpow_iff_log_lt (b := 2) (by decide) hx).mp (by exact_mod_cast h)
  have hulp : ulp 53 x ≤ 2 ^ (-7 : ℤ) := zpow_le_zpow_right₀ one_le_two (by push_cast; omega)
  have hhalf := abs_sub_nearest_le_half (w := 53) (x := x)
  norm_num at hulp
  linarith

/-- The rounding of the quotient does not change the text. -/
theorem kopecks_amount {p : Nat} (hp : 0 < p) (h : p < 100 * 2 ^ 46) :
    kopecks (amount p) = some p := by
  have hx : (0 : ℚ) < p / 100 := by positivity
  have hbound : (p / 100 : ℚ) < 2 ^ 46 := by
    rw [div_lt_iff₀ (by norm_num), mul_comm]
    exact_mod_cast h
  obtain ⟨hlow, hhigh⟩ := abs_lt.mp (abs_sub_nearest_lt hx hbound)
  have hfloor : ⌊nearest 53 (p / 100) * 10 ^ 2 + 1 / 2⌋ = p := by
    rw [Int.floor_eq_iff]
    constructor <;> push_cast <;> linarith
  rw [amount, kopecks_toFixed, hfloor, Int.toNat_natCast]

/-! ## Prices and Numbers -/

/-- The integers among them are the safe ones. -/
def IsSafe : Number → Prop
  | .finite x => x < 2 ^ 53
  | .infinity => False

theorem ofRat_natCast {n : Nat} (h : n ≤ 2 ^ 53) : Number.ofRat n = .finite n := by
  have hn : (n : ℚ) ≤ 2 ^ 53 := by exact_mod_cast h
  have hlt : (2 ^ 53 : ℚ) < 2 ^ 1024 := pow_lt_pow_right₀ one_lt_two (by decide)
  rw [Number.ofRat, nearest_natCast (by decide) h, if_pos (hn.trans_lt hlt)]

theorem ofRat_of_isRepresentable {n : Nat} (hn : 0 < n) (h : IsRepresentable 53 n)
    (hlt : n < 2 ^ 1024) :
    Number.ofRat n = .finite n := by
  have hpos : (0 : ℚ) < n := by exact_mod_cast hn
  rw [Number.ofRat, nearest_of_isRepresentable (by decide) hpos h, if_pos (by exact_mod_cast hlt)]

/-- A safe integer has been read without rounding. -/
theorem ofRat_eq_of_isSafe {n : Nat} (h : IsSafe (.ofRat n)) : Number.ofRat n = .finite n := by
  rw [Number.ofRat] at h ⊢
  split at h
  next hlt => rw [if_pos hlt, eq_of_nearest_lt (by decide) h]
  next => cases h

/-- With a safe integer, Numbers compare as the integers do. -/
theorem kopecksNumber_eq_iff {value : String} {p : Nat} (h : p < 2 ^ 53) :
    kopecksNumber value = some (.finite p) ↔ kopecks value = some p := by
  rw [kopecksNumber, Option.map_eq_some_iff]
  constructor
  · rintro ⟨n, hn, hp⟩
    have hlt : (p : ℚ) < 2 ^ 53 := by exact_mod_cast h
    have hsafe : IsSafe (.ofRat n) := by rwa [hp]
    rw [ofRat_eq_of_isSafe hsafe, Number.finite.injEq] at hp
    rw [hn, Nat.cast_injective hp]
  · intro hp
    exact ⟨p, hp, ofRat_natCast h.le⟩

theorem kopecks_amounts :
    (∀ p : Nat, 0 < p → IsRepresentable 53 p → p < 2 ^ 1024 →
      kopecksNumber (toFixed (p / 100) 2) = some (.finite p)) ∧
    (∀ p : Nat, 0 < p → p < 100 * 2 ^ 46 → kopecksNumber (amount p) = some (.finite p)) ∧
    (∀ value, (kopecksNumber value).isSome →
      kopecksNumber value = some (.ofRat (100 * decimalValue value)) ∧
      (100 * decimalValue value ≤ 2 ^ 53 →
        kopecksNumber value = some (.finite (100 * decimalValue value)))) ∧
    ∀ value value' a b, kopecksNumber value = some a → kopecksNumber value' = some b → IsSafe a →
      (a = b ↔ decimalValue value = decimalValue value') := by
  refine ⟨fun p hp h hlt => ?_, fun p hp h => ?_, fun value h => ?_,
    fun value value' a b ha hb hsafe => ?_⟩
  · rw [kopecksNumber, kopecks_toFixed_div, Option.map_some, ofRat_of_isRepresentable hp h hlt]
  · exact (kopecksNumber_eq_iff (h.trans (by decide))).mpr (kopecks_amount hp h)
  · rw [kopecksNumber, Option.isSome_map] at h
    obtain ⟨n, hn⟩ := Option.isSome_iff_exists.mp h
    rw [kopecksNumber, hn, ← kopecks_decimalValue hn]
    exact ⟨rfl, fun hle => congrArg some (ofRat_natCast (by exact_mod_cast hle))⟩
  · obtain ⟨n, hn, rfl⟩ := Option.map_eq_some_iff.mp ha
    obtain ⟨n', hn', rfl⟩ := Option.map_eq_some_iff.mp hb
    have hvalue := kopecks_decimalValue hn
    have hvalue' := kopecks_decimalValue hn'
    constructor
    · intro heq
      have hsame : (n : ℚ) = n' := by
        have hfinite := ofRat_eq_of_isSafe hsafe
        rw [heq, ofRat_eq_of_isSafe (heq ▸ hsafe)] at hfinite
        exact (Number.finite.inj hfinite).symm
      linarith
    · intro heq
      have hsame : (n : ℚ) = n' := by rw [hvalue, hvalue', heq]
      rw [hsame]

/-- One more than 2^53 lies between two Numbers. -/
theorem ofRat_succ_two_pow : Number.ofRat (9007199254740993 : Nat) = .finite 9007199254740992 := by
  have hlog : Int.log 2 ((9007199254740993 : Nat) : ℚ) = 53 := by
    rw [Int.log_natCast]
    decide +kernel
  have hulp : ulp 53 ((9007199254740993 : Nat) : ℚ) = 2 := by
    rw [ulp, hlog]
    norm_num
  have hfloor : ⌊(9007199254740993 / 2 : ℚ)⌋ = 4503599627370496 := by
    rw [Int.floor_eq_iff]
    norm_num
  have hround : roundEven (9007199254740993 / 2) = 4503599627370496 := by
    rw [roundEven, Int.fract, hfloor]
    norm_num
  have hnearest : nearest 53 ((9007199254740993 : Nat) : ℚ) = 9007199254740992 := by
    rw [nearest, hulp, Nat.cast_ofNat, hround]
    norm_num
  have hlt : (9007199254740992 : ℚ) < 2 ^ 1024 := by
    have hpow : (2 ^ 53 : ℚ) < 2 ^ 1024 := pow_lt_pow_right₀ one_lt_two (by decide)
    rwa [show (2 ^ 53 : ℚ) = 9007199254740992 by norm_num] at hpow
  rw [Number.ofRat, hnearest, if_pos hlt]

/-- From 2^46 on the Numbers are 1/64 apart. -/
theorem nearest_quotient : nearest 53 ((9007199254740801 : Nat) / 100) = 5764607523034113 / 64 := by
  have hlog : Int.log 2 ((9007199254740801 : Nat) / 100 : ℚ) = 46 := by
    rw [Int.log_of_one_le_right _ (by norm_num),
      show ⌊((9007199254740801 : Nat) / 100 : ℚ)⌋₊ = 90071992547408 from ?_]
    · decide +kernel
    · rw [Nat.floor_eq_iff (by norm_num)]
      norm_num
  have hulp : ulp 53 ((9007199254740801 : Nat) / 100) = 1 / 64 := by
    rw [ulp, hlog]
    norm_num
  have hfloor : ⌊((9007199254740801 : Nat) / 100 / (1 / 64) : ℚ)⌋ = 5764607523034112 := by
    rw [Int.floor_eq_iff]
    norm_num
  have hround : roundEven ((9007199254740801 : Nat) / 100 / (1 / 64)) = 5764607523034113 := by
    rw [roundEven, Int.fract, hfloor]
    norm_num
  rw [nearest, hulp, hround]
  norm_num

/-- The quotient of a safe integer can be written a kopeck off, and a text can be read a kopeck
off. -/
theorem kopecks_rounds : kopecks (amount 9007199254740801) = some 9007199254740802 ∧
    kopecksNumber "90071992547409.93" = some (.finite 9007199254740992) ∧
    kopecksNumber "90071992547409.92" = some (.finite 9007199254740992) ∧
    decimalValue "90071992547409.93" ≠ decimalValue "90071992547409.92" := by
  have hodd : kopecks "90071992547409.93" = some 9007199254740993 := by decide
  have heven : kopecks "90071992547409.92" = some 9007199254740992 := by decide
  have hfloor : ⌊(5764607523034113 / 64 : ℚ) * 10 ^ 2 + 1 / 2⌋ = 9007199254740802 := by
    rw [Int.floor_eq_iff]
    norm_num
  refine ⟨?_, ?_, ?_, fun heq => ?_⟩
  · rw [amount, nearest_quotient, kopecks_toFixed, hfloor]
    rfl
  · rw [kopecksNumber, hodd]
    exact congrArg some ofRat_succ_two_pow
  · rw [kopecksNumber, heven]
    exact congrArg some (ofRat_natCast (by decide))
  · have hsame : ((9007199254740993 : Nat) : ℚ) = (9007199254740992 : Nat) := by
      rw [kopecks_decimalValue hodd, kopecks_decimalValue heven, heq]
    norm_num at hsame

end Tonatiuh.Billing
