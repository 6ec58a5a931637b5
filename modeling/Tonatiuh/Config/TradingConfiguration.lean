import Tonatiuh.Config.LegacyConfig
import Tonatiuh.Http.Validate
import Tonatiuh.Tables.Map

/-! `tradingConfiguration` of `saas/trading/configuration.ts`, which validates the configuration of
a bot, and `legacyConfig`, which reads it.

`unicode` is the upper case of the characters beyond ASCII. -/

namespace Tonatiuh.Config

open OpenApi (Json)
open Commands (isSpace)
open Quota (utf16Length)
open Http (ValidationError JsonRecord Bound objectValue stringValue)

namespace TradingConfiguration

def fields : List String :=
  ["symbol", "positionSize", "countGridSize", "gridSize", "percentBuyBackStep", "takeProfit",
    "stopLoss", "isFibonacci", "percentProfit", "percentFromBalance", "candlePriceRange",
    "isPercentTargetAfterTakeProfit", "isCapitalizeDeltaFromSale", "isCoinAccumulation",
    "isOnlyBuy", "percentTargetAfterTakeProfit", "balanceDistribution"]

def zero : Bound := ⟨0, "0"⟩
def one : Bound := ⟨1, "1"⟩
def tiny : Bound := ⟨1 / 100000000, "1e-8"⟩
def million : Bound := ⟨1000000, "1000000"⟩

def ranges : List (String × Bound × Bound) :=
  [("positionSize", tiny, million), ("countGridSize", one, ⟨100, "100"⟩),
    ("gridSize", tiny, million), ("percentBuyBackStep", zero, one), ("takeProfit", zero, one),
    ("stopLoss", zero, one), ("percentProfit", zero, one), ("percentFromBalance", tiny, one),
      ("percentTargetAfterTakeProfit", zero, one)]

def flags : List String :=
  ["isFibonacci", "isPercentTargetAfterTakeProfit", "isCapitalizeDeltaFromSale",
    "isCoinAccumulation", "isOnlyBuy", "balanceDistribution"]

def timeframes : List String := ["1m", "5m", "15m", "1h", "4h", "1d"]

/-! ## Symbols -/

def toUpperCase (unicode : Char → List Char) (s : String) : String :=
  String.ofList (s.toList.flatMap fun c => if c.toNat < 128 then [c.toUpper] else unicode c)

/-- `[A-Z0-9]`. -/
def isAssetChar (c : Char) : Bool := c.isUpper || c.isDigit

/-- `[A-Z0-9]{2,12}`. -/
def isAsset (cs : List Char) : Bool := 2 ≤ cs.length ∧ cs.length ≤ 12 ∧ cs.all isAssetChar

/-- `/^[A-Z0-9]{2,12}\/[A-Z0-9]{2,12}$/`. -/
def isSymbol (s : String) : Bool :=
  match s.toList.dropWhile (· ≠ '/') with
  | '/' :: quote => isAsset (s.toList.takeWhile (· ≠ '/')) && isAsset quote
  | _ => false

/-! ## Fields -/

/-- The check of a field that may be left out, and what it is written as. -/
abbrev Check := Json → Except ValidationError Json

def numberCheck (range : String × Bound × Bound) : String × Check :=
  (range.1, fun value =>
    (Http.numberValue (some value) ("configuration." ++ range.1) range.2.1 range.2.2).map
      Json.number)

def flagCheck (field : String) : String × Check :=
  (field, fun value => (Http.booleanValue (some value) ("configuration." ++ field)).map Json.bool)

def timeframeCheck : String × Check :=
  ("candlePriceRange", fun value =>
    match stringValue (some value) "configuration.candlePriceRange" 4 with
    | .error e => .error e
    | .ok timeframe =>
      if timeframe ∉ timeframes then .error { message := "Unsupported candle timeframe." }
      else .ok (.string timeframe))

/-- The checks in their order. -/
def checks : List (String × Check) :=
  ranges.map numberCheck ++ flags.map flagCheck ++ [timeframeCheck]

/-- What is written of the fields that are there. -/
def collect (input : JsonRecord) : List (String × Check) → Except ValidationError JsonRecord
  | [] => .ok []
  | (field, check) :: checks =>
    match input.lookup field with
    | none => collect input checks
    | some value =>
      match check value with
      | .error e => .error e
      | .ok value => (collect input checks).map ((field, value) :: ·)

end TradingConfiguration

open TradingConfiguration

def tradingConfiguration (unicode : Char → List Char) (value : Json) :
    Except ValidationError JsonRecord :=
  match objectValue value fields with
  | .error e => .error e
  | .ok input =>
    match stringValue (input.lookup "symbol") "configuration.symbol" 30 with
    | .error e => .error e
    | .ok text =>
      let symbol := toUpperCase unicode text
      if ¬ isSymbol symbol then
        .error { message := "configuration.symbol must use BASE/QUOTE format." }
      else (collect input checks).map (("symbol", .string symbol) :: ·)

namespace TradingConfiguration

/-! ## Symbols are fixed points -/

theorem of_isSymbol {symbol : String} (h : isSymbol symbol = true) :
    '/' ∈ symbol.toList ∧ symbol.toList.length ≤ 25 ∧
      ∀ c ∈ symbol.toList, c = '/' ∨ isAssetChar c = true := by
  have hparts := List.takeWhile_append_dropWhile (p := (· ≠ '/')) (l := symbol.toList)
  unfold isSymbol at h
  split at h
  next quote hquote =>
    obtain ⟨hbase, hquote'⟩ := Bool.and_eq_true_iff.mp h
    obtain ⟨-, hlength, hall⟩ := of_decide_eq_true hbase
    obtain ⟨-, hlength', hall'⟩ := of_decide_eq_true hquote'
    rw [hquote] at hparts
    rw [← hparts]
    refine ⟨List.mem_append_right _ List.mem_cons_self, ?_, fun c hc => ?_⟩
    · rw [List.length_append, List.length_cons]
      omega
    · rcases List.mem_append.mp hc with hc | hc
      · exact .inr (List.all_eq_true.mp hall c hc)
      · exact (List.mem_cons.mp hc).imp_right (List.all_eq_true.mp hall' c)
  next => cases h

theorem ascii_symbolChar : ∀ n < 128, Char.ofNat n = '/' ∨ isAssetChar (Char.ofNat n) = true →
    isSpace (Char.ofNat n) = false ∧ (Char.ofNat n).toUpper = Char.ofNat n := by
  decide +kernel

/-- A character of a symbol is of ASCII, is no space, and is its own upper case. -/
theorem of_symbolChar {c : Char} (h : c = '/' ∨ isAssetChar c = true) :
    c.toNat < 128 ∧ isSpace c = false ∧ c.toUpper = c := by
  have hascii : c.toNat < 128 := by
    obtain rfl | h := h
    · decide
    · rcases Bool.or_eq_true_iff.mp h with hupper | hdigit
      · have hle : c.val ≤ 'Z'.val :=
          (of_decide_eq_true hupper : 'A'.val ≤ c.val ∧ c.val ≤ 'Z'.val).2
        exact Nat.lt_of_le_of_lt (UInt32.le_iff_toNat_le.mp hle) (by decide)
      · have hle : c.val ≤ '9'.val := of_decide_eq_true (Bool.and_eq_true_iff.mp hdigit).2
        exact Nat.lt_of_le_of_lt (UInt32.le_iff_toNat_le.mp hle) (by decide)
  have hchar := ascii_symbolChar c.toNat hascii
  rw [Char.ofNat_toNat] at hchar
  exact ⟨hascii, hchar h⟩

theorem toUpperCase_symbol (unicode : Char → List Char) {symbol : String}
    (h : isSymbol symbol = true) :
    toUpperCase unicode symbol = symbol := by
  have hchars : ∀ cs : List Char, (∀ c ∈ cs, c = '/' ∨ isAssetChar c = true) →
      cs.flatMap (fun c => if c.toNat < 128 then [c.toUpper] else unicode c) = cs := by
    intro cs hcs
    induction cs with
    | nil => rfl
    | cons c cs ih =>
      obtain ⟨hascii, -, hupper⟩ := of_symbolChar (hcs c List.mem_cons_self)
      rw [List.flatMap_cons, if_pos hascii, hupper,
        ih fun c hc => hcs c (List.mem_cons_of_mem _ hc)]
      rfl
  rw [toUpperCase, hchars _ (of_isSymbol h).2.2, String.ofList_toList]

theorem stringValue_symbol {symbol : String} (h : isSymbol symbol = true) (field : String) :
    stringValue (some (.string symbol)) field 30 = .ok symbol := by
  obtain ⟨hslash, hlength, hchars⟩ := of_isSymbol h
  refine Http.stringValue_string (fun c hc => (of_symbolChar (hchars c hc)).2.1) (fun heq => ?_) ?_
  · rw [heq] at hslash
    cases hslash
  · have hsum : utf16Length symbol = symbol.toList.length := by
      rw [utf16Length, List.map_congr_left fun c hc =>
        if_pos (Nat.lt_trans (of_symbolChar (hchars c hc)).1 (by decide))]
      simp
    omega

/-! ## Fields are fixed points -/

variable {input : JsonRecord} {entry : String × Check} {value value' : Json}

theorem mem_checks (h : entry ∈ checks) :
    (∃ range ∈ ranges, entry = numberCheck range) ∨ (∃ field ∈ flags, entry = flagCheck field) ∨
      entry = timeframeCheck := by
  rw [checks, List.mem_append, List.mem_append, List.mem_map, List.mem_map, List.mem_singleton] at h
  obtain (⟨range, hrange, rfl⟩ | ⟨field, hfield, rfl⟩) | rfl := h
  · exact .inl ⟨range, hrange, rfl⟩
  · exact .inr (.inl ⟨field, hfield, rfl⟩)
  · exact .inr (.inr rfl)

theorem numberCheck_ok {range : String × Bound × Bound}
    (h : (numberCheck range).2 value = .ok value') :
    ∃ q, value = .number q ∧ value' = .number q ∧ range.2.1.value ≤ q ∧ q ≤ range.2.2.value := by
  simp only [numberCheck] at h
  cases hq : Http.numberValue (some value) ("configuration." ++ range.1) range.2.1 range.2.2 with
  | error e => rw [hq] at h; cases h
  | ok q =>
    rw [hq] at h
    cases h
    obtain ⟨heq, hrange⟩ := Http.numberValue_ok hq
    exact ⟨q, Option.some.inj heq, rfl, hrange⟩

theorem flagCheck_ok {field : String} (h : (flagCheck field).2 value = .ok value') :
    ∃ b, value = .bool b ∧ value' = .bool b := by
  simp only [flagCheck] at h
  cases hb : Http.booleanValue (some value) ("configuration." ++ field) with
  | error e => rw [hb] at h; cases h
  | ok b =>
    rw [hb] at h
    cases h
    exact ⟨b, Option.some.inj (Http.booleanValue_ok hb), rfl⟩

theorem timeframeCheck_ok (h : timeframeCheck.2 value = .ok value') :
    ∃ timeframe ∈ timeframes, value' = .string timeframe := by
  simp only [timeframeCheck] at h
  split at h
  next => cases h
  next timeframe _ =>
    split at h
    next => cases h
    next hmem =>
      cases h
      exact ⟨timeframe, not_not.mp hmem, rfl⟩

theorem timeframeCheck_string : ∀ timeframe ∈ timeframes,
    timeframeCheck.2 (.string timeframe) = .ok (.string timeframe) := by
  have hplain : ∀ timeframe ∈ timeframes, timeframe.toList.all (fun c => !isSpace c) = true := by
    decide
  have hlength : ∀ timeframe ∈ timeframes, timeframe ≠ "" ∧ utf16Length timeframe ≤ 4 := by decide
  intro timeframe h
  have hspace : ∀ c ∈ timeframe.toList, isSpace c = false := fun c hc =>
    (Bool.not_eq_true' _).mp (List.all_eq_true.mp (hplain timeframe h) c hc)
  obtain ⟨hne, hle⟩ := hlength timeframe h
  simp only [timeframeCheck, Http.stringValue_string hspace hne hle]
  exact if_neg (not_not.mpr h)

/-- What a check writes, it accepts and writes again. -/
theorem check_idem (hentry : entry ∈ checks) (h : entry.2 value = .ok value') :
    entry.2 value' = .ok value' := by
  obtain ⟨range, -, rfl⟩ | ⟨field, -, rfl⟩ | rfl := mem_checks hentry
  · obtain ⟨q, rfl, rfl, -⟩ := numberCheck_ok h
    exact h
  · obtain ⟨b, rfl, rfl⟩ := flagCheck_ok h
    exact h
  · obtain ⟨timeframe, hmem, rfl⟩ := timeframeCheck_ok h
    exact timeframeCheck_string timeframe hmem

section
variable {entries : List (String × Check)} {output : JsonRecord}

theorem collect_cons (h : collect input (entry :: entries) = .ok output) :
    (input.lookup entry.1 = none ∧ collect input entries = .ok output) ∨
      ∃ value value' rest, input.lookup entry.1 = some value ∧ entry.2 value = .ok value' ∧
        collect input entries = .ok rest ∧ output = (entry.1, value') :: rest := by
  rw [collect] at h
  split at h
  next hnone => exact .inl ⟨hnone, h⟩
  next value hvalue =>
    split at h
    next => cases h
    next value' hcheck =>
      cases hrest : collect input entries with
      | error e => rw [hrest] at h; cases h
      | ok rest =>
        rw [hrest] at h
        cases h
        exact .inr ⟨value, value', rest, hvalue, hcheck, rfl, rfl⟩

theorem collect_keys (h : collect input entries = .ok output) :
    (output.map Prod.fst).Sublist (entries.map Prod.fst) := by
  induction entries generalizing output with
  | nil =>
    cases h
    exact List.Sublist.refl _
  | cons entry entries ih =>
    obtain ⟨-, hrest⟩ | ⟨value, value', rest, -, -, hrest, rfl⟩ := collect_cons h
    · exact (ih hrest).cons _
    · exact (ih hrest).cons_cons _

theorem collect_mem (h : collect input entries = .ok output) {field : String} {value' : Json}
    (hmem : (field, value') ∈ output) : ∃ check value,
      (field, check) ∈ entries ∧ check value = .ok value' := by
  induction entries generalizing output with
  | nil =>
    cases h
    cases hmem
  | cons entry entries ih =>
    obtain ⟨-, hrest⟩ | ⟨value, written, rest, -, hcheck, hrest, rfl⟩ := collect_cons h
    · obtain ⟨check, value, hcheck, hok⟩ := ih hrest hmem
      exact ⟨check, value, List.mem_cons_of_mem _ hcheck, hok⟩
    · rcases List.mem_cons.mp hmem with heq | hmem
      · cases heq
        exact ⟨entry.2, value, List.mem_cons_self, hcheck⟩
      · obtain ⟨check, value, hcheck, hok⟩ := ih hrest hmem
        exact ⟨check, value, List.mem_cons_of_mem _ hcheck, hok⟩

/-- What has been written of the fields is collected from it unchanged. -/
theorem collect_idem (hidem : ∀ entry ∈ entries, ∀ value value', entry.2 value = .ok value' →
      entry.2 value' = .ok value') (hnodup : (entries.map Prod.fst).Nodup)
    (h : collect input entries = .ok output) {input' : JsonRecord}
    (hlookup : ∀ entry ∈ entries, input'.lookup entry.1 = output.lookup entry.1) :
    collect input' entries = .ok output := by
  induction entries generalizing output with
  | nil => exact h
  | cons entry entries ih =>
    obtain ⟨hentry, hnodup⟩ := List.nodup_cons.mp hnodup
    have hidem' := fun e he => hidem e (List.mem_cons_of_mem entry he)
    obtain ⟨-, hrest⟩ | ⟨value, value', rest, -, hcheck, hrest, rfl⟩ := collect_cons h
    · have hnone : input'.lookup entry.1 = none := by
        rw [hlookup entry List.mem_cons_self]
        exact Tables.lookup_eq_none fun hmem => hentry ((collect_keys hrest).subset hmem)
      simp only [collect, hnone]
      exact ih hidem' hnodup hrest fun e he => hlookup e (List.mem_cons_of_mem _ he)
    · have hsome : input'.lookup entry.1 = some value' := by
        rw [hlookup entry List.mem_cons_self, Tables.lookup_cons, if_pos rfl]
      have hrest' : collect input' entries = .ok rest := by
        refine ih hidem' hnodup hrest fun e he => ?_
        rw [hlookup e (List.mem_cons_of_mem _ he), Tables.lookup_cons, if_neg]
        exact fun heq => hentry (heq ▸ List.mem_map_of_mem he)
      simp only [collect, hsome, hidem entry List.mem_cons_self value value' hcheck, hrest',
        Except.map]

end

/-! ## Accepted configurations -/

theorem checks_nodup : (checks.map Prod.fst).Nodup := by decide

theorem checks_fields : ∀ field ∈ checks.map Prod.fst, field ∈ fields ∧ field ≠ "symbol" := by
  decide

variable {unicode : Char → List Char} {c : JsonRecord}

theorem tradingConfiguration_ok (h : tradingConfiguration unicode value = .ok c) :
    ∃ input symbol output, value = .object input ∧ (∀ entry ∈ input, entry.1 ∈ fields) ∧
      isSymbol symbol = true ∧ collect input checks = .ok output ∧ c =
        ("symbol", .string symbol) :: output := by
  unfold tradingConfiguration at h
  split at h
  next => cases h
  next input hinput =>
    obtain ⟨hvalue, hknown⟩ := Http.objectValue_ok hinput
    split at h
    next => cases h
    next text _ =>
      dsimp only at h
      split at h
      next => cases h
      next hsymbol =>
        cases hcollect : collect input checks with
        | error e => rw [hcollect] at h; cases h
        | ok output =>
          rw [hcollect] at h
          cases h
          exact ⟨input, _, output, hvalue, hknown, not_not.mp hsymbol, hcollect, rfl⟩

theorem output_fields {output : JsonRecord} (h : collect input checks = .ok output) :
    ∀ entry ∈ output, entry.1 ∈ fields ∧ entry.1 ≠ "symbol" := fun _ hentry =>
  checks_fields _ ((collect_keys h).subset (List.mem_map_of_mem hentry))

theorem symbol_mem_fields : "symbol" ∈ fields := List.mem_cons_self

/-- An accepted configuration is accepted as it is. -/
theorem tradingConfiguration_idem (h : tradingConfiguration unicode value = .ok c) :
    tradingConfiguration unicode (.object c) = .ok c := by
  obtain ⟨input, symbol, output, -, -, hsymbol, hcollect, rfl⟩ := tradingConfiguration_ok h
  have hknown : ∀ entry ∈ ("symbol", Json.string symbol) :: output, entry.1 ∈ fields := by
    refine List.forall_mem_cons.mpr ⟨symbol_mem_fields, fun entry hentry => ?_⟩
    exact (output_fields hcollect entry hentry).1
  have hlookup : (("symbol", Json.string symbol) :: output).lookup "symbol" =
      some (.string symbol) := by
    rw [Tables.lookup_cons, if_pos rfl]
  have hagain : collect (("symbol", Json.string symbol) :: output) checks = .ok output := by
    refine collect_idem (fun entry he _ _ => check_idem he) checks_nodup hcollect fun entry he => ?_
    rw [Tables.lookup_cons, if_neg (checks_fields _ (List.mem_map_of_mem he)).2]
  simp only [tradingConfiguration, Http.objectValue_object hknown, hlookup,
    stringValue_symbol hsymbol, toUpperCase_symbol unicode hsymbol, hsymbol, hagain,
    not_true_eq_false, if_false, Except.map]

end TradingConfiguration

end Tonatiuh.Config
