import Tonatiuh.Config.TradingConfiguration

/-! What `legacyConfig` makes of a configuration that `tradingConfiguration` has accepted.

The configuration of a bot is stored as `jsonb`, which keeps the properties of an object in an order
of its own. -/

namespace Tonatiuh.Config

open OpenApi (Json)
open Http (JsonRecord)
open TradingConfiguration

namespace JsValue

def typeof : JsValue → String
  | .undefined => "undefined"
  | .null => "object"
  | .boolean _ => "boolean"
  | .number _ => "number"
  | .string _ => "string"

/-- A value that was parsed. Of arrays and objects nothing but their type is read. -/
def ofJson : Json → JsValue
  | .null | .array _ | .object _ => .null
  | .bool b => .boolean b
  | .number q => .number q
  | .string s => .string s

end JsValue

/-- The properties of a parsed object. -/
def settings (stored : JsonRecord) : JsRecord := fun field =>
  match stored.lookup field with
  | none => .undefined
  | some value => JsValue.ofJson value

/-- The properties of the runtime configuration that a bot can configure. -/
def ConfigType.setting (c : ConfigType) : String → JsValue
  | "symbol" => .string c.symbol
  | "positionSize" => .number c.positionSize
  | "countGridSize" => .ofNullable c.countGridSize
  | "gridSize" => .ofNullable c.gridSize
  | "percentBuyBackStep" => .number c.percentBuyBackStep
  | "takeProfit" => .ofNullable c.takeProfit
  | "stopLoss" => .ofNullable c.stopLoss
  | "isFibonacci" => .boolean c.isFibonacci
  | "percentProfit" => .number c.percentProfit
  | "percentFromBalance" => .number c.percentFromBalance
  | "candlePriceRange" => .string c.candlePriceRange
  | "isPercentTargetAfterTakeProfit" => .boolean c.isPercentTargetAfterTakeProfit
  | "isCapitalizeDeltaFromSale" => .boolean c.isCapitalizeDeltaFromSale
  | "isCoinAccumulation" => .boolean c.isCoinAccumulation
  | "isOnlyBuy" => .boolean c.isOnlyBuy
  | "percentTargetAfterTakeProfit" => .number c.percentTargetAfterTakeProfit
  | "balanceDistribution" => .boolean c.balanceDistribution
  | _ => .undefined

/-- What `legacyConfig` takes for a property that is not there. The symbol has no default. -/
def legacyDefault : String → JsValue
  | "positionSize" => .number (1 / 10)
  | "countGridSize" => .number 1
  | "gridSize" => .number 1
  | "percentBuyBackStep" => .number (1 / 1000)
  | "takeProfit" => .number (2 / 100)
  | "stopLoss" => .number (1 / 100)
  | "isFibonacci" => .boolean false
  | "percentProfit" => .number (2 / 100)
  | "percentFromBalance" => .number (1 / 100)
  | "candlePriceRange" => .string "1h"
  | "isPercentTargetAfterTakeProfit" => .boolean true
  | "isCapitalizeDeltaFromSale" => .boolean false
  | "isCoinAccumulation" => .boolean false
  | "isOnlyBuy" => .boolean false
  | "percentTargetAfterTakeProfit" => .number (1 / 100)
  | "balanceDistribution" => .boolean false
  | _ => .undefined

/-- A setting counts if it has the type of the default. -/
def effective (default setting : JsValue) : JsValue :=
  if default = .undefined ∨ setting.typeof = default.typeof then setting else default

theorem effective_number (d : Rat) (setting : JsValue) :
    effective (.number d) setting = .number (numberValue setting d) := by
  cases setting <;> simp [effective, JsValue.typeof, numberValue]

theorem effective_boolean (d : Bool) (setting : JsValue) :
    effective (.boolean d) setting = .boolean (booleanValue setting d) := by
  cases setting <;> simp [effective, JsValue.typeof, booleanValue]

theorem effective_string (d : String) (setting : JsValue) :
    effective (.string d) setting = .string (match setting with | .string s => s | _ => d) := by
  cases setting <;> simp [effective, JsValue.typeof]

/-- `legacyConfig` of a supported exchange, with credentials and a symbol. -/
theorem legacyConfig_settings {exchange : ExchangeType} {settings credentials : JsRecord}
    {symbol apiKey privateKey : String} (hexchange : exchange ∈ supported)
    (hsymbol : settings "symbol" = .string symbol) (hslash : '/' ∈ symbol.toList)
    (hapiKey : credentials "apiKey" = .string apiKey)
    (hprivateKey : credentials "privateKey" = .string privateKey) :
    ∃ c, legacyConfig exchange.code settings credentials = .ok c ∧
      c.exchange = exchange ∧ c.apiKey = apiKey ∧
      c.privateKey = privateKey ∧
      ∀ field ∈ fields, c.setting field = effective (legacyDefault field) (settings field) := by
  have hfind : supported.find? (·.code = exchange.code) = some exchange := by
    revert exchange
    decide
  unfold legacyConfig
  simp only [hfind, hsymbol, hapiKey, hprivateKey, hslash, not_true_eq_false, if_false]
  refine ⟨_, rfl, rfl, rfl, rfl, fun field hfield => ?_⟩
  simp only [fields, List.mem_cons, List.not_mem_nil, or_false] at hfield
  obtain rfl | hfield := hfield
  · exact (if_pos (.inl rfl)).trans hsymbol |>.symm
  rcases hfield with rfl | rfl | rfl | rfl | rfl | rfl | rfl | rfl | rfl | rfl | rfl | rfl | rfl |
      rfl | rfl | rfl
  all_goals
    first
    | exact (effective_number _ _).symm
    | exact (effective_boolean _ _).symm
    | exact (effective_string _ _).symm

/-! ## Defaults -/

/-- The defaults of the numbers are in their ranges. -/
theorem legacyDefault_range : ∀ range ∈ ranges, ∃ d, legacyDefault range.1 = .number d ∧
    range.2.1.value ≤ d ∧ d ≤ range.2.2.value := by
  intro range hrange
  simp only [ranges, List.mem_cons, List.not_mem_nil, or_false] at hrange
  rcases hrange with rfl | rfl | rfl | rfl | rfl | rfl | rfl | rfl | rfl
  all_goals exact ⟨_, rfl, by decide +kernel, by decide +kernel⟩

theorem ranges_fields : ∀ range ∈ ranges, range.1 ∈ fields := by decide

theorem legacyDefault_flag : ∀ field ∈ flags, (legacyDefault field).typeof = "boolean" := by decide

/-- What a check writes has the type of the default. -/
theorem typeof_checked {entry : String × Check} (h : entry ∈ checks) {value value' : Json}
    (hok : entry.2 value = .ok value') :
    (JsValue.ofJson value').typeof = (legacyDefault entry.1).typeof := by
  obtain ⟨range, hrange, rfl⟩ | ⟨field, hfield, rfl⟩ | rfl := mem_checks h
  · obtain ⟨q, -, rfl, -⟩ := numberCheck_ok hok
    obtain ⟨d, hd, -⟩ := legacyDefault_range range hrange
    exact (congrArg JsValue.typeof hd).symm
  · obtain ⟨b, -, rfl⟩ := flagCheck_ok hok
    exact (legacyDefault_flag field hfield).symm
  · obtain ⟨timeframe, -, rfl⟩ := timeframeCheck_ok hok
    rfl

/-! ## Stored configurations -/

section
variable {stored c : JsonRecord} {field : String} {value : Json}

theorem settings_of_mem (hnodup : (stored.map Prod.fst).Nodup) (h : (field, value) ∈ stored) :
    settings stored field = JsValue.ofJson value := by
  rw [settings, Tables.lookup_of_mem hnodup h]

theorem settings_of_not_mem (h : field ∉ stored.map Prod.fst) :
    settings stored field = .undefined := by
  rw [settings, Tables.lookup_eq_none h]

theorem effective_undefined (default : JsValue) : effective default .undefined = default := by
  cases default <;> rfl

variable {unicode : Char → List Char} {v : Json}

theorem accepted_nodup (h : tradingConfiguration unicode v = .ok c) : (c.map Prod.fst).Nodup := by
  obtain ⟨input, symbol, output, -, -, -, hcollect, rfl⟩ := tradingConfiguration_ok h
  refine List.nodup_cons.mpr ⟨fun hmem => ?_, checks_nodup.sublist (collect_keys hcollect)⟩
  obtain ⟨entry, hentry, heq⟩ := List.mem_map.mp hmem
  exact (output_fields hcollect entry hentry).2 heq

theorem accepted_fields (h : tradingConfiguration unicode v = .ok c) :
    ∀ entry ∈ c, entry.1 ∈ fields := by
  obtain ⟨input, symbol, output, -, -, -, hcollect, rfl⟩ := tradingConfiguration_ok h
  refine List.forall_mem_cons.mpr ⟨symbol_mem_fields, fun entry hentry => ?_⟩
  exact (output_fields hcollect entry hentry).1

/-- A field of an accepted configuration, other than the symbol, has been checked. -/
theorem accepted_checked (h : tradingConfiguration unicode v = .ok c) (hmem : (field, value) ∈ c) :
    (field = "symbol" ∧ ∃ symbol, value = .string symbol ∧ isSymbol symbol = true) ∨
      ∃ check read, (field, check) ∈ checks ∧ check read = .ok value := by
  obtain ⟨input, symbol, output, -, -, hsymbol, hcollect, rfl⟩ := tradingConfiguration_ok h
  rcases List.mem_cons.mp hmem with heq | hmem
  · cases heq
    exact .inl ⟨rfl, symbol, rfl, hsymbol⟩
  · exact .inr (collect_mem hcollect hmem)

/-- The settings of an accepted configuration count. -/
theorem effective_accepted (h : tradingConfiguration unicode v = .ok c)
    (hmem : (field, value) ∈ c) :
    effective (legacyDefault field) (JsValue.ofJson value) = JsValue.ofJson value := by
  obtain ⟨rfl, -⟩ | ⟨check, read, hcheck, hok⟩ := accepted_checked h hmem
  · exact if_pos (.inl rfl)
  · exact if_pos (.inr (typeof_checked hcheck hok))

theorem accepted_range (h : tradingConfiguration unicode v = .ok c)
    {range : String × Http.Bound × Http.Bound}
    (hrange : range ∈ ranges) (hmem : (range.1, value) ∈ c) :
    ∃ q, value = .number q ∧ range.2.1.value ≤ q ∧ q ≤ range.2.2.value := by
  have hnumber : (range.1, (numberCheck range).2) ∈ checks :=
    List.mem_append_left _ (List.mem_append_left _ (List.mem_map_of_mem hrange))
  obtain ⟨hfield, -⟩ | ⟨check, read, hcheck, hok⟩ := accepted_checked h hmem
  · exact absurd hfield (checks_fields _ (List.mem_map_of_mem hnumber)).2
  · have heq :=
      (Tables.lookup_of_mem checks_nodup hcheck).symm.trans
        (Tables.lookup_of_mem checks_nodup hnumber)
    cases Option.some.inj heq
    obtain ⟨q, -, hq, hbounds⟩ := numberCheck_ok hok
    exact ⟨q, hq, hbounds⟩

end

/-- What `tradingConfiguration` accepts, it accepts unchanged when it is sent again. `legacyConfig`
carries every field of it into the runtime configuration and takes its defaults for the others, so
that the numbers are in the ranges that were checked. Other fields are not accepted. -/
theorem tradingConfiguration_agrees (unicode : Char → List Char) {v : Json} {c : JsonRecord}
    (h : tradingConfiguration unicode v = .ok c) :
    tradingConfiguration unicode (.object c) = .ok c ∧
    (∃ input, v = .object input ∧ ∀ entry ∈ input, entry.1 ∈ fields) ∧
    ∀ stored, stored.Perm c → ∀ exchange ∈ supported, ∀ credentials : JsRecord, ∀ apiKey privateKey,
      credentials "apiKey" = .string apiKey → credentials "privateKey" = .string privateKey →
      ∃ config, legacyConfig exchange.code (settings stored) credentials = .ok config ∧
        config.exchange = exchange ∧ config.apiKey = apiKey ∧ config.privateKey = privateKey ∧
        (∀ entry ∈ c, config.setting entry.1 = JsValue.ofJson entry.2) ∧
        (∀ field ∈ fields, field ∉ c.map Prod.fst → config.setting field = legacyDefault field) ∧
        ∀ range ∈ ranges, ∃ q, config.setting range.1 = .number q ∧ range.2.1.value ≤ q ∧
          q ≤ range.2.2.value := by
  obtain ⟨input, symbol, output, hv, hknown, hsymbol, -, hc⟩ := tradingConfiguration_ok h
  refine ⟨tradingConfiguration_idem h, ⟨input, hv, hknown⟩, ?_⟩
  intro stored hperm exchange hexchange credentials apiKey privateKey hapiKey hprivateKey
  have hnodup : (stored.map Prod.fst).Nodup := (hperm.map Prod.fst).nodup_iff.mpr (accepted_nodup h)
  have hstored : ∀ entry ∈ c,
      settings stored entry.1 = JsValue.ofJson entry.2 := fun entry hentry =>
    settings_of_mem hnodup (hperm.mem_iff.mpr hentry)
  have hsymbolEntry : ("symbol", Json.string symbol) ∈ c := hc ▸ List.mem_cons_self
  obtain ⟨config, hconfig, hfields⟩ := legacyConfig_settings hexchange (hstored _ hsymbolEntry)
    (of_isSymbol hsymbol).1 hapiKey hprivateKey
  obtain ⟨hex, hak, hpk, hsetting⟩ := hfields
  have hcarried : ∀ entry ∈ c,
      config.setting entry.1 = JsValue.ofJson entry.2 := fun entry hentry => by
    rw [hsetting _ (accepted_fields h entry hentry), hstored entry hentry,
      effective_accepted h hentry]
  have hdefault : ∀ field ∈ fields,
      field ∉ c.map Prod.fst → config.setting field = legacyDefault field := by
    intro field hfield hnone
    rw [hsetting field hfield,
      settings_of_not_mem fun hmem => hnone ((hperm.map Prod.fst).mem_iff.mp hmem),
      effective_undefined]
  refine ⟨config, hconfig, hex, hak, hpk, hcarried, hdefault, fun range hrange => ?_⟩
  by_cases hthere : range.1 ∈ c.map Prod.fst
  · obtain ⟨⟨field, value⟩, hentry, rfl⟩ := List.mem_map.mp hthere
    obtain ⟨q, rfl, hbounds⟩ := accepted_range h hrange hentry
    exact ⟨q, hcarried _ hentry, hbounds⟩
  · obtain ⟨d, hd, hbounds⟩ := legacyDefault_range range hrange
    exact ⟨d, (hdefault _ (ranges_fields range hrange) hthere).trans hd, hbounds⟩

/-- The configuration of the test, with a symbol in lower case, stored in another order. -/
theorem tradingConfiguration_agrees_btc :
    ∃ config, legacyConfig "okx"
        (settings [("isOnlyBuy", .bool true), ("symbol", .string "BTC/USDT"),
          ("positionSize", .number (1 / 10))])
        (fun name => if name = "apiKey" ∨ name = "privateKey" then .string "key" else .undefined) =
          .ok config ∧
      config.setting "isOnlyBuy" = .boolean true := by
  have haccepted : tradingConfiguration (fun c => [c]) (.object [("symbol", .string " btc/usdt"),
      ("positionSize", .number (1 / 10)), ("isOnlyBuy", .bool true)]) =
      .ok [("symbol", .string "BTC/USDT"), ("positionSize", .number (1 / 10)),
        ("isOnlyBuy", .bool true)] := by
    with_unfolding_all rfl
  obtain ⟨config, hconfig, -, -, -, hcarried, -⟩ := (tradingConfiguration_agrees _ haccepted).2.2
    [("isOnlyBuy", .bool true), ("symbol", .string "BTC/USDT"), ("positionSize", .number (1 / 10))]
    (List.Perm.trans (List.Perm.swap _ _ _) ((List.Perm.swap _ _ _).cons _)) .okx (by decide)
    (fun name => if name = "apiKey" ∨ name = "privateKey" then .string "key" else .undefined) "key"
      "key" rfl rfl
  exact ⟨config, hconfig, hcarried ("isOnlyBuy", .bool true) (by simp)⟩

end Tonatiuh.Config
