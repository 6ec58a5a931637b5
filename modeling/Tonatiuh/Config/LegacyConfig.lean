import Tonatiuh.Config.Sync

/-! `legacyConfig` of `saas/worker.ts`: the runtime configuration of a bot.

`settings` is `bot.configuration ?? {}` and `credentials` the parsed plaintext of
`bot.credentials_ciphertext`, both as functions from property names to values. -/

namespace Tonatiuh.Config

abbrev JsRecord := String → JsValue

/-- `numberValue`: numbers are finite here. -/
def numberValue (value : JsValue) (fallback : Rat) : Rat :=
  match value with
  | .number q => q
  | _ => fallback

def booleanValue (value : JsValue) (fallback : Bool := false) : Bool :=
  match value with
  | .boolean b => b
  | _ => fallback

def supported : List ExchangeType :=
  [.okx, .binance, .bitget, .kucoin, .mexc, .poloniex, .gate, .exmo, .bybit]

def legacyConfig (exchangeCode : String) (settings credentials : JsRecord) :
    Except String ConfigType :=
  match supported.find? (·.code = exchangeCode) with
  | none => .error s!"Unsupported exchange: {exchangeCode}"
  | some exchange =>
    match settings "symbol" with
    | .string symbol =>
      if '/' ∉ symbol.toList then .error "Bot configuration must contain a valid symbol."
      else
        match credentials "apiKey", credentials "privateKey" with
        | .string apiKey, .string privateKey =>
          .ok {
            id := 1, apiKey, privateKey, symbol, exchange
            password := match credentials "password" with | .string s => s | _ => ""
            positionSize := numberValue (settings "positionSize") (1 / 10)
            countGridSize := some (numberValue (settings "countGridSize") 1)
            gridSize := some (numberValue (settings "gridSize") 1)
            percentBuyBackStep := numberValue (settings "percentBuyBackStep") (1 / 1000)
            takeProfit := some (numberValue (settings "takeProfit") (2 / 100))
            stopLoss := some (numberValue (settings "stopLoss") (1 / 100))
            isEmergencyStop := false
            isFibonacci := booleanValue (settings "isFibonacci")
            percentProfit := numberValue (settings "percentProfit") (2 / 100)
            percentFromBalance := numberValue (settings "percentFromBalance") (1 / 100)
            candlePriceRange :=
              match settings "candlePriceRange" with | .string s => s | _ => "1h"
            isPercentTargetAfterTakeProfit :=
              booleanValue (settings "isPercentTargetAfterTakeProfit") true
            isCapitalizeDeltaFromSale := booleanValue (settings "isCapitalizeDeltaFromSale")
            isCoinAccumulation := booleanValue (settings "isCoinAccumulation")
            isConfigUpdated := false, isAutoStartTrading := false, isStopTrading := false
            isOnlyBuy := booleanValue (settings "isOnlyBuy")
            percentTargetAfterTakeProfit :=
              numberValue (settings "percentTargetAfterTakeProfit") (1 / 100)
            balanceDistribution := booleanValue (settings "balanceDistribution") }
        | _, _ => .error "Exchange credentials are incomplete."
    | _ => .error "Bot configuration must contain a valid symbol."

/-- A runtime configuration has the number 1, and no password where the credentials have none. -/
theorem legacyConfig_eq_ok (h : legacyConfig exchangeCode settings credentials = .ok c) :
    c.id = 1 ∧ ((∀ s, credentials "password" = .string s → s = "") → c.password = "") := by
  unfold legacyConfig at h
  split at h
  · cases h
  split at h
  · split at h
    · cases h
    split at h
    · cases h
      refine ⟨rfl, fun hnone => ?_⟩
      simp only
      split
      · next s hs => exact hnone s hs
      · rfl
    · cases h
  · cases h

/-- A bot whose exchange needs no password does not start: its first call of `syncRuntimeConfig`
throws. -/
theorem legacyConfig_sync_throws (service : EncryptionService)
    (h : legacyConfig exchangeCode settings credentials = .ok c)
    (hnone : ∀ s, credentials "password" = .string s → s = "") :
    (syncRuntimeConfig service c {}).1 ≠ .ok () := fun hok =>
  (of_syncRuntimeConfig_first_ok c hok).2.2.2 ((legacyConfig_eq_ok h).2 hnone)

/-- Credentials of an exchange that has no password. -/
def keyCredentials : JsRecord := fun name =>
  if name = "apiKey" then .string "key"
  else if name = "privateKey" then .string "secret"
  else .undefined

def symbolOnly : JsRecord := fun name => if name = "symbol" then .string "BTC/USDT" else .undefined

theorem legacyConfig_sync_throws_keyCredentials :
    ∃ c, legacyConfig "bybit" symbolOnly keyCredentials = .ok c ∧
      (syncRuntimeConfig recordedService c {}).1 ≠ .ok () := by
  have hconfig : legacyConfig "bybit" symbolOnly keyCredentials = .ok _ := rfl
  exact ⟨_, hconfig, legacyConfig_sync_throws recordedService hconfig fun _ hs => by cases hs⟩

end Tonatiuh.Config
