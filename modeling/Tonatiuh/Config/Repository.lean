import Tonatiuh.Config.Encryption

/-! `ConfigRepository` on the desktop (SQLite) database, and `legacyConfig` of the supervisor.

An object is the list of its own properties in the order `Object.keys` gives. A row of
`trade_config` is a function from columns to cells; column affinity changes no value of the types
that the configuration has, so a cell holds what was bound. -/

namespace Tonatiuh.Config

/-! ## Configurations -/

inductive ExchangeType where
  | okx | binance | bitget | kucoin | mexc | poloniex | gate | exmo | bybit
  deriving DecidableEq, Repr

def ExchangeType.code : ExchangeType → String
  | .okx => "okx" | .binance => "binance" | .bitget => "bitget" | .kucoin => "kucoin"
  | .mexc => "mexc" | .poloniex => "poloniex" | .gate => "gate" | .exmo => "exmo"
  | .bybit => "bybit"

/-- The property names of `ConfigType`, and `loggerEvent`, which is only read. -/
inductive ConfigKey where
  | id | apiKey | privateKey | password | symbol | positionSize | countGridSize | gridSize
  | percentBuyBackStep | takeProfit | stopLoss | isEmergencyStop | isFibonacci | percentProfit
  | percentFromBalance | candlePriceRange | isPercentTargetAfterTakeProfit
  | isCapitalizeDeltaFromSale | isCoinAccumulation | isConfigUpdated | isAutoStartTrading
  | isStopTrading | isOnlyBuy | percentTargetAfterTakeProfit | balanceDistribution | exchange
  | loggerEvent
  deriving DecidableEq, Repr

/-- `ConfigType`. Numbers are finite. -/
structure ConfigType where
  id : Rat := 1
  apiKey : String
  privateKey : String
  password : String
  symbol : String
  positionSize : Rat := 1 / 10
  countGridSize : Option Rat := some 1
  gridSize : Option Rat := some 1
  percentBuyBackStep : Rat := 1 / 1000
  takeProfit : Option Rat := some (2 / 100)
  stopLoss : Option Rat := some (1 / 100)
  isEmergencyStop : Bool := false
  isFibonacci : Bool := false
  percentProfit : Rat := 2 / 100
  percentFromBalance : Rat := 1 / 100
  candlePriceRange : String := "1h"
  isPercentTargetAfterTakeProfit : Bool := true
  isCapitalizeDeltaFromSale : Bool := false
  isCoinAccumulation : Bool := false
  isConfigUpdated : Bool := false
  isAutoStartTrading : Bool := false
  isStopTrading : Bool := false
  isOnlyBuy : Bool := false
  percentTargetAfterTakeProfit : Rat := 1 / 100
  balanceDistribution : Bool := false
  exchange : ExchangeType

abbrev JsObject := List (ConfigKey × JsValue)

/-- `number | null`. -/
def JsValue.ofNullable : Option Rat → JsValue
  | none => .null
  | some q => .number q

/-- The own properties of a configuration. -/
def ConfigType.object (c : ConfigType) : JsObject :=
  [(.id, .number c.id), (.apiKey, .string c.apiKey), (.privateKey, .string c.privateKey),
   (.password, .string c.password), (.symbol, .string c.symbol),
   (.positionSize, .number c.positionSize), (.countGridSize, .ofNullable c.countGridSize),
   (.gridSize, .ofNullable c.gridSize), (.percentBuyBackStep, .number c.percentBuyBackStep),
   (.takeProfit, .ofNullable c.takeProfit), (.stopLoss, .ofNullable c.stopLoss),
   (.isEmergencyStop, .boolean c.isEmergencyStop), (.isFibonacci, .boolean c.isFibonacci),
   (.percentProfit, .number c.percentProfit), (.percentFromBalance, .number c.percentFromBalance),
   (.candlePriceRange, .string c.candlePriceRange),
   (.isPercentTargetAfterTakeProfit, .boolean c.isPercentTargetAfterTakeProfit),
   (.isCapitalizeDeltaFromSale, .boolean c.isCapitalizeDeltaFromSale),
   (.isCoinAccumulation, .boolean c.isCoinAccumulation),
   (.isConfigUpdated, .boolean c.isConfigUpdated),
   (.isAutoStartTrading, .boolean c.isAutoStartTrading), (.isStopTrading, .boolean c.isStopTrading),
   (.isOnlyBuy, .boolean c.isOnlyBuy),
   (.percentTargetAfterTakeProfit, .number c.percentTargetAfterTakeProfit),
   (.balanceDistribution, .boolean c.balanceDistribution), (.exchange, .string c.exchange.code)]

/-- `const { …keys, ...rest } = object`: the rest. -/
def JsObject.without (o : JsObject) (keys : List ConfigKey) : JsObject :=
  o.filter fun p => p.1 ∉ keys

/-! ## Columns -/

inductive Column where
  | id | position_size | count_grid_size | grid_size | percent_buy_back | take_profit | stop_loss
  | is_emergency_stop | percent_profit | percent_from_balance | candle_price_range | symbol
  | percent_target_after_take_profit | balance_distribution | exchange
  | is_percent_target_after_take_profit | api_key | private_key | password | is_only_buy
  | is_fibonacci | is_capitalize_delta_from_sale | is_coin_accumulation | is_auto_start_trading
  | is_stop_trading | logger_event
  deriving DecidableEq, Repr

/-- `ColumnName[name]`, `none` for `undefined`. -/
def columnName : ConfigKey → Option Column
  | .id => some .id
  | .apiKey => some .api_key
  | .privateKey => some .private_key
  | .password => some .password
  | .symbol => some .symbol
  | .positionSize => some .position_size
  | .countGridSize => some .count_grid_size
  | .gridSize => some .grid_size
  | .percentBuyBackStep => some .percent_buy_back
  | .takeProfit => some .take_profit
  | .stopLoss => some .stop_loss
  | .isEmergencyStop => some .is_emergency_stop
  | .isFibonacci => some .is_fibonacci
  | .percentProfit => some .percent_profit
  | .percentFromBalance => some .percent_from_balance
  | .candlePriceRange => some .candle_price_range
  | .isPercentTargetAfterTakeProfit => some .is_percent_target_after_take_profit
  | .isCapitalizeDeltaFromSale => some .is_capitalize_delta_from_sale
  | .isCoinAccumulation => some .is_coin_accumulation
  | .isConfigUpdated => none
  | .isAutoStartTrading => some .is_auto_start_trading
  | .isStopTrading => some .is_stop_trading
  | .isOnlyBuy => some .is_only_buy
  | .percentTargetAfterTakeProfit => some .percent_target_after_take_profit
  | .balanceDistribution => some .balance_distribution
  | .exchange => some .exchange
  | .loggerEvent => some .logger_event

/-- `_column`: what `select` reads, and the property each column becomes. -/
def selectColumns : List (ConfigKey × Column) :=
  [(.id, .id), (.positionSize, .position_size), (.countGridSize, .count_grid_size),
   (.gridSize, .grid_size), (.percentBuyBackStep, .percent_buy_back),
   (.takeProfit, .take_profit), (.stopLoss, .stop_loss),
   (.isEmergencyStop, .is_emergency_stop), (.isFibonacci, .is_fibonacci),
   (.percentProfit, .percent_profit), (.percentFromBalance, .percent_from_balance),
   (.candlePriceRange, .candle_price_range),
   (.percentTargetAfterTakeProfit, .percent_target_after_take_profit),
   (.isPercentTargetAfterTakeProfit, .is_percent_target_after_take_profit),
   (.isCapitalizeDeltaFromSale, .is_capitalize_delta_from_sale),
   (.isCoinAccumulation, .is_coin_accumulation), (.isAutoStartTrading, .is_auto_start_trading),
   (.isStopTrading, .is_stop_trading), (.isOnlyBuy, .is_only_buy),
   (.loggerEvent, .logger_event), (.apiKey, .api_key), (.privateKey, .private_key),
   (.password, .password), (.exchange, .exchange), (.symbol, .symbol)]

/-- What SQLite stores. -/
inductive Cell where
  | null
  | number (q : Rat)
  | text (s : String)
  deriving DecidableEq, Repr

/-- A bound parameter: booleans become 0 and 1. -/
def JsValue.bind : JsValue → Cell
  | .undefined | .null => .null
  | .boolean b => .number (if b then 1 else 0)
  | .number q => .number q
  | .string s => .text s

/-- A cell of a result row. -/
def Cell.toJs : Cell → JsValue
  | .null => .null
  | .number q => .number q
  | .text s => .string s

abbrev Row := Column → Cell

/-- The defaults of `CREATE TABLE trade_config`. -/
def defaultRow : Row
  | .position_size => .number (1 / 10)
  | .count_grid_size | .grid_size | .is_percent_target_after_take_profit => .number 1
  | .percent_buy_back => .number (1 / 1000)
  | .percent_profit => .number (2 / 100)
  | .percent_from_balance | .percent_target_after_take_profit => .number (1 / 100)
  | .candle_price_range => .text "1h"
  | .exchange => .text "okx"
  | .is_emergency_stop | .balance_distribution | .is_only_buy | .is_fibonacci
  | .is_capitalize_delta_from_sale | .is_coin_accumulation | .is_auto_start_trading
  | .is_stop_trading => .number 0
  | .id | .take_profit | .stop_loss | .symbol | .api_key | .private_key | .password
  | .logger_event => .null

/-- The table with its AUTOINCREMENT counter. `encryptions` numbers the calls of `encrypt`; each
write of a configuration takes three numbers. -/
structure ConfigDatabase where
  rows : List Row := []
  sequence : Nat := 0
  encryptions : Nat := 0

/-- `_mappingValuesList`, with the error of a statement that names no column. -/
def mappingValuesList (o : JsObject) : Except String (List (Column × JsValue)) :=
  match o.mapM fun p => (columnName p.1).map (·, p.2) with
  | some values => .ok values
  | none => .error "SQLITE_ERROR: no such column: undefined"

/-- A row with the given columns set. -/
def Row.assign (row : Row) (values : List (Column × JsValue)) : Row := fun column =>
  match values.lookup column with
  | some v => v.bind
  | none => row column

/-- A row of the `select`. -/
def Row.select (row : Row) (key : ConfigKey) : JsValue :=
  match selectColumns.lookup key with
  | some column => (row column).toJs
  | none => .undefined

/-- `where: [{ column: 'trade_config.id', value }]`. -/
def Row.hasId (row : Row) (id : Rat) : Bool := row .id = .number id

/-! ## The repository -/

section
variable (service : EncryptionService)

/-- The result object of a row, its three credentials decrypted. -/
def decryptConfig (config : ConfigKey → JsValue) : Except String (ConfigKey → JsValue) := do
  let apiKey ← service.decrypt (config .apiKey)
  let privateKey ← service.decrypt (config .privateKey)
  let password ← service.decrypt (config .password)
  return fun
    | .apiKey => .string apiKey
    | .privateKey => .string privateKey
    | .password => .string password
    | key => config key

def getConfig (db : ConfigDatabase) : Except String (List (ConfigKey → JsValue)) :=
  db.rows.mapM fun row => decryptConfig service row.select

def getConfigById (configId : Rat) (db : ConfigDatabase) : Except String (ConfigKey → JsValue) :=
  match (db.rows.filter (·.hasId configId)).head? with
  | some row => decryptConfig service row.select
  | none => .error "Cannot read properties of undefined (reading 'apiKey')"

/-- The object that `createConfig` inserts. -/
def createObject (config : ConfigType) (n : Nat) : JsObject :=
  config.object.without [.apiKey, .privateKey, .password, .id, .isConfigUpdated] ++
    [(.apiKey, .string (service.encrypt n config.apiKey)),
     (.privateKey, .string (service.encrypt (n + 1) config.privateKey)),
     (.password, .string (service.encrypt (n + 2) config.password))]

def createConfig (config : ConfigType) (db : ConfigDatabase) :
    Except String Unit × ConfigDatabase :=
  match mappingValuesList (createObject service config db.encryptions) with
  | .error e => (.error e, { db with encryptions := db.encryptions + 3 })
  | .ok values =>
    (.ok (), { rows := db.rows ++ [Row.assign (fun
                 | .id => .number (db.sequence + 1 : Nat)
                 | column => defaultRow column) values]
               sequence := db.sequence + 1
               encryptions := db.encryptions + 3 })

/-- `if (value) configMapping[key] = encrypt(value)`. -/
def encryptTruthy (key : ConfigKey) (value : String) (n : Nat) : JsObject :=
  if value = "" then [] else [(key, .string (service.encrypt n value))]

/-- The object that `updateConfig` sets. -/
def updateObject (config : ConfigType) (n : Nat) : JsObject :=
  encryptTruthy service .apiKey config.apiKey n ++
    encryptTruthy service .privateKey config.privateKey (n + 1) ++
    encryptTruthy service .password config.password (n + 2) ++
    config.object.without [.apiKey, .privateKey, .password, .isConfigUpdated]

def updateConfig (config : ConfigType) (configId : Rat) (db : ConfigDatabase) :
    Except String Unit × ConfigDatabase :=
  match mappingValuesList (updateObject service config db.encryptions) with
  | .error e => (.error e, { db with encryptions := db.encryptions + 3 })
  | .ok values =>
    (.ok (), { db with
      rows := db.rows.map fun row => if row.hasId configId then row.assign values else row
      encryptions := db.encryptions + 3 })

/-- `value ?? 'unknown'` in a template. -/
def orUnknown : JsValue → String
  | .undefined | .null => "unknown"
  | .boolean b => toString b
  | .number q => toString q
  | .string s => s

def syncRuntimeConfig (config : ConfigType) (db : ConfigDatabase) :
    Except String Unit × ConfigDatabase :=
  match getConfig service db with
  | .error e => (.error e, db)
  | .ok configs =>
    if configs.any fun item => item .id = .number config.id then
      updateConfig service config config.id db
    else if configs ≠ [] then
      (.error s!"Runtime config {config.id} was not found in a non-empty config database.", db)
    else
      match createConfig service config db with
      | (.error e, db) => (.error e, db)
      | (.ok (), db) =>
        match getConfig service db with
        | .error e => (.error e, db)
        | .ok [] =>
          (.error s!"Runtime config was created with id unknown instead of {config.id}.", db)
        | .ok (created :: _) =>
          if created .id = .number config.id then (.ok (), db)
          else
            let id := orUnknown (created .id)
            (.error s!"Runtime config was created with id {id} instead of {config.id}.", db)

/-- Successive calls of `syncRuntimeConfig`, whether or not one before threw. -/
def syncRuntimeConfigs : List ConfigType → ConfigDatabase →
    List (Except String Unit) × ConfigDatabase
  | [], db => ([], db)
  | c :: cs, db =>
    let (r, db) := syncRuntimeConfig service c db
    let (rs, db) := syncRuntimeConfigs cs db
    (r :: rs, db)

end

end Tonatiuh.Config
