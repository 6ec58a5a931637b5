import Tonatiuh.Config.Repository
import Tonatiuh.Sql.Placeholders

/-! The queries of `repository/abstract.repository.ts`.

`_insertQuery`, `_updateQuery` and `_selectQuery` build a text and its parameters. Names of columns
are texts without placeholders, as those of `ColumnName` and of the callers are. -/

namespace Tonatiuh.Repository

open Config (JsValue)
open Sql Sql.Fragment

inductive AppMode where
  | web | desktop
  deriving DecidableEq, Repr

inductive TableNameType where
  | trade_operation | balance_history | trade_session | trade_config | instance_identity
  deriving DecidableEq, Repr

def TableNameType.text : TableNameType → PlainText
  | .trade_operation => .of "trade_operation"
  | .balance_history => .of "balance_history"
  | .trade_session => .of "trade_session"
  | .trade_config => .of "trade_config"
  | .instance_identity => .of "instance_identity"

/-- A value of a column: the type excludes objects, but orders are given to `_insertQuery`. -/
inductive ColumnValue (Object : Type) where
  | value (v : JsValue)
  | object (o : Object)

structure ValueType (Object : Type) where
  column : PlainText
  value : ColumnValue Object

inductive OperationCondition where
  | and | or
  deriving DecidableEq, Repr

def OperationCondition.text : OperationCondition → PlainText
  | .and => .of "and"
  | .or => .of "or"

inductive JoinType where
  | left | right | inner
  deriving DecidableEq, Repr

def JoinType.text : JoinType → PlainText
  | .left => .of "left"
  | .right => .of "right"
  | .inner => .of "inner"

structure JoinTableType where
  joinType : JoinType
  conditionEqual : PlainText × PlainText
  joinTable : PlainText

inductive OrderType where
  | asc | desc
  deriving DecidableEq, Repr

def OrderType.text : OrderType → PlainText
  | .asc => .of "asc"
  | .desc => .of "desc"

structure OrderBy where
  column : PlainText
  type : OrderType

structure InsertQueryParamType (Object : Type) where
  tableName : TableNameType
  value : List (ValueType Object)

structure WhereGenerationParamType (Object : Type) where
  «where» : Option (List (ValueType Object)) := none
  operationCondition : Option OperationCondition := none

structure UpdateQueryParamType (Object : Type) extends WhereGenerationParamType Object where
  tableName : TableNameType
  value : List (ValueType Object)

structure SelectQueryParamType (Object : Type) extends WhereGenerationParamType Object where
  tableName : TableNameType
  column : List PlainText
  join : Option (List JoinTableType) := none
  orderBy : Option OrderBy := none
  limit : Option Nat := none

/-! ## The texts -/

section

variable {Object : Type} (stringify : Object → String) (mode : AppMode)

def serializeValue : ColumnValue Object → JsValue
  | .value v => v
  | .object o => .string (stringify o)

def placeholder (index : Nat) : String := if mode = .web then "$" ++ toString index else "?"

def placeholders (count : Nat) : String :=
  ", ".intercalate ((List.range count).map fun index => placeholder mode (index + 1))

def insertColumnGeneration (value : List (ValueType Object)) : PlainText :=
  .intercalate (.of ", ") (value.map (·.column))

def selectColumnGeneration : List PlainText → PlainText
  | [] => .of "undefined"
  | columns => .intercalate (.of ", ") columns

def joinChecker (join : Option (List JoinTableType)) (tableName : TableNameType) : PlainText :=
  match join with
  | none => .empty
  | some join => .intercalate (.of ",") (join.map fun property =>
    property.joinType.text ++ .of " join " ++ property.joinTable ++ .of " on " ++
      tableName.text ++ .of "." ++ property.conditionEqual.1 ++ .of " = " ++
      property.joinTable ++ .of "." ++ property.conditionEqual.2)

def updateValueGeneration (value : List (ValueType Object)) : String :=
  ", ".intercalate (value.mapIdx fun index val =>
    val.column.text ++ " = " ++ placeholder mode (index + 1))

def whereGeneration (param : WhereGenerationParamType Object) (offset : Nat) : String :=
  match param.where with
  | none => ""
  | some conditions =>
    (" " ++ (param.operationCondition.elim "" fun operator => operator.text.text) ++
      " ").intercalate
      (conditions.mapIdx fun index condition =>
        condition.column.text ++ " = " ++ placeholder mode (offset + index + 1))

/-- `sql` and `params`. -/
def whereChecker (param : WhereGenerationParamType Object) (offset : Nat) : String × List JsValue :=
  match param.where with
  | none => ("", [])
  | some conditions =>
    ("where " ++ whereGeneration mode param offset,
      conditions.map fun condition => serializeValue stringify condition.value)

/-! ## The queries -/

def insertQuery (param : InsertQueryParamType Object) : Except String (String × List JsValue) :=
  if param.value.isEmpty then .error "Insert values cannot be empty."
  else
    let params := param.value.map fun item => serializeValue stringify item.value
    .ok ("\n        insert into " ++ param.tableName.text.text ++ "(" ++
      (insertColumnGeneration param.value).text ++
      ")\n            values(" ++ placeholders mode param.value.length ++ ") returning *\n        ",
        params)

def updateQuery (param : UpdateQueryParamType Object) : Except String (String × List JsValue) :=
  if param.value.isEmpty then .error "Update values cannot be empty."
  else
    let params := param.value.map fun item => serializeValue stringify item.value
    let whereResult := whereChecker stringify mode param.toWhereGenerationParamType params.length
    .ok ("\n        update " ++ param.tableName.text.text ++ " \n          set " ++
      updateValueGeneration mode param.value ++ "\n          " ++ whereResult.1 ++
      " returning *\n        ",
      params ++ whereResult.2)

def selectQuery (param : SelectQueryParamType Object) : String × List JsValue :=
  let joinString := (joinChecker param.join param.tableName).text
  let whereResult := whereChecker stringify mode param.toWhereGenerationParamType 0
  let orderBy := param.orderBy.elim "" fun orderBy =>
    "order by " ++ orderBy.column.text ++ " " ++ orderBy.type.text.text
  let limit := if param.limit.getD 0 = 0 then "" else "limit " ++ toString (param.limit.getD 0)
  ("\n      select " ++ (selectColumnGeneration param.column).text ++ "\n      from " ++
    param.tableName.text.text ++ "\n      " ++ (joinString ++ " " ++ whereResult.1) ++
    "\n      " ++ orderBy ++ "\n      " ++ limit ++ "\n      ",
    whereResult.2)

end

/-! ## The statements that are meant -/

/-- A column and the value that it is bound to. -/
abbrev Binding := PlainText × JsValue

def equation (binding : Binding) : List (Fragment JsValue) :=
  [.text (binding.1 ++ .of " = "), .value binding.2]

def insertStatement (tableName : TableNameType) (bindings : List Binding) :
    List (Fragment JsValue) :=
  [.text (.of "\n        insert into " ++ tableName.text ++ .of "(" ++
    .intercalate (.of ", ") (bindings.map Prod.fst) ++ .of ")\n            values(")] ++
  joined (.of ", ") (fun binding => [.value binding.2]) bindings ++
    [.text (.of ") returning *\n        ")]

/-- The conjunction or disjunction of the conditions. -/
def whereStatement (operator : OperationCondition) : Option (List Binding) → List (Fragment JsValue)
  | none => []
  | some conditions =>
    [.text (.of "where ")] ++ joined (.of " " ++ operator.text ++ .of " ") equation conditions

def updateStatement (tableName : TableNameType) (bindings : List Binding)
    (operator : OperationCondition)
    (conditions : Option (List Binding)) : List (Fragment JsValue) :=
  [.text (.of "\n        update " ++ tableName.text ++ .of " \n          set ")] ++
  joined (.of ", ") equation bindings ++ [.text (.of "\n          ")] ++
    whereStatement operator conditions ++
  [.text (.of " returning *\n        ")]

def orderByText (orderBy : Option OrderBy) : PlainText :=
  orderBy.elim .empty fun orderBy =>
    .of "order by " ++ orderBy.column ++ .of " " ++ orderBy.type.text

def limitText (limit : Option Nat) : PlainText :=
  if limit.getD 0 = 0 then .empty else .of "limit " ++ .ofNat (limit.getD 0)

def selectStatement (tableName : TableNameType) (column : List PlainText)
    (join : Option (List JoinTableType))
    (operator : OperationCondition) (conditions : Option (List Binding)) (orderBy : Option OrderBy)
    (limit : Option Nat) : List (Fragment JsValue) :=
  [.text (.of "\n      select " ++ selectColumnGeneration column ++ .of "\n      from " ++
    tableName.text ++
    .of "\n      " ++ joinChecker join tableName ++ .of " ")] ++
      whereStatement operator conditions ++
  [.text (.of "\n      "),
    .text (orderByText orderBy ++ .of "\n      " ++ limitText limit ++ .of "\n      ")]

/-! ## The texts are the statements -/

section

variable {Object : Type} (stringify : Object → String) (mode : AppMode)

def AppMode.dialect : AppMode → Dialect
  | .web => .numbered
  | .desktop => .positional

theorem placeholder_eq (index : Nat) : placeholder mode index = mode.dialect.placeholder index := by
  cases mode <;> rfl

def ValueType.binding (item : ValueType Object) : Binding :=
  (item.column, serializeValue stringify item.value)

/-- There is an operator between conditions. -/
def WhereGenerationParamType.HasOperator (param : WhereGenerationParamType Object) : Prop :=
  ∀ conditions ∈ param.where, 2 ≤ conditions.length → param.operationCondition.isSome

theorem write_equations (separator : PlainText) (i : Nat) (items : List (ValueType Object)) :
    write mode.dialect i (joined separator equation (items.map (ValueType.binding stringify))) =
      separator.text.intercalate (items.mapIdx fun index item =>
        item.column.text ++ " = " ++ placeholder mode (i + index)) := by
  have hitem : ∀ (index : Nat) (item : ValueType Object),
      write mode.dialect (i + index) (equation (item.binding stringify)) =
        item.column.text ++ " = " ++ placeholder mode (i + index) := by
    intro index item
    rw [placeholder_eq]
    simp [equation, ValueType.binding, write, PlainText.of]
  rw [write_joined _ _ _ fun _ _ => rfl]
  refine congrArg _ (List.ext_getElem? fun index => ?_)
  rw [List.getElem?_mapIdx, List.getElem?_mapIdx, List.getElem?_map, Option.map_map]
  exact Option.map_congr fun item _ => hitem index item

theorem values_equations (separator : PlainText) (items : List (ValueType Object)) :
    values (joined separator equation (items.map (ValueType.binding stringify))) =
      items.map fun item => serializeValue stringify item.value := by
  rw [values_joined, List.flatMap_map]
  exact List.flatMap_pure_eq_map _ _

theorem updateValueGeneration_eq (value : List (ValueType Object)) :
    updateValueGeneration mode value =
    write mode.dialect 1
      (joined (.of ", ") equation (value.map (ValueType.binding stringify))) := by
  rw [write_equations, updateValueGeneration]
  simp only [Nat.add_comm 1]
  rfl

/-- The separator of the conditions is the operator, and that of one condition is not written. -/
theorem whereGeneration_eq {param : WhereGenerationParamType Object} (h : param.HasOperator)
    {conditions : List (ValueType Object)} (hwhere : param.where = some conditions) (offset : Nat) :
    whereGeneration mode param offset = write mode.dialect (offset + 1)
      (joined (.of " " ++ (param.operationCondition.getD .and).text ++ .of " ") equation
        (conditions.map (ValueType.binding stringify))) := by
  have hindex : ∀ index, offset + 1 + index = offset + index + 1 := by omega
  rw [write_equations, whereGeneration, hwhere]
  simp only [hindex]
  cases hoperator : param.operationCondition with
  | some operator => rfl
  | none =>
    rcases conditions with _ | ⟨first, _ | ⟨second, rest⟩⟩
    · rfl
    · simp
    · have hsome := h _ hwhere (by simp)
      rw [hoperator] at hsome
      cases hsome

theorem whereChecker_eq {param : WhereGenerationParamType Object} (h : param.HasOperator)
    (offset : Nat) :
    let statement := whereStatement (param.operationCondition.getD .and)
      (param.where.map (List.map (ValueType.binding stringify)))
    whereChecker stringify mode param offset =
      (write mode.dialect (offset + 1) statement, values statement) := by
  unfold whereChecker
  cases hwhere : param.where with
  | none => rfl
  | some conditions =>
    have hvalues := values_equations stringify
      (.of " " ++ (param.operationCondition.getD .and).text ++ .of " ") conditions
    simp only [Option.map_some, whereStatement, whereGeneration_eq stringify mode h hwhere,
      ← hvalues]
    rfl

theorem bindings_columns (value : List (ValueType Object)) :
    value.map (Prod.fst ∘ ValueType.binding stringify) = value.map (·.column) := rfl

theorem placeholders_eq (value : List (ValueType Object)) : placeholders mode value.length =
    write mode.dialect 1 (joined (.of ", ") (fun binding => [.value binding.2])
      (value.map (ValueType.binding stringify))) := by
  rw [write_joined _ _ _ fun _ _ => rfl, placeholders]
  refine congrArg _ (List.ext_getElem? fun index => ?_)
  rw [List.getElem?_mapIdx, List.getElem?_map, List.getElem?_map]
  rcases Nat.lt_or_ge index value.length with hlt | hge
  · rw [List.getElem?_range hlt, List.getElem?_eq_getElem hlt]
    simp [write, placeholder_eq, Nat.add_comm]
  · rw [List.getElem?_eq_none (by simpa using hge), List.getElem?_eq_none hge]
    rfl

theorem values_values (separator : PlainText) (value : List (ValueType Object)) :
    values (joined separator (fun binding => [.value binding.2])
      (value.map (ValueType.binding stringify))) =
      value.map fun item => serializeValue stringify item.value := by
  rw [values_joined, List.flatMap_map]
  exact List.flatMap_pure_eq_map _ _

theorem insertQuery_eq {param : InsertQueryParamType Object} (h : param.value ≠ []) :
    let statement := insertStatement param.tableName (param.value.map (ValueType.binding stringify))
    insertQuery stringify mode param = .ok (write mode.dialect 1 statement, values statement) := by
  rw [insertQuery, if_neg (by simpa using h), placeholders_eq stringify]
  simp [insertStatement, write_append, values_append, write, values, bindings_columns,
    insertColumnGeneration, values_values, String.append_assoc]

theorem updateQuery_eq {param : UpdateQueryParamType Object} (h : param.value ≠ [])
    (hoperator : param.HasOperator) :
    let statement := updateStatement param.tableName (param.value.map (ValueType.binding stringify))
      (param.operationCondition.getD .and)
        (param.where.map (List.map (ValueType.binding stringify)))
    updateQuery stringify mode param = .ok (write mode.dialect 1 statement, values statement) := by
  rw [updateQuery, if_neg (by simpa using h)]
  simp [updateStatement, write_append, values_append, write, values,
    whereChecker_eq stringify mode hoperator, updateValueGeneration_eq stringify, values_equations,
    String.append_assoc, Nat.add_comm 1]

theorem selectQuery_eq {param : SelectQueryParamType Object} (hoperator : param.HasOperator) :
    let statement :=
      selectStatement param.tableName param.column param.join (param.operationCondition.getD .and)
      (param.where.map (List.map (ValueType.binding stringify))) param.orderBy param.limit
    selectQuery stringify mode param = (write mode.dialect 1 statement, values statement) := by
  have horder : (orderByText param.orderBy).text =
      param.orderBy.elim "" fun orderBy =>
        "order by " ++ orderBy.column.text ++ " " ++ orderBy.type.text.text := by
    cases param.orderBy <;> rfl
  have hlimit : (limitText param.limit).text =
      if param.limit.getD 0 = 0 then "" else "limit " ++ toString (param.limit.getD 0) := by
    rw [limitText, apply_ite PlainText.text]
    rfl
  unfold selectQuery
  dsimp only
  rw [← horder, ← hlimit, whereChecker_eq stringify mode hoperator]
  simp [selectStatement, write_append, values_append, write, values, String.append_assoc]

/-! ## Binding -/

theorem separated_equations {separator : PlainText}
    (h : separator.text.toList.head?.any (!·.isDigit) = true) (bindings : List Binding) :
    Separated (joined separator equation bindings) :=
  .joined h fun _ _ => ⟨rfl, trivial⟩

theorem separated_insertStatement (tableName : TableNameType) (bindings : List Binding) :
    Separated (insertStatement tableName bindings) := by
  have hvalues : Separated (joined (.of ", ") (fun binding : Binding => [.value binding.2])
      bindings) :=
    .joined (by decide) fun _ _ => ⟨rfl, trivial⟩
  exact Separated.append hvalues trivial rfl

theorem separated_whereStatement (operator : OperationCondition)
    (conditions : Option (List Binding)) :
    Separated (whereStatement operator conditions) := by
  cases conditions with
  | none => trivial
  | some conditions =>
    refine separated_equations ?_ conditions
    cases operator <;> decide

theorem startsWithDigit_whereStatement (operator : OperationCondition)
    (conditions : Option (List Binding)) :
    startsWithDigit (whereStatement operator conditions) = false := by
  cases conditions <;> rfl

theorem separated_updateStatement (tableName : TableNameType) (bindings : List Binding)
    (operator : OperationCondition) (conditions : Option (List Binding)) :
    Separated (updateStatement tableName bindings operator conditions) := by
  have hset : Separated (joined (.of ", ") equation bindings) :=
    separated_equations (by decide) bindings
  refine Separated.append (Separated.append (Separated.append hset trivial rfl) ?_ ?_) trivial rfl
  · exact separated_whereStatement operator conditions
  · exact startsWithDigit_whereStatement operator conditions

theorem separated_selectStatement (tableName : TableNameType) (column : List PlainText)
    (join : Option (List JoinTableType)) (operator : OperationCondition)
    (conditions : Option (List Binding)) (orderBy : Option OrderBy) (limit : Option Nat) :
    Separated (selectStatement tableName column join operator conditions orderBy limit) :=
  Separated.append (separated_whereStatement operator conditions) trivial rfl

/-- Each placeholder stands once and in the order of the parameters, and the text with the
parameters in place is the statement. -/
structure Binds (query : String × List JsValue) (statement : List (Fragment JsValue)) : Prop where
  placeholders : mode.dialect.placeholders query.1 = List.range' 1 query.2.length
  statement : mode.dialect.bind query.1 query.2 = some (tokens statement)

theorem Binds.of_separated {statement : List (Fragment JsValue)} (h : Separated statement) :
    Binds mode (write mode.dialect 1 statement, values statement) statement :=
  ⟨placeholders_write mode.dialect h, bind_write mode.dialect h⟩

/-- `disableStopTrading(7)`. -/
def stopTradingDisabled : UpdateQueryParamType Unit where
  tableName := .trade_config
  value := [⟨.of "is_stop_trading", .value (.number 0)⟩]
  «where» :=
    some [⟨.of "is_stop_trading", .value (.number 1)⟩, ⟨.of "trade_config.id", .value (.number 7)⟩]
  operationCondition := some .and

example : updateQuery (fun _ : Unit => "{}") .web stopTradingDisabled = .ok (
    "\n        update trade_config \n          set is_stop_trading = $1" ++
      "\n          where is_stop_trading = $2 and trade_config.id = $3 returning *\n        ",
    [.number 0, .number 1, .number 7]) := by decide +kernel

end

end Tonatiuh.Repository
