import Tonatiuh.OpenApi.Soundness

/-! The soundness of the check of whole contracts. -/

namespace Tonatiuh.OpenApi

variable {stringify : Json → String} {test : String → String → Bool} {fuel : Nat}

section
variable (stringify : Json → String) (fuel : Nat) (baseline current : Snapshot)

/-- The check sees all that matters of an operation. -/
def operationCovered (oldOperation next : Operation) : Bool :=
  (oldOperation.parameterMap.all fun (key, parameter) =>
    (next.parameterMap.lookup key).all fun replacement =>
      isCovered stringify baseline.schemas current.schemas .input fuel parameter.schema
        replacement.schema) &&
  ((oldOperation.requestBody.bind (·.schema)).all fun schema =>
    isCovered stringify baseline.schemas current.schemas .input fuel schema
      (next.requestBody.bind (·.schema))) &&
  oldOperation.responses.all fun (status, schema) =>
    (get (some (.keywords {})) next.responses status).all fun nextSchema =>
      isCovered stringify baseline.schemas current.schemas .output fuel schema nextSchema

def contractCovered : Bool :=
  baseline.operations.all fun (id, oldOperation) =>
    (current.operations.lookup id).all fun next =>
      operationCovered stringify fuel baseline current oldOperation next

end

/-- The operation accepts what it has accepted, and answers as it may have answered. -/
structure Compatible (stringify : Json → String) (test : String → String → Bool)
    (baseline current : Snapshot) (oldOperation next : Operation) : Prop where
  parameters : ∀ key parameter, (key, parameter) ∈ oldOperation.parameterMap →
    ∃ replacement, next.parameterMap.lookup key = some replacement ∧
      ∀ v, accepts stringify test baseline.schemas parameter.schema v →
        declaresAll baseline.schemas parameter.schema v →
          accepts stringify test current.schemas replacement.schema v
  body : ∀ schema, oldOperation.requestBody.bind (·.schema) = some schema →
    ∀ v, accepts stringify test baseline.schemas (some schema) v →
      declaresAll baseline.schemas (some schema) v →
      accepts stringify test current.schemas (next.requestBody.bind (·.schema)) v
  responses : ∀ status schema nextSchema, (status, schema) ∈ oldOperation.responses →
    next.responses.lookup status = some nextSchema →
      ∀ v, accepts stringify test current.schemas nextSchema v →
        acceptsDeclared stringify test baseline.schemas schema v

theorem operation_compatible {baseline current : Snapshot} {id : String}
    {oldOperation next : Operation}
    (h : operationIssues stringify fuel baseline current id oldOperation next = some [])
    (hc : operationCovered stringify fuel baseline current oldOperation next) :
    Compatible stringify test baseline current oldOperation next := by
  simp only [operationIssues, parameterIssues, bodyIssues, responseIssues, Issues.append_eq_nil,
    Issues.collect_eq_nil] at h
  simp only [operationCovered, Bool.and_eq_true, List.all_eq_true] at hc
  obtain ⟨⟨⟨-, hparameters, -⟩, -, hbody⟩, hresponses⟩ := h
  obtain ⟨⟨hcparameters, hcbody⟩, hcresponses⟩ := hc
  exact {
    parameters key parameter hmem := by
      have hissues := hparameters _ hmem
      have hcovered := hcparameters _ hmem
      split at hissues
      next => cases hissues
      next replacement hlookup =>
        simp only [hlookup, Option.all_some] at hcovered
        exact ⟨replacement, hlookup, fun v hv hd => input_accepted hissues hcovered hv hd⟩
    body schema hschema v hv hd := by
      rw [hschema] at hbody hcbody
      exact input_accepted hbody hcbody hv hd
    responses status schema nextSchema hmem hnext v hv := by
      have hget : get (some (.keywords {})) next.responses status = some nextSchema := by
        rw [get, hnext, Option.some_or]
      have hissues := hresponses _ hmem
      have hcovered := hcresponses _ hmem
      simp only [hget] at hissues
      simp only [hget, Option.all_some] at hcovered
      exact output_accepted hissues hcovered hv }

/-- If there are no issues, and the check sees all that matters, then the baseline's operations are
still there and compatible, whatever patterns match. -/
theorem contract_compatible {baseline current : Snapshot} {id : String} {oldOperation : Operation}
    (h : compatibilityIssues stringify fuel baseline current = some [])
    (hc : contractCovered stringify fuel baseline current)
    (hoperation : (id, oldOperation) ∈ baseline.operations) :
    ∃ next, current.operations.lookup id = some next ∧
      Compatible stringify test baseline current oldOperation next := by
  have hissues := Issues.collect_eq_nil.mp h _ hoperation
  have hcovered := List.all_eq_true.mp hc _ hoperation
  cases hnext : current.operations.lookup id with
  | none =>
    simp only [hnext] at hissues
    split at hissues <;> cases hissues
  | some next =>
    simp only [hnext] at hissues
    simp only [hnext, Option.all_some] at hcovered
    exact ⟨next, rfl, operation_compatible hissues hcovered⟩

/-- `JSON.stringify` of a string with no characters to escape. -/
def quoted : Json → String
  | .string s => "\"" ++ s ++ "\""
  | _ => "null"

/-- Where there is no `type`, the `items` may stay as they are. -/
example : isCovered quoted [] [] .input 3
    (some (.keywords { items := some (.keywords { type := some .string }) }))
    (some (.keywords { items := some (.keywords { type := some .string }) })) := by
  decide +kernel

def createWidget : Operation where
  method := "post"
  path := "/api/v1/widgets"
  parameters := []
  requestBody := some { required := true, schema := some (.ref "Input") }
  responses := [("200", some (.ref "Output"))]

def widgets (input output : Keywords Schema) : Snapshot where
  operations := [("createWidget", createWidget)]
  schemas := [("Input", .keywords input), ("Output", .keywords output)]

/-- An object all of whose properties are strings. -/
def texts (names required : List String) : Keywords Schema where
  type := some .object
  properties := some (names.map fun name => (name, .keywords { type := some .string }))
  required

/-- Additive response properties are accepted. -/
def unlabelled : Snapshot := widgets (texts ["name"] ["name"]) (texts ["id"] ["id"])
def labelled : Snapshot := widgets (texts ["name"] ["name"]) (texts ["id", "label"] ["id"])

theorem labelled_issues : compatibilityIssues quoted 3 unlabelled labelled = some [] := by
  decide +kernel

theorem labelled_covered : contractCovered quoted 3 unlabelled labelled := by
  decide +kernel

theorem contract_compatible_labelled :
    ∃ next, labelled.operations.lookup "createWidget" = some next ∧
    Compatible quoted (fun _ _ => true) unlabelled labelled createWidget next :=
  contract_compatible labelled_issues labelled_covered List.mem_cons_self

/-- The elements of an input are to be strings, where any were accepted. -/
def untypedItems : Snapshot := widgets { type := some .array } {}
def typedItems : Snapshot :=
  widgets { type := some .array, items := some (.keywords { type := some .string }) } {}

theorem items_narrowed : compatibilityIssues quoted 3 untypedItems typedItems = some [] ∧
    ∃ v, accepts quoted (fun _ _ => true) untypedItems.schemas (some (.ref "Input")) v ∧
      declaresAll untypedItems.schemas (some (.ref "Input")) v ∧
        ¬accepts quoted (fun _ _ => true) typedItems.schemas (some (.ref "Input")) v :=
  ⟨by decide +kernel, .array [.number 5], by decide +kernel, by decide +kernel, by decide +kernel⟩

/-- An output may be longer than before. -/
def shortName : Snapshot := widgets {} { type := some .string, maxLength := some 5 }
def longName : Snapshot := widgets {} { type := some .string }

theorem output_widened : compatibilityIssues quoted 3 shortName longName = some [] ∧
    ∃ v, accepts quoted (fun _ _ => true) longName.schemas (some (.ref "Output")) v ∧
      ¬acceptsDeclared quoted (fun _ _ => true) shortName.schemas (some (.ref "Output")) v :=
  ⟨by decide +kernel, .string "widget", by decide +kernel, by decide +kernel⟩

end Tonatiuh.OpenApi
