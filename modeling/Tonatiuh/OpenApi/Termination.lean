import Mathlib.Data.Set.Finite.Lattice
import Mathlib.Data.Set.Finite.List
import Tonatiuh.OpenApi.Soundness
import Tonatiuh.Transition.Walks

/-! When the check of contracts has a result.

`compareSchema` follows the items and the properties that both schemas have. It has a result where
no comparison leads back to itself. -/

namespace Tonatiuh.OpenApi

open Relation Tables Transition

namespace Issues

theorem isSome_append {a b : Issues} : (a ++ b).isSome ↔ a.isSome ∧ b.isSome := by
  change (append a b).isSome ↔ _
  cases a with
  | none => simp [append]
  | some a => cases b <;> simp [append]

theorem isSome_collect {α : Type} {f : α → Issues} {l : List α} :
    (collect f l).isSome ↔ ∀ a ∈ l, (f a).isSome := by
  induction l with
  | nil => simp [collect]
  | cons a l ih =>
    rw [List.forall_mem_cons, ← ih, collect]
    cases f a <;> simp

/-- Each element is answered by what it is compared with, if there is something. -/
theorem isSome_collect_filterMap {α β : Type} {f : α → Issues} {g : α → Option β} {P : β → Prop}
    {l : List α}
    (h : ∀ a, (f a).isSome ↔ ∀ b ∈ g a, P b) : (collect f l).isSome ↔ ∀ b ∈ l.filterMap g, P b := by
  rw [isSome_collect]
  constructor
  · intro hall b hb
    obtain ⟨a, ha, hab⟩ := List.mem_filterMap.mp hb
    exact (h a).mp (hall a ha) b hab
  · intro hall a ha
    exact (h a).mpr fun b hab => hall b (List.mem_filterMap.mpr ⟨a, ha, hab⟩)

end Issues

/-- An old and a new schema. -/
abbrev Pair := Option Schema × Option Schema

section
variable (oldRoot newRoot : Schemas)

/-- What `compareSchema` compares in turn. -/
def comparedParts (pair : Pair) : List Pair :=
  match resolvedSchema oldRoot pair.1, resolvedSchema newRoot pair.2 with
  | some old, some new =>
    if old.kind ≠ new.kind then []
    else
      match old.kind with
      | some .array => [(old.items, new.items)]
      | some .object => old.declared.filterMap fun (name, schema) =>
        (get (.keywords {}) new.declared name).map fun next => (some schema, some next)
      | _ => []
  | _, _ => []

variable {oldRoot newRoot}

theorem compareSchema_isSome (stringify : Json → String) (mode : Mode) {fuel : Nat}
    {oldValue newValue : Option Schema} {path : String} :
    (compareSchema stringify oldRoot newRoot mode fuel oldValue newValue path).isSome ↔
      EndsWithin (comparedParts oldRoot newRoot) fuel (oldValue, newValue) := by
  induction fuel generalizing oldValue newValue path with
  | zero => simp [compareSchema, EndsWithin]
  | succ fuel ih =>
    rw [EndsWithin, compareSchema, comparedParts]
    dsimp only
    cases resolvedSchema oldRoot oldValue with
    | none => cases resolvedSchema newRoot newValue <;> simp
    | some old =>
      cases resolvedSchema newRoot newValue with
      | none => simp
      | some new =>
        dsimp only
        by_cases hkind : old.kind = new.kind
        · rw [if_neg (not_not.mpr hkind), if_neg (not_not.mpr hkind)]
          clear hkind
          generalize old.kind = kind
          cases kind with
          | none => simp
          | some kind =>
            cases kind with
            | array =>
              dsimp only
              rw [Issues.isSome_append, List.forall_mem_singleton]
              exact ⟨fun h => ih.mp h.2, fun h => ⟨rfl, ih.mpr h⟩⟩
            | object =>
              dsimp only
              simp only [Issues.isSome_append, Option.isSome_some, true_and, and_true]
              refine Issues.isSome_collect_filterMap fun entry => ?_
              cases get (.keywords {}) new.declared entry.1 with
              | none => simp
              | some newSchema =>
                simp only [Option.map_some, Option.mem_some_iff, forall_eq']
                exact ih
            | _ => simp
        · rw [if_pos hkind, if_pos hkind]
          simp

end

/-! ## The schemas that are reached -/

/-- Schemas within a schema, without following references. -/
inductive IsPart : Schema → Schema → Prop where
  | refl (s : Schema) : IsPart s s
  | items {k : Keywords Schema} : k.items = some t → IsPart t u → IsPart (.keywords k) u
  | property {k : Keywords Schema} : (name, t) ∈ k.declared → IsPart t u → IsPart (.keywords k) u

theorem IsPart.trans {s t u : Schema} (hst : IsPart s t) (htu : IsPart t u) : IsPart s u := by
  induction hst with
  | refl => exact htu
  | items hitems _ ih => exact .items hitems (ih htu)
  | property hmem _ ih => exact .property hmem (ih htu)

theorem sizeOf_items_lt {k : Keywords Schema} {t : Schema} (h : k.items = some t) :
    sizeOf t < sizeOf (Schema.keywords k) := by
  cases k
  simp_all
  omega

theorem sizeOf_property_lt {k : Keywords Schema} {entry : String × Schema}
    (h : entry ∈ k.declared) :
    sizeOf entry.2 < sizeOf (Schema.keywords k) := by
  have hentry : sizeOf entry.2 < sizeOf entry := by
    cases entry
    rw [Prod.mk.sizeOf_spec]
    dsimp only
    omega
  cases k with
  | mk _ _ _ _ _ _ _ _ _ properties _ _ =>
    cases properties with
    | none => cases h
    | some l =>
      have hlist : sizeOf entry < sizeOf l := List.sizeOf_lt_of_mem h
      simp
      omega

theorem finite_isPart (s : Schema) : {t | IsPart s t}.Finite := by
  match s with
  | .ref name =>
    refine (Set.finite_singleton (.ref name)).subset fun t ht => ?_
    cases ht
    rfl
  | .keywords k =>
    have hitems : (⋃ t ∈ {t | k.items = some t}, {u | IsPart t u}).Finite := by
      refine Set.Finite.biUnion ?_ fun t ht => ?_
      · exact Set.Subsingleton.finite fun t ht u hu => Option.some.inj (ht.symm.trans hu)
      · exact finite_isPart t
    have hproperties : (⋃ entry ∈ {entry | entry ∈ k.declared}, {u | IsPart entry.2 u}).Finite := by
      refine (List.finite_toSet k.declared).biUnion fun entry hentry => ?_
      exact finite_isPart entry.2
    refine ((Set.finite_singleton (.keywords k)).union (hitems.union hproperties)).subset
      fun u hu => ?_
    cases hu with
    | refl => exact .inl rfl
    | items ht hu => exact .inr (.inl (Set.mem_biUnion ht hu))
    | property hmem hu => exact .inr (.inr (Set.mem_biUnion hmem hu))
  termination_by sizeOf s
  decreasing_by
  · exact sizeOf_items_lt ht
  · exact sizeOf_property_lt hentry

/-- A schema that references lead to is the first one, a named one or an empty one. -/
theorem followed_cases {schemas : Schemas} {count : Nat} {s : Option Schema} {k : Keywords Schema}
    (h : followed schemas count s = some k) :
    k = {} ∨ s = some (.keywords k) ∨ ∃ entry ∈ schemas, entry.2 = .keywords k := by
  induction count generalizing s with
  | zero =>
    rcases s with _ | (name | k')
    · simp [followed] at h
    · simp_all [followed]
    · simp_all [followed]
  | succ count ih =>
    rcases s with _ | (name | k')
    · simp [followed] at h
    · rw [followed] at h
      rcases ih h with hempty | hget | hnamed
      · exact .inl hempty
      · rcases get_cases hget with hlookup | ⟨-, hempty⟩
        · exact .inr (.inr ⟨_, mem_of_lookup hlookup, rfl⟩)
        · exact .inl (Schema.keywords.inj hempty)
      · exact .inr (.inr hnamed)
    · simp_all [followed]

/-- The schema is a part of the start or of a named schema, or empty. -/
def IsKnown (schemas : Schemas) (start : Option Schema) (s : Schema) : Prop :=
  s = .keywords {} ∨ (∃ r ∈ start, IsPart r s) ∨ ∃ entry ∈ schemas, IsPart entry.2 s

theorem finite_isKnown (schemas : Schemas) (start : Option Schema) :
    {s | IsKnown schemas start s}.Finite := by
  have hstart : (⋃ r ∈ {r | r ∈ start}, {s | IsPart r s}).Finite := by
    refine Set.Finite.biUnion ?_ fun r _ => finite_isPart r
    exact Set.Subsingleton.finite fun r hr s hs => Option.some.inj (hr.symm.trans hs)
  have hnamed : (⋃ entry ∈ {entry | entry ∈ schemas}, {s | IsPart entry.2 s}).Finite :=
    (List.finite_toSet schemas).biUnion fun entry _ => finite_isPart entry.2
  refine ((Set.finite_singleton (.keywords {})).union (hstart.union hnamed)).subset fun s hs => ?_
  rcases hs with hempty | ⟨r, hr, hs⟩ | ⟨entry, hmem, hs⟩
  · exact .inl hempty
  · exact .inr (.inl (Set.mem_biUnion hr hs))
  · exact .inr (.inr (Set.mem_biUnion hmem hs))

theorem isPart_empty {s : Schema} (h : IsPart (.keywords {}) s) : s = .keywords {} := by
  cases h with
  | refl => rfl
  | items ht _ => cases ht
  | property hmem _ => cases hmem

theorem IsKnown.part {schemas : Schemas} {start : Option Schema} {s t : Schema}
    (hs : IsKnown schemas start s) (ht : IsPart s t) : IsKnown schemas start t := by
  rcases hs with rfl | ⟨r, hr, hs⟩ | ⟨entry, hmem, hs⟩
  · exact .inl (isPart_empty ht)
  · exact .inr (.inl ⟨r, hr, hs.trans ht⟩)
  · exact .inr (.inr ⟨entry, hmem, hs.trans ht⟩)

theorem IsKnown.resolved {schemas : Schemas} {start s : Option Schema} {k : Keywords Schema}
    (hs : ∀ t ∈ s, IsKnown schemas start t) (h : resolvedSchema schemas s = some k) :
    IsKnown schemas start (.keywords k) := by
  rcases followed_cases h with rfl | hfirst | ⟨entry, hmem, hentry⟩
  · exact .inl rfl
  · exact hs _ hfirst
  · exact .inr (.inr ⟨entry, hmem, hentry ▸ .refl _⟩)

/-- Both schemas are known. -/
def BothKnown (oldRoot newRoot : Schemas) (start pair : Pair) : Prop :=
  (∀ s ∈ pair.1, IsKnown oldRoot start.1 s) ∧ ∀ s ∈ pair.2, IsKnown newRoot start.2 s

theorem finite_bothKnown (oldRoot newRoot : Schemas) (start : Pair) :
    {pair | BothKnown oldRoot newRoot start pair}.Finite := by
  have hoption : ∀ {schemas : Schemas} {first : Option Schema},
      {v : Option Schema | ∀ s ∈ v, IsKnown schemas first s}.Finite := by
    intro schemas first
    refine (((finite_isKnown schemas first).image some).insert none).subset fun v hv => ?_
    cases v with
    | none => exact .inl rfl
    | some s => exact .inr ⟨s, hv s rfl, rfl⟩
  exact (hoption.prod hoption).subset fun pair hpair => hpair

theorem BothKnown.step {oldRoot newRoot : Schemas} {start pair pair' : Pair}
    (h : BothKnown oldRoot newRoot start pair)
    (hstep : Leads (comparedParts oldRoot newRoot) pair pair') :
    BothKnown oldRoot newRoot start pair' := by
  unfold Leads comparedParts at hstep
  split at hstep
  next old new hold hnew =>
    have hold := IsKnown.resolved h.1 hold
    have hnew := IsKnown.resolved h.2 hnew
    split at hstep
    next => cases hstep
    next =>
      split at hstep
      next =>
        cases List.mem_singleton.mp hstep
        exact ⟨fun s hs => hold.part (.items hs (.refl s)),
          fun s hs => hnew.part (.items hs (.refl s))⟩
      next =>
        obtain ⟨entry, hmem, hsome⟩ := List.mem_filterMap.mp hstep
        obtain ⟨newSchema, hget, rfl⟩ := Option.map_eq_some_iff.mp hsome
        refine ⟨fun s hs => ?_, fun s hs => ?_⟩
        · cases hs
          exact hold.part (.property hmem (.refl _))
        · cases hs
          rcases get_cases hget with hlookup | ⟨-, rfl⟩
          · exact hnew.part (.property (mem_of_lookup hlookup) (.refl _))
          · exact .inl rfl
      next => cases hstep
  next => cases hstep

theorem finite_compared (oldRoot newRoot : Schemas) (start : Pair) :
    {pair | ReflTransGen (Leads (comparedParts oldRoot newRoot)) start pair}.Finite := by
  refine (finite_bothKnown oldRoot newRoot start).subset fun pair hpair => ?_
  induction hpair with
  | refl =>
    exact ⟨fun s hs => .inr (.inl ⟨s, hs, .refl s⟩), fun s hs => .inr (.inl ⟨s, hs, .refl s⟩)⟩
  | tail _ hstep ih => exact BothKnown.step ih hstep

/-! ## Contracts -/

/-- What `operationIssues` compares. -/
def operationPairs (oldOperation next : Operation) : List Pair :=
  (oldOperation.parameterMap.filterMap fun (key, parameter) =>
    (next.parameterMap.lookup key).map fun replacement => (parameter.schema, replacement.schema)) ++
  (((oldOperation.requestBody.bind (·.schema)).map fun schema =>
    (some schema, next.requestBody.bind (·.schema))).toList) ++
  oldOperation.responses.filterMap fun (status, schema) =>
    (get (some (.keywords {})) next.responses status).map fun nextSchema => (schema, nextSchema)

def contractPairs (baseline current : Snapshot) : List Pair :=
  baseline.operations.flatMap fun (id, oldOperation) =>
    ((current.operations.lookup id).map (operationPairs oldOperation)).getD []

section
variable (stringify : Json → String) {fuel : Nat} {baseline current : Snapshot} {id : String}
  {oldOperation next : Operation}

theorem parameterIssues_isSome {oldParameters nextParameters : List (String × Parameter)} :
    (parameterIssues stringify fuel baseline current id oldParameters nextParameters).isSome ↔
      ∀ pair ∈ (oldParameters.filterMap fun (key, parameter) =>
        (nextParameters.lookup key).map fun replacement => (parameter.schema, replacement.schema)),
        EndsWithin (comparedParts baseline.schemas current.schemas) fuel pair := by
  simp only [parameterIssues, Issues.isSome_append, Option.isSome_some, and_true]
  refine Issues.isSome_collect_filterMap fun entry => ?_
  cases nextParameters.lookup entry.1 with
  | none => simp
  | some replacement =>
    simp only [Option.map_some, Option.mem_some_iff, forall_eq']
    exact compareSchema_isSome stringify .input

theorem bodyIssues_isSome :
    (bodyIssues stringify fuel baseline current id oldOperation next).isSome ↔
    ∀ pair ∈ ((oldOperation.requestBody.bind (·.schema)).map fun schema =>
      (some schema, next.requestBody.bind (·.schema))).toList,
      EndsWithin (comparedParts baseline.schemas current.schemas) fuel pair := by
  simp only [bodyIssues, Issues.isSome_append, Option.isSome_some, true_and]
  cases oldOperation.requestBody.bind (·.schema) with
  | none => simp
  | some schema =>
    simp only [Option.map_some, Option.toList_some, List.forall_mem_singleton]
    exact compareSchema_isSome stringify .input

theorem responseIssues_isSome :
    (responseIssues stringify fuel baseline current id oldOperation next).isSome ↔
    ∀ pair ∈ (oldOperation.responses.filterMap fun (status, schema) =>
      (get (some (.keywords {})) next.responses status).map fun nextSchema => (schema, nextSchema)),
      EndsWithin (comparedParts baseline.schemas current.schemas) fuel pair := by
  refine Issues.isSome_collect_filterMap fun entry => ?_
  dsimp only
  cases get (some (.keywords {})) next.responses entry.1 with
  | none => simp
  | some nextSchema =>
    simp only [Option.map_some, Option.mem_some_iff, forall_eq']
    exact compareSchema_isSome stringify .output

theorem operationIssues_isSome :
    (operationIssues stringify fuel baseline current id oldOperation next).isSome ↔
    ∀ pair ∈ operationPairs oldOperation next,
      EndsWithin (comparedParts baseline.schemas current.schemas) fuel pair := by
  simp only [operationIssues, operationPairs, Issues.isSome_append, Option.isSome_some, true_and,
    parameterIssues_isSome, bodyIssues_isSome, responseIssues_isSome, List.forall_mem_append]

theorem compatibilityIssues_isSome : (compatibilityIssues stringify fuel baseline current).isSome ↔
    (∀ entry ∈ baseline.operations, current.operations.lookup entry.1 = none →
      entry.1 ∉ inherited) ∧
      ∀ pair ∈ contractPairs baseline current,
        EndsWithin (comparedParts baseline.schemas current.schemas) fuel pair := by
  rw [compatibilityIssues, Issues.isSome_collect]
  simp only [contractPairs, List.forall_mem_flatMap, ← forall_and]
  refine forall₂_congr fun entry _ => ?_
  cases current.operations.lookup entry.1 with
  | none =>
    dsimp only
    split <;> simp_all
  | some next => simp [operationIssues_isSome]

/-- There is a list of issues exactly if no comparison leads back to itself, and no removed
operation has the name of a property of every object. -/
theorem compatibilityIssues_returns_iff :
    (∃ fuel, (compatibilityIssues stringify fuel baseline current).isSome) ↔
    (∀ entry ∈ baseline.operations, current.operations.lookup entry.1 = none →
      entry.1 ∉ inherited) ∧
      ∀ start ∈ contractPairs baseline current, ∀ pair,
        ReflTransGen (Leads (comparedParts baseline.schemas current.schemas)) start pair →
          ¬ TransGen (Leads (comparedParts baseline.schemas current.schemas)) pair pair := by
  simp only [compatibilityIssues_isSome, exists_and_left,
    ← exists_endsWithin_iff (finite_compared _ _ _)]
  refine and_congr_right fun _ =>
    ⟨fun ⟨fuel, h⟩ start hstart => ⟨fuel, h start hstart⟩, fun h => ?_⟩
  exact exists_endsWithin_forall h

end

/-- A node is an object with a node. -/
def node : Keywords Schema where
  type := some .object
  properties := some [("child", .ref "Node")]

def getNode : Operation where
  method := "get"
  path := "/nodes"
  parameters := []
  requestBody := none
  responses := [("200", some (.ref "Node"))]

def nodes : Snapshot where
  operations := [("getNode", getNode)]
  schemas := [("Node", .keywords node)]

/-- The check of a contract against itself has no result: the comparison of nodes leads to that of
nodes. -/
theorem compatibilityIssues_not_returns :
    ¬ ∃ fuel, (compatibilityIssues (fun _ => "") fuel nodes nodes).isSome := by
  let pair : Pair := (some (.ref "Node"), some (.ref "Node"))
  have hloop : comparedParts nodes.schemas nodes.schemas pair = [pair] := rfl
  have hends : ∀ n, ¬ EndsWithin (comparedParts nodes.schemas nodes.schemas) n pair := by
    intro n h
    refine not_transGen_self_of_acc (exists_endsWithin_iff_acc.mp ⟨n, h⟩) (.single ?_)
    rw [Leads, hloop]
    exact List.mem_singleton_self pair
  rintro ⟨fuel, h⟩
  exact hends fuel ((compatibilityIssues_isSome _).mp h |>.2 pair (List.mem_singleton_self pair))

end Tonatiuh.OpenApi
