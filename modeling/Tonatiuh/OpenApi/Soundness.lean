import Tonatiuh.OpenApi.Compatibility

/-! What it means that there are no issues: the current contract accepts the input that the baseline
accepts, and the baseline the output of the current one, if nothing has changed that the check does
not look at. -/

namespace Tonatiuh.OpenApi

variable {stringify : Json → String} {test : String → String → Bool} {α β : Type}
  {old new : Keywords Schema} {path : String} {v : Json} {mode : Mode} {oldRoot newRoot : Schemas}
  {oldValue newValue : Option Schema} {fuel : Nat}

/-! ## Issues -/

namespace Issues

@[simp] theorem append_eq_nil {a b : Issues} : a ++ b = some [] ↔ a = some [] ∧ b = some [] := by
  change append a b = some [] ↔ _
  cases a with
  | none => simp [append]
  | some a => cases b <;> simp [append]

theorem collect_eq_nil {f : α → Issues} {l : List α} :
    collect f l = some [] ↔ ∀ a ∈ l, f a = some [] := by
  induction l with
  | nil => simp [collect]
  | cons a l ih =>
    rw [collect, List.forall_mem_cons, ← ih]
    cases f a with
    | none => simp
    | some issues => cases collect f l <;> simp

end Issues

@[simp] theorem issueIf_eq_nil {condition : Bool} {issue : String} :
    issueIf condition issue = [] ↔ condition = false := by
  cases condition <;> simp [issueIf]

/-! ## What the check does not look at -/

/-- The value of one of these types is accepted. -/
def Keywords.mayBe (k : Keywords α) (types : List SchemaType) : Bool := k.type.all (· ∈ types)

/-- Each value below the new bound is below the old one, and likewise for lower bounds. -/
def loosens [LE α] [DecidableLE α] (minimum maximum minimum' maximum' : Option α) : Bool :=
  minimum.all (fun bound => minimum'.any (bound ≤ ·)) &&
    maximum.all fun bound => maximum'.any (· ≤ bound)

/-- Of an input, the check does not see that
- a `type` is given where there was none but `properties`,
- properties are required where there is neither `type` nor `properties`,
- a declared property of an object is missing that has an inherited name, where no other ones are
  allowed. -/
def coversInput (old new : Keywords Schema) : Bool :=
  (new.type.isNone || old.type.isSome) &&
    (old.kind.isSome || new.required.all (· ∈ old.required)) &&
    (old.kind ≠ some .object || new.additionalProperties ||
      old.declared.all fun entry => (new.property? entry.1).isSome)

/-- Of an output, the check does not see that
- a `type` is left out where there are `properties`,
- properties are not required any more where there is neither `type` nor `properties`,
- the bounds or the `pattern` have become weaker. -/
def coversOutput (old new : Keywords Schema) : Bool :=
  (old.type.isNone || new.type.isSome) &&
    (old.kind.isSome || old.required.all (· ∈ new.required)) &&
    (!new.mayBe [.string] || loosens old.minLength old.maxLength new.minLength new.maxLength &&
      (old.pattern.all (· = "") || old.pattern = new.pattern)) &&
    (!new.mayBe [.number, .integer] || loosens old.minimum old.maximum new.minimum new.maximum)

def Mode.covers (mode : Mode) (old new : Keywords Schema) : Bool :=
  match mode with
  | .input => coversInput old new
  | .output => coversOutput old new

/-- The schema whose values are accepted by the other one has no `type` but may be one of arrays,
while the other one has `items`. The check compares these only where the `type` is `array`. -/
def Mode.missesItems (mode : Mode) (old new : Keywords Schema) : Bool :=
  match mode with
  | .input => old.type.isNone && new.items.isSome
  | .output => new.type.isNone && old.items.isSome

/-- Wherever the check compares two schemas, it sees all that matters, and of an input it does not
see a schema where there was none. It would find no issue of the `items` that it does not
compare. -/
def isCovered (stringify : Json → String) (oldRoot newRoot : Schemas) (mode : Mode) :
    (fuel : Nat) → (oldValue newValue : Option Schema) → Bool
  | 0, _, _ => true
  | fuel + 1, oldValue, newValue =>
    match resolvedSchema oldRoot oldValue, resolvedSchema newRoot newValue with
    | _, none => true
    | none, some _ => mode = .output
    | some old, some new =>
      mode.covers old new &&
        (!mode.missesItems old new ||
          compareSchema stringify oldRoot newRoot mode fuel old.items new.items "[]" = some [] &&
            isCovered stringify oldRoot newRoot mode fuel old.items new.items) &&
        match old.kind with
        | some .array => isCovered stringify oldRoot newRoot mode fuel old.items new.items
        | some .object => old.declared.all fun (name, schema) =>
          (get (.keywords {}) new.declared name).all fun next =>
            isCovered stringify oldRoot newRoot mode fuel (some schema) (some next)
        | _ => true

/-! ## Keywords -/

theorem within_iff [LE α] [DecidableLE α] {minimum maximum : Option α} {a : α} :
    within minimum maximum a ↔ (∀ bound ∈ minimum, bound ≤ a) ∧ ∀ bound ∈ maximum, a ≤ bound := by
  simp only [within, Bool.and_eq_true, Option.all_eq_true, decide_eq_true_eq, Option.mem_def]

theorem le_of_not_increased [LinearOrder α] {minimum minimum' : Option α} {a : α}
    (h : isIncreased minimum minimum' = false) (ha : ∀ bound ∈ minimum, bound ≤ a) :
    ∀ bound ∈ minimum', bound ≤ a := by
  rintro bound' rfl
  cases minimum with
  | none => simp [isIncreased] at h
  | some bound =>
    simp only [isIncreased, Option.any_some, Option.all_some, decide_eq_false_iff_not, not_lt] at h
    exact h.trans (ha bound rfl)

theorem le_of_not_decreased [LinearOrder α] {maximum maximum' : Option α} {a : α}
    (h : isDecreased maximum maximum' = false) (ha : ∀ bound ∈ maximum, a ≤ bound) :
    ∀ bound ∈ maximum', a ≤ bound := by
  rintro bound' rfl
  cases maximum with
  | none => simp [isDecreased] at h
  | some bound =>
    simp only [isDecreased, Option.any_some, Option.all_some, decide_eq_false_iff_not, not_lt] at h
    exact (ha bound rfl).trans h

theorem within_of_loosens [Preorder α] [DecidableLE α]
    {minimum maximum minimum' maximum' : Option α} {a : α}
    (h : loosens minimum maximum minimum' maximum') (ha : within minimum' maximum' a) :
    within minimum maximum a := by
  rw [within_iff] at ha ⊢
  simp only [loosens, Bool.and_eq_true, Option.all_eq_true, Option.any_eq_true,
    decide_eq_true_eq] at h
  refine ⟨fun bound hbound => ?_, fun bound hbound => ?_⟩
  · obtain ⟨bound', hbound', hle⟩ := h.1 bound hbound
    exact hle.trans (ha.1 bound' hbound')
  · obtain ⟨bound', hbound', hle⟩ := h.2 bound hbound
    exact (ha.2 bound' hbound').trans hle

namespace Keywords

theorem enumerates_iff {k : Keywords Schema} :
    k.enumerates stringify v ↔ ∀ texts ∈ k.enumTexts stringify, stringify v ∈ texts := by
  cases henum : k.enum with
  | none => simp [enumerates, enumTexts, henum]
  | some values => simp [enumerates, enumTexts, henum]

theorem enumerates_input (h : enumIssues stringify .input old new path = [])
    (hv : old.enumerates stringify v) : new.enumerates stringify v := by
  rw [enumerates_iff] at hv ⊢
  intro newEnum hnew
  rw [Option.mem_def] at hnew
  cases hold : old.enumTexts stringify with
  | none =>
    simp only [enumIssues, hold, hnew] at h
    cases h
  | some oldEnum =>
    simp only [enumIssues, hold, hnew, List.map_eq_nil_iff, List.filter_eq_nil_iff,
      decide_eq_true_eq, not_not] at h
    exact h _ (hv oldEnum hold)

theorem enumerates_output (h : enumIssues stringify .output old new path = [])
    (hv : new.enumerates stringify v) : old.enumerates stringify v := by
  rw [enumerates_iff] at hv ⊢
  intro oldEnum hold
  rw [Option.mem_def] at hold
  cases hnew : new.enumTexts stringify with
  | none =>
    simp only [enumIssues, hold, hnew] at h
    cases h
  | some newEnum =>
    simp only [enumIssues, hold, hnew, List.map_eq_nil_iff, List.filter_eq_nil_iff,
      decide_eq_true_eq, not_not] at h
    exact h _ (hv newEnum hnew)

theorem kind_eq_type {k : Keywords Schema} {type : SchemaType} (h : k.type = some type) :
    k.kind = some type := by
  rw [kind, h, Option.some_or]

theorem mayBe_of_admits {k : Keywords Schema} {types : List SchemaType} (h : k.admits v)
    (hv : v ≠ .null)
    (htypes : ∀ type : SchemaType, type.admits v → type ∈ types) : k.mayBe types := by
  rw [mayBe, Option.all_eq_true]
  intro type htype
  rw [admits, htype, Option.all_some] at h
  refine decide_eq_true (htypes type ?_)
  cases v with
  | null => exact absurd rfl hv
  | _ => exact h

theorem mayBe_string {k : Keywords Schema} {s : String} (h : k.admits (.string s)) :
    k.mayBe [.string] := by
  refine mayBe_of_admits h nofun fun type htype => ?_
  cases type with
  | string => exact List.mem_singleton_self _
  | _ => cases htype

theorem mayBe_number {k : Keywords Schema} {n : Rat} (h : k.admits (.number n)) :
    k.mayBe [.number, .integer] := by
  refine mayBe_of_admits h nofun fun type htype => ?_
  cases type with
  | number | integer => simp
  | _ => cases htype

theorem mayBe_array {k : Keywords Schema} {items : List Json} (h : k.admits (.array items)) :
    k.mayBe [.array] := by
  refine mayBe_of_admits h nofun fun type htype => ?_
  cases type with
  | array => exact List.mem_singleton_self _
  | _ => cases htype

theorem mayBe_object {k : Keywords Schema} {entries : List (String × Json)}
    (h : k.admits (.object entries)) :
    k.mayBe [.object] := by
  refine mayBe_of_admits h nofun fun type htype => ?_
  cases type with
  | object => exact List.mem_singleton_self _
  | _ => cases htype

/-- A schema that accepts values of a type, but is not compared as one of this type, has none. -/
theorem type_eq_none {k : Keywords Schema} {type : SchemaType} (h : k.mayBe [type])
    (hkind : k.kind ≠ some type) :
    k.type = none := by
  cases htype : k.type with
  | none => rfl
  | some type' =>
    rw [mayBe, htype, Option.all_some, decide_eq_true_eq, List.mem_singleton] at h
    exact absurd (h ▸ kind_eq_type htype) hkind

theorem kind_eq_none {k : Keywords Schema} {entries : List (String × Json)}
    (h : k.admits (.object entries)) (hkind : k.kind ≠ some .object) : k.kind = none := by
  have htype := type_eq_none (mayBe_object h) hkind
  cases hproperties : k.properties with
  | none => simp [kind, htype, hproperties]
  | some properties => exact absurd (by simp [kind, htype, hproperties]) hkind

/-- Properties that are declared make the schema one of an object. -/
theorem property?_eq_none {k : Keywords Schema} {name : String} (h : k.kind = none) :
    k.property? name = none := by
  cases hproperties : k.properties with
  | none => rw [property?, declared, hproperties, Option.getD_none, List.lookup_nil]
  | some properties => simp [kind, hproperties] at h

theorem admits_of_type {k k' : Keywords Schema} (htype : k.type = k'.type)
    (hnullable : k.nullable → k'.nullable) (h : k.admits v) : k'.admits v := by
  rw [admits] at h ⊢
  rw [htype] at h
  cases hk' : k'.type with
  | none => rfl
  | some type =>
    rw [hk'] at h
    cases v with
    | null => exact hnullable h
    | _ => exact h

/-- If the one has a type when the other has, then the types are equal where the kinds are. -/
theorem type_eq {k k' : Keywords Schema} (hkind : k.kind = k'.kind)
    (htype : k'.type.isSome → k.type.isSome) (hsome : k'.type.isSome) : k.type = k'.type := by
  obtain ⟨type, hk⟩ := Option.isSome_iff_exists.mp (htype hsome)
  obtain ⟨type', hk'⟩ := Option.isSome_iff_exists.mp hsome
  rw [kind_eq_type hk, kind_eq_type hk'] at hkind
  rw [hk, hk', hkind]

theorem admits_of_kind {k k' : Keywords Schema} (hkind : k.kind = k'.kind)
    (htype : k'.type.isSome → k.type.isSome) (hnullable : k.nullable → k'.nullable)
    (h : k.admits v) :
    k'.admits v := by
  by_cases hsome : k'.type.isSome
  · exact admits_of_type (type_eq hkind htype hsome) hnullable h
  · rw [admits, Option.not_isSome_iff_eq_none.mp hsome]
    rfl

/-- The bounds and the pattern of an input. -/
theorem value_input (test : String → String → Bool) (h : valueIssues .input old new path = []) :
    (old.nullable → new.nullable) ∧
      (∀ s : String, within old.minLength old.maxLength s.length →
        within new.minLength new.maxLength s.length) ∧
      (∀ n, within old.minimum old.maximum n → within new.minimum new.maximum n) ∧
      ∀ s, old.matchesPattern test s → new.matchesPattern test s := by
  simp only [valueIssues, List.append_eq_nil_iff, issueIf_eq_nil] at h
  obtain ⟨⟨⟨⟨⟨hnullable, hminLength⟩, hmaxLength⟩, hminimum⟩, hmaximum⟩, hpattern⟩ := h
  refine ⟨fun hold => by simpa [hold] using hnullable, fun s hs => ?_, fun n hn => ?_,
    fun s hs => ?_⟩
  · rw [within_iff] at hs ⊢
    exact ⟨le_of_not_increased hminLength hs.1, le_of_not_decreased hmaxLength hs.2⟩
  · rw [within_iff] at hn ⊢
    exact ⟨le_of_not_increased hminimum hn.1, le_of_not_decreased hmaximum hn.2⟩
  · rw [Bool.and_eq_false_iff] at hpattern
    rcases hpattern with hempty | hsame
    · rw [Option.any_eq_false] at hempty
      refine Option.all_eq_true _ _ |>.mpr fun pattern hp => ?_
      rw [decide_eq_true (not_not.mp (of_decide_eq_false (hempty pattern hp))), Bool.true_or]
    · rw [decide_eq_false_iff_not, not_not] at hsame
      rwa [matchesPattern, hsame]

theorem allows_object_iff {k : Keywords Schema} {ignored : Bool} {entries : List (String × Json)} :
    k.allows stringify test ignored (.object entries) ↔
      (k.admits (.object entries) ∧ k.enumerates stringify (.object entries)) ∧
        (∀ name ∈ k.required, (entries.lookup name).isSome) ∧
          (ignored ∨ k.additionalProperties ∨ k.declares (.object entries)) := by
  simp only [allows, declares, Bool.and_eq_true, Bool.or_eq_true, List.all_eq_true, or_assoc]

theorem required_of_issues {keep before : List String} {f : String → String}
    (h : (keep.eraseDups.filter (· ∉ before)).map f = []) : ∀ name ∈ keep, name ∈ before := by
  intro name hname
  rw [List.map_eq_nil_iff, List.filter_eq_nil_iff] at h
  have hbefore := h name (List.mem_eraseDups.mpr hname)
  rwa [decide_eq_true_eq, not_not] at hbefore

theorem object_input {entries : List (String × Json)} (hcovers : coversInput old new)
    (hobject : old.kind = some .object → objectIssues .input old new path = [])
    (hv : old.allows stringify test false (.object entries)) (hd : old.declares (.object entries)) :
    (∀ name ∈ new.required, (entries.lookup name).isSome) ∧
      (new.additionalProperties ∨ new.declares (.object entries)) := by
  simp only [coversInput, Bool.and_eq_true, Bool.or_eq_true, List.all_eq_true,
    decide_eq_true_eq] at hcovers
  obtain ⟨⟨-, hrequired⟩, hdeclared⟩ := hcovers
  obtain ⟨⟨hadmits, -⟩, hkeys, -⟩ := allows_object_iff.mp hv
  simp only [declares, List.all_eq_true] at hd
  constructor
  · by_cases hkind : old.kind = some .object
    · have hissues := (List.append_eq_nil_iff.mp (hobject hkind)).1
      exact fun name hname => hkeys name (required_of_issues hissues name hname)
    · have hnone := kind_eq_none hadmits hkind
      rw [hnone] at hrequired
      exact fun name hname => hkeys name (hrequired.resolve_left nofun name hname)
  · rw [or_assoc] at hdeclared
    rcases hdeclared with hkind | hadditional | hall
    · right
      simp only [declares, List.all_eq_true]
      intro entry hentry
      have hdeclared := hd entry hentry
      rw [property?_eq_none (kind_eq_none hadmits hkind)] at hdeclared
      cases hdeclared
    · exact .inl hadditional
    · right
      simp only [declares, List.all_eq_true]
      intro entry hentry
      obtain ⟨schema, hschema⟩ := Option.isSome_iff_exists.mp (hd entry hentry)
      exact hall (entry.1, schema) (Tables.mem_of_lookup hschema)

theorem object_output {entries : List (String × Json)} (hkind : old.kind = new.kind)
    (hcovers : coversOutput old new)
    (hobject : old.kind = some .object → objectIssues .output old new path = [])
    (hv : new.allows stringify test false (.object entries)) :
    ∀ name ∈ old.required, (entries.lookup name).isSome := by
  simp only [coversOutput, Bool.and_eq_true, Bool.or_eq_true, List.all_eq_true,
    decide_eq_true_eq] at hcovers
  have hrequired := hcovers.1.1.2
  obtain ⟨⟨hadmits, -⟩, hkeys, -⟩ := allows_object_iff.mp hv
  by_cases hobj : old.kind = some .object
  · have hissues := (List.append_eq_nil_iff.mp (hobject hobj)).1
    exact fun name hname => hkeys name (required_of_issues hissues name hname)
  · have hnone := kind_eq_none hadmits (hkind ▸ hobj)
    rw [hkind, hnone] at hrequired
    exact fun name hname => hkeys name (hrequired.resolve_left nofun name hname)

theorem allows_input (hkind : old.kind = new.kind) (hcovers : coversInput old new)
    (henum : enumIssues stringify .input old new path = [])
    (hvalue : valueIssues .input old new path = [])
    (hobject : old.kind = some .object → objectIssues .input old new path = [])
    (hv : old.allows stringify test false v) (hd : old.declares v) :
    new.allows stringify test false v := by
  obtain ⟨hnullable, hlength, hnumber, hpattern⟩ := value_input test hvalue
  have hboth : new.admits v ∧ new.enumerates stringify v := by
    simp only [allows, Bool.and_eq_true] at hv
    refine ⟨admits_of_kind hkind (fun hsome => ?_) hnullable hv.1.1, enumerates_input henum hv.1.2⟩
    simp only [coversInput, Bool.and_eq_true, Bool.or_eq_true, Option.isNone_iff_eq_none] at hcovers
    refine hcovers.1.1.resolve_left fun hnone => ?_
    rw [hnone] at hsome
    cases hsome
  cases v with
  | object entries =>
    obtain ⟨hrequired, hadditional⟩ := object_input hcovers hobject hv hd
    exact allows_object_iff.mpr ⟨hboth, hrequired, .inr hadditional⟩
  | string s =>
    simp only [allows, Bool.and_eq_true] at hv ⊢
    exact ⟨hboth, hlength s hv.2.1, hpattern s hv.2.2⟩
  | number n =>
    simp only [allows, Bool.and_eq_true] at hv ⊢
    exact ⟨hboth, hnumber n hv.2⟩
  | _ =>
    simp only [allows, Bool.and_eq_true]
    exact ⟨hboth, trivial⟩

theorem allows_output (hkind : old.kind = new.kind) (hcovers : coversOutput old new)
    (henum : enumIssues stringify .output old new path = [])
    (hvalue : valueIssues .output old new path = [])
    (hobject : old.kind = some .object → objectIssues .output old new path = [])
    (hv : new.allows stringify test false v) : old.allows stringify test true v := by
  have hboth : new.admits v ∧ new.enumerates stringify v := by
    simp only [allows, Bool.and_eq_true] at hv
    exact hv.1
  have hcovers' := hcovers
  simp only [coversOutput, Bool.and_eq_true, Bool.or_eq_true, Option.isNone_iff_eq_none,
    Bool.not_eq_true', decide_eq_true_eq] at hcovers'
  obtain ⟨⟨⟨htype, -⟩, hstring⟩, hnumber⟩ := hcovers'
  have hboth' : old.admits v ∧ old.enumerates stringify v := by
    refine ⟨admits_of_kind hkind.symm (fun hsome => ?_) (fun hnew => ?_) hboth.1,
      enumerates_output henum hboth.2⟩
    · refine htype.resolve_left fun hnone => ?_
      rw [hnone] at hsome
      cases hsome
    · simpa [valueIssues, hnew] using hvalue
  cases v with
  | object entries =>
    exact allows_object_iff.mpr ⟨hboth', object_output hkind hcovers hobject hv, .inl rfl⟩
  | string s =>
    simp only [allows, Bool.and_eq_true] at hv ⊢
    obtain ⟨hloosens, hpattern⟩ := hstring.resolve_left (by simp [mayBe_string hboth.1])
    refine ⟨hboth', within_of_loosens hloosens hv.2.1, ?_⟩
    rcases hpattern with hempty | hsame
    · rw [matchesPattern, Option.all_eq_true]
      intro pattern hp
      rw [Option.all_eq_true] at hempty
      rw [hempty pattern hp, Bool.true_or]
    · rw [matchesPattern, hsame]
      exact hv.2.2
  | number n =>
    simp only [allows, Bool.and_eq_true] at hv ⊢
    exact ⟨hboth', within_of_loosens (hnumber.resolve_left (by simp [mayBe_number hboth.1])) hv.2⟩
  | _ =>
    simp only [allows, Bool.and_eq_true]
    exact ⟨hboth', trivial⟩

end Keywords

/-! ## Schemas -/

/-- What has been compared when there are no issues. -/
structure Compared (stringify : Json → String) (oldRoot newRoot : Schemas) (mode : Mode)
    (fuel : Nat) (old new : Keywords Schema) (path : String) : Prop where
  kind : old.kind = new.kind
  enum : enumIssues stringify mode old new path = []
  value : valueIssues mode old new path = []
  items : old.kind = some .array →
    compareSchema stringify oldRoot newRoot mode fuel old.items new.items s!"{path}[]" = some []
  properties : old.kind = some .object → ∀ entry ∈ old.declared, ∃ next,
    get (.keywords {}) new.declared entry.1 = some next ∧
      compareSchema stringify oldRoot newRoot mode fuel (some entry.2)
        (some next) s!"{path}.{entry.1}" = some []
  object : old.kind = some .object → objectIssues mode old new path = []

theorem compareSchema_removed (hold : resolvedSchema oldRoot oldValue = some old)
    (hnew : resolvedSchema newRoot newValue = none) :
    compareSchema stringify oldRoot newRoot mode fuel oldValue newValue path ≠ some [] := by
  cases fuel with
  | zero => nofun
  | succ fuel =>
    rw [compareSchema, hold, hnew]
    nofun

theorem compareSchema_eq_nil (hold : resolvedSchema oldRoot oldValue = some old)
    (hnew : resolvedSchema newRoot newValue = some new)
    (h : compareSchema stringify oldRoot newRoot mode (fuel + 1) oldValue newValue path = some []) :
    Compared stringify oldRoot newRoot mode fuel old new path := by
  simp only [compareSchema, hold, hnew] at h
  split at h
  next => cases h
  next hkind =>
    have hkind := not_not.mp hkind
    split at h
    next harray =>
      obtain ⟨hissues, hitems⟩ := Issues.append_eq_nil.mp h
      obtain ⟨henum, hvalue⟩ := List.append_eq_nil_iff.mp (Option.some.inj hissues)
      refine ⟨hkind, henum, hvalue, fun _ => hitems, fun hobject => ?_, fun hobject => ?_⟩
      all_goals
        rw [harray] at hobject
        cases hobject
    next hobject =>
      obtain ⟨hissues, hproperties, hkeys⟩ := by
        simpa only [Issues.append_eq_nil, and_assoc] using h
      obtain ⟨henum, hvalue⟩ := List.append_eq_nil_iff.mp (Option.some.inj hissues)
      refine ⟨hkind, henum, hvalue, fun harray => ?_, fun _ entry hentry => ?_,
        fun _ => Option.some.inj hkeys⟩
      · rw [hobject] at harray
        cases harray
      · have hentry := Issues.collect_eq_nil.mp hproperties entry hentry
        split at hentry
        next => cases hentry
        next next hnext => exact ⟨next, hnext, hentry⟩
    next harray hobject =>
      obtain ⟨henum, hvalue⟩ := List.append_eq_nil_iff.mp (Option.some.inj h)
      exact ⟨hkind, henum, hvalue, fun h => absurd h harray, fun h => absurd h hobject,
        fun h => absurd h hobject⟩

theorem isCovered_succ (hold : resolvedSchema oldRoot oldValue = some old)
    (hnew : resolvedSchema newRoot newValue = some new)
    (h : isCovered stringify oldRoot newRoot mode (fuel + 1) oldValue newValue) :
    mode.covers old new ∧
      (mode.missesItems old new →
        compareSchema stringify oldRoot newRoot mode fuel old.items new.items "[]" = some [] ∧
          isCovered stringify oldRoot newRoot mode fuel old.items new.items) ∧
      (old.kind = some .array →
        isCovered stringify oldRoot newRoot mode fuel old.items new.items) ∧
      (old.kind = some .object → ∀ entry ∈ old.declared, ∀ next,
        get (.keywords {}) new.declared entry.1 = some next →
          isCovered stringify oldRoot newRoot mode fuel (some entry.2) (some next)) := by
  simp only [isCovered, hold, hnew, Bool.and_eq_true, Bool.or_eq_true, Bool.not_eq_true',
    decide_eq_true_eq] at h
  obtain ⟨⟨hcovers, hitems⟩, hparts⟩ := h
  refine ⟨hcovers, fun hmisses => hitems.resolve_left (by simp [hmisses]), fun harray => ?_,
    fun hobject entry hentry next hnext => ?_⟩
  · simpa only [harray] using hparts
  · simp only [hobject, List.all_eq_true] at hparts
    have hentry := hparts entry hentry
    simpa only [hnext, Option.all_some] using hentry

/-- What is not declared is found only where it is inherited. -/
theorem get_cases {empty a : α} {entries : List (String × α)} {name : String}
    (h : get empty entries name = some a) :
    entries.lookup name = some a ∨ entries.lookup name = none ∧ a = empty := by
  rw [get] at h
  cases hlookup : entries.lookup name with
  | some b => exact .inl (by simpa [hlookup] using h)
  | none =>
    rw [hlookup, Option.none_or] at h
    split at h
    · exact .inr ⟨rfl, (Option.some.inj h).symm⟩
    · cases h

theorem accepts_empty (schemas : Schemas) (v : Json) :
    accepts stringify test schemas (some (.keywords {})) v := by
  refine (meets_iff (resolvedSchema_keywords schemas {})).mpr ⟨?_, ?_⟩
  · cases v <;> rfl
  · cases v with
    | array items => exact fun v _ => meets_of_none (resolvedSchema_none schemas)
    | object entries => exact fun entry _ => meets_of_none (resolvedSchema_none schemas)
    | _ => trivial

theorem Keywords.admits_of_allows {k : Keywords Schema} {ignored : Bool}
    (h : k.allows stringify test ignored v) :
    k.admits v := by
  simp only [allows, Bool.and_eq_true] at h
  exact h.1.1

/-- What the baseline accepts and declares, the current schema accepts. -/
theorem input_accepted
    (h : compareSchema stringify oldRoot newRoot .input fuel oldValue newValue path = some [])
    (hc : isCovered stringify oldRoot newRoot .input fuel oldValue newValue)
    (hv : accepts stringify test oldRoot oldValue v) (hd : declaresAll oldRoot oldValue v) :
    accepts stringify test newRoot newValue v := by
  induction fuel generalizing oldValue newValue path v with
  | zero => cases h
  | succ fuel ih =>
    cases hnew : resolvedSchema newRoot newValue with
    | none => exact meets_of_none hnew
    | some new =>
      cases hold : resolvedSchema oldRoot oldValue with
      | none =>
        simp only [isCovered, hold, hnew] at hc
        cases hc
      | some old =>
        have hcompared := compareSchema_eq_nil hold hnew h
        obtain ⟨hcovers, hmissed, hitems, hproperties⟩ := isCovered_succ hold hnew hc
        obtain ⟨hv, hvparts⟩ := (meets_iff hold).mp hv
        obtain ⟨hd, hdparts⟩ := (meets_iff hold).mp hd
        have hallows :=
          Keywords.allows_input hcompared.kind hcovers hcompared.enum hcompared.value
            hcompared.object
          hv hd
        refine (meets_iff hnew).mpr ⟨hallows, ?_⟩
        have hadmits := Keywords.admits_of_allows hv
        cases v with
        | array items =>
          intro w hw
          by_cases harray : old.kind = some .array
          · exact ih (hcompared.items harray) (hitems harray) (hvparts w hw) (hdparts w hw)
          · have htype := Keywords.type_eq_none (Keywords.mayBe_array hadmits) harray
            cases hnext : new.items with
            | none => exact meets_of_none (resolvedSchema_none newRoot)
            | some next =>
              have hmissed := hmissed (by simp [Mode.missesItems, htype, hnext])
              rw [hnext] at hmissed
              exact ih hmissed.1 hmissed.2 (hvparts w hw) (hdparts w hw)
        | object entries =>
          intro entry hentry
          cases hnext : new.property? entry.1 with
          | none => exact meets_of_none (resolvedSchema_none newRoot)
          | some next =>
            have hdeclared := List.all_eq_true.mp hd entry hentry
            obtain ⟨schema, hschema⟩ := Option.isSome_iff_exists.mp hdeclared
            by_cases hobject : old.kind = some .object
            · have hmem := Tables.mem_of_lookup hschema
              obtain ⟨next', hget, hcompare⟩ := hcompared.properties hobject _ hmem
              rcases get_cases hget with hlookup | ⟨hlookup, -⟩
              · obtain rfl := Option.some.inj (hnext.symm.trans hlookup)
                have hvpart := hvparts entry hentry
                have hdpart := hdparts entry hentry
                rw [hschema] at hvpart hdpart
                exact ih hcompare (hproperties hobject _ hmem _ hget) hvpart hdpart
              · exact absurd (hnext.symm.trans hlookup) nofun
            · rw [Keywords.property?_eq_none (Keywords.kind_eq_none hadmits hobject)] at hschema
              cases hschema
        | _ => trivial

/-- What the current schema accepts, the baseline accepts, apart from what it does not declare. -/
theorem output_accepted
    (h : compareSchema stringify oldRoot newRoot .output fuel oldValue newValue path = some [])
    (hc : isCovered stringify oldRoot newRoot .output fuel oldValue newValue)
    (hv : accepts stringify test newRoot newValue v) :
    acceptsDeclared stringify test oldRoot oldValue v := by
  induction fuel generalizing oldValue newValue path v with
  | zero => cases h
  | succ fuel ih =>
    cases hold : resolvedSchema oldRoot oldValue with
    | none => exact meets_of_none hold
    | some old =>
      cases hnew : resolvedSchema newRoot newValue with
      | none => exact absurd h (compareSchema_removed hold hnew)
      | some new =>
        have hcompared := compareSchema_eq_nil hold hnew h
        obtain ⟨hcovers, hmissed, hitems, hproperties⟩ := isCovered_succ hold hnew hc
        obtain ⟨hv, hvparts⟩ := (meets_iff hnew).mp hv
        have hallows := Keywords.allows_output hcompared.kind hcovers hcompared.enum hcompared.value
          hcompared.object hv
        refine (meets_iff hold).mpr ⟨hallows, ?_⟩
        have hadmits := Keywords.admits_of_allows hv
        cases v with
        | array items =>
          intro w hw
          by_cases harray : old.kind = some .array
          · exact ih (hcompared.items harray) (hitems harray) (hvparts w hw)
          · have htype :=
              Keywords.type_eq_none (Keywords.mayBe_array hadmits) (hcompared.kind ▸ harray)
            cases hitem : old.items with
            | none => exact meets_of_none (resolvedSchema_none oldRoot)
            | some item =>
              have hmissed := hmissed (by simp [Mode.missesItems, htype, hitem])
              rw [hitem] at hmissed
              exact ih hmissed.1 hmissed.2 (hvparts w hw)
        | object entries =>
          intro entry hentry
          cases hschema : old.property? entry.1 with
          | none => exact meets_of_none (resolvedSchema_none oldRoot)
          | some schema =>
            by_cases hobject : old.kind = some .object
            · have hmem := Tables.mem_of_lookup hschema
              obtain ⟨next, hget, hcompare⟩ := hcompared.properties hobject _ hmem
              refine ih hcompare (hproperties hobject _ hmem _ hget) ?_
              rcases get_cases hget with hlookup | ⟨-, rfl⟩
              · have hvpart := hvparts entry hentry
                rwa [Keywords.property?, hlookup] at hvpart
              · exact accepts_empty newRoot entry.2
            · have hnone := Keywords.kind_eq_none hadmits (hcompared.kind ▸ hobject)
              rw [Keywords.property?_eq_none (hcompared.kind.trans hnone)] at hschema
              cases hschema
        | _ => trivial

end Tonatiuh.OpenApi
