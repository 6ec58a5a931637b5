import Tonatiuh.Config.Repository

/-! What a worker reads back after `syncRuntimeConfig`.

The first configuration is inserted, every later one updates that row. A credential is written
by `updateConfig` only if it is not empty, and an empty one written by `createConfig` is a text
that `decrypt` refuses. So the credentials come back exactly if the first configuration and the
last one leave none of them empty. `balance_distribution` is written and never selected. -/

namespace Tonatiuh.Config

/-! ## Rows -/

/-- Booleans as the database gives them back. -/
def JsValue.encoded : JsValue → JsValue
  | .boolean b => .number (if b then 1 else 0)
  | v => v

theorem JsValue.toJs_bind {v : JsValue} (h : v ≠ .undefined) : v.bind.toJs = v.encoded := by
  cases v with
  | undefined => exact absurd rfl h
  | _ => rfl

def Column.isCredential : Column → Bool
  | .api_key | .private_key | .password => true
  | _ => false

/-- The row stores the parameters of `c` and the three credentials. -/
structure Row.Holds (service : EncryptionService) (row : Row) (c : ConfigType)
    (apiKey privateKey password : String) : Prop where
  id : row .id = .number c.id
  parameter : ∀ p ∈ c.object, ∀ column, columnName p.1 = some column →
    column.isCredential = false → row column = p.2.bind
  apiKey : ∃ n, row .api_key = .text (service.encrypt n apiKey)
  privateKey : ∃ n, row .private_key = .text (service.encrypt n privateKey)
  password : ∃ n, row .password = .text (service.encrypt n password)

/-- The columns of `createConfig`'s object. -/
def createValues (service : EncryptionService) (c : ConfigType) (n : Nat) :
    List (Column × JsValue) :=
  (createObject service c n).filterMap fun p => (columnName p.1).map (·, p.2)

/-- The parameters of `updateConfig`'s object. -/
def updateParameters (c : ConfigType) : List (Column × JsValue) :=
  (c.object.without [.apiKey, .privateKey, .password, .isConfigUpdated]).filterMap fun p =>
    (columnName p.1).map (·, p.2)

def truthyValue (service : EncryptionService) (column : Column) (value : String) (n : Nat) :
    List (Column × JsValue) :=
  if value = "" then [] else [(column, .string (service.encrypt n value))]

theorem mappingValuesList_updateObject (service : EncryptionService) (c : ConfigType) (n : Nat) :
    mappingValuesList (updateObject service c n) =
      .ok (truthyValue service .api_key c.apiKey n ++
        truthyValue service .private_key c.privateKey (n + 1) ++
        truthyValue service .password c.password (n + 2) ++ updateParameters c) := by
  simp only [updateObject, encryptTruthy, truthyValue]
  split <;> split <;> split <;> rfl

theorem truthyValue_lookup_of_ne (service : EncryptionService) (value : String) (n : Nat)
    {column column' : Column} (h : column' ≠ column) :
    (truthyValue service column value n).lookup column' = none := by
  unfold truthyValue
  split
  · rfl
  · rw [List.lookup_cons, beq_eq_false_iff_ne.mpr h]
    rfl

theorem Row.assign_append (row : Row) (xs ys : List (Column × JsValue)) (column : Column) :
    row.assign (xs ++ ys) column = (row.assign ys).assign xs column := by
  simp only [Row.assign, List.lookup_append]
  cases xs.lookup column <;> rfl

theorem Row.assign_truthyValue (row : Row) (service : EncryptionService) (value : String) (n : Nat)
    (column column' : Column) :
    row.assign (truthyValue service column value n) column' =
      if column' = column ∧ value ≠ "" then .text (service.encrypt n value) else row column' := by
  by_cases hc : column' = column
  · subst hc
    by_cases hv : value = ""
    · simp [truthyValue, hv, Row.assign]
    · simp [truthyValue, hv, Row.assign, JsValue.bind]
  · simp [Row.assign, truthyValue_lookup_of_ne service value n hc, hc]

variable {service : EncryptionService}

/-- The row that `createConfig` inserts into an empty table. -/
theorem createConfig_holds (c : ConfigType) (hid : c.id = 1) (n : Nat) :
    Row.Holds service (Row.assign (fun
      | .id => .number (0 + 1 : Nat)
      | column => defaultRow column) (createValues service c n)) c
      c.apiKey c.privateKey c.password where
  id := by rw [hid]; rfl
  parameter p hp column hcolumn hcred := by
    simp only [ConfigType.object, List.mem_cons, List.not_mem_nil, or_false] at hp
    rcases hp with rfl | rfl | rfl | rfl | rfl | rfl | rfl | rfl | rfl | rfl | rfl | rfl | rfl |
      rfl | rfl | rfl | rfl | rfl | rfl | rfl | rfl | rfl | rfl | rfl | rfl | rfl <;>
      cases hcolumn
    all_goals first | (cases hcred; done) | rfl | exact congrArg Cell.number hid.symm
  apiKey := ⟨n, rfl⟩
  privateKey := ⟨n + 1, rfl⟩
  password := ⟨n + 2, rfl⟩

/-- The credential that an update leaves in the row. -/
def updated (new old : String) : String := if new = "" then old else new

theorem Row.Holds.update {row : Row} (h : row.Holds service c₀ k p w) (c : ConfigType)
    (n : Nat) :
    Row.Holds service (row.assign (truthyValue service .api_key c.apiKey n ++
        truthyValue service .private_key c.privateKey (n + 1) ++
        truthyValue service .password c.password (n + 2) ++ updateParameters c)) c
      (updated c.apiKey k) (updated c.privateKey p) (updated c.password w) := by
  have hrow (column) : row.assign (truthyValue service .api_key c.apiKey n ++
        truthyValue service .private_key c.privateKey (n + 1) ++
        truthyValue service .password c.password (n + 2) ++ updateParameters c) column =
      if column = .api_key ∧ c.apiKey ≠ "" then .text (service.encrypt n c.apiKey)
      else if column = .private_key ∧ c.privateKey ≠ "" then
        .text (service.encrypt (n + 1) c.privateKey)
      else if column = .password ∧ c.password ≠ "" then
        .text (service.encrypt (n + 2) c.password)
      else row.assign (updateParameters c) column := by
    simp only [Row.assign_append, Row.assign_truthyValue]
  have hparameter {column : Column} (hc : column.isCredential = false) :
      row.assign (truthyValue service .api_key c.apiKey n ++
        truthyValue service .private_key c.privateKey (n + 1) ++
        truthyValue service .password c.password (n + 2) ++ updateParameters c) column =
      row.assign (updateParameters c) column := by
    have hne {credential : Column} (hcredential : credential.isCredential = true) :
        column ≠ credential := by
      rintro rfl
      cases hc.symm.trans hcredential
    rw [hrow, if_neg fun h => hne rfl h.1, if_neg fun h => hne rfl h.1, if_neg fun h => hne rfl h.1]
  have hcredential (column : Column) (value old : String) (m : Nat)
      (hold : ∃ n, row column = .text (service.encrypt n old))
      (hkeep : row.assign (updateParameters c) column = row column) :
      ∃ n, (if value ≠ "" then Cell.text (service.encrypt m value)
        else row.assign (updateParameters c) column) =
          .text (service.encrypt n (updated value old)) := by
    unfold updated
    by_cases hv : value = ""
    · simpa [hv, hkeep] using hold
    · exact ⟨m, by simp [hv]⟩
  constructor
  case id => rw [hparameter rfl]; rfl
  case parameter =>
    intro p hp column hcolumn hcred
    rw [hparameter hcred]
    simp only [ConfigType.object, List.mem_cons, List.not_mem_nil, or_false] at hp
    rcases hp with rfl | rfl | rfl | rfl | rfl | rfl | rfl | rfl | rfl | rfl | rfl | rfl | rfl |
      rfl | rfl | rfl | rfl | rfl | rfl | rfl | rfl | rfl | rfl | rfl | rfl | rfl <;>
      cases hcolumn
    all_goals first | (cases hcred; done) | rfl
  case apiKey =>
    rw [hrow]
    simpa using hcredential .api_key c.apiKey k n h.apiKey rfl
  case privateKey =>
    rw [hrow]
    simpa using hcredential .private_key c.privateKey p (n + 1) h.privateKey rfl
  case password =>
    rw [hrow]
    simpa using hcredential .password c.password w (n + 2) h.password rfl

/-! ## Reading -/

theorem decrypt_cell (hcell : cell = Cell.text (service.encrypt n value)) (hne : value ≠ "") :
    service.decrypt cell.toJs = .ok value := by
  rw [hcell]
  exact service.decrypt_encrypt n hne

/-- The three credentials of a configuration are not empty. -/
def ConfigType.HasCredentials (c : ConfigType) : Prop :=
  c.apiKey ≠ "" ∧ c.privateKey ≠ "" ∧ c.password ≠ ""

/-- What the worker reads: the stored parameters, and the credentials decrypted. -/
def readObject (row : Row) (k p w : String) : ConfigKey → JsValue
  | .apiKey => .string k
  | .privateKey => .string p
  | .password => .string w
  | key => row.select key

theorem Row.Holds.read {row : Row} (h : row.Holds service c k p w) (hk : k ≠ "")
    (hp : p ≠ "") (hw : w ≠ "") :
    decryptConfig service row.select = .ok (readObject row k p w) := by
  obtain ⟨_, h₁⟩ := h.apiKey
  obtain ⟨_, h₂⟩ := h.privateKey
  obtain ⟨_, h₃⟩ := h.password
  have hk' : service.decrypt (row.select .apiKey) = .ok k := decrypt_cell h₁ hk
  have hp' : service.decrypt (row.select .privateKey) = .ok p := decrypt_cell h₂ hp
  have hw' : service.decrypt (row.select .password) = .ok w := decrypt_cell h₃ hw
  simp only [decryptConfig, hk', hp', hw', bind, Except.bind, pure, Except.pure]
  rfl

/-- An empty credential in the row makes every read throw. -/
theorem Row.Holds.read_empty {row : Row} (h : row.Holds service c k p w)
    (hempty : ¬ (k ≠ "" ∧ p ≠ "" ∧ w ≠ "")) :
    decryptConfig service row.select = .error "Invalid encrypted value." := by
  obtain ⟨_, h₁⟩ := h.apiKey
  obtain ⟨_, h₂⟩ := h.privateKey
  obtain ⟨_, h₃⟩ := h.password
  have hread (column : Column) (key : ConfigKey) (hsel : row.select key = (row column).toJs)
      (value : String) (n : Nat) (hcell : row column = .text (service.encrypt n value)) :
      service.decrypt (row.select key) =
        if value = "" then .error "Invalid encrypted value." else .ok value := by
    split
    · next hv => rw [hsel, hcell, hv]; exact service.decrypt_encrypt_empty n
    · next hv => rw [hsel]; exact decrypt_cell hcell hv
  have hk' := hread .api_key .apiKey rfl k _ h₁
  have hp' := hread .private_key .privateKey rfl p _ h₂
  have hw' := hread .password .password rfl w _ h₃
  simp only [decryptConfig, hk', hp', hw', bind, Except.bind, pure, Except.pure]
  by_cases hk : k = ""
  · simp [hk]
  by_cases hp : p = ""
  · simp [hk, hp]
  by_cases hw : w = ""
  · simp [hk, hp, hw]
  · exact absurd ⟨hk, hp, hw⟩ hempty

/-- The parameters read from the row are those stored, except the one that is not selected. -/
theorem Row.Holds.read_parameters {row : Row} (h : row.Holds service c k p w) :
    (∀ q ∈ c.object, (columnName q.1).isSome → q.1 ≠ .balanceDistribution →
      q.1 ∉ [.apiKey, .privateKey, .password] → readObject row k p w q.1 = q.2.encoded) ∧
    readObject row k p w .balanceDistribution = .undefined := by
  refine ⟨fun q hq hcolumn hbalance hcred => ?_, rfl⟩
  have hstored := h.parameter q hq
  have hread {column : Column} (hc : columnName q.1 = some column)
      (hcr : column.isCredential = false) (hv : q.2 ≠ .undefined)
      (hsel : readObject row k p w q.1 = (row column).toJs) :
      readObject row k p w q.1 = q.2.encoded := by
    rw [hsel, hstored column hc hcr, JsValue.toJs_bind hv]
  have hnullable (o : Option Rat) : JsValue.ofNullable o ≠ .undefined := by
    cases o <;> simp [JsValue.ofNullable]
  simp only [ConfigType.object, List.mem_cons, List.not_mem_nil, or_false] at hq
  rcases hq with rfl | rfl | rfl | rfl | rfl | rfl | rfl | rfl | rfl | rfl | rfl | rfl | rfl |
    rfl | rfl | rfl | rfl | rfl | rfl | rfl | rfl | rfl | rfl | rfl | rfl | rfl
  all_goals first
    | exact hread rfl rfl (hnullable _) rfl
    | exact hread rfl rfl (fun hv => by cases hv) rfl
    | simp [columnName] at hcolumn hcred hbalance

/-! ## Calls -/

/-- The table after successful calls of which `c` was the last: one row, whose credentials are
not empty and are those of `c` where `c` has one. -/
structure Synced (service : EncryptionService) (db : ConfigDatabase) (c : ConfigType)
    (k p w : String) : Prop where
  row : ∃ row : Row, db.rows = [row] ∧ row.Holds service c k p w
  nonempty : k ≠ "" ∧ p ≠ "" ∧ w ≠ ""
  latest : (c.apiKey ≠ "" → k = c.apiKey) ∧ (c.privateKey ≠ "" → p = c.privateKey) ∧
    (c.password ≠ "" → w = c.password)

theorem Synced.getConfig (h : Synced service db c k p w) :
    ∃ row : Row, row.Holds service c k p w ∧ db.rows = [row] ∧
      getConfig service db = .ok [readObject row k p w] ∧
      getConfigById service c.id db = .ok (readObject row k p w) := by
  obtain ⟨row, hrows, hrow⟩ := h.row
  have hread := hrow.read h.nonempty.1 h.nonempty.2.1 h.nonempty.2.2
  refine ⟨row, hrow, hrows, ?_, ?_⟩
  · simp [Config.getConfig, hrows, hread, bind, Except.bind, pure, Except.pure]
  · simp [getConfigById, hrows, Row.hasId, hrow.id, hread]

theorem updated_ne_empty (new : String) (h : old ≠ "") : updated new old ≠ "" := by
  unfold updated
  split
  · exact h
  · assumption

theorem updated_of_ne_empty (h : new ≠ "") : updated new old = new := if_neg h

/-- A later call updates the row. -/
theorem Synced.syncRuntimeConfig (h : Synced service db c₀ k p w) (hid : c.id = c₀.id) :
    (syncRuntimeConfig service c db).1 = .ok () ∧
      Synced service (syncRuntimeConfig service c db).2 c (updated c.apiKey k)
        (updated c.privateKey p) (updated c.password w) := by
  obtain ⟨row, hrow, hrows, hget, -⟩ := h.getConfig
  have hfound : readObject row k p w .id = .number c.id := by
    rw [hid]
    exact congrArg Cell.toJs hrow.id
  have hhas : row.hasId c.id := by simp [Row.hasId, hrow.id, hid]
  have hsync : Config.syncRuntimeConfig service c db = updateConfig service c c.id db := by
    simp [Config.syncRuntimeConfig, hget, hfound]
  rw [hsync, updateConfig, mappingValuesList_updateObject]
  refine ⟨rfl, ⟨_, ?_, hrow.update c db.encryptions⟩, ?_, ?_⟩
  · simp [hrows, hhas]
  · exact ⟨updated_ne_empty _ h.nonempty.1, updated_ne_empty _ h.nonempty.2.1,
      updated_ne_empty _ h.nonempty.2.2⟩
  · exact ⟨updated_of_ne_empty, updated_of_ne_empty, updated_of_ne_empty⟩

theorem syncRuntimeConfigs_cons (c : ConfigType) (cs : List ConfigType) (db : ConfigDatabase) :
    syncRuntimeConfigs service (c :: cs) db =
      ((syncRuntimeConfig service c db).1 ::
          (syncRuntimeConfigs service cs (syncRuntimeConfig service c db).2).1,
        (syncRuntimeConfigs service cs (syncRuntimeConfig service c db).2).2) := rfl

/-- Later calls all succeed. -/
theorem Synced.syncRuntimeConfigs (h : Synced service db c k p w)
    (hid : ∀ c' ∈ cs, c'.id = c.id) :
    (∀ r ∈ (syncRuntimeConfigs service cs db).1, r = .ok ()) ∧
      ∃ k' p' w', Synced service (syncRuntimeConfigs service cs db).2 (cs.getLastD c) k' p' w' := by
  induction cs generalizing db c k p w with
  | nil => exact ⟨fun _ hr => (by cases hr), k, p, w, h⟩
  | cons c' cs ih =>
    obtain ⟨hok, hnext⟩ := h.syncRuntimeConfig (hid c' List.mem_cons_self)
    obtain ⟨hrest, hlast⟩ := ih hnext fun c'' hc'' => by
      rw [hid c'' (List.mem_cons_of_mem _ hc''), hid c' List.mem_cons_self]
    refine ⟨fun r hr => ?_, ?_⟩
    · rcases List.mem_cons.mp hr with rfl | hr
      · exact hok
      · exact hrest r hr
    · rw [List.getLastD_cons]
      exact hlast

/-- The row that the first call inserts has the number 1. -/
def firstRow (service : EncryptionService) (c : ConfigType) : Row :=
  Row.assign (fun
    | .id => .number (0 + 1 : Nat)
    | column => defaultRow column) (createValues service c 0)

def firstDatabase (service : EncryptionService) (c : ConfigType) : ConfigDatabase where
  rows := [firstRow service c]
  sequence := 1
  encryptions := 3

theorem firstRow_holds (service : EncryptionService) (c : ConfigType) :
    (firstRow service c).Holds service { c with id := 1 }
    c.apiKey c.privateKey c.password :=
  createConfig_holds { c with id := 1 } rfl 0

/-- The first call inserts the row and reads it again. -/
theorem syncRuntimeConfig_first (c : ConfigType) :
    syncRuntimeConfig service c {} =
      match decryptConfig service (firstRow service c).select with
      | .error e => (.error e, firstDatabase service c)
      | .ok created =>
        if created .id = .number c.id then (.ok (), firstDatabase service c)
        else
          let id := orUnknown (created .id)
          (.error s!"Runtime config was created with id {id} instead of {c.id}.",
            firstDatabase service c) := by
  have hempty : getConfig service {} = .ok [] := rfl
  have hcreate : createConfig service c {} = (.ok (), firstDatabase service c) := rfl
  have hget : getConfig service (firstDatabase service c) =
      (decryptConfig service (firstRow service c).select).map ([·]) := by
    simp only [getConfig, firstDatabase, List.mapM_cons, List.mapM_nil, bind, Except.bind, pure,
      Except.pure]
    cases decryptConfig service (firstRow service c).select <;> rfl
  simp only [syncRuntimeConfig, hempty, hcreate, hget]
  cases decryptConfig service (firstRow service c).select <;> rfl

theorem syncRuntimeConfig_first_ok (service : EncryptionService) (c : ConfigType)
    (hid : c.id = 1) (hc : c.HasCredentials) :
    (syncRuntimeConfig service c {}).1 = .ok () ∧
      Synced service (syncRuntimeConfig service c {}).2 c c.apiKey c.privateKey c.password := by
  have hrow : (firstRow service c).Holds service c c.apiKey c.privateKey c.password :=
    createConfig_holds c hid 0
  have hcreated : readObject (firstRow service c) c.apiKey c.privateKey c.password .id =
      .number c.id := congrArg Cell.toJs hrow.id
  rw [syncRuntimeConfig_first, hrow.read hc.1 hc.2.1 hc.2.2]
  simp only [if_pos hcreated]
  exact ⟨trivial, ⟨_, rfl, hrow⟩, hc, fun _ => rfl, fun _ => rfl, fun _ => rfl⟩

/-- The row without a credential is not read again. -/
theorem syncRuntimeConfig_first_empty (service : EncryptionService) {c : ConfigType}
    (hc : ¬ c.HasCredentials) :
    (syncRuntimeConfig service c {}).1 = .error "Invalid encrypted value." := by
  rw [syncRuntimeConfig_first, (firstRow_holds service c).read_empty hc]

/-- The first call succeeds only for number 1 and with all credentials. -/
theorem of_syncRuntimeConfig_first_ok (c : ConfigType)
    (h : (syncRuntimeConfig service c {}).1 = .ok ()) : c.id = 1 ∧ c.HasCredentials := by
  by_cases hc : c.HasCredentials
  · rw [syncRuntimeConfig_first, (firstRow_holds service c).read hc.1 hc.2.1 hc.2.2] at h
    simp only at h
    split at h
    · next hid =>
      have hfirst : JsValue.number 1 = .number c.id :=
        (congrArg Cell.toJs (firstRow_holds service c).id).symm.trans hid
      exact ⟨(JsValue.number.inj hfirst).symm, hc⟩
    · cases h
  · rw [syncRuntimeConfig_first_empty service hc] at h
    cases h

/-! ## The round trip -/

/-- Reading the configuration gives the parameters of `c`, up to the encoding of booleans. -/
def ReadsBack (service : EncryptionService) (c : ConfigType) (db : ConfigDatabase)
    (parameter : ConfigKey → Prop) : Prop :=
  ∃ r, getConfigById service c.id db = .ok r ∧ getConfig service db = .ok [r] ∧
    ∀ q ∈ c.object, (columnName q.1).isSome → parameter q.1 → r q.1 = q.2.encoded

/-- Every call succeeds, and afterwards the last configuration is read back. -/
def Faithful (service : EncryptionService) (first : ConfigType) (rest : List ConfigType)
    (parameter : ConfigKey → Prop) : Prop :=
  (∀ r ∈ (syncRuntimeConfigs service (first :: rest) {}).1, r = .ok ()) ∧
    ReadsBack service (rest.getLastD first) (syncRuntimeConfigs service (first :: rest) {}).2
      parameter

theorem decryptConfig_balanceDistribution (h : decryptConfig service config = .ok r) :
    r .balanceDistribution = config .balanceDistribution := by
  simp only [decryptConfig, bind, Except.bind, pure, Except.pure] at h
  split at h
  · cases h
  split at h
  · cases h
  split at h
  · cases h
  · cases h; rfl

/-- `balance_distribution` is not selected. -/
theorem not_readsBack (c : ConfigType) (db : ConfigDatabase) :
    ¬ ReadsBack service c db fun _ => True := by
  rintro ⟨r, hget, -, hr⟩
  have hbalance := hr (.balanceDistribution, .boolean c.balanceDistribution)
    (by simp [ConfigType.object]) rfl trivial
  unfold getConfigById at hget
  split at hget
  · rw [decryptConfig_balanceDistribution hget] at hbalance
    cases hbalance
  · cases hget

theorem Synced.readsBack (h : Synced service db c k p w) :
    ReadsBack service c db (· ≠ .balanceDistribution) ↔ c.HasCredentials := by
  obtain ⟨row, hrow, -, hget, hgetById⟩ := h.getConfig
  constructor
  · rintro ⟨r, hr, -, hagree⟩
    obtain rfl := Except.ok.inj (hgetById.symm.trans hr)
    have hkey (key : ConfigKey) (value stored : String) (hmem : (key, .string value) ∈ c.object)
        (hcolumn : (columnName key).isSome) (hne : key ≠ .balanceDistribution)
        (hread : readObject row k p w key = .string stored) : stored = value := by
      have heq := hagree (key, .string value) hmem hcolumn hne
      exact JsValue.string.inj (hread.symm.trans heq)
    have hk := hkey .apiKey c.apiKey k (by simp [ConfigType.object]) rfl (by simp) rfl
    have hp := hkey .privateKey c.privateKey p (by simp [ConfigType.object]) rfl (by simp) rfl
    have hw := hkey .password c.password w (by simp [ConfigType.object]) rfl (by simp) rfl
    exact ⟨hk ▸ h.nonempty.1, hp ▸ h.nonempty.2.1, hw ▸ h.nonempty.2.2⟩
  · intro hc
    refine ⟨_, hgetById, hget, fun q hq hcolumn hne => ?_⟩
    by_cases hcred : q.1 ∈ [ConfigKey.apiKey, .privateKey, .password]
    · have hk := h.latest.1 hc.1
      have hp := h.latest.2.1 hc.2.1
      have hw := h.latest.2.2 hc.2.2
      simp only [ConfigType.object, List.mem_cons, List.not_mem_nil, or_false] at hq
      rcases hq with rfl | rfl | rfl | rfl | hq
      · simp at hcred
      · rw [hk]; rfl
      · rw [hp]; rfl
      · rw [hw]; rfl
      · rcases hq with rfl | rfl | rfl | rfl | rfl | rfl | rfl | rfl | rfl | rfl | rfl | rfl |
          rfl | rfl | rfl | rfl | rfl | rfl | rfl | rfl | rfl | rfl <;> simp at hcred
    · exact hrow.read_parameters.1 q hq hcolumn hne hcred

/-- For every sequence of configurations of one number on an empty database: `balanceDistribution`
is never read back; and every call succeeds and all other parameters and the credentials of the
last configuration are read back exactly if the number is 1 and neither the first nor the last
configuration has an empty credential. -/
theorem syncRuntimeConfig_round_trip_iff (service : EncryptionService) (first : ConfigType)
    (rest : List ConfigType) (hid : ∀ c ∈ rest, c.id = first.id) :
    ¬ Faithful service first rest (fun _ => True) ∧
      (Faithful service first rest (· ≠ .balanceDistribution) ↔
        first.id = 1 ∧ first.HasCredentials ∧ (rest.getLastD first).HasCredentials) := by
  simp only [Faithful, syncRuntimeConfigs_cons, List.forall_mem_cons]
  refine ⟨fun h => not_readsBack _ _ h.2, fun ⟨⟨hok, _⟩, hread⟩ => ?_,
    fun ⟨hfirst, hc, hlast⟩ => ?_⟩
  · obtain ⟨hfirst, hc⟩ := of_syncRuntimeConfig_first_ok first hok
    obtain ⟨-, hsynced⟩ := syncRuntimeConfig_first_ok service first hfirst hc
    obtain ⟨-, k, p, w, hsynced⟩ := hsynced.syncRuntimeConfigs hid
    exact ⟨hfirst, hc, hsynced.readsBack.mp hread⟩
  · obtain ⟨hok, hsynced⟩ := syncRuntimeConfig_first_ok service first hfirst hc
    obtain ⟨hrest, k, p, w, hsynced⟩ := hsynced.syncRuntimeConfigs hid
    exact ⟨⟨hok, hrest⟩, hsynced.readsBack.mpr hlast⟩

/-- A bot on an exchange that takes a password, or not. -/
def sampleConfig (password : String) (positionSize : Rat) : ConfigType where
  apiKey := "key"
  privateKey := "secret"
  password := password
  symbol := "BTC/USDT"
  positionSize := positionSize
  exchange := .bybit

theorem syncRuntimeConfig_round_trip_sample :
    Faithful recordedService (sampleConfig "pass" 1) [sampleConfig "pass" 2]
      (· ≠ .balanceDistribution) :=
  (syncRuntimeConfig_round_trip_iff recordedService (sampleConfig "pass" 1)
    [sampleConfig "pass" 2] (by simp [sampleConfig])).2.mpr
      ⟨rfl, ⟨by decide, by decide, by decide⟩, ⟨by decide, by decide, by decide⟩⟩

/-- A configuration without a password is not accepted even once. -/
theorem syncRuntimeConfig_empty_password :
    (syncRuntimeConfig recordedService (sampleConfig "" 1) {}).1 =
        .error "Invalid encrypted value." ∧
      ¬ Faithful recordedService (sampleConfig "" 1) [] (· ≠ .balanceDistribution) := by
  have hempty : ¬ (sampleConfig "" 1).HasCredentials := fun h => h.2.2 rfl
  have hthrows := syncRuntimeConfig_first_empty recordedService hempty
  refine ⟨hthrows, fun ⟨hok, _⟩ => ?_⟩
  rw [syncRuntimeConfigs_cons, List.forall_mem_cons, hthrows] at hok
  cases hok.1

end Tonatiuh.Config
