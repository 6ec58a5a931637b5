import Tonatiuh.Text.Delimited

/-! `EncryptionService`: the text format of encrypted values.

Node's `crypto` is a parameter: of AES-256-GCM only that decryption undoes encryption, that the
ciphertext is as long as the plaintext, and that the tag has 16 bytes. `randomBytes n` is the
initialisation vector of the `n`-th call of `encrypt`. JavaScript strings are taken to be sequences
of Unicode scalar values. -/

namespace Tonatiuh.Config

open Text

structure Crypto where
  /-- Ciphertext and authentication tag of `aes-256-gcm`. -/
  encryptGcm : (key iv plaintext : Bytes) → Bytes × Bytes
  /-- `none` when `final` throws. -/
  decryptGcm : (key iv tag ciphertext : Bytes) → Option Bytes
  /-- `aes-256-cbc`, for values of the previous format. -/
  decryptCbc : (key iv ciphertext : Bytes) → Option Bytes
  /-- `toString('utf8')` of bytes that are not well formed. -/
  decodeMalformed : Bytes → String
  decryptGcm_encryptGcm : ∀ key iv plaintext, decryptGcm key iv (encryptGcm key iv plaintext).2
    (encryptGcm key iv plaintext).1 = some plaintext
  length_ciphertext : ∀ key iv plaintext,
    (encryptGcm key iv plaintext).1.length = plaintext.length
  length_tag : ∀ key iv plaintext, (encryptGcm key iv plaintext).2.length = 16

/-- A JavaScript value that a column holds or a driver binds. -/
inductive JsValue where
  | undefined | null
  | boolean (b : Bool)
  | number (q : Rat)
  | string (s : String)
  deriving DecidableEq, Repr

structure EncryptionService where
  crypto : Crypto
  key : Bytes
  randomBytes : Nat → Bytes
  length_key : key.length = 32
  length_randomBytes : ∀ n, (randomBytes n).length = 12

namespace EncryptionService

variable (service : EncryptionService)

def toText (bytes : Bytes) : String := String.ofList (toHex bytes)

def ofText (s : String) : Bytes := fromHex s.toList

/-- `toString('utf8')`. -/
def decode (bytes : Bytes) : String :=
  (ofUtf8? bytes).getD (service.crypto.decodeMalformed bytes)

/-- The four fields of an encrypted value. -/
def fields (n : Nat) (data : String) : List String :=
  let (encrypted, tag) := service.crypto.encryptGcm service.key (service.randomBytes n) (utf8 data)
  ["v2", toText (service.randomBytes n), toText tag, toText encrypted]

/-- `encrypt`, the `n`-th call. -/
def encrypt (n : Nat) (data : String) : String := join ':' (service.fields n data)

/-- A part of the text that is there and not empty. -/
def part (parts : List String) (i : Nat) : Option String := parts[i]?.filter (· ≠ "")

/-- `decrypt` on the parts of a non-empty text. -/
def decryptParts (parts : List String) : Except String String :=
  if parts[0]? = some "v2" then
    match part parts 1, part parts 2, part parts 3 with
    | some iv, some tag, some encrypted =>
      match service.crypto.decryptGcm service.key (ofText iv) (ofText tag) (ofText encrypted) with
      | some bytes => .ok (service.decode bytes)
      | none => .error "Unsupported state or unable to authenticate data"
    | _, _, _ => .error "Invalid encrypted value."
  else
    match part parts 0, part parts 1 with
    | some iv, some encrypted =>
      match service.crypto.decryptCbc service.key (ofText iv) (ofText encrypted) with
      | some bytes => .ok (service.decode bytes)
      | none => .error "bad decrypt"
    | _, _ => .error "Invalid encrypted value."

/-- `decrypt`. -/
def decrypt : JsValue → Except String String
  | .undefined | .null | .string "" | .boolean false => .ok ""
  | .number q => if q = 0 then .ok "" else .error "encryptedData.split is not a function"
  | .boolean true => .error "encryptedData.split is not a function"
  | .string s => service.decryptParts (split ':' s)

@[simp] theorem toText_toList (bytes : Bytes) : (toText bytes).toList = toHex bytes :=
  String.toList_ofList

theorem toText_eq_empty {bytes : Bytes} : toText bytes = "" ↔ bytes = [] := by
  rw [← toHex_eq_nil, ← toText_toList, String.toList_eq_nil_iff]

@[simp] theorem ofText_toText (bytes : Bytes) : ofText (toText bytes) = bytes := by
  rw [ofText, toText_toList, fromHex_toHex]

theorem split_encrypt (n : Nat) (data : String) :
    split ':' (service.encrypt n data) = service.fields n data := by
  apply split_join
  · simp [fields]
  · intro p hp
    simp only [fields, List.mem_cons, List.not_mem_nil, or_false] at hp
    rcases hp with rfl | rfl | rfl | rfl
    · decide
    all_goals rw [toText_toList]; exact colon_not_mem_toHex _

theorem encrypt_ne_empty (n : Nat) (data : String) : service.encrypt n data ≠ "" := by
  intro h
  have hsplit := service.split_encrypt n data
  rw [h] at hsplit
  have := congrArg List.length hsplit
  simp [fields, split] at this

theorem decrypt_string {s : String} (hne : s ≠ "") :
    service.decrypt (.string s) = service.decryptParts (split ':' s) := by
  unfold decrypt
  split <;> simp_all

theorem fields_version (n : Nat) (data : String) :
    (service.fields n data)[0]? = some "v2" := rfl

theorem part_text {parts : List String} {bytes : Bytes} (h : parts[i]? = some (toText bytes))
    (hne : bytes ≠ []) : part parts i = some (toText bytes) := by
  simp [part, h, toText_eq_empty, hne]

/-- A value that is not empty is read back. -/
theorem decrypt_encrypt (n : Nat) {data : String} (hne : data ≠ "") :
    service.decrypt (.string (service.encrypt n data)) = .ok data := by
  rw [decrypt_string _ (service.encrypt_ne_empty n data), split_encrypt]
  have hiv : service.randomBytes n ≠ [] := fun h => by
    have := service.length_randomBytes n
    simp [h] at this
  have htag := service.crypto.length_tag service.key (service.randomBytes n) (utf8 data)
  have hlen := service.crypto.length_ciphertext service.key (service.randomBytes n) (utf8 data)
  have hdec := service.crypto.decryptGcm_encryptGcm service.key (service.randomBytes n) (utf8 data)
  generalize hg : service.crypto.encryptGcm service.key (service.randomBytes n) (utf8 data) = r
    at htag hlen hdec
  obtain ⟨encrypted, tag⟩ := r
  have htag' : tag ≠ [] := fun h => by simp [h] at htag
  have henc : encrypted ≠ [] := fun h => by
    simp only [h, List.length_nil] at hlen
    exact hne (utf8_eq_nil.mp (List.length_eq_zero_iff.mp hlen.symm))
  have hfields : service.fields n data =
      ["v2", toText (service.randomBytes n), toText tag, toText encrypted] := by
    simp [fields, hg]
  rw [decryptParts, if_pos (service.fields_version n data), hfields, part_text rfl hiv,
    part_text rfl htag', part_text rfl henc]
  simp only [ofText_toText, hdec, decode, ofUtf8?_utf8, Option.getD_some]

/-- The encryption of the empty text is refused by `decrypt`. -/
theorem decrypt_encrypt_empty (n : Nat) :
    service.decrypt (.string (service.encrypt n "")) = .error "Invalid encrypted value." := by
  rw [decrypt_string _ (service.encrypt_ne_empty n ""), split_encrypt]
  have hlen := service.crypto.length_ciphertext service.key (service.randomBytes n) (utf8 "")
  have hutf : utf8 "" = [] := utf8_eq_nil.mpr rfl
  rw [hutf] at hlen
  have henc := List.length_eq_zero_iff.mp hlen
  have hthird : part (service.fields n "") 3 = none := by
    simp [part, fields, hutf, henc, toText, toHex]
  rw [decryptParts, if_pos (service.fields_version n ""), hthird]
  split
  · next h => cases h
  · rfl

end EncryptionService

/-! ## Recorded encryptions -/

def zeros (n : Nat) : Bytes := List.replicate n 0

/-- Plaintext, ciphertext and tag of AES-256-GCM for the zero key and initialisation vector. -/
def recorded : List (Bytes × Bytes × Bytes) :=
  [([107, 101, 121], [165, 194, 57],
    [207, 97, 242, 121, 241, 49, 77, 39, 130, 203, 104, 20, 4, 227, 21, 94]),
   ([115, 101, 99, 114, 101, 116], [189, 194, 35, 79, 40, 20],
    [191, 34, 32, 79, 206, 156, 193, 235, 57, 58, 22, 46, 125, 54, 87, 177]),
   ([112, 97, 115, 115], [190, 198, 51, 78],
    [141, 207, 168, 69, 185, 91, 96, 253, 158, 243, 22, 230, 135, 95, 124, 71]),
   ([], [], [83, 15, 138, 251, 199, 69, 54, 185, 169, 99, 180, 241, 196, 203, 115, 139])]

theorem recorded_cases {r : Bytes × Bytes × Bytes} (h : r ∈ recorded) :
    r.2.1.length = r.1.length ∧ r.2.2.length = 16 ∧
      recorded.find? (·.2.2 = r.2.2) = some r := by
  simp only [recorded, List.mem_cons, List.not_mem_nil, or_false] at h
  rcases h with rfl | rfl | rfl | rfl <;> decide

/-- Answers as AES-256-GCM does on the recorded plaintexts, and passes others through. -/
def recordedCrypto : Crypto where
  encryptGcm _ _ plaintext :=
    match recorded.find? (·.1 = plaintext) with
    | some r => r.2
    | none => (plaintext, zeros 16)
  decryptGcm _ _ tag ciphertext :=
    match recorded.find? (·.2.2 = tag) with
    | some r => if r.2.1 = ciphertext then some r.1 else none
    | none => if tag = zeros 16 then some ciphertext else none
  decryptCbc _ _ _ := none
  decodeMalformed _ := "\uFFFD"
  decryptGcm_encryptGcm key iv plaintext := by
    cases hr : recorded.find? (·.1 = plaintext) with
    | none =>
      have hzeros : recorded.find? (·.2.2 = zeros 16) = none := by decide
      simp [hzeros]
    | some r =>
      have hplain : r.1 = plaintext := by simpa using List.find?_some hr
      simp [(recorded_cases (List.mem_of_find?_eq_some hr)).2.2, hplain]
  length_ciphertext key iv plaintext := by
    cases hr : recorded.find? (·.1 = plaintext) with
    | none => rfl
    | some r =>
      have hplain : r.1 = plaintext := by simpa using List.find?_some hr
      exact hplain ▸ (recorded_cases (List.mem_of_find?_eq_some hr)).1
  length_tag key iv plaintext := by
    cases hr : recorded.find? (·.1 = plaintext) with
    | none => rfl
    | some r => exact (recorded_cases (List.mem_of_find?_eq_some hr)).2.1

/-- The service with the zero key and initialisation vectors. -/
def recordedService : EncryptionService where
  crypto := recordedCrypto
  key := zeros 32
  randomBytes _ := zeros 12
  length_key := rfl
  length_randomBytes _ := rfl

end Tonatiuh.Config
