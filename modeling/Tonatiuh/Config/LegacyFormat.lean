import Tonatiuh.Config.Encryption

/-! The two formats of encrypted values that `EncryptionService.decrypt` reads.

The records of the previous format were written as `ivHex:cipherHex`. Their writer is no longer in
the service; of AES-256-CBC it is assumed that decryption undoes encryption and that the padded
ciphertext is not empty. -/

namespace Tonatiuh.Config

open Text

/-- The writer of the previous format, with the key of the service. -/
structure LegacyWriter (service : EncryptionService) where
  encryptCbc : (iv plaintext : Bytes) → Bytes
  decryptCbc_encryptCbc : ∀ iv plaintext, iv.length = 16 →
    service.crypto.decryptCbc service.key iv (encryptCbc iv plaintext) = some plaintext
  encryptCbc_ne_nil : ∀ iv plaintext, encryptCbc iv plaintext ≠ []

/-- The text is dispatched to the decoder of the current format. -/
def isVersioned (encryptedData : String) : Bool := (split ':' encryptedData)[0]? = some "v2"

namespace LegacyWriter

variable {service : EncryptionService} (writer : LegacyWriter service)

def fields (iv : Bytes) (data : String) : List String :=
  [EncryptionService.toText iv, EncryptionService.toText (writer.encryptCbc iv (utf8 data))]

/-- The text of the previous format. -/
def encrypt (iv : Bytes) (data : String) : String := join ':' (writer.fields iv data)

/-- Both formats are dispatched to their decoders, which give the value back. -/
structure ReadsBack (n : Nat) (data : String) : Prop where
  current : service.decrypt (.string (service.encrypt n data)) = .ok data
  legacy : ∀ iv, iv.length = 16 → service.decrypt (.string (writer.encrypt iv data)) = .ok data
  isVersioned_current : isVersioned (service.encrypt n data) = true
  isVersioned_legacy : ∀ iv, isVersioned (writer.encrypt iv data) = false

theorem split_encrypt (iv : Bytes) (data : String) :
    split ':' (writer.encrypt iv data) = writer.fields iv data := by
  apply split_join
  · simp [fields]
  · intro p hp
    simp only [fields, List.mem_cons, List.not_mem_nil, or_false] at hp
    rcases hp with rfl | rfl
    all_goals rw [EncryptionService.toText_toList]; exact colon_not_mem_toHex _

/-- The first field is made of digits. -/
theorem toText_ne_version (bytes : Bytes) : EncryptionService.toText bytes ≠ "v2" := by
  intro h
  have hmem : 'v' ∈ toHex bytes := by
    rw [← EncryptionService.toText_toList, h]
    decide
  exact absurd (mem_toHex hmem) (by decide)

theorem isVersioned_encrypt (iv : Bytes) (data : String) :
    isVersioned (writer.encrypt iv data) = false := by
  rw [isVersioned, split_encrypt, decide_eq_false_iff_not]
  exact fun h => toText_ne_version iv (Option.some.inj h)

theorem encrypt_ne_empty (iv : Bytes) (data : String) : writer.encrypt iv data ≠ "" := by
  intro h
  have hlength := congrArg List.length (writer.split_encrypt iv data)
  rw [h] at hlength
  cases hlength

/-- A value of the previous format is read back, the empty one as well. -/
theorem decrypt_encrypt {iv : Bytes} (h : iv.length = 16) (data : String) :
    service.decrypt (.string (writer.encrypt iv data)) = .ok data := by
  have hiv : iv ≠ [] := fun hnil => by
    rw [hnil] at h
    cases h
  have hversion : ¬(writer.fields iv data)[0]? = some "v2" := fun heq =>
    toText_ne_version iv (Option.some.inj heq)
  rw [service.decrypt_string (writer.encrypt_ne_empty iv data), split_encrypt,
    EncryptionService.decryptParts, if_neg hversion, EncryptionService.part_text rfl hiv,
    EncryptionService.part_text rfl (writer.encryptCbc_ne_nil iv (utf8 data))]
  simp only [EncryptionService.ofText_toText, writer.decryptCbc_encryptCbc iv _ h,
    EncryptionService.decode, ofUtf8?_utf8, Option.getD_some]

end LegacyWriter

theorem EncryptionService.isVersioned_encrypt (service : EncryptionService) (n : Nat)
    (data : String) :
    isVersioned (service.encrypt n data) = true := by
  rw [isVersioned, split_encrypt]
  exact decide_eq_true (service.fields_version n data)

/-- Values of both formats are read back, the empty value of the current format excepted. -/
theorem encryption_readsBack_iff {service : EncryptionService}
    (writer : LegacyWriter service) (n : Nat)
    (data : String) : writer.ReadsBack n data ↔ data ≠ "" := by
  constructor
  · rintro h rfl
    cases (service.decrypt_encrypt_empty n).symm.trans h.current
  · intro hne
    exact
      { current := service.decrypt_encrypt n hne
        legacy := fun iv hiv => writer.decrypt_encrypt hiv data
        isVersioned_current := service.isVersioned_encrypt n data
        isVersioned_legacy := fun iv => writer.isVersioned_encrypt iv data }

/-! ## Recorded encryptions -/

/-- The ciphertexts of AES-256-CBC for the zero key and initialisation vector, of the empty text and
of `key`. -/
def recordedCbc (plaintext : Bytes) : Bytes :=
  if plaintext = [] then [31, 120, 143, 230, 216, 108, 49, 117, 73, 105, 127, 191, 12, 7, 250, 67]
  else if plaintext = [107, 101, 121] then
    [80, 166, 16, 239, 135, 193, 49, 223, 167, 171, 212, 178, 81, 64, 107, 11]
  else 0 :: plaintext

def readCbc (ciphertext : Bytes) : Option Bytes :=
  if ciphertext = recordedCbc [] then some []
  else if ciphertext = recordedCbc [107, 101, 121] then some [107, 101, 121]
  else if ciphertext.head? = some 0 then some ciphertext.tail
  else none

theorem readCbc_recordedCbc (plaintext : Bytes) :
    readCbc (recordedCbc plaintext) = some plaintext := by
  by_cases hempty : plaintext = []
  · subst hempty
    decide
  · by_cases hkey : plaintext = [107, 101, 121]
    · subst hkey
      decide
    · simp [readCbc, recordedCbc, hempty, hkey]

/-- The recorded service, with the previous format. -/
def recordedLegacyService : EncryptionService :=
  { recordedService with crypto := { recordedCrypto with decryptCbc := fun _ _ => readCbc } }

def recordedWriter : LegacyWriter recordedLegacyService where
  encryptCbc _ := recordedCbc
  decryptCbc_encryptCbc _ plaintext _ := readCbc_recordedCbc plaintext
  encryptCbc_ne_nil _ plaintext := by
    unfold recordedCbc
    split <;> [skip; split] <;> exact List.cons_ne_nil _ _

/-- The empty value cannot be read back. -/
theorem empty_not_readsBack : ¬ recordedWriter.ReadsBack 0 "" := by
  intro h
  cases (recordedLegacyService.decrypt_encrypt_empty 0).symm.trans h.current

end Tonatiuh.Config
