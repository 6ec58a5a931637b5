import Tonatiuh.Commands.Routes
import Tonatiuh.Text.Replace

/-! `redactRuntimeLog` of `saas/worker.ts`. A text is the list of its UTF-16 code units. -/

namespace Tonatiuh.Logs

open Text

abbrev Units := List UInt16

/-- By the units of the list, not by all units that there are. -/
instance (us : Units) (p : UInt16 → Prop) [DecidablePred p] : Decidable (∀ c ∈ us, p c) :=
  us.decidableBAll p

/-- The code units of a character. -/
def utf16 (c : Char) : Units :=
  if c.toNat < 0x10000 then [c.toNat.toUInt16]
  else [(0xD800 + (c.toNat - 0x10000) / 0x400).toUInt16,
    (0xDC00 + (c.toNat - 0x10000) % 0x400).toUInt16]

def units (s : String) : Units := s.toList.flatMap utf16

/-- `/["']/`. -/
def isQuote (c : UInt16) : Bool := c = 34 || c = 39

/-- `/\s/`. -/
def isSpace (c : UInt16) : Bool := Commands.isSpace (Char.ofNat c.toNat)

/-- What is not `/[^"',}\s]/`. -/
def isSeparator (c : UInt16) : Bool := isQuote c || c = 44 || c = 125 || isSpace c

/-- `/[:=]/`. -/
def isAssignment (c : UInt16) : Bool := c = 58 || c = 61

/-- The flag `i`: the letters of the keywords have no equivalents outside of ASCII. -/
def lower (c : UInt16) : UInt16 := if 65 ≤ c ∧ c ≤ 90 then c + 32 else c

def sameLetter (a b : UInt16) : Bool := lower a = lower b

/-- `/apiKey|privateKey|password|secret|token/i`. -/
def keywords : List Units := ["apiKey", "privateKey", "password", "secret", "token"].map units

/-- The group of the expression for one of the keywords: `/keyword["']?\s*[:=]\s*["']?/i`. None of
its parts matches a character with which the part after it, or the class after the last, can begin:
to give a character back never helps. -/
def keyword (word : Units) : Scanner UInt16 :=
  (Scanner.word sameLetter word).andThen <| (Scanner.optional isQuote).andThen <|
    (Scanner.many isSpace).andThen <|
    (Scanner.one isAssignment).andThen <| (Scanner.many isSpace).andThen <| Scanner.optional isQuote

theorem keyword_lawful (word : Units) : (keyword word).Lawful :=
  (Scanner.Lawful.word _ _).andThen <| (Scanner.Lawful.optional _).andThen <|
    (Scanner.Lawful.many _).andThen <|
    (Scanner.Lawful.one _).andThen <| (Scanner.Lawful.many _).andThen <| Scanner.Lawful.optional _

/-- `/((?:apiKey|privateKey|password|secret|token)["']?\s*[:=]\s*["']?)[^"',}\s]+/i`. -/
def secretPattern : Pattern UInt16 where
  scanners := keywords.map keyword
  dropped c := !isSeparator c
  lawful := by
    intro f hf
    obtain ⟨word, -, rfl⟩ := List.mem_map.mp hf
    exact keyword_lawful word

def redacted : Units := units "[REDACTED]"

/-- The text with all values replaced. -/
def replaceSecrets (message : Units) : Units := secretPattern.replaceAll redacted message

def redactRuntimeLog (message : Units) : Units := (replaceSecrets message).take 4000

example : redactRuntimeLog (units "PassWord = 'a b', x") =
    units "PassWord = '[REDACTED] b', x" := by decide

/-! ## The redaction of a field -/

/-- The fields whose values are redacted. -/
inductive SecretField where
  | apiKey | privateKey | password | secret | token
  deriving DecidableEq, Repr

def SecretField.name : SecretField → Units
  | apiKey => units "apiKey"
  | privateKey => units "privateKey"
  | password => units "password"
  | secret => units "secret"
  | token => units "token"

theorem keyword_stopsAt {word : Units} {c : UInt16} (hword : ∀ k ∈ word, sameLetter k c = false)
    (hquote : isQuote c = false) (hspace : isSpace c = false)
    (hassignment : isAssignment c = false) :
    (keyword word).StopsAt c :=
  (Scanner.StopsAt.word hword).andThen <| (Scanner.StopsAt.optional hquote).andThen <|
    (Scanner.StopsAt.many hspace).andThen <| (Scanner.StopsAt.one hassignment).andThen <|
      (Scanner.StopsAt.many hspace).andThen <| Scanner.StopsAt.optional hquote

/-- No match goes on from a brace or comma to a separator. -/
theorem secretPattern_divides {c : UInt16} (hc : c = 123 ∨ c = 44) {y : Units}
    (hy : ∀ d ∈ y.head?, isSeparator d = true) : secretPattern.Divides c y where
  stops f hf := by
    obtain ⟨word, hword, rfl⟩ := List.mem_map.mp hf
    have hletters : ∀ word ∈ keywords, ∀ k ∈ word,
        sameLetter k 123 = false ∧ sameLetter k 44 = false := by
      decide
    rcases hc with rfl | rfl
    · exact keyword_stopsAt (fun k hk => (hletters word hword k hk).1) rfl (by decide) rfl
    · exact keyword_stopsAt (fun k hk => (hletters word hword k hk).2) rfl (by decide) rfl
  next d hd := congrArg not (hy d hd)

/-- The character is in no keyword. -/
theorem find_eq_none {c : UInt16} (hc : ∀ word ∈ keywords, ∀ k ∈ word, sameLetter k c = false)
    (t : Units) :
    secretPattern.find (c :: t) = none := by
  refine List.findSome?_eq_none_iff.mpr fun f hf => ?_
  obtain ⟨word, hword, rfl⟩ := List.mem_map.mp hf
  cases word with
  | nil => exact absurd hword (by decide)
  | cons k word =>
    have hk := hc _ hword k List.mem_cons_self
    simp [Scanner.followedBy, keyword, Scanner.andThen, Scanner.word, hk]

theorem find_quote (t : Units) : secretPattern.find (34 :: t) = none :=
  find_eq_none (by decide) t

theorem find_blank (t : Units) :
    secretPattern.find (32 :: t) = none ∧ secretPattern.find (10 :: t) = none :=
  ⟨find_eq_none (by decide) t, find_eq_none (by decide) t⟩

/-- The words with which a field is introduced: `":"` after its name in JSON, `: '` in an
inspection. -/
theorem keyword_name (field : SecretField) (rest : Units) :
    (keyword field.name (field.name ++ (units "\":\"" ++ rest)) =
      some (field.name ++ units "\":\"", rest)) ∧
      keyword field.name (field.name ++ (units ": '" ++ rest)) =
        some (field.name ++ units ": '", rest) := by
  cases field with
  | _ => exact ⟨rfl, rfl⟩

/-- The keywords before the one of the field do not fit. -/
theorem scanners_split (field : SecretField) : ∃ scanners scanners' : List (Scanner UInt16),
    secretPattern.scanners = scanners ++ keyword field.name :: scanners' ∧
      ∀ f ∈ scanners, ∀ rest, f (field.name ++ rest) = none := by
  cases field with
  | apiKey => exact ⟨[], _, rfl, nofun⟩
  | privateKey =>
    refine ⟨(keywords.take 1).map keyword, _, rfl, ?_⟩
    exact List.forall_mem_cons.mpr ⟨fun _ => rfl, nofun⟩
  | password =>
    refine ⟨(keywords.take 2).map keyword, _, rfl, ?_⟩
    exact List.forall_mem_cons.mpr ⟨fun _ => rfl, List.forall_mem_cons.mpr ⟨fun _ => rfl, nofun⟩⟩
  | secret =>
    refine ⟨(keywords.take 3).map keyword, _, rfl, ?_⟩
    exact List.forall_mem_cons.mpr ⟨fun _ => rfl, List.forall_mem_cons.mpr ⟨fun _ => rfl,
      List.forall_mem_cons.mpr ⟨fun _ => rfl, nofun⟩⟩⟩
  | token =>
    refine ⟨(keywords.take 4).map keyword, _, rfl, ?_⟩
    exact List.forall_mem_cons.mpr ⟨fun _ => rfl, List.forall_mem_cons.mpr ⟨fun _ => rfl,
      List.forall_mem_cons.mpr ⟨fun _ => rfl, List.forall_mem_cons.mpr ⟨fun _ => rfl, nofun⟩⟩⟩⟩

/-- A field of which the value is unbroken: whatever it is, the text is the same. -/
theorem replaceSecrets_field {field : SecretField} {mid inner rest : Units} {q : UInt16}
    (hread : ∀ rest, keyword field.name (field.name ++ (mid ++ rest)) =
      some (field.name ++ mid, rest))
    (hne : inner ≠ []) (hinner : ∀ c ∈ inner, isSeparator c = false) (hq : isSeparator q = true) :
    replaceSecrets (field.name ++ (mid ++ (inner ++ q :: rest))) =
      field.name ++ mid ++ redacted ++ replaceSecrets (q :: rest) := by
  obtain ⟨scanners, scanners', hsplit, hnone⟩ := scanners_split field
  refine Pattern.replaceAll_read hsplit (fun f hf => hnone f hf _) (hread _) hne ?_ ?_
  · exact fun c hc => congrArg not (hinner c hc)
  · rintro _ ⟨⟩
    exact congrArg not hq

/-- The text before the field, up to a brace or comma, and the separators between are left as they
are. -/
theorem replaceSecrets_lead {c : UInt16} (hc : c = 123 ∨ c = 44) {blank : Units}
    (hblank : blank ≠ []) (hseparators : ∀ d ∈ blank, isSeparator d = true)
    (hnone : ∀ d ∈ blank, ∀ t, secretPattern.find (d :: t) = none) (x y : Units) :
    replaceSecrets (x ++ c :: (blank ++ y)) =
      replaceSecrets (x ++ [c]) ++ (blank ++ replaceSecrets y) := by
  have hdivides : secretPattern.Divides c (blank ++ y) := by
    refine secretPattern_divides hc fun d hd => ?_
    cases blank with
    | nil => exact absurd rfl hblank
    | cons e blank =>
      cases hd
      exact hseparators _ List.mem_cons_self
  rw [replaceSecrets, Pattern.replaceAll_append hdivides, Pattern.replaceAll_append_skipped hnone]
  rfl

end Tonatiuh.Logs
