import Tonatiuh.Logs.Layout

/-! Which secrets `redactRuntimeLog` hides. -/

namespace Tonatiuh.Logs

open Text

/-! ## Unbroken values are hidden -/

theorem escapeWith_ne_nil {escape : UInt16 → Units} (h : ∀ c, escape c ≠ []) {t : Units}
    (ht : t ≠ []) :
    escapeWith escape t ≠ [] := by
  cases t with
  | nil => exact absurd rfl ht
  | cons c t =>
    cases t with
    | nil => exact h c
    | cons d t =>
      rw [escapeWith]
      split
      next => exact nofun
      next => exact List.append_ne_nil_of_left_ne_nil (h c) _

theorem mem_escapeWith {escape : UInt16 → Units} {c : UInt16} (h : c ∈ escape c) {t : Units}
    (hc : c ∈ t) :
    c ∈ escapeWith escape t := by
  induction t using escapeWith.induct with
  | case1 => cases hc
  | case2 d =>
    obtain rfl := List.mem_singleton.mp hc
    exact h
  | case3 d e t hpair ih =>
    rw [escapeWith, if_pos hpair]
    rcases List.mem_cons.mp hc with rfl | hc
    · exact List.mem_cons_self
    rcases List.mem_cons.mp hc with rfl | hc
    · exact List.mem_cons_of_mem _ List.mem_cons_self
    · exact List.mem_cons_of_mem _ (List.mem_cons_of_mem _ (ih hc))
  | case4 d e t hpair ih =>
    rw [escapeWith, if_neg hpair]
    rcases List.mem_cons.mp hc with rfl | hc
    · exact List.mem_append_left _ h
    · exact List.mem_append_right _ (ih hc)

theorem escapeCommon_ne_nil {c : UInt16} {escaped : Units} (h : escapeCommon c = some escaped) :
    escaped ≠ [] := by
  unfold escapeCommon at h
  repeat' split at h
  all_goals first
    | (cases h; exact nofun)
    | cases h

theorem escapeCommon_getD_ne_nil {c : UInt16} {other : Units} (h : other ≠ []) :
    (escapeCommon c).getD other ≠ [] := by
  cases hc : escapeCommon c with
  | none => exact h
  | some escaped => exact escapeCommon_ne_nil hc

theorem escapeJson_ne_nil (c : UInt16) : escapeJson c ≠ [] := by
  unfold escapeJson
  split
  next => exact nofun
  next =>
    apply escapeCommon_getD_ne_nil
    split
    next => exact nofun
    next => exact nofun

theorem escapeInspect_ne_nil (quote c : UInt16) : escapeInspect quote c ≠ [] := by
  unfold escapeInspect
  split
  next => exact nofun
  next =>
    apply escapeCommon_getD_ne_nil
    split
    next => exact nofun
    next => exact nofun

theorem strEscape_length {value : Units} (h : value ≠ []) : 2 < (strEscape value).length := by
  have hpos :=
    List.length_pos_iff.mpr (escapeWith_ne_nil (escapeInspect_ne_nil (inspectQuote value)) h)
  rw [strEscape, List.length_append, List.length_cons, List.length_singleton]
  omega

/-- The first line of a string, and the others. -/
theorem exists_splitLines {t : Units} (h : t ≠ []) :
    ∃ line lines, splitLines t = line :: lines ∧ line ≠ [] ∧
    (lines = [] → line = t) := by
  induction t with
  | nil => exact absurd rfl h
  | cons c t ih =>
    rw [splitLines]
    have hnil : splitLines t = [] → t = [] := by
      intro hlines
      by_contra hne
      obtain ⟨line, lines, hcons, -⟩ := ih hne
      rw [hlines] at hcons
      cases hcons
    split
    next => exact ⟨[c], splitLines t, rfl, nofun, fun hlines => by rw [hnil hlines]⟩
    next =>
      cases hsplit : splitLines t with
      | nil => exact ⟨[c], [], rfl, nofun, fun _ => by rw [hnil hsplit]⟩
      | cons line lines =>
        refine ⟨c :: line, lines, rfl, nofun, fun hlines => congrArg (c :: ·) ?_⟩
        have hne : t ≠ [] := by
          rintro rfl
          cases hsplit
        obtain ⟨line', lines', hcons, -, hline⟩ := ih hne
        rw [hsplit] at hcons
        cases hcons
        exact hline hlines

/-- A string is shown as one between quotes, or broken into several. -/
theorem formatPrimitive_cases (indentationLvl : Nat) {value : Units} (h : value ≠ []) :
    formatPrimitive indentationLvl value = strEscape value ∨
      ∃ line rest, line ≠ [] ∧ formatPrimitive indentationLvl value =
        strEscape line ++ 32 :: rest := by
  unfold formatPrimitive
  split
  next =>
    obtain ⟨line, lines, hlines, hne, hone⟩ := exists_splitLines h
    rw [hlines, List.map_cons]
    cases lines with
    | nil => rw [hone rfl]; exact .inl (List.intercalate_singleton ..)
    | cons line' lines =>
      rw [List.map_cons, List.intercalate_cons_cons]
      exact .inr ⟨line, _, hne, by rw [List.append_assoc]; rfl⟩
  next => exact .inl rfl

theorem LogLine.value_length (line : LogLine) (v : Secret) : 2 < (line.value v).length := by
  cases line with
  | stringify l =>
    have hpos := List.length_pos_iff.mpr (escapeWith_ne_nil escapeJson_ne_nil v.ne_nil)
    have hlength : ((LogLine.stringify l).value v).length =
        (34 :: escapeWith escapeJson v.value ++ [34]).length := rfl
    rw [hlength, List.length_append, List.length_cons, List.length_singleton]
    omega
  | format l =>
    obtain hvalue | ⟨s, rest, hne, hvalue⟩ := formatPrimitive_cases (2 * l.frames.length) v.ne_nil
    · exact (strEscape_length v.ne_nil).trans_eq (congrArg List.length hvalue).symm
    · have hlength := congrArg List.length hvalue
      rw [List.length_append] at hlength
      exact ((strEscape_length hne).trans_le (Nat.le_add_right _ _)).trans_eq hlength.symm

theorem LogLine.separator_quote (line : LogLine) : isSeparator line.quote = true := by
  cases line with
  | _ => rfl

/-- The redaction of an unbroken value. -/
theorem replaceSecrets_unbroken {line : LogLine} {v : Secret} (hv : line.Unbroken v)
    (around : line.Around (line.layout v)) :
    replaceSecrets (line.text v) = replaceSecrets (around.lead ++ [around.last]) ++ (around.blank ++
      (line.field.name ++ (line.colon ++ [line.quote]) ++ redacted ++
        replaceSecrets (line.quote :: around.rest))) := by
  obtain ⟨inner, hvalue, hinner⟩ := hv
  have hne : inner ≠ [] := by
    rintro rfl
    have hlength := line.value_length v
    rw [hvalue] at hlength
    exact absurd hlength (lt_irrefl 2)
  rw [around.text_eq v rfl,
    replaceSecrets_lead around.last_mem around.blank_ne_nil around.separators around.skipped,
    ← replaceSecrets_field (keyword_quote line) hne hinner line.separator_quote, hvalue]
  simp only [List.append_assoc, List.cons_append, List.nil_append]

theorem redactRuntimeLog_unbroken {line : LogLine} {v w : Secret} (hv : line.Unbroken v)
    (hw : line.Unbroken w)
    (hlayout : line.layout v = line.layout w) :
    redactRuntimeLog (line.text v) = redactRuntimeLog (line.text w) := by
  obtain ⟨around⟩ := line.exists_around w
  have hv := fun around => replaceSecrets_unbroken hv around
  rw [hlayout] at hv
  rw [redactRuntimeLog, hv around, ← replaceSecrets_unbroken hw around, redactRuntimeLog]

/-! ## What is not hidden -/

theorem isSeparator_redacted : ∀ c ∈ redacted, isSeparator c = false := by decide

/-- The separators of a text stay, in their order. -/
theorem replaceSecrets_separators (message : Units) :
    (replaceSecrets message).filter isSeparator = message.filter isSeparator :=
  Pattern.replaceAll_filter isSeparator_redacted (fun _ h => Bool.not_eq_true' _ ▸ h) message

/-- Only the quotes around it are separators. -/
theorem unbroken_of_filter {p q : UInt16} {t : Units} (hq : isSeparator q = true)
    (h : (q :: t ++ [q]).filter isSeparator = [p, p]) : q = p ∧ ∀ c ∈ t, isSeparator c = false := by
  rw [List.cons_append, List.filter_cons_of_pos hq, List.filter_append] at h
  obtain ⟨rfl, h⟩ := List.cons.inj h
  rw [List.filter_cons_of_pos hq, List.filter_nil, List.append_left_eq_self] at h
  exact ⟨rfl, fun c hc => Bool.eq_false_iff.mpr (List.filter_eq_nil_iff.mp h c hc)⟩

theorem inspectQuote_cases (value : Units) :
    inspectQuote value = 39 ∨ inspectQuote value = 34 ∨ (inspectQuote value = 96 ∧ 34 ∈ value) := by
  unfold inspectQuote
  split
  next => exact .inl rfl
  next =>
    split
    next => exact .inr (.inl rfl)
    next hdouble =>
      split
      next => exact .inr (.inr ⟨rfl, not_not.mp hdouble⟩)
      next => exact .inl rfl

theorem escapeInspect_double : escapeInspect 96 34 = [34] := by decide

/-- A value without separators of its own is unbroken. -/
theorem strEscape_separators {value : Units} (h : (strEscape value).filter isSeparator = [39, 39]) :
    ∃ inner, strEscape value = 39 :: inner ++ [39] ∧ ∀ c ∈ inner, isSeparator c = false := by
  unfold strEscape at h ⊢
  obtain hq | hq | ⟨hq, hmem⟩ := inspectQuote_cases value
  · rw [hq] at h ⊢
    exact ⟨_, rfl, (unbroken_of_filter rfl h).2⟩
  · rw [hq] at h
    exact absurd (unbroken_of_filter rfl h).1 (by decide)
  · -- between backticks there is a double quote, and it is shown
    rw [hq] at h
    have hdouble : 34 ∈ escapeWith (escapeInspect 96) value :=
      mem_escapeWith (by rw [escapeInspect_double]; exact List.mem_singleton_self _) hmem
    have hfilter : (34 : UInt16) ∈ [39, 39] :=
      h ▸ List.mem_filter.mpr ⟨List.mem_append_left _ (List.mem_cons_of_mem _ hdouble), rfl⟩
    exact absurd hfilter (by decide)

theorem LogLine.unbroken_of_separators {line : LogLine} {v : Secret}
    (h : (line.value v).filter isSeparator = [line.quote, line.quote]) : line.Unbroken v := by
  cases line with
  | stringify l => exact ⟨escapeWith escapeJson v.value, rfl, (unbroken_of_filter rfl h).2⟩
  | format l =>
    have hshown : (formatPrimitive (2 * l.frames.length) v.value).filter isSeparator = [39, 39] := h
    obtain hvalue | ⟨s, rest, -, hvalue⟩ := formatPrimitive_cases (2 * l.frames.length) v.ne_nil
    · rw [hvalue] at hshown
      obtain ⟨inner, hinner, hall⟩ := strEscape_separators hshown
      exact ⟨inner, hvalue.trans hinner, hall⟩
    · have hblank : (32 : UInt16) ∈ [39, 39] := by
        rw [← hshown, hvalue]
        exact List.mem_filter.mpr ⟨List.mem_append_right _ List.mem_cons_self, by decide⟩
      exact absurd hblank (by decide)

/-! ## Unbroken values of JSON -/

theorem mem_hexDigits {digits : Units} {k n : Nat} {c : UInt16} (h : c ∈ hexDigits digits k n) :
    c ∈ digits ∨ c = 48 := by
  induction k generalizing n with
  | zero => cases h
  | succ k ih =>
    rcases List.mem_append.mp h with h | h
    · exact ih h
    · rw [List.mem_singleton.mp h, List.getD_eq_getElem?_getD]
      cases hdigit : digits[n % 16]? with
      | none => exact .inr rfl
      | some d => exact .inl (List.mem_of_getElem? hdigit)

/-- An escape in hexadecimal digits has no separators. -/
theorem unicodeEscape_unbroken (n : Nat) :
    ∀ d ∈ units "\\u" ++ hexDigits lowerDigits 4 n, isSeparator d = false := by
  have hdigits : ∀ d ∈ lowerDigits, isSeparator d = false := by decide
  have hstart : ∀ d ∈ units "\\u", isSeparator d = false := by decide
  intro d hd
  rcases List.mem_append.mp hd with hd | hd
  · exact hstart d hd
  · rcases mem_hexDigits hd with hd | rfl
    · exact hdigits d hd
    · decide

theorem isSeparator_of_surrogate {c : UInt16} (h : isHighSurrogate c ∨ isLowSurrogate c) :
    isSeparator c = false := by
  have hnat : 0xD800 ≤ c.toNat ∧ c.toNat < 0xE000 := by
    simp only [isHighSurrogate, isLowSurrogate, Bool.and_eq_true, decide_eq_true_eq,
      UInt16.le_iff_toNat_le] at h
    rcases h with ⟨hle, hge⟩ | ⟨hle, hge⟩
    · exact ⟨hle, lt_of_le_of_lt hge (by decide)⟩
    · exact ⟨le_trans (by decide) hle, Nat.lt_succ_of_le hge⟩
  have hspace : isSpace c = false := by
    have hinvalid : ¬ c.toNat.isValidChar := by
      rintro (hlt | hlt)
      · exact absurd hnat.1 (not_le.mpr hlt)
      · omega
    rw [isSpace, Char.ofNat, dif_neg hinvalid]
    decide
  have hne : ∀ d : UInt16, d.toNat < 0xD800 → decide (c = d) = false := by
    rintro d hd
    refine decide_eq_false ?_
    rintro rfl
    exact absurd hnat.1 (not_le.mpr hd)
  rw [isSeparator, isQuote, hspace, hne 34 (by decide), hne 39 (by decide), hne 44 (by decide),
    hne 125 (by decide)]
  rfl

theorem escapeCommon_unbroken {c : UInt16} {escaped : Units} (h : escapeCommon c = some escaped) :
    (∀ d ∈ escaped, isSeparator d = false) ∧ (isSeparator c = true → c < 32) := by
  unfold escapeCommon at h
  repeat' split at h
  all_goals cases h
  case isFalse.isFalse.isFalse.isFalse.isFalse.isFalse.isTrue hc =>
    refine ⟨unicodeEscape_unbroken _, fun h => ?_⟩
    rw [isSeparator_of_surrogate hc] at h
    cases h
  all_goals (subst c; decide)

/-- An escaped code unit shows a separator only if it is one, and no control character. -/
theorem escapeJson_unbroken (c : UInt16) :
    (∀ d ∈ escapeJson c, isSeparator d = false) ↔ (isSeparator c = true → c < 32) := by
  unfold escapeJson
  split
  next hc => subst hc; decide
  next =>
    cases hcommon : escapeCommon c with
    | some escaped =>
      obtain ⟨hescaped, hc⟩ := escapeCommon_unbroken hcommon
      exact ⟨fun _ => hc, fun _ => hescaped⟩
    | none =>
      rw [Option.getD_none]
      split
      next hlt => exact ⟨fun _ _ => hlt, fun _ => unicodeEscape_unbroken _⟩
      next hge =>
        rw [List.forall_mem_singleton]
        constructor
        · intro hc h
          rw [hc] at h
          cases h
        · exact fun h => Bool.eq_false_iff.mpr fun hc => hge (h hc)

theorem escapeWith_unbroken {escape : UInt16 → Units}
    (h : ∀ c, isHighSurrogate c ∨ isLowSurrogate c → ∀ d ∈ escape c, isSeparator d = false)
    (t : Units) :
    (∀ d ∈ escapeWith escape t, isSeparator d = false) ↔
      ∀ c ∈ t, ∀ d ∈ escape c, isSeparator d = false := by
  induction t using escapeWith.induct with
  | case1 => exact ⟨fun _ => nofun, fun _ => nofun⟩
  | case2 c => simp [escapeWith]
  | case3 c d t hpair ih =>
    have hc := isSeparator_of_surrogate (.inl hpair.1)
    have hd := isSeparator_of_surrogate (.inr hpair.2)
    rw [escapeWith, if_pos hpair, List.forall_mem_cons, List.forall_mem_cons, ih,
      List.forall_mem_cons, List.forall_mem_cons]
    exact ⟨fun ⟨_, _, ht⟩ => ⟨h c (.inl hpair.1), h d (.inr hpair.2), ht⟩,
      fun ⟨_, _, ht⟩ => ⟨hc, hd, ht⟩⟩
  | case4 c d t hpair ih =>
    rw [escapeWith, if_neg hpair, List.forall_mem_append, ih, List.forall_mem_cons (a := c)]

/-- In JSON a value is unbroken if its quotes, commas, closing braces and white space, if any, are
control characters. -/
theorem JsonLine.unbroken_iff (l : JsonLine) (v : Secret) :
    (LogLine.stringify l).Unbroken v ↔ ∀ c ∈ v.value, isSeparator c = true → c < 32 := by
  have hsurrogates : ∀ c, isHighSurrogate c ∨ isLowSurrogate c →
      ∀ d ∈ escapeJson c, isSeparator d = false := by
    intro c hc
    exact (escapeJson_unbroken c).mpr fun h => by rw [isSeparator_of_surrogate hc] at h; cases h
  have hvalue : (∀ d ∈ escapeWith escapeJson v.value, isSeparator d = false) ↔
      ∀ c ∈ v.value, isSeparator c = true → c < 32 := by
    simp only [escapeWith_unbroken hsurrogates, escapeJson_unbroken]
  rw [← hvalue]
  constructor
  · rintro ⟨inner, heq, hinner⟩
    obtain rfl : escapeWith escapeJson v.value = inner :=
      List.append_cancel_right (List.cons.inj heq).2
    exact hinner
  · exact fun hinner => ⟨_, rfl, hinner⟩

/-- The separators of the whole text tell the layout and whether the value is unbroken. -/
theorem unbroken_of_separators_eq {line : LogLine} {v w : Secret} (hw : line.Unbroken w)
    (h : (line.text v).filter isSeparator = (line.text w).filter isSeparator) :
    line.Unbroken v ∧ line.layout v = line.layout w := by
  have hlayout : line.layout v = line.layout w := by
    refine LogLine.layout_eq ?_
    have hnewline : isSeparator 10 = true := by decide
    rw [← List.count_filter hnewline, h, List.count_filter hnewline]
  obtain ⟨around⟩ := line.exists_around w
  have hvalue : (line.value v).filter isSeparator = (line.value w).filter isSeparator := by
    obtain ⟨a, ha⟩ := around.exists_append
    rw [ha v hlayout, ha w rfl] at h
    simp only [List.filter_append] at h
    exact List.append_cancel_left (List.append_cancel_right h)
  refine ⟨LogLine.unbroken_of_separators ?_, hlayout⟩
  obtain ⟨inner, hw, hinner⟩ := hw
  have hnil : inner.filter isSeparator = [] :=
    List.filter_eq_nil_iff.mpr fun c hc => Bool.eq_false_iff.mp (hinner c hc)
  rw [hvalue, hw, List.filter_append, List.filter_cons_of_pos line.separator_quote, hnil,
    List.filter_cons_of_pos line.separator_quote]
  rfl

/-- The redacted text is not cut off. -/
def Fits (message : Units) : Prop := (replaceSecrets message).length ≤ 4000

/-- The value that a text stands for. -/
def Secret.ofString (s : String) (h : units s ≠ [] ∧ (units s).length ≤ 512) : Secret :=
  ⟨units s, h.1, h.2⟩

/-- `JSON.stringify({ password })`. -/
def passwordLine : LogLine := .stringify { field := .password }

def firstKey : Secret := .ofString "k3y-1" (by decide)

def secondKey : Secret := .ofString "k3y-2" (by decide)

end Tonatiuh.Logs
