import Mathlib
import Tonatiuh.Text.Delimited

/-! Percent-encoding, and the paths of URLs.

`encodeURIComponent` is that of JavaScript, on UTF-16 code units. The path state is that of the URL
standard for URLs with a special scheme other than `file`: it splits what follows the authority at
`/` and `\`, up to a `?` or a `#`, and takes out the segments that are dots. -/

namespace Tonatiuh.Url

/-! ## UTF-16 and UTF-8 -/

def isLeadSurrogate (u : UInt16) : Bool := 0xD800 ≤ u && u ≤ 0xDBFF

def isTrailSurrogate (u : UInt16) : Bool := 0xDC00 ≤ u && u ≤ 0xDFFF

/-- The characters of a string, if each surrogate has its other half. -/
def decodeUtf16 : List UInt16 → Option (List Char)
  | [] => some []
  | [u] => if isLeadSurrogate u || isTrailSurrogate u then none else some [.ofNat u.toNat]
  | u :: v :: us =>
    if isLeadSurrogate u then
      if isTrailSurrogate v then
        (decodeUtf16 us).map
          (.ofNat (0x10000 + (u.toNat - 0xD800) * 0x400 + (v.toNat - 0xDC00)) :: ·)
      else none
    else if isTrailSurrogate u then none
    else (decodeUtf16 (v :: us)).map (.ofNat u.toNat :: ·)

def utf8 (t : List Char) : List UInt8 := t.flatMap String.utf8EncodeChar

/-! ## Percent-encoding -/

def upperHexDigit (n : Nat) : Char := "0123456789ABCDEF".toList.getD n '0'

def percentEncodeByte (b : UInt8) : List Char :=
  ['%', upperHexDigit (b.toNat / 16), upperHexDigit (b.toNat % 16)]

def percentEncodeChar (c : Char) : List Char := (String.utf8EncodeChar c).flatMap percentEncodeByte

/-- The bytes of a text in which `%` and two digits stand for a byte. -/
def percentDecode : List Char → List UInt8
  | [] => []
  | [c] => String.utf8EncodeChar c
  | [c, d] => String.utf8EncodeChar c ++ String.utf8EncodeChar d
  | c :: d :: e :: t =>
    match c == '%', Text.hexValue d, Text.hexValue e with
    | true, some x, some y => UInt8.ofNat (16 * x + y) :: percentDecode t
    | _, _, _ => String.utf8EncodeChar c ++ percentDecode (d :: e :: t)

/-- The letters and digits and `-_.!~*'()`. -/
def isUnescaped (c : Char) : Bool := c.isAlphanum || "-_.!~*'()".toList.contains c

def encodeChar (c : Char) : List Char := if isUnescaped c then [c] else percentEncodeChar c

/-- Without a result where a `URIError` is thrown. -/
def encodeURIComponent (value : List UInt16) : Option (List Char) :=
  (decodeUtf16 value).map (List.flatMap encodeChar)

/-! ## The path state -/

def backslash : Char := Char.ofNat 92

def graveAccent : Char := Char.ofNat 96

/-- The path percent-encode set. -/
def isPathEncoded (c : Char) : Bool :=
  c.toNat ≤ 0x20 || 0x7E < c.toNat ||
    ['"', '#', '<', '>', '?', '^', graveAccent, '{', '}'].contains c

def pathEncode (c : Char) : List Char := if isPathEncoded c then percentEncodeChar c else [c]

/-- `.` or `%2e`. -/
def isSingleDot : List Char → Bool
  | [c] => c == '.'
  | [c, d, e] => c == '%' && d == '2' && (e == 'e' || e == 'E')
  | _ => false

/-- Two of them. -/
def isDoubleDot (segment : List Char) : Bool :=
  (isSingleDot (segment.take 1) && isSingleDot (segment.drop 1)) ||
    (isSingleDot (segment.take 3) && isSingleDot (segment.drop 3))

/-- The path at the end of a segment, which is a slash or the end of the path. -/
def endSegment (path : List (List Char)) (segment : List Char) (slash : Bool) : List (List Char) :=
  if isDoubleDot segment then if slash then path.dropLast else path.dropLast ++ [[]]
  else if isSingleDot segment then if slash then path else path ++ [[]]
  else path ++ [segment]

def isSlash (c : Char) : Bool := c == '/' || c == backslash

def isPathEnd (c : Char) : Bool := c == '?' || c == '#'

/-- The path, and the query and fragment with the character that begins them. -/
def pathState (path : List (List Char)) (buffer : List Char) :
    List Char → List (List Char) × List Char
  | [] => (endSegment path buffer false, [])
  | c :: t =>
    if isSlash c then pathState (endSegment path buffer true) [] t
    else if isPathEnd c then (endSegment path buffer false, c :: t)
    else pathState path (buffer ++ pathEncode c) t

/-- The path start state. -/
def pathStartState : List Char → List (List Char) × List Char
  | [] => pathState [] [] []
  | c :: t => if isSlash c then pathState [] [] t else pathState [] [] (c :: t)

def isTabOrNewline (c : Char) : Bool := c.toNat == 9 || c.toNat == 10 || c.toNat == 13

/-- What the parser of URLs makes of the text after the authority. -/
def parsePath (t : List Char) : List (List Char) × List Char :=
  let t := (t.reverse.dropWhile fun c => c.toNat ≤ 0x20).reverse
  pathStartState (t.filter fun c => !isTabOrNewline c)

/-! ## Encoding and decoding -/

theorem utf8_injective : Function.Injective utf8 := fun t t' h => by
  have hencode : (String.ofList t).toByteArray = (String.ofList t').toByteArray := by
    rw [String.toByteArray_ofList, String.toByteArray_ofList]
    exact congrArg List.toByteArray h
  exact String.ofList_injective (String.toByteArray_inj.mp hencode)

theorem decodeUtf16_nil {value : List UInt16} (h : decodeUtf16 value = some []) : value = [] := by
  fun_cases decodeUtf16 value <;> simp_all [decodeUtf16]

theorem ofNat_eq_dot {n : Nat} (h : Char.ofNat n = '.') : n = 46 := by
  have hnat := congrArg Char.toNat h
  unfold Char.ofNat at hnat
  split at hnat
  · exact hnat
  · exact absurd hnat (by decide)

/-- A dot is a code unit of its own. -/
theorem decodeUtf16_dot {value : List UInt16} {t : List Char}
    (h : decodeUtf16 value = some ('.' :: t)) :
    ∃ rest, value = 46 :: rest ∧ decodeUtf16 rest = some t := by
  revert h
  fun_cases decodeUtf16 value with
  | case1 => exact fun h => nomatch h
  | case2 => exact fun h => nomatch h
  | case3 u =>
    intro h
    obtain ⟨hu, rfl⟩ := List.cons.inj (Option.some.inj h)
    have hu : u = 46 := UInt16.toNat_inj.mp (ofNat_eq_dot hu)
    exact ⟨[], by rw [hu], rfl⟩
  | case4 u v us hlead htrail =>
    intro h
    obtain ⟨rest, -, heq⟩ := Option.map_eq_some_iff.mp h
    have hnat := ofNat_eq_dot (List.cons.inj heq).1
    omega
  | case5 => exact fun h => nomatch h
  | case6 => exact fun h => nomatch h
  | case7 u v us =>
    intro h
    obtain ⟨rest, hrest, heq⟩ := Option.map_eq_some_iff.mp h
    obtain ⟨hu, rfl⟩ := List.cons.inj heq
    have hu : u = 46 := UInt16.toNat_inj.mp (ofNat_eq_dot hu)
    exact ⟨v :: us, by rw [hu], hrest⟩

theorem decodeUtf16_eq_dot {value : List UInt16} :
    decodeUtf16 value = some ['.'] ↔ value = [46] := by
  constructor
  · intro h
    obtain ⟨rest, rfl, hrest⟩ := decodeUtf16_dot h
    rw [decodeUtf16_nil hrest]
  · rintro rfl
    rfl

theorem decodeUtf16_eq_dots {value : List UInt16} :
    decodeUtf16 value = some ['.', '.'] ↔ value = [46, 46] := by
  constructor
  · intro h
    obtain ⟨rest, rfl, hrest⟩ := decodeUtf16_dot h
    rw [decodeUtf16_eq_dot.mp hrest]
  · rintro rfl
    rfl

theorem hexValue_upperHexDigit : ∀ n < 16, Text.hexValue (upperHexDigit n) = some n := by decide

theorem percentDecode_encodeByte (b : UInt8) (t : List Char) :
    percentDecode (percentEncodeByte b ++ t) = b :: percentDecode t := by
  have hb : b.toNat < 256 := b.toNat_lt
  have hhigh := hexValue_upperHexDigit (b.toNat / 16) (by omega)
  have hlow := hexValue_upperHexDigit (b.toNat % 16) (by omega)
  have hjoin : 16 * (b.toNat / 16) + b.toNat % 16 = b.toNat := Nat.div_add_mod ..
  simp [percentEncodeByte, percentDecode, hhigh, hlow, hjoin]

theorem percentDecode_encodeBytes (bytes : List UInt8) (t : List Char) :
    percentDecode (bytes.flatMap percentEncodeByte ++ t) = bytes ++ percentDecode t := by
  induction bytes with
  | nil => rfl
  | cons b bytes ih =>
    rw [List.flatMap_cons, List.append_assoc, percentDecode_encodeByte, ih, List.cons_append]

theorem percentDecode_cons {c : Char} (hc : c ≠ '%') (t : List Char) :
    percentDecode (c :: t) = String.utf8EncodeChar c ++ percentDecode t := by
  match t with
  | [] => simp [percentDecode]
  | [d] => simp [percentDecode]
  | d :: e :: t =>
    rw [percentDecode, beq_false_of_ne hc]

theorem percent_not_isUnescaped : isUnescaped '%' = false := by decide

theorem percentDecode_encode (t : List Char) : percentDecode (t.flatMap encodeChar) = utf8 t := by
  induction t with
  | nil => rfl
  | cons c t ih =>
    rw [List.flatMap_cons, encodeChar]
    split
    next hc =>
      have hne : c ≠ '%' :=
        fun heq => absurd hc (by rw [heq, percent_not_isUnescaped]; exact Bool.false_ne_true)
      rw [List.singleton_append, percentDecode_cons hne, ih]
      rfl
    next => rw [percentEncodeChar, percentDecode_encodeBytes, ih]; rfl

theorem encodeURIComponent_eq {value : List UInt16} {encoded : List Char} :
    encodeURIComponent value = some encoded ↔
    ∃ t, decodeUtf16 value = some t ∧ t.flatMap encodeChar = encoded :=
  Option.map_eq_some_iff

/-! ## Segments that are dots -/

theorem percentDecode_singleDot {segment : List Char} (h : isSingleDot segment) :
    percentDecode segment = [46] := by
  match segment, h with
  | [c], h =>
    rw [show c = '.' from eq_of_beq h]
    rfl
  | [c, d, e], h =>
    simp only [isSingleDot, Bool.and_eq_true, Bool.or_eq_true, beq_iff_eq] at h
    obtain ⟨⟨rfl, rfl⟩, rfl | rfl⟩ := h <;> rfl

theorem percentDecode_append_singleDot {dot t : List Char} (h : isSingleDot dot) :
    percentDecode (dot ++ t) = 46 :: percentDecode t := by
  match dot, h with
  | [c], h =>
    rw [show c = '.' from eq_of_beq h, List.singleton_append, percentDecode_cons (by decide)]
    rfl
  | [c, d, e], h =>
    simp only [isSingleDot, Bool.and_eq_true, Bool.or_eq_true, beq_iff_eq] at h
    obtain ⟨⟨rfl, rfl⟩, rfl | rfl⟩ := h <;> rfl

theorem percentDecode_doubleDot {segment : List Char} (h : isDoubleDot segment) :
    percentDecode segment = [46, 46] := by
  rcases Bool.or_eq_true_iff.mp h with h | h
  all_goals
    obtain ⟨hfirst, hsecond⟩ := Bool.and_eq_true_iff.mp h
    rw [← List.take_append_drop _ segment, percentDecode_append_singleDot hfirst,
      percentDecode_singleDot hsecond]

/-- The only character whose encoding begins with this byte is the dot. -/
theorem utf8EncodeChar_eq_dot {c : Char} {t bytes : List UInt8}
    (h : String.utf8EncodeChar c ++ t = 46 :: bytes) :
    c = '.' ∧ t = bytes := by
  have hdecode (c : Char) (t : List UInt8) :
      (String.utf8EncodeChar c ++ t).toByteArray.utf8DecodeChar? 0 = some c := by
    rw [List.toByteArray_append]
    exact ByteArray.utf8DecodeChar?_utf8EncodeChar_append
  have hc : c = '.' := by
    have hdot := hdecode '.' bytes
    rw [show String.utf8EncodeChar '.' ++ bytes = 46 :: bytes from rfl, ← h, hdecode] at hdot
    exact Option.some.inj hdot
  rw [hc] at h
  exact ⟨hc, (List.cons.inj h).2⟩

theorem hexValue_toNat {c : Char} {n : Nat} (h : Text.hexValue c = some n) :
    c.toNat = 48 + n ∧ n < 10 ∨ (c.toNat = 87 + n ∨ c.toNat = 55 + n) ∧ 10 ≤ n ∧ n < 16 := by
  have hdigit : c.isDigit = true ↔ 48 ≤ c.toNat ∧ c.toNat ≤ 57 := by
    rw [Char.isDigit, Bool.and_eq_true, decide_eq_true_eq, decide_eq_true_eq]
    exact and_congr UInt32.le_iff_toNat_le UInt32.le_iff_toNat_le
  have hle (d : Char) : d ≤ c ↔ d.toNat ≤ c.toNat := UInt32.le_iff_toNat_le
  have hge (d : Char) : c ≤ d ↔ c.toNat ≤ d.toNat := UInt32.le_iff_toNat_le
  simp only [Text.hexValue, hdigit, hle, hge] at h
  split at h
  next hc =>
    have hn : c.toNat - 48 = n := Option.some.inj h
    omega
  next =>
    split at h
    next hc =>
      have hn : c.toNat - 97 + 10 = n := Option.some.inj h
      have hc : 97 ≤ c.toNat ∧ c.toNat ≤ 102 := hc
      omega
    next =>
      split at h
      next hc =>
        have hn : c.toNat - 65 + 10 = n := Option.some.inj h
        have hc : 65 ≤ c.toNat ∧ c.toNat ≤ 70 := hc
        omega
      next => exact nomatch h

theorem hexDigits_dot {d e : Char} {x y : Nat} (hd : Text.hexValue d = some x)
    (he : Text.hexValue e = some y)
    (h : UInt8.ofNat (16 * x + y) = 46) : d = '2' ∧ (e = 'e' ∨ e = 'E') := by
  have hnat : (16 * x + y) % 256 = 46 := (UInt8.toNat_ofNat' ..).symm.trans (congrArg UInt8.toNat h)
  have hd := hexValue_toNat hd
  have he := hexValue_toNat he
  have heq (a b : Char) (h : a.toNat = b.toNat) : a = b := Char.ext (UInt32.toNat_inj.mp h)
  refine ⟨heq _ _ (show d.toNat = 50 by omega), ?_⟩
  rcases (show e.toNat = 101 ∨ e.toNat = 69 by omega) with hy | hy
  · exact .inl (heq _ _ hy)
  · exact .inr (heq _ _ hy)

/-- Text that decodes to a dot first begins with a dot, written in one of the two ways. -/
theorem percentDecode_eq_dot {t : List Char} {bytes : List UInt8}
    (h : percentDecode t = 46 :: bytes) :
    ∃ dot rest, t = dot ++ rest ∧ isSingleDot dot ∧ percentDecode rest = bytes := by
  revert h
  fun_cases percentDecode t with
  | case1 => exact fun h => nomatch h
  | case2 c =>
    intro h
    obtain ⟨rfl, rfl⟩ := utf8EncodeChar_eq_dot (t := []) ((List.append_nil _).trans h)
    exact ⟨['.'], [], rfl, rfl, rfl⟩
  | case3 c d =>
    intro h
    obtain ⟨rfl, rfl⟩ := utf8EncodeChar_eq_dot h
    exact ⟨['.'], [d], rfl, rfl, rfl⟩
  | case4 c d e t x y he hd hc =>
    intro h
    obtain ⟨hbyte, rfl⟩ := List.cons.inj h
    obtain ⟨rfl, rfl | rfl⟩ := hexDigits_dot hd he hbyte
    · exact ⟨[c, '2', 'e'], t, rfl, by simp [isSingleDot, hc], rfl⟩
    · exact ⟨[c, '2', 'E'], t, rfl, by simp [isSingleDot, hc], rfl⟩
  | case5 c d e t =>
    intro h
    obtain ⟨rfl, rfl⟩ := utf8EncodeChar_eq_dot h
    exact ⟨['.'], d :: e :: t, rfl, rfl, rfl⟩

theorem percentDecode_nil {t : List Char} (h : percentDecode t = []) : t = [] := by
  fun_cases percentDecode t <;> simp_all [percentDecode]

theorem isSingleDot_of_decode {segment : List Char} (h : percentDecode segment = [46]) :
    isSingleDot segment := by
  obtain ⟨dot, rest, rfl, hdot, hrest⟩ := percentDecode_eq_dot h
  rw [percentDecode_nil hrest, List.append_nil]
  exact hdot

theorem isDoubleDot_of_decode {segment : List Char} (h : percentDecode segment = [46, 46]) :
    isDoubleDot segment := by
  obtain ⟨dot, rest, rfl, hdot, hrest⟩ := percentDecode_eq_dot h
  have hrest := isSingleDot_of_decode hrest
  match dot, hdot with
  | [c], hdot => exact Bool.or_eq_true_iff.mpr (.inl (Bool.and_eq_true_iff.mpr ⟨hdot, hrest⟩))
  | [c, d, e], hdot => exact Bool.or_eq_true_iff.mpr (.inr (Bool.and_eq_true_iff.mpr ⟨hdot, hrest⟩))

/-! ## Characters of segments -/

/-- The characters that an encoded component is made of. -/
def isSegmentChar (c : Char) : Bool := isUnescaped c || c == '%'

theorem isSegmentChar_ne {c d : Char} (hc : isSegmentChar c) (hd : isSegmentChar d = false) :
    c ≠ d := fun heq =>
  absurd (heq ▸ hc) (hd ▸ Bool.false_ne_true)

theorem isSegmentChar_toNat {c : Char} (h : isSegmentChar c) : 0x20 < c.toNat ∧ c.toNat ≤ 0x7E := by
  simp only [isSegmentChar, isUnescaped, Char.isAlphanum, Char.isAlpha, Char.isUpper, Char.isLower,
    Char.isDigit, Bool.or_eq_true, Bool.and_eq_true, decide_eq_true_eq, beq_iff_eq,
    UInt32.le_iff_toNat_le, ge_iff_le] at h
  rcases h with (((⟨hlow, hhigh⟩ | ⟨hlow, hhigh⟩) | ⟨hlow, hhigh⟩) | hmem) | rfl
  · exact ⟨Nat.lt_of_lt_of_le (by decide) hlow, Nat.le_trans hhigh (by decide)⟩
  · exact ⟨Nat.lt_of_lt_of_le (by decide) hlow, Nat.le_trans hhigh (by decide)⟩
  · exact ⟨Nat.lt_of_lt_of_le (by decide) hlow, Nat.le_trans hhigh (by decide)⟩
  · have hmarks : "-_.!~*'()".toList.all fun d => decide (0x20 < d.toNat ∧ d.toNat ≤ 0x7E) := by
      decide
    exact of_decide_eq_true (List.all_eq_true.mp hmarks c (List.contains_iff_mem.mp hmem))
  · decide

theorem isSegmentChar_not_isSlash {c : Char} (h : isSegmentChar c) : isSlash c = false := by
  rw [isSlash, beq_false_of_ne (isSegmentChar_ne h (by decide)),
    beq_false_of_ne (isSegmentChar_ne h (by decide)), Bool.or_false]

theorem isSegmentChar_not_isPathEnd {c : Char} (h : isSegmentChar c) : isPathEnd c = false := by
  rw [isPathEnd, beq_false_of_ne (isSegmentChar_ne h (by decide)),
    beq_false_of_ne (isSegmentChar_ne h (by decide)), Bool.or_false]

theorem isSegmentChar_pathEncode {c : Char} (h : isSegmentChar c) : pathEncode c = [c] := by
  have hset : ['"', '#', '<', '>', '?', '^', graveAccent, '{',
      '}'].all (fun d => !isSegmentChar d) = true := by decide
  have hmem : c ∉ ['"', '#', '<', '>', '?', '^', graveAccent, '{', '}'] := fun hmem => by
    have hnot := List.all_eq_true.mp hset c hmem
    rw [h] at hnot
    exact Bool.false_ne_true hnot
  have hrange := isSegmentChar_toNat h
  have hencoded : ¬isPathEncoded c := by
    simp only [isPathEncoded, Bool.or_eq_true, decide_eq_true_eq, List.contains_iff_mem, not_or]
    exact ⟨⟨by omega, by omega⟩, hmem⟩
  rw [pathEncode, if_neg hencoded]

theorem isSegmentChar_upperHexDigit : ∀ n < 16, isSegmentChar (upperHexDigit n) := by decide

theorem isSegmentChar_encodeByte {b : UInt8} {c : Char} (h : c ∈ percentEncodeByte b) :
    isSegmentChar c := by
  have hb : b.toNat < 256 := b.toNat_lt
  rcases List.mem_cons.mp h with rfl | h
  · rfl
  rcases List.mem_cons.mp h with rfl | h
  · exact isSegmentChar_upperHexDigit _ (by omega)
  · rw [List.mem_singleton.mp h]
    exact isSegmentChar_upperHexDigit _ (by omega)

theorem isSegmentChar_encodeURIComponent {value : List UInt16} {encoded : List Char}
    (h : encodeURIComponent value = some encoded) {c : Char} (hc : c ∈ encoded) :
    isSegmentChar c := by
  obtain ⟨t, -, rfl⟩ := encodeURIComponent_eq.mp h
  obtain ⟨d, -, hd⟩ := List.mem_flatMap.mp hc
  rw [encodeChar] at hd
  split at hd
  next hunescaped =>
    rw [List.mem_singleton.mp hd]
    exact Bool.or_eq_true_iff.mpr (.inl hunescaped)
  next =>
    obtain ⟨b, -, hb⟩ := List.mem_flatMap.mp hd
    exact isSegmentChar_encodeByte hb

/-! ## Runs of the path state -/

theorem pathState_chunk {chunk : List Char} (h : ∀ c ∈ chunk, isSegmentChar c)
    (path : List (List Char))
    (buffer t : List Char) : pathState path buffer (chunk ++ t) =
      pathState path (buffer ++ chunk) t := by
  induction chunk generalizing buffer with
  | nil => simp
  | cons c chunk ih =>
    have hc := h c List.mem_cons_self
    rw [List.cons_append, pathState, isSegmentChar_not_isSlash hc, isSegmentChar_not_isPathEnd hc,
      isSegmentChar_pathEncode hc]
    simp only [Bool.false_eq_true, ↓reduceIte]
    rw [ih fun d hd => h d (List.mem_cons_of_mem _ hd), List.append_assoc, List.singleton_append]

theorem pathState_slash (path : List (List Char)) (buffer t : List Char) :
    pathState path buffer ('/' :: t) = pathState (endSegment path buffer true) [] t := by
  rw [pathState, if_pos (by decide)]

theorem endSegment_of_not_dots {segment : List Char} (hsingle : isSingleDot segment = false)
    (hdouble : isDoubleDot segment = false) (path : List (List Char)) (slash : Bool) :
    endSegment path segment slash = path ++ [segment] := by
  rw [endSegment, if_neg (by simp [hdouble]), if_neg (by simp [hsingle])]

/-- A segment that the path state reads as it is written. -/
structure IsPlain (segment : List Char) : Prop where
  chars : ∀ c ∈ segment, isSegmentChar c
  not_singleDot : isSingleDot segment = false
  not_doubleDot : isDoubleDot segment = false

def pathText (segments : List (List Char)) : List Char := segments.flatMap ('/' :: ·)

theorem pathState_segments {segments : List (List Char)} (h : ∀ segment ∈ segments, IsPlain segment)
    (path : List (List Char)) (segment : List Char) (hsegment : IsPlain segment) :
    pathState path [] (segment ++ pathText segments) = (path ++ segment :: segments, []) := by
  induction segments generalizing path segment with
  | nil =>
    rw [pathState_chunk hsegment.chars]
    simp only [pathText, List.flatMap_nil, pathState, List.nil_append]
    rw [endSegment_of_not_dots hsegment.not_singleDot hsegment.not_doubleDot]
  | cons next segments ih =>
    obtain ⟨hnext, h⟩ := List.forall_mem_cons.mp h
    rw [pathState_chunk hsegment.chars, pathText, List.flatMap_cons, List.nil_append,
      List.cons_append, pathState_slash,
      endSegment_of_not_dots hsegment.not_singleDot hsegment.not_doubleDot]
    rw [show segments.flatMap ('/' :: ·) = pathText segments from rfl, ih h _ next hnext,
      List.append_assoc, List.singleton_append]

/-- The segments of a path that a slash follows. -/
def leading (t : List Char) : List (List Char) := (pathStartState (t ++ ['/'])).1.dropLast

theorem pathState_after_slash {t : List Char} (h : ∀ c ∈ t, isPathEnd c = false)
    (path : List (List Char)) (buffer rest : List Char) :
    pathState path buffer (t ++ '/' :: rest) =
      pathState (pathState path buffer (t ++ ['/'])).1.dropLast [] rest := by
  induction t generalizing path buffer with
  | nil =>
    have hend (path : List (List Char)) : (pathState path [] []).1.dropLast = path := by
      simp [pathState, endSegment, isSingleDot, isDoubleDot]
    rw [List.nil_append, List.nil_append, pathState_slash, pathState_slash, hend]
  | cons c t ih =>
    obtain ⟨hc, h⟩ := List.forall_mem_cons.mp h
    rw [List.cons_append, List.cons_append, pathState, pathState, hc]
    split
    · exact ih h _ _
    · exact ih h _ _

theorem pathStartState_after_slash {t : List Char} (h : ∀ c ∈ t, isPathEnd c = false)
    (rest : List Char) :
    pathStartState (t ++ '/' :: rest) = pathState (leading t) [] rest := by
  cases t with
  | nil => rfl
  | cons c t =>
    rw [leading, List.cons_append, List.cons_append, pathStartState, pathStartState]
    split
    · exact pathState_after_slash (List.forall_mem_cons.mp h).2 [] [] rest
    · exact pathState_after_slash h [] [] rest

theorem endSegment_slash (path : List (List Char)) (segment : List Char) :
    endSegment path segment false = endSegment path segment true ∨
      endSegment path segment false = endSegment path segment true ++ [[]] := by
  unfold endSegment
  split
  · exact .inr rfl
  split
  · exact .inr rfl
  · exact .inl rfl

/-- Where the path ends before the slash, at most an empty segment is added. -/
theorem pathState_pathEnd {t : List Char} {e : Char} (h : ∀ c ∈ t, isPathEnd c = false)
    (he : isPathEnd e) (path : List (List Char)) (buffer rest : List Char) :
    (pathState path buffer (t ++ e :: rest)).1 = (pathState path buffer (t ++ ['/'])).1.dropLast ∨
      (pathState path buffer (t ++ e :: rest)).1 =
        (pathState path buffer (t ++ ['/'])).1.dropLast ++ [[]] := by
  induction t generalizing path buffer with
  | nil =>
    have hslash : isSlash e = false := by
      rcases Bool.or_eq_true_iff.mp he with he | he <;> rw [eq_of_beq he] <;> decide
    have hend (path : List (List Char)) : (pathState path [] []).1.dropLast = path := by
      simp [pathState, endSegment, isSingleDot, isDoubleDot]
    rw [List.nil_append, List.nil_append, pathState_slash, hend, pathState, hslash, he]
    exact endSegment_slash path buffer
  | cons c t ih =>
    obtain ⟨hc, h⟩ := List.forall_mem_cons.mp h
    rw [List.cons_append, List.cons_append, pathState, pathState, hc]
    split
    · exact ih h _ _
    · exact ih h _ _

theorem pathStartState_pathEnd {t : List Char} {e : Char} (h : ∀ c ∈ t, isPathEnd c = false)
    (he : isPathEnd e) (rest : List Char) :
    (pathStartState (t ++ e :: rest)).1 = leading t ∨
      (pathStartState (t ++ e :: rest)).1 = leading t ++ [[]] := by
  cases t with
  | nil =>
    have hslash : isSlash e = false := by
      rcases Bool.or_eq_true_iff.mp he with he | he <;> rw [eq_of_beq he] <;> decide
    rw [List.nil_append, pathStartState, hslash, if_neg Bool.false_ne_true, pathState, hslash, he]
    exact .inr rfl
  | cons c t =>
    rw [leading, List.cons_append, List.cons_append, pathStartState, pathStartState]
    split
    · exact pathState_pathEnd (List.forall_mem_cons.mp h).2 he [] [] rest
    · exact pathState_pathEnd h he [] [] rest

/-! ## A parsed path has no dots -/

def NoDots (path : List (List Char)) : Prop :=
  ∀ segment ∈ path, isSingleDot segment = false ∧ isDoubleDot segment = false

theorem NoDots.endSegment {path : List (List Char)} (h : NoDots path) (segment : List Char)
    (slash : Bool) :
    NoDots (endSegment path segment slash) := by
  have hempty : NoDots [[]] := List.forall_mem_singleton.mpr ⟨rfl, rfl⟩
  have hdropLast : NoDots path.dropLast := fun _ hs => h _ (List.dropLast_subset path hs)
  unfold Url.endSegment
  split
  next => split; exacts [hdropLast, List.forall_mem_append.mpr ⟨hdropLast, hempty⟩]
  next hdouble =>
  split
  next => split; exacts [h, List.forall_mem_append.mpr ⟨h, hempty⟩]
  next hsingle =>
  refine List.forall_mem_append.mpr ⟨h, List.forall_mem_singleton.mpr ⟨?_, ?_⟩⟩
  · exact Bool.eq_false_iff.mpr hsingle
  · exact Bool.eq_false_iff.mpr hdouble

theorem NoDots.pathState {path : List (List Char)} (h : NoDots path) (buffer t : List Char) :
    NoDots (pathState path buffer t).1 := by
  induction t generalizing path buffer with
  | nil => exact h.endSegment buffer false
  | cons c t ih =>
    rw [Url.pathState]
    split
    · exact ih (h.endSegment buffer true) []
    split
    · exact h.endSegment buffer false
    · exact ih h _

theorem noDots_parsePath (t : List Char) : NoDots (parsePath t).1 := by
  have hnil : NoDots [] := fun _ hs => absurd hs List.not_mem_nil
  rw [parsePath]
  unfold pathStartState
  split
  · exact hnil.pathState _ _
  split
  · exact hnil.pathState _ _
  · exact hnil.pathState _ _

/-! ## A parsed path split at its slashes -/

def NoSlashes (path : List (List Char)) : Prop := ∀ segment ∈ path, '/' ∉ segment

theorem NoSlashes.endSegment {path : List (List Char)} (h : NoSlashes path) {segment : List Char}
    (hsegment : '/' ∉ segment) (slash : Bool) : NoSlashes (endSegment path segment slash) := by
  have hempty : NoSlashes [[]] := List.forall_mem_singleton.mpr List.not_mem_nil
  have hdropLast : NoSlashes path.dropLast := fun _ hs => h _ (List.dropLast_subset path hs)
  unfold Url.endSegment
  split
  next => split; exacts [hdropLast, List.forall_mem_append.mpr ⟨hdropLast, hempty⟩]
  split
  next => split; exacts [h, List.forall_mem_append.mpr ⟨h, hempty⟩]
  next => exact List.forall_mem_append.mpr ⟨h, List.forall_mem_singleton.mpr hsegment⟩

theorem slash_not_mem_pathEncode {c : Char} (h : ¬isSlash c) : '/' ∉ pathEncode c := fun hmem => by
  rw [pathEncode] at hmem
  split at hmem
  next =>
    obtain ⟨b, -, hb⟩ := List.mem_flatMap.mp hmem
    exact absurd (isSegmentChar_encodeByte hb) (by decide)
  next =>
    rw [← List.mem_singleton.mp hmem] at h
    exact h (by decide)

theorem NoSlashes.pathState {path : List (List Char)} (h : NoSlashes path) {buffer : List Char}
    (hbuffer : '/' ∉ buffer) (t : List Char) : NoSlashes (pathState path buffer t).1 := by
  induction t generalizing path buffer with
  | nil => exact h.endSegment hbuffer false
  | cons c t ih =>
    rw [Url.pathState]
    split
    · exact ih (h.endSegment hbuffer true) List.not_mem_nil
    next hc =>
    split
    · exact h.endSegment hbuffer false
    · refine ih h fun hmem => ?_
      rcases List.mem_append.mp hmem with hmem | hmem
      · exact hbuffer hmem
      · exact slash_not_mem_pathEncode hc hmem

theorem noSlashes_parsePath (t : List Char) : NoSlashes (parsePath t).1 := by
  have hnil : NoSlashes [] := fun _ hs => absurd hs List.not_mem_nil
  rw [parsePath]
  unfold pathStartState
  split
  · exact hnil.pathState List.not_mem_nil _
  split
  · exact hnil.pathState List.not_mem_nil _
  · exact hnil.pathState List.not_mem_nil _

theorem splitOn_pathText {path : List (List Char)} (h : NoSlashes path) :
    (pathText path).splitOn '/' = [] :: path := by
  have hintercalate (segment : List Char) : segment ++
      pathText path = ['/'].intercalate (segment :: path) := by
    clear h
    induction path generalizing segment with
    | nil => simp [pathText]
    | cons next path ih =>
      rw [pathText, List.flatMap_cons, ← pathText, List.cons_append, ih next]
      simp [List.intercalate]
  have hslash : ∀ segment ∈ ([] : List Char) :: path, '/' ∉ segment :=
    List.forall_mem_cons.mpr ⟨List.not_mem_nil, h⟩
  rw [← List.nil_append (pathText path), hintercalate]
  exact List.splitOn_intercalate _ hslash (List.cons_ne_nil _ _)

/-! ## The parser before the path -/

/-- What is left of a text that more follows. -/
def withoutTabs (t : List Char) : List Char := t.filter fun c => !isTabOrNewline c

theorem parsePath_append {t rest : List Char} (hne : rest ≠ []) (h : ∀ c ∈ rest, 0x20 < c.toNat) :
    parsePath (t ++ rest) = pathStartState (withoutTabs t ++ rest) := by
  have htrim : ((t ++ rest).reverse.dropWhile fun c => decide (c.toNat ≤ 0x20)) =
      (t ++ rest).reverse := by
    obtain ⟨front, c, rfl⟩ := (List.eq_nil_or_concat rest).resolve_left hne
    rw [List.concat_eq_append] at h ⊢
    have hc : 0x20 < c.toNat := h c (List.mem_append_right _ List.mem_cons_self)
    rw [← List.append_assoc, List.reverse_append, List.reverse_singleton, List.singleton_append,
      List.dropWhile_cons_of_neg (by simpa using hc)]
  have hfilter : rest.filter (fun c => !isTabOrNewline c) = rest :=
    List.filter_eq_self.mpr fun c hc => by
    have hrange := h c hc
    simp only [isTabOrNewline, Bool.not_eq_true', Bool.or_eq_false_iff, beq_eq_false_iff_ne]
    omega
  rw [parsePath, htrim, List.reverse_reverse, List.filter_append, hfilter]
  rfl

end Tonatiuh.Url
