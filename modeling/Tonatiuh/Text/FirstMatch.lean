import Mathlib.Data.List.Basic

/-! `String.prototype.replace` with a string as its pattern: the first match is replaced, and in the
replacement `$$`, `$&`, `$'` and a `$` with a grave accent stand for a `$`, the match, what follows
it and what precedes it. -/

namespace Tonatiuh.Text

/-- What precedes the first match of the pattern, and what follows it. -/
def splitAtFirst (pattern : List Char) : List Char → Option (List Char × List Char)
  | [] => if pattern.isEmpty then some ([], []) else none
  | c :: t =>
    if pattern.isPrefixOf (c :: t) then some ([], (c :: t).drop pattern.length)
    else (splitAtFirst pattern t).map (Prod.map (c :: ·) id)

def apostrophe : Char := Char.ofNat 39

def graveAccent : Char := Char.ofNat 96

/-- `GetSubstitution` without captures. -/
def expand (matched before after : List Char) : List Char → List Char
  | [] => []
  | [c] => [c]
  | c :: d :: t =>
    if c = '$' ∧ d = '$' then '$' :: expand matched before after t
    else if c = '$' ∧ d = '&' then matched ++ expand matched before after t
    else if c = '$' ∧ d = graveAccent then before ++ expand matched before after t
    else if c = '$' ∧ d = apostrophe then after ++ expand matched before after t
    else c :: expand matched before after (d :: t)

def replaceFirst (pattern replacement text : List Char) : List Char :=
  match splitAtFirst pattern text with
  | none => text
  | some (before, after) => before ++ expand pattern before after replacement ++ after

theorem expand_of_not_mem {matched before after replacement : List Char} (h : '$' ∉ replacement) :
    expand matched before after replacement = replacement := by
  induction replacement with
  | nil => rfl
  | cons c t ih =>
    have hc : c ≠ '$' := fun heq => h (heq ▸ List.mem_cons_self)
    have ih := ih fun hmem => h (List.mem_cons_of_mem _ hmem)
    cases t with
    | nil => rfl
    | cons d t => simp [expand, hc, ih]

section
variable {pattern replacement : List Char}

/-- Where a text cannot start a match, the search goes on behind it. -/
theorem splitAtFirst_append {p : Char} {chunk : List Char} (h : p ∉ chunk) (rest : List Char) :
    splitAtFirst (p :: pattern) (chunk ++ rest) =
      (splitAtFirst (p :: pattern) rest).map (Prod.map (chunk ++ ·) id) := by
  induction chunk with
  | nil =>
    rw [List.nil_append]
    cases splitAtFirst (p :: pattern) rest <;> rfl
  | cons c t ih =>
    have hc : (p == c) = false := beq_false_of_ne fun heq => h (heq ▸ List.mem_cons_self)
    rw [List.cons_append, splitAtFirst, List.isPrefixOf_cons_cons, hc, Bool.false_and,
      if_neg Bool.false_ne_true,
      ih fun hmem => h (List.mem_cons_of_mem _ hmem), Option.map_map]
    rfl

theorem replaceFirst_append {p : Char} {chunk : List Char} (h : p ∉ chunk)
    (hreplacement : '$' ∉ replacement)
    (rest : List Char) : replaceFirst (p :: pattern) replacement (chunk ++ rest) =
      chunk ++ replaceFirst (p :: pattern) replacement rest := by
  rw [replaceFirst, replaceFirst, splitAtFirst_append h]
  cases splitAtFirst (p :: pattern) rest with
  | none => rfl
  | some parts => simp [expand_of_not_mem hreplacement]

theorem splitAtFirst_match (p : Char) (pattern rest : List Char) :
    splitAtFirst (p :: pattern) (p :: pattern ++ rest) = some ([], rest) := by
  have hprefix : (p :: pattern).isPrefixOf (p :: pattern ++ rest) = true :=
    List.isPrefixOf_iff_prefix.mpr (List.prefix_append _ _)
  rw [List.cons_append] at hprefix ⊢
  rw [splitAtFirst, if_pos hprefix, List.length_cons, List.drop_succ_cons, List.drop_left]

theorem replaceFirst_match (p : Char) (pattern : List Char) (hreplacement : '$' ∉ replacement)
    (rest : List Char) :
    replaceFirst (p :: pattern) replacement (p :: pattern ++ rest) = replacement ++ rest := by
  rw [replaceFirst, splitAtFirst_match]
  simp [expand_of_not_mem hreplacement]

/-- Where the text does not begin with the pattern, the search goes on behind its first
character. -/
theorem replaceFirst_cons {c : Char} {t : List Char} (h : ¬pattern <+: c :: t)
    (hreplacement : '$' ∉ replacement) :
    replaceFirst pattern replacement (c :: t) = c :: replaceFirst pattern replacement t := by
  rw [replaceFirst, replaceFirst, splitAtFirst, if_neg (mt List.isPrefixOf_iff_prefix.mp h)]
  cases splitAtFirst pattern t with
  | none => rfl
  | some parts => simp [expand_of_not_mem hreplacement]

end

end Tonatiuh.Text
