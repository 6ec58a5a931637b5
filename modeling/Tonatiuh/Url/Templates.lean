import Mathlib.Data.List.Infix
import Mathlib.Logic.Function.Basic
import Tonatiuh.Text.FirstMatch
import Tonatiuh.Url.Paths

/-! Templates of paths: segments that are literal and segments that are a name in braces.

A name is assigned by replacing its first match. As names have no braces and assigned texts neither
braces nor a dollar sign, this is an update of the assignment, whatever was assigned before. -/

namespace Tonatiuh.Url

open Text (replaceFirst)

inductive Segment where
  | literal (text : List Char)
  | placeholder (name : List Char)
  deriving DecidableEq, Repr

namespace Segment

def braced (name : List Char) : List Char := '{' :: (name ++ ['}'])

def ofText (t : List Char) : Segment :=
  if t.head? = some '{' ∧ t.getLast? = some '}' then placeholder t.tail.dropLast else literal t

def name? : Segment → Option (List Char)
  | literal _ => none
  | placeholder name => some name

def isLiteral : Segment → Bool
  | literal _ => true
  | placeholder _ => false

/-- A literal that the path state reads as it is written, or a name without braces. -/
def isLawful : Segment → Bool
  | literal t => !t.isEmpty && t.all isSegmentChar && !isSingleDot t && !isDoubleDot t
  | placeholder name => !name.isEmpty && name.all fun c => c != '{' && c != '}'

/-- The texts that stand for names, where they are known. -/
abbrev Assignment := List Char → Option (List Char)

def render (assignment : Assignment) : Segment → List Char
  | literal t => t
  | placeholder name => (assignment name).getD (braced name)

end Segment

open Segment

def names (segments : List Segment) : List (List Char) := segments.filterMap name?

structure Template where
  segments : List Segment
  lawful : segments.all isLawful = true
  nodup : (names segments).Nodup
  begins : segments.head?.any isLiteral = true

namespace Template

def render (assignment : Assignment) (template : Template) : List Char :=
  pathText (template.segments.map (Segment.render assignment))

def text (template : Template) : List Char := template.render fun _ => none

/-- The template with this text. -/
def ofText? (t : List Char) : Option Template :=
  let segments := (t.splitOn '/').tail.map ofText
  if h : segments.all isLawful = true ∧ (names segments).Nodup ∧
    segments.head?.any isLiteral = true then
    let template : Template := ⟨segments, h.1, h.2.1, h.2.2⟩
    if template.text = t then some template else none
  else none

end Template

/-- Is there a match of `/\{[^}]+\}/`? -/
def hasBraced : List Char → Bool
  | [] => false
  | c :: t => (c == '{' && t.head?.any (· != '}') && t.contains '}') || hasBraced t

/-! ## Names without braces -/

theorem isLawful_literal {t : List Char} (h : isLawful (.literal t)) : t ≠ [] ∧ IsPlain t := by
  simp only [isLawful, Bool.and_eq_true, Bool.not_eq_true', List.isEmpty_eq_false_iff,
    List.all_eq_true] at h
  obtain ⟨⟨⟨hne, hchars⟩, hsingle⟩, hdouble⟩ := h
  exact ⟨hne, hchars, hsingle, hdouble⟩

theorem Template.exists_cons (template : Template) :
    ∃ t segments, template.segments = .literal t :: segments ∧ t ≠ [] := by
  have hbegins := template.begins
  have hlawful := List.all_eq_true.mp template.lawful
  match hsegments : template.segments with
  | [] => rw [hsegments] at hbegins; cases hbegins
  | .placeholder _ :: _ => rw [hsegments] at hbegins; cases hbegins
  | .literal t :: segments =>
    rw [hsegments] at hlawful
    exact ⟨t, segments, rfl, (isLawful_literal (hlawful _ List.mem_cons_self)).1⟩

def NoBraces (name : List Char) : Prop := '{' ∉ name ∧ '}' ∉ name

theorem isLawful_placeholder {name : List Char} (h : isLawful (.placeholder name)) :
    name ≠ [] ∧ NoBraces name := by
  simp only [isLawful, Bool.and_eq_true, Bool.not_eq_true', List.isEmpty_eq_false_iff,
    List.all_eq_true, bne_iff_ne] at h
  exact ⟨h.1, fun hmem => (h.2 _ hmem).1 rfl, fun hmem => (h.2 _ hmem).2 rfl⟩

theorem brace_not_mem {t : List Char} (h : ∀ c ∈ t, isSegmentChar c) : '{' ∉ t := fun hmem =>
  isSegmentChar_ne (h _ hmem) (by decide) rfl

theorem dollar_not_mem {t : List Char} (h : ∀ c ∈ t, isSegmentChar c) : '$' ∉ t := fun hmem =>
  isSegmentChar_ne (h _ hmem) (by decide) rfl

section
variable {name other replacement : List Char}

theorem takeWhile_brace (h : '}' ∉ name) (rest : List Char) :
    (name ++ '}' :: rest).takeWhile (· != '}') = name := by
  have hname : ∀ c ∈ name, (c != '}') = true := fun c hc => bne_iff_ne.mpr fun heq => h (heq ▸ hc)
  rw [List.takeWhile_append_of_pos hname, List.takeWhile_cons_of_neg (by decide), List.append_nil]

theorem braced_inj (hname : NoBraces name) (hother : NoBraces other) {rest : List Char}
    (h : braced name <+: braced other ++ rest) : name = other := by
  obtain ⟨t, ht⟩ := h
  have ht := (List.cons.inj ht).2
  simp only [List.append_eq, List.append_assoc, List.singleton_append] at ht
  rw [← takeWhile_brace hname.2 t, ht, takeWhile_brace hother.2]

theorem replaceFirst_other (hname : NoBraces name) (hother : NoBraces other) (hne : name ≠ other)
    (hreplacement : '$' ∉ replacement) (rest : List Char) :
    replaceFirst (braced name) replacement (braced other ++ rest) =
      braced other ++ replaceFirst (braced name) replacement rest := by
  have htail : '{' ∉ other ++ ['}'] := fun hmem => by
    rcases List.mem_append.mp hmem with hmem | hmem
    · exact hother.1 hmem
    · exact absurd (List.mem_singleton.mp hmem) (by decide)
  have hprefix : ¬braced name <+: '{' :: ((other ++ ['}']) ++ rest) := fun hprefix =>
    hne (braced_inj hname hother hprefix)
  calc replaceFirst (braced name) replacement ('{' :: ((other ++ ['}']) ++ rest))
    _ = '{' :: replaceFirst (braced name) replacement ((other ++ ['}']) ++ rest) :=
      Text.replaceFirst_cons hprefix hreplacement
    _ = '{' :: ((other ++ ['}']) ++ replaceFirst (braced name) replacement rest) :=
      congrArg ('{' :: ·) (Text.replaceFirst_append htail hreplacement rest)

end

/-! ## Assigning a name -/

/-- Assigned texts are made of the characters of encoded components. -/
def Encoded (assignment : Assignment) : Prop :=
  ∀ name value, assignment name = some value → ∀ c ∈ value, isSegmentChar c

section
variable {assignment : Assignment} {name value : List Char}

theorem Encoded.update (h : Encoded assignment) (hvalue : ∀ c ∈ value, isSegmentChar c) :
    Encoded (Function.update assignment name (some value)) := fun other text htext => by
  by_cases heq : other = name
  · rw [heq, Function.update_self] at htext
    exact Option.some.inj htext ▸ hvalue
  · rw [Function.update_of_ne heq] at htext
    exact h other text htext

theorem render_update_of_not_mem {segments : List Segment} (h : name ∉ names segments)
    (value : Option (List Char)) :
    segments.map (render (Function.update assignment name value)) =
      segments.map (render assignment) := by
  refine List.map_congr_left fun segment hsegment => ?_
  cases segment with
  | literal => rfl
  | placeholder other =>
    have hne : other ≠ name :=
      fun heq => h (List.mem_filterMap.mpr ⟨_, hsegment, congrArg some heq⟩)
    rw [render, render, Function.update_of_ne hne]

theorem replaceFirst_segment {segment : List Char} (h : ∀ c ∈ segment, isSegmentChar c)
    (hvalue : ∀ c ∈ value, isSegmentChar c) (rest : List Char) :
    replaceFirst (braced name) value ('/' :: segment ++ rest) =
      '/' :: segment ++ replaceFirst (braced name) value rest := by
  have hbrace : '{' ∉ '/' :: segment := fun hmem => by
    rcases List.mem_cons.mp hmem with heq | hmem
    · exact absurd heq (by decide)
    · exact brace_not_mem h hmem
  exact Text.replaceFirst_append hbrace (dollar_not_mem hvalue) rest

theorem replaceFirst_slash (hvalue : ∀ c ∈ value, isSegmentChar c) (rest : List Char) :
    replaceFirst (braced name) value ('/' :: rest) =
      '/' :: replaceFirst (braced name) value rest := by
  have hempty : ∀ c ∈ ([] : List Char), isSegmentChar c := fun _ hc => absurd hc List.not_mem_nil
  exact replaceFirst_segment hempty hvalue rest

/-- The first match of a name in braces is its placeholder, wherever that is. -/
theorem replaceFirst_render {segments : List Segment}
    (hlawful : ∀ segment ∈ segments, isLawful segment)
    (hnodup : (names segments).Nodup) (hname : NoBraces name)
    (hvalue : ∀ c ∈ value, isSegmentChar c)
    (hassignment : Encoded assignment) (hfree : assignment name = none) :
    replaceFirst (braced name) value (pathText (segments.map (render assignment))) =
      pathText (segments.map (render (Function.update assignment name (some value)))) := by
  induction segments with
  | nil => rfl
  | cons segment segments ih =>
    obtain ⟨hsegment, hrest⟩ := List.forall_mem_cons.mp hlawful
    simp only [List.map_cons, pathText, List.flatMap_cons]
    rw [← pathText, ← pathText]
    cases segment with
    | literal t =>
      have ih := ih hrest hnodup
      rw [← ih]
      exact replaceFirst_segment (isLawful_literal hsegment).2.chars hvalue _
    | placeholder other =>
      obtain ⟨hother, hnodup⟩ := List.nodup_cons.mp hnodup
      have ih := ih hrest hnodup
      by_cases heq : other = name
      · subst heq
        rw [render_update_of_not_mem hother, render, render, hfree, Function.update_self,
          Option.getD_none, Option.getD_some, List.cons_append, replaceFirst_slash hvalue]
        exact congrArg ('/' :: ·)
          (Text.replaceFirst_match '{' (other ++ ['}']) (dollar_not_mem hvalue) _)
      rw [← ih, render, render, Function.update_of_ne heq]
      cases hassigned : assignment other with
      | some text => exact replaceFirst_segment (hassignment other text hassigned) hvalue _
      | none =>
        rw [Option.getD_none, List.cons_append, replaceFirst_slash hvalue, List.cons_append,
          replaceFirst_other hname (isLawful_placeholder hsegment).2 (Ne.symm heq)
            (dollar_not_mem hvalue)]

end

/-! ## Names without a text -/

theorem hasBraced_append {chunk : List Char} (h : '{' ∉ chunk) (rest : List Char) :
    hasBraced (chunk ++ rest) = hasBraced rest := by
  induction chunk with
  | nil => rfl
  | cons c chunk ih =>
    have hc : (c == '{') = false := beq_false_of_ne fun heq => h (heq ▸ List.mem_cons_self)
    rw [List.cons_append, hasBraced, hc, Bool.false_and, Bool.false_and, Bool.false_or,
      ih fun hmem => h (List.mem_cons_of_mem _ hmem)]

theorem hasBraced_braced {name : List Char} (hne : name ≠ []) (h : NoBraces name)
    (rest : List Char) :
    hasBraced (braced name ++ rest) = true := by
  obtain ⟨c, t, rfl⟩ := List.exists_cons_of_ne_nil hne
  have hc : (c != '}') = true := bne_iff_ne.mpr fun heq => h.2 (heq ▸ List.mem_cons_self)
  simp [braced, hasBraced, hc]

theorem hasBraced_render {assignment : Assignment} (hassignment : Encoded assignment)
    {segments : List Segment} (hlawful : ∀ segment ∈ segments, isLawful segment) :
    hasBraced (pathText (segments.map (render assignment))) = true ↔
    ∃ name ∈ names segments, assignment name = none := by
  have hslash {t : List Char} (h : ∀ c ∈ t, isSegmentChar c) : '{' ∉ '/' :: t := fun hmem => by
    rcases List.mem_cons.mp hmem with heq | hmem
    · exact absurd heq (by decide)
    · exact brace_not_mem h hmem
  induction segments with
  | nil => simp [names, pathText, hasBraced]
  | cons segment segments ih =>
    obtain ⟨hsegment, hrest⟩ := List.forall_mem_cons.mp hlawful
    have ih := ih hrest
    simp only [List.map_cons, pathText, List.flatMap_cons]
    rw [← pathText]
    cases segment with
    | literal t =>
      rw [render, hasBraced_append (hslash (isLawful_literal hsegment).2.chars)]
      exact ih
    | placeholder other =>
      cases hassigned : assignment other with
      | some text =>
        have hskip : '{' ∉ '/' :: render assignment (.placeholder other) := by
          rw [render, hassigned, Option.getD_some]
          exact hslash (hassignment other text hassigned)
        have hnames : names (.placeholder other :: segments) = other :: names segments := rfl
        rw [hasBraced_append hskip, hnames, List.exists_mem_cons_iff, hassigned]
        simpa using ih
      | none =>
        have hmem : other ∈ names (.placeholder other :: segments) := List.mem_cons_self
        obtain ⟨hne, hnoBraces⟩ := isLawful_placeholder hsegment
        refine ⟨fun _ => ⟨other, hmem, hassigned⟩, fun _ => ?_⟩
        rw [render, hassigned, Option.getD_none, List.cons_append]
        rw [show '/' :: (braced other ++ pathText (segments.map (render assignment))) =
          ['/'] ++ (braced other ++ pathText (segments.map (render assignment))) from rfl]
        rw [hasBraced_append (by decide), hasBraced_braced hne hnoBraces]

end Tonatiuh.Url
