import Tonatiuh.Logs.LogLines

/-! How a log line is laid out around the value of a secret. -/

namespace Tonatiuh.Logs

/-! ## The text around the value -/

/-- A list of entries with one that is looked into. -/
theorem intercalate_entries (g : Units) (before : List Units) (entry : Units) (after : List Units) :
    g ++ (44 :: g).intercalate (before ++ entry :: after) =
      before.flatMap (fun e => g ++ e ++ [44]) ++ g ++ entry ++
        after.flatMap fun e => 44 :: g ++ e := by
  induction before with
  | nil =>
    rw [List.nil_append, List.flatMap_nil, List.nil_append, List.append_assoc]
    refine congrArg (g ++ ·) ?_
    induction after generalizing entry with
    | nil => simp
    | cons e after ih => rw [List.intercalate_cons_cons, ih e]; simp
  | cons e before ih =>
    rw [List.cons_append, List.intercalate_cons_of_ne_nil (by simp), List.flatMap_cons]
    have hsplit (I : Units) : g ++ (e ++ (44 :: g) ++ I) = g ++ e ++ [44] ++ (g ++ I) := by simp
    rw [hsplit, ih]
    simp only [List.append_assoc]

/-- What is before an entry ends in a brace or comma. -/
theorem exists_append_of_entries (opening g : Units) (before : List Units) :
    ∃ x c, (c = 123 ∨ c = 44) ∧
    opening ++ [123] ++ before.flatMap (fun e => g ++ e ++ [44]) = x ++ [c] := by
  obtain rfl | ⟨entries, e, rfl⟩ := before.eq_nil_or_concat
  · exact ⟨opening, 123, .inl rfl, by simp⟩
  · refine ⟨opening ++ [123] ++ entries.flatMap (fun e => g ++ e ++ [44]) ++ (g ++ e), 44,
      .inr rfl, ?_⟩
    rw [List.concat_eq_append, List.flatMap_append, List.flatMap_singleton]
    simp only [List.append_assoc]

namespace Frame

/-- The text before the entry that is looked into, and after it. -/
def left (f : Frame) (indentationLvl : Nat) (single : Bool) : Units :=
  f.opening ++ f.before.flatMap (fun e => gap single indentationLvl ++ e ++ [44]) ++
    gap single indentationLvl ++ f.key

def right (f : Frame) (indentationLvl : Nat) (single : Bool) : Units :=
  f.after.flatMap (fun e => 44 :: gap single indentationLvl ++ e) ++
    lastGap single indentationLvl ++ f.closing

theorem inspect_eq (f : Frame) (indentationLvl : Nat) (inner : Units) :
    f.inspect indentationLvl inner =
      f.left indentationLvl (f.isSingle indentationLvl inner) ++ inner ++
      f.right indentationLvl (f.isSingle indentationLvl inner) := by
  have := intercalate_entries (gap (f.isSingle indentationLvl inner) indentationLvl) f.before
    (f.key ++ inner) f.after
  simp only [inspect, reduceToSingleString, output, left, right]
  rw [show isSingleLine indentationLvl f.opening (f.before ++ (f.key ++ inner) :: f.after) =
    f.isSingle indentationLvl inner from rfl, List.append_assoc f.opening, this]
  simp only [List.append_assoc]

end Frame

/-- Objects that are laid out alike have the same text around what is in them. -/
theorem exists_inspectFrames (frames : List Frame) (layout : List Bool) : ∃ a b, ∀ inner,
    layoutFrames frames inner = layout → inspectFrames frames inner = a ++ inner ++ b := by
  induction frames generalizing layout with
  | nil => exact ⟨[], [], fun inner _ => (List.append_nil inner).symm⟩
  | cons f outer ih =>
    cases layout with
    | nil => exact ⟨[], [], nofun⟩
    | cons single layout =>
      obtain ⟨a, b, hab⟩ := ih layout
      refine ⟨a ++ f.left (2 * outer.length) single, f.right (2 * outer.length) single ++ b,
        fun inner h => ?_⟩
      obtain ⟨rfl, houter⟩ := List.cons.inj h
      rw [inspectFrames, hab _ houter, Frame.inspect_eq]
      simp only [List.append_assoc]

namespace LogLine

def field : LogLine → SecretField
  | stringify l => l.field
  | format l => l.field

/-- What is between the name of the field and its value. -/
def colon : LogLine → Units
  | stringify _ => units "\":"
  | format _ => units ": "

/-- The text of a line around the value, as it is laid out. -/
structure Around (line : LogLine) (layout : List Bool) where
  lead : Units
  last : UInt16
  last_mem : last = 123 ∨ last = 44
  blank : Units
  blank_ne_nil : blank ≠ []
  separators : ∀ d ∈ blank, isSeparator d = true
  skipped : ∀ d ∈ blank, ∀ t, secretPattern.find (d :: t) = none
  rest : Units
  text_eq : ∀ v, line.layout v = layout →
    line.text v = lead ++ last ::
      (blank ++ (line.field.name ++ (line.colon ++ (line.value v ++ rest))))

theorem Around.exists_append {line : LogLine} {b : List Bool} (around : line.Around b) :
    ∃ a, ∀ v, line.layout v = b → line.text v = a ++ line.value v ++ around.rest := by
  refine ⟨around.lead ++ around.last :: (around.blank ++ (line.field.name ++ line.colon)),
    fun v hv => ?_⟩
  rw [around.text_eq v hv]
  simp

end LogLine

theorem keyword_quote (line : LogLine) (rest : Units) :
    keyword line.field.name (line.field.name ++ ((line.colon ++ [line.quote]) ++ rest)) =
      some (line.field.name ++ (line.colon ++ [line.quote]), rest) := by
  cases line with
  | stringify l => exact (keyword_name l.field rest).1
  | format l => exact (keyword_name l.field rest).2

theorem mem_gap {single : Bool} {indentationLvl : Nat} {d : UInt16}
    (h : d ∈ gap single indentationLvl) :
    d = 32 ∨ d = 10 := by
  cases single with
  | true => exact .inl (List.mem_singleton.mp h)
  | false =>
    rcases List.mem_cons.mp h with h | h
    · exact .inr h
    · exact .inl (List.eq_of_mem_replicate h)

theorem quoteJson_name (field : SecretField) :
    quoteJson field.name = 34 :: (field.name ++ [34]) := by
  cases field with
  | _ => rfl

theorem JsonLine.exists_around (l : JsonLine) : Nonempty ((LogLine.stringify l).Around []) := by
  obtain ⟨x, c, hc, hx⟩ := exists_append_of_entries l.lead [] l.before
  refine ⟨{ lead := x, last := c, last_mem := hc, blank := [34], blank_ne_nil := nofun
            separators := by decide
            skipped := fun d hd t => ?_
            rest := l.after.flatMap (fun e => 44 :: [] ++ e) ++ units "\x7d" ++ l.trail,
              text_eq := fun v _ => ?_ }⟩
  · obtain rfl := List.mem_singleton.mp hd
    exact find_quote t
  · have hentries :=
      intercalate_entries [] l.before (quoteJson l.field.name ++ units ":" ++ l.value v) l.after
    rw [List.nil_append, quoteJson_name] at hentries
    have htext : (LogLine.stringify l).text v = l.lead ++ [123] ++
        [44].intercalate (l.before ++
          (quoteJson l.field.name ++ units ":" ++ l.value v) :: l.after) ++
        units "\x7d" ++ l.trail := rfl
    have hcolon : (LogLine.stringify l).colon = 34 :: units ":" := rfl
    rw [htext, quoteJson_name, hentries, List.append_cons x c, ← hx, hcolon]
    simp only [List.append_assoc, List.cons_append, List.nil_append]
    rfl

theorem FormatLine.exists_around (l : FormatLine) (single : Bool) (layout : List Bool) :
    Nonempty ((LogLine.format l).Around (single :: layout)) := by
  obtain ⟨a, b, hab⟩ := exists_inspectFrames l.outer layout
  obtain ⟨x, c, hc, hx⟩ :=
    exists_append_of_entries (l.lead ++ a ++ l.className) (gap single (2 * l.outer.length)) l.before
  refine ⟨{ lead := x, last := c, last_mem := hc, blank := gap single (2 * l.outer.length)
            blank_ne_nil := ?_
            separators := fun d hd => ?_
            skipped := fun d hd t => ?_
            rest := l.object.right (2 * l.outer.length) single ++ b ++ l.trail
            text_eq := fun v hv => ?_ }⟩
  · cases single with
    | _ => exact nofun
  · rcases mem_gap hd with rfl | rfl
    · decide
    · decide
  · rcases mem_gap hd with rfl | rfl
    · exact (find_blank t).1
    · exact (find_blank t).2
  · obtain ⟨rfl, houter⟩ := List.cons.inj hv
    have htext : (LogLine.format l).text v = l.lead ++ inspectFrames l.outer
      (l.object.inspect (2 * l.outer.length) (l.value v)) ++ l.trail := rfl
    have hopening : l.object.opening = l.className ++ [123] := rfl
    have hkey : l.object.key = l.field.name ++ (LogLine.format l).colon := rfl
    rw [htext, hab _ houter, Frame.inspect_eq, List.append_cons x c, ← hx]
    simp only [Frame.left, hopening, hkey, List.append_assoc, List.cons_append, List.nil_append]
    rfl

theorem LogLine.exists_around (line : LogLine) (v : Secret) :
    Nonempty (line.Around (line.layout v)) := by
  cases line with
  | stringify l => exact l.exists_around
  | format l => exact l.exists_around _ _

/-! ## Layouts -/

theorem count_flatMap_le {f g : Units → Units} (h : ∀ e, (f e).count 10 ≤ (g e).count 10)
    (entries : List Units) :
    (entries.flatMap f).count 10 ≤ (entries.flatMap g).count 10 := by
  induction entries with
  | nil => exact le_rfl
  | cons e entries ih =>
    rw [List.flatMap_cons, List.flatMap_cons, List.count_append, List.count_append]
    exact Nat.add_le_add (h e) ih

theorem count_gap (indentationLvl : Nat) :
    (gap true indentationLvl).count 10 = 0 ∧ (lastGap true indentationLvl).count 10 = 0 ∧
      0 < (lastGap false indentationLvl).count 10 := by
  exact ⟨rfl, rfl, List.count_pos_iff.mpr List.mem_cons_self⟩

namespace Frame

/-- The line breaks around the entry that is looked into. -/
def breaks (f : Frame) (indentationLvl : Nat) (single : Bool) : Nat :=
  (f.left indentationLvl single).count 10 + (f.right indentationLvl single).count 10

theorem breaks_lt (f : Frame) (indentationLvl : Nat) :
    f.breaks indentationLvl true < f.breaks indentationLvl false := by
  obtain ⟨hgap, hlast, hpos⟩ := count_gap indentationLvl
  have hbefore : (f.before.flatMap fun e => gap true indentationLvl ++ e ++ [44]).count 10 ≤
      (f.before.flatMap fun e => gap false indentationLvl ++ e ++ [44]).count 10 := by
    refine count_flatMap_le (fun e => ?_) _
    rw [List.count_append, List.count_append, List.count_append, List.count_append]
    omega
  have hafter : (f.after.flatMap fun e => 44 :: gap true indentationLvl ++ e).count 10 ≤
      (f.after.flatMap fun e => 44 :: gap false indentationLvl ++ e).count 10 := by
    refine count_flatMap_le (fun e => ?_) _
    rw [List.count_append, List.count_append, List.count_cons, List.count_cons]
    omega
  simp only [breaks, left, right, List.count_append]
  omega

theorem count_inspect (f : Frame) (indentationLvl : Nat) (t : Units) :
    (f.inspect indentationLvl t).count 10 =
      t.count 10 + f.breaks indentationLvl (f.isSingle indentationLvl t) := by
  rw [inspect_eq, List.count_append, List.count_append, breaks]
  omega

/-- An object is shown on a single line only if all in it is. -/
theorem isSingle_of_count (f : Frame) (indentationLvl : Nat) {t : Units} (h : 0 < t.count 10) :
    f.isSingle indentationLvl t = false := by
  refine Bool.eq_false_iff.mpr fun hsingle => ?_
  have hall := (Bool.and_eq_true_iff.mp hsingle).2
  have hentry := List.all_eq_true.mp hall (f.key ++ t) (List.mem_append_right _ List.mem_cons_self)
  exact of_decide_eq_true hentry (List.mem_append_right _ (List.count_pos_iff.mp h))

/-- A text on more lines is shown on more. -/
theorem count_inspect_lt (f : Frame) (indentationLvl : Nat) {t t' : Units}
    (h : t.count 10 < t'.count 10) :
    (f.inspect indentationLvl t).count 10 < (f.inspect indentationLvl t').count 10 := by
  have hlt := f.breaks_lt indentationLvl
  rw [count_inspect, count_inspect, f.isSingle_of_count indentationLvl (t := t') (by omega)]
  cases f.isSingle indentationLvl t with
  | _ => omega

end Frame

theorem count_inspectFrames_lt (frames : List Frame) {t t' : Units} (h : t.count 10 < t'.count 10) :
    (inspectFrames frames t).count 10 < (inspectFrames frames t').count 10 := by
  induction frames generalizing t t' with
  | nil => exact h
  | cons f outer ih => exact ih (f.count_inspect_lt _ h)

theorem count_of_inspectFrames (frames : List Frame) {t t' : Units}
    (h : (inspectFrames frames t).count 10 = (inspectFrames frames t').count 10) :
    t.count 10 = t'.count 10 := by
  rcases Nat.lt_trichotomy (t.count 10) (t'.count 10) with hlt | heq | hlt
  · exact absurd h (count_inspectFrames_lt frames hlt).ne
  · exact heq
  · exact absurd h (count_inspectFrames_lt frames hlt).ne'

/-- The number of lines tells the layout. -/
theorem layoutFrames_eq (frames : List Frame) {t t' : Units}
    (h : (inspectFrames frames t).count 10 = (inspectFrames frames t').count 10) :
    layoutFrames frames t = layoutFrames frames t' := by
  induction frames generalizing t t' with
  | nil => rfl
  | cons f outer ih =>
    have hcount := count_of_inspectFrames (f :: outer) h
    have hinner := count_of_inspectFrames outer h
    have hlt := f.breaks_lt (2 * outer.length)
    have hsingle : f.isSingle (2 * outer.length) t = f.isSingle (2 * outer.length) t' := by
      rw [f.count_inspect, f.count_inspect] at hinner
      cases hs : f.isSingle (2 * outer.length) t with
      | true =>
        cases hs' : f.isSingle (2 * outer.length) t' with
        | true => rfl
        | false => rw [hs, hs'] at hinner; omega
      | false =>
        cases hs' : f.isSingle (2 * outer.length) t' with
        | true => rw [hs, hs'] at hinner; omega
        | false => rfl
    rw [layoutFrames, layoutFrames, hsingle, ih h]

theorem LogLine.layout_eq {line : LogLine} {v w : Secret}
    (h : (line.text v).count 10 = (line.text w).count 10) :
    line.layout v = line.layout w := by
  cases line with
  | stringify l => rfl
  | format l =>
    have htext : ∀ v, ((LogLine.format l).text v).count 10 =
        l.lead.count 10 + (inspectFrames l.frames (l.value v)).count 10 + l.trail.count 10 := by
      intro v
      change (l.lead ++ inspectFrames l.frames (l.value v) ++ l.trail).count 10 = _
      rw [List.count_append, List.count_append]
    rw [htext, htext] at h
    exact layoutFrames_eq l.frames (by omega)

end Tonatiuh.Logs
