import Mathlib.Data.List.TakeWhile

/-! Greedy scanners, and the replacement of all matches of a pattern.

A scanner reads from the head of a text, as far as it can. A pattern is a list of scanners, each
followed by at least one character of a class: of the first that fits, what the scanner has read is
kept and the characters of the class are dropped. This is what a regular expression
`(scanner)[class]+` does when none of its parts can give back a character that the next one could
use. -/

namespace Tonatiuh.Text

variable {α : Type}

/-- What has been read, and the rest of the text. -/
abbrev Scanner (α : Type) := List α → Option (List α × List α)

namespace Scanner

/-- One character. -/
def one (p : α → Bool) : Scanner α
  | [] => none
  | c :: t => if p c then some ([c], t) else none

/-- One character or none. -/
def optional (p : α → Bool) : Scanner α
  | [] => some ([], [])
  | c :: t => if p c then some ([c], t) else some ([], c :: t)

/-- Any number of characters. -/
def many (p : α → Bool) : Scanner α := fun t => some (t.takeWhile p, t.dropWhile p)

/-- A word, up to characters that count as the same. -/
def word (same : α → α → Bool) : List α → Scanner α
  | [], t => some ([], t)
  | _ :: _, [] => none
  | k :: ks, c :: t => if same k c then (word same ks t).map (Prod.map (c :: ·) id) else none

/-- One scanner after the other. -/
def andThen (f g : Scanner α) : Scanner α := fun t =>
  (f t).bind fun (read, rest) => (g rest).map (Prod.map (read ++ ·) id)

/-- What is read and the rest make up the text. -/
def Lawful (f : Scanner α) : Prop := ∀ t read rest, f t = some (read, rest) → t = read ++ rest

/-- The scanner neither reads nor looks past the character. -/
def StopsAt (f : Scanner α) (c : α) : Prop :=
  ∀ s, (∀ y, f (s ++ c :: y) = none) ∨
    ∃ read rest, ∀ y, f (s ++ c :: y) = some (read, rest ++ c :: y)

variable {f g : Scanner α} {p : α → Bool} {c : α}

theorem Lawful.one (p : α → Bool) : (one p).Lawful := by
  intro t read rest h
  cases t with
  | nil => cases h
  | cons c t =>
    rw [Scanner.one] at h
    split at h
    next => cases h; rfl
    next => cases h

theorem Lawful.optional (p : α → Bool) : (optional p).Lawful := by
  intro t read rest h
  cases t with
  | nil => cases h; rfl
  | cons c t =>
    rw [Scanner.optional] at h
    split at h
    next => cases h; rfl
    next => cases h; rfl

theorem Lawful.many (p : α → Bool) : (many p).Lawful := by
  intro t read rest h
  cases h
  exact List.takeWhile_append_dropWhile.symm

theorem Lawful.word (same : α → α → Bool) (ks : List α) : (word same ks).Lawful := by
  intro t read rest h
  induction ks generalizing t read with
  | nil => cases h; rfl
  | cons k ks ih =>
    cases t with
    | nil => cases h
    | cons c t =>
      rw [Scanner.word] at h
      split at h
      next =>
        obtain ⟨⟨read', rest'⟩, hread, h⟩ := Option.map_eq_some_iff.mp h
        cases h
        exact congrArg (c :: ·) (ih t read' hread)
      next => cases h

theorem Lawful.andThen (hf : f.Lawful) (hg : g.Lawful) : (f.andThen g).Lawful := by
  intro t read rest h
  obtain ⟨⟨read₁, rest₁⟩, h₁, h⟩ := Option.bind_eq_some_iff.mp h
  obtain ⟨⟨read₂, rest₂⟩, h₂, h⟩ := Option.map_eq_some_iff.mp h
  cases h
  rw [hf t read₁ rest₁ h₁, hg rest₁ read₂ rest₂ h₂]
  exact (List.append_assoc ..).symm

theorem StopsAt.one (hc : p c = false) : (one p).StopsAt c := by
  intro s
  cases s with
  | nil => exact .inl fun y => by simp [Scanner.one, hc]
  | cons d s =>
    cases hd : p d with
    | true => exact .inr ⟨[d], s, fun y => by simp [Scanner.one, hd]⟩
    | false => exact .inl fun y => by simp [Scanner.one, hd]

theorem StopsAt.optional (hc : p c = false) : (optional p).StopsAt c := by
  intro s
  refine .inr ?_
  cases s with
  | nil => exact ⟨[], [], fun y => by simp [Scanner.optional, hc]⟩
  | cons d s =>
    cases hd : p d with
    | true => exact ⟨[d], s, fun y => by simp [Scanner.optional, hd]⟩
    | false => exact ⟨[], d :: s, fun y => by simp [Scanner.optional, hd]⟩

/-- The characters of a class before one that is not. -/
theorem takeWhile_append_cons (hc : p c = false) (s y : List α) :
    (s ++ c :: y).takeWhile p = s.takeWhile p ∧
      (s ++ c :: y).dropWhile p = s.dropWhile p ++ c :: y := by
  induction s with
  | nil => simp [hc]
  | cons d s ih =>
    cases hd : p d with
    | true => simp [hd, ih]
    | false => simp [hd]

theorem StopsAt.many (hc : p c = false) : (many p).StopsAt c := by
  intro s
  refine .inr ⟨s.takeWhile p, s.dropWhile p, fun y => ?_⟩
  obtain ⟨htake, hdrop⟩ := takeWhile_append_cons hc s y
  rw [Scanner.many, htake, hdrop]

theorem StopsAt.word {same : α → α → Bool} {ks : List α} (hc : ∀ k ∈ ks, same k c = false) :
    (word same ks).StopsAt c := by
  intro s
  induction ks generalizing s with
  | nil => exact .inr ⟨[], s, fun y => rfl⟩
  | cons k ks ih =>
    cases s with
    | nil =>
      have hk := hc k List.mem_cons_self
      exact .inl fun y => by simp [Scanner.word, hk]
    | cons d s =>
      cases hd : same k d with
      | false => exact .inl fun y => by simp [Scanner.word, hd]
      | true =>
        obtain hnone | ⟨read, rest, hsome⟩ := ih (fun k hk => hc k (List.mem_cons_of_mem _ hk)) s
        · exact .inl fun y => by simp [Scanner.word, hd, hnone]
        · exact .inr ⟨d :: read, rest, fun y => by simp [Scanner.word, hd, hsome]⟩

theorem StopsAt.andThen (hf : f.StopsAt c) (hg : g.StopsAt c) : (f.andThen g).StopsAt c := by
  intro s
  obtain hnone | ⟨read, rest, hsome⟩ := hf s
  · exact .inl fun y => by simp [Scanner.andThen, hnone]
  · obtain hnone | ⟨read', rest', hsome'⟩ := hg rest
    · exact .inl fun y => by simp [Scanner.andThen, hsome, hnone]
    · exact .inr ⟨read ++ read', rest', fun y => by simp [Scanner.andThen, hsome, hsome']⟩

end Scanner

/-! ## Patterns -/

/-- A match at the head of a text. -/
structure Found (α : Type) where
  kept : List α
  dropped : List α
  rest : List α
  ne_nil : dropped ≠ []

def Found.append (m : Found α) (y : List α) : Found α := { m with rest := m.rest ++ y }

/-- What the scanner reads, and at least one character of the class. -/
def Scanner.followedBy (f : Scanner α) (p : α → Bool) (t : List α) : Option (Found α) :=
  (f t).bind fun (kept, r) =>
    if h : r.takeWhile p = [] then none else some ⟨kept, r.takeWhile p, r.dropWhile p, h⟩

structure Pattern (α : Type) where
  scanners : List (Scanner α)
  dropped : α → Bool
  lawful : ∀ f ∈ scanners, f.Lawful

namespace Pattern

variable {P : Pattern α} {w : List α} {m : Found α} {t x y : List α} {c : α}

/-- The first scanner that fits. -/
def find (P : Pattern α) (t : List α) : Option (Found α) :=
  P.scanners.findSome? fun f => f.followedBy P.dropped t

/-- `replace` with a global pattern: each match leaves what it keeps, followed by `w`. -/
def replaceFrom (P : Pattern α) (w : List α) : Nat → List α → List α
  | 0, t => t
  | _ + 1, [] => []
  | n + 1, c :: t =>
    match P.find (c :: t) with
    | some m => m.kept ++ w ++ P.replaceFrom w n m.rest
    | none => c :: P.replaceFrom w n t

def replaceAll (P : Pattern α) (w t : List α) : List α := P.replaceFrom w t.length t

theorem exists_of_find (h : P.find t = some m) :
    ∃ f ∈ P.scanners, f.followedBy P.dropped t = some m :=
  List.exists_of_findSome?_eq_some h

theorem find_spec (h : P.find t = some m) :
    t = m.kept ++ (m.dropped ++ m.rest) ∧ ∀ c ∈ m.dropped, P.dropped c = true := by
  obtain ⟨f, hf, h⟩ := exists_of_find h
  obtain ⟨⟨kept, r⟩, hread, h⟩ := Option.bind_eq_some_iff.mp h
  dsimp only at h
  split at h
  next => cases h
  next =>
    cases h
    refine ⟨?_, fun c hc => List.mem_takeWhile_imp hc⟩
    rw [List.takeWhile_append_dropWhile]
    exact P.lawful f hf t kept r hread

theorem rest_length_lt (h : P.find t = some m) : m.rest.length < t.length := by
  have hlength := congrArg List.length (find_spec h).1
  have hpos := List.length_pos_iff.mpr m.ne_nil
  simp only [List.length_append] at hlength
  omega

/-- A text that is gone through match by match. -/
theorem induction {motive : List α → Prop} (nil : motive [])
    (skip : ∀ c t, P.find (c :: t) = none → motive t → motive (c :: t))
    (found : ∀ t m, P.find t = some m → motive m.rest → motive t) (t : List α) : motive t := by
  induction hn : t.length using Nat.strongRecOn generalizing t with
  | ind n ih =>
    subst hn
    cases hfind : P.find t with
    | some m => exact found t m hfind (ih _ (rest_length_lt hfind) _ rfl)
    | none =>
      cases t with
      | nil => exact nil
      | cons c t => exact skip c t hfind (ih _ (Nat.lt_succ_self _) _ rfl)

/-- The number of steps is enough. -/
theorem replaceFrom_congr {n k : Nat} (hn : t.length ≤ n) (hk : t.length ≤ k) :
    P.replaceFrom w n t = P.replaceFrom w k t := by
  induction n generalizing t k with
  | zero =>
    obtain rfl := List.length_eq_zero_iff.mp (Nat.le_zero.mp hn)
    cases k with
    | zero => rfl
    | succ k => rfl
  | succ n ih =>
    cases t with
    | nil =>
      cases k with
      | zero => rfl
      | succ k => rfl
    | cons c t =>
      cases k with
      | zero => exact absurd hk (Nat.not_succ_le_zero _)
      | succ k =>
        rw [replaceFrom, replaceFrom]
        split
        next m hfind =>
          have hlt := rest_length_lt hfind
          rw [ih (k := k) (by omega) (by omega)]
        next => rw [ih (Nat.le_of_succ_le_succ hn) (Nat.le_of_succ_le_succ hk)]

theorem replaceAll_found (h : P.find t = some m) :
    P.replaceAll w t = m.kept ++ w ++ P.replaceAll w m.rest := by
  have hlt := rest_length_lt h
  cases t with
  | nil => exact absurd hlt (Nat.not_lt_zero _)
  | cons c t =>
    rw [replaceAll, List.length_cons, replaceFrom, h]
    exact congrArg (m.kept ++ w ++ ·) (replaceFrom_congr (Nat.le_of_lt_succ hlt) (Nat.le_refl _))

theorem replaceAll_skip (h : P.find (c :: t) = none) :
    P.replaceAll w (c :: t) = c :: P.replaceAll w t := by
  rw [replaceAll, List.length_cons, replaceFrom, h]
  rfl

@[simp] theorem replaceAll_nil : P.replaceAll w [] = [] := rfl

/-- Characters at which nothing is found stay. -/
theorem replaceAll_append_skipped {s : List α} (h : ∀ c ∈ s, ∀ t, P.find (c :: t) = none)
    (t : List α) :
    P.replaceAll w (s ++ t) = s ++ P.replaceAll w t := by
  induction s with
  | nil => rfl
  | cons c s ih =>
    rw [List.cons_append, replaceAll_skip (h c List.mem_cons_self _),
      ih fun d hd => h d (List.mem_cons_of_mem c hd), List.cons_append]

/-- A match: the scanners before the one that fits read nothing. -/
theorem replaceAll_read {f : Scanner α} {fs gs : List (Scanner α)} {kept d r : List α}
    (hscanners : P.scanners = fs ++ f :: gs) (hfs : ∀ g ∈ fs, g t = none)
    (hread : f t = some (kept, d ++ r))
    (hne : d ≠ []) (hd : ∀ c ∈ d, P.dropped c = true) (hr : ∀ c ∈ r.head?, P.dropped c = false) :
    P.replaceAll w t = kept ++ w ++ P.replaceAll w r := by
  have htake : (d ++ r).takeWhile P.dropped = d ∧ (d ++ r).dropWhile P.dropped = r := by
    cases r with
    | nil =>
      rw [List.append_nil]; exact ⟨List.takeWhile_eq_self_iff.mpr hd,
        List.dropWhile_eq_nil_iff.mpr hd⟩
    | cons c r =>
      have := Scanner.takeWhile_append_cons (hr c rfl) d r
      rw [List.takeWhile_eq_self_iff.mpr hd, List.dropWhile_eq_nil_iff.mpr hd] at this
      exact this
  have hfollowed : f.followedBy P.dropped t = some ⟨kept, d, r, hne⟩ := by
    simp only [Scanner.followedBy, hread, Option.bind_some, htake.1, htake.2, hne, dite_false]
  have hnone : (fs.findSome? fun g => g.followedBy P.dropped t) = none := by
    refine List.findSome?_eq_none_iff.mpr fun g hg => ?_
    rw [Scanner.followedBy, hfs g hg, Option.bind_none]
  have hfind : P.find t = some ⟨kept, d, r, hne⟩ := by
    rw [find, hscanners, List.findSome?_append, hnone, Option.none_or, List.findSome?_cons,
      hfollowed]
  exact replaceAll_found hfind

/-- The characters outside of the class stay, in their order. -/
theorem replaceAll_filter {p : α → Bool} (hw : ∀ c ∈ w, p c = false)
    (hp : ∀ c, P.dropped c = true → p c = false)
    (t : List α) : (P.replaceAll w t).filter p = t.filter p := by
  induction t using P.induction with
  | nil => rfl
  | skip c t hfind ih => rw [replaceAll_skip hfind, List.filter_cons, List.filter_cons, ih]
  | found t m hfind ih =>
    obtain ⟨ht, hdropped⟩ := find_spec hfind
    have hw' : w.filter p = [] := List.filter_eq_nil_iff.mpr fun c hc => by simp [hw c hc]
    have hd' : m.dropped.filter p = [] :=
      List.filter_eq_nil_iff.mpr fun c hc => by simp [hp c (hdropped c hc)]
    rw [replaceAll_found hfind, List.filter_append, List.filter_append, hw', ih]
    conv => rhs; rw [ht]
    rw [List.filter_append, List.filter_append, hd', List.append_nil, List.nil_append]

/-- No scanner passes the character, and none of the class follows it. -/
structure Divides (P : Pattern α) (c : α) (y : List α) : Prop where
  stops : ∀ f ∈ P.scanners, f.StopsAt c
  next : ∀ d ∈ y.head?, P.dropped d = false

theorem dropped_of_divides (h : P.Divides c y) (s : List α) :
    (s ++ c :: y).takeWhile P.dropped = (s ++ [c]).takeWhile P.dropped ∧
      (s ++ c :: y).dropWhile P.dropped = (s ++ [c]).dropWhile P.dropped ++ y := by
  cases y with
  | nil => simp
  | cons d y =>
    have := Scanner.takeWhile_append_cons (h.next d rfl) (s ++ [c]) y
    simpa using this

theorem followedBy_of_divides (h : P.Divides c y) {f : Scanner α} (hf : f ∈ P.scanners)
    (s : List α) :
    f.followedBy P.dropped (s ++ c :: y) =
      (f.followedBy P.dropped (s ++ [c])).map (·.append y) := by
  obtain hnone | ⟨read, rest, hsome⟩ := h.stops f hf s
  · simp [Scanner.followedBy, hnone]
  · obtain ⟨htake, hdrop⟩ := dropped_of_divides h rest
    simp only [Scanner.followedBy, hsome, Option.bind_some, htake, hdrop]
    split
    next => rfl
    next => rfl

theorem find_of_divides (h : P.Divides c y) (s : List α) :
    P.find (s ++ c :: y) = (P.find (s ++ [c])).map (·.append y) := by
  suffices ∀ fs : List (Scanner α), (∀ f ∈ fs, f ∈ P.scanners) →
      (fs.findSome? fun f => f.followedBy P.dropped (s ++ c :: y)) =
        (fs.findSome? fun f => f.followedBy P.dropped (s ++ [c])).map (·.append y) from this _
          fun _ => id
  intro fs hfs
  induction fs with
  | nil => rfl
  | cons f fs ih =>
    rw [List.findSome?_cons, List.findSome?_cons,
      followedBy_of_divides h (hfs f List.mem_cons_self)]
    cases f.followedBy P.dropped (s ++ [c]) with
    | none => exact ih fun g hg => hfs g (List.mem_cons_of_mem f hg)
    | some m => rfl

/-- The text falls into two at the character: no match is on both sides. -/
theorem replaceAll_append (h : P.Divides c y) (x : List α) :
    P.replaceAll w (x ++ c :: y) = P.replaceAll w (x ++ [c]) ++ P.replaceAll w y := by
  suffices ∀ t, (∃ s, t = s ++ [c]) ∨ t = [] →
    P.replaceAll w (t ++ y) = P.replaceAll w t ++ P.replaceAll w y by
    have := this (x ++ [c]) (.inl ⟨x, rfl⟩)
    rwa [List.append_assoc] at this
  intro t
  induction t using P.induction with
  | nil => exact fun _ => rfl
  | skip d t hfind ih =>
    rintro (⟨s, hs⟩ | hnil)
    · have hfind' : P.find (d :: (t ++ y)) = none := by
        have := find_of_divides h s
        rw [← hs, hfind] at this
        rwa [show s ++ c :: y = (s ++ [c]) ++ y by simp, ← hs] at this
      rw [List.cons_append, replaceAll_skip hfind', replaceAll_skip hfind, List.cons_append]
      refine congrArg (d :: ·) (ih ?_)
      cases s with
      | nil => cases hs; exact .inr rfl
      | cons e s => cases hs; exact .inl ⟨s, rfl⟩
    · cases hnil
  | found t m hfind ih =>
    rintro (⟨s, hs⟩ | rfl)
    · have hfind' : P.find (t ++ y) = some (m.append y) := by
        have := find_of_divides h s
        rwa [show s ++ c :: y = (s ++ [c]) ++ y by simp, ← hs, hfind] at this
      rw [replaceAll_found hfind', replaceAll_found hfind]
      refine (congrArg (m.kept ++ w ++ ·) (ih ?_)).trans (List.append_assoc ..).symm
      -- the rest is a part of the text, so that it ends in the same character
      rcases List.eq_nil_or_concat m.rest with hnil | ⟨r, d, hr⟩
      · exact .inr hnil
      · rw [List.concat_eq_append] at hr
        have hlast := (find_spec hfind).1
        rw [hr, hs, ← List.append_assoc, ← List.append_assoc] at hlast
        obtain ⟨-, hd⟩ := List.append_inj' hlast rfl
        cases hd
        exact .inl ⟨r, hr⟩
    · exact absurd (rest_length_lt hfind) (Nat.not_lt_zero _)

end Pattern

end Tonatiuh.Text
