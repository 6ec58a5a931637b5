import Mathlib.Data.List.Basic

/-! Statements of SQL with placeholders, in the two ways of writing them: PostgreSQL numbers its
placeholders, `$1`, `$2` and so on, and SQLite counts its `?` in their order.

A statement is made of texts and values. `write` writes it with placeholders, and `bind` reads the
placeholders of a text and puts the parameters in their places. -/

namespace Tonatiuh.Sql

inductive Dialect where
  | numbered | positional
  deriving DecidableEq, Repr

namespace Dialect

def marker : Dialect → Char
  | .numbered => '$'
  | .positional => '?'

def placeholder (d : Dialect) (i : Nat) : String :=
  match d with
  | .numbered => "$" ++ toString i
  | .positional => "?"

/-- The number of a placeholder of which the marker has been read, and the text after it. The `i`-th
stands here. -/
def number (d : Dialect) (i : Nat) (cs : List Char) : Nat × List Char :=
  match d with
  | .numbered => (Nat.ofDigitChars 10 (cs.takeWhile Char.isDigit) 0, cs.dropWhile Char.isDigit)
  | .positional => (i, cs)

theorem length_number_le (d : Dialect) (i : Nat) (cs : List Char) :
    (d.number i cs).2.length ≤ cs.length := by
  cases d with
  | numbered => exact (List.dropWhile_suffix _).length_le
  | positional => exact Nat.le_refl _

end Dialect

/-! ## Reading -/

/-- A character of a text, or the number of a placeholder. -/
inductive Piece where
  | char (c : Char)
  | placeholder (i : Nat)
  deriving DecidableEq, Repr

/-- A character of a statement, or a parameter in its place. -/
inductive Token (α : Type) where
  | char (c : Char)
  | value (v : α)
  deriving DecidableEq, Repr

namespace Dialect

/-- A marker between double quotes is a part of a name. -/
def pieces (d : Dialect) (quoted : Bool) (i : Nat) : List Char → List Piece
  | [] => []
  | c :: cs =>
    if !quoted && c == d.marker then
      .placeholder (d.number i cs).1 :: d.pieces false (i + 1) (d.number i cs).2
    else .char c :: d.pieces (quoted ^^ c == '"') i cs
  termination_by cs => cs.length
  decreasing_by
  · exact Nat.lt_succ_of_le (d.length_number_le i cs)
  · exact Nat.lt_succ_self _

end Dialect

def Piece.index : Piece → Option Nat
  | .char _ => none
  | .placeholder i => some i

/-- The numbers of the placeholders of a text, in their order. -/
def Dialect.placeholders (d : Dialect) (text : String) : List Nat :=
  (d.pieces false 1 text.toList).filterMap Piece.index

variable {α : Type}

def Piece.resolve (params : List α) : Piece → Option (Token α)
  | .char c => some (.char c)
  | .placeholder 0 => none
  | .placeholder (i + 1) => params[i]?.map .value

/-- The statement that a text means with its parameters, if each placeholder has one. -/
def Dialect.bind (d : Dialect) (text : String) (params : List α) : Option (List (Token α)) :=
  (d.pieces false 1 text.toList).mapM (Piece.resolve params)

/-! ## Writing -/

def apostrophe : Char := Char.ofNat 39

/-- A text that holds no placeholder and no string, with whole quoted names. -/
structure PlainText where
  text : String
  plain : text.toList.all (fun c => c != '$' && c != '?' && c != apostrophe) = true
  closed : text.toList.count '"' % 2 = 0
  deriving DecidableEq

namespace PlainText

instance : Append PlainText where
  append s t := {
    text := s.text ++ t.text
    plain := by simp only [String.toList_append, List.all_append, s.plain, t.plain, Bool.and_self]
    closed := by
      rw [String.toList_append, List.count_append, Nat.add_mod, s.closed, t.closed] }

@[simp] theorem text_append (s t : PlainText) : (s ++ t).text = s.text ++ t.text := rfl

def of (text : String)
    (plain : text.toList.all (fun c => c != '$' && c != '?' && c != apostrophe) = true := by decide)
    (closed : text.toList.count '"' % 2 = 0 := by decide) : PlainText := ⟨text, plain, closed⟩

@[simp] theorem text_of (text : String) (plain) (closed) : (of text plain closed).text = text := rfl

def empty : PlainText := of ""

def intercalate (separator : PlainText) : List PlainText → PlainText
  | [] => empty
  | [t] => t
  | t :: u :: ts => t ++ separator ++ intercalate separator (u :: ts)

theorem ne_of_mem_repr {n : Nat} {c : Char} (h : c ∈ n.repr.toList) {d : Char}
    (hd : d.isDigit = false) : c ≠ d := by
  rw [Nat.toList_repr] at h
  rintro rfl
  rw [Nat.isDigit_of_mem_toDigits (by decide) (by decide) h] at hd
  cases hd

def ofNat (n : Nat) : PlainText where
  text := n.repr
  plain := by
    rw [List.all_eq_true]
    intro c hc
    simp [ne_of_mem_repr hc (d := '$') rfl, ne_of_mem_repr hc (d := '?') rfl,
      ne_of_mem_repr hc (d := apostrophe) rfl]
  closed := by
    rw [List.count_eq_zero.mpr fun hmem => ne_of_mem_repr hmem (d := '"') rfl rfl]

theorem ne_marker {t : PlainText} {c : Char} (h : c ∈ t.text.toList) (d : Dialect) :
    c ≠ d.marker := by
  have hplain := List.all_eq_true.mp t.plain c h
  simp only [Bool.and_eq_true, bne_iff_ne] at hplain
  cases d with
  | numbered => exact hplain.1.1
  | positional => exact hplain.1.2

end PlainText

inductive Fragment (α : Type) where
  | text (t : PlainText)
  | value (v : α)

namespace Fragment

def write (d : Dialect) : Nat → List (Fragment α) → String
  | _, [] => ""
  | i, .text t :: rest => t.text ++ write d i rest
  | i, .value _ :: rest => d.placeholder i ++ write d (i + 1) rest

/-- The parameters, in the order of their places. -/
def values : List (Fragment α) → List α
  | [] => []
  | .text _ :: rest => values rest
  | .value v :: rest => v :: values rest

def tokens : List (Fragment α) → List (Token α)
  | [] => []
  | .text t :: rest => t.text.toList.map .char ++ tokens rest
  | .value v :: rest => .value v :: tokens rest

def pieces : Nat → List (Fragment α) → List Piece
  | _, [] => []
  | i, .text t :: rest => t.text.toList.map .char ++ pieces i rest
  | i, .value _ :: rest => .placeholder i :: pieces (i + 1) rest

def startsWithDigit : List (Fragment α) → Bool
  | [] => false
  | .text t :: rest =>
    match t.text.toList with
    | [] => startsWithDigit rest
    | c :: _ => c.isDigit
  | .value _ :: _ => false

/-- No digit follows a placeholder. -/
def Separated : List (Fragment α) → Prop
  | [] => True
  | .text _ :: rest => Separated rest
  | .value _ :: rest => startsWithDigit rest = false ∧ Separated rest

theorem write_append (d : Dialect) (i : Nat) (xs ys : List (Fragment α)) :
    write d i (xs ++ ys) = write d i xs ++ write d (i + (values xs).length) ys := by
  induction xs generalizing i with
  | nil => simp [write, values]
  | cons x xs ih =>
    cases x with
    | text t => simp [write, values, ih, String.append_assoc]
    | value v => simp [write, values, ih, String.append_assoc, Nat.add_assoc, Nat.add_comm 1]

theorem values_append (xs ys : List (Fragment α)) : values (xs ++ ys) = values xs ++ values ys := by
  induction xs with
  | nil => rfl
  | cons x xs ih =>
    cases x with
    | text t => exact ih
    | value v => exact congrArg (v :: ·) ih

theorem startsWithDigit_append {xs ys : List (Fragment α)} (hx : startsWithDigit xs = false)
    (hy : startsWithDigit ys = false) : startsWithDigit (xs ++ ys) = false := by
  induction xs with
  | nil => exact hy
  | cons x xs ih =>
    cases x with
    | text t =>
      rw [List.cons_append]
      rw [startsWithDigit] at hx ⊢
      split
      next hnil =>
        rw [hnil] at hx
        exact ih hx
      next c rest hcons =>
        rw [hcons] at hx
        exact hx
    | value v => rfl

theorem Separated.append {xs ys : List (Fragment α)} (hx : Separated xs) (hy : Separated ys)
    (hstart : startsWithDigit ys = false) : Separated (xs ++ ys) := by
  induction xs with
  | nil => exact hy
  | cons x xs ih =>
    cases x with
    | text t => exact ih hx
    | value v => exact ⟨startsWithDigit_append hx.1 hstart, ih hx.2⟩

end Fragment

/-! ## What is written is read -/

namespace Dialect

theorem odd_count_cons (c : Char) (t : List Char) :
    ((c :: t).count '"' % 2 == 1) = (c == '"' ^^ t.count '"' % 2 == 1) := by
  rw [List.count_cons]
  cases c == '"' with
  | false => simp
  | true => rcases Nat.mod_two_eq_zero_or_one (t.count '"') with h | h <;> simp [Nat.add_mod, h]

theorem pieces_plain {d : Dialect} {t : List Char} (h : ∀ c ∈ t, c ≠ d.marker)
    (quoted : Bool) (i : Nat) (rest : List Char) : d.pieces quoted i (t ++ rest) =
      t.map .char ++ d.pieces (quoted ^^ t.count '"' % 2 == 1) i rest := by
  induction t generalizing quoted with
  | nil => simp
  | cons c t ih =>
    have hc : (c == d.marker) = false := beq_false_of_ne (h c List.mem_cons_self)
    have ih := ih (fun c' hc' => h c' (List.mem_cons_of_mem _ hc')) (quoted ^^ c == '"')
    rw [List.cons_append, pieces, hc, Bool.and_false, if_neg Bool.false_ne_true, ih, odd_count_cons,
      Bool.xor_assoc, List.map_cons, List.cons_append]

theorem pieces_text (d : Dialect) (t : PlainText) (i : Nat) (rest : List Char) :
    d.pieces false i (t.text.toList ++ rest) =
      t.text.toList.map .char ++ d.pieces false i rest := by
  rw [pieces_plain (fun c hc => PlainText.ne_marker hc d), t.closed]
  rfl

theorem pieces_placeholder (d : Dialect) (i : Nat) {rest : List Char}
    (h : ∀ c ∈ rest.head?, c.isDigit = false) :
    d.pieces false i ((d.placeholder i).toList ++ rest) =
      .placeholder i :: d.pieces false (i + 1) rest := by
  cases d with
  | positional =>
    rw [placeholder, show "?".toList = ['?'] from rfl, List.singleton_append, pieces]
    rfl
  | numbered =>
    have hdigits : ∀ c ∈ Nat.toDigits 10 i, c.isDigit = true :=
      fun c hc => Nat.isDigit_of_mem_toDigits (by decide) (by decide) hc
    have htake : (Nat.toDigits 10 i ++ rest).takeWhile Char.isDigit = Nat.toDigits 10 i := by
      rw [List.takeWhile_append_of_pos hdigits]
      cases rest with
      | nil => exact List.append_nil _
      | cons c rest => simp [h c rfl]
    have hdrop : (Nat.toDigits 10 i ++ rest).dropWhile Char.isDigit = rest := by
      rw [List.dropWhile_append_of_pos hdigits]
      cases rest with
      | nil => rfl
      | cons c rest => simp [h c rfl]
    rw [placeholder, String.toList_append, Nat.toString_eq_repr, Nat.toList_repr,
      show "$".toList = ['$'] from rfl, List.append_assoc, List.singleton_append, pieces, number]
    dsimp only
    rw [htake, hdrop, Nat.ofDigitChars_ten_toDigits]
    rfl

end Dialect

namespace Fragment

theorem head_write_ne_digit (d : Dialect) (i : Nat) {fs : List (Fragment α)}
    (h : startsWithDigit fs = false) :
    ∀ c ∈ (write d i fs).toList.head?, c.isDigit = false := by
  induction fs with
  | nil => simp [write]
  | cons f fs ih =>
    cases f with
    | text t =>
      rw [startsWithDigit] at h
      rw [write, String.toList_append]
      split at h
      next hnil =>
        rw [hnil]
        exact ih h
      next c rest hcons =>
        rw [hcons]
        rintro _ ⟨⟩
        exact h
    | value v =>
      rw [write, String.toList_append]
      cases d with
      | numbered =>
        rw [Dialect.placeholder, String.toList_append]
        rintro _ ⟨⟩
        rfl
      | positional =>
        rw [Dialect.placeholder, show "?".toList = ['?'] from rfl]
        rintro _ ⟨⟩
        rfl

theorem pieces_write (d : Dialect) (i : Nat) {fs : List (Fragment α)} (h : Separated fs) :
    d.pieces false i (write d i fs).toList = pieces i fs := by
  induction fs generalizing i with
  | nil => rw [write, pieces, String.toList_empty, Dialect.pieces]
  | cons f fs ih =>
    cases f with
    | text t => rw [write, String.toList_append, d.pieces_text, ih i h, pieces]
    | value v =>
      rw [write, String.toList_append, d.pieces_placeholder i (head_write_ne_digit d (i + 1) h.1),
        ih (i + 1) h.2, pieces]

theorem mapM_resolve_chars (params : List α) (cs : List Char) :
    (cs.map .char).mapM (Piece.resolve params) = some (cs.map .char) := by
  induction cs with
  | nil => rfl
  | cons c cs ih => rw [List.map_cons, List.mapM_cons, ih, List.map_cons]; rfl

theorem bind_pieces (prior : List α) (fs : List (Fragment α)) :
    (pieces (prior.length + 1) fs).mapM (Piece.resolve (prior ++ values fs)) =
      some (tokens fs) := by
  induction fs generalizing prior with
  | nil => rfl
  | cons f fs ih =>
    cases f with
    | text t =>
      rw [pieces, List.mapM_append, values, mapM_resolve_chars, ih prior]
      rfl
    | value v =>
      have hlength : prior.length + 1 = (prior ++ [v]).length := by
        rw [List.length_append, List.length_singleton]
      have hnext := ih (prior ++ [v])
      rw [← hlength, List.append_assoc, List.singleton_append] at hnext
      rw [pieces, List.mapM_cons, values, hnext, Piece.resolve]
      simp [tokens]

theorem bind_write (d : Dialect) {fs : List (Fragment α)} (h : Separated fs) :
    d.bind (write d 1 fs) (values fs) = some (tokens fs) := by
  rw [Dialect.bind, pieces_write d 1 h]
  exact bind_pieces [] fs

theorem filterMap_index_chars (cs : List Char) : (cs.map .char).filterMap Piece.index = [] := by
  induction cs with
  | nil => rfl
  | cons c cs ih => exact ih

theorem filterMap_index_pieces (i : Nat) (fs : List (Fragment α)) :
    (pieces i fs).filterMap Piece.index = List.range' i (values fs).length := by
  induction fs generalizing i with
  | nil => rfl
  | cons f fs ih =>
    cases f with
    | text t =>
      rw [pieces, List.filterMap_append, filterMap_index_chars, List.nil_append, ih i, values]
    | value v =>
      rw [values, List.length_cons, List.range'_succ, ← ih (i + 1)]
      rfl

theorem placeholders_write (d : Dialect) {fs : List (Fragment α)} (h : Separated fs) :
    d.placeholders (write d 1 fs) = List.range' 1 (values fs).length := by
  rw [Dialect.placeholders, pieces_write d 1 h, filterMap_index_pieces]

/-! ## Lists in statements -/

def joined (separator : PlainText) (f : β → List (Fragment α)) (xs : List β) : List (Fragment α) :=
  [.text separator].intercalate (xs.map f)

theorem joined_cons_cons (separator : PlainText) (f : β → List (Fragment α)) (x y : β)
    (xs : List β) :
    joined separator f (x :: y :: xs) =
      f x ++ ([.text separator] ++ joined separator f (y :: xs)) := by
  rw [joined, List.map_cons, List.map_cons, List.intercalate_cons_cons, List.append_assoc, joined,
    List.map_cons]

theorem joined_singleton (separator : PlainText) (f : β → List (Fragment α)) (x : β) :
    joined separator f [x] = f x := by
  rw [joined, List.map_singleton, List.intercalate_singleton]

theorem values_joined (separator : PlainText) (f : β → List (Fragment α)) (xs : List β) :
    values (joined separator f xs) = xs.flatMap fun x => values (f x) := by
  induction xs with
  | nil => rfl
  | cons x xs ih =>
    cases xs with
    | nil => rw [joined_singleton, List.flatMap_singleton]
    | cons y ys =>
      rw [joined_cons_cons, values_append, values_append, ih, List.flatMap_cons]
      rfl

theorem Separated.joined {separator : PlainText}
    (hseparator : separator.text.toList.head?.any (!·.isDigit) = true)
    {f : β → List (Fragment α)} {xs : List β} (h : ∀ x ∈ xs, Separated (f x)) :
    Separated (joined separator f xs) := by
  have hstart : ∀ fs : List (Fragment α), startsWithDigit ([.text separator] ++ fs) = false := by
    intro fs
    rw [List.singleton_append, startsWithDigit]
    split
    next hnil => simp [hnil] at hseparator
    next c rest hcons => simpa [hcons] using hseparator
  induction xs with
  | nil => trivial
  | cons x xs ih =>
    have ih := ih fun y hy => h y (List.mem_cons_of_mem _ hy)
    cases xs with
    | nil =>
      rw [joined_singleton]
      exact h x List.mem_cons_self
    | cons y ys =>
      rw [joined_cons_cons]
      exact (h x List.mem_cons_self).append ih (hstart _)

/-- The `j`-th of the items holds the `j`-th of the placeholders. -/
theorem write_joined (d : Dialect) (i : Nat) (separator : PlainText) {f : β → List (Fragment α)}
    {xs : List β} (h : ∀ x ∈ xs, (values (f x)).length = 1) : write d i (joined separator f xs) =
      separator.text.intercalate (xs.mapIdx fun j x => write d (i + j) (f x)) := by
  induction xs generalizing i with
  | nil => rfl
  | cons x xs ih =>
    have hx := h x List.mem_cons_self
    have ih := ih (i + 1) fun y hy => h y (List.mem_cons_of_mem _ hy)
    cases xs with
    | nil =>
      rw [joined_singleton, List.mapIdx_singleton, String.intercalate_singleton, Nat.add_zero]
    | cons y ys =>
      have hindex : (fun j z => write d (i + (j + 1)) (f z)) =
          fun j z => write d (i + 1 + j) (f z) := by
        funext j z
        rw [Nat.add_comm j 1, Nat.add_assoc]
      have hne : (y :: ys).mapIdx (fun j z => write d (i + 1 + j) (f z)) ≠ [] :=
        fun hnil => List.cons_ne_nil _ _ (List.mapIdx_eq_nil_iff.mp hnil)
      rw [joined_cons_cons, write_append, hx, write_append, List.mapIdx_cons, hindex,
        String.intercalate_cons_of_ne_nil hne, ← ih]
      simp [write, values, String.append_assoc]

end Fragment

end Tonatiuh.Sql
