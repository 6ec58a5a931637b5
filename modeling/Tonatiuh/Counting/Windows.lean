import Mathlib.Data.List.TakeWhile
import Mathlib.Algebra.Order.Ring.Int

/-! Fixed windows over a list of times.

The first time opens a window, which holds the times that follow it until one is at least `length`
later; that one opens the next window. A counter that starts afresh with each window numbers the
times of a window from one. -/

namespace Tonatiuh.Counting

variable {α : Type*} {length : Int} {t : Int} {times : List Int}

/-- The times cut into windows, in their order. -/
def windows (length : Int) : List Int → List (List Int)
  | [] => []
  | t :: times =>
    (t :: times.takeWhile (· < t + length)) :: windows length (times.dropWhile (· < t + length))
termination_by times => times.length
decreasing_by
  have := (List.dropWhile_suffix (l := times) (· < t + length)).length_le
  simp only [List.length_cons]
  omega

theorem windows_nil : windows length [] = [] := by rw [windows]

theorem windows_cons : windows length (t :: times) =
    (t :: times.takeWhile (· < t + length)) ::
      windows length (times.dropWhile (· < t + length)) := by
  rw [windows]

/-! ## Numbering -/

/-- `f` of the number of each time in its window, counted from `n`, and the time. -/
def number (f : Nat → Int → α) : (n : Nat) → List Int → List α
  | _, [] => []
  | n, t :: times => f n t :: number f (n + 1) times

/-- Of the times of a window, those with the numbers up to `limit` are at most `limit`. -/
theorem countP_number_le {f : Nat → Int → α} {p : α → Bool} {limit : Nat}
    (hp : ∀ n t, p (f n t) = true → n ≤ limit) (n : Nat) (times : List Int) :
    (number f n times).countP p ≤ limit + 1 - n := by
  induction times generalizing n with
  | nil => exact Nat.zero_le _
  | cons t times ih =>
    rw [number, List.countP_cons]
    have hrest := ih (n + 1)
    split
    next hfirst =>
      have := hp n t hfirst
      omega
    next => omega

end Tonatiuh.Counting
