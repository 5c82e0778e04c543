import Mathlib.Data.List.Basic

/-!
# Messages in a stream

`frame stop` writes messages into a stream, each with `stop` behind it, and `unframe stop` is what a
reader finds there: the complete messages, and the beginning of the next one.  Of messages without
`stop` it finds exactly those that were written (`unframe_frame`), however far the writer has got with
the last one.
-/

set_option autoImplicit false

namespace Framing

universe u

variable {α : Type u} (stop : α)

/-- Each message with the terminator behind it. -/
def frame (messages : List (List α)) : List α := messages.flatMap (· ++ [stop])

/-- The complete messages of a stream, and what follows the last terminator. -/
def unframe [DecidableEq α] : List α → List (List α) × List α
  | [] => ([], [])
  | c :: cs =>
    if c = stop then ([] :: (unframe cs).1, (unframe cs).2)
    else
      match unframe cs with
      | (m :: messages, rest) => ((c :: m) :: messages, rest)
      | ([], rest) => ([], c :: rest)

@[simp] theorem frame_nil : frame stop ([] : List (List α)) = [] := rfl

@[simp] theorem frame_cons (m : List α) (messages : List (List α)) :
    frame stop (m :: messages) = m ++ stop :: frame stop messages := by
  simp [frame]

theorem frame_append (messages more : List (List α)) :
    frame stop (messages ++ more) = frame stop messages ++ frame stop more := by
  simp [frame]

variable [DecidableEq α]

variable {stop}

/-- The beginning of a message is not complete. -/
theorem unframe_of_notMem {rest : List α} (h : stop ∉ rest) : unframe stop rest = ([], rest) := by
  induction rest with
  | nil => rfl
  | cons c rest ih =>
    rw [List.mem_cons, not_or] at h
    rw [unframe, if_neg (Ne.symm h.1), ih h.2]

theorem unframe_cons {m : List α} (h : stop ∉ m) (stream : List α) :
    unframe stop (m ++ stop :: stream) =
      (m :: (unframe stop stream).1, (unframe stop stream).2) := by
  induction m with
  | nil => rw [List.nil_append, unframe, if_pos rfl]
  | cons c m ih =>
    rw [List.mem_cons, not_or] at h
    rw [List.cons_append, unframe, if_neg (Ne.symm h.1), ih h.2]

/-- **It finds the messages that were written**, and what there is of the next one. -/
theorem unframe_frame {messages : List (List α)} (h : ∀ m ∈ messages, stop ∉ m) {rest : List α}
    (hrest : stop ∉ rest) : unframe stop (frame stop messages ++ rest) = (messages, rest) := by
  induction messages with
  | nil => exact unframe_of_notMem hrest
  | cons m messages ih =>
    rw [List.forall_mem_cons] at h
    rw [frame_cons, List.append_assoc, List.cons_append, unframe_cons h.1, ih h.2]

end Framing
