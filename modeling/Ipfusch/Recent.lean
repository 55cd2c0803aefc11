import Mathlib.Data.List.DropRight

/-!
# The last entries of a stream

A `Recent k α` is a queue of at most `k` entries. `push` adds an entry at the end, and removes the
first one if there are too many.

`foldl_push` : a queue that entries are pushed to holds the last `k` of them (`ofList`), in order.
-/

/-- A queue of at most `k` entries, the oldest first. -/
@[ext] structure Recent (k : ℕ) (α : Type*) where
  entries : List α
  length_le : entries.length ≤ k

namespace Recent

variable {k : ℕ} {α : Type*}

/-- No entries. -/
def empty : Recent k α where
  entries := []
  length_le := Nat.zero_le k

/-- Add an entry, and remove the first one if there are then more than `k`. -/
def push (q : Recent k α) (a : α) : Recent k α where
  entries := if k < (q.entries ++ [a]).length then (q.entries ++ [a]).tail else q.entries ++ [a]
  length_le := by
    have hle := q.length_le
    split_ifs with h
    · simp only [List.length_tail, List.length_append, List.length_singleton]
      omega
    · exact not_lt.mp h

/-- The last `k` entries of a list. -/
def ofList (l : List α) : Recent k α where
  entries := l.rtake k
  length_le := by
    rw [List.rtake, List.length_drop]
    omega

theorem ofList_nil : (ofList [] : Recent k α) = empty :=
  Recent.ext (List.rtake_nil k)

/-- The last entries of a longer list : one more, without the first one if there are too many. -/
theorem rtake_concat (l : List α) (a : α) : (l ++ [a]).rtake k =
    if k < (l.rtake k ++ [a]).length then (l.rtake k ++ [a]).tail else l.rtake k ++ [a] := by
  unfold List.rtake
  rw [← List.drop_append_of_le_length (Nat.sub_le _ _), List.tail_drop, List.length_drop,
    List.length_append, List.length_singleton]
  split_ifs with h
  · congr 1
    omega
  · congr 1
    omega

theorem push_ofList (l : List α) (a : α) : (ofList l : Recent k α).push a = ofList (l ++ [a]) :=
  Recent.ext (rtake_concat l a).symm

/-- The last entries of what was there and of what is pushed. -/
theorem foldl_push (l l' : List α) :
    l'.foldl push (ofList l : Recent k α) = ofList (l ++ l') := by
  induction l' generalizing l with
  | nil => rw [List.append_nil, List.foldl_nil]
  | cons a rest ih =>
    rw [List.foldl_cons, push_ofList, ih, List.append_assoc, List.singleton_append]

end Recent
