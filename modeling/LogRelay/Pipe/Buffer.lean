import LogRelay.Text.Utf8

/-!
# The buffer of a pipe

Unread bytes lie in a limited number of pages, the oldest first. What was read of a page is free again only when all of
it was. To the reader a buffer is the queue `toBytes`: `write` appends as much as it takes, `skip` drops from the front.
-/

namespace LogRelay

structure Page where
  /-- How many bytes were read already. -/
  spent : Nat
  unread : Bytes
  deriving DecidableEq

/-- The pages of a pipe that hold unread bytes. -/
abbrev PipeBuffer := List Page

namespace PipeBuffer

def pageSize : Nat := 4096

def maxPages : Nat := 16

def toBytes (b : PipeBuffer) : Bytes := b.flatMap Page.unread

/-- How many bytes of `data` go to the last page: those beyond whole pages, where it has room for all of them. -/
def merged (b : PipeBuffer) (data : Bytes) : Nat :=
  match b.getLast? with
  | none => 0
  | some last =>
    let part := data.length % pageSize
    if last.spent + last.unread.length + part ≤ pageSize then part else 0

def extendLast (bs : Bytes) : PipeBuffer → PipeBuffer
  | [] => []
  | [last] => [{ last with unread := last.unread ++ bs }]
  | page :: rest => page :: extendLast bs rest

/-- `data` on new pages, as much as fits on so many. -/
def newPages : Nat → Bytes → List Page
  | 0, _ => []
  | _, [] => []
  | most + 1, data => ⟨0, data.take pageSize⟩ :: newPages most (data.drop pageSize)

/-- Writes what there is room for, and says how much that is. -/
def write (b : PipeBuffer) (data : Bytes) : Nat × PipeBuffer :=
  let n := b.merged data
  let pages := newPages (maxPages - b.length) (data.drop n)
  (n + (toBytes pages).length, b.extendLast (data.take n) ++ pages)

def skip : Nat → PipeBuffer → PipeBuffer
  | _, [] => []
  | n, page :: rest =>
    if n < page.unread.length then { spent := page.spent + n, unread := page.unread.drop n } :: rest
    else skip (n - page.unread.length) rest

theorem toBytes_skip (n : Nat) (b : PipeBuffer) : toBytes (skip n b) = b.toBytes.drop n := by
  induction b generalizing n with
  | nil => simp [skip, toBytes]
  | cons page rest ih =>
    rw [skip]
    split
    · next h => simp [toBytes, List.drop_append, Nat.sub_eq_zero_of_le (Nat.le_of_lt h)]
    · next h =>
      rw [ih]
      simp [toBytes, List.drop_append, List.drop_eq_nil_of_le (Nat.le_of_not_lt h)]

theorem toBytes_extendLast {b : PipeBuffer} (h : b ≠ []) (bs : Bytes) :
    toBytes (extendLast bs b) = b.toBytes ++ bs := by
  induction b with
  | nil => exact absurd rfl h
  | cons page rest ih =>
    cases rest with
    | nil => simp [extendLast, toBytes]
    | cons next rest =>
      have ih := ih (List.cons_ne_nil _ _)
      simp only [toBytes, extendLast, List.flatMap_cons, List.append_assoc] at ih ⊢
      rw [ih]

theorem toBytes_newPages (most : Nat) (data : Bytes) :
    toBytes (newPages most data) = data.take (toBytes (newPages most data)).length := by
  fun_induction newPages most data with
  | case1 => rfl
  | case2 => simp [toBytes]
  | case3 most data _ ih =>
    rw [toBytes, List.flatMap_cons, ← toBytes, List.length_append, List.take_add]
    by_cases h : data.length ≤ pageSize
    · have hd := List.drop_eq_nil_of_le h
      rw [hd] at ih ⊢
      cases most <;> simp [newPages, toBytes]
    · have hlen : (data.take pageSize).length = pageSize := by
        rw [List.length_take]; omega
      rw [hlen, ← ih]

theorem toBytes_write (b : PipeBuffer) (data : Bytes) :
    toBytes (b.write data).2 = b.toBytes ++ data.take (b.write data).1 := by
  have hpages := toBytes_newPages (maxPages - b.length) (data.drop (b.merged data))
  have hmerged : toBytes (extendLast (data.take (b.merged data)) b) = b.toBytes ++ data.take (b.merged data) := by
    cases b with
    | nil => rfl
    | cons page rest => exact toBytes_extendLast (List.cons_ne_nil _ _) _
  rw [write, List.take_add, ← List.append_assoc, ← hpages, ← hmerged]
  simp [toBytes]

end PipeBuffer
end LogRelay
