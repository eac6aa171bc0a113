import Mathlib.Data.List.TakeDrop
import TableBuffer.Proofs.AlikeCalls

/-!
# The arena in memory

An arena keeps apart what is written, how much room is free and what the free bytes still hold. In memory
these are one block of cells with a cursor: the free cells are those before it. Room is made by copying the
written cells to the end of a larger block of zeros, and nothing is ever wiped. `block_act` says that the block of
an arena goes through every action as the arena does, faults and refusals included.
-/

namespace TableBuffer

namespace Arena

/-- What is done to an arena. -/
inductive Action
  | reserve (n : Nat)
  | pad (n : Nat)
  | fill (bytes : List UInt8)
  | overwrite (offset : Nat) (bytes : List UInt8)
  | clear

/-- The arena after an action. -/
def attempt (a : Arena) : Action → Outcome Arena
  | .reserve n => a.reserve n
  | .pad n => a.pad n
  | .fill bytes => a.prepend bytes
  | .overwrite offset bytes => a.overwrite offset bytes
  | .clear => .ok a.clear

/-- The answer to an action and the arena that is there afterwards. -/
def act (a : Arena) (x : Action) : Outcome Unit × Arena :=
  match a.attempt x with
  | .ok a => (.ok (), a)
  | .error f => (.error f, a)

/-- The answers to actions in a row, and the state after them. -/
def perform {σ : Type} (act : σ → Action → Outcome Unit × σ) (s : σ) :
    List Action → List (Outcome Unit) × σ
  | [] => ([], s)
  | x :: rest =>
    let (answer, s) := act s x
    let (answers, s) := perform act s rest
    (answer :: answers, s)

end Arena

/-- Cells of memory, lowest address first, that are written from `head` on. -/
structure Block where
  cells : List UInt8
  head : Nat
  limit : Nat

namespace Block

/-- Cells of zeros with nothing written. -/
def empty (capacity limit : Nat) : Block := ⟨List.replicate (min capacity limit) 0, min capacity limit, limit⟩

def size (b : Block) : Nat := b.cells.length - b.head

def written (b : Block) : List UInt8 := b.cells.drop b.head

/-- The written cells at the end of `room` new ones. -/
def moved (b : Block) (room : Nat) : Block where
  cells := splice (room - b.size) b.written (List.replicate room 0)
  head := room - b.size
  limit := b.limit

def reserve (b : Block) (n : Nat) : Outcome Unit × Block :=
  if n ≤ b.head then (.ok (), b)
  else
    let required := min (b.size + n) wordMax
    if b.limit < required then (.error (.error (.bufferTooLarge required b.limit)), b)
    else
      let room := min (max (min (2 * b.cells.length) wordMax) required) b.limit
      if room < Arena.allocationLimit then (.ok (), b.moved room) else (.error .fault, b)

/-- Moves the cursor to the front by as many cells as there are bytes, and fills them. -/
def fill (b : Block) (bytes : List UInt8) : Outcome Unit × Block :=
  if bytes.length ≤ b.head then
    let head := b.head - bytes.length
    (.ok (), { b with cells := splice head bytes b.cells, head := head })
  else (.error .fault, b)

def overwrite (b : Block) (offset : Nat) (bytes : List UInt8) : Outcome Unit × Block :=
  if offset ≤ b.cells.length ∧ bytes.length ≤ offset then
    (.ok (), { b with cells := splice (b.cells.length - offset) bytes b.cells })
  else (.error .fault, b)

def act (b : Block) : Arena.Action → Outcome Unit × Block
  | .reserve n => b.reserve n
  | .pad n => b.fill (List.replicate n 0)
  | .fill bytes => b.fill bytes
  | .overwrite offset bytes => b.overwrite offset bytes
  | .clear => (.ok (), { b with head := b.cells.length })

end Block

section Lists

variable {α : Type}

theorem takeD_eq_append (n : Nat) (xs : List α) (d : α) :
    xs.takeD n d = xs.take n ++ List.replicate (n - xs.length) d := by
  induction n generalizing xs with
  | zero => simp
  | succ n ih => cases xs <;> simp [ih, List.replicate_succ]

theorem takeD_add (m n : Nat) (xs : List α) (d : α) :
    xs.takeD (m + n) d = xs.takeD m d ++ (xs.drop m).takeD n d := by
  induction m generalizing xs with
  | zero => simp
  | succ m ih =>
    rw [Nat.add_right_comm, List.takeD_succ, List.takeD_succ, ih, List.drop_tail, List.cons_append]

theorem splice_append_right (front : List α) (start : Nat) (new tail : List α) :
    splice (front.length + start) new (front ++ tail) = front ++ splice start new tail := by
  simp only [splice, List.take_length_add_append, Nat.add_assoc, List.drop_length_add_append, List.append_assoc]

end Lists

/-- What the `n` cells in front of the cursor hold, if `stale` is what is known of them, nearest first. -/
def vacant (stale : List UInt8) (n : Nat) : List UInt8 := (stale.takeD n 0).reverse

theorem length_vacant (stale : List UInt8) (n : Nat) : (vacant stale n).length = n := by
  rw [vacant, List.length_reverse, List.takeD_length]

theorem vacant_nil (n : Nat) : vacant [] n = List.replicate n 0 := by
  rw [vacant, List.takeD_nil, List.reverse_replicate]

theorem vacant_add (stale : List UInt8) (m n : Nat) :
    vacant stale (m + n) = vacant (stale.drop m) n ++ vacant stale m := by
  rw [vacant, takeD_add, List.reverse_append, vacant, vacant]

theorem vacant_append (held stale : List UInt8) (n : Nat) :
    vacant (held ++ stale) (held.length + n) = vacant stale n ++ held.reverse := by
  rw [vacant_add, List.drop_left, vacant, vacant, List.takeD_left]

namespace Arena

variable {a : Arena}

theorem free_eq_vacant (a : Arena) (n : Nat) : a.free n = vacant a.stale n := by
  rw [vacant, takeD_eq_append]
  rfl

/-- The cells of an arena: the free bytes, then what is written. -/
def block (a : Arena) : Block := ⟨vacant a.stale a.headroom ++ a.written, a.headroom, a.limit⟩

@[simp] theorem head_block (a : Arena) : a.block.head = a.headroom := rfl

@[simp] theorem limit_block (a : Arena) : a.block.limit = a.limit := rfl

@[simp] theorem length_cells (a : Arena) : a.block.cells.length = a.capacity := by
  rw [block, List.length_append, length_vacant, capacity, size]

@[simp] theorem size_block (a : Arena) : a.block.size = a.size := by
  rw [Block.size, length_cells]
  exact Nat.add_sub_cancel_left ..

@[simp] theorem written_block (a : Arena) : a.block.written = a.written :=
  List.drop_left' (length_vacant ..)

theorem block_empty (capacity limit : Nat) : (empty capacity limit).block = Block.empty capacity limit := by
  simp only [block, empty, Block.empty, vacant_nil, List.append_nil]

section Grow

variable {required room : Nat} (hroom : room = min (max (min (2 * a.capacity) wordMax) required) a.limit)
  (hsize : a.size ≤ room)

include hroom hsize

theorem capacity_grow : (a.grow required).capacity = room := by
  simp only [capacity, size, grow] at *
  rw [← hroom]
  omega

/-- A larger arena is a larger block of zeros with the written cells at its end. -/
theorem block_grow : (a.grow required).block = a.block.moved room := by
  have hend : List.drop (room - a.size + a.written.length) (List.replicate room (0 : UInt8)) = [] := by
    rw [List.drop_eq_nil_iff, List.length_replicate, ← size]
    omega
  rw [Block.moved, size_block, written_block, splice, List.take_replicate, hend, List.append_nil,
    Nat.min_eq_left (Nat.sub_le ..)]
  simp only [block, grow, ← hroom, vacant_nil]

end Grow

theorem block_reserve (hfits : a.Fits) (hlimit : a.limit < allocationLimit) (n : Nat) :
    a.block.reserve n = ((a.act (.reserve n)).1, (a.act (.reserve n)).2.block) := by
  rw [Block.reserve, head_block, limit_block, size_block, length_cells, act, attempt, reserve]
  by_cases hn : n ≤ a.headroom
  · rw [if_pos hn, if_pos hn]
  · rw [if_neg hn, if_neg hn]
    dsimp only
    generalize hrequired : min (a.size + n) wordMax = required
    by_cases hr : required ≤ a.limit
    · have hsize : a.size ≤ a.limit := Nat.le_trans (Nat.le_add_left ..) hfits
      generalize hroom : min (max (min (2 * a.capacity) wordMax) required) a.limit = room
      have hle : a.size ≤ room := by
        simp only [wordMax, wordLimit, allocationLimit] at *
        omega
      have hfree : room < allocationLimit := by omega
      have hgrown : (a.grow required).allocated = .ok (a.grow required) := by
        refine allocated_eq_ok_iff.2 ⟨?_, rfl⟩
        rwa [capacity_grow hroom.symm hle]
      rw [if_pos hr, if_neg (Nat.not_lt.2 hr), if_pos hfree, hgrown, ← block_grow hroom.symm hle]
    · rw [if_neg hr, if_pos (Nat.not_le.1 hr)]

/-- The cells nearest to the cursor are filled, whatever they held. -/
theorem block_fill (a : Arena) (bytes : List UInt8) :
    a.block.fill bytes = ((a.act (.fill bytes)).1, (a.act (.fill bytes)).2.block) := by
  rw [Block.fill, head_block, act, attempt, prepend]
  by_cases hn : bytes.length ≤ a.headroom
  · rw [if_pos hn, if_pos hn]
    have hcells := vacant_add a.stale bytes.length (a.headroom - bytes.length)
    rw [Nat.add_sub_of_le hn] at hcells
    have hsplice := @splice_append UInt8 (vacant (a.stale.drop bytes.length) (a.headroom - bytes.length)) _ bytes
      a.written (length_vacant a.stale bytes.length)
    rw [length_vacant] at hsplice
    dsimp only [block]
    rw [hcells, List.append_assoc, hsplice]
  · rw [if_neg hn, if_neg hn]

/-- The free bytes that are reached change with the written ones; those farther off stay. -/
theorem block_overwrite (a : Arena) (offset : Nat) (bytes : List UInt8) :
    a.block.overwrite offset bytes =
      ((a.act (.overwrite offset bytes)).1, (a.act (.overwrite offset bytes)).2.block) := by
  rw [Block.overwrite, length_cells, act, attempt, overwrite]
  by_cases hin : offset ≤ a.capacity ∧ bytes.length ≤ offset
  · rw [if_pos hin, if_pos hin]
    dsimp only
    generalize hreached : offset - a.size = reached
    obtain ⟨hoffset, hbytes⟩ := hin
    rw [capacity] at hoffset
    have hreach : reached + (a.headroom - reached) = a.headroom := by omega
    have hold := vacant_add a.stale reached (a.headroom - reached)
    rw [hreach, ← free_eq_vacant a reached] at hold
    generalize hall : a.free reached ++ a.written = all
    have hlength : all.length = reached + a.size := by rw [← hall, List.length_append, length_free, size]
    generalize hchanged : splice (all.length - offset) bytes all = changed
    have hheld : (changed.take reached).reverse.length = reached := by
      rw [List.length_reverse, List.length_take, ← hchanged, length_splice (by omega)]
      omega
    have hnew := vacant_append (changed.take reached).reverse (a.stale.drop reached) (a.headroom - reached)
    rw [hheld, hreach, List.reverse_reverse] at hnew
    have hstart : a.capacity - offset =
        (vacant (a.stale.drop reached) (a.headroom - reached)).length + (all.length - offset) := by
      rw [length_vacant, capacity]
      omega
    dsimp only [block]
    rw [hstart, hold, hnew, List.append_assoc, hall, splice_append_right, hchanged, List.append_assoc,
      List.take_append_drop]
  · rw [if_neg hin, if_neg hin]

/-- Nothing is wiped when all is forgotten. -/
theorem block_clear (a : Arena) : a.clear.block = { a.block with head := a.capacity } := by
  have hcells := vacant_append a.written.reverse a.stale a.headroom
  rw [List.length_reverse, List.reverse_reverse, Nat.add_comm] at hcells
  simp only [block, clear, capacity, size, hcells, List.append_nil]

/-- The block of an arena goes through every action as the arena does. -/
theorem block_act (hfits : a.Fits) (hlimit : a.limit < allocationLimit) (x : Action) :
    a.block.act x = ((a.act x).1, (a.act x).2.block) := by
  cases x with
  | reserve n => exact block_reserve hfits hlimit n
  | pad n =>
    rw [Block.act, block_fill, act, act, attempt, attempt, pad_eq_prepend]
  | fill bytes => exact block_fill a bytes
  | overwrite offset bytes => exact block_overwrite a offset bytes
  | clear =>
    rw [Block.act, length_cells, ← block_clear]
    rfl

end Arena

end TableBuffer
