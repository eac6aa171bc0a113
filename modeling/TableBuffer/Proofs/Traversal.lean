import Mathlib.Data.Set.List
import TableBuffer.Proofs.Access
import TableBuffer.Proofs.Reading
import TableBuffer.Vector.Cursor

/-!
# A walk from both ends takes every element once

To its user a cursor is a deque of the elements that are left. The deque is a list here, of the indices rather
than of the elements, so that a vector of equal elements cannot hide that one of them comes twice. A cursor
stands for the indices from `front` up to `back`; every move keeps that, whichever end it is made at.
-/

namespace TableBuffer

/-- An element is read wherever its own bytes lie inside the image. -/
def Element.ReadsInside {α : Type} (element : Element α) : Prop :=
  ∀ m position, position + element.inlineSize ≤ m.size → ∃ a, element.read m position = .ok a

namespace Element

theorem scalar_readsInside (ty : ScalarType) : (scalar ty).ReadsInside := fun _ _ h => Image.scalar_of_le h

theorem struct_readsInside (layout : StructLayout) : (struct layout).ReadsInside := by
  intro m position h
  obtain ⟨bytes, hbytes⟩ := Image.exists_slice_iff.2 h
  exact ⟨_, map_eq_ok_iff.2 ⟨bytes, hbytes, rfl⟩⟩

/-- A table is not looked into when it is reached. -/
theorem table_readsInside : table.ReadsInside := by
  intro m position h
  obtain ⟨distance, hdistance⟩ := Image.word32_of_le h
  exact ⟨⟨m, position + distance⟩, bind_eq_ok_iff.2 ⟨_, bind_eq_ok_iff.2 ⟨_, hdistance, rfl⟩, rfl⟩⟩

end Element

namespace Vector

/-- What the user of a cursor does. -/
inductive Move
  | next
  | nextBack
  | remaining

inductive Answer (α : Type)
  | front (item : Option α)
  | back (item : Option α)
  | left (count : Nat)
  deriving DecidableEq

namespace Answer

variable {α β : Type}

def map (f : α → β) : Answer α → Answer β
  | front item => front (item.map f)
  | back item => back (item.map f)
  | left count => left count

def front? : Answer α → Option α
  | front item => item
  | _ => none

def back? : Answer α → Option α
  | back item => item
  | _ => none

/-- The answer with the elements at the indices that it names. -/
def read (v : Vector α) : Answer Nat → Outcome (Answer α)
  | front (some i) => (v.get? i).map front
  | back (some i) => (v.get? i).map back
  | front none => .ok (front none)
  | back none => .ok (back none)
  | left count => .ok (left count)

end Answer

/-- The items taken from the front, the first one first. -/
def fronts {α : Type} (answers : List (Answer α)) : List α := answers.filterMap Answer.front?

/-- The items taken from the back, the last one first. -/
def backs {α : Type} (answers : List (Answer α)) : List α := answers.filterMap Answer.back?

/-- How a deque of nothing answers. -/
def Move.exhausted {α : Type} : Move → Answer α
  | next => .front none
  | nextBack => .back none
  | remaining => .left 0

section Deque

variable {α : Type}

def dequeStep (items : List α) : Move → Answer α × List α
  | .next => (.front items.head?, items.tail)
  | .nextBack => (.back items.getLast?, items.dropLast)
  | .remaining => (.left items.length, items)

/-- What a deque of the items answers, and what is left in it. -/
def dequeWalk (items : List α) : List Move → List (Answer α) × List α
  | [] => ([], items)
  | move :: moves =>
    let (answer, items) := dequeStep items move
    let (answers, items) := dequeWalk items moves
    (answer :: answers, items)

theorem dequeStep_partition (items : List α) (move : Move) :
    (dequeStep items move).1.front?.toList ++ (dequeStep items move).2 ++
      (dequeStep items move).1.back?.toList = items := by
  cases move with
  | next => cases items <;> simp [dequeStep, Answer.front?, Answer.back?]
  | nextBack =>
    rcases List.eq_nil_or_concat items with rfl | ⟨init, last, rfl⟩ <;>
      simp [dequeStep, Answer.front?, Answer.back?]
  | remaining => simp [dequeStep, Answer.front?, Answer.back?]

/-- What was taken from the front, what is left, and what was taken from the back are the items in their
order: none is lost and none is taken twice. -/
theorem dequeWalk_partition (items : List α) (moves : List Move) :
    fronts (dequeWalk items moves).1 ++ (dequeWalk items moves).2 ++
      (backs (dequeWalk items moves).1).reverse = items := by
  induction moves generalizing items with
  | nil => simp [dequeWalk, fronts, backs]
  | cons move moves ih =>
    have hstep := dequeStep_partition items move
    have hrest := ih (dequeStep items move).2
    rw [← hrest] at hstep
    have hfronts (answer : Answer α) (answers : List (Answer α)) :
        fronts (answer :: answers) = answer.front?.toList ++ fronts answers := by
      rw [fronts, List.filterMap_cons]
      cases answer.front? <;> rfl
    have hbacks (answer : Answer α) (answers : List (Answer α)) :
        (backs (answer :: answers)).reverse = (backs answers).reverse ++ answer.back?.toList := by
      rw [backs, List.filterMap_cons]
      cases answer.back? <;> simp [backs]
    dsimp only [dequeWalk]
    rw [hfronts, hbacks]
    simpa only [List.append_assoc] using hstep

end Deque

namespace Cursor

variable {α : Type} {v : Vector α} {c : Cursor α} {indices : List Nat}

def step (c : Cursor α) : Move → Outcome (Answer α × Cursor α)
  | .next => do
    let (item, c) ← c.next
    return (.front item, c)
  | .nextBack => do
    let (item, c) ← c.nextBack
    return (.back item, c)
  | .remaining => return (.left c.remaining, c)

/-- What a cursor answers to moves in a row, and the cursor after them. -/
def walk (c : Cursor α) : List Move → Outcome (List (Answer α) × Cursor α)
  | [] => return ([], c)
  | move :: moves => do
    let (answer, c) ← c.step move
    let (answers, c) ← c.walk moves
    return (answer :: answers, c)

/-- The cursor stands for the indices that are left of the vector. -/
structure Spans (c : Cursor α) (v : Vector α) (indices : List Nat) : Prop where
  vector : c.vector = v
  ordered : c.front ≤ c.back
  inside : c.back ≤ v.length
  indices_eq : indices = List.range' c.front (c.back - c.front)

theorem spans_cursor (v : Vector α) : v.cursor.Spans v (List.range v.length) where
  vector := rfl
  ordered := Nat.zero_le _
  inside := Nat.le_refl _
  indices_eq := List.range_eq_range'

theorem Spans.remaining (h : c.Spans v indices) : c.remaining = indices.length := by
  rw [h.indices_eq, List.length_range']
  rfl

theorem walk_cons {c' : Cursor α} {move : Move} {answer : Answer α} (h : c.step move = .ok (answer, c'))
    (moves : List Move) :
    c.walk (move :: moves) = (c'.walk moves).map fun rest => (answer :: rest.1, rest.2) := by
  rw [walk, h]
  cases hwalk : c'.walk moves <;> simp only [ok_bind, hwalk] <;> rfl

theorem step_of_empty (h : ¬ c.front < c.back) (move : Move) : c.step move = .ok (move.exhausted, c) := by
  cases move with
  | next =>
    rw [step, Cursor.next, if_neg h]
    rfl
  | nextBack =>
    rw [step, Cursor.nextBack, if_neg h]
    rfl
  | remaining =>
    have hzero : c.remaining = 0 := Nat.sub_eq_zero_of_le (Nat.not_lt.1 h)
    rw [step, hzero]
    rfl

/-- A cursor with nothing left stays so, whatever it is asked. -/
theorem walk_of_empty (h : ¬ c.front < c.back) (moves : List Move) :
    c.walk moves = .ok (moves.map Move.exhausted, c) := by
  induction moves with
  | nil => rfl
  | cons move moves ih =>
    rw [walk_cons (step_of_empty h move), ih]
    rfl

/-- Each move of a cursor is the move of the deque, with the elements read at the indices. -/
theorem Spans.step (h : c.Spans v indices) (move : Move) :
    ∃ c', c'.Spans v (dequeStep indices move).2 ∧
      c.step move = ((dequeStep indices move).1.read v).map (·, c') := by
  obtain ⟨hvector, hordered, hinside, rfl⟩ := h
  by_cases hlt : c.front < c.back
  · cases move with
    | next =>
      have hindices : List.range' c.front (c.back - c.front) =
          c.front :: List.range' (c.front + 1) (c.back - (c.front + 1)) := by
        rw [show c.back - c.front = c.back - (c.front + 1) + 1 by omega, List.range'_succ]
      rw [hindices]
      refine ⟨{ c with front := c.front + 1 }, ⟨hvector, hlt, hinside, rfl⟩, ?_⟩
      rw [Cursor.step, Cursor.next, if_pos hlt, hvector]
      dsimp only [dequeStep, List.head?, Answer.read]
      cases v.get? c.front <;> rfl
    | nextBack =>
      have hindices : List.range' c.front (c.back - c.front) =
          List.range' c.front (c.back - 1 - c.front) ++ [c.back - 1] := by
        rw [show c.back - c.front = c.back - 1 - c.front + 1 by omega, List.range'_1_concat,
          show c.front + (c.back - 1 - c.front) = c.back - 1 by omega]
      rw [hindices]
      dsimp only [dequeStep]
      rw [List.dropLast_concat, List.getLast?_concat]
      refine ⟨{ c with back := c.back - 1 }, ⟨hvector, by dsimp only; omega, by dsimp only; omega, rfl⟩, ?_⟩
      rw [Cursor.step, Cursor.nextBack, if_pos hlt, hvector]
      dsimp only [Answer.read]
      cases v.get? (c.back - 1) <;> rfl
    | remaining =>
      refine ⟨c, ⟨hvector, hordered, hinside, rfl⟩, ?_⟩
      dsimp only [dequeStep]
      rw [List.length_range']
      rfl
  · have hempty : List.range' c.front (c.back - c.front) = [] := by
      rw [Nat.sub_eq_zero_of_le (Nat.not_lt.1 hlt), List.range'_zero]
    rw [step_of_empty hlt, hempty]
    refine ⟨c, ?_, by cases move <;> rfl⟩
    have hrest : (dequeStep ([] : List Nat) move).2 = [] := by cases move <;> rfl
    rw [hrest]
    exact ⟨hvector, hordered, hinside, hempty.symm⟩

/-- A walk is that of the deque. It ends where an element that is named cannot be read. -/
theorem Spans.walk (h : c.Spans v indices) (moves : List Move) :
    ∃ c', c'.Spans v (dequeWalk indices moves).2 ∧
      c.walk moves = ((dequeWalk indices moves).1.mapM (Answer.read v)).map (·, c') := by
  induction moves generalizing c indices with
  | nil => exact ⟨c, h, rfl⟩
  | cons move moves ih =>
    obtain ⟨c1, h1, hstep⟩ := h.step move
    obtain ⟨c2, h2, hwalk⟩ := ih h1
    refine ⟨c2, h2, ?_⟩
    dsimp only [dequeWalk]
    rw [List.mapM_cons]
    cases hread : (dequeStep indices move).1.read v with
    | error f =>
      rw [hread] at hstep
      rw [Cursor.walk, hstep]
      rfl
    | ok answer =>
      rw [hread] at hstep
      rw [walk_cons hstep, hwalk, ok_bind]
      cases (dequeWalk (dequeStep indices move).2 moves).1.mapM (Answer.read v) <;> rfl

end Cursor

section Readable

variable {α : Type} {v : Vector α}

/-- Two deques, one of indices and one of the elements there, are moved alike. -/
theorem dequeStep_read {indices : List Nat} {items : List α}
    (h : indices.map v.get? = items.map fun a => .ok (some a)) (move : Move) :
    (dequeStep indices move).1.read v = .ok (dequeStep items move).1 ∧
      (dequeStep indices move).2.map v.get? = (dequeStep items move).2.map fun a => .ok (some a) := by
  cases move with
  | next =>
    have hhead := congrArg List.head? h
    have htail := congrArg List.tail h
    rw [List.head?_map, List.head?_map] at hhead
    rw [← List.map_tail, ← List.map_tail] at htail
    refine ⟨?_, htail⟩
    dsimp only [dequeStep]
    cases hi : indices.head? <;> cases ha : items.head? <;> rw [hi, ha] at hhead
    · rfl
    · cases hhead
    · cases hhead
    · rw [Answer.read, Option.some.inj hhead]
      rfl
  | nextBack =>
    have hlast := congrArg List.getLast? h
    have hinit := congrArg List.dropLast h
    rw [List.getLast?_map, List.getLast?_map] at hlast
    rw [← List.map_dropLast, ← List.map_dropLast] at hinit
    refine ⟨?_, hinit⟩
    dsimp only [dequeStep]
    cases hi : indices.getLast? <;> cases ha : items.getLast? <;> rw [hi, ha] at hlast
    · rfl
    · cases hlast
    · cases hlast
    · rw [Answer.read, Option.some.inj hlast]
      rfl
  | remaining =>
    have hlength := congrArg List.length h
    rw [List.length_map, List.length_map] at hlength
    refine ⟨?_, h⟩
    dsimp only [dequeStep]
    rw [hlength]
    rfl

theorem dequeWalk_read {indices : List Nat} {items : List α}
    (h : indices.map v.get? = items.map fun a => .ok (some a)) (moves : List Move) :
    (dequeWalk indices moves).1.mapM (Answer.read v) = .ok (dequeWalk items moves).1 := by
  induction moves generalizing indices items with
  | nil => rfl
  | cons move moves ih =>
    obtain ⟨hanswer, hrest⟩ := dequeStep_read h move
    dsimp only [dequeWalk]
    rw [List.mapM_cons, hanswer, ok_bind, ih hrest]
    rfl

/-- A vector whose elements can all be read is the list of them. -/
theorem exists_items (hv : ∀ i < v.length, ∃ a, v.get? i = .ok (some a)) :
    ∃ items : List α, items.length = v.length ∧ (∀ i, v.get? i = .ok items[i]?) ∧
      (List.range v.length).map v.get? = items.map fun a => .ok (some a) := by
  have hrange : (List.range v.length).map v.get? ∈ Set.range (List.map fun a : α => .ok (some a)) := by
    rw [Set.range_list_map]
    intro x hx
    obtain ⟨i, hi, rfl⟩ := List.mem_map.1 hx
    obtain ⟨a, ha⟩ := hv i (List.mem_range.1 hi)
    exact ⟨a, ha.symm⟩
  obtain ⟨items, hitems⟩ := hrange
  have hlength : items.length = v.length := by
    rw [← @List.length_range v.length, ← List.length_map v.get?, ← hitems, List.length_map]
  refine ⟨items, hlength, fun i => ?_, hitems.symm⟩
  by_cases hi : i < v.length
  · have hget := congrArg (·[i]?) hitems
    rw [List.getElem?_map, List.getElem?_map, List.getElem?_range hi,
      List.getElem?_eq_getElem (hlength ▸ hi)] at hget
    rw [List.getElem?_eq_getElem (hlength ▸ hi)]
    exact (Option.some.inj hget).symm
  · rw [List.getElem?_eq_none (by omega), get?, if_neg hi]
    rfl

/-- All elements of a vector are read if its bytes lie inside the image, unless an element leads elsewhere. -/
theorem readable_of_inside (he : v.element.ReadsInside)
    (hv : v.position + 4 + v.length * v.element.inlineSize ≤ v.image.size) :
    ∀ i < v.length, ∃ a, v.get? i = .ok (some a) := by
  intro i hi
  have hend : (i + 1) * v.element.inlineSize ≤ v.length * v.element.inlineSize :=
    Nat.mul_le_mul_right _ hi
  rw [Nat.succ_mul] at hend
  obtain ⟨a, ha⟩ := he v.image (v.elementPosition i) (by unfold elementPosition; omega)
  refine ⟨a, ?_⟩
  rw [get?, if_pos hi, ha]
  rfl

end Readable

/-- A cursor is a deque of the elements of its vector, for every row of moves. What both ends took and what is
left are the indices of the vector in their order. The ends do not pass each other, so the number of elements
left is what it says. After as many takes as there are elements nothing is left at either end, for ever. -/
theorem cursor_walks_as_deque {α : Type} (v : Vector α) (moves : List Move) :
    let answers := (dequeWalk (List.range v.length) moves).1
    let rest := (dequeWalk (List.range v.length) moves).2
    fronts answers ++ rest ++ (backs answers).reverse = List.range v.length ∧
      ∃ c : Cursor α, c.front ≤ c.back ∧ c.back ≤ v.length ∧ c.remaining = rest.length ∧
        v.cursor.walk moves = (answers.mapM (Answer.read v)).map (·, c) ∧
        ((∀ i < v.length, ∃ a, v.get? i = .ok (some a)) →
          ∃ items : List α, items.length = v.length ∧ (∀ i, v.get? i = .ok items[i]?) ∧
            v.cursor.walk moves = .ok ((dequeWalk items moves).1, c)) ∧
        ((fronts answers).length + (backs answers).length = v.length →
          ∀ more, c.walk more = .ok (more.map Move.exhausted, c)) := by
  intro answers rest
  have hpartition : fronts answers ++ rest ++ (backs answers).reverse = List.range v.length :=
    dequeWalk_partition (List.range v.length) moves
  obtain ⟨c, hspans, hwalk⟩ := (Cursor.spans_cursor v).walk moves
  refine ⟨hpartition, c, hspans.ordered, hspans.inside, hspans.remaining, hwalk, fun hv => ?_,
    fun hcount => ?_⟩
  · obtain ⟨items, hlength, hget, hitems⟩ := exists_items hv
    refine ⟨items, hlength, hget, ?_⟩
    rw [hwalk, dequeWalk_read hitems]
    rfl
  · have hlength := congrArg List.length hpartition
    rw [List.length_append, List.length_append, List.length_reverse, List.length_range] at hlength
    have hremaining : c.back - c.front = rest.length := hspans.remaining
    exact Cursor.walk_of_empty (by omega)

/-- The third element equals the second, and both ends meet between them. -/
def repeated : Vector (BitVec 16) := ⟨.scalar .u16, Image.ofList .little [3, 0, 0, 0, 1, 0, 2, 0, 2, 0], 0, 3⟩

def repeatedMoves : List Move := [.next, .remaining, .nextBack, .nextBack, .next, .remaining]

theorem repeated_walks_as_deque :
    ∃ items c, items.length = 3 ∧ (∀ i, repeated.get? i = .ok items[i]?) ∧
      repeated.cursor.walk repeatedMoves = .ok ((dequeWalk items repeatedMoves).1, c) ∧
      ∀ more, c.walk more = .ok (more.map Move.exhausted, c) := by
  obtain ⟨-, c, -, -, -, -, hreadable, hexhausted⟩ := cursor_walks_as_deque repeated repeatedMoves
  obtain ⟨items, hlength, hget, hwalk⟩ := hreadable
    (readable_of_inside (Element.scalar_readsInside .u16) (by decide))
  exact ⟨items, c, hlength, hget, hwalk, hexhausted (by decide)⟩

end Vector

end TableBuffer
