import Mathlib.Data.List.Chain
import Mathlib.Logic.Relation
import TableBuffer.Proofs.Footprint
import TableBuffer.Proofs.RootChecks
import TableBuffer.Union
import TableBuffer.Vector.Cursor

/-!
# Going down from table to table

A reference is stored as a distance and not as a position, and a field that is present does not stand at the
beginning of its table. So what a table leads to stands behind it, whatever its bytes say: a walk cannot come
back, and as every table on it takes a byte of its own it ends. No vtable and no reference has to be right, and
the bytes may change between two steps, since a change keeps the size.
-/

namespace TableBuffer

/-- An element that a vector hands out, by its index or to a walk over it. -/
inductive Vector.Yields {α : Type} (v : Vector α) (a : α) : Prop
  | get {index : Nat} (h : v.get? index = .ok (some a))
  | next {c c' : Vector.Cursor α} (of : c.vector = v) (h : c.next = .ok (some a, c'))
  | nextBack {c c' : Vector.Cursor α} (of : c.vector = v) (h : c.nextBack = .ok (some a, c'))

/-- A table that the readers hand out for a table: a field, a union, or an element of a vector of tables or of a
vector of such vectors. -/
inductive Table.Hop (t u : Table) : Prop
  | field {slot : Nat} (h : t.table? slot = .ok (some u))
  | checked {slot : Nat} (h : t.checkedTable? slot = .ok (some u))
  | union {typeSlot valueSlot : Nat} {union : UnionRef} (h : t.union? typeSlot valueSlot = .ok (some union))
    (payload : union.asTable = u)
  | element {slot : Nat} {v : Vector Table} (h : t.vector? Element.table slot = .ok (some v)) (yields : v.Yields u)
  | inner {slot : Nat} {v : Vector (Vector Table)} {w : Vector Table}
    (h : t.vector? (Element.vector Element.table) slot = .ok (some v)) (inner : v.Yields w) (yields : w.Yields u)

/-- Any number of changes in place, at any positions, turn one image into the other. -/
def Image.Changes : Image → Image → Prop :=
  Relation.ReflTransGen fun m m' => ∃ (position : Nat) (c : Change), c.apply ⟨m, position⟩ = .ok (some m')

/-- From one table to the next, after any number of changes. -/
def Table.Leads (t u : Table) : Prop := ∃ m, t.image.Changes m ∧ Hop ⟨m, t.position⟩ u

/-- The distance to the vtable can be read. -/
def Table.Readable (t : Table) : Prop := ∃ distance, t.image.int32 t.position = .ok distance

namespace Image

variable {m m' : Image} {position : Nat}

theorem le_target {target : Nat} (h : m.target position = .ok target) : position ≤ target := by
  obtain ⟨distance, -, hsum⟩ := bind_eq_ok_iff.1 h
  cases hsum
  exact Nat.le_add_right ..

theorem Changes.size (h : m.Changes m') : m'.size = m.size := by
  induction h with
  | refl => rfl
  | tail _ hstep ih =>
    obtain ⟨position, c, happly⟩ := hstep
    obtain ⟨_, -, hreplaces⟩ := Change.apply_eq_some_iff.1 happly
    exact hreplaces.size.trans ih

end Image

namespace Vector

variable {α : Type} {v : Vector α} {a : α}

theorem read_of_get? {index : Nat} (h : v.get? index = .ok (some a)) :
    v.element.read v.image (v.elementPosition index) = .ok a := by
  unfold get? at h
  split at h
  · obtain ⟨_, hread, hsame⟩ := bind_eq_ok_iff.1 h
    cases hsame
    exact hread
  · cases h

theorem Yields.read (h : v.Yields a) : ∃ index, v.element.read v.image (v.elementPosition index) = .ok a := by
  cases h with
  | get h => exact ⟨_, read_of_get? h⟩
  | next hof h =>
    unfold Cursor.next at h
    split at h
    · obtain ⟨item, hitem, hsame⟩ := bind_eq_ok_iff.1 h
      cases hsame
      exact ⟨_, read_of_get? (hof ▸ hitem)⟩
    · cases h
  | nextBack hof h =>
    unfold Cursor.nextBack at h
    split at h
    · obtain ⟨item, hitem, hsame⟩ := bind_eq_ok_iff.1 h
      cases hsame
      exact ⟨_, read_of_get? (hof ▸ hitem)⟩
    · cases h

/-- An element behind a reference stands behind the beginning of the vector. -/
theorem Yields.reference {read : Image → Nat → Outcome α} (h : v.Yields a) (hv : v.element = Element.reference read) :
    ∃ target, v.position < target ∧ read v.image target = .ok a := by
  obtain ⟨index, hread⟩ := h.read
  rw [hv] at hread
  obtain ⟨target, htarget, hread⟩ := bind_eq_ok_iff.1 hread
  have hle := Image.le_target htarget
  refine ⟨target, ?_, hread⟩
  unfold elementPosition at hle
  omega

theorem Yields.table {v : Vector Table} {u : Table} (h : v.Yields u) (hv : v.element = Element.table) :
    u.image = v.image ∧ v.position < u.position := by
  obtain ⟨target, hlt, hread⟩ := h.reference hv
  cases hread
  exact ⟨rfl, hlt⟩

theorem of_ofPosition {element : Element α} {m : Image} {position : Nat}
    (h : ofPosition element m position = .ok v) :
    v.element = element ∧ v.image = m ∧ v.position = position := by
  obtain ⟨length, -, hsame⟩ := bind_eq_ok_iff.1 h
  cases hsame
  exact ⟨rfl, rfl, rfl⟩

end Vector

namespace Table

variable {t u : Table} {slot : Nat}

theorem readable_of_vtable {v : VTable} (h : t.vtable = .ok v) : t.Readable := by
  obtain ⟨distance, hdistance, -⟩ := bind_eq_ok_iff.1 h
  exact ⟨distance, hdistance⟩

theorem Readable.position_lt (h : t.Readable) : t.position < t.image.size := by
  obtain ⟨distance, hdistance⟩ := h
  have hinside := (Image.of_int32 hdistance).1
  omega

/-- A field that is present stands behind the beginning of its table, and the table can be read. -/
theorem lt_fieldPosition? {position : Nat} (h : t.fieldPosition? slot = .ok (some position)) :
    t.position < position ∧ t.Readable := by
  obtain ⟨offset, hoffset, hposition⟩ := bind_eq_ok_iff.1 h
  obtain ⟨v, hv, -⟩ := bind_eq_ok_iff.1 hoffset
  refine ⟨?_, readable_of_vtable hv⟩
  by_cases hzero : offset = 0
  · simp [hzero, pure, Except.pure] at hposition
  · simp [hzero, pure, Except.pure] at hposition
    omega

theorem lt_target? {target : Nat} (h : t.target? slot = .ok (some target)) :
    t.position < target ∧ t.Readable := by
  obtain ⟨position, hposition, htarget⟩ := target?_eq_some_iff.1 h
  obtain ⟨hlt, hreadable⟩ := lt_fieldPosition? hposition
  exact ⟨hlt.trans_le (Image.le_target htarget), hreadable⟩

theorem vector?_forward {α : Type} {element : Element α} {v : Vector α}
    (h : t.vector? element slot = .ok (some v)) :
    v.element = element ∧ v.image = t.image ∧ t.position < v.position ∧ t.Readable := by
  obtain ⟨target, htarget, hv⟩ := readTarget_eq_some_iff.1 h
  obtain ⟨helement, himage, hposition⟩ := Vector.of_ofPosition hv
  obtain ⟨hlt, hreadable⟩ := lt_target? htarget
  exact ⟨helement, himage, hposition ▸ hlt, hreadable⟩

theorem target?_of_union? {typeSlot valueSlot : Nat} {union : UnionRef}
    (h : t.union? typeSlot valueSlot = .ok (some union)) :
    t.target? valueSlot = .ok (some union.position) ∧ union.image = t.image := by
  unfold union? at h
  obtain ⟨bits, -, h⟩ := bind_eq_ok_iff.1 h
  obtain ⟨_ | position, htarget, h⟩ := bind_eq_ok_iff.1 h
  · dsimp only at h
    split at h <;> cases h
  · dsimp only at h
    split at h
    · cases h
    · cases h
      exact ⟨htarget, rfl⟩

/-- What a table leads to stands behind it. -/
theorem Hop.forward (h : t.Hop u) : u.image = t.image ∧ t.position < u.position ∧ t.Readable := by
  cases h with
  | field h =>
    obtain ⟨target, htarget, hu⟩ := readTarget_eq_some_iff.1 h
    cases hu
    exact ⟨rfl, lt_target? htarget⟩
  | checked h =>
    obtain ⟨target, htarget, hu⟩ := readTarget_eq_some_iff.1 h
    obtain ⟨hsame, -⟩ := Image.checkedTable_eq_ok_iff.1 hu
    cases hsame
    exact ⟨rfl, lt_target? htarget⟩
  | union h hpayload =>
    obtain ⟨htarget, himage⟩ := target?_of_union? h
    cases hpayload
    exact ⟨himage, lt_target? htarget⟩
  | element h hyields =>
    obtain ⟨helement, himage, hlt, hreadable⟩ := vector?_forward h
    obtain ⟨hsame, hbehind⟩ := hyields.table helement
    exact ⟨hsame.trans himage, hlt.trans hbehind, hreadable⟩
  | inner h hinner hyields =>
    obtain ⟨helement, himage, hlt, hreadable⟩ := vector?_forward h
    obtain ⟨target, hbehind, hw⟩ := hinner.reference helement
    obtain ⟨hwelement, hwimage, hwposition⟩ := Vector.of_ofPosition hw
    obtain ⟨hsame, hdeeper⟩ := hyields.table hwelement
    refine ⟨hsame.trans (hwimage.trans himage), ?_, hreadable⟩
    omega

theorem Leads.forward (h : t.Leads u) : u.image.size = t.image.size ∧ t.position < u.position ∧
    t.position < t.image.size := by
  obtain ⟨m, hchanges, hhop⟩ := h
  obtain ⟨himage, hlt, hreadable⟩ := hhop.forward
  have hsize : m.size = t.image.size := hchanges.size
  exact ⟨himage ▸ hsize, hlt, hsize ▸ hreadable.position_lt⟩

/-- What is left behind a table shrinks with every step, so no walk goes on forever. -/
theorem wellFounded_leads : WellFounded fun u t : Table => t.Leads u := by
  refine Subrelation.wf ?_ (measure fun t : Table => t.image.size - t.position).wf
  intro u t h
  obtain ⟨hsize, hlt, hinside⟩ := h.forward
  show u.image.size - u.position < t.image.size - t.position
  omega

variable {ts : List Table}

/-- On the way down positions grow. -/
theorem positions_increase (h : ts.IsChain Leads) : (ts.map position).Pairwise (· < ·) := by
  rw [← List.isChain_iff_pairwise]
  exact List.isChain_map_of_isChain position (fun _ _ h => h.forward.2.1) h

/-- Every table that is visited takes a byte of the image that no earlier one takes. -/
theorem length_le_of_isChain (h : (t :: ts).IsChain Leads) (hreadable : ∀ u ∈ t :: ts, u.Readable) :
    t.position + (t :: ts).length ≤ t.image.size := by
  induction ts generalizing t with
  | nil =>
    have hinside := (hreadable t List.mem_cons_self).position_lt
    simp only [List.length_cons, List.length_nil]
    omega
  | cons u ts ih =>
    obtain ⟨hstep, hrest⟩ := List.isChain_cons_cons.1 h
    obtain ⟨hsize, hlt, -⟩ := hstep.forward
    have hbound := ih hrest fun w hw => hreadable w (List.mem_cons_of_mem t hw)
    simp only [List.length_cons] at hbound ⊢
    omega

/-- Whatever the bytes say, what a table leads to stands behind it, no walk comes back to a table, and no walk
over tables that can be read is longer than the image. -/
theorem descents_end (hwalk : (t :: ts).IsChain Leads) :
    (∀ u w : Table, u.Leads w → u.position < w.position) ∧
    (WellFounded fun u w : Table => w.Leads u) ∧
    ((t :: ts).map position).Pairwise (· < ·) ∧
    ((∀ u ∈ t :: ts, u.Readable) → (t :: ts).length ≤ t.image.size) := by
  refine ⟨fun u w h => h.forward.2.1, wellFounded_leads, positions_increase hwalk, fun hreadable => ?_⟩
  have hbound := length_le_of_isChain hwalk hreadable
  omega

/-- Two tables that share a vtable, the second with `last` in the place of its reference. -/
def sharedImage (last : UInt8) : Image :=
  ⟨.little, #[6, 0, 8, 0, 4, 0, 0, 0, 8, 0, 0, 0, 4, 0, 0, 0, 16, 0, 0, 0, last, 0, 0, 0]⟩

/-- A reference that leads to itself is a table too, with itself as its vtable. The walk ends there. -/
theorem descents_end_at_zero :
    let ts : List Table := [⟨sharedImage 9, 8⟩, ⟨sharedImage 9, 16⟩, ⟨sharedImage 0, 20⟩]
    ts.IsChain Leads ∧ (∀ u ∈ ts, u.Readable) ∧ (ts.map position).Pairwise (· < ·) ∧ ts.length ≤ 24 := by
  intro ts
  have hfirst : Leads ⟨sharedImage 9, 8⟩ ⟨sharedImage 9, 16⟩ :=
    ⟨sharedImage 9, .refl, @Hop.field _ _ 0 rfl⟩
  have hchange : (sharedImage 9).Changes (sharedImage 0) :=
    .single ⟨16, .scalar 0 .u32 (0 : BitVec 32), rfl⟩
  have hsecond : Leads ⟨sharedImage 9, 16⟩ ⟨sharedImage 0, 20⟩ :=
    ⟨sharedImage 0, hchange, @Hop.field _ _ 0 rfl⟩
  have hwalk : ts.IsChain Leads :=
    List.isChain_cons_cons.2 ⟨hfirst, List.isChain_cons_cons.2 ⟨hsecond, .singleton _⟩⟩
  have hreadable : ∀ u ∈ ts, u.Readable := by
    simp only [ts, List.forall_mem_cons]
    exact ⟨⟨8, rfl⟩, ⟨16, rfl⟩, ⟨0, rfl⟩, by simp⟩
  obtain ⟨-, -, hincrease, hbound⟩ := descents_end hwalk
  exact ⟨hwalk, hreadable, hincrease, hbound hreadable⟩

end Table

end TableBuffer
