import TableBuffer.Mutation
import TableBuffer.Proofs.Access
import TableBuffer.Proofs.Effects
import TableBuffer.Proofs.Reading

/-!
# What a change in place touches

A change finds its place in bytes that may say anything: a field may overlap its own vtable, a count may be
larger than the buffer. Whatever they say, a change that is made replaces the bytes of one item and no
others, and one that is not made leaves the image as it is. `Change.place?` is where a change looks,
`Image.Replaces` what it does there.
-/

namespace TableBuffer

/-- The image has `bytes` from `position` on, and is `m` elsewhere. -/
structure Image.Replaces (m : Image) (position : Nat) (bytes : List UInt8) (m' : Image) : Prop where
  order : m'.order = m.order
  size : m'.size = m.size
  inside : position + bytes.length ≤ m.size
  new : m'.slice position bytes.length = .ok bytes
  old : ∀ i, i < position ∨ position + bytes.length ≤ i → m'.bytes[i]? = m.bytes[i]?

namespace Image

variable {m m' m'' : Image} {position : Nat} {bytes : List UInt8}

theorem replaces_of_write (h : m.write position bytes = .ok m') : m.Replaces position bytes m' := by
  have hsize := size_write h
  unfold write at h
  split at h
  · rename_i hle
    cases h
    have hfits : position + bytes.length ≤ m.bytes.toList.length := by simpa [Image.size] using hle
    have hbyte (i : Nat) : (ofList m.order (splice position bytes m.bytes.toList)).bytes[i]? =
        if position ≤ i ∧ i < position + bytes.length then bytes[i - position]? else m.bytes[i]? := by
      simp [ofList, getElem?_splice hfits]
    refine ⟨rfl, hsize, hle, ?_, fun i hi => ?_⟩
    · obtain ⟨window, hwindow⟩ := exists_slice_iff.2 (hsize ▸ hle)
      rw [hwindow]
      congr 1
      apply List.ext_getElem?
      intro i
      by_cases hi : i < bytes.length
      · rw [getElem?_slice hwindow hi, hbyte, if_pos (by omega)]
        congr 1
        omega
      · rw [List.getElem?_eq_none (by rw [length_slice hwindow]; omega), List.getElem?_eq_none (by omega)]
    · rw [hbyte, if_neg (by omega)]
  · cases h

/-- Nothing is left open about the image. -/
theorem Replaces.unique (h : m.Replaces position bytes m') (h' : m.Replaces position bytes m'') : m' = m'' := by
  have hbytes : m'.bytes = m''.bytes := by
    apply Array.ext_getElem?
    intro i
    by_cases hi : position ≤ i ∧ i < position + bytes.length
    · have hin : i = position + (i - position) := by omega
      rw [hin, ← getElem?_slice h.new (by omega), ← getElem?_slice h'.new (by omega)]
    · rw [h.old i (by omega), h'.old i (by omega)]
  cases m'
  cases m''
  have horder := h.order.trans h'.order.symm
  simp_all

theorem write_eq_ok_iff : m.write position bytes = .ok m' ↔ m.Replaces position bytes m' := by
  constructor
  · exact replaces_of_write
  · intro h
    have hwrite : m.write position bytes = .ok (ofList m.order (splice position bytes m.bytes.toList)) :=
      if_pos h.inside
    rw [hwrite, (replaces_of_write hwrite).unique h]

theorem write_eq_error_iff {f : Failure} :
    m.write position bytes = .error f ↔ f = .fault ∧ m.size < position + bytes.length := by
  unfold write
  split
  · simp; omega
  · simp [eq_comm]; omega

end Image

namespace Table

variable {t : Table} {slot : Nat}

theorem has_eq_true_iff : t.has slot = .ok true ↔ ∃ position, t.fieldPosition? slot = .ok (some position) := by
  unfold has fieldPosition?
  cases t.fieldOffset slot with
  | error f => exact ⟨nofun, nofun⟩
  | ok offset =>
    simp only [ok_bind]
    by_cases h : offset = 0 <;> simp [h, pure, Except.pure]

theorem has_eq_false_iff : t.has slot = .ok false ↔ t.fieldPosition? slot = .ok none := by
  unfold has fieldPosition?
  cases t.fieldOffset slot with
  | error f => exact ⟨nofun, nofun⟩
  | ok offset =>
    simp only [ok_bind]
    by_cases h : offset = 0 <;> simp [h, pure, Except.pure]

theorem readField_eq_none_iff {α : Type} {read : Nat → Outcome α} :
    t.readField slot read = .ok none ↔ t.has slot = .ok false := by
  rw [has_eq_false_iff]
  unfold readField
  constructor
  · intro h
    obtain ⟨_ | position, hposition, h⟩ := bind_eq_ok_iff.1 h
    · exact hposition
    · obtain ⟨a, -, h⟩ := bind_eq_ok_iff.1 h
      cases h
  · intro h
    rw [h]
    rfl

theorem readField_eq_some_iff {α : Type} {read : Nat → Outcome α} {a : α} :
    t.readField slot read = .ok (some a) ↔
      ∃ position, t.fieldPosition? slot = .ok (some position) ∧ read position = .ok a := by
  unfold readField
  rw [bind_eq_ok_iff]
  constructor
  · rintro ⟨_ | position, hposition, h⟩
    · cases h
    · obtain ⟨_, hread, hsame⟩ := bind_eq_ok_iff.1 h
      cases hsame
      exact ⟨position, hposition, hread⟩
  · rintro ⟨position, hposition, hread⟩
    exact ⟨some position, hposition, by simp [hread, ok_bind, pure, Except.pure]⟩

theorem target?_eq_some_iff {target : Nat} : t.target? slot = .ok (some target) ↔
    ∃ position, t.fieldPosition? slot = .ok (some position) ∧ t.image.target position = .ok target := by
  simp [target?, readTarget, readField_eq_some_iff]

theorem readTarget_eq_some_iff {α : Type} {read : Nat → Outcome α} {a : α} :
    t.readTarget slot read = .ok (some a) ↔
      ∃ target, t.target? slot = .ok (some target) ∧ read target = .ok a := by
  simp only [readTarget, readField_eq_some_iff, target?_eq_some_iff, bind_eq_ok_iff]
  constructor
  · rintro ⟨position, hposition, target, htarget, hread⟩
    exact ⟨target, ⟨position, hposition, htarget⟩, hread⟩
  · rintro ⟨target, ⟨position, hposition, htarget⟩, hread⟩
    exact ⟨position, hposition, target, htarget, hread⟩

/-- The number of elements is only asked of a field that is there. -/
theorem lt_vectorLength_iff {index : Nat} : (∃ length, t.vectorLength slot = .ok length ∧ index < length) ↔
    ∃ vector length, t.target? slot = .ok (some vector) ∧ t.image.word32 vector = .ok length ∧
      index < length := by
  unfold vectorLength
  simp only [bind_eq_ok_iff]
  constructor
  · rintro ⟨length, ⟨_ | n, hread, hsame⟩, hindex⟩
    · cases hsame
      simp at hindex
    · obtain ⟨vector, hvector, hlength⟩ := readTarget_eq_some_iff.1 hread
      cases hsame
      exact ⟨vector, n, hvector, hlength, hindex⟩
  · rintro ⟨vector, length, hvector, hlength, hindex⟩
    exact ⟨length, ⟨some length, readTarget_eq_some_iff.2 ⟨vector, hvector, hlength⟩, rfl⟩, hindex⟩

end Table

/-- A change in place. A member of a struct is named by the slot of the struct or by its position. -/
inductive Change
  | scalar (slot : Nat) (ty : ScalarType) (v : ty.Value)
  | element (slot index : Nat) (ty : ScalarType) (v : ty.Value)
  | redirect (slot target : Nat)
  | member (slot offset : Nat) (ty : ScalarType) (v : ty.Value)
  | memberAt (struct offset : Nat) (ty : ScalarType) (v : ty.Value)

namespace Change

/-- Makes the change. None if there is nothing to change. -/
def apply (t : Table) : Change → Outcome (Option Image)
  | scalar slot ty v => t.setScalar ty slot v
  | element slot index ty v => t.setElement ty slot index v
  | redirect slot target => t.setTarget slot target
  | member slot offset ty v => do
    match ← t.struct? slot with
    | none => return none
    | some s => return some (← s.set ty offset v)
  | memberAt struct offset ty v => return some (← StructRef.set ⟨t.image, struct⟩ ty offset v)

/-- The image of the table once the change was asked for, however that ended. -/
def imageAfter (t : Table) (c : Change) : Image :=
  match c.apply t with
  | .ok (some m) => m
  | .ok none | .error _ => t.image

/-- What comes to stand at the position of the item. -/
def bytes (order : ByteOrder) (position : Nat) : Change → List UInt8
  | scalar _ ty v | element _ _ ty v | member _ _ ty v | memberAt _ _ ty v => ty.encode order v
  | redirect _ target => order.encode 4 (target - position)

/-- A reference at `position` reaches the target: it lies behind the reference, in the buffer, and the distance
is a word of four bytes. -/
def Reaches (m : Image) (position target : Nat) : Prop :=
  position < target ∧ target < m.size ∧ target - position < 4294967296

instance (m : Image) (position target : Nat) : Decidable (Reaches m position target) :=
  inferInstanceAs (Decidable (_ ∧ _ ∧ _))

/-- The item is there, at the position. -/
def Finds (t : Table) (position : Nat) : Change → Prop
  | scalar slot .. => t.fieldPosition? slot = .ok (some position)
  | element slot index ty _ => ∃ vector length, t.target? slot = .ok (some vector) ∧
      t.image.word32 vector = .ok length ∧ index < length ∧ position = vector + 4 + index * ty.size
  | redirect slot target => t.fieldPosition? slot = .ok (some position) ∧ Reaches t.image position target
  | member slot offset .. => ∃ struct, t.fieldPosition? slot = .ok (some struct) ∧ position = struct + offset
  | memberAt struct offset .. => position = struct + offset

/-- There is nothing to change: the slot is empty, the index is past the end or the target out of reach. -/
def Declined (t : Table) : Change → Prop
  | scalar slot .. | member slot .. => t.has slot = .ok false
  | element slot index .. => t.has slot = .ok false ∨ ∃ vector length, t.target? slot = .ok (some vector) ∧
      t.image.word32 vector = .ok length ∧ length ≤ index
  | redirect slot target => t.has slot = .ok false ∨
      ∃ position, t.fieldPosition? slot = .ok (some position) ∧ ¬ Reaches t.image position target
  | memberAt .. => False

/-- The change can be asked for, in terms of what the readers of the table answer. -/
def Applicable (t : Table) : Change → Prop
  | scalar slot .. | member slot .. => t.has slot = .ok true
  | element slot index .. => t.has slot = .ok true ∧ ∃ length, t.vectorLength slot = .ok length ∧ index < length
  | redirect slot target => t.has slot = .ok true ∧
      ∃ position, t.fieldPosition? slot = .ok (some position) ∧ Reaches t.image position target
  | memberAt .. => True

/-- Where the change looks for its item. None if there is nothing to change. -/
def place? (t : Table) : Change → Outcome (Option Nat)
  | scalar slot .. => t.fieldPosition? slot
  | element slot index ty _ => do
    match ← t.target? slot with
    | none => return none
    | some vector =>
      let length ← t.image.word32 vector
      return if index < length then some (vector + 4 + index * ty.size) else none
  | redirect slot target => return (← t.fieldPosition? slot).filter fun position => Reaches t.image position target
  | member slot offset .. => return (← t.fieldPosition? slot).map (· + offset)
  | memberAt struct offset .. => return some (struct + offset)

variable {t : Table} {c : Change} {m : Image} {order : ByteOrder} {position : Nat}

/-- The number of bytes of the item. -/
def width : Change → Nat
  | scalar _ ty _ | element _ _ ty _ | member _ _ ty _ | memberAt _ _ ty _ => ty.size
  | redirect .. => 4

@[simp] theorem length_bytes (c : Change) : (c.bytes order position).length = c.width := by
  cases c <;> simp [bytes, width, ByteOrder.length_encode, ScalarType.length_encode]

theorem place?_eq_some_iff : c.place? t = .ok (some position) ↔ c.Finds t position := by
  cases c with
  | scalar slot ty v => rfl
  | element slot index ty v =>
    simp only [place?, Finds, bind_eq_ok_iff]
    constructor
    · rintro ⟨_ | vector, hvector, h⟩
      · cases h
      · obtain ⟨length, hlength, h⟩ := bind_eq_ok_iff.1 h
        by_cases hindex : index < length
        · simp [hindex, pure, Except.pure] at h
          exact ⟨vector, length, hvector, hlength, hindex, h.symm⟩
        · simp [hindex, pure, Except.pure] at h
    · rintro ⟨vector, length, hvector, hlength, hindex, rfl⟩
      exact ⟨some vector, hvector, by simp [hlength, hindex, ok_bind, pure, Except.pure]⟩
  | redirect slot target =>
    simp only [place?, Finds, bind_eq_ok_iff]
    constructor
    · rintro ⟨found, hfound, h⟩
      have hfilter := Except.ok.inj h
      rw [Option.filter_eq_some_iff] at hfilter
      exact ⟨hfilter.1 ▸ hfound, of_decide_eq_true hfilter.2⟩
    · rintro ⟨hfound, hreach⟩
      exact ⟨some position, hfound, congrArg Except.ok (Option.filter_some_pos (decide_eq_true hreach))⟩
  | member slot offset ty v =>
    simp only [place?, Finds, bind_eq_ok_iff]
    constructor
    · rintro ⟨found, hfound, h⟩
      obtain ⟨struct, rfl, hposition⟩ := Option.map_eq_some_iff.1 (Except.ok.inj h)
      exact ⟨struct, hfound, hposition.symm⟩
    · rintro ⟨struct, hstruct, rfl⟩
      exact ⟨some struct, hstruct, rfl⟩
  | memberAt struct offset ty v =>
    simp [place?, Finds, pure, Except.pure, eq_comm]

theorem place?_eq_none_iff : c.place? t = .ok none ↔ c.Declined t := by
  cases c with
  | scalar slot ty v => exact Table.has_eq_false_iff.symm
  | element slot index ty v =>
    simp only [place?, Declined, bind_eq_ok_iff]
    constructor
    · rintro ⟨_ | vector, hvector, h⟩
      · exact .inl (Table.readField_eq_none_iff.1 hvector)
      · obtain ⟨length, hlength, h⟩ := bind_eq_ok_iff.1 h
        by_cases hindex : index < length
        · simp [hindex, pure, Except.pure] at h
        · exact .inr ⟨vector, length, hvector, hlength, by omega⟩
    · rintro (habsent | ⟨vector, length, hvector, hlength, hindex⟩)
      · exact ⟨none, Table.readField_eq_none_iff.2 habsent, rfl⟩
      · refine ⟨some vector, hvector, ?_⟩
        simp [hlength, Nat.not_lt.2 hindex, ok_bind, pure, Except.pure]
  | redirect slot target =>
    simp only [place?, Declined, bind_eq_ok_iff, Table.has_eq_false_iff]
    constructor
    · rintro ⟨_ | found, hfound, h⟩
      · exact .inl hfound
      · have hfilter := Option.filter_eq_none_iff.1 (Except.ok.inj h) found rfl
        exact .inr ⟨found, hfound, by simpa using hfilter⟩
    · rintro (habsent | ⟨found, hfound, hreach⟩)
      · exact ⟨none, habsent, rfl⟩
      · exact ⟨some found, hfound, congrArg Except.ok (Option.filter_some_neg (by simpa using hreach))⟩
  | member slot offset ty v =>
    simp only [place?, Declined, bind_eq_ok_iff, Table.has_eq_false_iff]
    constructor
    · rintro ⟨found, hfound, h⟩
      rw [Option.map_eq_none_iff.1 (Except.ok.inj h)] at hfound
      exact hfound
    · intro habsent
      exact ⟨none, habsent, rfl⟩
  | memberAt struct offset ty v => simp [place?, Declined, pure, Except.pure]

theorem onlyFaults_place? : OnlyFaults (c.place? t) := by
  have hfield (slot : Nat) : OnlyFaults (t.fieldPosition? slot) :=
    .bind (.bind (.vtable t) fun v => .entry v slot) fun _ => .pure _
  have hword (position : Nat) : OnlyFaults (t.image.word32 position) := 
    ((OnlyFaults.slice t.image position 4).map _).map _
  cases c with
  | scalar slot ty v => exact hfield slot
  | element slot index ty v =>
    refine .bind (.bind (hfield slot) fun found => ?_) fun found => ?_
    · cases found with
      | none => exact .pure _
      | some position => exact .bind (.bind (.bind (hword position) fun _ => .pure _) fun _ => .pure _) fun _ => .pure _
    · cases found with
      | none => exact .pure _
      | some vector => exact .bind (hword vector) fun _ => .pure _
  | redirect slot target => exact .bind (hfield slot) fun _ => .pure _
  | member slot offset ty v => exact .bind (hfield slot) fun _ => .pure _
  | memberAt struct offset ty v => exact .pure _

/-- A change looks for its item first and then writes over it, whatever kind of item it is. -/
theorem apply_eq (t : Table) (c : Change) : c.apply t = (do
    match ← c.place? t with
    | none => return none
    | some position => return some (← t.image.write position (c.bytes t.image.order position))) := by
  cases c with
  | scalar slot ty v => rfl
  | element slot index ty v =>
    simp only [apply, place?, Table.setElement, Table.vector?, Table.target?, Table.readTarget, Table.readField]
    rcases t.fieldPosition? slot with f | _ | position
    · rfl
    · rfl
    · simp only [ok_bind]
      rcases t.image.target position with f | vector
      · rfl
      · simp only [ok_bind, Vector.ofPosition, pure, Except.pure]
        rcases t.image.word32 vector with f | length
        · rfl
        · simp only [ok_bind]
          by_cases hindex : index < length
          · rw [if_pos hindex, if_pos hindex]
            rfl
          · rw [if_neg hindex, if_neg hindex]
  | redirect slot target =>
    simp only [apply, place?, Table.setTarget]
    rcases t.fieldPosition? slot with f | _ | position
    · rfl
    · rfl
    · simp only [ok_bind]
      by_cases hreach : Reaches t.image position target
      · have hword := encode_word32 t.image.order hreach.2.2
        refine (if_pos hreach).trans ?_
        simp only [Image.writeScalar, hword, Option.filter, hreach, decide_true]
        rfl
      · refine (if_neg hreach).trans ?_
        simp only [Option.filter, hreach, decide_false]
        rfl
  | member slot offset ty v =>
    simp only [apply, place?, Table.struct?, Table.readField]
    rcases t.fieldPosition? slot with f | _ | position <;> rfl
  | memberAt struct offset ty v => rfl

/-- A change that is made replaces the bytes of its item and no others. -/
theorem apply_eq_some_iff : c.apply t = .ok (some m) ↔
    ∃ position, c.Finds t position ∧ t.image.Replaces position (c.bytes t.image.order position) m := by
  rw [apply_eq, bind_eq_ok_iff]
  constructor
  · rintro ⟨_ | position, hplace, h⟩
    · cases h
    · obtain ⟨m', hwrite, hsame⟩ := bind_eq_ok_iff.1 h
      cases hsame
      exact ⟨position, place?_eq_some_iff.1 hplace, Image.replaces_of_write hwrite⟩
  · rintro ⟨position, hfinds, hreplaces⟩
    refine ⟨some position, place?_eq_some_iff.2 hfinds, bind_eq_ok_iff.2 ⟨m, ?_, rfl⟩⟩
    exact Image.write_eq_ok_iff.2 hreplaces

theorem apply_eq_none_iff : c.apply t = .ok none ↔ c.Declined t := by
  rw [← place?_eq_none_iff, apply_eq, bind_eq_ok_iff]
  constructor
  · rintro ⟨_ | position, hplace, h⟩
    · exact hplace
    · obtain ⟨m', -, hsame⟩ := bind_eq_ok_iff.1 h
      cases hsame
  · intro hplace
    exact ⟨none, hplace, rfl⟩

theorem onlyFaults_apply : OnlyFaults (c.apply t) := by
  rw [apply_eq]
  refine .bind onlyFaults_place? fun found => ?_
  cases found with
  | none => exact .pure none
  | some position =>
    exact .bind (fun f h => (Image.write_eq_error_iff.1 h).1) fun m => .pure (some m)

/-- A fault is left where the item cannot be looked for, or would not lie inside the image. -/
theorem apply_eq_fault_iff : c.apply t = .error .fault ↔
    ¬ c.Declined t ∧ ∀ position, c.Finds t position → t.image.size < position + c.width := by
  rw [← place?_eq_none_iff]
  simp only [← place?_eq_some_iff]
  rw [apply_eq]
  rcases hplace : c.place? t with f | _ | position
  · have hfault := onlyFaults_place? f hplace
    simp [hfault, bind, Except.bind]
  · simp [bind, Except.bind, pure, Except.pure]
  · simp only [ok_bind, Except.ok.injEq, Option.some.injEq, forall_eq', reduceCtorEq, not_false_eq_true, true_and]
    rw [← c.length_bytes]
    constructor
    · intro h
      cases hwrite : t.image.write position (c.bytes t.image.order position) with
      | ok m => simp [hwrite, ok_bind, pure, Except.pure] at h
      | error f => exact (Image.write_eq_error_iff.1 hwrite).2
    · intro h
      rw [Image.write_eq_error_iff.2 ⟨rfl, h⟩]
      rfl

theorem Finds.unique {position' : Nat} (h : c.Finds t position) (h' : c.Finds t position') :
    position = position' := by
  have hsame := (place?_eq_some_iff.2 h).symm.trans (place?_eq_some_iff.2 h')
  exact Option.some.inj (Except.ok.inj hsame)

theorem exists_finds_iff : (∃ position, c.Finds t position) ↔ c.Applicable t := by
  cases c with
  | scalar slot ty v => exact Table.has_eq_true_iff.symm
  | element slot index ty v =>
    simp only [Finds, Applicable]
    constructor
    · rintro ⟨_, vector, length, hvector, hlength, hindex, rfl⟩
      obtain ⟨position, hposition, -⟩ := Table.target?_eq_some_iff.1 hvector
      exact ⟨Table.has_eq_true_iff.2 ⟨position, hposition⟩,
        Table.lt_vectorLength_iff.2 ⟨vector, length, hvector, hlength, hindex⟩⟩
    · rintro ⟨-, hlength⟩
      obtain ⟨vector, length, hvector, hword, hindex⟩ := Table.lt_vectorLength_iff.1 hlength
      exact ⟨_, vector, length, hvector, hword, hindex, rfl⟩
  | redirect slot target =>
    simp only [Finds, Applicable, Table.has_eq_true_iff]
    constructor
    · rintro ⟨position, hposition, hreach⟩
      exact ⟨⟨position, hposition⟩, position, hposition, hreach⟩
    · rintro ⟨-, position, hposition, hreach⟩
      exact ⟨position, hposition, hreach⟩
  | member slot offset ty v =>
    simp only [Finds, Applicable, Table.has_eq_true_iff]
    constructor
    · rintro ⟨_, struct, hstruct, -⟩
      exact ⟨struct, hstruct⟩
    · rintro ⟨struct, hstruct⟩
      exact ⟨_, struct, hstruct, rfl⟩
  | memberAt struct offset ty v => simp [Finds, Applicable]

/-- Unless it is a fault, a change is made exactly where it can be asked for. -/
theorem made_iff_applicable (hfault : c.apply t ≠ .error .fault) :
    (∃ m, c.apply t = .ok (some m)) ↔ c.Applicable t := by
  rw [← exists_finds_iff]
  constructor
  · rintro ⟨m, h⟩
    obtain ⟨position, hfinds, -⟩ := apply_eq_some_iff.1 h
    exact ⟨position, hfinds⟩
  · rintro ⟨position, hfinds⟩
    rcases h : c.apply t with f | _ | m
    · exact absurd (onlyFaults_apply f h ▸ h) hfault
    · have hnone := place?_eq_none_iff.2 (apply_eq_none_iff.1 h)
      rw [place?_eq_some_iff.2 hfinds] at hnone
      cases hnone
    · exact ⟨m, rfl⟩

/-- Whatever the bytes say, a change replaces the bytes of the one item it is about or leaves the image as it
is, and the size stays. -/
theorem apply_footprint (t : Table) (c : Change) :
    (∀ m, c.apply t = .ok (some m) ↔
      ∃ position, c.Finds t position ∧ t.image.Replaces position (c.bytes t.image.order position) m) ∧
    (c.apply t = .ok none ↔ c.Declined t) ∧
    (∀ e, c.apply t ≠ .error (.error e)) ∧
    (c.apply t = .error .fault ↔
      ¬ c.Declined t ∧ ∀ position, c.Finds t position → t.image.size < position + c.width) ∧
    (c.apply t ≠ .error .fault → ((∃ m, c.apply t = .ok (some m)) ↔ c.Applicable t)) ∧
    ((∀ m, c.apply t ≠ .ok (some m)) → c.imageAfter t = t.image) ∧
    (c.imageAfter t).size = t.image.size := by
  refine ⟨fun m => apply_eq_some_iff, apply_eq_none_iff, ?_, apply_eq_fault_iff, made_iff_applicable, ?_, ?_⟩
  · intro e h
    cases onlyFaults_apply _ h
  · intro h
    unfold imageAfter
    split
    · rename_i m hm
      exact absurd hm (h m)
    · rfl
    · rfl
  · unfold imageAfter
    split
    · rename_i m hm
      obtain ⟨position, -, hreplaces⟩ := apply_eq_some_iff.1 hm
      exact hreplaces.size
    · rfl
    · rfl

end Change

end TableBuffer
