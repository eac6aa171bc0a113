import TableBuffer.Proofs.Framing

/-!
# What calls place, and how it is aligned

A builder pads for what it puts in front, counting from the end of the buffer, and keeps the strictest
alignment that was asked for. `Call.placements` lists what a successful call put in front, each thing with
the alignment it asks for, and `Call.Aligns` says that it all stands aligned. A vector is opened by one call
and closed by another; `Awaits` is what holds in between.
-/

namespace TableBuffer

/-- What bytes in a buffer are. -/
inductive Role
  | field
  | reference
  | element
  | struct
  | count
  | data
  | text
  | tableStart
  | vtable
  | frame
  deriving DecidableEq, Repr

/-- Bytes at an offset, with what they are and the alignment they ask for. -/
structure Placement where
  role : Role
  alignment : Nat
  offset : Nat
  bytes : List UInt8

/-- No byte belongs to both. -/
def Placement.Apart (p q : Placement) : Prop :=
  p.offset + q.bytes.length ≤ q.offset ∨ q.offset + p.bytes.length ≤ p.offset

theorem Placement.Apart.symm {p q : Placement} (h : p.Apart q) : q.Apart p := Or.symm h

/-- A count and the data of a vector behind it. -/
def vectorPlacements (order : ByteOrder) (offset count alignment : Nat) (data : List UInt8) : List Placement :=
  [⟨.count, 4, offset, order.encode 4 count⟩, ⟨.data, alignment, offset - 4, data⟩]

/-- Items in a row behind a count, the first of them at index `i`. -/
def itemPlacements {α : Type} (role : Role) (alignment size offset : Nat) (bytes : Nat → α → List UInt8)
    (i : Nat) : List α → List Placement
  | [] => []
  | a :: items => ⟨role, alignment, offset - 4 - i * size, bytes (offset - 4 - i * size) a⟩ ::
      itemPlacements role alignment size offset bytes (i + 1) items

/-- The first word of a table that was closed, in front of it its vtable if there was none like it. -/
def tablePlacements (b b' : Builder) (o : OpenObject) : List Placement :=
  let table := 4 + padding b.offset 4 + b.offset
  let vtable := o.vtable b.order table
  let position :=
    if b'.vtablesWritten = b.vtablesWritten then (b.vtables.get? vtable).getD 0 else b'.offset
  (if b'.vtablesWritten = b.vtablesWritten then [] else [⟨.vtable, 2, position, vtable⟩]) ++
    [⟨.tableStart, 4, table, ScalarType.i32.encode b.order (BitVec.ofInt 32 ((position : Int) - table))⟩]

/-- What a call that led from `b` to `b'` put in front. -/
def Call.placements (b b' : Builder) : Call → List Placement
  | push ty v => [⟨.element, ty.size, b'.offset, ty.encode b.order v⟩]
  | addScalarAlways _ ty v => [⟨.field, ty.size, b'.offset, ty.encode b.order v⟩]
  | addScalar _ ty v default =>
    if Build.Elided b.options ty v default then []
    else [⟨.field, ty.size, b'.offset, ty.encode b.order v⟩]
  | pushOffset target | addOffset _ target =>
    [⟨.reference, 4, b'.offset, b.order.encode 4 (b'.offset - target)⟩]
  | addUnion _ _ .none => []
  | addUnion _ _ (.some tag payload _) =>
    [⟨.field, 1, b'.offset, ScalarType.u8.encode b.order (BitVec.ofNat 8 tag.toNat)⟩,
      ⟨.reference, 4, b'.offset - 1, b.order.encode 4 (b'.offset - 1 - payload.value)⟩]
  | createStruct layout v => [⟨.struct, layout.align, b'.offset, layout.encode b.order v⟩]
  | endObject =>
    match b.stage with
    | .object o => tablePlacements b b' o
    | _ => []
  | endVector =>
    match b.stage with
    | .vector v => [⟨.count, 4, b'.offset, b.order.encode 4 v.count⟩]
    | _ => []
  | createVector ty items =>
    vectorPlacements b.order b'.offset items.length ty.size (items.flatMap (ty.encode b.order))
  | createByteVector bytes => vectorPlacements b.order b'.offset bytes.length 1 bytes
  | createByteVectorAligned bytes alignment =>
    vectorPlacements b.order b'.offset bytes.length alignment bytes
  | createNestedBuffer bytes => vectorPlacements b.order b'.offset bytes.length 8 bytes
  | createVectorOfOffsets targets =>
    vectorPlacements b.order b'.offset targets.length 4 [] ++
      itemPlacements .reference 4 4 b'.offset (fun o target => b.order.encode 4 (o - target)) 0 targets
  | createVectorOfStructs layout items =>
    vectorPlacements b.order b'.offset items.length layout.align [] ++
      itemPlacements .struct (if layout.align ∣ layout.size then layout.align else 1) layout.size b'.offset
        (fun _ => layout.encode b.order) 0 items
  | createString s => [⟨.text, 4, b'.offset, b.order.encode 4 s.toUTF8.toList.length ++ s.toUTF8.toList⟩]
  | createByteString bytes => [⟨.text, 4, b'.offset, b.order.encode 4 bytes.length ++ bytes⟩]
  | finish root _ => [⟨.frame, 4, b'.offset, b.order.encode 4 (b'.offset - root)⟩]
  | finishSizePrefixed root _ =>
    [⟨.frame, 4, b'.offset, b.order.encode 4 (b'.offset - 4)⟩,
      ⟨.frame, 4, b'.offset - 4, b.order.encode 4 (b'.offset - 4 - root)⟩]
  | _ => []

/-- The alignments that a call asks for when it succeeds. -/
def Call.alignments (options : Options) : Call → List Nat
  | prep size _ => [size]
  | push ty _ | addScalarAlways _ ty _ => [ty.size]
  | addScalar _ ty v default => if Build.Elided options ty v default then [] else [ty.size]
  | pushOffset _ | addOffset .. | endObject | createString _ | createByteString _ | finish ..
  | finishSizePrefixed .. => [4]
  | addUnion _ _ .none => []
  | addUnion _ _ (.some ..) => [1, 4]
  | createStruct layout _ => [layout.align]
  | startVector _ _ alignment => [4, alignment]
  | createVector ty _ => [4, ty.size]
  | createByteVector _ => [4, 1]
  | createByteVectorAligned _ alignment => [4, alignment]
  | createNestedBuffer _ => [4, 8]
  | createVectorOfOffsets _ => [4, 4]
  | createVectorOfStructs layout _ => [4, layout.align]
  | _ => []

namespace Builder

/-- An alignment was asked for. -/
structure Asked (b : Builder) (alignment : Nat) : Prop where
  power : isPowerOfTwo alignment = true
  le : alignment ≤ b.minAlign

theorem Rests.asked_for {b : Builder} {alignment offset : Nat} (h : b.Rests alignment offset) :
    b.Asked alignment :=
  ⟨h.power, h.asked⟩

theorem Asked.mono {b b' : Builder} {alignment : Nat} (h : b.Asked alignment) (hgrows : b.Grows b') :
    b'.Asked alignment :=
  ⟨h.power, Nat.le_trans h.le hgrows.minAlign.le⟩

end Builder

/-- The bytes stand at the offset, which is a multiple of an alignment that was asked for, and in front of
all that `b` had written. -/
structure Placement.Holds (p : Placement) (b b' : Builder) : Prop where
  rests : b'.Rests p.alignment p.offset
  stands : StandsAt b'.arena.written p.offset p.bytes
  new : b.offset + p.bytes.length ≤ p.offset

theorem Placement.Holds.mono {p : Placement} {b b' b'' : Builder} (h : p.Holds b b') (hgrows : b'.Grows b'') :
    p.Holds b b'' :=
  ⟨h.rests.mono hgrows.minAlign.le, h.stands.mono hgrows.written, h.new⟩

section Vectors

variable {b b' : Builder} {order : ByteOrder} {offset count alignment : Nat} {data : List UInt8}

theorem vectorPlacements_hold (hrests : b'.Rests 4 (offset - 4) ∧ b'.Rests alignment (offset - 4))
    (h : StandsAt b'.arena.written offset (order.encode 4 count ++ data))
    (hnew : b.offset + (4 + data.length) ≤ offset) :
    ∀ p ∈ vectorPlacements order offset count alignment data, p.Holds b b' := by
  have hdata := h.right
  rw [ByteOrder.length_encode] at hdata
  refine List.forall_mem_cons.2 ⟨⟨?_, h.left, ?_⟩, List.forall_mem_singleton.2 ⟨hrests.2, hdata, ?_⟩⟩
  · have hcount := hrests.1.add (Nat.dvd_refl 4)
    rwa [Nat.sub_add_cancel (by omega)] at hcount
  · rw [ByteOrder.length_encode]
    show b.offset + 4 ≤ offset
    omega
  · show b.offset + data.length ≤ offset - 4
    omega

theorem vectorPlacements_apart (hnew : 4 ≤ offset) :
    (vectorPlacements order offset count alignment data).Pairwise Placement.Apart := by
  refine List.pairwise_pair.2 (Or.inr ?_)
  show offset - 4 + (order.encode 4 count).length ≤ offset
  rw [ByteOrder.length_encode]
  omega

section Items

variable {α : Type} {role : Role} {size i : Nat} {bytes : Nat → α → List UInt8} {items : List α}

theorem itemPlacements_hold (hrests : b'.Rests alignment (offset - 4)) (hsize : alignment ∣ size)
    (hlen : ∀ o a, (bytes o a).length = size) (hnew : b.offset + (4 + (i + items.length) * size) ≤ offset)
    (h : ∀ j a, items[j]? = some a →
      StandsAt b'.arena.written (offset - 4 - (i + j) * size) (bytes (offset - 4 - (i + j) * size) a)) :
    ∀ p ∈ itemPlacements role alignment size offset bytes i items, p.Holds b b' := by
  induction items generalizing i with
  | nil => exact nofun
  | cons a items ih =>
    have hmul : (i + (a :: items).length) * size = (i + 1 + items.length) * size := by
      rw [List.length_cons, Nat.add_assoc i 1, Nat.add_comm 1]
    rw [hmul] at hnew
    refine List.forall_mem_cons.2 ⟨⟨⟨hrests.power, hrests.asked, ?_⟩, h 0 a rfl, ?_⟩,
      ih hnew fun j x hx => ?_⟩
    · exact Nat.dvd_sub hrests.multiple (Nat.dvd_trans hsize (Nat.dvd_mul_left ..))
    · rw [hlen]
      have hroom : (i + 1) * size ≤ (i + 1 + items.length) * size := Nat.mul_le_mul_right _ (by omega)
      rw [Nat.succ_mul] at hroom
      show b.offset + size ≤ offset - 4 - i * size
      omega
    · rw [Nat.add_assoc, Nat.add_comm 1 j]
      exact h (j + 1) x hx

/-- The items lie behind one another, from the first to the last. -/
theorem itemPlacements_below (hlen : ∀ o a, (bytes o a).length = size)
    (hnew : 4 + (i + items.length) * size ≤ offset) :
    (itemPlacements role alignment size offset bytes i items).Pairwise Placement.Apart ∧
      ∀ p ∈ itemPlacements role alignment size offset bytes i items, p.offset ≤ offset - 4 - i * size := by
  induction items generalizing i with
  | nil => exact ⟨.nil, nofun⟩
  | cons a items ih =>
    have hmul : (i + (a :: items).length) * size = (i + 1 + items.length) * size := by
      rw [List.length_cons, Nat.add_assoc i 1, Nat.add_comm 1]
    have hroom : (i + 1) * size ≤ (i + 1 + items.length) * size := Nat.mul_le_mul_right _ (by omega)
    rw [hmul] at hnew
    obtain ⟨hrest, hbelow⟩ := ih hnew
    rw [Nat.succ_mul] at hroom
    simp only [Nat.succ_mul] at hbelow
    refine ⟨List.pairwise_cons.2 ⟨fun p hp => Or.inr ?_, hrest⟩, List.forall_mem_cons.2 ⟨Nat.le_refl _, ?_⟩⟩
    · have hp := hbelow p hp
      rw [hlen]
      show p.offset + size ≤ offset - 4 - i * size
      omega
    · intro p hp
      have hp := hbelow p hp
      omega

/-- A count with items behind it. -/
theorem listPlacements_apart {alignment' : Nat} (hlen : ∀ o a, (bytes o a).length = size)
    (hnew : 4 + items.length * size ≤ offset) :
    (vectorPlacements order offset count alignment' [] ++
      itemPlacements role alignment size offset bytes 0 items).Pairwise Placement.Apart := by
  have hfirst : 4 + (0 + items.length) * size ≤ offset := by rwa [Nat.zero_add]
  obtain ⟨hitems, hbelow⟩ := itemPlacements_below hlen hfirst
  refine List.pairwise_append.2 ⟨vectorPlacements_apart (by omega), hitems, fun p hp q hq => Or.inr ?_⟩
  have hq := hbelow q hq
  rcases List.mem_cons.1 hp with rfl | hp
  · show q.offset + (order.encode 4 count).length ≤ offset
    rw [ByteOrder.length_encode]
    omega
  · obtain rfl := List.mem_singleton.1 hp
    show q.offset + 0 ≤ offset - 4
    omega

end Items

end Vectors

namespace Builder

/-- The open table, if there is one, started with what is written. -/
def StartsWithin (b : Builder) : Prop := ∀ o, b.stage = .object o → o.start ≤ b.offset

/-- The data of the open vector, if there is one, will stand at a multiple of the alignment. -/
def Awaits (alignment : Nat) (b : Builder) : Prop :=
  ∀ v, b.stage = .vector v → v.start ≤ b.offset ∧ b.Rests alignment (v.start + v.dataLength)

end Builder

/-- What a call that led from `b` to `b'` asked for is kept in mind, and what it put stands aligned, each
thing in a place of its own. -/
structure Call.Aligns (c : Call) (b b' : Builder) : Prop where
  asked : ∀ a ∈ c.alignments b.options, b'.Asked a
  placed : ∀ p ∈ c.placements b b', p.Holds b b'
  apart : (c.placements b b').Pairwise Placement.Apart

namespace Call

open Build

variable (b : Builder)

/-- A call that puts one thing in front and asks for its alignment. -/
theorem aligns_of_single {c : Call} {b' : Builder} {role : Role} {alignment : Nat} {bytes : List UInt8}
    (ha : c.alignments b.options = [alignment])
    (hp : c.placements b b' = [⟨role, alignment, b'.offset, bytes⟩])
    (hstands : StandsAt b'.arena.written b'.offset bytes) (hnew : b.offset + bytes.length ≤ b'.offset)
    (hrests : b'.Rests alignment b'.offset) : c.Aligns b b' where
  asked := by
    rw [ha]
    exact List.forall_mem_singleton.2 hrests.asked_for
  placed := by
    rw [hp]
    exact List.forall_mem_singleton.2 ⟨hrests, hstands, hnew⟩
  apart := by
    rw [hp]
    exact List.pairwise_singleton ..

theorem aligns_of_nothing {c : Call} {b' : Builder} (ha : c.alignments b.options = [])
    (hp : c.placements b b' = []) : c.Aligns b b' := by
  constructor
  · rw [ha]
    exact nofun
  · rw [hp]
    exact nofun
  · rw [hp]
    exact .nil

/-- A call that writes a vector asks for the alignment of the count and for that of the data. -/
theorem asked_of_vector {c : Call} {b' : Builder} {offset alignment : Nat}
    (ha : c.alignments b.options = [4, alignment])
    (hrests : b'.Rests 4 (offset - 4) ∧ b'.Rests alignment (offset - 4)) :
    ∀ a ∈ c.alignments b.options, b'.Asked a := by
  rw [ha]
  exact List.forall_mem_cons.2 ⟨hrests.1.asked_for, List.forall_mem_singleton.2 hrests.2.asked_for⟩

/-- A vector that is written at once. -/
theorem aligns_of_vector {c : Call} {b' : Builder} {count alignment : Nat} {data rest : List UInt8}
    (ha : c.alignments b.options = [4, alignment])
    (hp : c.placements b b' = vectorPlacements b.order b'.offset count alignment data)
    (hrests : b'.Rests 4 (b'.offset - 4) ∧ b'.Rests alignment (b'.offset - 4))
    (h : b.Puts (b.order.encode 4 count ++ data ++ rest) b') : c.Aligns b b' := by
  have hlen := h.offset
  rw [List.length_append, List.length_append, ByteOrder.length_encode] at hlen
  refine ⟨asked_of_vector b ha hrests, ?_, ?_⟩
  · rw [hp]
    exact vectorPlacements_hold hrests h.stands (by omega)
  · rw [hp]
    exact vectorPlacements_apart (by omega)

theorem prep_aligns (size additional : Nat) :
    Ends (Build.prep size additional) b (fun _ b' => (Call.prep size additional).Aligns b b')
      (fun _ _ => True) := by
  refine (prep_ends b size additional).mono ?_ fun _ _ _ => trivial
  intro _ b' h
  obtain ⟨-, -, -, -, hrests⟩ := h
  exact ⟨List.forall_mem_singleton.2 hrests.asked_for, nofun, .nil⟩

theorem push_aligns (ty : ScalarType) (v : ty.Value) :
    Ends (Build.push ty v) b (fun _ b' => (Call.push ty v).Aligns b b') (fun _ _ => True) := by
  refine (push_ends b ty v).mono ?_ fun _ _ _ => trivial
  intro _ b' h
  obtain ⟨h, -, -, hrests⟩ := h
  exact aligns_of_single b rfl rfl h.stands h.in_front hrests

/-- The distance that a reference holds when it stands at the front. -/
theorem reference_distance {b' : Builder} {order : ByteOrder} {target : Nat} {rest : List UInt8}
    (hle : target ≤ b.offset) (h : b.Puts (order.encode 4 (b'.offset - 4 - target + 4) ++ rest) b') :
    b'.offset - 4 - target + 4 = b'.offset - target := by
  have hlen := h.offset
  rw [List.length_append, ByteOrder.length_encode] at hlen
  omega

theorem pushOffset_aligns {kind : OffsetKind} (target : Offset kind) :
    Ends (Build.pushOffset target) b (fun _ b' => (Call.pushOffset target.value).Aligns b b')
      (fun _ _ => True) := by
  refine (pushOffset_ends b target).mono ?_ fun _ _ _ => trivial
  intro _ b' h
  obtain ⟨h, -, hle, -, hrests⟩ := h
  rw [reference_distance b hle h] at h
  exact aligns_of_single b rfl rfl h.stands h.in_front hrests

theorem addScalar_aligns (slot : Nat) (ty : ScalarType) (v default : ty.Value) :
    Ends (Build.addScalar slot ty v default) b (fun _ b' => (Call.addScalar slot ty v default).Aligns b b')
      (fun _ _ => True) := by
  refine (addScalar_ends b slot ty v default).mono ?_ fun _ _ _ => trivial
  intro _ b' h
  obtain ⟨o, -, -, h⟩ := h
  by_cases helided : Elided b.options ty v default
  · exact aligns_of_nothing b (if_pos helided) (if_pos helided)
  · rw [if_neg helided] at h
    exact aligns_of_single b (if_neg helided) (if_neg helided) h.1.stands h.1.in_front h.2

theorem addScalarAlways_aligns (slot : Nat) (ty : ScalarType) (v : ty.Value) :
    Ends (Build.addScalarAlways slot ty v) b (fun _ b' => (Call.addScalarAlways slot ty v).Aligns b b')
      (fun _ _ => True) := by
  refine (addScalarAlways_ends b slot ty v).mono ?_ fun _ _ _ => trivial
  intro _ b' h
  obtain ⟨o, h, hrests⟩ := h
  exact aligns_of_single b rfl rfl h.stands h.in_front hrests

/-- A reference that is a field holds its distance too. -/
theorem stores_reference {b' : Builder} {o : OpenObject} {slot target : Nat} {rest : List UInt8}
    (hle : target ≤ b.offset)
    (h : b.Stores o slot 4 (b.order.encode 4 (b'.offset - 4 - target + 4) ++ rest) b') :
    b.Stores o slot 4 (b.order.encode 4 (b'.offset - target) ++ rest) b' := by
  have hdistance : b'.offset - 4 - target + 4 = b'.offset - target := by
    obtain ⟨b1, h1, hb'⟩ := h.puts
    have hsame : b'.offset = b1.offset := by rw [hb']; rfl
    rw [hsame] at h1 ⊢
    exact reference_distance b hle h1
  rwa [hdistance] at h

/-- The open table started with what is written, so its targets are among that. -/
theorem addOffset_aligns {kind : OffsetKind} (slot : Nat) (target : Offset kind) (hstart : b.StartsWithin) :
    Ends (Build.addOffset slot target) b (fun _ b' => (Call.addOffset slot target.value).Aligns b b')
      (fun _ _ => True) := by
  refine (addOffset_ends b slot target).mono ?_ fun _ _ _ => trivial
  intro _ b' h
  obtain ⟨o, -, hle, h, hrests⟩ := h
  have htarget : target.value ≤ b.offset := Nat.le_trans hle (hstart o h.stage)
  have hstored := stores_reference b htarget h
  exact aligns_of_single b rfl rfl hstored.stands hstored.in_front hrests

theorem addUnion_aligns (typeSlot valueSlot : Nat) (union : UnionOffset) (hstart : b.StartsWithin) :
    Ends (Build.addUnion typeSlot valueSlot union) b
      (fun _ b' => (Call.addUnion typeSlot valueSlot union).Aligns b b') (fun _ _ => True) := by
  refine (addUnion_ends b typeSlot valueSlot union).mono ?_ fun _ _ _ => trivial
  intro _ b' h
  cases union with
  | none => exact aligns_of_nothing b rfl rfl
  | some tag payload htag =>
    obtain ⟨o, b1, -, -, -, hle, hvalue, htype, hreference, hone⟩ := h
    have htarget : payload.value ≤ b.offset := Nat.le_trans hle (hstart o hvalue.stage)
    have hstored := stores_reference b htarget hvalue
    have hoffset : b1.offset = b'.offset - 1 := by
      obtain ⟨c, hc, rfl⟩ := htype.puts
      show b1.offset = c.offset - 1
      rw [hc.offset, ScalarType.length_encode]
      exact (Nat.add_sub_cancel_left ..).symm
    have htagged := htype
    rw [← List.append_nil (ScalarType.encode ..)] at htagged
    have hbytes := hstored.stands.mono htype.keeps.written
    rw [hoffset] at hreference hbytes
    refine ⟨?_, ?_, ?_⟩
    · exact List.forall_mem_cons.2 ⟨hone.asked_for, List.forall_mem_singleton.2 hreference.asked_for⟩
    · have hnew : b.offset + 4 ≤ b1.offset := by
        have hfront := hvalue.in_front
        rwa [ByteOrder.length_encode] at hfront
      refine List.forall_mem_cons.2 ⟨⟨hone, htagged.stands, ?_⟩,
        List.forall_mem_singleton.2 ⟨hreference, hbytes, ?_⟩⟩
      · exact Nat.le_trans (Nat.add_le_add_right hvalue.keeps.offset_le _) htagged.in_front
      · rw [ByteOrder.length_encode]
        show b.offset + 4 ≤ b'.offset - 1
        omega
    · have hfront := htagged.in_front
      rw [ScalarType.length_encode] at hfront
      refine List.pairwise_pair.2 (Or.inr ?_)
      rw [ScalarType.length_encode]
      show b'.offset - 1 + 1 ≤ b'.offset
      change b1.offset + 1 ≤ b'.offset at hfront
      omega

theorem createStruct_aligns (layout : StructLayout) (v : layout.Value) :
    Ends (Build.createStruct layout v) b (fun _ b' => (Call.createStruct layout v).Aligns b b')
      (fun _ _ => True) := by
  refine (createStruct_ends b layout v).mono ?_ fun _ _ _ => trivial
  intro _ b' h
  obtain ⟨-, hrests, k, b1, h, rfl⟩ := h
  exact aligns_of_single b rfl rfl h.stands h.in_front hrests

/-- What closing a table puts, by where its vtable is. -/
theorem placements_of_closes {b b' : Builder} {o : OpenObject} {table vtable : Nat}
    (h : b.Closes o table vtable b') : Call.endObject.placements b b' =
      (if b'.vtablesWritten = b.vtablesWritten then [] else [⟨.vtable, 2, vtable, o.vtable b.order table⟩]) ++
        [⟨.tableStart, 4, table, ScalarType.i32.encode b.order (BitVec.ofInt 32 ((vtable : Int) - table))⟩] := by
  simp only [placements, h.stage, tablePlacements, ← h.table_eq]
  cases h.locates with
  | shared dedup found cache count => rw [if_pos count, if_pos count, if_pos count, found, Option.getD_some]
  | written fresh front starts apart rests cache count =>
    have hnew : b'.vtablesWritten ≠ b.vtablesWritten := by omega
    rw [if_neg hnew, if_neg hnew, if_neg hnew, front]

theorem endObject_aligns :
    Ends Build.endObject b (fun _ b' => Call.endObject.Aligns b b') (fun _ _ => True) := by
  refine (endObject_ends b).mono ?_ fun _ _ _ => trivial
  intro r b' h
  obtain ⟨o, vtable, h⟩ := h
  have htable := h.table_eq
  have hword : Placement.Holds ⟨.tableStart, 4, r.value, ScalarType.i32.encode b.order
      (BitVec.ofInt 32 ((vtable : Int) - r.value))⟩ b b' := by
    refine ⟨h.rests, h.distance, ?_⟩
    rw [ScalarType.length_encode]
    show b.offset + 4 ≤ r.value
    omega
  have hasked : ∀ a ∈ Call.endObject.alignments b.options, b'.Asked a :=
    List.forall_mem_singleton.2 h.rests.asked_for
  have hparts := placements_of_closes h
  cases h.locates with
  | shared dedup found cache count =>
    rw [if_pos count, List.nil_append] at hparts
    refine ⟨hasked, ?_, ?_⟩
    · rw [hparts]
      exact List.forall_mem_singleton.2 hword
    · rw [hparts]
      exact List.pairwise_singleton ..
  | written fresh front starts apart rests cache count =>
    rw [if_neg (by omega), List.singleton_append] at hparts
    obtain ⟨rest, hrest⟩ := starts
    have hstands : StandsAt b'.arena.written vtable (o.vtable b.order r.value) :=
      front ▸ StandsAt.front hrest.symm
    refine ⟨hasked, ?_, ?_⟩
    · rw [hparts]
      refine List.forall_mem_cons.2 ⟨⟨rests, hstands, ?_⟩, List.forall_mem_singleton.2 hword⟩
      show b.offset + (o.vtable b.order r.value).length ≤ vtable
      omega
    · rw [hparts]
      refine List.pairwise_pair.2 (Or.inr ?_)
      show r.value + (o.vtable b.order r.value).length ≤ vtable
      omega

theorem startVector_aligns (size count alignment : Nat) :
    Ends (Build.startVector size count alignment) b
      (fun _ b' => (Call.startVector size count alignment).Aligns b b') (fun _ _ => True) := by
  refine (startVector_ends b size count alignment).mono ?_ fun _ _ _ => trivial
  intro _ b' h
  obtain ⟨-, hcount, hdata, -⟩ := h
  exact ⟨List.forall_mem_cons.2 ⟨hcount.asked_for, List.forall_mem_singleton.2 hdata.asked_for⟩, nofun, .nil⟩

/-- The count of a vector comes to stand in front of data that are aligned for it. -/
theorem endVector_aligns (hawaits : b.Awaits 4) :
    Ends Build.endVector b (fun _ b' => Call.endVector.Aligns b b') (fun _ _ => True) := by
  refine (endVector_ends b).mono ?_ fun _ _ _ => trivial
  intro _ b' h
  obtain ⟨v, hv, hsize, -, h⟩ := h
  obtain ⟨hstart, hrests⟩ := hawaits v hv
  rw [← List.append_nil (ByteOrder.encode ..)] at h
  have hfront := h.in_front
  have hlen := h.offset
  rw [List.append_nil, ByteOrder.length_encode] at hlen
  change b'.offset = 4 + b.offset at hlen
  have hoffset : b'.offset = v.start + v.dataLength + 4 := by omega
  have hcount : b'.Rests 4 b'.offset := by
    rw [hoffset]
    exact (hrests.add (Nat.dvd_refl 4)).mono h.minAlign.le
  refine ⟨nofun, ?_, ?_⟩
  · rw [placements, hv]
    exact List.forall_mem_singleton.2 ⟨hcount, h.stands, hfront⟩
  · rw [placements, hv]
    exact List.pairwise_singleton ..

theorem createVector_aligns (ty : ScalarType) (items : List ty.Value) :
    Ends (Build.createVector ty items) b (fun _ b' => (Call.createVector ty items).Aligns b b')
      (fun _ _ => True) := by
  refine (createVector_ends b ty items).mono ?_ fun _ _ _ => trivial
  intro o b' h
  obtain ⟨-, ho, hrests, k, h⟩ := h
  rw [ho] at hrests
  exact aligns_of_vector b rfl rfl hrests h

theorem createByteVectorAligned_aligns {c : Call} (bytes : List UInt8) (alignment : Nat)
    (ha : c.alignments b.options = [4, alignment])
    (hp : ∀ b', c.placements b b' = vectorPlacements b.order b'.offset bytes.length alignment bytes) :
    Ends (Build.createByteVectorAligned bytes alignment) b (fun _ b' => c.Aligns b b')
      (fun _ _ => True) := by
  refine (createByteVectorAligned_ends b bytes alignment).mono ?_ fun _ _ _ => trivial
  intro o b' h
  obtain ⟨-, ho, hrests, k, h⟩ := h
  rw [ho] at hrests
  exact aligns_of_vector b ha (hp b') hrests h

theorem createVectorOfStructs_aligns (layout : StructLayout) (items : List layout.Value) :
    Ends (Build.createVectorOfStructs layout items) b
      (fun _ b' => (Call.createVectorOfStructs layout items).Aligns b b') (fun _ _ => True) := by
  refine (createVectorOfStructs_ends b layout items).mono ?_ fun _ _ _ => trivial
  intro o b' h
  obtain ⟨-, -, ho, hrests, k, h⟩ := h
  rw [ho] at hrests
  have hlen := h.offset
  rw [List.length_append, List.length_append, ByteOrder.length_encode,
    length_flatMap_encode (layout.length_encode b.order), Nat.mul_comm] at hlen
  have hcount : StandsAt b'.arena.written b'.offset (b.order.encode 4 items.length ++ []) := by
    rw [List.append_nil]
    exact h.stands.left
  have hdata := h.stands.right
  rw [ByteOrder.length_encode] at hdata
  -- Items that are not a multiple of their alignment stand at no alignment from the second on.
  have hitem : b'.Rests (if layout.align ∣ layout.size then layout.align else 1) (b'.offset - 4) := by
    split
    · exact hrests.2
    · exact hrests.2.weaken rfl (pos_of_isPowerOfTwo hrests.2.power)
  have hdvd : (if layout.align ∣ layout.size then layout.align else 1) ∣ layout.size := by
    split
    · assumption
    · exact Nat.one_dvd _
  refine ⟨asked_of_vector b rfl hrests, List.forall_mem_append.2 ⟨vectorPlacements_hold hrests hcount ?_,
    itemPlacements_hold hitem hdvd (fun _ => layout.length_encode b.order) ?_ fun i v hv => ?_⟩,
    listPlacements_apart (fun _ => layout.length_encode b.order) (by omega)⟩
  · show b.offset + (4 + 0) ≤ b'.offset
    omega
  · rw [Nat.zero_add]
    omega
  · rw [Nat.zero_add]
    exact hdata.item (layout.length_encode b.order) hv

theorem createVectorOfOffsets_aligns (targets : List Nat) :
    Ends (Build.createVectorOfOffsets (targets.map fun t => (⟨t⟩ : Offset .table))) b
      (fun _ b' => (Call.createVectorOfOffsets targets).Aligns b b') (fun _ _ => True) := by
  refine (Builder.createVectorOfOffsets_ends_at b targets).mono ?_ fun _ _ _ => trivial
  intro o b' h
  obtain ⟨ho, hrests, hnew, h⟩ := h
  rw [ho] at hrests
  have hlen : ∀ o target, (b.order.encode 4 (o - target)).length = 4 := fun _ _ => ByteOrder.length_encode ..
  have hcount : StandsAt b'.arena.written b'.offset (b.order.encode 4 targets.length ++ []) := by
    rw [List.append_nil]
    exact h.count
  refine ⟨asked_of_vector b rfl ⟨hrests, hrests⟩, List.forall_mem_append.2
    ⟨vectorPlacements_hold ⟨hrests, hrests⟩ hcount ?_, itemPlacements_hold hrests (Nat.dvd_refl 4) hlen ?_
      fun i target hi => ?_⟩, listPlacements_apart hlen (by omega)⟩
  · show b.offset + (4 + 0) ≤ b'.offset
    omega
  · rwa [Nat.zero_add]
  · rw [Nat.zero_add]
    exact (h.item i target hi).2

theorem createByteString_aligns {c : Call} (bytes : List UInt8) (ha : c.alignments b.options = [4])
    (hp : ∀ b', c.placements b b' = [⟨.text, 4, b'.offset, b.order.encode 4 bytes.length ++ bytes⟩]) :
    Ends (Build.createByteString bytes) b (fun _ b' => c.Aligns b b') (fun _ _ => True) := by
  refine (createByteString_ends b bytes).mono ?_ fun _ _ _ => trivial
  intro o b' h
  obtain ⟨-, -, hrests, k, h⟩ := h
  exact aligns_of_single b ha (hp b') h.stands h.in_front hrests

/-- The words in front of a finished buffer stand aligned, since the whole is a multiple of four. -/
theorem finish_aligns {c : Call} {sizePrefixed : Bool} {root : Nat} {identifier : Option Identifier}
    {b' : Builder} (hb : b.Sound) (h : b.Finishes root identifier sizePrefixed b')
    (hc : c = Builder.finishing sizePrefixed root identifier) : c.Aligns b b' := by
  have hmax : b'.offset ≤ maxBufferSize := (hb.extends h.keeps.extends).offset_le_max
  obtain ⟨body, hdata, hframes, hwhole⟩ := h.frames hb.minAlign hmax
  have hwritten := Builder.written_of_finishedData hdata
  rw [← hwritten, ← h.minAlign_eq] at hwhole
  have hasked : b'.Asked 4 := ⟨rfl, h.minAlign_eq ▸ Nat.le_max_right ..⟩
  have hfour : 4 ∣ b'.offset := by
    refine Nat.dvd_trans (dvd_of_isPowerOfTwo rfl ?_ hasked.le) hwhole
    rw [h.minAlign_eq]
    exact isPowerOfTwo_max hb.minAlign rfl
  have hbody := hframes.referenceAt.2
  have hfront := hframes.in_front
  change b.offset + 4 ≤ body.length at hfront
  subst hc
  cases sizePrefixed with
  | false =>
    have hsame : b'.arena.written = body := hwritten
    rw [← hsame] at hbody hfront
    refine ⟨List.forall_mem_singleton.2 hasked, List.forall_mem_singleton.2
      ⟨⟨hasked.power, hasked.le, hfour⟩, hbody, ?_⟩, List.pairwise_singleton ..⟩
    rw [ByteOrder.length_encode]
    exact hfront
  | true =>
    have hframed : b'.arena.written = b.order.encode 4 body.length ++ body := hwritten
    have hlength : b'.offset = 4 + body.length := by
      rw [Builder.offset, Arena.size, hframed, List.length_append, ByteOrder.length_encode]
    have hinner := hbody.mono (hframed ▸ List.suffix_append _ body)
    rw [show body.length = b'.offset - 4 by omega] at hframed hinner
    refine ⟨List.forall_mem_singleton.2 hasked, List.forall_mem_cons.2
      ⟨⟨⟨hasked.power, hasked.le, hfour⟩, StandsAt.front hframed, ?_⟩, List.forall_mem_singleton.2
        ⟨⟨hasked.power, hasked.le, Nat.dvd_sub hfour (Nat.dvd_refl 4)⟩, hinner, ?_⟩⟩,
      List.pairwise_pair.2 (Or.inr ?_)⟩
    · rw [ByteOrder.length_encode]
      show b.offset + 4 ≤ b'.offset
      omega
    · rw [ByteOrder.length_encode]
      show b.offset + 4 ≤ b'.offset - 4
      omega
    · rw [ByteOrder.length_encode]
      show b'.offset - 4 + 4 ≤ b'.offset
      omega

theorem nothing_aligns {c : Call} (ha : c.alignments b.options = []) (hp : ∀ b', c.placements b b' = []) :
    Ends c.step b (fun _ b' => c.Aligns b b') (fun _ _ => True) := by
  unfold Ends
  split
  · exact aligns_of_nothing b ha (hp _)
  · trivial

/-- Whatever a call asks for is kept in mind, and whatever it puts stands aligned. -/
theorem step_aligns (hb : b.Sound) (hstart : b.StartsWithin) (hawaits : b.Awaits 4) (c : Call) :
    Ends c.step b (fun _ b' => c.Aligns b b') (fun _ _ => True) := by
  cases c with
  | prep size additional => exact ends_silent.2 (prep_aligns b size additional)
  | push ty v => exact ends_placed.2 (push_aligns b ty v)
  | pushOffset target => exact ends_placed.2 (pushOffset_aligns b ⟨target⟩)
  | addScalar slot ty v default => exact ends_silent.2 (addScalar_aligns b slot ty v default)
  | addScalarAlways slot ty v => exact ends_silent.2 (addScalarAlways_aligns b slot ty v)
  | addOffset slot target => exact ends_silent.2 (addOffset_aligns b slot ⟨target⟩ hstart)
  | createStruct layout v => exact ends_located.2 (createStruct_aligns b layout v)
  | addUnion typeSlot valueSlot union =>
    exact ends_silent.2 (addUnion_aligns b typeSlot valueSlot union hstart)
  | endObject => exact ends_located.2 (endObject_aligns b)
  | startVector size count alignment => exact ends_silent.2 (startVector_aligns b size count alignment)
  | endVector => exact ends_located.2 (endVector_aligns b hawaits)
  | createVector ty items => exact ends_located.2 (createVector_aligns b ty items)
  | createByteVector bytes =>
    exact ends_located.2 (createByteVectorAligned_aligns b bytes 1 rfl fun _ => rfl)
  | createByteVectorAligned bytes alignment =>
    exact ends_located.2 (createByteVectorAligned_aligns b bytes alignment rfl fun _ => rfl)
  | createVectorOfOffsets targets => exact ends_located.2 (createVectorOfOffsets_aligns b targets)
  | createVectorOfStructs layout items =>
    exact ends_located.2 (createVectorOfStructs_aligns b layout items)
  | createString s => exact ends_located.2 (createByteString_aligns b _ rfl fun _ => rfl)
  | createByteString bytes => exact ends_located.2 (createByteString_aligns b bytes rfl fun _ => rfl)
  | createNestedBuffer bytes =>
    exact ends_located.2 (createByteVectorAligned_aligns b bytes 8 rfl fun _ => rfl)
  | finish root identifier =>
    exact (Builder.finish_call_ends b root identifier).mono (fun _ _ h => finish_aligns b hb h rfl)
      fun _ _ _ => trivial
  | finishSizePrefixed root identifier =>
    exact (Builder.finishSizePrefixed_call_ends b root identifier).mono
      (fun _ _ h => finish_aligns b hb h rfl) fun _ _ _ => trivial
  | reset | pad | startObject | addStruct | required | finishedData =>
    exact nothing_aligns b rfl fun _ => rfl

end Call

end TableBuffer
