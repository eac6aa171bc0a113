import TableBuffer.Proofs.Sharing

/-!
# Tables of one shape

The fields of a table are padded for where they stand in the buffer, and yet the vtable need not depend on that.
If no field asks for a stricter alignment than the first one, nor does the word that the table starts with, all of
them stand at the same distances from the first field, wherever that is, and the padding behind it is no part of
the table. So tables that got fields of the same layouts in the same order have the same vtable.
-/

namespace TableBuffer

/-- Padding does not notice a multiple of the alignment. -/
theorem padding_add {start a : Nat} (h : a ∣ start) (n : Nat) : padding (start + n) a = padding n a := by
  rw [padding, padding, Nat.add_mod, Nat.mod_eq_zero_of_dvd h, Nat.zero_add, Nat.mod_mod]

/-- All of a field but its value. -/
inductive FieldLayout
  | scalar (ty : ScalarType)
  | reference
  | struct (size alignment : Nat)
  deriving DecidableEq, Repr

namespace FieldLayout

def size : FieldLayout → Nat
  | scalar ty => ty.size
  | reference => 4
  | struct size _ => size

def alignment : FieldLayout → Nat
  | scalar ty => ty.size
  | reference => 4
  | struct _ alignment => alignment

/-- The offset of a field that comes in front of `written` bytes. -/
def place (l : FieldLayout) (written : Nat) : Nat := written + padding (written + l.size) l.alignment + l.size

variable {l : FieldLayout} {start : Nat}

theorem dvd_place (h : 0 < l.alignment) (written : Nat) : l.alignment ∣ l.place written := by
  rw [place, Nat.add_right_comm]
  exact dvd_add_padding _ h

theorem place_add (h : l.alignment ∣ start) (written : Nat) : l.place (start + written) = start + l.place written := by
  have hpad : padding (start + written + l.size) l.alignment = padding (written + l.size) l.alignment := by
    rw [Nat.add_assoc, padding_add h]
  rw [place, place, hpad]
  omega

/-- Where a field is its own unit of alignment, its padding can be made before its size is known. -/
theorem place_of_unit (h : l.alignment = l.size) (written : Nat) :
    l.place written = l.size + padding written l.size + written := by
  rw [place, h, Nat.add_comm written l.size, padding_add (Nat.dvd_refl _)]
  omega

end FieldLayout

/-- The slots and the layouts of the fields of a table, in the order in which they were stored. -/
abbrev Shape := List (Nat × FieldLayout)

namespace Shape

/-- The record of the fields when they come in front of `written` bytes. -/
def fields (written : Nat) : Shape → List StoredField
  | [] => []
  | (slot, l) :: shape => ⟨slot, l.place written, l.size⟩ :: fields (l.place written) shape

/-- What is written with the fields in front. -/
def extent (written : Nat) : Shape → Nat
  | [] => written
  | (_, l) :: shape => extent (l.place written) shape

/-- The vtable of a table with these fields that is the first thing written. -/
def vtable (order : ByteOrder) (slots : Nat) (shape : Shape) : List UInt8 :=
  OpenObject.vtable ⟨0, slots, (shape.fields 0).reverse⟩ order (4 + padding (shape.extent 0) 4 + shape.extent 0)

/-- The first field is aligned for the start of the table and for all fields that come after it. -/
def Leads : Shape → Prop
  | [] => True
  | (_, l) :: shape => 4 ≤ l.alignment ∧ ∀ f ∈ shape, f.2.alignment ≤ l.alignment

/-- Every alignment is a power of two. -/
def Aligned (shape : Shape) : Prop := ∀ f ∈ shape, isPowerOfTwo f.2.alignment = true

end Shape

def StoredField.shift (start : Nat) (f : StoredField) : StoredField := { f with offset := start + f.offset }

/-- The same table with everything so much farther from the end. -/
def OpenObject.shift (start : Nat) (o : OpenObject) : OpenObject := { o with fields := o.fields.map (·.shift start) }

section Shift

variable {start : Nat} {shape : Shape}

theorem OpenObject.tableLength_shift (o : OpenObject) (offset : Nat) :
    (o.shift start).tableLength (start + offset) = o.tableLength offset := by
  simp only [tableLength, shift, StoredField.shift, List.map_map, Function.comp_def, Nat.add_sub_add_left]

theorem OpenObject.entry_shift (o : OpenObject) (offset slot : Nat) :
    (o.shift start).entry (start + offset) slot = o.entry offset slot := by
  have hfind : (o.shift start).fields.find? (·.slot == slot) =
      (o.fields.find? (·.slot == slot)).map (·.shift start) := List.find?_map ..
  rw [entry, entry, hfind]
  cases o.fields.find? (·.slot == slot) with
  | none => rfl
  | some f => exact Nat.add_sub_add_left ..

/-- A vtable is about distances inside the table only. -/
theorem OpenObject.vtable_shift (o : OpenObject) (order : ByteOrder) (offset : Nat) :
    (o.shift start).vtable order (start + offset) = o.vtable order offset := by
  rw [vtable, vtable, tableLength_shift]
  exact congrArg _ (funext (o.entry_shift offset))

theorem Shape.fields_add (h : ∀ f ∈ shape, f.2.alignment ∣ start) (written : Nat) :
    shape.fields (start + written) = (shape.fields written).map (·.shift start) := by
  induction shape generalizing written with
  | nil => rfl
  | cons f shape ih =>
    obtain ⟨hf, hrest⟩ := List.forall_mem_cons.1 h
    rw [fields, fields, FieldLayout.place_add hf, ih hrest, List.map_cons]
    rfl

theorem Shape.extent_add (h : ∀ f ∈ shape, f.2.alignment ∣ start) (written : Nat) :
    shape.extent (start + written) = start + shape.extent written := by
  induction shape generalizing written with
  | nil => rfl
  | cons f shape ih =>
    obtain ⟨hf, hrest⟩ := List.forall_mem_cons.1 h
    rw [extent, extent, FieldLayout.place_add hf, ih hrest]

/-- Behind a field at a multiple of all alignments the others stand as if it stood at the end. -/
theorem Shape.vtable_of_dvd {s slot size slots : Nat} {order : ByteOrder} (hfour : 4 ∣ start)
    (h : ∀ f ∈ shape, f.2.alignment ∣ start) :
    OpenObject.vtable ⟨s, slots, (⟨slot, start, size⟩ :: shape.fields start).reverse⟩ order
        (4 + padding (shape.extent start) 4 + shape.extent start) =
      OpenObject.vtable ⟨s, slots, (⟨slot, 0, size⟩ :: shape.fields 0).reverse⟩ order
        (4 + padding (shape.extent 0) 4 + shape.extent 0) := by
  have hfields : (⟨slot, start, size⟩ :: shape.fields start : List StoredField) =
      (⟨slot, 0, size⟩ :: shape.fields 0).map (·.shift start) := by
    have hrest := fields_add h 0
    rw [Nat.add_zero] at hrest
    rw [hrest, List.map_cons]
    rfl
  have hextent := extent_add h 0
  rw [Nat.add_zero] at hextent
  have htable : 4 + padding (shape.extent start) 4 + shape.extent start =
      start + (4 + padding (shape.extent 0) 4 + shape.extent 0) := by
    rw [hextent, padding_add hfour]
    omega
  rw [htable, hfields, ← List.map_reverse]
  exact OpenObject.vtable_shift ⟨s, slots, (⟨slot, 0, size⟩ :: shape.fields 0).reverse⟩ order _

/-- A shape whose first field leads has one vtable, wherever it is filled in. -/
theorem Shape.vtable_eq (halign : shape.Aligned) (hleads : shape.Leads) (order : ByteOrder) (s slots written : Nat) :
    OpenObject.vtable ⟨s, slots, (shape.fields written).reverse⟩ order
        (4 + padding (shape.extent written) 4 + shape.extent written) =
      shape.vtable order slots := by
  cases shape with
  | nil => rfl
  | cons f shape =>
    obtain ⟨slot, l⟩ := f
    obtain ⟨hpower, hrest⟩ := List.forall_mem_cons.1 halign
    have hplace (n : Nat) : l.alignment ∣ l.place n := FieldLayout.dvd_place (pos_of_isPowerOfTwo hpower) n
    have hfour (n : Nat) : 4 ∣ l.place n := Nat.dvd_trans (dvd_of_isPowerOfTwo rfl hpower hleads.1) (hplace n)
    have hlater (n : Nat) : ∀ f ∈ shape, f.2.alignment ∣ l.place n := fun f hf =>
      Nat.dvd_trans (dvd_of_isPowerOfTwo (hrest f hf) hpower (hleads.2 f hf)) (hplace n)
    exact (vtable_of_dvd (hfour written) (hlater written)).trans (vtable_of_dvd (hfour 0) (hlater 0)).symm

end Shift

/-- What a call that adds scalars, references and unions adds when it succeeds. -/
def Call.adds? (options : Options) : Call → Option Shape
  | addScalar slot ty v default => some (if Build.Elided options ty v default then [] else [(slot, .scalar ty)])
  | addScalarAlways slot ty _ => some [(slot, .scalar ty)]
  | addOffset slot _ => some [(slot, .reference)]
  | addUnion _ _ .none => some []
  | addUnion typeSlot valueSlot (.some ..) => some [(valueSlot, .reference), (typeSlot, .scalar .u8)]
  | _ => none

/-- Calls that succeeded and did nothing but add the fields of a shape. A struct that was created becomes a field
before anything else is written; until then it is `pending`. -/
inductive Fills (options : Options) : (pending : Option StructLayout) → List Event → Shape → Prop
  | done : Fills options none [] []
  | adds {c : Call} {reply : Reply} {events : List Event} {added shape : Shape} (adds : c.adds? options = some added)
    (rest : Fills options none events shape) : Fills options none ((c, .ok reply) :: events) (added ++ shape)
  | creates {layout : StructLayout} {v : layout.Value} {reply : Reply} {events : List Event} {shape : Shape}
    (rest : Fills options (some layout) events shape) :
    Fills options none ((.createStruct layout v, .ok reply) :: events) shape
  | skips {layout : StructLayout} {c : Call} {reply : Reply} {events : List Event} {shape : Shape}
    (adds : c.adds? options = some []) (rest : Fills options (some layout) events shape) :
    Fills options (some layout) ((c, .ok reply) :: events) shape
  | addsStruct {layout : StructLayout} {slot struct : Nat} {reply : Reply} {events : List Event} {shape : Shape}
    (rest : Fills options none events shape) :
    Fills options (some layout) ((.addStruct slot struct, .ok reply) :: events)
      ((slot, .struct layout.size layout.align) :: shape)

theorem Shape.fields_append (written : Nat) (first second : Shape) :
    (first ++ second : Shape).fields written = first.fields written ++ second.fields (first.extent written) := by
  induction first generalizing written with
  | nil => rfl
  | cons f first ih => exact congrArg _ (ih _)

theorem Shape.extent_append (written : Nat) (first second : Shape) :
    (first ++ second : Shape).extent written = second.extent (first.extent written) := by
  induction first generalizing written with
  | nil => rfl
  | cons f first ih => exact ih _

namespace Builder

/-- The open table got the fields of a shape, and what was written grew by these alone. -/
structure Gains (b : Builder) (shape : Shape) (b' : Builder) : Prop where
  object : ∀ o, b.stage = .object o →
    b'.stage = .object { o with fields := (shape.fields b.offset).reverse ++ o.fields }
  offset : b'.offset = shape.extent b.offset
  options : b'.options = b.options
  aligned : shape.Aligned

/-- A struct was put in front, and nothing was written after it. -/
structure Creates (b : Builder) (layout : StructLayout) (b' : Builder) : Prop where
  stage : b'.stage = b.stage
  offset : b'.offset = (FieldLayout.struct layout.size layout.align).place b.offset
  options : b'.options = b.options
  structSize : b'.structSize = layout.size
  power : isPowerOfTwo layout.align = true

variable {b b' b1 : Builder} {o : OpenObject} {slot size : Nat} {bytes : List UInt8}

theorem Gains.refl (b : Builder) : b.Gains [] b := ⟨fun _ h => h, rfl, rfl, nofun⟩

theorem Gains.trans {first second : Shape} (h : b.Gains first b1) (h' : b1.Gains second b') :
    b.Gains (first ++ second) b' where
  object o ho := by
    rw [h'.object _ (h.object o ho), h.offset, Shape.fields_append, List.reverse_append, List.append_assoc]
  offset := by rw [h'.offset, h.offset, Shape.extent_append]
  options := h'.options.trans h.options
  aligned := List.forall_mem_append.2 ⟨h.aligned, h'.aligned⟩

/-- A field that is stored where its layout puts it. -/
theorem Stores.gains {l : FieldLayout} (h : b.Stores o slot l.size bytes b')
    (hplace : bytes.length + b.offset = l.place b.offset) (hpower : isPowerOfTwo l.alignment = true) :
    b.Gains [(slot, l)] b' := by
  have hstage := h.stage_eq
  obtain ⟨b1, h1, rfl⟩ := h.puts
  have hoffset : b1.offset = l.place b.offset := h1.offset.trans hplace
  refine ⟨fun o' ho' => ?_, hoffset, h1.options, List.forall_mem_singleton.2 hpower⟩
  obtain rfl := Stage.object.inj (h.stage.symm.trans ho')
  rw [Shape.fields, ← hoffset]
  exact hstage

/-- A field that is its own unit of alignment, padded for as much as was written. -/
theorem Stores.gains_unit {l : FieldLayout} {k : Nat} (h : b.Stores o slot l.size (bytes ++ Build.zeros k) b')
    (hunit : l.alignment = l.size) (hlen : bytes.length = l.size) (hk : k = padding b.offset l.size)
    (hpower : isPowerOfTwo l.size = true) : b.Gains [(slot, l)] b' := by
  refine h.gains ?_ (hunit ▸ hpower)
  rw [List.length_append, List.length_replicate, hlen, hk, l.place_of_unit hunit]

end Builder

namespace Build

variable (b : Builder)

/-- What a call left behind that answered nothing of interest. -/
theorem Ends.of_silent_ok {b b' : Builder} {c : Call} {step : Build Unit} {reply : Reply} {P : Builder → Prop}
    {bad : Failure → Builder → Prop} (h : Ends step b (fun _ b' => P b') bad) (hc : c.step = silent step)
    (hcall : b.call c = (.ok reply, b')) : P b' := by
  have hends : Ends c.step b (fun _ b' => P b') bad := by
    rw [hc, ends_silent]
    exact h
  exact hends.of_call_ok hcall

theorem addScalarAlways_gains (slot : Nat) (ty : ScalarType) (v : ty.Value) :
    Ends (addScalarAlways slot ty v) b (fun _ b' => b.Gains [(slot, .scalar ty)] b') (fun _ _ => True) := by
  refine (addScalarAlways_ends b slot ty v).mono ?_ fun _ _ _ => trivial
  intro _ b' h
  obtain ⟨o, h, -⟩ := h
  exact h.gains_unit (l := .scalar ty) rfl (ty.length_encode b.order v) rfl (isPowerOfTwo_size ty)

theorem addScalar_gains (slot : Nat) (ty : ScalarType) (v default : ty.Value) :
    Ends (addScalar slot ty v default) b
      (fun _ b' => (Elided b.options ty v default → b' = b) ∧
        (¬ Elided b.options ty v default → b.Gains [(slot, .scalar ty)] b')) (fun _ _ => True) := by
  refine (addScalar_ends b slot ty v default).mono ?_ fun _ _ _ => trivial
  intro _ b' h
  obtain ⟨o, -, -, h⟩ := h
  constructor
  · intro helided
    rwa [if_pos helided] at h
  · intro helided
    rw [if_neg helided] at h
    exact h.1.gains_unit (l := .scalar ty) rfl (ty.length_encode b.order v) rfl (isPowerOfTwo_size ty)

theorem addOffset_gains {kind : OffsetKind} (slot : Nat) (target : Offset kind) :
    Ends (addOffset slot target) b (fun _ b' => b.Gains [(slot, .reference)] b') (fun _ _ => True) := by
  refine (addOffset_ends b slot target).mono ?_ fun _ _ _ => trivial
  intro _ b' h
  obtain ⟨o, -, -, h, -⟩ := h
  exact h.gains_unit (l := .reference) rfl (ByteOrder.length_encode ..) rfl rfl

theorem addUnion_gains (typeSlot valueSlot : Nat) (tag : UInt8) (payload : Offset .table) (tag_ne_zero : tag ≠ 0) :
    Ends (addUnion typeSlot valueSlot (.some tag payload tag_ne_zero)) b
      (fun _ b' => b.Gains [(valueSlot, .reference), (typeSlot, .scalar .u8)] b') (fun _ _ => True) := by
  refine (addUnion_ends b typeSlot valueSlot _).mono ?_ fun _ _ _ => trivial
  intro _ b' h
  obtain ⟨o, b1, -, -, -, -, hvalue, htype, -, -⟩ := h
  rw [← List.append_nil (ScalarType.encode ..)] at htype
  have hfirst : b.Gains [(valueSlot, .reference)] b1 :=
    hvalue.gains_unit (l := .reference) rfl (ByteOrder.length_encode ..) rfl rfl
  have hsecond : b1.Gains [(typeSlot, .scalar .u8)] b' :=
    Builder.Stores.gains_unit (l := .scalar .u8) (k := 0) htype rfl (ScalarType.length_encode ..)
      (padding_one _).symm rfl
  exact hfirst.trans hsecond

theorem addUnion_none (typeSlot valueSlot : Nat) :
    Ends (addUnion typeSlot valueSlot .none) b (fun _ b' => b' = b) (fun _ _ => True) :=
  (addUnion_ends b typeSlot valueSlot .none).mono (fun _ _ h => h) fun _ _ _ => trivial

/-- A struct comes to stand where its layout puts it. -/
theorem createStruct_creates (layout : StructLayout) (v : layout.Value) :
    Ends (createStruct layout v) b (fun _ b' => b.Creates layout b') (fun _ _ => True) := by
  unfold createStruct
  rw [ends_bind]
  refine (prep_ends b layout.align layout.size).mono ?_ fun _ _ _ => trivial
  intro _ b1 h
  obtain ⟨h1, -, hroom, -, hrests⟩ := h
  rw [ends_bind, ends_get, ends_bind]
  refine (put_ends_of_room b1 (by rw [StructLayout.length_encode]; omega)).mono ?_ fun _ _ h => h.elim
  intro _ b2 h
  obtain ⟨h2, -⟩ := h
  have hoffset : b2.offset = layout.size + (padding (b.offset + layout.size) layout.align + b.offset) := by
    rw [h2.offset, h1.offset, StructLayout.length_encode, List.length_replicate]
  refine ⟨h2.stage.trans h1.stage, ?_, h2.options.trans h1.options, rfl, hrests.power⟩
  show b2.offset = b.offset + padding (b.offset + layout.size) layout.align + layout.size
  omega

variable {b} in
theorem createStruct_call_creates {b' : Builder} {layout : StructLayout} {v : layout.Value} {reply : Reply}
    (hcall : b.call (.createStruct layout v) = (.ok reply, b')) : b.Creates layout b' := by
  have hends : Ends (Call.createStruct layout v).step b (fun _ b' => b.Creates layout b') (fun _ _ => True) := by
    rw [Call.step, ends_located]
    exact createStruct_creates b layout v
  exact hends.of_call_ok hcall

/-- The struct that was created last becomes a field where it stands. -/
theorem addStruct_gains {b : Builder} {layout : StructLayout} {c : Builder} (hcreated : c.Creates layout b)
    (slot : Nat) (struct : Offset .struct) :
    Ends (addStruct slot struct) b (fun _ b' => c.Gains [(slot, .struct layout.size layout.align)] b')
      (fun _ _ => True) := by
  refine (addStruct_ends b slot struct).mono ?_ fun _ _ _ => trivial
  intro _ b' h
  obtain ⟨o, -, -, h⟩ := h
  rw [hcreated.structSize] at h
  have hstage := h.stage_eq
  obtain ⟨b1, h1, rfl⟩ := h.puts
  have hoffset : b1.offset = (FieldLayout.struct layout.size layout.align).place c.offset :=
    (h1.offset.trans (Nat.zero_add _)).trans hcreated.offset
  refine ⟨fun o' ho' => ?_, hoffset, h1.options.trans hcreated.options, List.forall_mem_singleton.2 hcreated.power⟩
  obtain rfl := Stage.object.inj (h.stage.symm.trans (hcreated.stage.trans ho'))
  rw [Shape.fields, ← hoffset]
  exact hstage

end Build

section Runs

variable {b b' c : Builder} {events : List Event} {shape added : Shape} {pending : Option StructLayout}

/-- A call that adds nothing leaves the builder as it is. -/
theorem Call.adds_nothing {call : Call} {reply : Reply} (h : call.adds? b.options = some [])
    (hcall : b.call call = (.ok reply, b')) : b' = b := by
  cases call with
  | addScalar slot ty v default =>
    refine ((Build.addScalar_gains b slot ty v default).of_silent_ok rfl hcall).1 ?_
    by_contra hstored
    rw [adds?, if_neg hstored] at h
    cases h
  | addUnion typeSlot valueSlot union =>
    cases union with
    | none => exact (Build.addUnion_none b typeSlot valueSlot).of_silent_ok rfl hcall
    | some tag payload tag_ne_zero => cases h
  | _ => cases h

theorem Call.adds_gains {call : Call} {reply : Reply} (h : call.adds? b.options = some added)
    (hcall : b.call call = (.ok reply, b')) : b.Gains added b' := by
  cases call with
  | addScalar slot ty v default =>
    have hends := (Build.addScalar_gains b slot ty v default).of_silent_ok rfl hcall
    obtain rfl := Option.some.inj h
    split
    · rename_i helided
      rw [hends.1 helided]
      exact .refl b
    · rename_i hstored
      exact hends.2 hstored
  | addScalarAlways slot ty v =>
    obtain rfl := Option.some.inj h
    exact (Build.addScalarAlways_gains b slot ty v).of_silent_ok rfl hcall
  | addOffset slot target =>
    obtain rfl := Option.some.inj h
    exact (Build.addOffset_gains b slot (⟨target⟩ : Offset .table)).of_silent_ok rfl hcall
  | addUnion typeSlot valueSlot union =>
    cases union with
    | none =>
      obtain rfl := Option.some.inj h
      rw [Call.adds_nothing h hcall]
      exact .refl b
    | some tag payload tag_ne_zero =>
      obtain rfl := Option.some.inj h
      exact (Build.addUnion_gains b typeSlot valueSlot tag payload tag_ne_zero).of_silent_ok rfl hcall
  | _ => cases h

/-- From `b` on, the struct that waits to become a field was put in front, if there is one. -/
def Builder.Readies (b : Builder) : Option StructLayout → Builder → Prop
  | none, b' => b' = b
  | some layout, b' => b.Creates layout b'

/-- Calls that fill in the fields of a shape bring them about, one after the other. -/
theorem Fills.gains (h : Fills b.options pending events shape) (hready : b.Readies pending c)
    (hrun : c.Runs events b') : b.Gains shape b' := by
  generalize hoptions : b.options = options at h
  induction h generalizing b c with
  | done =>
    obtain rfl : c = b := hready
    rw [Builder.runs_nil.1 hrun]
    exact .refl _
  | adds hadds rest ih =>
    obtain rfl : c = b := hready
    obtain ⟨-, c1, hcall, hrun⟩ := Builder.runs_cons.1 hrun
    have hgains := Call.adds_gains (hoptions ▸ hadds) hcall
    exact hgains.trans (ih rfl hrun (hgains.options.trans hoptions))
  | creates rest ih =>
    obtain rfl : c = b := hready
    obtain ⟨-, c1, hcall, hrun⟩ := Builder.runs_cons.1 hrun
    exact ih (Build.createStruct_call_creates hcall) hrun hoptions
  | skips hadds rest ih =>
    obtain ⟨-, c1, hcall, hrun⟩ := Builder.runs_cons.1 hrun
    have hsame : c.options = b.options := hready.options
    rw [← hoptions, ← hsame] at hadds
    rw [Call.adds_nothing hadds hcall] at hrun
    exact ih hready hrun hoptions
  | addsStruct rest ih =>
    obtain ⟨-, c1, hcall, hrun⟩ := Builder.runs_cons.1 hrun
    have hgains := (Build.addStruct_gains hready _ _).of_silent_ok rfl hcall
    exact hgains.trans (ih rfl hrun (hgains.options.trans hoptions))

end Runs

namespace Builder

variable {b b' b1 b2 : Builder} {events before inside inside' : List Event} {slots table table' : Nat} {shape : Shape}

/-- A table that is closed at a moment of a run is one of those that the run closes. -/
theorem Moment.mem_closedTables {e : Event} {t : ClosedTable} (h : b.Moment events before b1 e b2)
    (ht : t ∈ b1.closing e) : t ∈ b.closedTables events := by
  obtain ⟨⟨after, rfl⟩, hrun, -⟩ := h
  rw [List.append_assoc, List.singleton_append]
  induction before generalizing b with
  | nil =>
    rw [runs_nil.1 hrun] at ht
    exact List.mem_append_left _ ht
  | cons e' before ih =>
    obtain ⟨-, c, hcall, hrun⟩ := runs_cons.1 hrun
    rw [List.cons_append, closedTables, hcall]
    exact List.mem_append_right _ (ih hrun)

/-- A table that was filled in with the fields of a shape is closed with the vtable of the shape. -/
theorem Runs.closes_shape (hrun : b.Runs events b') (hreset : ∀ e ∈ events, e.1 ≠ .reset)
    (hspan : TableSpan events slots inside table) (hfills : Fills b.options none inside shape)
    (hleads : shape.Leads) : ⟨table, shape.vtable b.order slots⟩ ∈ b.closedTables events := by
  obtain ⟨before, after, rfl, -⟩ := hspan
  obtain ⟨b1, hbefore, hrun1⟩ := runs_append.1 hrun
  obtain ⟨hopened, b2, hopen, hrun2⟩ := runs_cons.1 hrun1
  obtain ⟨b3, hinside, hrun3⟩ := runs_append.1 hrun2
  obtain ⟨-, b4, hclose, -⟩ := runs_cons.1 hrun3
  have hall : b.Runs (before ++ (.startObject slots, .ok .done) :: inside) b3 :=
    runs_append.2 ⟨b1, hbefore, runs_cons.2 ⟨hopened, b2, hopen, hinside⟩⟩
  have hmoment : b.Moment (before ++ (.startObject slots, .ok .done) ::
      (inside ++ (.endObject, .ok (.offset table)) :: after))
      (before ++ (.startObject slots, .ok .done) :: inside) b3 (.endObject, .ok (.offset table)) b4 :=
    ⟨⟨after, by simp⟩, hall, hclose⟩
  obtain ⟨-, -, rfl⟩ := (Build.startObject_ends b1 slots).of_silent_ok rfl hopen
  let opened : Builder := { b1 with stage := .object ⟨b1.offset, slots, []⟩ }
  have hoptions : opened.options = b.options :=
    (hbefore.grows fun e he => hreset e (List.mem_append_left _ he)).options
  rw [← hoptions] at hfills
  have hready : opened.Readies none opened := rfl
  have hgains : opened.Gains shape b3 := hfills.gains hready hinside
  obtain ⟨o, T, vtable, hreply, hcloses⟩ := (endObject_call_ends b3).of_call_ok hclose
  obtain rfl : table = T := Reply.offset.inj hreply
  have hstage := hgains.object _ rfl
  rw [List.append_nil] at hstage
  refine hmoment.mem_closedTables ?_
  rw [closing, hstage, hcloses.table_eq, hgains.offset, ← hmoment.order_eq hreset]
  exact List.mem_singleton.2 (congrArg _ (shape.vtable_eq hgains.aligned hleads b3.order _ slots _).symm)

/-- Tables that got fields of the same layouts in the same slots and the same order, the first of them aligned for
all that comes after it, have vtables with the same bytes, and they have one vtable if vtables are shared. What the
fields hold, where the tables stand and what else was written does not matter. -/
theorem tables_of_shape_share (hb : b.Fresh) (hrun : b.Runs events b') (hreset : ∀ e ∈ events, e.1 ≠ .reset)
    (hleads : shape.Leads) (hspan : TableSpan events slots inside table)
    (hfills : Fills b.options none inside shape) (hspan' : TableSpan events slots inside' table')
    (hfills' : Fills b.options none inside' shape) :
    let m := Image.ofList b.order b'.arena.written
    ∃ v v' : VTable, Table.vtable ⟨m, m.size - table⟩ = .ok v ∧ Table.vtable ⟨m, m.size - table'⟩ = .ok v' ∧
      v.bytes = .ok (shape.vtable b.order slots) ∧ v'.bytes = .ok (shape.vtable b.order slots) ∧
      (b.options.dedupVTables = true → v' = v) := by
  intro m
  obtain ⟨placed, hplaces, hclosed, -⟩ :=
    (places_of_fresh hb).run hb.sound (tracked_of_idle hb.idle) hrun hreset
  rw [List.nil_append] at hplaces
  have hgrows := hrun.grows hreset
  have hsize : b'.arena.written.length ≤ maxBufferSize := (hrun.sound hb.sound).offset_le_max
  have hplaced {t : ClosedTable} (ht : t ∈ b.closedTables events) : ∃ p ∈ placed, p.1 = t :=
    List.mem_map.1 (hclosed ▸ ht)
  obtain ⟨p, hp, hpt⟩ := hplaced (hrun.closes_shape hreset hspan hfills hleads)
  obtain ⟨q, hq, hqt⟩ := hplaced (hrun.closes_shape hreset hspan' hfills' hleads)
  obtain ⟨hpread, hpbytes⟩ := (hplaces.stands p hp).readVTable hsize
  obtain ⟨hqread, hqbytes⟩ := (hplaces.stands q hq).readVTable hsize
  rw [hgrows.order] at hpread hpbytes hqread hqbytes
  rw [hpt] at hpread hpbytes
  rw [hqt] at hqread hqbytes
  refine ⟨_, _, hpread, hqread, hpbytes, hqbytes, fun hdedup => ?_⟩
  have hfound {r : ClosedTable × Nat} (hr : r ∈ placed) : b'.vtables.get? r.1.vtable = some r.2 :=
    (hplaces.cached (hgrows.options ▸ hdedup) r.1.vtable r.2).2 ⟨r, hr, rfl, rfl⟩
  have hsame : some p.2 = some q.2 := by
    rw [← hfound hp, ← hfound hq, hpt, hqt]
  rw [Option.some.inj hsame]

def shortPair : StructLayout := ⟨4, 2, [⟨0, .u16⟩, ⟨2, .u16⟩], by decide⟩

/-- A field of each kind, with a reference to a string. The struct is created at `struct`, and a scalar equal to its
default is left out before it is added. -/
def eachKind (word : BitVec 64) (byte : BitVec 8) (struct : Nat) : List Event :=
  [(.addScalarAlways 0 (.unsigned .w64) word, .ok .done), (.addScalarAlways 1 .u8 byte, .ok .done),
    (.addOffset 2 8, .ok .done),
    (.createStruct shortPair ((3 : BitVec 16), (4 : BitVec 16), ()), .ok (.offset struct)),
    (.addScalar 4 .u16 (0 : BitVec 16) (0 : BitVec 16), .ok .done), (.addStruct 3 struct, .ok .done),
    (.addScalar 4 .u16 (5 : BitVec 16) (0 : BitVec 16), .ok .done)]

/-- Two tables with a field of each kind behind different numbers of bytes. -/
def kindTables : List Event :=
  (.createString "ab", .ok (.offset 8)) :: (.startObject 5, .ok .done) ::
    (eachKind 1 2 28 ++ (.endObject, .ok (.offset 36)) :: (.pad 3, .ok .done) :: (.startObject 5, .ok .done) ::
      (eachKind 6 7 76 ++ [(.endObject, .ok (.offset 84))]))

def kindShape : Shape :=
  [(0, .scalar (.unsigned .w64)), (1, .scalar .u8), (2, .reference), (3, .struct 4 2), (4, .scalar .u16)]

theorem eachKind_fills (word : BitVec 64) (byte : BitVec 8) (struct : Nat) :
    Fills .standard none (eachKind word byte struct) kindShape :=
  @Fills.adds _ _ _ _ [_] _ rfl <| @Fills.adds _ _ _ _ [_] _ rfl <| @Fills.adds _ _ _ _ [_] _ rfl <|
    .creates <| .skips rfl <| .addsStruct <| @Fills.adds _ _ _ _ [_] _ rfl .done

theorem kindTables_share :
    let b := ((new .little).run (kindTables.map Prod.fst)).2
    let m := Image.ofList .little b.arena.written
    ∃ v : VTable, Table.vtable ⟨m, m.size - 36⟩ = .ok v ∧ Table.vtable ⟨m, m.size - 84⟩ = .ok v ∧
      v.bytes = .ok [14, 0, 28, 0, 20, 0, 19, 0, 12, 0, 8, 0, 6, 0] := by
  intro b m
  have hruns : (new .little).Runs kindTables b :=
    runs_of_outcomes (by decide +kernel) (by simp [kindTables, eachKind])
  have hfirst : TableSpan kindTables 5 (eachKind 1 2 28) 36 :=
    ⟨kindTables.take 1, kindTables.drop 10, rfl, by simp [eachKind]⟩
  have hsecond : TableSpan kindTables 5 (eachKind 6 7 76) 84 :=
    ⟨kindTables.take 11, [], rfl, by simp [eachKind]⟩
  obtain ⟨v, v', hread, hread', hbytes, -, hshared⟩ :=
    tables_of_shape_share (fresh_new .little) hruns (by simp [kindTables, eachKind])
      (show kindShape.Leads by simp [Shape.Leads, kindShape, FieldLayout.alignment]; decide) hfirst
      (eachKind_fills 1 2 28) hsecond (eachKind_fills 6 7 76)
  obtain rfl := hshared rfl
  exact ⟨v', hread, hread', hbytes.trans (by decide +kernel)⟩

end Builder

end TableBuffer
