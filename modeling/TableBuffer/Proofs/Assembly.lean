import TableBuffer.Proofs.VectorSizes

/-!
# Vectors put together piece by piece

A vector can be written at once or put together from its last element to its first. Opening it makes the room and
the padding for all of it, so every element finds its place aligned and its room there: it is put in front as it is,
none of the calls fails, and the vector comes out as if written at once. `Poised` is what opening brings about and
each element keeps.
-/

namespace TableBuffer

namespace Builder

variable {b b' c : Builder} {size alignment rest : Nat} {bytes : List UInt8}

/-- The builder, but for the size of the struct written last. -/
def sized (b : Builder) (n : Nat) : Builder := { b with structSize := n }

@[simp] theorem sized_sized (b : Builder) (m n : Nat) : (b.sized m).sized n = b.sized n := rfl

@[simp] theorem front_sized (b : Builder) (n : Nat) (bytes : List UInt8) :
    (b.sized n).front bytes = (b.front bytes).sized n := rfl

@[simp] theorem offset_sized (b : Builder) (n : Nat) : (b.sized n).offset = b.offset := rfl

/-- The next `rest` pieces of `size` bytes, and the count after them, need neither padding nor more room. -/
structure Poised (c : Builder) (size alignment rest : Nat) : Prop where
  unfinished : c.isFinished = false
  rests : c.Rests alignment c.offset
  room : max 4 alignment + size * rest ≤ c.arena.headroom
  words : c.offset + c.arena.headroom < wordLimit

/-- A piece in front leaves what the pieces after it need. -/
theorem Poised.front (h : c.Poised size alignment (rest + 1)) (hdvd : alignment ∣ size)
    (hlen : bytes.length = size) (s : Nat) :
    ((c.front bytes).sized s).Poised size alignment rest := by
  have hroom := h.room
  have hwords := h.words
  rw [Nat.mul_succ] at hroom
  have hoffset := offset_front c bytes
  have hheadroom := headroom_front c bytes
  rw [hlen] at hoffset hheadroom
  refine ⟨h.unfinished, ⟨h.rests.power, h.rests.asked, ?_⟩, ?_, ?_⟩
  · show alignment ∣ (c.front bytes).offset
    rw [hoffset]
    exact Nat.dvd_add h.rests.multiple hdvd
  · show _ ≤ (c.front bytes).arena.headroom
    omega
  · show (c.front bytes).offset + (c.front bytes).arena.headroom < _
    omega

/-- A piece that is prepared for what is in front of it finds all done. -/
theorem Poised.prep (h : c.Poised size alignment (rest + 1)) {additional : Nat} (hdvd : alignment ∣ additional)
    (hle : additional ≤ size) : Build.prep alignment additional c = .ok () c := by
  have hroom := h.room
  rw [Nat.mul_succ] at hroom
  exact Build.prep_of_room h.unfinished h.rests.power h.rests.asked (Nat.dvd_add h.rests.multiple hdvd)
    (by omega) h.words

end Builder

namespace Build

variable {b c : Builder} {elementSize count alignment size rest : Nat}

/-- What is prepared for the count of a vector is prepared for data of no stricter alignment. -/
theorem prep_of_counted {length : Nat} (hb : b.Sound) (hfin : b.isFinished = false)
    (hcount : b.Rests 4 (b.offset + length)) (hroom : 4 + length ≤ b.arena.headroom)
    (hpower : isPowerOfTwo alignment = true) (hle : alignment ≤ 4) : prep alignment length b = .ok () b :=
  prep_of_room hfin hpower (Nat.le_trans hle hcount.asked) (hcount.weaken hpower hle).multiple (by omega)
    hb.room_lt

/-- Opening a vector leaves room for its data and its count, and for preparing one of its elements. If the data ask
for no stricter alignment than the count, a vector that cannot be opened leaves nothing behind. -/
theorem startVector_ends_room (hb : b.Sound) :
    Ends (startVector elementSize count alignment) b
      (fun _ b' => max 4 alignment + elementSize * count ≤ b'.arena.headroom)
      (fun _ b' => isPowerOfTwo alignment = true → alignment ≤ 4 → b'.arena.written = b.arena.written) := by
  unfold startVector
  rw [ends_bind]
  refine (requireIdle_ends b _).mono ?_ fun _ _ h _ _ => congrArg _ (congrArg _ h.1)
  intro _ b h
  obtain ⟨rfl, -⟩ := h
  dsimp only
  rw [ends_ite, ends_bind, ends_reject]
  refine ⟨fun _ _ _ => rfl, fun _ => ?_⟩
  rw [ends_bind]
  refine (prep_ends b 4 _).mono ?_ fun _ _ h _ _ => h.1.written
  intro _ b1 h
  obtain ⟨h1, hfin, hroom, -, hcount⟩ := h
  rw [ends_bind]
  by_cases hweak : isPowerOfTwo alignment = true ∧ alignment ≤ 4
  · have hdone := prep_of_counted (hb.extends h1.keeps.extends) (h1.isFinished.trans hfin) hcount hroom hweak.1
      hweak.2
    rw [Ends, hdone]
    show max 4 alignment + _ ≤ b1.arena.headroom
    rw [Nat.max_eq_left hweak.2]
    exact hroom
  · refine (prep_ends b1 alignment _).mono ?_ fun _ _ _ hpower hle => absurd ⟨hpower, hle⟩ hweak
    intro _ b2 h
    obtain ⟨-, -, hroom2, -, hrests⟩ := h
    have hstrict : 4 < alignment := Nat.lt_of_not_le fun hle => hweak ⟨hrests.power, hle⟩
    rw [ends_bind, ends_offset, ends_setStage, Nat.max_eq_right (Nat.le_of_lt hstrict)]
    exact hroom2

/-- The count is put in front of a vector of the announced length, in room that is there. -/
theorem endVector_of_room {v : OpenVector} (hv : c.stage = .vector v) (hlen : c.offset - v.start = v.dataLength)
    (hroom : 4 ≤ c.arena.headroom) :
    endVector c = .ok ⟨c.offset + 4⟩ ({ c with stage := .idle }.front (c.order.encode 4 v.count)) := by
  let closed : Builder := { c with stage := .idle }
  have htake : takeVector c = .ok v closed := by
    have hfin : c.isFinished = false := by
      rw [Builder.isFinished, hv]
      rfl
    unfold takeVector
    rw [bind_of_ok (requireUnfinished_of_unfinished hfin), get_bind, hv]
    rfl
  have hsize : ¬ closed.offset - v.start ≠ v.dataLength := not_not.2 hlen
  have hreserve : reserve 4 closed = .ok () closed := reserve_of_room hroom
  have hput : putWord v.count closed = .ok () (closed.front (c.order.encode 4 v.count)) :=
    put_of_room (by rw [ByteOrder.length_encode]; exact hroom)
  have hoffset : (closed.front (c.order.encode 4 v.count)).offset = c.offset + 4 := by
    rw [Builder.offset_front, ByteOrder.length_encode]
    rfl
  unfold endVector
  rw [bind_of_ok htake, offset_bind]
  dsimp only
  rw [if_neg hsize, bind_of_ok hreserve, bind_of_ok hput, offset_bind, hoffset]
  rfl

end Build

namespace Builder

variable {b c : Builder} {size alignment rest : Nat}

/-- The call puts a piece of `size` bytes in front, and nothing else but these. Only the size of the last struct
may have changed. -/
def Fronts (c : Builder) (size : Nat) (bytes : List UInt8) (call : Call) : Prop :=
  ∃ s, c.call call = (.ok (.offset (c.offset + size)), (c.front bytes).sized s)

section Pieces

theorem Poised.push {ty : ScalarType} (h : c.Poised ty.size ty.size (rest + 1)) (v : ty.Value) :
    c.Fronts ty.size (ty.encode c.order v) (.push ty v) := by
  have hroom := h.room
  rw [Nat.mul_succ] at hroom
  have hput : Build.put (ty.encode c.order v) c = .ok () (c.front (ty.encode c.order v)) :=
    Build.put_of_room (by rw [ScalarType.length_encode]; omega)
  have hstep : Build.push ty v c = .ok (c.offset + ty.size) (c.front (ty.encode c.order v)) := by
    unfold Build.push
    rw [Build.bind_of_ok (h.prep (Nat.dvd_zero _) (Nat.zero_le _)), Build.get_bind, Build.bind_of_ok hput]
    show EStateM.Result.ok _ _ = _
    rw [offset_front, ScalarType.length_encode]
  exact ⟨c.structSize, call_of_ok (Build.bind_of_ok hstep)⟩

theorem Poised.pushReference (h : c.Poised 4 4 (rest + 1)) (target : Nat) :
    Build.pushReference target c = .ok () (c.front (c.order.encode 4 (c.offset - target + 4))) := by
  have hroom := h.room
  have hput : Build.putWord (c.offset - target + 4) c =
      .ok () (c.front (c.order.encode 4 (c.offset - target + 4))) :=
    Build.put_of_room (by rw [ByteOrder.length_encode]; omega)
  unfold Build.pushReference
  rw [Build.bind_of_ok (h.prep (Nat.dvd_zero _) (Nat.zero_le _)), Build.offset_bind, hput]

theorem Poised.pushOffset {target : Nat} (h : c.Poised 4 4 (rest + 1)) (hpos : 0 < target)
    (hle : target ≤ c.offset) :
    c.Fronts 4 (c.order.encode 4 (c.offset - target + 4)) (.pushOffset target) := by
  have hstep : Build.pushOffset (⟨target⟩ : Offset .table) c =
      .ok (c.offset + 4) (c.front (c.order.encode 4 (c.offset - target + 4))) := by
    unfold Build.pushOffset
    rw [Build.offset_bind, Build.bind_of_ok (Build.requireWritten_of_written hpos hle _),
      Build.bind_of_ok (h.pushReference target)]
    show EStateM.Result.ok _ _ = _
    rw [offset_front, ByteOrder.length_encode]
  exact ⟨c.structSize, call_of_ok (Build.bind_of_ok hstep)⟩

theorem Poised.createStruct {layout : StructLayout} (h : c.Poised layout.size layout.align (rest + 1))
    (hdvd : layout.align ∣ layout.size) (v : layout.Value) :
    c.Fronts layout.size (layout.encode c.order v) (.createStruct layout v) := by
  have hroom := h.room
  rw [Nat.mul_succ] at hroom
  have hput : Build.put (layout.encode c.order v) c = .ok () (c.front (layout.encode c.order v)) :=
    Build.put_of_room (by rw [StructLayout.length_encode]; omega)
  have hstep : Build.createStruct layout v c = .ok ⟨c.offset + layout.size⟩
      ((c.front (layout.encode c.order v)).sized layout.size) := by
    unfold Build.createStruct
    rw [Build.bind_of_ok (h.prep hdvd (Nat.le_refl _)), Build.get_bind, Build.bind_of_ok hput,
      Build.modify_bind, Build.offset_bind]
    show EStateM.Result.ok (⟨(c.front (layout.encode c.order v)).offset⟩ : Offset .struct)
      ((c.front (layout.encode c.order v)).sized layout.size) = _
    rw [offset_front, StructLayout.length_encode]
  exact ⟨layout.size, call_of_ok (Build.bind_of_ok hstep)⟩

end Pieces

section Row

variable {α : Type} {piece : α → Call} {bytes : ByteOrder → Nat → α → List UInt8}

/-- The bytes of pieces in a row, put in front of `start` bytes from the last one to the first. -/
def row (size : Nat) (bytes : ByteOrder → Nat → α → List UInt8) (order : ByteOrder) (start : Nat) :
    List α → List UInt8
  | [] => []
  | a :: items => bytes order (start + size * items.length) a ++ row size bytes order start items

theorem length_row (hlen : ∀ order start a, (bytes order start a).length = size) (order : ByteOrder)
    (start : Nat) (items : List α) : (row size bytes order start items).length = size * items.length := by
  induction items with
  | nil => rfl
  | cons a items ih =>
    rw [row, List.length_append, hlen, ih, List.length_cons, Nat.mul_succ, Nat.add_comm]

/-- The events of calls each of which puts `size` bytes in front, with no byte between them. -/
def rowEvents (start size : Nat) (calls : List Call) : List Event :=
  calls.mapIdx fun i call => (call, .ok (.offset (start + size * (i + 1))))

theorem rowEvents_concat (start : Nat) (calls : List Call) (call : Call) :
    rowEvents start size (calls ++ [call]) =
      rowEvents start size calls ++ [(call, .ok (.offset (start + size * calls.length + size)))] := by
  rw [rowEvents, List.mapIdx_append]
  simp [rowEvents, Nat.mul_succ, Nat.add_assoc]

/-- Pieces are put in a row, from the last one to the first. -/
theorem Poised.row (h : c.Poised size alignment (items.length + rest)) (hdvd : alignment ∣ size)
    (hlen : ∀ order start a, (bytes order start a).length = size)
    (hpiece : ∀ a ∈ items, ∀ (d : Builder) n, d.Poised size alignment (n + 1) → c.offset ≤ d.offset →
      d.Fronts size (bytes d.order d.offset a) (piece a)) :
    ∃ s, c.Runs (rowEvents c.offset size (items.map piece).reverse)
        ((c.front (Builder.row size bytes c.order c.offset items)).sized s) ∧
      ((c.front (Builder.row size bytes c.order c.offset items)).sized s).Poised size alignment rest := by
  -- The first piece is put last, in front of the row of the others.
  induction items generalizing rest with
  | nil =>
    rw [List.length_nil, Nat.zero_add] at h
    exact ⟨c.structSize, runs_nil.2 rfl, h⟩
  | cons a items ih =>
    rw [List.length_cons, Nat.add_assoc, Nat.add_comm 1] at h
    obtain ⟨s, hrun, hposed⟩ := ih h fun a ha => hpiece a (List.mem_cons_of_mem _ ha)
    let d : Builder := (c.front (Builder.row size bytes c.order c.offset items)).sized s
    have hoffset : d.offset = c.offset + size * items.length := by
      rw [offset_sized, offset_front, length_row hlen]
    obtain ⟨s', hcall⟩ := hpiece a (List.mem_cons_self ..) d rest hposed (by omega)
    have hfront : d.front (bytes d.order d.offset a) =
        (c.front (Builder.row size bytes c.order c.offset (a :: items))).sized s := by
      rw [Builder.row, ← hoffset, ← front_front, ← front_sized]
      rfl
    have hposed' := hposed.front hdvd (hlen d.order d.offset a) s'
    rw [hfront, sized_sized] at hcall hposed'
    refine ⟨s', ?_, hposed'⟩
    rw [List.map_cons, List.reverse_cons, rowEvents_concat, List.length_reverse, List.length_map, ← hoffset]
    exact runs_append.2 ⟨d, hrun, runs_cons.2 ⟨nofun, _, hcall, runs_nil.2 rfl⟩⟩

end Row

/-- A vector put together from pieces, given in the order of their calls, ends as the call that writes the whole:
in the same failure of the opening, or with all pieces in a row and the same builder, but for the size of the
struct written last. -/
inductive Assembles (b : Builder) (size alignment : Nat) (pieces : List Call) (whole : Call) : Prop
  | refused {f : Failure} {refused : Builder}
    (start : b.call (.startVector size pieces.length alignment) = (.error f, refused))
    (same : b.call whole = (.error f, refused))
    (tooLarge : isPowerOfTwo alignment = true → alignment < wordLimit →
      size * pieces.length < Arena.allocationLimit → f.IsTooLarge) : Assembles b size alignment pieces whole
  | built {opened closed : Builder}
    (start : b.call (.startVector size pieces.length alignment) = (.ok .done, opened))
    (run : opened.Runs (rowEvents opened.offset size pieces ++ [(.endVector, .ok (.offset closed.offset))]) closed)
    (offset_eq : closed.offset = opened.offset + size * pieces.length + 4)
    (same : b.call whole = (.ok (.offset closed.offset), closed.sized b.structSize)) :
    Assembles b size alignment pieces whole

/-- Data that can be in memory are refused for want of room only. -/
theorem Opens.tooLarge {f : Failure} {count : Nat} (h : b.Opens size count alignment (.error f)) (hb : b.Sound)
    (hdvd : alignment ∣ size) (hlen : size * count < Arena.allocationLimit) : f.IsTooLarge := by
  cases h with
  | noWord large =>
    simp only [wordLimit, Arena.allocationLimit] at large hlen
    omega
  | noRoom word words full limit_lt => exact ⟨_, _, rfl⟩
  | overflows word hover =>
    exfalso
    have hoffset := hb.offset_le_max
    have hpad := padding_lt (b.offset + size * count) (show 0 < 4 by decide)
    rcases hover with hcount | ⟨-, -, hpos, rfl⟩
    · simp only [PieceOverflows, pieceRoom, wordLimit, Arena.allocationLimit, maxBufferSize] at *
      omega
    · have hle := Nat.le_of_dvd hpos (Nat.dvd_trans hdvd (Nat.dvd_mul_right size count))
      simp only [maxAlignment, Arena.allocationLimit] at hle hlen
      omega

section Whole

variable {α : Type} {piece : α → Call} {whole : Call} {items : List α}

/-- What opening a vector leaves. -/
theorem startVector_poised (hb : b.Sound) {count : Nat} (hdvd : alignment ∣ size) :
    Build.Ends (Build.startVector size count alignment) b
      (fun _ c => c.Poised size alignment count ∧ b.offset ≤ c.offset ∧ c.structSize = b.structSize ∧
        c.stage = .vector ⟨count, c.offset, size * count⟩) (fun _ _ => True) := by
  refine ((Build.startVector_ends b size count alignment).and (Build.startVector_ends_room hb)).mono ?_
    fun _ _ _ => trivial
  intro _ c h
  obtain ⟨⟨-, -, hrests, k, b1, h1, -, rfl⟩, hroom⟩ := h
  have hb1 : b1.Sound := hb.extends h1.keeps.extends
  have hdata : alignment ∣ size * count := Nat.dvd_trans hdvd (Nat.dvd_mul_right size count)
  exact ⟨⟨rfl, ⟨hrests.power, hrests.asked, (Nat.dvd_add_left hdata).1 hrests.multiple⟩, hroom, hb1.room_lt⟩,
    h1.keeps.offset_le, h1.structSize, rfl⟩

/-- A vector that is opened, filled at once with the bytes of its pieces in a row and closed comes out as if put
together from them. -/
theorem assembles (hb : b.Sound) (hidle : b.stage = .idle) (hdvd : alignment ∣ size)
    (bytes : ByteOrder → Nat → α → List UInt8) (fill : Build Unit)
    (hlen : ∀ order start a, (bytes order start a).length = size)
    (hpiece : ∀ a ∈ items, ∀ (c : Builder) n, c.Poised size alignment (n + 1) → b.offset ≤ c.offset →
      c.Fronts size (bytes c.order c.offset a) (piece a))
    (hfill : ∀ c : Builder, size * items.length ≤ c.arena.headroom →
      fill c = .ok () (c.front (row size bytes c.order c.offset items)))
    (hwhole : whole.step b = Build.located
      (do Build.startVector size items.length alignment; fill; Build.endVector) b) :
    b.Assembles size alignment (items.map piece).reverse whole := by
  have hcount : (items.map piece).reverse.length = items.length := by
    rw [List.length_reverse, List.length_map]
  cases hstart : Build.startVector size items.length alignment b with
  | error f refused =>
    have hcall : b.call (.startVector size items.length alignment) = (.error f, refused) :=
      call_of_error (Build.bind_of_error hstart)
    refine .refused (hcount.symm ▸ hcall) (call_of_error ?_) fun hpower ha hsmall => ?_
    · rw [hwhole]
      exact Build.bind_of_error (Build.bind_of_error hstart)
    · have hopens := startVector_opens hb hidle size items.length hpower ha
      rw [hcall] at hopens
      exact hopens.tooLarge hb hdvd (hcount ▸ hsmall)
  | ok u opened =>
    obtain ⟨hposed, hle, hstruct, hstage⟩ := (startVector_poised hb hdvd).of_ok hstart
    have hdata : size * items.length ≤ opened.arena.headroom := by
      have hroom := hposed.room
      omega
    let filled : Builder := opened.front (row size bytes opened.order opened.offset items)
    have hready : opened.Poised size alignment (items.length + 0) := hposed
    obtain ⟨s, hrun, hfilled⟩ := hready.row hdvd hlen
      fun a ha c n hc hc' => hpiece a ha c n hc (Nat.le_trans hle hc')
    have hoffset : filled.offset = opened.offset + size * items.length := by
      rw [offset_front, length_row hlen]
    -- The count goes in front of the same bytes in both.
    let closed : Builder := ({ filled with stage := .idle } : Builder).front (filled.order.encode 4 items.length)
    have hclosed : closed.offset = filled.offset + 4 := by
      rw [offset_front, ByteOrder.length_encode]
      rfl
    have hclose (n : Nat) : Build.endVector (filled.sized n) = .ok ⟨closed.offset⟩ (closed.sized n) := by
      rw [hclosed]
      refine Build.endVector_of_room (v := ⟨items.length, opened.offset, size * items.length⟩) hstage ?_ ?_
      · show filled.offset - opened.offset = size * items.length
        omega
      · have hroom := hfilled.room
        change _ ≤ filled.arena.headroom at hroom
        show 4 ≤ filled.arena.headroom
        omega
    have hstart' : b.call (.startVector size items.length alignment) = (.ok .done, opened) :=
      call_of_ok (Build.bind_of_ok hstart)
    have hend : (filled.sized s).call .endVector = (.ok (.offset closed.offset), closed.sized s) :=
      call_of_ok (Build.bind_of_ok (hclose s))
    have hruns : opened.Runs (rowEvents opened.offset size (items.map piece).reverse ++
        [(.endVector, .ok (.offset closed.offset))]) (closed.sized s) :=
      runs_append.2 ⟨_, hrun, runs_cons.2 ⟨nofun, _, hend, runs_nil.2 rfl⟩⟩
    have hsame : b.call whole = (.ok (.offset closed.offset), (closed.sized s).sized b.structSize) := by
      have hstruct' : filled = filled.sized b.structSize := by
        rw [← hstruct]
        rfl
      have hfill' : fill opened = .ok () (filled.sized b.structSize) := by
        rw [hfill opened hdata, ← hstruct']
      refine call_of_ok ?_
      rw [hwhole]
      refine Build.bind_of_ok (a := (⟨closed.offset⟩ : Offset .vector)) ?_
      rw [Build.bind_of_ok hstart, Build.bind_of_ok hfill', hclose, sized_sized]
    rw [← hcount] at hstart'
    refine @Assembles.built _ _ _ _ _ opened (closed.sized s) hstart' hruns ?_ hsame
    rw [hcount, offset_sized, hclosed, hoffset]

theorem row_eq_flatMap (encode : ByteOrder → α → List UInt8) (order : ByteOrder) (start : Nat) (items : List α) :
    row size (fun order _ => encode order) order start items = items.flatMap (encode order) := by
  induction items with
  | nil => rfl
  | cons a items ih => rw [row, ih, List.flatMap_cons]

/-- A vector whose bytes do not depend on where it stands. -/
theorem assembles_encoded (hb : b.Sound) (hidle : b.stage = .idle) (hdvd : alignment ∣ size)
    (encode : ByteOrder → α → List UInt8) (hlen : ∀ order a, (encode order a).length = size)
    (hpiece : ∀ a (c : Builder) n, c.Poised size alignment (n + 1) → c.Fronts size (encode c.order a) (piece a))
    (hwhole : whole.step b = Build.located (do
      Build.startVector size items.length alignment
      let order := (← get).order
      Build.put (items.flatMap (encode order))
      Build.endVector) b) :
    b.Assembles size alignment (items.map piece).reverse whole := by
  refine assembles hb hidle hdvd (fun order _ => encode order)
    (do Build.put (items.flatMap (encode (← get).order))) (fun order _ => hlen order)
    (fun a _ c n hc _ => hpiece a c n hc) (fun c hroom => ?_) (by rw [hwhole]; simp only [bind_assoc])
  rw [Build.get_bind, row_eq_flatMap]
  exact Build.put_of_room (by rw [Build.length_flatMap_encode (hlen c.order)]; exact hroom)

end Whole

/-- References are put in front one after the other, in room that is there. -/
theorem putReferences_of_room (c : Builder) (targets : List Nat) (hroom : 4 * targets.length ≤ c.arena.headroom) :
    ((targets.map fun t => (⟨t⟩ : Offset .table)).reverse.forM fun item => do
        Build.putWord ((← Build.offset) - item.value + 4)) c =
      .ok () (c.front (row 4 (fun order start t => order.encode 4 (start - t + 4)) c.order c.offset targets)) := by
  induction targets with
  | nil => rfl
  | cons t targets ih =>
    rw [List.length_cons] at hroom
    let rest := row 4 (fun order start t => order.encode 4 (start - t + 4)) c.order c.offset targets
    have hlen : rest.length = 4 * targets.length := length_row (fun order _ _ => order.length_encode 4 _) ..
    have hput : Build.putWord (c.offset + 4 * targets.length - t + 4) (c.front rest) = _ :=
      Build.put_of_room (by
        rw [ByteOrder.length_encode, headroom_front]
        omega)
    rw [List.map_cons, List.reverse_cons, List.forM_eq_forM, List.forM_append, ← List.forM_eq_forM,
      Build.bind_of_ok (ih (by omega)), List.forM_eq_forM, List.forM_cons, bind_assoc, Build.offset_bind,
      offset_front, hlen, Build.bind_of_ok hput, front_front]
    rfl

section Kinds

variable (hb : b.Sound) (hidle : b.stage = .idle)

include hb hidle

theorem createVector_assembles (ty : ScalarType) (items : List ty.Value) :
    b.Assembles ty.size ty.size (items.map (.push ty)).reverse (.createVector ty items) :=
  assembles_encoded hb hidle (Nat.dvd_refl _) ty.encode ty.length_encode (fun v _ _ hc => hc.push v) rfl

theorem createVectorOfStructs_assembles {layout : StructLayout} (hsize : 0 < layout.size)
    (hdvd : layout.align ∣ layout.size) (items : List layout.Value) :
    b.Assembles layout.size layout.align (items.map (.createStruct layout)).reverse
      (.createVectorOfStructs layout items) := by
  refine assembles_encoded hb hidle hdvd layout.encode layout.length_encode
    (fun v _ _ hc => hc.createStruct hdvd v) ?_
  rw [Call.step, Build.createVectorOfStructs, if_neg (Nat.ne_of_gt hsize)]

theorem createVectorOfOffsets_assembles {targets : List Nat} (h : ∀ t ∈ targets, 0 < t ∧ t ≤ b.offset) :
    b.Assembles 4 4 (targets.map .pushOffset).reverse (.createVectorOfOffsets targets) := by
  refine assembles hb hidle (Nat.dvd_refl _)
    (fun order start t => order.encode 4 (start - t + 4))
    ((targets.map fun t => (⟨t⟩ : Offset .table)).reverse.forM fun item => do
      Build.putWord ((← Build.offset) - item.value + 4))
    (fun order _ _ => order.length_encode 4 _)
    (fun t ht c _ hc hle => hc.pushOffset (h t ht).1 (Nat.le_trans (h t ht).2 hle))
    (fun c hroom => putReferences_of_room c targets hroom) ?_
  have hwritten : (targets.map fun t => (⟨t⟩ : Offset .table)).forM
      (fun item => Build.requireWritten .createVectorOfOffsets item.value b.offset) b = .ok () b := by
    induction targets with
    | nil => rfl
    | cons t targets ih =>
      obtain ⟨hpos, hle⟩ := h t (List.mem_cons_self ..)
      rw [List.map_cons, List.forM_eq_forM, List.forM_cons,
        Build.bind_of_ok (Build.requireWritten_of_written hpos hle _), ← List.forM_eq_forM]
      exact ih fun t ht => h t (List.mem_cons_of_mem _ ht)
  rw [Call.step, Build.located, Build.located]
  unfold Build.createVectorOfOffsets
  rw [bind_assoc, Build.bind_of_ok (Build.requireIdle_of_idle hidle _), bind_assoc, Build.offset_bind, bind_assoc,
    Build.bind_of_ok hwritten, List.length_map]

end Kinds

theorem createByteVector_eq (b : Builder) (bytes : List UInt8) :
    b.call (.createByteVector bytes) = b.call (.createVector .u8 (bytes.map UInt8.toBitVec)) := by
  have hstep : Build.createByteVector bytes = Build.createVector .u8 (bytes.map UInt8.toBitVec) := by
    unfold Build.createByteVector Build.createByteVectorAligned Build.createVector
    rw [if_neg (by decide), List.length_map]
    simp only [flatMap_encode_bytes _ bytes]
    rfl
  rw [Builder.call, Call.step, hstep]
  rfl

/-- A vector comes out the same whether it is written at once or put together from its last element to its first:
the same failure, or the same offset and the same builder, and no call in between fails or pads. A vector of bytes
is one of scalars. -/
theorem vectors_assemble (hb : b.Reachable) (hidle : b.stage = .idle) :
    (∀ (ty : ScalarType) (items : List ty.Value),
      b.Assembles ty.size ty.size (items.map (.push ty)).reverse (.createVector ty items)) ∧
    (∀ targets : List Nat, (∀ t ∈ targets, 0 < t ∧ t ≤ b.offset) →
      b.Assembles 4 4 (targets.map .pushOffset).reverse (.createVectorOfOffsets targets)) ∧
    (∀ layout : StructLayout, 0 < layout.size → layout.align ∣ layout.size → ∀ items : List layout.Value,
      b.Assembles layout.size layout.align (items.map (.createStruct layout)).reverse
        (.createVectorOfStructs layout items)) ∧
    ∀ bytes : List UInt8,
      b.call (.createByteVector bytes) = b.call (.createVector .u8 (bytes.map UInt8.toBitVec)) :=
  ⟨createVector_assembles hb.sound hidle, fun _ => createVectorOfOffsets_assembles hb.sound hidle,
    fun _ => createVectorOfStructs_assembles hb.sound hidle, b.createByteVector_eq⟩

/-- A string and a byte behind what is put together. -/
def oddStart : Builder := (((new .little).call (.createString "ab")).2.call (.pad 1)).2

theorem vectors_assemble_oddStart :
    oddStart.Assembles 8 8 [.push (.unsigned .w64) (2 : BitVec 64), .push (.unsigned .w64) (1 : BitVec 64)]
        (.createVector (.unsigned .w64) [(1 : BitVec 64), (2 : BitVec 64)]) ∧
      oddStart.Assembles 4 4 [.pushOffset 9, .pushOffset 8] (.createVectorOfOffsets [8, 9]) ∧
      oddStart.call (.createByteVector [7]) = oddStart.call (.createVector .u8 [(7 : BitVec 8)]) := by
  have hnew : (new .little).Reachable :=
    .start (show withOptions .little .standard = .ok (new .little) from rfl)
  have hstring : ((new .little).call (.createString "ab")).2.Reachable := .call hnew rfl (by decide +kernel)
  have hb : oddStart.Reachable := .call hstring rfl (by decide +kernel)
  have hidle : oddStart.stage = .idle := by decide +kernel
  have htargets : ∀ t ∈ [8, 9], 0 < t ∧ t ≤ oddStart.offset := by decide +kernel
  obtain ⟨hscalars, hoffsets, -, hbytes⟩ := vectors_assemble hb hidle
  exact ⟨hscalars (.unsigned .w64) [(1 : BitVec 64), (2 : BitVec 64)], hoffsets [8, 9] htargets, hbytes [7]⟩

end Builder

end TableBuffer
