import TableBuffer.Builder.Finish
import TableBuffer.Proofs.Distance
import TableBuffer.Proofs.Fields
import TableBuffer.Proofs.Vectors

/-!
# How tables are closed and buffers finished

Closing a table is the one step that writes over bytes, and the four bytes it writes over were put
there by the same call. Between the two writes a vtable may have come in front of them.
-/

namespace TableBuffer

/-- Bytes inside the written part are replaced, and nothing else changes. -/
theorem Arena.overwrite_eq {a : Arena} {offset : Nat} {bytes : List UInt8} (hoff : offset ≤ a.size)
    (hlen : bytes.length ≤ offset) :
    a.overwrite offset bytes = .ok { a with written := splice (a.size - offset) bytes a.written } := by
  have hroom : offset ≤ a.capacity := Nat.le_trans hoff (Nat.le_add_left ..)
  have hzero : offset - a.size = 0 := by omega
  have hnone : a.free 0 = [] := List.eq_nil_of_length_eq_zero (length_free a 0)
  rw [overwrite, if_pos ⟨hroom, hlen⟩]
  simp only [hzero, hnone, List.nil_append, List.drop_zero, List.take_zero, List.reverse_nil]
  rfl

theorem splice_append {α : Type} {front old new tail : List α} (h : old.length = new.length) :
    splice front.length new (front ++ (old ++ tail)) = front ++ (new ++ tail) := by
  rw [splice, List.take_left, ← h, ← List.length_append, ← List.append_assoc, List.drop_left,
    List.append_assoc]

theorem lowBytes_zero (width : Nat) : lowBytes width 0 = Build.zeros width := by
  induction width with
  | zero => rfl
  | succ width ih => rw [lowBytes, Nat.zero_div, ih]; rfl

/-- A zero is written as zero bytes in either order. -/
theorem ByteOrder.encode_zero (order : ByteOrder) (width : Nat) :
    order.encode width 0 = Build.zeros width := by
  cases order with
  | little => exact lowBytes_zero width
  | big => rw [encode, lowBytes_zero, List.reverse_replicate]

/-- The bytes of an identifier, if there is one. -/
def identifierBytes (identifier : Option Identifier) : List UInt8 := identifier.elim [] (·.bytes)

/-- The bytes that come in front when a buffer is finished, padding aside. -/
def frameLength (identifier : Option Identifier) (sizePrefixed : Bool) : Nat :=
  4 + (if identifier.isSome then 4 else 0) + (if sizePrefixed then 4 else 0)

namespace Builder

/-- A vtable stands at a position: an equal one was there and is shared, or it was put in front. -/
inductive Locates (b : Builder) (vtable : List UInt8) (position : Nat) (b' : Builder) : Prop
  | shared (dedup : b.options.dedupVTables = true) (found : b.vtables.get? vtable = some position)
    (cache : ∀ v, b'.vtables.get? v = b.vtables.get? v)
    (count : b'.vtablesWritten = b.vtablesWritten)
  | written (fresh : b.options.dedupVTables = true → b.vtables.get? vtable = none)
    (front : position = b'.offset) (starts : vtable <+: b'.arena.written)
    (apart : 4 + padding b.offset 4 + b.offset + vtable.length ≤ position) (rests : b'.Rests 2 position)
    (cache : b'.vtables = if b.options.dedupVTables then b.vtables.insert vtable position else b.vtables)
    (count : b'.vtablesWritten = b.vtablesWritten + 1)

/-- The open table was closed at `table`, with its vtable at `vtable`. -/
structure Closes (b : Builder) (o : OpenObject) (table vtable : Nat) (b' : Builder) : Prop where
  stage : b.stage = .object o
  grows : b.Grows b'
  idle : b'.stage = .idle
  structSize : b'.structSize = b.structSize
  length_le : o.tableLength table ≤ 65535
  table_eq : table = 4 + padding b.offset 4 + b.offset
  rests : b'.Rests 4 table
  distance : StandsAt b'.arena.written table
    (ScalarType.i32.encode b.order (BitVec.ofInt 32 ((vtable : Int) - table)))
  locates : b.Locates (o.vtable b.order table) vtable b'

/-- The ways in which a table is not closed. -/
inductive ClosesNot (b : Builder) (f : Failure) (b' : Builder) : Prop
  | noObject (stage : ∀ o, b.stage ≠ .object o) (same : b' = b)
  | noRoom (o : OpenObject) (stage : b.stage = .object o) (puts : b.Puts [] b')
    (other : f.isConstruction = false) (room : b.NoRoom (padding b.offset 4 + 4) f)
  | tooLarge (o : OpenObject) (stage : b.stage = .object o)
    (puts : b.Puts (Build.zeros 4 ++ Build.zeros (padding b.offset 4)) b')
    (large : 65535 < o.tableLength b'.offset)
    (error : f = .error (.invalidOperation (.objectTooLarge (o.tableLength b'.offset))))
  | noVTable (o : OpenObject) (stage : b.stage = .object o) (keeps : b.Keeps b')
    (idle : b'.stage = .idle) (other : f.isConstruction = false)
    (length_le : o.tableLength (4 + padding b.offset 4 + b.offset) ≤ 65535)

/-- The buffer was finished: from the front stand the length of the rest if it is asked for, the
reference to the root, and the identifier. -/
structure Finishes (b : Builder) (root : Nat) (identifier : Option Identifier) (sizePrefixed : Bool)
    (b' : Builder) : Prop where
  idle : b.stage = .idle
  root_pos : 0 < root
  root_le : root ≤ b.offset
  minAlign_eq : b'.minAlign = max b.minAlign 4
  parts : ∃ b1 b2 b3, b.Puts (identifierBytes identifier ++ Build.zeros
      (padding (b.offset + frameLength identifier sizePrefixed) (max b.minAlign 4))) b1 ∧
    b1.Puts (b.order.encode 4 (b2.offset - root) ++ Build.zeros (padding b1.offset 4)) b2 ∧
    b2.Puts (if sizePrefixed then b.order.encode 4 b2.offset else []) b3 ∧
    b' = { b3 with stage := .finished }

theorem Finishes.keeps {b b' : Builder} {root : Nat} {identifier : Option Identifier}
    {sizePrefixed : Bool} (h : b.Finishes root identifier sizePrefixed b') : b.Keeps b' := by
  obtain ⟨b1, b2, b3, h1, h2, h3, rfl⟩ := h.parts
  exact ((h1.keeps.trans h2.keeps).trans h3.keeps).setStage _

end Builder

namespace Build

variable (b : Builder)

/-- Bytes inside the written part are replaced by as many. -/
theorem patch_ends {front old tail : List UInt8} (new : List UInt8) (hw : b.arena.written = front ++ (old ++ tail))
    (hlen : old.length = new.length) :
    Ends (patch (new.length + tail.length) new) b
      (fun _ b' => b' = { b with arena := { b.arena with written := front ++ (new ++ tail) } })
      (fun _ _ => False) := by
  have hsize : b.arena.size = front.length + (new.length + tail.length) := by
    rw [Arena.size, hw, List.length_append, List.length_append, hlen]
  have hfront : b.arena.size - (new.length + tail.length) = front.length := by omega
  unfold patch
  rw [ends_bind, ends_get, Arena.overwrite_eq (by omega) (Nat.le_add_right ..), hfront, hw,
    splice_append hlen]
  rfl

theorem sharedVTable?_ends (vtable : List UInt8) :
    Ends (sharedVTable? vtable) b
      (fun found b' => match found with
        | some position => b.options.dedupVTables = true ∧ b.vtables.get? vtable = some position ∧
          ∃ cache : VTableCache, (∀ v, cache.get? v = b.vtables.get? v) ∧ b' = { b with vtables := cache }
        | none => b' = b ∧ (b.options.dedupVTables = true → b.vtables.get? vtable = none))
      (fun _ _ => False) := by
  unfold sharedVTable?
  rw [ends_bind, ends_get, ends_ite]
  refine ⟨fun hd => ?_, fun hd => ⟨rfl, fun h => absurd h hd⟩⟩
  cases hget : b.vtables.get? vtable with
  | some position =>
    simp only [VTableCache.lookup, hget]
    exact ⟨hd, rfl, { b.vtables with hits := b.vtables.hits + 1 }, fun _ => rfl, rfl⟩
  | none =>
    simp only [VTableCache.lookup, hget]
    exact ⟨rfl, fun _ => trivial⟩

theorem writeVTable_ends (vtable : List UInt8) :
    Ends (writeVTable vtable) b
      (fun position b' => ∃ b1, b.Puts (vtable ++ zeros (padding (b.offset + vtable.length) 2)) b1 ∧
        position = b1.offset ∧ b1.Rests 2 position ∧ b' = { b1 with
          vtables := if b.options.dedupVTables then b.vtables.insert vtable position else b.vtables
          vtablesWritten := b.vtablesWritten + 1 })
      (fun f b' => b.Puts [] b' ∧ (f.isConstruction = true → b.isFinished = true)) := by
  unfold writeVTable
  rw [ends_bind]
  refine (prep_ends b 2 vtable.length).mono ?_ fun f b' h => ⟨h.1, h.2.1⟩
  intro _ b1 h
  obtain ⟨h1, -, hroom, -, hrests⟩ := h
  rw [ends_bind]
  refine (put_ends_of_room b1 (by omega)).mono ?_ fun _ _ h => h.elim
  intro _ b2 h
  obtain ⟨h2, -⟩ := h
  have h12 := h1.trans h2
  refine ⟨b2, h12, rfl, hrests.put h2, ?_⟩
  rw [← h12.options, ← h12.vtables, ← h12.vtablesWritten]

/-- The word that was kept free gets its value. -/
theorem close_ends {b c : Builder} {o : OpenObject} {table vtable : Nat} (front : List UInt8)
    (ho : b.stage = .object o) (hidle : c.stage = .idle) (hsize : c.structSize = b.structSize)
    (hgrows : b.Grows c) (hlen : o.tableLength table ≤ 65535)
    (htable : table = 4 + padding b.offset 4 + b.offset) (hrests : c.Rests 4 table)
    (hw : c.arena.written =
      front ++ (zeros 4 ++ (zeros (padding b.offset 4) ++ b.arena.written)))
    (hlocates : ∀ new : List UInt8, new.length = 4 → b.Locates (o.vtable b.order table) vtable
      { c with arena := { c.arena with
        written := front ++ (new ++ (zeros (padding b.offset 4) ++ b.arena.written)) } }) :
    Ends (patch table (ScalarType.i32.encode b.order (BitVec.ofInt 32 ((vtable : Int) - table)))) c
      (fun _ b' => b.Closes o table vtable b') (fun _ _ => False) := by
  let new := ScalarType.i32.encode b.order (BitVec.ofInt 32 ((vtable : Int) - table))
  let tail := zeros (padding b.offset 4) ++ b.arena.written
  have hnew : new.length = 4 := ScalarType.length_encode ..
  have htail : tail.length = padding b.offset 4 + b.offset := by
    rw [List.length_append, List.length_replicate]
    rfl
  have hpos : table = new.length + tail.length := by omega
  have hpatch := patch_ends c new hw hnew.symm
  rw [← hpos] at hpatch
  refine hpatch.mono ?_ fun _ _ h => h
  intro _ b' h
  obtain rfl := h
  -- The patched word lies in front of everything that `b` had written.
  have hsuffix : new ++ tail <:+ front ++ (new ++ tail) := List.suffix_append ..
  have hsame : (front ++ (new ++ tail)).length = c.arena.written.length := by
    rw [hw]
    simp only [List.length_append, hnew, List.length_replicate, tail]
  refine ⟨ho, ?_, hidle, hsize, hlen, htable, hrests.mono (Nat.le_refl _), ⟨tail, hsuffix, hpos.symm⟩,
    hlocates new hnew⟩
  refine ⟨?_, hgrows.limit, hgrows.order, hgrows.options, fun h => ?_, hgrows.minAlign⟩
  · exact ((List.suffix_append ..).trans (List.suffix_append ..)).trans hsuffix
  · have hfits := hgrows.fits h
    rw [Arena.Fits, Arena.capacity, Arena.size] at hfits ⊢
    rw [hsame]
    exact hfits

section Word

variable {b b1 : Builder} {o : OpenObject} {table vtable : Nat} (ho : b.stage = .object o)
  (h1 : b.Puts (zeros 4 ++ zeros (padding b.offset 4)) b1) (hlen : o.tableLength table ≤ 65535)
  (hat : table = 4 + padding b.offset 4 + b.offset) (hrests : b1.Rests 4 table)

include ho h1 hlen hat hrests

/-- The table refers to an equal vtable that stands behind it. -/
theorem close_shared_ends {cache : VTableCache} (hd : b.options.dedupVTables = true)
    (hget : b.vtables.get? (o.vtable b.order table) = some vtable)
    (hcache : ∀ v, cache.get? v = b.vtables.get? v) :
    Ends (patch table (ScalarType.i32.encode b.order (BitVec.ofInt 32 ((vtable : Int) - table))))
      { b1 with stage := .idle, vtables := cache }
      (fun _ b' => b.Closes o table vtable b') (fun _ _ => False) := by
  have hw1 := h1.written
  rw [List.append_assoc] at hw1
  have hgrows : b.Grows { b1 with stage := .idle, vtables := cache } :=
    ⟨h1.keeps.written, h1.limit, h1.order, h1.options, h1.fits, h1.minAlign⟩
  refine close_ends [] ho rfl h1.structSize hgrows hlen hat (hrests.mono (Nat.le_refl _)) hw1 ?_
  intro new _
  exact .shared hd hget hcache h1.vtablesWritten

/-- The vtable has come to stand in front of the table. -/
theorem close_written_ends {b3 : Builder} {padded : List UInt8}
    (hnew : b.options.dedupVTables = true → b.vtables.get? (o.vtable b.order table) = none)
    (h3 : Builder.Puts { b1 with stage := .idle } (o.vtable b.order table ++ padded) b3)
    (hvtable : vtable = b3.offset) (hrests3 : b3.Rests 2 vtable) :
    Ends (patch table (ScalarType.i32.encode b.order (BitVec.ofInt 32 ((vtable : Int) - table))))
      { b3 with
        vtables := if b1.options.dedupVTables then b1.vtables.insert (o.vtable b.order table) vtable
          else b1.vtables
        vtablesWritten := b1.vtablesWritten + 1 }
      (fun _ b' => b.Closes o table vtable b') (fun _ _ => False) := by
  have hkeeps : b.Keeps b3 := (h1.keeps.setStage .idle).trans h3.keeps
  have hw3 : b3.arena.written = (o.vtable b.order table ++ padded) ++
      (zeros 4 ++ (zeros (padding b.offset 4) ++ b.arena.written)) := by
    rw [h3.written, ← List.append_assoc (zeros 4), ← h1.written]
  have hgrows : b.Grows { b3 with
      vtables := if b1.options.dedupVTables then b1.vtables.insert (o.vtable b.order table) vtable
        else b1.vtables
      vtablesWritten := b1.vtablesWritten + 1 } :=
    ⟨hkeeps.written, hkeeps.limit, hkeeps.order, hkeeps.options, hkeeps.fits, hkeeps.minAlign⟩
  refine close_ends _ ho h3.stage hkeeps.structSize hgrows hlen hat (hrests.mono h3.minAlign.le) hw3 ?_
  intro new hlen4
  rw [h1.options, h1.vtables, h1.vtablesWritten]
  refine .written hnew ?_ ?_ ?_ (hrests3.mono (Nat.le_refl _)) rfl rfl
  · rw [hvtable, Builder.offset, Builder.offset, Arena.size, Arena.size, hw3]
    simp only [List.length_append, List.length_replicate, hlen4]
  · rw [List.append_assoc]
    exact List.prefix_append ..
  · have h1o : b1.offset = 4 + padding b.offset 4 + b.offset := by
      rw [h1.offset, List.length_append, List.length_replicate, List.length_replicate]
    rw [hvtable, h3.offset, List.length_append, ← h1o]
    change b1.offset + _ ≤ _ + b1.offset
    omega

end Word

theorem endObject_ends :
    Ends endObject b (fun table b' => ∃ o vtable, b.Closes o table.value vtable b')
      (fun f b' => b.ClosesNot f b') := by
  unfold endObject
  rw [ends_bind]
  refine (openObject_ends b _).mono ?_ fun f b' h => .noObject h.2 h.1
  intro o b h
  obtain ⟨rfl, ho⟩ := h
  have hfin : b.isFinished = false := by rw [Builder.isFinished, ho]; rfl
  rw [ends_bind]
  apply (push_ends b .i32 0).mono
  · intro table b1 h
    obtain ⟨h1, -, htable, hrests⟩ := h
    rw [← htable] at hrests
    have hzero : ScalarType.i32.encode b.order 0 = zeros 4 := ByteOrder.encode_zero _ _
    rw [hzero] at h1
    have hat : table = 4 + padding b.offset 4 + b.offset := by
      rw [htable, h1.offset, List.length_append, List.length_replicate, List.length_replicate]
    dsimp only
    rw [ends_ite, ends_bind, ends_misuse]
    refine ⟨fun hlarge => ?_, fun hlarge => ?_⟩
    · rw [htable] at hlarge ⊢
      exact .tooLarge o ho h1 hlarge rfl
    · have hlen : o.tableLength table ≤ 65535 := Nat.le_of_not_lt hlarge
      let idle : Builder := { b1 with stage := .idle }
      have hidle : b.Keeps idle := h1.keeps.setStage .idle
      rw [ends_bind, ends_get, ends_bind, ends_setStage, ends_bind]
      refine (sharedVTable?_ends idle _).mono ?_ fun _ _ h => h.elim
      intro found b2 h
      rw [h1.order]
      cases found with
      | some vtable =>
        obtain ⟨hd, hget, cache, hcache, rfl⟩ := h
        rw [h1.options] at hd
        rw [h1.order, h1.vtables] at hget
        rw [h1.vtables] at hcache
        dsimp only
        rw [ends_bind, ends_pure, ends_bind]
        refine (close_shared_ends ho h1 hlen hat hrests hd hget hcache).mono ?_ fun _ _ h => h.elim
        intro _ b' h
        exact ⟨o, vtable, h⟩
      | none =>
        obtain ⟨rfl, hnew⟩ := h
        rw [h1.options, h1.order, h1.vtables] at hnew
        dsimp only
        rw [ends_bind]
        apply (writeVTable_ends idle _).mono
        · intro vtable b4 h
          obtain ⟨b3, h3, hvtable, hrests3, rfl⟩ := h
          rw [ends_bind]
          refine (close_written_ends ho h1 hlen hat hrests hnew h3 hvtable hrests3).mono ?_ fun _ _ h => h.elim
          intro _ b' h
          exact ⟨o, vtable, h⟩
        · intro f b3 h
          obtain ⟨h3, hc⟩ := h
          have hother := Builder.not_construction hc rfl
          exact .noVTable o ho (hidle.trans h3.keeps) h3.stage hother (hat ▸ hlen)
  · intro f b1 h
    obtain ⟨h1, hc, hroom⟩ := h
    exact .noRoom o ho h1 (Builder.not_construction hc hfin) (hroom hfin)

theorem putIdentifier_ends {rest : Build Unit} {good : Unit → Builder → Prop}
    {bad : Failure → Builder → Prop} (identifier : Option Identifier) (h : 4 ≤ b.arena.headroom)
    (hrest : ∀ b1, b.Puts (identifierBytes identifier) b1 → b1.minAlign = b.minAlign →
      Ends rest b1 good bad) :
    Ends (match identifier with
      | some id => do
        put id.bytes
        rest
      | none => rest) b good bad := by
  cases identifier with
  | some id =>
    dsimp only
    rw [ends_bind]
    refine (put_ends_of_room b (by rw [id.length_eq]; exact h)).mono ?_ fun _ _ h => h.elim
    intro _ b1 h
    exact hrest b1 h.1 h.2.2
  | none => exact hrest b (.refl b) rfl

theorem seal_ends (sizePrefixed : Bool) :
    Ends (do
        if sizePrefixed then
          let size ← offset
          reserve 4
          putWord size
        setStage .finished) b
      (fun _ b' => ∃ b1, b.Puts (if sizePrefixed then b.order.encode 4 b.offset else []) b1 ∧
        b1.minAlign = b.minAlign ∧ b' = { b1 with stage := .finished })
      (fun f b' => b' = b ∧ f.isConstruction = false) := by
  dsimp only
  rw [ends_ite]
  constructor
  · intro hs
    rw [ends_bind, ends_offset, ends_bind]
    apply (reserve_ends b 4).mono
    · intro _ b1 h
      obtain ⟨h1, hroom, hmin1⟩ := h
      unfold putWord
      rw [ends_bind, ends_bind, ends_get]
      refine (put_ends_of_room b1 (by simpa using hroom)).mono ?_ fun _ _ h => h.elim
      intro _ b2 h
      obtain ⟨h2, -, hmin2⟩ := h
      have h12 := h1.trans h2
      rw [List.append_nil, h1.order] at h12
      rw [if_pos hs]
      exact ⟨b2, h12, hmin2.trans hmin1, rfl⟩
    · intro f b1 h
      obtain ⟨rfl, hf, -⟩ := h
      exact ⟨rfl, hf⟩
  · intro hs
    rw [if_neg hs]
    exact ⟨b, .refl b, rfl, rfl⟩

theorem finishWith_ends (root : Offset .table) (identifier : Option Identifier) (sizePrefixed : Bool) :
    Ends (finishWith root identifier sizePrefixed) b
      (fun _ b' => b.Finishes root.value identifier sizePrefixed b')
      (fun f b' => b.Fails f b') := by
  unfold finishWith
  rw [ends_bind]
  apply (requireIdle_ends b _).mono
  · intro _ b h
    obtain ⟨rfl, hidle⟩ := h
    have hfin := Builder.isFinished_of_idle hidle
    rw [ends_bind, ends_offset, ends_bind]
    apply (requireWritten_ends b _ _ _).mono
    · intro _ b h
      obtain ⟨rfl, hpos, hle⟩ := h
      rw [ends_bind, ends_get]
      dsimp only
      rw [ends_bind]
      refine (prep_ends b _ _).mono ?_ fun f b' h => h.1.fails f
      intro _ b0 h
      obtain ⟨h0, -, hroom, hmin0, -⟩ := h
      refine putIdentifier_ends b0 identifier (by omega) fun b1 h1 hmin1 => ?_
      have h01 := h0.trans h1
      rw [ends_bind]
      apply (pushReference_ends b1 root.value).mono
      · intro _ b2 h
        obtain ⟨h2, -, -, hmin2⟩ := h
        have hword : b2.offset - 4 - root.value + 4 = b2.offset - root.value := by
          have h01o := h01.offset
          have h2o := h2.offset
          rw [List.length_append, ByteOrder.length_encode] at h2o
          omega
        rw [hword, h01.order] at h2
        have horder : b2.order = b.order := h2.order.trans h01.order
        apply (seal_ends b2 sizePrefixed).mono
        · intro _ b' h
          obtain ⟨b3, h3, hmin3, rfl⟩ := h
          rw [horder] at h3
          have hmin : b3.minAlign = max b.minAlign 4 := by omega
          exact ⟨hidle, hpos, hle, hmin, b1, b2, b3, h01, h2, h3, rfl⟩
        · intro f b' h
          obtain ⟨rfl, hf⟩ := h
          have hidle2 : b'.stage = .idle := (h01.trans h2).stage.trans hidle
          exact (h01.keeps.trans h2.keeps).fails hf hidle hidle2
      · intro f b2 h
        obtain ⟨h2, hc⟩ := h
        have hfin1 : b1.isFinished = false := h01.isFinished.trans hfin
        have hidle2 : b2.stage = .idle := (h01.trans h2).stage.trans hidle
        exact (h01.keeps.trans h2.keeps).fails (Builder.not_construction hc hfin1) hidle hidle2
    · intro f b h
      obtain rfl := h
      exact .refl _ _
  · intro f b h
    obtain ⟨rfl, -⟩ := h
    exact .refl _ _

end Build

end TableBuffer
