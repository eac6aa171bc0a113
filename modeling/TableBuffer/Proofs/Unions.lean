import TableBuffer.Proofs.RoundTrip

/-!
# Unions are read whole

A union is added to two slots by one call, which may fail between the two writes. That it does so only for
want of room keeps the half from being seen: the buffer is full, it stays full, and closing the table
takes room. So a reader of a finished buffer finds both halves or neither.
-/

namespace TableBuffer

/-- The slots of the open table that a call names. -/
def Call.slots : Call → List Nat
  | addScalar slot .. | addScalarAlways slot .. | addOffset slot _ | addStruct slot _ => [slot]
  | addUnion typeSlot valueSlot _ => [typeSlot, valueSlot]
  | _ => []

/-- The two slots are left to unions: a call that names either adds a union to the pair. -/
def Call.SparesPair (typeSlot valueSlot : Nat) (c : Call) : Prop :=
  (∃ union, c = .addUnion typeSlot valueSlot union) ∨ typeSlot ∉ c.slots ∧ valueSlot ∉ c.slots

/-- A union with a payload was added to the pair of slots. -/
def UnionAdded (events : List Event) (typeSlot valueSlot : Nat) (tag : UInt8) (payload : Offset .table) :
    Prop :=
  ∃ tag_ne_zero reply, (.addUnion typeSlot valueSlot (.some tag payload tag_ne_zero), .ok reply) ∈ events

/-- What a call stores goes to a slot that it names. -/
theorem Call.slot_mem_of_stored {options : Options} {c : Call} {s : Nat × Content}
    (h : s ∈ c.stored options) : s.1 ∈ c.slots := by
  cases c with
  | addScalar slot ty v default =>
    rw [stored] at h
    split at h
    · cases h
    · rw [List.mem_singleton.1 h]
      exact List.mem_singleton.2 rfl
  | addUnion typeSlot valueSlot union =>
    cases union with
    | none => cases h
    | some tag payload tag_ne_zero =>
      simp only [stored, List.mem_cons, List.not_mem_nil, or_false] at h
      rcases h with rfl | rfl <;> simp [slots]
  | addScalarAlways slot ty v | addOffset slot target | addStruct slot struct =>
    rw [List.mem_singleton.1 h]
    exact List.mem_singleton.2 rfl
  | _ => cases h

theorem exists_of_mem_storedBy {options : Options} {events : List Event} {s : Nat × Content}
    (h : s ∈ storedBy options events) : ∃ c reply, (c, .ok reply) ∈ events ∧ s ∈ c.stored options := by
  obtain ⟨⟨c, outcome⟩, he, hs⟩ := List.mem_flatMap.1 h
  cases outcome with
  | ok reply => exact ⟨c, reply, he, hs⟩
  | error f => cases hs

/-- What is found in slots left to unions was stored by a union. -/
theorem unionAdded_of_stored {options : Options} {events : List Event} {typeSlot valueSlot : Nat}
    (hpair : ∀ e ∈ events, e.1.SparesPair typeSlot valueSlot) {slot : Nat}
    (hslot : slot = typeSlot ∨ slot = valueSlot) (h : slot ∈ (storedBy options events).map Prod.fst) :
    ∃ tag payload, UnionAdded events typeSlot valueSlot tag payload := by
  obtain ⟨s, hs, rfl⟩ := List.mem_map.1 h
  obtain ⟨c, reply, he, hstored⟩ := exists_of_mem_storedBy hs
  rcases hpair _ he with ⟨union, rfl⟩ | hspared
  · cases union with
    | none => cases hstored
    | some tag payload tag_ne_zero => exact ⟨tag, payload, tag_ne_zero, reply, he⟩
  · have hnamed := Call.slot_mem_of_stored hstored
    rcases hslot with hslot | hslot
    · exact absurd (hslot ▸ hnamed) hspared.1
    · exact absurd (hslot ▸ hnamed) hspared.2

theorem Table.union?_of_lacks {t : Table} {typeSlot valueSlot : Nat} (htype : t.Lacks typeSlot)
    (hvalue : t.Lacks valueSlot) : t.union? typeSlot valueSlot = .ok none := by
  have htarget : t.target? valueSlot = .ok none := hvalue.2 _
  rw [Table.union?, htype.scalar, ok_bind, htarget, ok_bind]
  rfl

section

variable {order : ByteOrder} {written : List UInt8} {table slots typeSlot valueSlot : Nat}
  {options : Options} {events : List Event}
  (h : TableHolds order written table slots (storedBy options events))
  (hmax : written.length ≤ maxBufferSize)

include h hmax

theorem TableHolds.union?_of_none (hpair : ∀ e ∈ events, e.1.SparesPair typeSlot valueSlot)
    (hnone : ∀ tag payload, ¬ UnionAdded events typeSlot valueSlot tag payload) :
    Table.union? ⟨Image.ofList order written, written.length - table⟩ typeSlot valueSlot = .ok none := by
  have hlacks (slot : Nat) (hslot : slot = typeSlot ∨ slot = valueSlot) :
      Table.Lacks ⟨Image.ofList order written, written.length - table⟩ slot := by
    apply h.lacks hmax
    intro hmem
    obtain ⟨tag, payload, hadded⟩ := unionAdded_of_stored hpair hslot hmem
    exact hnone tag payload hadded
  exact Table.union?_of_lacks (hlacks typeSlot (.inl rfl)) (hlacks valueSlot (.inr rfl))

theorem TableHolds.union?_of_added {tag : UInt8} {payload : Offset .table}
    (hadded : UnionAdded events typeSlot valueSlot tag payload) :
    Table.union? ⟨Image.ofList order written, written.length - table⟩ typeSlot valueSlot =
      .ok (some ⟨tag, Image.ofList order written, written.length - payload.value⟩) := by
  obtain ⟨tag_ne_zero, reply, he⟩ := hadded
  exact h.union? hmax tag_ne_zero (mem_storedBy he (List.mem_cons_self ..))
    (mem_storedBy he (List.mem_cons_of_mem _ (List.mem_singleton.2 rfl)))

end

namespace Builder

variable {b b' : Builder} {events : List Event}

/-- A union was refused when its value was on record already, and the events came after that. -/
def HalfUnion (b : Builder) (events after : List Event) : Prop :=
  ∃ before typeSlot valueSlot union f b1 b2,
    events = before ++ (.addUnion typeSlot valueSlot union, .error f) :: after ∧ b.Runs before b1 ∧
      b1.call (.addUnion typeSlot valueSlot union) = (.error f, b2) ∧ b2.stage ≠ b1.stage

/-- Half a union is left behind only by a builder that has no room for the other half. -/
theorem full_of_refused_union {typeSlot valueSlot : Nat} {union : UnionOffset} {f : Failure}
    (hcall : b.call (.addUnion typeSlot valueSlot union) = (.error f, b')) (hf : f ≠ .fault)
    (hstage : b'.stage ≠ b.stage) : b'.Full := by
  have h : Build.Ends (Call.addUnion typeSlot valueSlot union).step b (fun _ _ => True)
      (fun f b' => b.Puts [] b' ∨ b.Keeps b' ∧ (∃ o field, b.stage = .object o ∧
        b'.stage = .object { o with fields := field :: o.fields }) ∧ f.isConstruction = false ∧ (f ≠ .fault → b'.Full)) := by
    rw [Call.step, Build.ends_silent]
    exact (Build.addUnion_ends b typeSlot valueSlot union).mono (fun _ _ _ => trivial) fun _ _ h => h
  rcases h.of_call_error hcall with hputs | ⟨-, -, -, hfull⟩
  · exact absurd hputs.stage hstage
  · exact hfull hf

/-- A full builder closes no table, however it goes on. -/
theorem Runs.no_closing_of_full (hrun : b.Runs events b') (hb : b.Sound) (hfull : b.Full)
    (hreset : ∀ e ∈ events, e.1 ≠ .reset) (reply : Reply) : (.endObject, .ok reply) ∉ events := by
  intro he
  obtain ⟨before, b1, b2, after, rfl, hbefore, hclose, -⟩ := hrun.of_mem he
  obtain ⟨o, table, vtable, -, hcloses⟩ := (endObject_call_ends b1).of_call_ok hclose
  have hgrows := hbefore.grows fun e he => hreset e (List.mem_append_left _ he)
  exact hcloses.not_full (hbefore.sound hb) (hgrows.full hfull)

theorem HalfUnion.no_closing {after : List Event} (h : b.HalfUnion events after) (hb : b.Sound)
    (hrun : b.Runs events b') (hreset : ∀ e ∈ events, e.1 ≠ .reset) (reply : Reply) :
    (.endObject, .ok reply) ∉ after := by
  obtain ⟨before, typeSlot, valueSlot, union, f, b1, b2, rfl, hbefore, hcall, hstage⟩ := h
  obtain ⟨b1', hbefore', hrest⟩ := runs_append.1 hrun
  obtain rfl : b1 = b1' := by
    have hends := hbefore.1.symm.trans hbefore'.1
    exact congrArg Prod.snd hends
  obtain ⟨hfault, b2', hcall', hafter⟩ := runs_cons.1 hrest
  obtain rfl : b2 = b2' := congrArg Prod.snd (hcall.symm.trans hcall')
  have hfull := full_of_refused_union hcall (fun hf => hfault (by rw [hf])) hstage
  have hsound : b2.Sound := by
    have hnext := (hbefore.sound hb).call (.addUnion typeSlot valueSlot union)
    rwa [hcall] at hnext
  exact hafter.no_closing_of_full hsound hfull
    (fun e he => hreset e (List.mem_append_right _ (List.mem_cons_of_mem _ he))) reply

/-- After half a union no table is closed. In a finished buffer the union in two slots that only unions
were added to is the one that was added, with its payload, or none if none was. -/
theorem finished_unions_whole (hb : b.Fresh) (hrun : b.Runs events b')
    (hreset : ∀ e ∈ events, e.1 ≠ .reset) :
    (∀ after, b.HalfUnion events after → ∀ reply, (.endObject, .ok reply) ∉ after) ∧
      ∀ bytes, b'.finishedData = .ok bytes →
        (∀ table, (.endObject, .ok (.offset table)) ∈ events →
          ∃ slots inside, TableSpan events slots inside table) ∧
        let m := Image.ofList b.order bytes
        ∀ slots inside table typeSlot valueSlot, TableSpan events slots inside table →
          (∀ e ∈ inside, e.1.SparesPair typeSlot valueSlot) →
          ((∀ tag payload, ¬ UnionAdded inside typeSlot valueSlot tag payload) →
            Table.union? ⟨m, m.size - table⟩ typeSlot valueSlot = .ok none) ∧
          ∀ tag payload, UnionAdded inside typeSlot valueSlot tag payload →
            Table.union? ⟨m, m.size - table⟩ typeSlot valueSlot =
              .ok (some ⟨tag, m, m.size - payload.value⟩) := by
  refine ⟨fun after h => h.no_closing hb.sound hrun hreset, fun bytes hdata => ⟨fun table he =>
    hrun.tableSpan hb.sound hb.idle hreset he, ?_⟩⟩
  intro m slots inside table typeSlot valueSlot hspan hpair
  have hholds := hrun.tableHolds hb.sound hreset hspan
  have hbytes : b'.arena.written = bytes := written_of_finishedData hdata
  have hmax : bytes.length ≤ maxBufferSize := hbytes ▸ (hrun.sound hb.sound).offset_le_max
  have hsize : m.size = bytes.length := size_ofList ..
  rw [hbytes] at hholds
  rw [hsize]
  exact ⟨hholds.union?_of_none hmax hpair, fun tag payload => hholds.union?_of_added hmax⟩

/-- What is called inside a table: unions that are refused, one that is added, and one without a value. -/
def unionCalls : List Event :=
  [(.addUnion 0 1 (.some 3 ⟨99⟩ (by decide)),
      .error (.error (.invalidOperation (.notWritten .addOffset 99 8)))),
    (.addUnion 0 1 (.some 3 ⟨8⟩ (by decide)), .ok .done),
    (.addUnion 2 3 (.some 1 ⟨0⟩ (by decide)),
      .error (.error (.invalidOperation (.notWritten .addOffset 0 8)))),
    (.addUnion 2 3 .none, .ok .done)]

def unionRun : List Event :=
  (.createString "hi", .ok (.offset 8)) :: (.startObject 4, .ok .done) ::
    (unionCalls ++ [(.endObject, .ok (.offset 20)), (.finish 20 none, .ok .done)])

theorem unionRun_runs : (new .little).Runs unionRun ((new .little).run (unionRun.map Prod.fst)).2 :=
  runs_of_outcomes (by decide +kernel) (by simp [unionRun, unionCalls])

/-- A builder with room for the value of a union and not for its tag. -/
def tightBuilder : Builder := ofOptions .little { initialCapacity := 12, maxSize := 12 }

def tightRun : List Event :=
  [(.createByteVector [7], .ok (.offset 8)), (.startObject 2, .ok .done),
    (.addUnion 0 1 (.some 3 ⟨8⟩ (by decide)), .error (.error (.bufferTooLarge 13 12))),
    (.endObject, .error (.error (.bufferTooLarge 16 12)))]

theorem tightRun_runs : tightBuilder.Runs tightRun (tightBuilder.run (tightRun.map Prod.fst)).2 :=
  runs_of_outcomes (by decide +kernel) (by simp [tightRun])

theorem tightRun_halfUnion : tightBuilder.HalfUnion tightRun (tightRun.drop 3) := by
  let b1 := (tightBuilder.run ((tightRun.take 2).map Prod.fst)).2
  have hbefore : tightBuilder.Runs (tightRun.take 2) b1 :=
    runs_of_outcomes (by decide +kernel) (by simp [tightRun])
  have hcall : b1.call (.addUnion 0 1 (.some 3 ⟨8⟩ (by decide))) =
      (.error (.error (.bufferTooLarge 13 12)), (b1.call (.addUnion 0 1 (.some 3 ⟨8⟩ (by decide)))).2) :=
    Prod.ext (by decide +kernel) rfl
  exact ⟨tightRun.take 2, 0, 1, .some 3 ⟨8⟩ (by decide), _, b1, _, rfl, hbefore, hcall, by decide +kernel⟩

/-- One union is read whole and the other is absent; the table with half a union is not closed. -/
theorem unions_of_unionRun :
    (∃ bytes, ((new .little).run (unionRun.map Prod.fst)).2.finishedData = .ok bytes ∧
      let m := Image.ofList .little bytes
      Table.union? ⟨m, m.size - 20⟩ 0 1 = .ok (some ⟨3, m, m.size - 8⟩) ∧
        Table.union? ⟨m, m.size - 20⟩ 2 3 = .ok none) ∧
      ∀ reply, (.endObject, .ok reply) ∉ tightRun.drop 3 := by
  have hspan : TableSpan unionRun 4 unionCalls 20 :=
    ⟨unionRun.take 1, unionRun.drop 7, rfl, by simp [unionCalls]⟩
  have hfirst : ∀ e ∈ unionCalls, e.1.SparesPair 0 1 := by
    simp [unionCalls, Call.SparesPair, Call.slots]
  have hsecond : ∀ e ∈ unionCalls, e.1.SparesPair 2 3 := by
    simp [unionCalls, Call.SparesPair, Call.slots]
  have hreset : ∀ e ∈ unionRun, e.1 ≠ .reset := by simp [unionRun, unionCalls]
  have htight : tightBuilder.Fresh :=
    .start (withOptions_eq_ok_iff.2 ⟨⟨by decide, by decide, by decide⟩, rfl⟩)
  constructor
  · obtain ⟨-, hfinished⟩ := finished_unions_whole (fresh_new .little) unionRun_runs hreset
    have hdata : ((new .little).run (unionRun.map Prod.fst)).2.finishedData =
        .ok ((new .little).run (unionRun.map Prod.fst)).2.arena.written :=
      if_pos (by decide +kernel)
    obtain ⟨-, hunions⟩ := hfinished _ hdata
    refine ⟨_, hdata, ?_, ?_⟩
    · exact (hunions 4 unionCalls 20 0 1 hspan hfirst).2 3 ⟨8⟩
        ⟨by decide, .done, by simp [unionCalls]⟩
    · exact (hunions 4 unionCalls 20 2 3 hspan hsecond).1 fun tag payload h => by
        simp [UnionAdded, unionCalls] at h
  · exact (finished_unions_whole htight tightRun_runs (by simp [tightRun])).1 _ tightRun_halfUnion

end Builder

end TableBuffer
