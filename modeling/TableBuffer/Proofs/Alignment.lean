import TableBuffer.Proofs.Placement

/-!
# Natural alignment

Whatever is put in front stands at a multiple of its alignment from the end, and finishing brings the whole
to a multiple of the strictest alignment that was asked for. Both together make it stand at a multiple of
its alignment from the start. The strictest alignment only ever grows, so this comes out whatever was
asked for later.
-/

namespace TableBuffer

/-- Only opening a vector brings a vector under construction. -/
theorem Call.Effect.vector {c : Call} {b b' : Builder} {stored : List (Nat × Content)} {v : OpenVector}
    (h : c.Effect b b' stored) (hc : ∀ size count alignment, c ≠ .startVector size count alignment)
    (hv : b'.stage = .vector v) : b.stage = .vector v := by
  cases h with
  | puts h => exact h.stage.symm.trans hv
  | createsStruct h size_le same =>
    rw [same] at hv
    exact h.stage.symm.trans hv
  | opensTable call slots_le same =>
    rw [same] at hv
    cases hv
  | adds h =>
    rw [h.added] at hv
    cases hv
  | addsUnion h h1 =>
    rw [h1.added] at hv
    cases hv
  | closesTable call h =>
    rw [h.idle] at hv
    cases hv
  | opensVector call h same =>
    obtain ⟨size, count, alignment, hcall⟩ := call
    exact absurd hcall (hc size count alignment)
  | closesVector h =>
    rw [h.stage] at hv
    cases hv
  | finishes h =>
    obtain ⟨b1, b2, b3, -, -, -, rfl⟩ := h.parts
    cases hv

theorem Call.Refusal.vector {c : Call} {f : Failure} {b b' : Builder} {v : OpenVector}
    (h : c.Refusal f b b') (hv : b'.stage = .vector v) : b.stage = .vector v := by
  cases h with
  | fails call h => exact h.vector v hv
  | half h object other full =>
    obtain ⟨o, field, -, hobject⟩ := object
    rw [hobject] at hv
    cases hv
  | closesNot call h =>
    cases h with
    | noObject stage same => rwa [same] at hv
    | noRoom o stage puts other room => exact puts.stage.symm.trans hv
    | tooLarge o stage puts large error => exact puts.stage.symm.trans hv
    | noVTable o stage keeps idle other length_le =>
      rw [idle] at hv
      cases hv

namespace Builder

variable {b b' b1 b2 : Builder} {c : Call} {outcome : Outcome Reply} {events before : List Event}
  {alignment : Nat}

theorem StartsWithin.call (h : b.StartsWithin) (hreset : c ≠ .reset) (hcall : b.call c = (outcome, b')) :
    b'.StartsWithin := by
  intro o ho
  have hle : b.offset ≤ b'.offset := (extends_of_call hreset hcall).offset_le
  rcases call_object hreset hcall ho with ⟨-, hstart⟩ | ⟨o', ho', hbecomes⟩
  · rw [hstart]
    exact hle
  · rw [hbecomes.start]
    exact Nat.le_trans (h o' ho') hle

/-- A vector that was just opened waits for its data at both alignments. -/
theorem startVector_awaits {size count : Nat} {reply : Reply}
    (hcall : b.call (.startVector size count alignment) = (.ok reply, b')) :
    b'.Awaits 4 ∧ b'.Awaits alignment := by
  obtain ⟨-, hcount, hdata, k, b1, -, rfl⟩ := (startVector_call_ends b size count alignment).of_call_ok hcall
  constructor
  · intro v hv
    obtain rfl := Stage.vector.inj hv
    exact ⟨Nat.le_refl _, hcount⟩
  · intro v hv
    obtain rfl := Stage.vector.inj hv
    exact ⟨Nat.le_refl _, hdata⟩

/-- A vector that is open after a call was open before, unless the call opened one. -/
theorem call_vector {v : OpenVector} (hreset : c ≠ .reset) (hcall : b.call c = (outcome, b'))
    (hopens : ∀ size count alignment, (c, outcome) ≠ (.startVector size count alignment, .ok .done))
    (hv : b'.stage = .vector v) : b.stage = .vector v := by
  cases outcome with
  | ok reply =>
    refine ((Call.step_effect b hreset).of_call_ok hcall).vector (fun size count alignment hc => ?_) hv
    subst hc
    obtain ⟨rfl, -⟩ := (startVector_call_ends b size count alignment).of_call_ok hcall
    exact hopens size count alignment rfl
  | error f => exact ((Call.step_effect b hreset).of_call_error hcall).vector hv

/-- A vector that stays open waits for its data at the alignment it was opened with. -/
theorem Awaits.call (h : b.Awaits alignment) (hreset : c ≠ .reset) (hcall : b.call c = (outcome, b'))
    (hopens : ∀ size count alignment, (c, outcome) ≠ (.startVector size count alignment, .ok .done)) :
    b'.Awaits alignment := by
  intro v hv
  have hgrows : b.Grows b' := (extends_of_call hreset hcall).toGrows
  obtain ⟨hstart, hrests⟩ := h v (call_vector hreset hcall hopens hv)
  exact ⟨Nat.le_trans hstart hgrows.offset_le, hrests.mono hgrows.minAlign.le⟩

/-- Before each call of a run the open table or vector, if there is one, is as it should be. -/
theorem Fresh.braced (hb : b.Fresh) (hrun : b.Runs events b') (hreset : ∀ e ∈ events, e.1 ≠ .reset) :
    b'.StartsWithin ∧ b'.Awaits 4 := by
  refine hrun.induct (P := fun _ b => b.StartsWithin ∧ b.Awaits 4) ⟨fun o ho => ?_, fun v hv => ?_⟩
    fun before b1 e b2 hmoment h => ?_
  · rw [hb.idle] at ho
    cases ho
  · rw [hb.idle] at hv
    cases hv
  · have he := hreset e hmoment.mem
    refine ⟨h.1.call he hmoment.call, ?_⟩
    by_cases hopens : ∃ size count alignment, e = (.startVector size count alignment, .ok .done)
    · obtain ⟨size, count, alignment, rfl⟩ := hopens
      exact (startVector_awaits hmoment.call).1
    · exact h.2.call he hmoment.call fun size count alignment he => hopens ⟨size, count, alignment, he⟩

/-- What a call of a run put stands aligned from then on. -/
theorem Moment.aligns {reply : Reply} (h : b.Moment events before b1 (c, .ok reply) b2) (hb : b.Fresh)
    (hreset : ∀ e ∈ events, e.1 ≠ .reset) : c.Aligns b1 b2 := by
  obtain ⟨hstart, hawaits⟩ := hb.braced h.run fun e he => hreset e (h.mem_of_before he)
  exact (Call.step_aligns b1 (h.sound hb.sound) hstart hawaits c).of_call_ok h.call

/-- A vector that stays open waits for its data, whatever is called. -/
theorem Awaits.run (h : b.Awaits alignment) (hrun : b.Runs events b') (hreset : ∀ e ∈ events, e.1 ≠ .reset)
    (hopens : ∀ size count alignment, (.startVector size count alignment, .ok .done) ∉ events) :
    b'.Awaits alignment := by
  refine hrun.induct (P := fun _ b => b.Awaits alignment) h fun before b1 e b2 hmoment h => ?_
  refine h.call (hreset e hmoment.mem) hmoment.call fun size count alignment he => ?_
  exact hopens size count alignment (he ▸ hmoment.mem)

/-- The data of a vector that is closed stand aligned behind the count, which is at the front. -/
theorem Awaits.closes {o : Nat} (h : b.Awaits alignment) (hcall : b.call .endVector = (.ok (.offset o), b')) :
    b'.Rests alignment (o - 4) ∧ o = b'.offset := by
  obtain ⟨v, hv, hsize, ho, hputs⟩ := (endVector_call_ends b).of_call_ok hcall
  obtain rfl := Reply.offset.inj ho
  obtain ⟨hstart, hrests⟩ := h v hv
  have hoffset : b'.offset - 4 = v.start + v.dataLength := by
    have hlen := hputs.offset
    rw [ByteOrder.length_encode] at hlen
    change b'.offset = 4 + b.offset at hlen
    omega
  rw [hoffset]
  exact ⟨hrests.mono hputs.minAlign.le, rfl⟩

end Builder

/-- A vector was opened for `count` elements of `size` bytes and closed at `offset`, and in between no other
vector was opened. -/
def VectorSpan (events : List Event) (size count alignment : Nat) (inside : List Event) (offset : Nat) : Prop :=
  ∃ before after, events = before ++ (.startVector size count alignment, .ok .done) ::
      (inside ++ (.endVector, .ok (.offset offset)) :: after) ∧
    ∀ n m a, (.startVector n m a, .ok .done) ∉ inside

namespace Builder

variable {b b' : Builder} {events : List Event} {alignment offset : Nat} (hrun : b.Runs events b')
  (hreset : ∀ e ∈ events, e.1 ≠ .reset)

include hrun hreset

/-- Every vector that was closed was opened before. -/
theorem Runs.vectorSpan (hidle : b.stage = .idle) (he : (.endVector, .ok (.offset offset)) ∈ events) :
    ∃ size count alignment inside, VectorSpan events size count alignment inside offset := by
  obtain ⟨before, b1, b2, after, rfl, hbefore, hclose, -⟩ := hrun.of_mem he
  by_cases hopened : ∃ e ∈ before, ∃ size count alignment, e = (.startVector size count alignment, .ok .done)
  · obtain ⟨first, e, inside, rfl, ⟨size, count, alignment, rfl⟩, hinside⟩ := exists_last hopened
    exact ⟨size, count, alignment, inside, first, after, by rw [List.append_assoc, List.cons_append],
      fun n m a hmem => hinside _ hmem ⟨n, m, a, rfl⟩⟩
  · -- Without an opening no vector would be open, let alone one that waits for an impossible alignment.
    have hwaits : b.Awaits 0 := by
      intro v hv
      rw [hidle] at hv
      cases hv
    have hend := hwaits.run hbefore (fun e he => hreset e (List.mem_append_left _ he))
      fun n m a hmem => hopened ⟨_, hmem, n, m, a, rfl⟩
    exact absurd (hend.closes hclose).1.power (by decide)

theorem Runs.vectorSpan_rests {size count : Nat} {inside : List Event}
    (h : VectorSpan events size count alignment inside offset) :
    b'.Rests alignment (offset - 4) ∧ offset ≤ b'.offset := by
  obtain ⟨before, after, rfl, hinside⟩ := h
  obtain ⟨b1, -, hrun1⟩ := runs_append.1 hrun
  obtain ⟨-, b2, hopen, hrun2⟩ := runs_cons.1 hrun1
  obtain ⟨b3, hrun3, hrun4⟩ := runs_append.1 hrun2
  obtain ⟨-, b4, hclose, hafter⟩ := runs_cons.1 hrun4
  have hlater : ∀ e ∈ inside ++ (.endVector, .ok (.offset offset)) :: after, e.1 ≠ .reset := fun e he =>
    hreset e (List.mem_append_right _ (List.mem_cons_of_mem _ he))
  have hgrows : b4.Grows b' := hafter.grows fun e he =>
    hlater e (List.mem_append_right _ (List.mem_cons_of_mem _ he))
  have hend := (startVector_awaits hopen).2.run hrun3 (fun e he => hlater e (List.mem_append_left _ he)) hinside
  obtain ⟨hrests, hoffset⟩ := hend.closes hclose
  exact ⟨hrests.mono hgrows.minAlign.le, hoffset ▸ hgrows.offset_le⟩

end Builder

/-- The placed bytes are in the image, and aligned from its start. -/
structure Placement.AlignedIn (p : Placement) (m : Image) : Prop where
  offset_le : p.offset ≤ m.size
  slice_eq : m.slice (m.size - p.offset) p.bytes.length = .ok p.bytes
  aligned : p.alignment ∣ m.size - p.offset

/-- Everything that the calls of a run put stands in the image at a multiple of its alignment, which is
counted from the start. -/
structure Image.NaturallyAligned (m : Image) (b : Builder) (events : List Event) : Prop where
  asked : ∀ c reply, (c, .ok reply) ∈ events → ∀ a ∈ c.alignments b.options, a ∣ m.size
  placed : ∀ before b1 c reply b2, b.Moment events before b1 (c, .ok reply) b2 →
    ∀ p ∈ c.placements b1 b2, p.AlignedIn m
  tables : ∀ table, (.endObject, .ok (.offset table)) ∈ events → table ≤ m.size ∧ 4 ∣ m.size - table ∧
    ∃ vtable, Table.vtable ⟨m, m.size - table⟩ = .ok ⟨m, vtable⟩ ∧ 2 ∣ vtable
  opened : ∀ offset, (.endVector, .ok (.offset offset)) ∈ events →
    ∃ size count alignment inside, VectorSpan events size count alignment inside offset
  vectors : ∀ size count alignment inside offset, VectorSpan events size count alignment inside offset →
    offset ≤ m.size ∧ alignment ∣ m.size - (offset - 4)

namespace Builder

variable {b b' : Builder} {events : List Event} {alignment offset root : Nat} {sizePrefixed : Bool}
  {identifier : Option Identifier}

/-- A buffer that is as long as a multiple of its strictest alignment. -/
structure Squared (b : Builder) : Prop where
  power : isPowerOfTwo b.minAlign = true
  multiple : b.minAlign ∣ b.offset

theorem Squared.asked (h : b.Squared) (hasked : b.Asked alignment) : alignment ∣ b.offset :=
  Nat.dvd_trans (dvd_of_isPowerOfTwo hasked.power h.power hasked.le) h.multiple

/-- In such a buffer what is aligned from the end is aligned from the start. -/
theorem Squared.from_start (h : b.Squared) (hrests : b.Rests alignment offset) :
    alignment ∣ b.offset - offset :=
  Nat.dvd_sub (h.asked hrests.asked_for) hrests.multiple

theorem Finishes.squared (h : b.Finishes root identifier sizePrefixed b') (hb : b.Sound) :
    b'.Squared ∧ b'.finishedData = .ok b'.arena.written := by
  have hsound : b'.Sound := hb.extends h.keeps.extends
  obtain ⟨body, hdata, -, hwhole⟩ := h.frames hb.minAlign hsound.offset_le_max
  have hwritten := written_of_finishedData hdata
  rw [← hwritten, ← h.minAlign_eq] at hwhole
  rw [← hwritten] at hdata
  exact ⟨⟨hsound.minAlign, hwhole⟩, hdata⟩

/-- Whatever a run put, with calls that failed or not, stands in the finished buffer at a multiple of its
own alignment: scalars, references, counts, structs, the data of vectors, tables and vtables. The buffer is
as long as a multiple of every alignment that was asked for. -/
theorem finished_buffer_aligned {reply : Reply} (hb : b.Fresh)
    (hrun : b.Runs (events ++ [(finishing sizePrefixed root identifier, .ok reply)]) b')
    (hreset : ∀ e ∈ events, e.1 ≠ .reset) :
    ∃ bytes, b'.finishedData = .ok bytes ∧ (Image.ofList b.order bytes).NaturallyAligned b
      (events ++ [(finishing sizePrefixed root identifier, .ok reply)]) := by
  obtain ⟨b0, hrun0, hlast⟩ := runs_append.1 hrun
  obtain ⟨-, b1, hfinish, hnil⟩ := runs_cons.1 hlast
  obtain rfl := runs_nil.1 hnil
  have hfin := (finishing_call_ends b0 sizePrefixed root identifier).of_call_ok hfinish
  obtain ⟨hsquared, hdata⟩ := hfin.squared (hrun0.sound hb.sound)
  have hmax := (hrun.sound hb.sound).offset_le_max
  have hreset' : ∀ e ∈ events ++ [(finishing sizePrefixed root identifier, .ok reply)], e.1 ≠ .reset := by
    refine List.forall_mem_append.2 ⟨hreset, List.forall_mem_singleton.2 ?_⟩
    cases sizePrefixed <;> exact nofun
  generalize events ++ [(finishing sizePrefixed root identifier, .ok reply)] = all at hrun hreset' ⊢
  have hsize : (Image.ofList b.order b'.arena.written).size = b'.offset := size_ofList ..
  refine ⟨_, hdata, ?_⟩
  constructor
  case asked =>
    intro c reply he a ha
    obtain ⟨before, c1, c2, hmoment⟩ := hrun.moment he
    rw [← hmoment.options_eq hreset'] at ha
    rw [hsize]
    exact hsquared.asked (((hmoment.aligns hb hreset').asked a ha).mono (hmoment.grows_after hreset' hrun))
  case placed =>
    intro before c1 c reply c2 hmoment p hp
    obtain ⟨hrests, hstands⟩ :=
      ((hmoment.aligns hb hreset').placed p hp).mono (hmoment.grows_after hreset' hrun)
    refine ⟨?_, ?_, ?_⟩
    · rw [hsize]
      exact hstands.offset_le
    · rw [size_ofList]
      exact slice_of_standsAt b.order hstands
    · rw [hsize]
      exact hsquared.from_start hrests
  case tables =>
    intro table he
    obtain ⟨vtable, slots, length, entry, hat, htable, hvtable⟩ :=
      hrun.tableAt hb.sound hb.idle hreset' he
    have hread := hat.table_vtable hmax
    rw [hsize]
    exact ⟨hat.distance.offset_le, hsquared.from_start htable, _, hread, hsquared.from_start hvtable⟩
  case opened =>
    intro offset he
    exact hrun.vectorSpan hreset' hb.idle he
  case vectors =>
    intro size count alignment inside offset hspan
    obtain ⟨hrests, hle⟩ := hrun.vectorSpan_rests hreset' hspan
    rw [hsize]
    exact ⟨hle, hsquared.from_start hrests⟩

/-- Fields of all sizes in a table, among them one for which there is no slot, behind a vector of words of
eight bytes that follows an odd number of bytes. -/
def mixedSizes : List Event :=
  [(.createString "ab", .ok (.offset 8)), (.pad 1, .ok .done), (.startVector 8 2 8, .ok .done),
    (.push (.unsigned .w64) (1 : BitVec 64), .ok (.offset 24)),
    (.push (.unsigned .w64) (2 : BitVec 64), .ok (.offset 32)), (.endVector, .ok (.offset 36)),
    (.startObject 3, .ok .done), (.addScalarAlways 0 .u8 (7 : BitVec 8), .ok .done),
    (.addScalar 1 .u32 (5 : BitVec 32) (0 : BitVec 32), .ok .done),
    (.addScalarAlways 9 .u8 (7 : BitVec 8),
      .error (.error (.invalidArgument (.slotOutOfRange .addScalarAlways 9 3)))),
    (.addOffset 2 8, .ok .done), (.endObject, .ok (.offset 52))]

theorem mixedSizes_aligned :
    let all := mixedSizes ++ [(finishing false 52 none, .ok .done)]
    ∃ bytes, ((new .big).run (all.map Prod.fst)).2.finishedData = .ok bytes ∧
      let m := Image.ofList .big bytes
      m.NaturallyAligned (new .big) all ∧ 8 ∣ m.size ∧ 4 ∣ m.size - 52 ∧ 8 ∣ m.size - (36 - 4) := by
  intro all
  have hruns : (new .big).Runs all ((new .big).run (all.map Prod.fst)).2 :=
    runs_of_outcomes (by decide +kernel) (by simp [all, mixedSizes])
  obtain ⟨bytes, hdata, haligned⟩ :=
    finished_buffer_aligned (fresh_new .big) hruns (by simp [mixedSizes])
  have hspan : VectorSpan all 8 2 8 [(.push (.unsigned .w64) (1 : BitVec 64), .ok (.offset 24)),
      (.push (.unsigned .w64) (2 : BitVec 64), .ok (.offset 32))] 36 :=
    ⟨[(.createString "ab", .ok (.offset 8)), (.pad 1, .ok .done)], _, rfl, by simp⟩
  have htable := haligned.tables 52 (by simp [mixedSizes])
  have hwords := haligned.asked (.startVector 8 2 8) .done (by simp [mixedSizes]) 8 (by simp [Call.alignments])
  exact ⟨bytes, hdata, haligned, hwords, htable.2.1, (haligned.vectors _ _ _ _ _ hspan).2⟩

end Builder

end TableBuffer
