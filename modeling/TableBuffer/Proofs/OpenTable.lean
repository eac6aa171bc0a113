import TableBuffer.Proofs.Runs

/-!
# What an open table holds

Between the calls that open and close a table any calls may come, and any of them may fail. `Tracks` is the
invariant: the fields on record are what the successful calls stored, each in a slot of its own, and each
stands where it is recorded. A call that neither adds a field nor closes the table leaves it alone, except
that half a union may be added to a buffer that is then too full for the table to be closed.
-/

namespace TableBuffer

/-- What the call of an event stored; nothing if it failed. -/
def Event.stored (options : Options) : Event → List (Nat × Content)
  | (c, .ok _) => c.stored options
  | (_, .error _) => []

namespace Builder

/-- The fields of the open table `o` are `held`, the latest first, each with what it holds. -/
structure Tracks (b : Builder) (o : OpenObject) (held : List (StoredField × Content)) : Prop where
  stage : b.stage = .object o
  start_le : o.start ≤ b.offset
  slots_le : o.slots ≤ VTable.maxSlots
  fields : o.fields = held.map Prod.fst
  distinct : (held.map fun p => p.1.slot).Nodup
  declared : ∀ p ∈ held, p.1.slot < o.slots
  size_le : ∀ p ∈ held, p.1.size ≤ p.1.offset
  offset_le : ∀ p ∈ held, p.1.offset ≤ b.offset
  content : ∀ p ∈ held, p.2.At b.order b.arena.written p.1.offset

variable {b b' : Builder} {o : OpenObject} {held : List (StoredField × Content)}

theorem tracks_opened {slots : Nat} (h : slots ≤ VTable.maxSlots) :
    Tracks { b with stage := .object ⟨b.offset, slots, []⟩ } ⟨b.offset, slots, []⟩ [] where
  stage := rfl
  start_le := Nat.le_refl _
  slots_le := h
  fields := rfl
  distinct := List.nodup_nil
  declared := fun _ h => nomatch h
  size_le := fun _ h => nomatch h
  offset_le := fun _ h => nomatch h
  content := fun _ h => nomatch h

theorem Tracks.same (h : b.Tracks o held) (hgrows : b.Grows b') (hstage : b'.stage = .object o) :
    b'.Tracks o held :=
  { h with
    stage := hstage
    start_le := Nat.le_trans h.start_le hgrows.offset_le
    offset_le := fun p hp => Nat.le_trans (h.offset_le p hp) hgrows.offset_le
    content := fun p hp => by
      rw [hgrows.order]
      exact (h.content p hp).mono hgrows.written }

theorem Tracks.add (h : b.Tracks o held) (hsize : b.structSize ≤ b.offset) {o1 : OpenObject}
    {slot size : Nat} {content : Content} (hadd : b.Adds o1 slot size content b') :
    b'.Tracks { o with fields := ⟨slot, b'.offset, size⟩ :: o.fields }
      ((⟨slot, b'.offset, size⟩, content) :: held) := by
  obtain rfl := Stage.object.inj (h.stage.symm.trans hadd.stage)
  have hfree : slot ∉ held.map fun p => p.1.slot := by
    intro hmem
    obtain ⟨p, hp, hslot⟩ := List.mem_map.1 hmem
    refine hadd.takes.free p.1 ?_ hslot
    rw [h.fields]
    exact List.mem_map_of_mem hp
  have hle := hadd.keeps.offset_le
  exact {
    stage := hadd.added
    start_le := Nat.le_trans h.start_le hle
    slots_le := h.slots_le
    fields := by rw [h.fields, List.map_cons]
    distinct := List.nodup_cons.2 ⟨hfree, h.distinct⟩
    declared := List.forall_mem_cons.2 ⟨hadd.takes.declared, h.declared⟩
    size_le := List.forall_mem_cons.2 ⟨hadd.size_le hsize, h.size_le⟩
    offset_le := List.forall_mem_cons.2
      ⟨Nat.le_refl _, fun p hp => Nat.le_trans (h.offset_le p hp) hle⟩
    content := List.forall_mem_cons.2 ⟨hadd.content h.start_le, fun p hp => by
      rw [hadd.keeps.order]
      exact (h.content p hp).mono hadd.keeps.written⟩ }

/-- What is held, in the order in which it was stored. -/
def contents (held : List (StoredField × Content)) : List (Nat × Content) :=
  held.reverse.map fun p => (p.1.slot, p.2)

theorem contents_cons (f : StoredField) (content : Content) (held : List (StoredField × Content)) :
    contents ((f, content) :: held) = contents held ++ [(f.slot, content)] := by
  simp [contents]

/-- Since a table of `slots` slots was opened, `stored` has been stored in it, unless it can no longer be
closed. -/
def Within (slots : Nat) (stored : List (Nat × Content)) (b : Builder) : Prop :=
  (∃ o held, b.Tracks o held ∧ o.slots = slots ∧ stored = contents held) ∨
    (∀ o, b.stage ≠ .object o) ∨ b.Full

theorem Grows.full (h : b.Grows b') (hb : b.Full) : b'.Full := by
  rw [Full, h.limit]
  exact Nat.le_trans hb h.offset_le

section

variable {slots : Nat} {stored more : List (Nat × Content)}

theorem Within.same (h : Within slots stored b) (hgrows : b.Grows b')
    (hobject : ∀ o, b'.stage = .object o ↔ b.stage = .object o) : Within slots stored b' := by
  rcases h with ⟨o, held, htracks, hslots, hstored⟩ | hclosed | hfull
  · exact Or.inl ⟨o, held, htracks.same hgrows ((hobject o).2 htracks.stage), hslots, hstored⟩
  · exact Or.inr (Or.inl fun o ho => hclosed o ((hobject o).1 ho))
  · exact Or.inr (Or.inr (hgrows.full hfull))

theorem Within.same_stage (h : Within slots stored b) (hgrows : b.Grows b')
    (hstage : b'.stage = b.stage) : Within slots stored b' := by
  apply h.same hgrows
  intro o
  rw [hstage]

theorem Within.of_closed (h : ∀ o, b.stage ≠ .object o) : Within slots stored b := Or.inr (Or.inl h)

theorem Within.add {size slot : Nat} {content : Content} (h : Within slots stored b)
    (hsize : b.structSize ≤ b.offset) (hadd : b.Adds o slot size content b') :
    Within slots (stored ++ [(slot, content)]) b' := by
  rcases h with ⟨o', held, htracks, hslots, hstored⟩ | hclosed | hfull
  · refine Or.inl ⟨_, _, htracks.add hsize hadd, hslots, ?_⟩
    rw [contents_cons, hstored]
  · exact absurd hadd.stage (hclosed o)
  · exact Or.inr (Or.inr (hadd.keeps.full hfull))

theorem Within.effect {c : Call} (h : Within slots stored b) (hsize : b.structSize ≤ b.offset)
    (heffect : c.Effect b b' more) (hopens : ∀ n, c ≠ .startObject n) :
    Within slots (stored ++ more) b' := by
  have hgrows := heffect.extends.toGrows
  cases heffect with
  | puts hputs =>
    rw [List.append_nil]
    exact h.same_stage hgrows hputs.stage
  | @createsStruct bytes size b1 hputs size_le same =>
    subst same
    rw [List.append_nil]
    exact h.same_stage hgrows hputs.stage
  | opensTable call => exact absurd call (hopens _)
  | adds hadd => exact h.add hsize hadd
  | @addsUnion b1 o o1 slot slot1 size size1 content content1 hadd hadd1 =>
    have hsize1 : b1.structSize ≤ b1.offset := by
      rw [hadd.keeps.structSize]
      exact Nat.le_trans hsize hadd.keeps.offset_le
    have hboth := (h.add hsize hadd).add hsize1 hadd1
    rwa [List.append_assoc] at hboth
  | closesTable call hcloses => exact .of_closed (not_object_of_idle hcloses.idle)
  | opensVector call hputs same =>
    apply Within.of_closed
    rw [same]
    exact fun o => Stage.noConfusion
  | closesVector hputs => exact .of_closed (not_object_of_idle hputs.stage)
  | finishes hfinishes =>
    obtain ⟨b1, b2, b3, -, -, -, same⟩ := hfinishes.parts
    apply Within.of_closed
    rw [same]
    exact fun o => Stage.noConfusion

theorem Within.refusal {c : Call} {f : Failure} (h : Within slots stored b)
    (hrefusal : c.Refusal f b b') (hf : f ≠ .fault) : Within slots stored b' := by
  cases hrefusal with
  | fails call hfails => exact h.same hfails.keeps.toGrows hfails.object
  | half hkeeps object other full => exact Or.inr (Or.inr (full hf))
  | closesNot call hnot =>
    cases hnot with
    | noObject stage same =>
      rw [same]
      exact h
    | noRoom o stage puts other room => exact h.same_stage puts.keeps.toGrows puts.stage
    | tooLarge o stage puts large error => exact h.same_stage puts.keeps.toGrows puts.stage
    | noVTable o stage keeps idle other length_le => exact .of_closed (not_object_of_idle idle)

end

end Builder

/-- Fields may have been added to the open table. -/
structure OpenObject.Becomes (o o' : OpenObject) : Prop where
  start : o'.start = o.start
  fields : o.fields <:+ o'.fields

theorem OpenObject.Becomes.refl (o : OpenObject) : o.Becomes o := ⟨rfl, List.suffix_refl _⟩

theorem OpenObject.Becomes.trans {o o' o'' : OpenObject} (h : o.Becomes o') (h' : o'.Becomes o'') :
    o.Becomes o'' :=
  ⟨h'.start.trans h.start, h.fields.trans h'.fields⟩

theorem OpenObject.becomes_cons (o : OpenObject) (f : StoredField) :
    o.Becomes { o with fields := f :: o.fields } :=
  ⟨rfl, List.suffix_cons f o.fields⟩

/-- The open table is the one that was open, with fields added perhaps, or one that starts here. -/
theorem Call.Effect.object {c : Call} {b b' : Builder} {stored : List (Nat × Content)} {o : OpenObject}
    (h : c.Effect b b' stored) (ho : b'.stage = .object o) :
    (∃ slots, c = .startObject slots) ∧ o.start = b.offset ∨
      ∃ o', b.stage = .object o' ∧ o'.Becomes o := by
  cases h with
  | puts h => exact .inr ⟨o, h.stage.symm.trans ho, .refl o⟩
  | createsStruct h size_le same =>
    rw [same] at ho
    exact .inr ⟨o, h.stage.symm.trans ho, .refl o⟩
  | opensTable call slots_le same =>
    rw [same] at ho
    cases ho
    exact .inl ⟨⟨_, call⟩, rfl⟩
  | adds h =>
    obtain rfl := Stage.object.inj (h.added.symm.trans ho)
    exact .inr ⟨_, h.stage, OpenObject.becomes_cons _ _⟩
  | addsUnion h h1 =>
    obtain rfl := Stage.object.inj (h1.added.symm.trans ho)
    obtain rfl := Stage.object.inj (h.added.symm.trans h1.stage)
    exact .inr ⟨_, h.stage, (OpenObject.becomes_cons _ _).trans (OpenObject.becomes_cons _ _)⟩
  | closesTable call h =>
    rw [h.idle] at ho
    cases ho
  | opensVector call h same =>
    rw [same] at ho
    cases ho
  | closesVector h =>
    rw [h.stage] at ho
    cases ho
  | finishes h =>
    obtain ⟨b1, b2, b3, -, -, -, rfl⟩ := h.parts
    cases ho

theorem Call.Refusal.object {c : Call} {f : Failure} {b b' : Builder} {o : OpenObject}
    (h : c.Refusal f b b') (ho : b'.stage = .object o) : ∃ o', b.stage = .object o' ∧ o'.Becomes o := by
  cases h with
  | fails call h => exact ⟨o, (h.object o).1 ho, .refl o⟩
  | half h object other full =>
    obtain ⟨o', field, hold, hnew⟩ := object
    obtain rfl := Stage.object.inj (hnew.symm.trans ho)
    exact ⟨o', hold, OpenObject.becomes_cons _ _⟩
  | closesNot call h =>
    cases h with
    | noObject stage same =>
      rw [same] at ho
      exact ⟨o, ho, .refl o⟩
    | noRoom o' stage puts other room => exact ⟨o, puts.stage.symm.trans ho, .refl o⟩
    | tooLarge o' stage puts large error => exact ⟨o, puts.stage.symm.trans ho, .refl o⟩
    | noVTable o' stage keeps idle other length_le =>
      rw [idle] at ho
      cases ho

namespace Builder

variable {b b' : Builder} {o : OpenObject}

theorem call_object {c : Call} {outcome : Outcome Reply} (hreset : c ≠ .reset)
    (hcall : b.call c = (outcome, b')) (ho : b'.stage = .object o) :
    (∃ slots, (c, outcome) = (.startObject slots, .ok .done)) ∧ o.start = b.offset ∨
      ∃ o', b.stage = .object o' ∧ o'.Becomes o := by
  cases outcome with
  | ok reply =>
    rcases ((Call.step_effect b hreset).of_call_ok hcall).object ho with ⟨⟨slots, rfl⟩, hstart⟩ | hold
    · obtain ⟨rfl, -⟩ := (startObject_call_ends b slots).of_call_ok hcall
      exact .inl ⟨⟨slots, rfl⟩, hstart⟩
    · exact .inr hold
  | error f => exact .inr (((Call.step_effect b hreset).of_call_error hcall).object ho)

/-- A table that is open after calls that opened none was open before them. -/
theorem Runs.still_open {events : List Event} (hrun : b.Runs events b') (hreset : ∀ e ∈ events, e.1 ≠ .reset)
    (hopens : ∀ n, (.startObject n, .ok .done) ∉ events) (ho : b'.stage = .object o) :
    ∃ o', b.stage = .object o' ∧ o'.Becomes o := by
  have hend : ∀ o, b'.stage = .object o → ∃ o', b.stage = .object o' ∧ o'.Becomes o := by
    refine hrun.induct (P := fun _ b' => ∀ o, b'.stage = .object o → ∃ o', b.stage = .object o' ∧ o'.Becomes o)
      (fun o ho => ⟨o, ho, .refl o⟩) fun before b1 e b2 hmoment h o ho => ?_
    rcases call_object (hreset e hmoment.mem) hmoment.call ho with ⟨⟨slots, he⟩, -⟩ | ⟨o1, ho1, hbecomes⟩
    · exact absurd (he ▸ hmoment.mem) (hopens slots)
    · obtain ⟨o', ho', hbefore⟩ := h o1 ho1
      exact ⟨o', ho', hbefore.trans hbecomes⟩
  exact hend o ho

variable {held : List (StoredField × Content)}

/-- A table that was just opened is tracked, with nothing in it. -/
theorem startObject_within {slots : Nat} {reply : Reply}
    (hcall : b.call (.startObject slots) = (.ok reply, b')) : b.Keeps b' ∧ Within slots [] b' := by
  obtain ⟨-, hslots, rfl⟩ := (startObject_call_ends b slots).of_call_ok hcall
  exact ⟨(Keeps.refl b).setStage _, Or.inl ⟨_, [], tracks_opened hslots, rfl, rfl⟩⟩

/-- One call keeps track of the open table. -/
theorem Within.call {slots : Nat} {stored : List (Nat × Content)} {c : Call} {outcome : Outcome Reply}
    (h : Within slots stored b) (hb : b.Sound) (hcall : b.call c = (outcome, b'))
    (hfault : outcome ≠ .error .fault) (hreset : c ≠ .reset)
    (hstart : ∀ n, (c, outcome) ≠ (.startObject n, .ok .done)) :
    Within slots (stored ++ Event.stored b.options (c, outcome)) b' := by
  cases outcome with
  | ok reply =>
    apply h.effect hb.structSize_le ((Call.step_effect b hreset).of_call_ok hcall)
    intro n hn
    apply hstart n
    rw [hn] at hcall ⊢
    obtain ⟨rfl, -⟩ := (startObject_call_ends b n).of_call_ok hcall
    rfl
  | error f =>
    have hrefusal := (Call.step_effect b hreset).of_call_error hcall
    rw [Event.stored, List.append_nil]
    exact h.refusal hrefusal fun hf => hfault (by rw [hf])

/-- A run that opens no other table keeps track of this one. -/
theorem Within.run {slots : Nat} {stored : List (Nat × Content)} {events : List Event}
    (h : Within slots stored b) (hb : b.Sound) (hrun : b.Runs events b')
    (hreset : ∀ e ∈ events, e.1 ≠ .reset) (hstart : ∀ n, (.startObject n, .ok .done) ∉ events) :
    Within slots (stored ++ events.flatMap (Event.stored b.options)) b' := by
  induction events generalizing b stored with
  | nil =>
    rw [runs_nil.1 hrun, List.flatMap_nil, List.append_nil]
    exact h
  | cons e events ih =>
    obtain ⟨c, outcome⟩ := e
    obtain ⟨hfault, b1, hcall, hevents⟩ := runs_cons.1 hrun
    have hc : c ≠ .reset := hreset _ (List.mem_cons_self ..)
    have hopened : ∀ n, (c, outcome) ≠ (.startObject n, .ok .done) := by
      intro n hn
      apply hstart n
      rw [hn]
      exact List.mem_cons_self ..
    -- Soundness goes along: a field's size is within what is written only if the last struct's is.
    have hstep := h.call hb hcall hfault hc hopened
    have hextends := extends_of_call hc hcall
    have hrest := ih hstep (hb.extends hextends) hevents
      (fun e he => hreset e (List.mem_cons_of_mem _ he))
      (fun n hn => hstart n (List.mem_cons_of_mem _ hn))
    rw [hextends.options, List.append_assoc] at hrest
    rwa [List.flatMap_cons]

/-- The table that is open, if one is, is tracked, unless it can no longer be closed. -/
def Tracked (b : Builder) : Prop := ∃ slots stored, Within slots stored b

theorem tracked_of_idle (h : b.stage = .idle) : b.Tracked := ⟨0, [], .of_closed (not_object_of_idle h)⟩

theorem Tracked.call {c : Call} {outcome : Outcome Reply} (h : b.Tracked) (hb : b.Sound)
    (hcall : b.call c = (outcome, b')) (hfault : outcome ≠ .error .fault) (hreset : c ≠ .reset) :
    b'.Tracked := by
  by_cases hstart : ∃ n, (c, outcome) = (.startObject n, .ok .done)
  · obtain ⟨n, he⟩ := hstart
    cases he
    exact ⟨n, [], (startObject_within hcall).2⟩
  · obtain ⟨slots, stored, hwithin⟩ := h
    exact ⟨slots, _, hwithin.call hb hcall hfault hreset (not_exists.1 hstart)⟩

end Builder

end TableBuffer
