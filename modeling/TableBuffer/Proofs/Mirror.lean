import TableBuffer.Proofs.Answers
import TableBuffer.Proofs.TableContents

/-!
# One sequence of calls in two byte orders

The order of the bytes shows in no answer but the finished bytes themselves. A builder looks at what it has
written in two places. It compares vtables, which agree in one order exactly when they agree in the other.
And `required` reads a table; so the tables that were closed since the last reset are followed through both
runs, where they stand at the same places and are laid out alike.
-/

namespace TableBuffer

/-- The bytes of a buffer reduced to their number. -/
def blank (bytes : List UInt8) : List UInt8 := List.replicate bytes.length 0

theorem blank_eq_iff {bytes bytes' : List UInt8} : blank bytes' = blank bytes ↔ bytes'.length = bytes.length := by
  constructor
  · intro h
    simpa [blank] using congrArg List.length h
  · intro h
    rw [blank, blank, h]

/-- A reply without the bytes of a buffer. -/
def Reply.hide : Reply → Reply
  | .bytes data => .bytes (blank data)
  | reply => reply

/-- The events to be kept in mind after one more call. A reset ends what was before it, and to ask for the
finished bytes changes nothing. -/
def keep (kept : List Event) (e : Event) : List Event :=
  match e.1 with
  | .reset => []
  | .finishedData => kept
  | _ => kept ++ [e]

/-- The calls since the last reset and how they ended, but for those that ask for the finished bytes. -/
def recent (events : List Event) : List Event := events.foldl keep []

theorem keep_of_ne {kept : List Event} {c : Call} (hreset : c ≠ .reset) (hdata : c ≠ .finishedData)
    (outcome : Outcome Reply) : keep kept (c, outcome) = kept ++ [(c, outcome)] := by
  cases c <;> first | rfl | exact absurd rfl hreset | exact absurd rfl hdata

namespace Builder

/-- The calls and how they ended, up to the first fault. -/
def history (b : Builder) (calls : List Call) : List Event := calls.zip (b.run calls).1

/-- Each table that is asked about was closed since the last reset. -/
def AsksForClosed (b : Builder) (calls : List Call) : Prop :=
  ∀ before table slot after, calls = before ++ .required table slot :: after →
    (.endObject, .ok (.offset table)) ∈ recent (b.history before)

/-- What can be asked between two calls, without the bytes of a buffer. -/
def View.hide (v : View) : View :=
  { v with finishedData := v.finishedData.map blank, intoFinished := v.intoFinished.map blank }

/-- While both builders are given the same calls, no difference shows but in the bytes of a finished buffer,
and not in their number. -/
structure SameButBytes (b b' : Builder) (calls : List Call) : Prop where
  outcomes : (b'.run calls).1.map (Except.map Reply.hide) = (b.run calls).1.map (Except.map Reply.hide)
  views : ∀ before, before <+: calls → (b'.run before).2.view.hide = (b.run before).2.view.hide

variable {b b' : Builder} {calls : List Call}

/-- To ask for the finished bytes changes nothing. -/
theorem call_finishedData (b : Builder) :
    b.call .finishedData = ((b.finishedData.map Reply.bytes).mapError Failure.error, b) := by
  rw [Builder.call, Call.step, Build.get_bind]
  cases b.finishedData with
  | ok bytes => rfl
  | error e => rfl

theorem history_cons {c : Call} {outcome : Outcome Reply} {b1 : Builder} (h : b.call c = (outcome, b1))
    (hf : outcome ≠ .error .fault) : b.history (c :: calls) = (c, outcome) :: b1.history calls := by
  rw [history, run_cons h hf]
  rfl

theorem runs_history (hf : .error .fault ∉ (b.run calls).1) :
    b.Runs (b.history calls) (b.run calls).2 := by
  induction calls generalizing b with
  | nil => exact runs_nil.2 rfl
  | cons c calls ih =>
    cases hcall : b.call c with
    | mk outcome b1 =>
      by_cases hfault : outcome = .error .fault
      · rw [hfault] at hcall
        rw [run_fault hcall] at hf
        exact absurd (List.mem_singleton.2 rfl) hf
      · rw [run_cons hcall hfault] at hf
        rw [history_cons hcall hfault, run_cons hcall hfault]
        exact runs_cons.2 ⟨hfault, b1, hcall, ih fun h => hf (List.mem_cons_of_mem _ h)⟩

theorem Reachable.madeWith (h : b.Reachable) : b.MadeWith b.order b.options := by
  induction h with
  | @start order options b h =>
    have hblank := blank_withOptions h
    rw [hblank.order, hblank.options]
    exact hblank.madeWith
  | @call b b' c outcome hb h hf ih =>
    have hcall := ih.call c
    rw [h] at hcall
    rw [hcall.order, hcall.options]
    exact hcall

theorem Fresh.blank (h : b.Fresh) : b.Blank b.order b.options := by
  cases h with
  | start h =>
    have hblank := blank_withOptions h
    rw [hblank.order, hblank.options]
    exact hblank
  | reset hb => exact hb.madeWith.reset

theorem Fresh.reachable (h : b.Fresh) : b.Reachable := by
  cases h with
  | start h => exact .start h
  | @reset b hb => exact .call hb (show b.call .reset = (.ok .done, b.reset) from rfl) nofun

theorem Runs.reachable {events : List Event} (h : b.Runs events b') (hb : b.Reachable) : b'.Reachable :=
  h.induct (P := fun _ b => b.Reachable) hb fun _ _ e _ hmoment hb =>
    .call hb hmoment.call (h.2 e hmoment.mem)

/-- What a run did since the last reset, it did from a builder with nothing written. -/
theorem Runs.recent {events : List Event} (hb : b.Fresh) (h : b.Runs events b') :
    ∃ f : Builder, f.Fresh ∧ f.order = b.order ∧ f.options = b.options ∧ f.Runs (recent events) b' ∧
      ∀ e ∈ TableBuffer.recent events, e.1 ≠ .reset := by
  refine h.induct (P := fun past c => ∃ f : Builder, f.Fresh ∧ f.order = b.order ∧ f.options = b.options ∧
    f.Runs (TableBuffer.recent past) c ∧ ∀ e ∈ TableBuffer.recent past, e.1 ≠ .reset)
    ⟨b, hb, rfl, rfl, runs_nil.2 rfl, fun _ h => nomatch h⟩ ?_
  intro past b1 e b2 hmoment ih
  obtain ⟨c, outcome⟩ := e
  have hcall : b1.call c = (outcome, b2) := hmoment.call
  have hlast : TableBuffer.recent (past ++ [(c, outcome)]) = keep (TableBuffer.recent past) (c, outcome) :=
    List.foldl_append
  rw [hlast]
  obtain ⟨f, hfresh, horder, hoptions, hrun, hreset⟩ := ih
  by_cases hc : c = .reset
  · subst hc
    obtain rfl : b1.reset = b2 := congrArg Prod.snd hcall
    have hreachable := hmoment.run.reachable hb.reachable
    have hmade : b1.MadeWith b.order b.options := by
      have hend := hb.blank.madeWith.run (past.map Prod.fst)
      rwa [hmoment.run.1] at hend
    exact ⟨b1.reset, .reset hreachable, hmade.order, hmade.options, runs_nil.2 rfl, fun _ h => nomatch h⟩
  · by_cases hdata : c = .finishedData
    · subst hdata
      obtain rfl : b1 = b2 := congrArg Prod.snd (b1.call_finishedData.symm.trans hcall)
      exact ⟨f, hfresh, horder, hoptions, hrun, hreset⟩
    · rw [keep_of_ne hc hdata]
      refine ⟨f, hfresh, horder, hoptions, ?_, ?_⟩
      · exact runs_append.2 ⟨b1, hrun, runs_cons.2 ⟨h.2 _ hmoment.mem, b2, hcall, runs_nil.2 rfl⟩⟩
      · intro e he
        rcases List.mem_append.1 he with he | he
        · exact hreset e he
        · rw [List.mem_singleton.1 he]
          exact hc

theorem Alike.finishedBytes_blank {p : Pairing} (h : Alike p b b') (op : Operation) :
    (b'.finishedBytes op).map blank = (b.finishedBytes op).map blank := by
  rw [Builder.finishedBytes, Builder.finishedBytes, h.isFinished]
  split
  · exact congrArg Except.ok (blank_eq_iff.2 h.offset)
  · rfl

theorem Alike.view_hide {p : Pairing} (h : Alike p b b') : b'.view.hide = b.view.hide := by
  show (⟨b'.offset, b'.vtablesWritten, b'.isFinished, (b'.finishedBytes .finishedData).map blank,
    (b'.finishedBytes .intoFinished).map blank⟩ : View) = ⟨b.offset, b.vtablesWritten, b.isFinished,
    (b.finishedBytes .finishedData).map blank, (b.finishedBytes .intoFinished).map blank⟩
  rw [h.offset, h.vtablesWritten, h.isFinished, h.finishedBytes_blank, h.finishedBytes_blank]

/-- Two builders were given the same calls, of which those kept in mind are `kept`. The tables that were
closed stand at the same places in both and are laid out alike, and so do the counts of vectors. -/
structure Mirrors (p : Pairing) (kept : List Event) (b b' : Builder) : Prop where
  alike : Alike p b b'
  sound : b.Sound
  sound' : b'.Sound
  tracked : b.Tracked
  tracked' : b'.Tracked
  tables : ∀ table, (.endObject, .ok (.offset table)) ∈ kept → ∃ vtable slots length entry,
    TableAt p.order b.arena.written table vtable slots length entry ∧
      TableAt p.order' b'.arena.written table vtable slots length entry
  counts : ∀ o, (.endVector, .ok (.offset o)) ∈ kept → ∃ count,
    StandsAt b.arena.written o (p.order.encode 4 count) ∧
      StandsAt b'.arena.written o (p.order'.encode 4 count)

section Mirrors

variable {p : Pairing} {kept : List Event}

theorem Sound.has_tableView (hb : b.Sound) {table vtable slots length : Nat} {entry : Nat → Nat}
    (h : TableAt b.order b.arena.written table vtable slots length entry) (slot : Nat) :
    (b.tableView table).has slot = .ok (decide (slot < slots ∧ entry slot ≠ 0)) :=
  h.has hb.offset_le_max slot

theorem Mirrors.readsAlike (h : Mirrors p kept b b') {c : Call} (hdata : c ≠ .finishedData)
    (hc : ∀ table slot, c = .required table slot → (.endObject, .ok (.offset table)) ∈ kept) :
    b.ReadsAlike b' c := by
  cases c with
  | required table slot =>
    obtain ⟨vtable, slots, length, entry, hat, hat'⟩ := h.tables table (hc table slot rfl)
    rw [← h.alike.order] at hat
    rw [← h.alike.order'] at hat'
    exact (h.sound'.has_tableView hat' slot).trans (h.sound.has_tableView hat slot).symm
  | finishedData => exact absurd rfl hdata
  | _ => trivial

/-- A table is closed alike in both orders, and its vtable is found or written in the same place. -/
theorem Mirrors.closes (h : Mirrors p kept b b') {c c' : Builder} {table : Nat} (hcc : Alike p c c')
    (hcall : b.call .endObject = (.ok (.offset table), c))
    (hcall' : b'.call .endObject = (.ok (.offset table), c')) :
    ∃ vtable slots length entry, TableAt p.order c.arena.written table vtable slots length entry ∧
      TableAt p.order' c'.arena.written table vtable slots length entry := by
  obtain ⟨o, T, vtable, hreply, hclose⟩ := (endObject_call_ends b).of_call_ok hcall
  obtain ⟨o', T', vtable', hreply', hclose'⟩ := (endObject_call_ends b').of_call_ok hcall'
  obtain rfl := Reply.offset.inj hreply
  obtain rfl := Reply.offset.inj hreply'
  obtain rfl : o = o' := Stage.object.inj <| hclose.stage.symm.trans <| h.alike.stage.symm.trans hclose'.stage
  have hcount := hcc.vtablesWritten
  have hbefore := h.alike.vtablesWritten
  have hvtable : vtable' = vtable := by
    cases hclose.locates with
    | shared dedup found cache count =>
      cases hclose'.locates with
      | shared dedup' found' cache' count' =>
        have hrecode : o.vtable b'.order table = VTable.recode p.order p.order' (o.vtable b.order table) := by
          rw [h.alike.order, h.alike.order']
          exact (VTable.recode_encode ..).symm
        rw [h.alike.vtables, hrecode, VTableCache.get?_map (VTable.recode_injective ..), found] at found'
        exact (Option.some.inj found').symm
      | written _ _ _ _ _ _ count' => omega
    | written _ front _ _ _ _ count =>
      cases hclose'.locates with
      | shared _ _ _ count' => omega
      | written _ front' _ _ _ _ _ => rw [front, front', hcc.offset]
  obtain ⟨slots, stored, hwithin⟩ := h.tracked
  obtain ⟨slots', stored', hwithin'⟩ := h.tracked'
  obtain ⟨held, htracks, -⟩ := hwithin.tracks h.sound hclose
  obtain ⟨held', htracks', -⟩ := hwithin'.tracks h.sound' hclose'
  have hat := hclose.tableAt h.sound htracks
  have hat' := hclose'.tableAt h.sound' htracks'
  rw [h.alike.order] at hat
  rw [h.alike.order', hvtable] at hat'
  exact ⟨vtable, _, _, _, hat, hat'⟩

/-- A vector is closed alike in both orders. -/
theorem Mirrors.counted (h : Mirrors p kept b b') {c c' : Builder} {o : Nat}
    (hcall : b.call .endVector = (.ok (.offset o), c)) (hcall' : b'.call .endVector = (.ok (.offset o), c')) :
    ∃ count, StandsAt c.arena.written o (p.order.encode 4 count) ∧
      StandsAt c'.arena.written o (p.order'.encode 4 count) := by
  obtain ⟨v, hv, -, ho, hputs⟩ := (endVector_call_ends b).of_call_ok hcall
  obtain ⟨v', hv', -, ho', hputs'⟩ := (endVector_call_ends b').of_call_ok hcall'
  obtain rfl : v = v' := Stage.vector.inj (hv.symm.trans (h.alike.stage.symm.trans hv'))
  have hstands : StandsAt c.arena.written c.offset (b.order.encode 4 v.count) := .front hputs.written
  have hstands' : StandsAt c'.arena.written c'.offset (b'.order.encode 4 v.count) := .front hputs'.written
  rw [← Reply.offset.inj ho, h.alike.order] at hstands
  rw [← Reply.offset.inj ho', h.alike.order'] at hstands'
  exact ⟨v.count, hstands, hstands'⟩

/-- One call ends alike but for the bytes of a buffer, and keeps the builders mirrored. -/
theorem Mirrors.call (h : Mirrors p kept b b') (hlimit : p.limit = p.limit') {c : Call}
    (hc : ∀ table slot, c = .required table slot → (.endObject, .ok (.offset table)) ∈ kept) :
    (b'.call c).1.map Reply.hide = (b.call c).1.map Reply.hide ∧
      keep kept (c, (b'.call c).1) = keep kept (c, (b.call c).1) ∧ Alike p (b.call c).2 (b'.call c).2 ∧
      ((b.call c).1 ≠ .error .fault → Mirrors p (keep kept (c, (b.call c).1)) (b.call c).2 (b'.call c).2) := by
  by_cases hdata : c = .finishedData
  · subst hdata
    have hhide (b : Builder) : (b.call .finishedData).1.map Reply.hide =
        ((b.finishedData.map blank).map Reply.bytes).mapError Failure.error := by
      rw [call_finishedData]
      cases b.finishedData with
      | ok bytes => rfl
      | error e => rfl
    have hbytes : b'.finishedData.map blank = b.finishedData.map blank := h.alike.finishedBytes_blank _
    refine ⟨by rw [hhide, hhide, hbytes], rfl, ?_, fun _ => ?_⟩
    · rw [call_finishedData, call_finishedData]
      exact h.alike
    · rw [call_finishedData, call_finishedData]
      exact h
  · obtain ⟨hsame, halike⟩ := (h.alike.call c (h.readsAlike hdata hc)).resolve_right fun hlt =>
      Nat.lt_irrefl _ (hlimit ▸ hlt.1)
    rw [hsame]
    refine ⟨rfl, rfl, halike, fun hfault => ?_⟩
    have hsound := h.sound.call c
    have hsound' := h.sound'.call c
    rcases hcall : b.call c with ⟨outcome, c1⟩
    rcases hcall' : b'.call c with ⟨outcome', c1'⟩
    rw [hcall, hcall'] at hsame halike
    rw [hcall] at hfault hsound
    rw [hcall'] at hsound'
    obtain rfl : outcome' = outcome := hsame
    by_cases hreset : c = .reset
    · subst hreset
      obtain rfl : b.reset = c1 := congrArg Prod.snd hcall
      obtain rfl : b'.reset = c1' := congrArg Prod.snd hcall'
      exact ⟨halike, hsound, hsound', tracked_of_idle rfl, tracked_of_idle rfl,
        fun _ he => (nomatch he), fun _ he => nomatch he⟩
    · have hgrows := extends_of_call hreset hcall
      have hgrows' := extends_of_call hreset hcall'
      rw [keep_of_ne hreset hdata]
      refine ⟨halike, hsound, hsound', h.tracked.call h.sound hcall hfault hreset,
        h.tracked'.call h.sound' hcall' hfault hreset, fun table he => ?_, fun o he => ?_⟩
      · rcases List.mem_append.1 he with he | he
        · obtain ⟨vtable, slots, length, entry, hat, hat'⟩ := h.tables table he
          exact ⟨vtable, slots, length, entry, hat.mono hgrows.written, hat'.mono hgrows'.written⟩
        · obtain ⟨rfl, rfl⟩ := Prod.mk.inj (List.mem_singleton.1 he)
          exact h.closes halike hcall hcall'
      · rcases List.mem_append.1 he with he | he
        · obtain ⟨count, hstands, hstands'⟩ := h.counts o he
          exact ⟨count, hstands.mono hgrows.written, hstands'.mono hgrows'.written⟩
        · obtain ⟨rfl, rfl⟩ := Prod.mk.inj (List.mem_singleton.1 he)
          exact h.counted hcall hcall'

/-- Calls in a row end alike, up to and with the first fault. Without one the builders stay mirrored. -/
theorem Mirrors.run (h : Mirrors p kept b b') (hlimit : p.limit = p.limit')
    (hcalls : ∀ before table slot after, calls = before ++ .required table slot :: after →
      (.endObject, .ok (.offset table)) ∈ (b.history before).foldl keep kept) :
    (b'.run calls).1.map (Except.map Reply.hide) = (b.run calls).1.map (Except.map Reply.hide) ∧
      (b'.history calls).foldl keep kept = (b.history calls).foldl keep kept ∧
      Alike p (b.run calls).2 (b'.run calls).2 ∧
      (.error .fault ∉ (b.run calls).1 →
        Mirrors p ((b.history calls).foldl keep kept) (b.run calls).2 (b'.run calls).2) := by
  -- The events kept so far are part of what the induction carries, for a later call may ask for a table of
  -- an earlier one.
  induction calls generalizing b b' kept with
  | nil => exact ⟨rfl, rfl, h.alike, fun _ => h⟩
  | cons c calls ih =>
    have hfirst := h.call hlimit (c := c) fun table slot hc => hcalls [] table slot calls (by rw [hc]; rfl)
    rcases hcall : b.call c with ⟨outcome, b1⟩
    rcases hcall' : b'.call c with ⟨outcome', b1'⟩
    rw [hcall, hcall'] at hfirst
    obtain ⟨hhide, hkeep, halike, hnext⟩ := hfirst
    have hfaults : outcome' = .error .fault ↔ outcome = .error .fault := by
      cases outcome with
      | ok r =>
        cases outcome' with
        | ok r' => exact ⟨nofun, nofun⟩
        | error f => cases hhide
      | error f =>
        cases outcome' with
        | ok r' => cases hhide
        | error f' =>
          obtain rfl : f' = f := Except.error.inj hhide
          exact Iff.rfl
    by_cases hf : outcome = .error .fault
    · obtain rfl := hf
      obtain rfl := hfaults.2 rfl
      rw [history, history, run_fault hcall, run_fault hcall']
      exact ⟨rfl, rfl, halike, fun hnone => absurd (List.mem_singleton.2 rfl) hnone⟩
    · have hf' := mt hfaults.1 hf
      obtain ⟨hrest, hkept, hend, hmirrors⟩ := ih (hnext hf) fun before table slot after hsplit => by
        have hmem := hcalls (c :: before) table slot after (by rw [hsplit]; rfl)
        rwa [history_cons hcall hf, List.foldl_cons] at hmem
      rw [history_cons hcall hf, history_cons hcall' hf', run_cons hcall hf, run_cons hcall' hf',
        List.foldl_cons, List.foldl_cons, hkeep]
      refine ⟨?_, hkept, hend, fun hnone => hmirrors fun hmem => hnone (List.mem_cons_of_mem _ hmem)⟩
      rw [List.map_cons, List.map_cons, hhide, hrest]

theorem Mirrors.start (hb : b.Fresh) (hb' : b'.Fresh) (hoptions : b'.options = b.options) :
    Mirrors ⟨b.options.maxSize, b.options.maxSize, b.order, b'.order⟩ [] b b' where
  alike := by
    have hblank := hb'.blank
    have hlimit := hb.sound.limit_le
    rw [hoptions] at hblank
    rw [hb.blank.arena.limit_eq] at hlimit
    exact hb.blank.alike hblank (Nat.le_refl _) hlimit rfl rfl
  sound := hb.sound
  sound' := hb'.sound
  tracked := tracked_of_idle hb.idle
  tracked' := tracked_of_idle hb'.idle
  tables := fun _ he => nomatch he
  counts := fun _ he => nomatch he

end Mirrors

end Builder

end TableBuffer
