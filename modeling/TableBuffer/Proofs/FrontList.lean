import TableBuffer.Proofs.Memory

/-!
# The arena as a list that grows at the front

To its user an arena is the list of the written bytes with a bound on its length. The list knows nothing of
room: it asks only whether it would become too long. `perform_map` carries one step to a whole run, once from
the arena to its cells in memory and once to the list.
-/

namespace TableBuffer

namespace Arena

/-- Puts bytes over those from `distance` before the end on, one by one. -/
def putOver (distance : Nat) : List UInt8 → List UInt8 → List UInt8
  | [], xs => xs
  | byte :: bytes, xs => putOver (distance - 1) bytes (xs.set (xs.length - distance) byte)

/-- The answer to an action and the list after it, if a list of at most `limit` bytes is all there is. -/
def frontAct (limit : Nat) (xs : List UInt8) : Action → Outcome Unit × List UInt8
  | .reserve n =>
    if xs.length + n ≤ limit then (.ok (), xs)
    else (.error (.error (.bufferTooLarge (min (xs.length + n) wordMax) limit)), xs)
  | .pad n => (.ok (), List.replicate n 0 ++ xs)
  | .fill bytes => (.ok (), bytes ++ xs)
  | .overwrite distance bytes => (.ok (), putOver distance bytes xs)
  | .clear => (.ok (), [])

/-- The action finds the room that it fills, or the written bytes that it writes over. -/
def Action.Allowed (a : Arena) : Action → Prop
  | reserve _ => True
  | pad n => n ≤ a.headroom
  | fill bytes => bytes.length ≤ a.headroom
  | overwrite offset bytes => offset ≤ a.size ∧ bytes.length ≤ offset
  | clear => True

/-- Each of the actions is allowed when its turn comes. -/
def Allows (a : Arena) : List Action → Prop
  | [] => True
  | x :: rest => x.Allowed a ∧ (a.act x).2.Allows rest

instance (a : Arena) : (x : Action) → Decidable (x.Allowed a)
  | .reserve _ => inferInstanceAs (Decidable True)
  | .pad n => inferInstanceAs (Decidable (n ≤ a.headroom))
  | .fill bytes => inferInstanceAs (Decidable (bytes.length ≤ a.headroom))
  | .overwrite offset bytes => inferInstanceAs (Decidable (offset ≤ a.size ∧ bytes.length ≤ offset))
  | .clear => inferInstanceAs (Decidable True)

instance decidableAllows (a : Arena) : (actions : List Action) → Decidable (a.Allows actions)
  | [] => inferInstanceAs (Decidable True)
  | x :: rest =>
    have := decidableAllows (a.act x).2 rest
    inferInstanceAs (Decidable (x.Allowed a ∧ (a.act x).2.Allows rest))

theorem putOver_eq_splice {distance : Nat} {bytes xs : List UInt8} (hlen : bytes.length ≤ distance)
    (hle : distance ≤ xs.length) : putOver distance bytes xs = splice (xs.length - distance) bytes xs := by
  induction bytes generalizing distance xs with
  | nil => simp [putOver, splice]
  | cons byte bytes ih =>
    rw [List.length_cons] at hlen
    have hset : (xs.set (xs.length - distance) byte).length = xs.length := List.length_set
    rw [putOver, ih (by omega) (by omega), hset]
    apply List.ext_getElem?
    intro i
    rw [getElem?_splice (by omega), getElem?_splice (by rw [List.length_cons]; omega), List.getElem?_set,
      List.length_cons]
    by_cases hi : xs.length - distance = i
    · -- the first byte, which the others leave alone
      rw [if_neg (by omega), if_pos hi, if_pos (by omega), if_pos (by omega), hi, Nat.sub_self]
      rfl
    · rw [if_neg hi]
      by_cases hin : xs.length - (distance - 1) ≤ i ∧ i < xs.length - (distance - 1) + bytes.length
      · have hnext : i - (xs.length - distance) = i - (xs.length - (distance - 1)) + 1 := by omega
        rw [if_pos hin, if_pos (by omega), hnext, List.getElem?_cons_succ]
      · rw [if_neg hin, if_neg (by omega)]

section Run

variable {σ τ : Type} {act : σ → Action → Outcome Unit × σ} {act' : τ → Action → Outcome Unit × τ}

theorem perform_cons (s : σ) (x : Action) (rest : List Action) :
    perform act s (x :: rest) =
      ((act s x).1 :: (perform act (act s x).2 rest).1, (perform act (act s x).2 rest).2) := rfl

/-- Two states that answer every action alike, and stay related by `f`, answer a row of actions alike. -/
theorem perform_map (f : σ → τ) {P : σ → List Action → Prop}
    (hstep : ∀ s x rest, P s (x :: rest) →
      act' (f s) x = ((act s x).1, f (act s x).2) ∧ P (act s x).2 rest)
    {s : σ} {actions : List Action} (h : P s actions) :
    perform act' (f s) actions = ((perform act s actions).1, f (perform act s actions).2) ∧
      P (perform act s actions).2 [] := by
  induction actions generalizing s with
  | nil => exact ⟨rfl, h⟩
  | cons x rest ih =>
    obtain ⟨hact, hrest⟩ := hstep s x rest h
    obtain ⟨hrun, hgood⟩ := ih hrest
    refine ⟨?_, hgood⟩
    rw [perform_cons, perform_cons, hact, hrun]

end Run

theorem frontAct_ne_fault (limit : Nat) (xs : List UInt8) (x : Action) :
    (frontAct limit xs x).1 ≠ .error .fault := by
  cases x with
  | reserve n =>
    rw [frontAct]
    split <;> simp
  | _ => simp [frontAct]

theorem fault_notMem_front (limit : Nat) (xs : List UInt8) (actions : List Action) :
    .error .fault ∉ (perform (frontAct limit) xs actions).1 := by
  induction actions generalizing xs with
  | nil => exact List.not_mem_nil
  | cons x rest ih =>
    rw [perform_cons, List.mem_cons]
    rintro (hx | hrest)
    · exact frontAct_ne_fault limit xs x hx.symm
    · exact ih _ hrest

variable {a : Arena} {limit : Nat}

theorem act_of_ok {b : Arena} {x : Action} (h : a.attempt x = .ok b) : a.act x = (.ok (), b) := by
  rw [act, h]

theorem act_of_error {f : Failure} {x : Action} (h : a.attempt x = .error f) : a.act x = (.error f, a) := by
  rw [act, h]

/-- An allowed action ends as the list says, and keeps the room to the limit. -/
theorem KeepsTo.act_front (h : a.KeepsTo limit) (hlimit : limit < allocationLimit) {x : Action}
    (hx : x.Allowed a) :
    frontAct limit a.written x = ((a.act x).1, (a.act x).2.written) ∧ (a.act x).2.KeepsTo limit := by
  cases x with
  | reserve n =>
    by_cases hn : a.size + n ≤ limit
    · obtain ⟨b, hb, hkeeps, hwritten⟩ := h.reserve_ok hlimit hn
      rw [act_of_ok (x := .reserve n) hb, hwritten]
      exact ⟨if_pos hn, hkeeps⟩
    · rw [act_of_error (x := .reserve n) (h.reserve_error hlimit (Nat.not_le.1 hn))]
      exact ⟨if_neg hn, h⟩
  | pad n =>
    have hroom : (List.replicate n (0 : UInt8)).length ≤ a.headroom := by
      rw [List.length_replicate]
      exact hx
    obtain ⟨b, hb, hkeeps, hwritten⟩ := h.prepend_ok hroom
    rw [← pad_eq_prepend] at hb
    rw [act_of_ok (x := .pad n) hb, hwritten]
    exact ⟨rfl, hkeeps⟩
  | fill bytes =>
    obtain ⟨b, hb, hkeeps, hwritten⟩ := h.prepend_ok hx
    rw [act_of_ok (x := .fill bytes) hb, hwritten]
    exact ⟨rfl, hkeeps⟩
  | overwrite offset bytes =>
    obtain ⟨hoffset, hbytes⟩ := hx
    rw [act_of_ok (x := .overwrite offset bytes) (overwrite_eq hoffset hbytes), frontAct,
      putOver_eq_splice hbytes hoffset]
    exact ⟨rfl, h.setWritten (length_splice (by rw [← size]; omega))⟩
  | clear => exact ⟨rfl, h.clear⟩

theorem keepsTo_empty (capacity limit : Nat) : (empty capacity limit).KeepsTo limit :=
  ⟨rfl, Nat.min_le_right capacity limit⟩

/-- The arena keeps to the limit and allows what is to come. -/
structure Ready (limit : Nat) (a : Arena) (actions : List Action) : Prop where
  keeps : a.KeepsTo limit
  allows : a.Allows actions

theorem Ready.next {x : Action} {rest : List Action} (h : Ready limit a (x :: rest))
    (hlimit : limit < allocationLimit) : Ready limit (a.act x).2 rest :=
  ⟨(h.keeps.act_front hlimit h.allows.1).2, h.allows.2⟩

/-- Allowed actions end as the list says. -/
theorem Ready.perform_front {actions : List Action} (h : Ready limit a actions)
    (hlimit : limit < allocationLimit) :
    perform (frontAct limit) a.written actions = ((perform act a actions).1, (perform act a actions).2.written) ∧
      (perform act a actions).2.KeepsTo limit := by
  obtain ⟨hrun, hend⟩ := perform_map (P := Ready limit) written
    (fun _ _ _ hs => ⟨(hs.keeps.act_front hlimit hs.allows.1).1, hs.next hlimit⟩) h
  exact ⟨hrun, hend.keeps⟩

/-- The cells in memory end as the arena does. -/
theorem Ready.perform_block {actions : List Action} (h : Ready limit a actions)
    (hlimit : limit < allocationLimit) :
    perform Block.act a.block actions = ((perform act a actions).1, (perform act a actions).2.block) :=
  (perform_map (P := Ready limit) block
    (fun _ x _ hs => ⟨block_act hs.keeps.fits (hs.keeps.limit_eq ▸ hlimit) x, hs.next hlimit⟩) h).1

/-- Room is made just as long as the limit leaves it. It changes nothing that is written, and it can then be
filled. -/
theorem KeepsTo.act_reserve (h : a.KeepsTo limit) (hlimit : limit < allocationLimit) (n : Nat) :
    ((a.act (.reserve n)).1 = .ok () ↔ a.size + n ≤ limit) ∧
    (a.act (.reserve n)).2.written = a.written ∧
    (a.size + n ≤ limit → n ≤ (a.act (.reserve n)).2.headroom) ∧
    (limit < a.size + n →
      a.act (.reserve n) = (.error (.error (.bufferTooLarge (min (a.size + n) wordMax) limit)), a)) := by
  by_cases hn : a.size + n ≤ limit
  · obtain ⟨b, hb, -, hwritten⟩ := h.reserve_ok hlimit hn
    rw [act_of_ok (x := .reserve n) hb]
    exact ⟨iff_of_true rfl hn, hwritten, fun _ => (reserve_eq_ok hb).2.2.1,
      fun hlt => absurd hn (Nat.not_le.2 hlt)⟩
  · have hact := act_of_error (x := .reserve n) (h.reserve_error hlimit (Nat.not_le.1 hn))
    rw [hact]
    exact ⟨iff_of_false nofun hn, rfl, fun hle => absurd hle hn, fun _ => rfl⟩

/-- After any row of allowed actions the arena and its cells in memory hold the bytes of the list and have answered
as the list, never with a fault. The room stays between what is written and the limit. More room is made just as
long as the limit leaves it beside the bytes of the list, and as many bytes can then be filled in; a refusal
changes no cell. -/
theorem arena_grows_at_front (capacity : Nat) {limit : Nat} (hlimit : limit ≤ maxBufferSize)
    {actions : List Action} (hactions : (empty capacity limit).Allows actions) :
    (empty capacity limit).allocated = .ok (empty capacity limit) ∧
    ∃ answers a b xs,
      perform act (empty capacity limit) actions = (answers, a) ∧
      perform Block.act (Block.empty capacity limit) actions = (answers, b) ∧
      perform (frontAct limit) [] actions = (answers, xs) ∧ .error .fault ∉ answers ∧
      a.written = xs ∧ b.written = xs ∧ b.cells.length = a.capacity ∧ b.head = a.headroom ∧
      xs.length ≤ a.capacity ∧ a.capacity ≤ limit ∧
      ∀ n, let r := a.act (.reserve n)
        (r.1 = .ok () ↔ xs.length + n ≤ limit) ∧ b.act (.reserve n) = (r.1, r.2.block) ∧ r.2.written = xs ∧
        (xs.length + n ≤ limit → n ≤ r.2.headroom ∧
          ∀ bytes, bytes.length ≤ n → ∃ c, r.2.act (.fill bytes) = (.ok (), c) ∧ c.written = bytes ++ xs) ∧
        (limit < xs.length + n →
          r = (.error (.error (.bufferTooLarge (min (xs.length + n) wordMax) limit)), a) ∧
            (b.act (.reserve n)).2 = b) := by
  have hroom : limit < allocationLimit := Nat.lt_of_le_of_lt hlimit (by decide)
  have hempty : Ready limit (empty capacity limit) actions := ⟨keepsTo_empty capacity limit, hactions⟩
  obtain ⟨hfront, hkeeps⟩ := hempty.perform_front hroom
  have hblock := hempty.perform_block hroom
  rw [block_empty] at hblock
  refine ⟨allocated_empty hroom capacity, ?_⟩
  generalize perform act (empty capacity limit) actions = run at *
  obtain ⟨answers, a⟩ := run
  have hfault : .error .fault ∉ answers := by
    have h := fault_notMem_front limit [] actions
    rwa [show perform (frontAct limit) [] actions = (answers, a.written) from hfront] at h
  refine ⟨answers, a, a.block, a.written, rfl, hblock, hfront, hfault, rfl, written_block a, length_cells a, rfl,
    Nat.le_add_left .., hkeeps.limit_eq ▸ hkeeps.fits, fun n => ?_⟩
  obtain ⟨hok, hwritten, hlarge, hrefused⟩ := hkeeps.act_reserve hroom n
  have hact := block_act hkeeps.fits (hkeeps.limit_eq ▸ hroom) (.reserve n)
  refine ⟨hok, hact, hwritten, fun hn => ⟨hlarge hn, fun bytes hlen => ?_⟩, fun hn => ⟨hrefused hn, ?_⟩⟩
  · obtain ⟨c, hc, -, hfilled⟩ := (hkeeps.act_front hroom (x := .reserve n) trivial).2.prepend_ok
      (Nat.le_trans hlen (hlarge hn))
    exact ⟨c, act_of_ok (x := .fill bytes) hc, by rw [hfilled, hwritten]⟩
  · rw [hact, hrefused hn]

/-- Two growths, a byte changed, a refusal, and room that is filled again over what it held. -/
def refilled : List Action :=
  [.reserve 2, .fill [7, 8], .reserve 10, .pad 3, .overwrite 2 [9], .reserve 12, .clear, .fill [1, 2], .reserve 14]

theorem arena_grows_at_front_refilled :
    16 ≤ maxBufferSize ∧ (empty 2 16).Allows refilled ∧
      ∃ a b, (perform act (empty 2 16) refilled).2 = a ∧ (perform Block.act (Block.empty 2 16) refilled).2 = b ∧
        a.written = [1, 2] ∧ b.written = [1, 2] ∧ b.cells.length = a.capacity ∧
        (a.act (.reserve 14)).1 = .ok () ∧
        a.act (.reserve 15) = (.error (.error (.bufferTooLarge 17 16)), a) := by
  have hlimit : 16 ≤ maxBufferSize := by decide
  have hallows : (empty 2 16).Allows refilled := by decide
  obtain ⟨-, answers, a, b, xs, ha, hb, hxs, -, hwritten, hcells, hlength, -, -, -, hreserve⟩ :=
    arena_grows_at_front 2 hlimit hallows
  obtain rfl : [1, 2] = xs := congrArg Prod.snd hxs
  exact ⟨hlimit, hallows, a, b, congrArg Prod.snd ha, congrArg Prod.snd hb, hwritten, hcells, hlength,
    (hreserve 14).1.2 (by decide), ((hreserve 15).2.2.2.2 (by decide)).1⟩

end Arena

end TableBuffer
