import TableBuffer.Text.Utf8

/-!
# Text is read back

Decoding the bytes of a text gives the text. The bytes of one character are the head of any run of bytes
that begins with them, and a text is its characters one after the other. No other bytes decode to it: a head
takes just the bytes of its character, so there are no short forms, and surrogates are no characters.
-/

namespace TableBuffer.Utf8

theorem toList_loop (bytes : ByteArray) (i : Nat) (seen : List UInt8) :
    ByteArray.toList.loop bytes i seen = seen.reverse ++ bytes.data.toList.drop i := by
  fun_induction ByteArray.toList.loop bytes i seen with
  | case1 i seen hi ih =>
    have hlen : i < bytes.data.toList.length := by simpa using hi
    have hget : bytes.get! i = bytes.data.toList[i] := by
      cases bytes
      exact getElem!_pos _ i hi
    rw [ih, hget, List.drop_eq_getElem_cons hlen, List.reverse_cons, List.append_assoc]
    rfl
  | case2 i seen hi =>
    have hlen : bytes.data.toList.length ≤ i := by simpa using hi
    rw [List.drop_eq_nil_of_le hlen, List.append_nil]

theorem toList_toUTF8 (s : String) : s.toUTF8.toList = s.toList.flatMap String.utf8EncodeChar := by
  rw [String.toUTF8_eq_toByteArray, ← String.utf8Encode_toList, ByteArray.toList, toList_loop]
  exact List.toList_data_toByteArray

theorem toNat_byte {n : Nat} (h : n < 256) : (UInt8.ofNat n).toNat = n := by
  rw [UInt8.toNat_ofNat']
  exact Nat.mod_eq_of_lt h

theorem isContinuation_iff {b : UInt8} : isContinuation b = true ↔ 0x80 ≤ b.toNat ∧ b.toNat ≤ 0xBF := by
  simp [isContinuation, UInt8.le_iff_toNat_le]

/-- The low six bits of a number, as a byte that continues a character. -/
theorem continuation_low (n : Nat) : isContinuation (UInt8.ofNat (n % 64 + 0x80)) = true ∧
    payload (UInt8.ofNat (n % 64 + 0x80)) = n % 64 := by
  have hbyte : (UInt8.ofNat (n % 64 + 0x80)).toNat = n % 64 + 0x80 := toNat_byte (by omega)
  constructor
  · rw [isContinuation_iff, hbyte]
    omega
  · rw [payload, hbyte]
    omega

theorem followsFirstOfThree_of {b c : UInt8} (hc : isContinuation c = true)
    (hlow : b.toNat = 0xE0 → 0xA0 ≤ c.toNat) (hhigh : b.toNat = 0xED → c.toNat ≤ 0x9F) :
    followsFirstOfThree b c = true := by
  have hrange := isContinuation_iff.1 hc
  unfold followsFirstOfThree
  split
  · rename_i hb
    have h := hlow (congrArg UInt8.toNat hb)
    simp only [Bool.and_eq_true, decide_eq_true_eq, UInt8.le_iff_toNat_le]
    exact ⟨h, hrange.2⟩
  · split
    · rename_i hb
      have h := hhigh (congrArg UInt8.toNat hb)
      simp only [Bool.and_eq_true, decide_eq_true_eq, UInt8.le_iff_toNat_le]
      exact ⟨hrange.1, h⟩
    · exact hc

theorem followsFirstOfFour_of {b c : UInt8} (hc : isContinuation c = true)
    (hlow : b.toNat = 0xF0 → 0x90 ≤ c.toNat) (hhigh : b.toNat = 0xF4 → c.toNat ≤ 0x8F) :
    followsFirstOfFour b c = true := by
  have hrange := isContinuation_iff.1 hc
  unfold followsFirstOfFour
  split
  · rename_i hb
    have h := hlow (congrArg UInt8.toNat hb)
    simp only [Bool.and_eq_true, decide_eq_true_eq, UInt8.le_iff_toNat_le]
    exact ⟨h, hrange.2⟩
  · split
    · rename_i hb
      have h := hhigh (congrArg UInt8.toNat hb)
      simp only [Bool.and_eq_true, decide_eq_true_eq, UInt8.le_iff_toNat_le]
      exact ⟨hrange.1, h⟩
    · exact hc

section Heads

variable {b c d e : UInt8} {rest : List UInt8}

theorem head_of_one (hb : b.toNat < 0x80) : head b rest = .char (Char.ofNat b.toNat) 0 := by
  have h1 : b < 0x80 := UInt8.lt_iff_toNat_lt.2 hb
  unfold head
  rw [if_pos h1]

theorem head_of_two (hlow : 0xC2 ≤ b.toNat) (hhigh : b.toNat ≤ 0xDF) (hc : isContinuation c = true) :
    head b (c :: rest) = .char (Char.ofNat (b.toNat % 32 * 64 + payload c)) 1 := by
  have h1 : ¬ b < 0x80 := fun h => by
    have hlt : b.toNat < 0x80 := UInt8.lt_iff_toNat_lt.1 h
    omega
  have h2 : 0xC2 ≤ b ∧ b ≤ 0xDF := ⟨UInt8.le_iff_toNat_le.2 hlow, UInt8.le_iff_toNat_le.2 hhigh⟩
  unfold head
  rw [if_neg h1, if_pos h2]
  dsimp only
  rw [if_pos hc]

theorem head_of_three (hlow : 0xE0 ≤ b.toNat) (hhigh : b.toNat ≤ 0xEF)
    (hc : followsFirstOfThree b c = true) (hd : isContinuation d = true) :
    head b (c :: d :: rest) =
      .char (Char.ofNat ((b.toNat % 16 * 64 + payload c) * 64 + payload d)) 2 := by
  have h1 : ¬ b < 0x80 := fun h => by
    have hlt : b.toNat < 0x80 := UInt8.lt_iff_toNat_lt.1 h
    omega
  have h2 : ¬ (0xC2 ≤ b ∧ b ≤ 0xDF) := fun h => by
    have hle : b.toNat ≤ 0xDF := UInt8.le_iff_toNat_le.1 h.2
    omega
  have h3 : 0xE0 ≤ b ∧ b ≤ 0xEF := ⟨UInt8.le_iff_toNat_le.2 hlow, UInt8.le_iff_toNat_le.2 hhigh⟩
  unfold head
  rw [if_neg h1, if_neg h2, if_pos h3]
  dsimp only
  rw [if_pos hc, if_pos hd]

theorem head_of_four (hlow : 0xF0 ≤ b.toNat) (hhigh : b.toNat ≤ 0xF4)
    (hc : followsFirstOfFour b c = true) (hd : isContinuation d = true) (he : isContinuation e = true) :
    head b (c :: d :: e :: rest) =
      .char (Char.ofNat (((b.toNat % 8 * 64 + payload c) * 64 + payload d) * 64 + payload e)) 3 := by
  have h1 : ¬ b < 0x80 := fun h => by
    have hlt : b.toNat < 0x80 := UInt8.lt_iff_toNat_lt.1 h
    omega
  have h2 : ¬ (0xC2 ≤ b ∧ b ≤ 0xDF) := fun h => by
    have hle : b.toNat ≤ 0xDF := UInt8.le_iff_toNat_le.1 h.2
    omega
  have h3 : ¬ (0xE0 ≤ b ∧ b ≤ 0xEF) := fun h => by
    have hle : b.toNat ≤ 0xEF := UInt8.le_iff_toNat_le.1 h.2
    omega
  have h4 : 0xF0 ≤ b ∧ b ≤ 0xF4 := ⟨UInt8.le_iff_toNat_le.2 hlow, UInt8.le_iff_toNat_le.2 hhigh⟩
  unfold head
  rw [if_neg h1, if_neg h2, if_neg h3, if_pos h4]
  dsimp only
  rw [if_pos hc, if_pos hd, if_pos he]

end Heads

/-- The encoding of a character is the head of what it begins. -/
theorem head_utf8EncodeChar (c : Char) (rest : List UInt8) :
    ∃ b tail, String.utf8EncodeChar c = b :: tail ∧ head b (tail ++ rest) = .char c tail.length := by
  have hrange : c.val.toNat < 0xD800 ∨ 0xDFFF < c.val.toNat ∧ c.val.toNat < 0x110000 := c.valid
  have hchar : Char.ofNat c.val.toNat = c := Char.ofNat_toNat c
  unfold String.utf8EncodeChar
  generalize c.val.toNat = v at hrange hchar ⊢
  obtain ⟨hlast, hlastp⟩ := continuation_low v
  obtain ⟨hmid, hmidp⟩ := continuation_low (v / 64)
  obtain ⟨htop, htopp⟩ := continuation_low (v / 4096)
  have hmidn : (UInt8.ofNat (v / 64 % 64 + 0x80)).toNat = v / 64 % 64 + 0x80 := toNat_byte (by omega)
  have htopn : (UInt8.ofNat (v / 4096 % 64 + 0x80)).toNat = v / 4096 % 64 + 0x80 :=
    toNat_byte (by omega)
  dsimp only
  by_cases h1 : v ≤ 0x7F
  · have hb : (UInt8.ofNat v).toNat = v := toNat_byte (by omega)
    rw [if_pos h1]
    refine ⟨_, _, rfl, (head_of_one (by omega)).trans ?_⟩
    rw [hb, hchar]
    rfl
  rw [if_neg h1]
  by_cases h2 : v ≤ 0x7FF
  · have hb : (UInt8.ofNat (v / 64 % 0x20 + 0xc0)).toNat = v / 64 % 32 + 0xC0 := toNat_byte (by omega)
    have hsum : (v / 64 % 32 + 0xC0) % 32 * 64 + v % 64 = v := by omega
    rw [if_pos h2]
    refine ⟨_, _, rfl, (head_of_two (by omega) (by omega) hlast).trans ?_⟩
    rw [hb, hlastp, hsum, hchar]
    rfl
  rw [if_neg h2]
  by_cases h3 : v ≤ 0xFFFF
  · have hb : (UInt8.ofNat (v / 4096 % 0x10 + 0xe0)).toNat = v / 4096 % 16 + 0xE0 :=
      toNat_byte (by omega)
    have hsum : ((v / 4096 % 16 + 0xE0) % 16 * 64 + v / 64 % 64) * 64 + v % 64 = v := by omega
    have hfollows : followsFirstOfThree (UInt8.ofNat (v / 4096 % 0x10 + 0xe0))
        (UInt8.ofNat (v / 64 % 0x40 + 0x80)) = true :=
      followsFirstOfThree_of hmid (by omega) (by omega)
    rw [if_pos h3]
    refine ⟨_, _, rfl, (head_of_three (by omega) (by omega) hfollows hlast).trans ?_⟩
    rw [hb, hmidp, hlastp, hsum, hchar]
    rfl
  rw [if_neg h3]
  have hb : (UInt8.ofNat (v / 262144 % 0x08 + 0xf0)).toNat = v / 262144 % 8 + 0xF0 :=
    toNat_byte (by omega)
  have hsum : (((v / 262144 % 8 + 0xF0) % 8 * 64 + v / 4096 % 64) * 64 + v / 64 % 64) * 64 + v % 64 =
      v := by
    omega
  have hfollows : followsFirstOfFour (UInt8.ofNat (v / 262144 % 0x08 + 0xf0))
      (UInt8.ofNat (v / 4096 % 0x40 + 0x80)) = true :=
    followsFirstOfFour_of htop (by omega) (by omega)
  refine ⟨_, _, rfl, (head_of_four (by omega) (by omega) hfollows hmid hlast).trans ?_⟩
  rw [hb, htopp, hmidp, hlastp, hsum, hchar]
  rfl

theorem decodeFrom_chars (index : Nat) (seen chars : List Char) :
    decodeFrom index seen (chars.flatMap String.utf8EncodeChar) = .ok (seen.reverse ++ chars) := by
  induction chars generalizing index seen with
  | nil => rw [List.flatMap_nil, decodeFrom, List.append_nil]
  | cons c chars ih =>
    obtain ⟨b, tail, hbytes, hhead⟩ :=
      head_utf8EncodeChar c (chars.flatMap String.utf8EncodeChar)
    rw [List.flatMap_cons, hbytes, List.cons_append, decodeFrom, hhead]
    dsimp only
    rw [List.drop_left, ih, List.reverse_cons, List.append_assoc]
    rfl

/-- The bytes of a text decode to the text. -/
theorem decode_toUTF8 (s : String) : decode s.toUTF8.toList = .ok s := by
  rw [decode, toList_toUTF8, decodeFrom_chars, List.reverse_nil, List.nil_append]
  exact congrArg Except.ok String.ofList_toList

section Encodings

theorem toNat_ofNat_char {v : Nat} (h : v < 0xD800 ∨ 0xDFFF < v ∧ v < 0x110000) :
    (Char.ofNat v).val.toNat = v := by
  have hvalid : v.isValidChar := h
  rw [Char.ofNat, dif_pos hvalid]
  rfl

theorem ofNat_eq_of_toNat {b : UInt8} {n : Nat} (h : n = b.toNat) : UInt8.ofNat n = b := by
  rw [h]
  exact UInt8.ofNat_toNat

theorem of_followsFirstOfThree {b c : UInt8} (h : followsFirstOfThree b c = true) :
    isContinuation c = true ∧ (b.toNat = 0xE0 → 0xA0 ≤ c.toNat) ∧ (b.toNat = 0xED → c.toNat ≤ 0x9F) := by
  rw [isContinuation_iff]
  unfold followsFirstOfThree at h
  split at h
  · rename_i hb
    have hfirst : b.toNat = 0xE0 := congrArg UInt8.toNat hb
    simp only [Bool.and_eq_true, decide_eq_true_eq, UInt8.le_iff_toNat_le] at h
    have hrange : 0xA0 ≤ c.toNat ∧ c.toNat ≤ 0xBF := h
    omega
  · rename_i hb
    have hfirst : b.toNat ≠ 0xE0 := fun hnat => hb (UInt8.toNat_inj.1 hnat)
    split at h
    · rename_i hb
      have hlast : b.toNat = 0xED := congrArg UInt8.toNat hb
      simp only [Bool.and_eq_true, decide_eq_true_eq, UInt8.le_iff_toNat_le] at h
      have hrange : 0x80 ≤ c.toNat ∧ c.toNat ≤ 0x9F := h
      omega
    · rename_i hb
      have hlast : b.toNat ≠ 0xED := fun hnat => hb (UInt8.toNat_inj.1 hnat)
      exact ⟨isContinuation_iff.1 h, fun hnat => absurd hnat hfirst, fun hnat => absurd hnat hlast⟩

theorem of_followsFirstOfFour {b c : UInt8} (h : followsFirstOfFour b c = true) :
    isContinuation c = true ∧ (b.toNat = 0xF0 → 0x90 ≤ c.toNat) ∧ (b.toNat = 0xF4 → c.toNat ≤ 0x8F) := by
  rw [isContinuation_iff]
  unfold followsFirstOfFour at h
  split at h
  · rename_i hb
    have hfirst : b.toNat = 0xF0 := congrArg UInt8.toNat hb
    simp only [Bool.and_eq_true, decide_eq_true_eq, UInt8.le_iff_toNat_le] at h
    have hrange : 0x90 ≤ c.toNat ∧ c.toNat ≤ 0xBF := h
    omega
  · rename_i hb
    have hfirst : b.toNat ≠ 0xF0 := fun hnat => hb (UInt8.toNat_inj.1 hnat)
    split at h
    · rename_i hb
      have hlast : b.toNat = 0xF4 := congrArg UInt8.toNat hb
      simp only [Bool.and_eq_true, decide_eq_true_eq, UInt8.le_iff_toNat_le] at h
      have hrange : 0x80 ≤ c.toNat ∧ c.toNat ≤ 0x8F := h
      omega
    · rename_i hb
      have hlast : b.toNat ≠ 0xF4 := fun hnat => hb (UInt8.toNat_inj.1 hnat)
      exact ⟨isContinuation_iff.1 h, fun hnat => absurd hnat hfirst, fun hnat => absurd hnat hlast⟩

variable {b c d e : UInt8}

theorem encode_one (hb : b.toNat < 0x80) : String.utf8EncodeChar (Char.ofNat b.toNat) = [b] := by
  unfold String.utf8EncodeChar
  rw [toNat_ofNat_char (by omega)]
  dsimp only
  rw [if_pos (by omega), ofNat_eq_of_toNat rfl]

theorem encode_two (hlow : 0xC2 ≤ b.toNat) (hhigh : b.toNat ≤ 0xDF) (hc : isContinuation c = true) :
    String.utf8EncodeChar (Char.ofNat (b.toNat % 32 * 64 + payload c)) = [b, c] := by
  have hrange := isContinuation_iff.1 hc
  have hpayload : payload c = c.toNat % 64 := rfl
  generalize hn : b.toNat % 32 * 64 + payload c = n
  unfold String.utf8EncodeChar
  rw [toNat_ofNat_char (by omega)]
  dsimp only
  rw [if_neg (by omega), if_pos (by omega), ofNat_eq_of_toNat (b := b) (by omega),
    ofNat_eq_of_toNat (b := c) (by omega)]

theorem encode_three (hlow : 0xE0 ≤ b.toNat) (hhigh : b.toNat ≤ 0xEF)
    (hc : followsFirstOfThree b c = true) (hd : isContinuation d = true) :
    String.utf8EncodeChar (Char.ofNat ((b.toNat % 16 * 64 + payload c) * 64 + payload d)) = [b, c, d] := by
  obtain ⟨hcont, hshort, hsurrogate⟩ := of_followsFirstOfThree hc
  have hcrange := isContinuation_iff.1 hcont
  have hdrange := isContinuation_iff.1 hd
  have hcpayload : payload c = c.toNat % 64 := rfl
  have hdpayload : payload d = d.toNat % 64 := rfl
  generalize hn : (b.toNat % 16 * 64 + payload c) * 64 + payload d = n
  unfold String.utf8EncodeChar
  rw [toNat_ofNat_char (by omega)]
  dsimp only
  rw [if_neg (by omega), if_neg (by omega), if_pos (by omega), ofNat_eq_of_toNat (b := b) (by omega),
    ofNat_eq_of_toNat (b := c) (by omega), ofNat_eq_of_toNat (b := d) (by omega)]

theorem encode_four (hlow : 0xF0 ≤ b.toNat) (hhigh : b.toNat ≤ 0xF4)
    (hc : followsFirstOfFour b c = true) (hd : isContinuation d = true) (he : isContinuation e = true) :
    String.utf8EncodeChar (Char.ofNat (((b.toNat % 8 * 64 + payload c) * 64 + payload d) * 64 + payload e)) =
      [b, c, d, e] := by
  obtain ⟨hcont, hshort, hpast⟩ := of_followsFirstOfFour hc
  have hcrange := isContinuation_iff.1 hcont
  have hdrange := isContinuation_iff.1 hd
  have herange := isContinuation_iff.1 he
  have hcpayload : payload c = c.toNat % 64 := rfl
  have hdpayload : payload d = d.toNat % 64 := rfl
  have hepayload : payload e = e.toNat % 64 := rfl
  generalize hn : ((b.toNat % 8 * 64 + payload c) * 64 + payload d) * 64 + payload e = n
  unfold String.utf8EncodeChar
  rw [toNat_ofNat_char (by omega)]
  dsimp only
  rw [if_neg (by omega), if_neg (by omega), if_neg (by omega), ofNat_eq_of_toNat (b := b) (by omega),
    ofNat_eq_of_toNat (b := c) (by omega), ofNat_eq_of_toNat (b := d) (by omega),
    ofNat_eq_of_toNat (b := e) (by omega)]

end Encodings

/-- Where a character was found, there are the bytes of it. -/
theorem encode_of_head {b : UInt8} {rest : List UInt8} {c : Char} {more : Nat}
    (h : head b rest = .char c more) : String.utf8EncodeChar c = b :: rest.take more := by
  revert h
  fun_cases head b rest with
  | case1 rest hb =>
    intro h
    cases h
    exact encode_one (UInt8.lt_iff_toNat_lt.1 hb)
  | case3 _ hb c _ hc =>
    intro h
    cases h
    exact encode_two (UInt8.le_iff_toNat_le.1 hb.1) (UInt8.le_iff_toNat_le.1 hb.2) hc
  | case7 _ _ hb c hc d tail hd =>
    intro h
    cases h
    exact encode_three (UInt8.le_iff_toNat_le.1 hb.1) (UInt8.le_iff_toNat_le.1 hb.2) hc hd
  | case13 _ _ _ hb c hc d hd e tail he =>
    intro h
    cases h
    exact encode_four (UInt8.le_iff_toNat_le.1 hb.1) (UInt8.le_iff_toNat_le.1 hb.2) hc hd he
  | _ => exact nofun

theorem flatMap_of_decodeFrom {index : Nat} {seen : List Char} {bytes : List UInt8} {chars : List Char}
    (h : decodeFrom index seen bytes = .ok chars) :
    chars.flatMap String.utf8EncodeChar = seen.reverse.flatMap String.utf8EncodeChar ++ bytes := by
  fun_induction decodeFrom index seen bytes with
  | case1 index seen =>
    cases h
    rw [List.append_nil]
  | case2 index seen b rest c more hhead ih =>
    rw [ih h, List.reverse_cons, List.flatMap_append, List.flatMap_singleton, encode_of_head hhead,
      List.append_assoc, List.cons_append, List.take_append_drop]
  | case3 => cases h
  | case4 => cases h

/-- Bytes decode to the text that they are the bytes of, and to no other. -/
theorem decode_eq_ok_iff {bytes : List UInt8} {s : String} : decode bytes = .ok s ↔ s.toUTF8.toList = bytes := by
  constructor
  · intro h
    unfold decode at h
    cases hchars : decodeFrom 0 [] bytes with
    | error f =>
      rw [hchars] at h
      cases h
    | ok chars =>
      rw [hchars] at h
      obtain rfl : String.ofList chars = s := Except.ok.inj h
      rw [toList_toUTF8, String.toList_ofList]
      exact flatMap_of_decodeFrom hchars
  · rintro rfl
    exact decode_toUTF8 s

end TableBuffer.Utf8
