import Emend.Storage.Loading

/-!
# Texts as bytes and back

The bytes of a character are read as that character whatever follows them, and a proper beginning of
them is read as so many bytes that are no character. Both come from what `CharBytes` says about the
bytes of a character: one byte, or a byte that leads as many others as there are, each within the
bounds that `complete` checks.

So the bytes of a text are read as the text, and their beginning as a beginning of the text with at
most three stray bytes after it. Those are fewer than the characters before them, which is why a
text without null and replacement characters never looks binary.
-/

namespace Emend

namespace Utf8

variable {low high missing taken code : Nat} {bytes rest : List UInt8} {c : Char}

/-- Bytes that can go on with a character whose next byte lies within these bounds. -/
def Continues (low high : Nat) : List UInt8 → Prop
  | [] => True
  | byte :: rest => low ≤ byte.toNat ∧ byte.toNat ≤ high ∧ Continues 0x80 0xbf rest

/-- The code point that these bytes make of the bits before them. -/
def codeFrom (bits : Nat) (bytes : List UInt8) : Nat :=
  bytes.foldl (fun code byte => 64 * code + byte.toNat % 64) bits

/-- Bytes that go on with a character complete it. -/
theorem complete_append (h : Continues low high bytes) (rest : List UInt8) :
    complete low high bytes.length taken code (bytes ++ rest) =
      (.char (Char.ofNat (codeFrom code bytes)), rest) := by
  induction bytes generalizing low high taken code with
  | nil => rfl
  | cons byte bytes ih =>
    obtain ⟨hlow, hhigh, hbytes⟩ := h
    rw [List.length_cons, List.cons_append, complete, if_pos (by simp [hlow, hhigh]), ih hbytes]
    rfl

/-- Too few of them do not. -/
theorem complete_of_length_lt (h : Continues low high bytes) (hlt : bytes.length < missing) :
    complete low high missing taken code bytes = (.broken (taken + bytes.length), []) := by
  induction bytes generalizing low high missing taken code with
  | nil =>
    match missing, hlt with
    | missing + 1, _ => rfl
  | cons byte bytes ih =>
    obtain ⟨hlow, hhigh, hbytes⟩ := h
    match missing, hlt with
    | missing + 1, hlt =>
      rw [complete, if_pos (by simp [hlow, hhigh]), ih hbytes (Nat.lt_of_succ_lt_succ hlt),
        List.length_cons, Nat.add_assoc, Nat.add_comm 1]

/-- The first bytes of a continuation are one. -/
theorem Continues.take (h : Continues low high bytes) (count : Nat) :
    Continues low high (bytes.take count) := by
  induction bytes generalizing low high count with
  | nil => simpa using h
  | cons byte bytes ih =>
    cases count with
    | zero => trivial
    | succ count => exact ⟨h.1, h.2.1, ih h.2.2 count⟩

/-- What the reader asks of the bytes of a character. -/
inductive CharBytes (c : Char) : List UInt8 → Prop where
  /-- A character of one byte. -/
  | short {byte : UInt8} (small : byte.toNat < 0x80) (code : Char.ofNat byte.toNat = c) :
    CharBytes c [byte]
  /-- A character of several bytes. -/
  | long {byte : UInt8} {tail : List UInt8} {low high bits : Nat} (large : 0x80 ≤ byte.toNat)
    (leads : lead? byte = some (tail.length, low, high, bits)) (few : tail.length ≤ 3)
    (continues : Continues low high tail) (code : Char.ofNat (codeFrom bits tail) = c) :
    CharBytes c (byte :: tail)

/-- A number below 256 comes through a byte unchanged. -/
theorem toNat_ofNat {n : Nat} (h : n < 256) : (UInt8.ofNat n).toNat = n :=
  UInt8.toNat_ofNat_of_lt' h

/-- The byte that leads two. -/
theorem lead?_two {bits : Nat} (hlow : 2 ≤ bits) (hhigh : bits < 32) :
    lead? (UInt8.ofNat (bits + 192)) = some (1, 0x80, 0xbf, bits) := by
  unfold lead?
  rw [toNat_ofNat (by omega)]
  simp only [Bool.and_eq_true, decide_eq_true_eq]
  rw [if_pos (by omega), Nat.add_sub_cancel]

/-- The byte that leads three. Only the first and the last code points of its range bound the next
byte further. -/
theorem lead?_three : ∀ bits < 16, lead? (UInt8.ofNat (bits + 224)) =
    some (2, if bits = 0 then 0xa0 else 0x80, if bits = 13 then 0x9f else 0xbf, bits) := by
  decide

/-- The byte that leads four. -/
theorem lead?_four : ∀ bits < 5, lead? (UInt8.ofNat (bits + 240)) =
    some (3, if bits = 0 then 0x90 else 0x80, if bits = 4 then 0x8f else 0xbf, bits) := by
  decide

/-- The bytes of a character are as the reader asks. -/
theorem charBytes_utf8EncodeChar (c : Char) : CharBytes c (String.utf8EncodeChar c) := by
  have hvalid : c.val.toNat < 0xd800 ∨ 0xdfff < c.val.toNat ∧ c.val.toNat < 0x110000 := c.valid
  have hcode {code : Nat} (h : code = c.val.toNat) : Char.ofNat code = c := by
    rw [h]
    exact Char.ofNat_toNat c
  -- The last byte and the one before it carry six bits each.
  unfold String.utf8EncodeChar
  generalize c.val.toNat = v at hvalid hcode
  have hlast : (UInt8.ofNat (v % 64 + 128)).toNat = v % 64 + 128 := toNat_ofNat (by omega)
  have hmiddle : (UInt8.ofNat (v / 64 % 64 + 128)).toNat = v / 64 % 64 + 128 :=
    toNat_ofNat (by omega)
  dsimp only
  -- One byte, two, three or four.
  split
  · exact .short (by rw [toNat_ofNat (by omega)]; omega) (hcode (toNat_ofNat (by omega)))
  split
  · have hfirst : (UInt8.ofNat (v / 64 % 32 + 192)).toNat = v / 64 % 32 + 192 :=
      toNat_ofNat (by omega)
    refine .long (by omega) (lead?_two (by omega) (by omega)) (by simp)
      ⟨by omega, by omega, trivial⟩ (hcode ?_)
    simp only [codeFrom, List.foldl_cons, List.foldl_nil, hlast]
    omega
  split
  · have hfirst : (UInt8.ofNat (v / 4096 % 16 + 224)).toNat = v / 4096 % 16 + 224 :=
      toNat_ofNat (by omega)
    refine .long (by omega) (lead?_three _ (by omega)) (by simp)
      ⟨?_, ?_, by omega, by omega, trivial⟩ (hcode ?_)
    · split <;> omega
    · split <;> omega
    · simp only [codeFrom, List.foldl_cons, List.foldl_nil, hmiddle, hlast]
      omega
  · have hfirst : (UInt8.ofNat (v / 262144 % 8 + 240)).toNat = v / 262144 % 8 + 240 :=
      toNat_ofNat (by omega)
    have hsecond : (UInt8.ofNat (v / 4096 % 64 + 128)).toNat = v / 4096 % 64 + 128 :=
      toNat_ofNat (by omega)
    refine .long (by omega) (lead?_four _ (by omega)) (by simp)
      ⟨?_, ?_, by omega, by omega, by omega, by omega, trivial⟩ (hcode ?_)
    · split <;> omega
    · split <;> omega
    · simp only [codeFrom, List.foldl_cons, List.foldl_nil, hsecond, hmiddle, hlast]
      omega

/-! ## Reading them back -/

/-- The first byte begins the first piece, and the pieces of what is left follow. -/
@[simp]
theorem pieces_cons (byte : UInt8) (rest : List UInt8) :
    pieces (byte :: rest) = (firstPiece byte rest).1 :: pieces (firstPiece byte rest).2 := by
  rw [pieces]

/-- No character has more than four bytes. -/
theorem CharBytes.length_le (h : CharBytes c bytes) : bytes.length ≤ 4 := by
  cases h with
  | short => exact Nat.le_of_ble_eq_true rfl
  | long large leads few => exact Nat.succ_le_succ few

/-- The bytes of a character are read as that character, whatever follows them. -/
theorem CharBytes.pieces_append (h : CharBytes c bytes) (rest : List UInt8) :
    pieces (bytes ++ rest) = .char c :: pieces rest := by
  cases h with
  | short small code =>
    rw [List.singleton_append, pieces_cons, firstPiece, if_pos small, code]
  | @long byte tail low high bits large leads few continues code =>
    have hfirst : firstPiece byte (tail ++ rest) = (.char c, rest) := by
      rw [firstPiece, if_neg (by omega), leads]
      dsimp only
      rw [complete_append continues, code]
    rw [List.cons_append, pieces_cons, hfirst]

/-- The first of the bytes of a character, if some are missing, are read as stray bytes. -/
theorem CharBytes.pieces_take (h : CharBytes c bytes) {count : Nat} (hpos : 0 < count)
    (hlt : count < bytes.length) : pieces (bytes.take count) = [.broken count] := by
  cases h with
  | short =>
    rw [List.length_singleton] at hlt
    omega
  | @long byte tail low high bits large leads few continues code =>
    match count with
    | count + 1 =>
      have htake : (tail.take count).length = count := by
        rw [List.length_take]
        rw [List.length_cons] at hlt
        omega
      have hmissing : (tail.take count).length < tail.length := by
        rw [List.length_cons] at hlt
        omega
      have hfirst : firstPiece byte (tail.take count) = (.broken (count + 1), []) := by
        rw [firstPiece, if_neg (by omega), leads]
        dsimp only
        rw [complete_of_length_lt (continues.take count) hmissing, htake, Nat.add_comm 1]
      rw [List.take_succ_cons, pieces_cons, hfirst, pieces]

/-- The bytes of the first character come first. -/
@[simp]
theorem encode_cons (c : Char) (text : List Char) :
    encode (c :: text) = String.utf8EncodeChar c ++ encode text :=
  rfl

/-- **The bytes of a text are read as its characters.** -/
theorem pieces_encode (text : List Char) : pieces (encode text) = text.map .char := by
  induction text with
  | nil => rw [encode, List.flatMap_nil, pieces, List.map_nil]
  | cons c text ih =>
    rw [encode_cons, (charBytes_utf8EncodeChar c).pieces_append, ih, List.map_cons]

/-- What was encoded is decoded without loss. -/
@[simp]
theorem decodeLossy_encode (text : List Char) : decodeLossy (encode text) = text := by
  rw [decodeLossy, pieces_encode, List.map_map]
  exact List.map_id _

/-- What may follow the characters that are read from the first `count` bytes of a text, if `whole`
characters are: nothing if those are the whole text, and otherwise at most three stray bytes. -/
inductive Strays (count whole : Nat) : List Utf8Piece → Prop where
  /-- Nothing. -/
  | none : Strays count whole []
  /-- The first bytes of a character. -/
  | some {stray : Nat} (few : stray ≤ 3) (many : count ≤ 4 * whole + 3) :
    Strays count whole [.broken stray]

/-- The beginning of the bytes of a text is read as a beginning of the text, with at most three
stray bytes after it. -/
theorem pieces_take_encode (text : List Char) (count : Nat) :
    ∃ front rest strays, text = front ++ rest ∧ Strays count front.length strays ∧
      pieces ((encode text).take count) = front.map .char ++ strays := by
  induction text generalizing count with
  | nil =>
    refine ⟨[], [], [], rfl, .none, ?_⟩
    rw [encode, List.flatMap_nil, List.take_nil, pieces, List.map_nil, List.nil_append]
  | cons c text ih =>
    have hc := charBytes_utf8EncodeChar c
    have hfour := hc.length_le
    rcases Nat.lt_or_ge count (String.utf8EncodeChar c).length with hlt | hge
    · rw [encode_cons, List.take_append_of_le_length (Nat.le_of_lt hlt)]
      rcases Nat.eq_zero_or_pos count with rfl | hpos
      · exact ⟨[], c :: text, [], rfl, .none, by rw [List.take_zero, pieces]; rfl⟩
      · exact ⟨[], c :: text, [.broken count], rfl, .some (by omega) (by omega),
          hc.pieces_take hpos hlt⟩
    · obtain ⟨front, rest, strays, rfl, hstrays, hpieces⟩ :=
        ih (count - (String.utf8EncodeChar c).length)
      refine ⟨c :: front, rest, strays, rfl, ?_, ?_⟩
      · cases hstrays with
        | none => exact .none
        | some few many =>
          refine .some few ?_
          rw [List.length_cons]
          omega
      · rw [encode_cons, List.take_append, List.take_of_length_le hge, hc.pieces_append, hpieces]
        rfl

end Utf8

/-- A text without null and replacement characters. -/
def IsPlainText (text : List Char) : Prop :=
  ∀ c ∈ text, c ≠ '\x00' ∧ c ≠ replacementChar

/-- The characters of such a text only count on the good side. -/
theorem foldl_weight_map_char {text : List Char} (htext : IsPlainText text) (good bad : Nat) :
    (text.map Utf8Piece.char).foldl (fun (good, bad) piece =>
      (good + piece.weight.1, bad + piece.weight.2)) (good, bad) = (good + text.length, bad) := by
  induction text generalizing good with
  | nil => rfl
  | cons c text ih =>
    obtain ⟨hnull, hreplaced⟩ := htext c List.mem_cons_self
    have hweight : (Utf8Piece.char c).weight = (1, 0) := by
      rw [Utf8Piece.weight, if_neg (by simp [hnull, hreplaced])]
    rw [List.map_cons, List.foldl_cons, hweight]
    refine (ih (fun c hc => htext c (List.mem_cons_of_mem _ hc)) (good + 1)).trans ?_
    rw [List.length_cons, Nat.add_assoc, Nat.add_comm 1]

/-- **Text does not look binary**: the first bytes of a text without null and replacement characters
hold more good than bad, even if the last character is cut. -/
theorem isBinary_encode {text : List Char} (htext : IsPlainText text) :
    isBinary (Utf8.encode text) = false := by
  obtain ⟨front, rest, strays, rfl, hstrays, hpieces⟩ := Utf8.pieces_take_encode text binaryProbe
  have hfront : IsPlainText front := fun c hc => htext c (List.mem_append_left _ hc)
  unfold isBinary
  rw [hpieces, List.foldl_append, foldl_weight_map_char hfront]
  cases hstrays with
  | none => simp
  | some few many =>
    unfold binaryProbe at many
    simp only [List.foldl_cons, List.foldl_nil, Utf8Piece.weight]
    exact decide_eq_false (by omega)

end Emend
