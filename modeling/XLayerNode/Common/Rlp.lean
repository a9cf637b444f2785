import XLayerNode.Common.Bytes
/-!
# Recursive Length Prefix for lists of byte strings

The encoding of the Ethereum yellow paper, appendix B, restricted to what a
transaction record holds: a list of byte strings. A payload of `len` bytes
is announced by `encodeLength len offset`: one byte `offset + len` up to
55 bytes, else the byte `offset + 55 + k` followed by the `k` big-endian
bytes of `len`. A string has offset `0x80` (a single byte below `0x80`
stands for itself), a list `0xc0`.

`decodeList` reads such a list back: `decodeList_encodeList` is the round
trip, for a payload that a length of eight bytes can announce.
-/

namespace XLayerNode

namespace Rlp

/-- The header announcing a payload of `len` bytes. -/
def encodeLength (len offset : ℕ) : List UInt8 :=
  if len < 56 then [UInt8.ofNat (offset + len)]
  else UInt8.ofNat (offset + 55 + (beBytes len).length) :: beBytes len

/-- A byte string: a single byte below `0x80` is its own encoding. -/
def encodeString : List UInt8 → List UInt8
  | [b] => if b.toNat < 0x80 then [b] else encodeLength 1 0x80 ++ [b]
  | s => encodeLength s.length 0x80 ++ s

/-- The payload of a list: its items' encodings, one after another. -/
def payload (items : List (List UInt8)) : List UInt8 := (items.map encodeString).flatten

/-- A list of byte strings. -/
def encodeList (items : List (List UInt8)) : List UInt8 :=
  encodeLength (payload items).length 0xc0 ++ payload items

theorem encodeLength_of_lt {len offset : ℕ} (h : len < 56) :
    encodeLength len offset = [UInt8.ofNat (offset + len)] := by
  simp [encodeLength, h]

theorem encodeLength_of_le {len offset : ℕ} (h : 56 ≤ len) :
    encodeLength len offset =
      UInt8.ofNat (offset + 55 + (beBytes len).length) :: beBytes len := by
  simp [encodeLength, show ¬ len < 56 by omega]

/-- A long payload below `2 ^ 64` bytes takes one to eight length bytes. -/
theorem length_beBytes_of_long {len : ℕ} (h56 : 56 ≤ len) (h64 : len < 2 ^ 64) :
    1 ≤ (beBytes len).length ∧ (beBytes len).length ≤ 8 := by
  refine ⟨?_, (length_beBytes_le_iff len 8).2 (by norm_num; exact h64)⟩
  by_contra h
  have h0 : (beBytes len).length ≤ 0 := by omega
  rw [length_beBytes_le_iff] at h0
  omega

theorem length_encodeList (items : List (List UInt8)) :
    (encodeList items).length = (encodeLength (payload items).length 0xc0).length +
      (payload items).length := by
  simp [encodeList]

/-! ## Decoding -/

/-- The byte string at the head of the input, and the rest. -/
def decodeString : List UInt8 → Option (List UInt8 × List UInt8)
  | [] => none
  | b :: rest =>
    if b.toNat < 0x80 then some ([b], rest)
    else if b.toNat < 0xb8 then
      if b.toNat - 0x80 ≤ rest.length then
        some (rest.take (b.toNat - 0x80), rest.drop (b.toNat - 0x80))
      else none
    else if b.toNat < 0xc0 then
      if b.toNat - 0xb7 ≤ rest.length then
        let len := beValue (rest.take (b.toNat - 0xb7))
        let rest := rest.drop (b.toNat - 0xb7)
        if len ≤ rest.length then some (rest.take len, rest.drop len) else none
      else none
    else none

/-- A string read from the input leaves less of it. -/
theorem length_lt_of_decodeString {bs s rest : List UInt8}
    (h : decodeString bs = some (s, rest)) : rest.length < bs.length := by
  match bs, h with
  | b :: bs, h =>
    rw [decodeString] at h
    dsimp only at h
    split_ifs at h
    · rw [Option.some.injEq, Prod.mk.injEq] at h
      rw [← h.2]
      simp
    all_goals
      rw [Option.some.injEq, Prod.mk.injEq] at h
      rw [← h.2]
      simp only [List.length_drop, List.length_cons]
      omega

/-- The strings of a list's payload, one after another. -/
def decodePayload (bs : List UInt8) : Option (List (List UInt8)) :=
  if bs = [] then some []
  else
    match _h : decodeString bs with
    | none => none
    | some (s, rest) => (decodePayload rest).map (s :: ·)
termination_by bs.length
decreasing_by exact length_lt_of_decodeString _h

/-- A list: its header, and exactly the payload it announces. -/
def decodeList : List UInt8 → Option (List (List UInt8))
  | [] => none
  | b :: rest =>
    if b.toNat < 0xc0 then none
    else if b.toNat < 0xf8 then
      if rest.length = b.toNat - 0xc0 then decodePayload rest else none
    else if b.toNat - 0xf7 ≤ rest.length ∧
        (rest.drop (b.toNat - 0xf7)).length = beValue (rest.take (b.toNat - 0xf7)) then
      decodePayload (rest.drop (b.toNat - 0xf7))
    else none

@[simp] theorem decodeList_nil : decodeList [] = none := rfl

/-- A header read back: a payload of `len` bytes announced with `offset`
takes the short form below 56 bytes and one to eight length bytes above. -/
theorem encodeLength_cases (len offset : ℕ) (hlen : len < 2 ^ 64) :
    (len < 56 ∧ encodeLength len offset = [UInt8.ofNat (offset + len)]) ∨
      (56 ≤ len ∧ 1 ≤ (beBytes len).length ∧ (beBytes len).length ≤ 8 ∧
        encodeLength len offset = UInt8.ofNat (offset + 55 + (beBytes len).length) :: beBytes len) := by
  by_cases h : len < 56
  · exact Or.inl ⟨h, encodeLength_of_lt h⟩
  · have hk := length_beBytes_of_long (by omega) hlen
    exact Or.inr ⟨by omega, hk.1, hk.2, encodeLength_of_le (by omega)⟩

/-- The length bytes of a long header, and what follows them. -/
theorem take_drop_beBytes (len : ℕ) (rest : List UInt8) :
    (beBytes len ++ rest).take (beBytes len).length = beBytes len ∧
      (beBytes len ++ rest).drop (beBytes len).length = rest :=
  ⟨List.take_left' rfl, List.drop_left' rfl⟩

/-- **A string behind its header reads back**, with whatever follows it left
over. -/
theorem decodeString_encodeLength (s rest : List UInt8) (hs : s.length < 2 ^ 64) :
    decodeString (encodeLength s.length 0x80 ++ s ++ rest) = some (s, rest) := by
  rcases encodeLength_cases s.length 0x80 hs with ⟨hshort, henc⟩ | ⟨hlong, hk1, hk8, henc⟩
  · have hb : (UInt8.ofNat (0x80 + s.length)).toNat = 128 + s.length := by
      rw [UInt8.toNat_ofNat']
      omega
    rw [henc, List.singleton_append, List.cons_append, decodeString, hb,
      if_neg (by omega), if_pos (by omega), if_pos (by simp),
      show 128 + s.length - 0x80 = s.length by omega]
    simp
  · have hb : (UInt8.ofNat (0x80 + 55 + (beBytes s.length).length)).toNat =
        183 + (beBytes s.length).length := by
      rw [UInt8.toNat_ofNat']
      omega
    rw [henc, List.cons_append, List.cons_append, decodeString, hb]
    dsimp only
    rw [if_neg (by omega), if_neg (by omega), if_pos (by omega),
      show 183 + (beBytes s.length).length - 0xb7 = (beBytes s.length).length by omega,
      List.append_assoc, (take_drop_beBytes _ _).1, (take_drop_beBytes _ _).2, beValue_beBytes,
      if_pos (by simp)]
    simp

/-- **A string reads back**, with whatever follows it left over. -/
theorem decodeString_encodeString (s rest : List UInt8) (hs : s.length < 2 ^ 64) :
    decodeString (encodeString s ++ rest) = some (s, rest) := by
  match s with
  | [b] =>
    -- a single byte below `0x80` stands for itself
    by_cases hb : b.toNat < 0x80
    · rw [encodeString, if_pos hb, List.singleton_append, decodeString, if_pos hb]
    · rw [encodeString, if_neg hb]
      exact decodeString_encodeLength [b] rest hs
  | [] => exact decodeString_encodeLength [] rest hs
  | a :: b :: t => exact decodeString_encodeLength (a :: b :: t) rest hs

/-- One string of a payload, then the rest of it. -/
theorem decodePayload_of_decodeString {bs s rest : List UInt8} (hne : bs ≠ [])
    (h : decodeString bs = some (s, rest)) :
    decodePayload bs = (decodePayload rest).map (s :: ·) := by
  rw [decodePayload, if_neg hne]
  split <;> rename_i h' <;> rw [h] at h'
  · cases h'
  · rw [Option.some.injEq, Prod.mk.injEq] at h'
    rw [← h'.1, ← h'.2]

theorem length_le_length_encodeString (s : List UInt8) : s.length ≤ (encodeString s).length := by
  match s with
  | [b] => rw [encodeString]; split_ifs <;> simp
  | [] => simp [encodeString]
  | a :: b :: t => simp [encodeString]

theorem encodeString_ne_nil (s : List UInt8) : encodeString s ≠ [] := by
  match s with
  | [b] => rw [encodeString]; split_ifs <;> simp
  | [] => simp [encodeString, encodeLength]
  | a :: b :: t => simp [encodeString]

/-- An item is no longer than the payload that holds it. -/
theorem length_le_of_mem_payload {items : List (List UInt8)} {s : List UInt8} (hs : s ∈ items) :
    s.length ≤ (payload items).length := by
  induction items with
  | nil => cases hs
  | cons x xs ih =>
    simp only [payload, List.map_cons, List.flatten_cons, List.length_append] at ih ⊢
    rcases List.mem_cons.1 hs with rfl | hs
    · have := length_le_length_encodeString s
      omega
    · have := ih hs
      omega

/-- **A payload reads back.** -/
theorem decodePayload_payload (items : List (List UInt8))
    (h : ∀ s ∈ items, s.length < 2 ^ 64) : decodePayload (payload items) = some items := by
  induction items with
  | nil => simp [payload, decodePayload]
  | cons x xs ih =>
    have hx : payload (x :: xs) = encodeString x ++ payload xs := by simp [payload]
    have hne : encodeString x ++ payload xs ≠ [] := by
      simp [encodeString_ne_nil]
    rw [hx, decodePayload_of_decodeString hne (decodeString_encodeString x _ (h x (by simp))),
      ih (fun s hs => h s (by simp [hs]))]
    rfl

/-- **A list reads back**, for a payload below `2 ^ 64` bytes. -/
theorem decodeList_encodeList (items : List (List UInt8))
    (h : (payload items).length < 2 ^ 64) : decodeList (encodeList items) = some items := by
  have hitems : ∀ s ∈ items, s.length < 2 ^ 64 :=
    fun s hs => lt_of_le_of_lt (length_le_of_mem_payload hs) h
  rcases encodeLength_cases (payload items).length 0xc0 h with
    ⟨hshort, henc⟩ | ⟨hlong, hk1, hk8, henc⟩
  · have hb : (UInt8.ofNat (0xc0 + (payload items).length)).toNat =
        192 + (payload items).length := by
      rw [UInt8.toNat_ofNat']
      omega
    rw [encodeList, henc, List.singleton_append, decodeList, hb, if_neg (by omega),
      if_pos (by omega), if_pos (by omega)]
    exact decodePayload_payload items hitems
  · have hb : (UInt8.ofNat (0xc0 + 55 + (beBytes (payload items).length).length)).toNat =
        247 + (beBytes (payload items).length).length := by
      rw [UInt8.toNat_ofNat']
      omega
    rw [encodeList, henc, List.cons_append, decodeList, hb, if_neg (by omega), if_neg (by omega),
      show 247 + (beBytes (payload items).length).length - 0xf7 =
        (beBytes (payload items).length).length by omega,
      (take_drop_beBytes _ _).1, (take_drop_beBytes _ _).2, beValue_beBytes,
      if_pos ⟨by simp, rfl⟩]
    exact decodePayload_payload items hitems

end Rlp

end XLayerNode
