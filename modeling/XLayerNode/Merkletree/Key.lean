import XLayerNode.Common.Limbs
/-!
# The bytecode hash

`HashContractBytecode` pads the code (a `0x01` marker, zeros to a multiple
of 56 bytes, and the top bit of the last byte set), then feeds the
Poseidon sponge one block of 56 bytes at a time: an inner loop writes each
run of 7 bytes backwards into `tmpElem`, so that `SetBytes` reads it
little-endian, and each block becomes eight limbs. The sponge itself is a
parameter, `poseidonHash`.

The inner loop is modelled turn by turn; `elemStep_elemInv` says what one
turn keeps (the bytes of the current run, reversed at the end of
`tmpElem`, and the limbs done), and `blockElements_eq` reads the eight
limbs off it. The outer loop slices 57 bytes for every block but the last,
one past the block, which the inner loop never reads, so the sponge is fed
exactly `bytecodeBlocks` (`hashContractBytecode_eq`). Its limbs are below
`2^56`, and the blocks determine the code (`hashContractBytecode_blocks_injective`):
they spell the padded code (`blocksBytes_bytecodeBlocks`), and the padding
comes off again (`unpadBytecode_padBytecode`), also where the marker and
the top bit share the last byte.
-/

namespace XLayerNode

namespace Merkletree

open Outcome

/-- `bytecodeElementsHash`: limbs per block. -/
def bytecodeElementsHash : ℕ := 8

/-- `bytecodeBytesElement`: bytes per limb. -/
def bytecodeBytesElement : ℕ := 7

/-- `maxBytesToAdd`: bytes per block. -/
def maxBytesToAdd : ℕ := bytecodeElementsHash * bytecodeBytesElement

/-- The padding loop: `for len(code)%(56) != 0 { code = append(code, 0x00) }`. -/
def padZeros (code : List UInt8) : List UInt8 :=
  if code.length % 56 = 0 then code else padZeros (code ++ [0])
termination_by (56 - code.length % 56) % 56
decreasing_by
  simp only [List.length_append, List.length_singleton]
  omega

/-- The padding of `HashContractBytecode`: `0x01`, zeros to a multiple of
56 bytes, then `code[len(code)-1] |= 0x80`. -/
def padBytecode (code : List UInt8) : List UInt8 :=
  let code := padZeros (code ++ [0x01])
  code.set (code.length - 1) (code.getD (code.length - 1) 0 ||| 0x80)

/-- `byteToAdd[0]` at turn `j`: `subsetBytecode[j]`, or `0` past its end. -/
def byteToAdd (subsetBytecode : List UInt8) (j : ℕ) : UInt8 :=
  if h : j < subsetBytecode.length then subsetBytecode[j] else 0

/-- The variables of the inner loop: `tmpElem`, `counter`, and the limbs
written to `elementsToHash[4:index]`. -/
structure ElemState where
  tmpElem : List UInt8
  counter : ℕ
  elements : List UInt64
  deriving DecidableEq, Repr

/-- One turn of the inner loop, at byte `j` of the block. -/
def elemStep (subsetBytecode : List UInt8) (st : ElemState) (j : ℕ) : ElemState :=
  let tmpElem := st.tmpElem.set (bytecodeBytesElement - 1 - st.counter) (byteToAdd subsetBytecode j)
  let counter := st.counter + 1
  if counter = bytecodeBytesElement then
    -- `new(big.Int).SetBytes(tmpElem[:]).Uint64()`, then a fresh `tmpElem`
    { tmpElem := List.replicate 7 0, counter := 0,
      elements := st.elements ++ [bigUint64 (beValue tmpElem)] }
  else { tmpElem := tmpElem, counter := counter, elements := st.elements }

/-- The eight limbs the inner loop makes of a block. -/
def blockElements (subsetBytecode : List UInt8) : List UInt64 :=
  ((List.range maxBytesToAdd).foldl (elemStep subsetBytecode) ⟨List.replicate 7 0, 0, []⟩).elements

/-- One turn of the outer loop: slice the block at `bytesPointer`, hash
its limbs with `tmpHash` as the capacity. -/
def hashStep {ε : Type} (poseidonHash : List UInt64 → List UInt64 → Except ε (List UInt64))
    (code : List UInt8) (st : List UInt64 × ℕ) (_ : ℕ) : Outcome ε (List UInt64 × ℕ) := do
  let (tmpHash, bytesPointer) := st
  let subsetBytecode ←
    slice code bytesPointer (min (code.length - 1) (bytesPointer + maxBytesToAdd) + 1)
  let tmpHash ← Outcome.ofExcept (poseidonHash (blockElements subsetBytecode) tmpHash)
  pure (tmpHash, bytesPointer + maxBytesToAdd)

/-- `HashContractBytecode`; `numHashes` is `math.Ceil` of the length over
56, which the float division gets exactly for any slice length. -/
def hashContractBytecode {ε : Type} (poseidonHash : List UInt64 → List UInt64 → Except ε (List UInt64))
    (code : List UInt8) : Outcome ε (List UInt64) := do
  let code := padBytecode code
  let numHashes := (code.length + maxBytesToAdd - 1) / maxBytesToAdd
  let (tmpHash, _) ← (List.range numHashes).foldlM (hashStep poseidonHash code) ([0, 0, 0, 0], 0)
  pure tmpHash

/-! ## What the sponge is fed -/

/-- Limb `g` of a block: its bytes `7g, …, 7g + 6`, little-endian. -/
def blockLimb (s : List UInt8) (g : ℕ) : UInt64 :=
  bigUint64 (beValue ((List.range 7).map fun t => byteToAdd s (7 * g + t)).reverse)

/-- The blocks of eight limbs the sponge takes in, in order. -/
def bytecodeBlocks (code : List UInt8) : List (List UInt64) :=
  (List.range ((padBytecode code).length / 56)).map fun i =>
    (List.range 8).map (blockLimb ((padBytecode code).drop (56 * i)))

/-- The seven bytes of a limb, least significant first. -/
def limbBytes (x : UInt64) : List UInt8 := (toLimbs 256 7 x.toNat).map UInt8.ofNat

/-- The bytes a sequence of blocks spells. -/
def blocksBytes (blocks : List (List UInt64)) : List UInt8 :=
  blocks.flatMap fun blk => blk.flatMap limbBytes

/-- The code a padded bytecode came from: the top bit of the last byte
cleared, then the trailing zeros and the `0x01` marker dropped. -/
def unpadBytecode (p : List UInt8) : List UInt8 :=
  let p := p.set (p.length - 1) (p.getD (p.length - 1) 0 &&& 0x7f)
  ((p.reverse.dropWhile (· == 0)).drop 1).reverse

/-! ## The padding -/

/-- The padding loop appends the zeros that reach the next multiple of
56. -/
theorem padZeros_eq (code : List UInt8) :
    padZeros code = code ++ List.replicate ((56 - code.length % 56) % 56) 0 := by
  fun_induction padZeros code with
  | case1 code h => simp [h]
  | case2 code h ih =>
    -- one zero now, the rest in the recursive call
    have hcount : (56 - code.length % 56) % 56 = (56 - (code.length + 1) % 56) % 56 + 1 := by
      omega
    rw [ih, hcount, List.replicate_succ, List.length_append, List.length_singleton,
      List.append_assoc, List.singleton_append]

/-- The code with its marker and zeros, before the top bit is set. -/
theorem padZeros_marker (code : List UInt8) :
    ∃ z, padZeros (code ++ [0x01]) = code ++ 0x01 :: List.replicate z 0 ∧
      (code.length + 1 + z) % 56 = 0 := by
  refine ⟨(56 - (code.length + 1) % 56) % 56, ?_, by omega⟩
  rw [padZeros_eq, List.length_append, List.length_singleton, List.append_assoc,
    List.singleton_append]

theorem length_padBytecode (code : List UInt8) :
    ∃ n, 0 < n ∧ (padBytecode code).length = 56 * n := by
  obtain ⟨z, hz, hmod⟩ := padZeros_marker code
  refine ⟨(code.length + 1 + z) / 56, by omega, ?_⟩
  simp only [padBytecode, List.length_set, hz, List.length_append, List.length_cons,
    List.length_replicate]
  omega

/-- The last byte before the top bit is set is the marker or a zero. -/
theorem getD_marker_lt (code : List UInt8) (z : ℕ) :
    (code ++ 0x01 :: List.replicate z 0).getD (code.length + z) 0 < 0x80 := by
  rw [List.getD_append_right _ _ _ _ (by omega), show code.length + z - code.length = z by omega]
  cases z with
  | zero => decide
  | succ z => simp [List.getD_eq_getElem?_getD]

/-- Setting and clearing the top bit of a byte below `0x80`. -/
theorem or_and_7f {x : UInt8} (hx : x < 0x80) : (x ||| 0x80) &&& 0x7f = x := by
  have hall : ∀ n : Fin 128, (UInt8.ofNat n ||| 0x80) &&& 0x7f = UInt8.ofNat n := by decide
  have hn : x.toNat < 128 := by simpa [UInt8.lt_iff_toNat_lt] using hx
  simpa using hall ⟨x.toNat, hn⟩

/-- **The padding comes off**: clearing the top bit restores the marker or
zero it was set on, and the marker is the last byte that is not zero. -/
theorem unpadBytecode_padBytecode (code : List UInt8) : unpadBytecode (padBytecode code) = code := by
  obtain ⟨z, hz, -⟩ := padZeros_marker code
  set q := code ++ 0x01 :: List.replicate z 0 with hq
  have hidx : code.length + z < q.length := by simp [hq]
  have hlast : q.length - 1 = code.length + z := by simp [hq]
  have hlt : q.getD (code.length + z) 0 < 0x80 := getD_marker_lt code z
  have hpad : padBytecode code = q.set (code.length + z) (q.getD (code.length + z) 0 ||| 0x80) := by
    simp only [padBytecode, hz, hlast]
  -- the top bit is read back where it was set, and cleared
  have hgetD : (q.set (code.length + z) (q.getD (code.length + z) 0 ||| 0x80)).getD (code.length + z) 0 =
      q.getD (code.length + z) 0 ||| 0x80 := by
    rw [List.getD_eq_getElem _ _ (by simpa using hidx), List.getElem_set_self]
  have hset : (q.set (code.length + z) (q.getD (code.length + z) 0 ||| 0x80)).set (code.length + z)
      ((q.getD (code.length + z) 0 ||| 0x80) &&& 0x7f) = q := by
    rw [List.set_set, or_and_7f hlt, List.getD_eq_getElem _ _ hidx, List.set_getElem_self]
  -- reading backwards, the zeros go and the marker heads what is left
  have hdrop : ((List.replicate z (0 : UInt8)).reverse ++ 0x01 :: code.reverse).dropWhile (· == 0) =
      0x01 :: code.reverse := by
    rw [List.reverse_replicate]
    simp
  simp only [unpadBytecode, hpad, List.length_set, hlast, hgetD, hset]
  rw [hq, List.reverse_append, List.reverse_cons, List.append_assoc, List.singleton_append, hdrop,
    List.drop_one, List.tail_cons, List.reverse_reverse]

/-! ## The inner loop -/

/-- What the inner loop holds after `j` bytes: the `j % 7` bytes of the
current run, reversed at the end of `tmpElem`, and the `j / 7` limbs
done. -/
def elemInv (s : List UInt8) (j : ℕ) : ElemState where
  tmpElem := List.replicate (7 - j % 7) 0 ++
    ((List.range (j % 7)).map fun t => byteToAdd s (7 * (j / 7) + t)).reverse
  counter := j % 7
  elements := (List.range (j / 7)).map (blockLimb s)

/-- `tmpElem[6-counter] = …` writes over the last of the zeros. -/
theorem set_replicate_append {α : Type} (a b : α) (k : ℕ) (xs : List α) :
    (List.replicate (k + 1) a ++ xs).set k b = List.replicate k a ++ b :: xs := by
  rw [List.replicate_succ', List.append_assoc, List.set_append_right _ _ (by simp)]
  simp

theorem reverse_map_range_succ {α : Type} (f : ℕ → α) (r : ℕ) :
    ((List.range (r + 1)).map f).reverse = f r :: ((List.range r).map f).reverse := by
  simp [List.range_succ]

/-- **One turn of the inner loop keeps `elemInv`.** -/
theorem elemStep_elemInv (s : List UInt8) (j : ℕ) : elemStep s (elemInv s j) j = elemInv s (j + 1) := by
  obtain ⟨g, r, hr, rfl⟩ : ∃ g r, r < 7 ∧ j = 7 * g + r :=
    ⟨j / 7, j % 7, Nat.mod_lt _ (by norm_num), (Nat.div_add_mod j 7).symm⟩
  have hmod : (7 * g + r) % 7 = r := by omega
  have hdiv : (7 * g + r) / 7 = g := by omega
  -- the byte of this turn lands just before the run's earlier bytes
  have hset : (elemInv s (7 * g + r)).tmpElem.set (bytecodeBytesElement - 1 - (elemInv s (7 * g + r)).counter)
        (byteToAdd s (7 * g + r)) =
      List.replicate (6 - r) 0 ++ ((List.range (r + 1)).map fun t => byteToAdd s (7 * g + t)).reverse := by
    simp only [elemInv, hmod, hdiv, bytecodeBytesElement, reverse_map_range_succ]
    rw [show 7 - r = 6 - r + 1 by omega, show 7 - 1 - r = 6 - r by omega, set_replicate_append]
  unfold elemStep
  rw [hset]
  by_cases hlast : r = 6
  · -- the seventh byte completes a limb
    subst hlast
    have hmod' : (7 * g + 6 + 1) % 7 = 0 := by omega
    have hdiv' : (7 * g + 6 + 1) / 7 = g + 1 := by omega
    simp only [elemInv, hmod, hdiv, hmod', hdiv', bytecodeBytesElement, if_pos, List.range_succ,
      List.map_append, List.map_singleton, blockLimb]
    simp
  · have hmod' : (7 * g + r + 1) % 7 = r + 1 := by omega
    have hdiv' : (7 * g + r + 1) / 7 = g := by omega
    simp only [elemInv, hmod, hdiv, hmod', hdiv', bytecodeBytesElement]
    rw [if_neg (by omega), show 7 - (r + 1) = 6 - r by omega]

/-- **A run of the inner loop**, by induction on the turns. -/
theorem foldl_elemStep (s : List UInt8) (j : ℕ) :
    (List.range j).foldl (elemStep s) (elemInv s 0) = elemInv s j := by
  induction j with
  | zero => rfl
  | succ j ih => rw [List.range_succ, List.foldl_append, ih, List.foldl_cons, List.foldl_nil, elemStep_elemInv]

/-- **The inner loop makes the eight limbs of the block.** -/
theorem blockElements_eq (s : List UInt8) : blockElements s = (List.range 8).map (blockLimb s) := by
  have hinit : (⟨List.replicate 7 0, 0, []⟩ : ElemState) = elemInv s 0 := by
    simp [elemInv]
  rw [blockElements, hinit, maxBytesToAdd, bytecodeElementsHash, bytecodeBytesElement, foldl_elemStep]
  rfl

/-! ## The limbs -/

theorem byteToAdd_take {s : List UInt8} {m j : ℕ} (h : j < m) : byteToAdd (s.take m) j = byteToAdd s j := by
  unfold byteToAdd
  by_cases hj : j < s.length
  · rw [dif_pos (by simp; omega), dif_pos hj, List.getElem_take]
  · rw [dif_neg (by simp; omega), dif_neg hj]

/-- The limbs of a block read only its first 56 bytes. -/
theorem blockLimb_take {s : List UInt8} {m g : ℕ} (hg : g < 8) (hm : 56 ≤ m) :
    blockLimb (s.take m) g = blockLimb s g := by
  unfold blockLimb
  congr 4
  exact List.map_congr_left fun t ht => byteToAdd_take (by simp at ht; omega)

theorem map_byteToAdd_range {s : List UInt8} {a k : ℕ} (h : a + k ≤ s.length) :
    (List.range k).map (fun t => byteToAdd s (a + t)) = (s.drop a).take k := by
  apply List.ext_getElem (by simp; omega)
  intro t ht _
  simp only [List.length_map, List.length_range] at ht
  simp [byteToAdd, show a + t < s.length by omega]

theorem beValue_reverse_lt (bs : List UInt8) (h : bs.length = 7) : beValue bs.reverse < 2 ^ 56 := by
  have := beValue_lt bs.reverse
  rw [List.length_reverse, h] at this
  simpa using this

/-- **Every limb is below `2^56`.** -/
theorem blockLimb_lt (s : List UInt8) (g : ℕ) : (blockLimb s g).toNat < 2 ^ 56 := by
  have hlt := beValue_reverse_lt ((List.range 7).map fun t => byteToAdd s (7 * g + t)) (by simp)
  rw [blockLimb, toNat_bigUint64 (by positivity) (by omega)]
  simpa using hlt

/-- A limb's seven bytes are the run it was read from. -/
theorem limbBytes_blockLimb {s : List UInt8} {g : ℕ} (h : 7 * g + 7 ≤ s.length) :
    limbBytes (blockLimb s g) = (s.drop (7 * g)).take 7 := by
  set run := (List.range 7).map fun t => byteToAdd s (7 * g + t) with hrun
  have hrun' : run = (s.drop (7 * g)).take 7 := map_byteToAdd_range h
  have hdigits : ∀ d ∈ run.map UInt8.toNat, d < 256 := by
    intro d hd
    obtain ⟨x, -, rfl⟩ := List.mem_map.1 hd
    exact x.toNat_lt
  have hlimbs := @toLimbs_ofDigits 256 (by norm_num) _ hdigits
  have hlen : (run.map UInt8.toNat).length = 7 := by simp [hrun]
  rw [hlen] at hlimbs
  have hlt := beValue_reverse_lt run (by simp [hrun])
  -- the limb is the run's little-endian value, below `2^56`
  have htoNat : (blockLimb s g).toNat = Nat.ofDigits 256 (run.map UInt8.toNat) := by
    have hblock : blockLimb s g = bigUint64 (beValue run.reverse) := rfl
    rw [hblock, toNat_bigUint64 (by positivity) (by omega), Int.toNat_natCast, beValue_reverse]
  rw [limbBytes, htoNat, hlimbs, List.map_map, ← hrun']
  conv_rhs => rw [← List.map_id run]
  exact List.map_congr_left fun x _ => UInt8.ofNat_toNat

/-- **The blocks spell the padded code.** -/
theorem blocksBytes_bytecodeBlocks (code : List UInt8) :
    blocksBytes (bytecodeBlocks code) = padBytecode code := by
  obtain ⟨n, -, hn⟩ := length_padBytecode code
  -- each block spells its 56 bytes, seven at a time
  have hblock : ∀ i ∈ List.range n,
      ((List.range 8).map (blockLimb ((padBytecode code).drop (56 * i)))).flatMap limbBytes =
        ((padBytecode code).drop (56 * i)).take 56 := by
    intro i hi
    rw [List.mem_range] at hi
    rw [List.flatMap_map, ← flatMap_range_drop_take _ 7 8]
    refine List.flatMap_congr fun g hg => limbBytes_blockLimb ?_
    rw [List.mem_range] at hg
    simp only [List.length_drop, hn]
    have : 56 * i + 56 ≤ 56 * n := by omega
    omega
  rw [blocksBytes, bytecodeBlocks, hn, show 56 * n / 56 = n by omega, List.flatMap_map,
    List.flatMap_congr hblock, flatMap_range_drop_take, ← hn, List.take_length]

/-! ## The outer loop -/

section Sponge

variable {ε : Type} (poseidonHash : List UInt64 → List UInt64 → Except ε (List UInt64))

/-- The sponge over a sequence of blocks, from a capacity. -/
def absorb (blocks : List (List UInt64)) (tmpHash : List UInt64) : Outcome ε (List UInt64) :=
  blocks.foldlM (fun tmpHash els => Outcome.ofExcept (poseidonHash els tmpHash)) tmpHash

/-- **One turn of the outer loop** hashes the block at the pointer; the
slice runs one byte past the block but for the last. -/
theorem hashStep_eq {code : List UInt8} {n i : ℕ} (hn : code.length = 56 * n) (hi : i < n)
    (tmpHash : List UInt64) :
    hashStep poseidonHash code (tmpHash, 56 * i) i =
      Outcome.ofExcept (poseidonHash ((List.range 8).map (blockLimb (code.drop (56 * i)))) tmpHash) >>=
        fun h => pure (h, 56 * (i + 1)) := by
  have hhi : 56 * i ≤ min (code.length - 1) (56 * i + maxBytesToAdd) + 1 ∧
      min (code.length - 1) (56 * i + maxBytesToAdd) + 1 ≤ code.length := by
    simp only [maxBytesToAdd, bytecodeElementsHash, bytecodeBytesElement]
    omega
  have hsub : blockElements ((code.drop (56 * i)).take
      (min (code.length - 1) (56 * i + maxBytesToAdd) + 1 - 56 * i)) =
      (List.range 8).map (blockLimb (code.drop (56 * i))) := by
    rw [blockElements_eq]
    refine List.map_congr_left fun g hg => blockLimb_take (by simpa using hg) ?_
    simp only [maxBytesToAdd, bytecodeElementsHash, bytecodeBytesElement]
    omega
  simp only [hashStep, slice_of_le hhi.1 hhi.2, ok_bind, hsub]
  congr 1

/-- **A run of the outer loop** from block `i` on, by induction on the
turns left. -/
theorem foldlM_hashStep {code : List UInt8} {n : ℕ} (hn : code.length = 56 * n) :
    ∀ k i (tmpHash : List UInt64), i + k = n →
      (List.range' i k).foldlM (hashStep poseidonHash code) (tmpHash, 56 * i) =
        absorb poseidonHash ((List.range' i k).map fun i =>
          (List.range 8).map (blockLimb (code.drop (56 * i)))) tmpHash >>=
          fun h => pure (h, 56 * n) := by
  intro k
  induction k with
  | zero =>
    intro i tmpHash hk
    simp [absorb, show i = n by omega]
  | succ k ih =>
    intro i tmpHash hk
    rw [List.range'_succ, List.foldlM_cons, hashStep_eq poseidonHash hn (by omega), List.map_cons,
      absorb, List.foldlM_cons]
    -- the block's hash either fails for both, or both go on from it
    cases poseidonHash ((List.range 8).map (blockLimb (code.drop (56 * i)))) tmpHash with
    | error e => rfl
    | ok h =>
      simp only [ofExcept_ok, ok_bind, pure_def]
      exact ih (i + 1) h (by omega)

/-- **`HashContractBytecode` feeds the sponge `bytecodeBlocks`.** -/
theorem hashContractBytecode_eq (code : List UInt8) :
    hashContractBytecode poseidonHash code = absorb poseidonHash (bytecodeBlocks code) [0, 0, 0, 0] := by
  obtain ⟨n, -, hn⟩ := length_padBytecode code
  have hnum : ((padBytecode code).length + maxBytesToAdd - 1) / maxBytesToAdd = n := by
    simp only [maxBytesToAdd, bytecodeElementsHash, bytecodeBytesElement, hn]
    omega
  have hblocks : bytecodeBlocks code = (List.range' 0 n).map fun i =>
      (List.range 8).map (blockLimb ((padBytecode code).drop (56 * i))) := by
    rw [bytecodeBlocks, hn, show 56 * n / 56 = n by omega, @List.range_eq_range' n]
  have hloop := foldlM_hashStep poseidonHash hn n 0 [0, 0, 0, 0] (by omega)
  rw [Nat.mul_zero] at hloop
  simp only [hashContractBytecode]
  rw [hnum, @List.range_eq_range' n, hloop, hblocks]
  -- the loop's pointer is dropped, whatever the sponge returns
  cases absorb poseidonHash ((List.range' 0 n).map fun i =>
      (List.range 8).map (blockLimb ((padBytecode code).drop (56 * i)))) [0, 0, 0, 0] <;> rfl

end Sponge

/-! ## Distinct code, distinct blocks -/

theorem hashContractBytecode_blocks_injective :
    (∀ {ε : Type} (poseidonHash : List UInt64 → List UInt64 → Except ε (List UInt64))
      (code : List UInt8),
      hashContractBytecode poseidonHash code =
        absorb poseidonHash (bytecodeBlocks code) [0, 0, 0, 0]) ∧
    (∀ c₁ c₂ : List UInt8, c₁ ≠ c₂ → bytecodeBlocks c₁ ≠ bytecodeBlocks c₂) ∧
    ∀ code : List UInt8, ∀ blk ∈ bytecodeBlocks code,
      blk.length = bytecodeElementsHash ∧ ∀ x ∈ blk, x.toNat < 2 ^ 56 := by
  refine ⟨fun poseidonHash code => hashContractBytecode_eq poseidonHash code, ?_, ?_⟩
  · intro c₁ c₂ hne hblocks
    apply hne
    -- the blocks spell the padded code, and the padding comes off
    rw [← unpadBytecode_padBytecode c₁, ← unpadBytecode_padBytecode c₂,
      ← blocksBytes_bytecodeBlocks c₁, ← blocksBytes_bytecodeBlocks c₂, hblocks]
  · intro code blk hblk
    obtain ⟨i, -, rfl⟩ := List.mem_map.1 hblk
    refine ⟨by simp [bytecodeElementsHash], ?_⟩
    intro x hx
    obtain ⟨g, -, rfl⟩ := List.mem_map.1 hx
    exact blockLimb_lt _ g

/-- The empty code and a single zero byte. -/
theorem hashContractBytecode_blocks_injective_zero :
    ([] : List UInt8) ≠ [0] ∧ bytecodeBlocks [] ≠ bytecodeBlocks [0] :=
  ⟨by decide, hashContractBytecode_blocks_injective.2.1 [] [0] (by decide)⟩

end Merkletree

end XLayerNode
