import XLayerNode.Common.Bytes
/-!
# Hexadecimal text, as Go's standard library writes and reads it

`encodeToString` and `decodeString` are `encoding/hex`'s; `formatHex` is
what `strconv.FormatUint(n, 16)`, `big.Int.Text(16)` and `fmt`'s `%x` write
for a non-negative value; `padLeft` is `fmt`'s `%0Ns`, taken to pad with
zeros; `parseUint` is `strconv.ParseUint` and `setString` is
`big.Int.SetString`, each for an explicit base.

Everything written here is a digit string mapped through `hexDigit`, so
one lemma, `decodeString_map_hexDigit`, reads any of them back, and
`parseUintLoop_map_hexDigit` and `setString_map_hexDigit` parse them.
-/

namespace XLayerNode

namespace GoHex

/-- The lowercase character of a nibble (`hextable` of `encoding/hex`). -/
def hexDigit (d : ℕ) : Char := if d < 10 then Char.ofNat (48 + d) else Char.ofNat (87 + d)

/-- The value of a hexadecimal character of either case (`fromHexChar`). -/
def fromHexChar (c : Char) : Option ℕ :=
  if '0' ≤ c ∧ c ≤ '9' then some (c.toNat - 48)
  else if 'a' ≤ c ∧ c ≤ 'f' then some (c.toNat - 87)
  else if 'A' ≤ c ∧ c ≤ 'F' then some (c.toNat - 55)
  else none

theorem fromHexChar_hexDigit_fin : ∀ d : Fin 16, fromHexChar (hexDigit d) = some d := by
  decide

@[simp] theorem fromHexChar_hexDigit {d : ℕ} (hd : d < 16) : fromHexChar (hexDigit d) = some d :=
  fromHexChar_hexDigit_fin ⟨d, hd⟩

/-- The two nibbles of each byte, high first. -/
def nibbles (src : List UInt8) : List ℕ := src.flatMap fun b => [b.toNat / 16, b.toNat % 16]

/-- `hex.EncodeToString`: two lowercase digits per byte. -/
def encodeToString (src : List UInt8) : List Char := (nibbles src).map hexDigit

/-- The errors of `hex.DecodeString`. -/
inductive HexError where
  | invalidByteError (c : Char)
  | errLength
  deriving DecidableEq, Repr

/-- `hex.DecodeString`: two digits per byte; the first bad character, or
an odd length, is an error. -/
def decodeString : List Char → Except HexError (List UInt8)
  | [] => .ok []
  | [p] =>
    match fromHexChar p with
    | none => .error (.invalidByteError p)
    | some _ => .error .errLength
  | p :: q :: rest =>
    match fromHexChar p, fromHexChar q with
    | some a, some b => (UInt8.ofNat (a * 16 + b) :: ·) <$> decodeString rest
    | none, _ => .error (.invalidByteError p)
    | some _, none => .error (.invalidByteError q)

/-- The digits `strconv.FormatUint(n, 16)` writes: none dropped for zero. -/
def hexDigits (n : ℕ) : List ℕ := if n = 0 then [0] else (Nat.digits 16 n).reverse

/-- `strconv.FormatUint(n, 16)`, `big.Int.Text(16)`, and `fmt`'s `%x`. -/
def formatHex (n : ℕ) : List Char := (hexDigits n).map hexDigit

/-- `fmt`'s `%0Ns` of a string: padded on the left to `width` with `0`. -/
def padLeft (width : ℕ) (s : List Char) : List Char := List.replicate (width - s.length) '0' ++ s

/-- The errors of `strconv.ParseUint`. -/
inductive NumError where
  | errSyntax
  | errRange
  | baseError
  | bitSizeError
  deriving DecidableEq, Repr

/-- The digit `strconv` reads from a character: `0`–`9`, then letters of
either case (`lower(c)`, the character with bit `0x20` set). -/
def digitVal (c : Char) : Option ℕ :=
  if '0' ≤ c ∧ c ≤ '9' then some (c.toNat - 48)
  else if 97 ≤ (c.toNat ||| 32) ∧ (c.toNat ||| 32) ≤ 122 then some ((c.toNat ||| 32) - 87)
  else none

theorem digitVal_hexDigit_fin : ∀ d : Fin 16, digitVal (hexDigit d) = some d := by
  decide

@[simp] theorem digitVal_hexDigit {d : ℕ} (hd : d < 16) : digitVal (hexDigit d) = some d :=
  digitVal_hexDigit_fin ⟨d, hd⟩

/-- The digit loop of `strconv.ParseUint` from the value `n` read so far:
`n ≥ cutoff` means `n * base` overflows 64 bits, and a sum above `maxVal`
is out of range. -/
def parseUintLoop (base maxVal : ℕ) : ℕ → List Char → Except NumError ℕ
  | n, [] => .ok n
  | n, c :: cs =>
    match digitVal c with
    | none => .error .errSyntax
    | some d =>
      if base ≤ d then .error .errSyntax
      else if (2 ^ 64 - 1) / base + 1 ≤ n then .error .errRange
      else if maxVal < n * base + d then .error .errRange
      else parseUintLoop base maxVal (n * base + d) cs

/-- `strconv.ParseUint(s, base, bitSize)` for an explicit base `2 ≤ base ≤ 36`;
the prefix detection of base `0` is outside this model. -/
def parseUint (s : List Char) (base bitSize : ℕ) : Except NumError ℕ :=
  if s = [] then .error .errSyntax
  else if base < 2 ∨ 36 < base then .error .baseError
  else if 64 < bitSize then .error .bitSizeError
  else parseUintLoop base (2 ^ (if bitSize = 0 then 64 else bitSize) - 1) 0 s

/-- The value of a non-empty string of digits below `base`, most
significant first: `nat.scan` of `math/big` for an explicit base. -/
def digitsValue (base : ℕ) (s : List Char) : Option ℕ :=
  if s = [] then none
  else (s.mapM fun c => (digitVal c).filter (· < base)).map (ofDigitsBE base)

/-- `new(big.Int).SetString(s, base)` for an explicit base: an optional
sign, then digits; `none` is `ok == false`. -/
def setString (s : List Char) (base : ℕ) : Option ℤ :=
  match s with
  | '-' :: ds => (digitsValue base ds).map fun n => -(n : ℤ)
  | '+' :: ds => (digitsValue base ds).map fun n => (n : ℤ)
  | ds => (digitsValue base ds).map fun n => (n : ℤ)

/-! ## Nibbles -/

@[simp] theorem nibbles_nil : nibbles [] = [] := rfl

@[simp] theorem nibbles_cons (b : UInt8) (bs : List UInt8) :
    nibbles (b :: bs) = b.toNat / 16 :: b.toNat % 16 :: nibbles bs := rfl

@[simp] theorem length_nibbles (bs : List UInt8) : (nibbles bs).length = 2 * bs.length := by
  induction bs with
  | nil => rfl
  | cons b bs ih => simp only [nibbles_cons, List.length_cons, ih]; ring

theorem lt_of_mem_nibbles {bs : List UInt8} {d : ℕ} (h : d ∈ nibbles bs) : d < 16 := by
  simp only [nibbles, List.mem_flatMap, List.mem_cons, List.not_mem_nil, or_false] at h
  obtain ⟨b, -, rfl | rfl⟩ := h
  · have := UInt8.toNat_lt b; omega
  · omega

/-- The nibbles of a byte string spell its value in base 16. -/
theorem ofDigitsBE_nibbles (bs : List UInt8) : ofDigitsBE 16 (nibbles bs) = beValue bs := by
  induction bs with
  | nil => rfl
  | cons b bs ih =>
    have hb : b.toNat / 16 * 16 + b.toNat % 16 = b.toNat := by omega
    have h16 : (16 : ℕ) ^ (2 * bs.length) = 256 ^ bs.length := by rw [pow_mul]; norm_num
    rw [nibbles_cons, ofDigitsBE_cons, ofDigitsBE_cons, ih, beValue_cons]
    simp only [List.length_cons, length_nibbles, pow_succ, h16]
    conv_rhs => rw [← hb]
    ring

/-! ## Decoding hexadecimal text -/

/-- **Reading back a digit string.** Any even-length string of nibbles,
written with `hexDigit`, decodes to half as many bytes of the same value. -/
theorem decodeString_map_hexDigit :
    ∀ (ds : List ℕ), (∀ d ∈ ds, d < 16) → ds.length % 2 = 0 →
      ∃ bs, decodeString (ds.map hexDigit) = .ok bs ∧ 2 * bs.length = ds.length ∧
        beValue bs = ofDigitsBE 16 ds
  | [], _, _ => ⟨[], rfl, rfl, rfl⟩
  | [_], _, h => by simp at h
  | a :: b :: rest, hds, hlen => by
    have ha : a < 16 := hds a (by simp)
    have hb : b < 16 := hds b (by simp)
    obtain ⟨bs, hbs, hlen', hval⟩ :=
      decodeString_map_hexDigit rest (fun d hd => hds d (by simp [hd]))
        (by simp at hlen; omega)
    refine ⟨UInt8.ofNat (a * 16 + b) :: bs, ?_, ?_, ?_⟩
    · simp [decodeString, fromHexChar_hexDigit ha, fromHexChar_hexDigit hb, hbs]
    · simp only [List.length_cons]; omega
    · have hab : (UInt8.ofNat (a * 16 + b)).toNat = a * 16 + b := by
        simp only [UInt8.toNat_ofNat']; omega
      have hpow : (256 : ℕ) ^ bs.length = 16 ^ rest.length := by
        rw [← hlen', pow_mul]; norm_num
      rw [beValue_cons, hab, hval, ofDigitsBE_cons, ofDigitsBE_cons, hpow, List.length_cons,
        pow_succ]
      ring

/-- **`DecodeString` inverts `EncodeToString`.** -/
theorem decodeString_encodeToString (bs : List UInt8) :
    decodeString (encodeToString bs) = .ok bs := by
  induction bs with
  | nil => rfl
  | cons b bs ih =>
    have h1 : b.toNat / 16 < 16 := by have := UInt8.toNat_lt b; omega
    have h2 : b.toNat % 16 < 16 := Nat.mod_lt _ (by norm_num)
    have hb : UInt8.ofNat (b.toNat / 16 * 16 + b.toNat % 16) = b := by
      rw [show b.toNat / 16 * 16 + b.toNat % 16 = b.toNat by omega]; exact UInt8.ofNat_toNat
    have henc : encodeToString (b :: bs) =
        hexDigit (b.toNat / 16) :: hexDigit (b.toNat % 16) :: encodeToString bs := rfl
    rw [henc]
    simp [decodeString, fromHexChar_hexDigit h1, fromHexChar_hexDigit h2, ih, hb]

/-- Decoding a concatenation whose first part has even length decodes the
parts. -/
theorem decodeString_append :
    ∀ (cs ds : List Char), cs.length % 2 = 0 →
      decodeString (cs ++ ds) = (do
        let x ← decodeString cs
        let y ← decodeString ds
        pure (x ++ y))
  | [], ds, _ => by
    simp only [List.nil_append, decodeString]
    cases decodeString ds <;> rfl
  | [_], _, h => by simp at h
  | p :: q :: rest, ds, h => by
    have ih := decodeString_append rest ds (by simp at h; omega)
    simp only [List.cons_append, decodeString, ih]
    cases fromHexChar p <;> cases fromHexChar q <;> cases decodeString rest <;>
      cases decodeString ds <;> rfl

/-! ## Formatting numbers -/

theorem lt_of_mem_hexDigits {n d : ℕ} (h : d ∈ hexDigits n) : d < 16 := by
  unfold hexDigits at h
  split_ifs at h
  · simp at h; omega
  · exact Nat.digits_lt_base (by norm_num) (List.mem_reverse.1 h)

@[simp] theorem ofDigitsBE_hexDigits (n : ℕ) : ofDigitsBE 16 (hexDigits n) = n := by
  unfold hexDigits
  split_ifs with h
  · simp [h]
  · rw [ofDigitsBE_eq_ofDigits, List.reverse_reverse, Nat.ofDigits_digits]

theorem length_hexDigits_le {n k : ℕ} (hk : 0 < k) (hn : n < 16 ^ k) :
    (hexDigits n).length ≤ k := by
  unfold hexDigits
  split_ifs
  · simp only [List.length_singleton]; omega
  · rw [List.length_reverse]
    exact (Nat.digits_length_le_iff (by norm_num) n).2 hn

/-- A number padded to `width` digits, as `fmt` writes it, is a digit string. -/
theorem padLeft_formatHex (width n : ℕ) :
    padLeft width (formatHex n) =
      (List.replicate (width - (hexDigits n).length) 0 ++ hexDigits n).map hexDigit := by
  simp [padLeft, formatHex, List.map_replicate, hexDigit]

theorem length_padLeft_formatHex {n k : ℕ} (hk : 0 < k) (hn : n < 256 ^ k) :
    (padLeft (2 * k) (formatHex n)).length = 2 * k := by
  have hn' : n < 16 ^ (2 * k) := by rw [pow_mul]; norm_num; exact hn
  have hlen := length_hexDigits_le (by omega) hn'
  simp [padLeft, formatHex]
  omega

/-- **Reading back a padded number.** `n < 256 ^ k`, written in `2k` hex
digits and decoded, is `k` bytes of value `n`. -/
theorem decodeString_padLeft_formatHex {n k : ℕ} (hk : 0 < k) (hn : n < 256 ^ k) :
    ∃ bs, decodeString (padLeft (2 * k) (formatHex n)) = .ok bs ∧ bs.length = k ∧
      beValue bs = n := by
  have hn' : n < 16 ^ (2 * k) := by rw [pow_mul]; norm_num; exact hn
  have hlen := length_hexDigits_le (by omega) hn'
  obtain ⟨bs, hbs, hl, hv⟩ := decodeString_map_hexDigit
    (List.replicate (2 * k - (hexDigits n).length) 0 ++ hexDigits n)
    (by
      intro d hd
      rcases List.mem_append.1 hd with h | h
      · rw [List.eq_of_mem_replicate h]; norm_num
      · exact lt_of_mem_hexDigits h)
    (by simp; omega)
  refine ⟨bs, by rw [padLeft_formatHex]; exact hbs, ?_, ?_⟩
  · simp at hl; omega
  · simp [hv]

/-! ## Parsing numbers -/

/-- **The parse loop reads a digit string** whose value fits in 64 bits. -/
theorem parseUintLoop_map_hexDigit :
    ∀ (n : ℕ) (ds : List ℕ), (∀ d ∈ ds, d < 16) →
      n * 16 ^ ds.length + ofDigitsBE 16 ds < 2 ^ 64 →
      parseUintLoop 16 (2 ^ 64 - 1) n (ds.map hexDigit) = .ok (n * 16 ^ ds.length + ofDigitsBE 16 ds)
  | n, [], _, _ => by simp [parseUintLoop]
  | n, d :: ds, hds, hfit => by
    have hd : d < 16 := hds d (by simp)
    have hpos : 0 < 16 ^ ds.length := by positivity
    have hstep : (n * 16 + d) * 16 ^ ds.length + ofDigitsBE 16 ds =
        n * 16 ^ (d :: ds).length + ofDigitsBE 16 (d :: ds) := by
      rw [ofDigitsBE_cons, List.length_cons, pow_succ]; ring
    have hle : (n * 16 + d) * 16 ^ ds.length < 2 ^ 64 := by
      rw [← hstep] at hfit; omega
    have hnd : n * 16 + d < 2 ^ 64 := lt_of_le_of_lt (Nat.le_mul_of_pos_right _ hpos) hle
    simp only [List.map_cons, parseUintLoop, digitVal_hexDigit hd]
    rw [if_neg (by omega), if_neg (by norm_num; omega), if_neg (by omega), ← hstep]
    exact parseUintLoop_map_hexDigit (n * 16 + d) ds (fun e he => hds e (by simp [he]))
      (by rw [hstep]; exact hfit)

/-- **`strconv.ParseUint(hex.EncodeToString(b), 16, 64)` is the value of `b`**
for one to eight bytes. -/
theorem parseUint_encodeToString {bs : List UInt8} (hne : bs ≠ []) (h8 : bs.length ≤ 8) :
    parseUint (encodeToString bs) 16 64 = .ok (beValue bs) := by
  have hfit : beValue bs < 2 ^ 64 :=
    lt_of_lt_of_le (beValue_lt bs)
      (by calc 256 ^ bs.length ≤ 256 ^ 8 := Nat.pow_le_pow_right (by norm_num) h8
            _ = 2 ^ 64 := by norm_num)
  have hnil : encodeToString bs ≠ [] := by
    rw [← List.length_pos_iff]
    simp only [encodeToString, List.length_map, length_nibbles]
    have := List.length_pos_iff.2 hne
    omega
  have h := parseUintLoop_map_hexDigit 0 (nibbles bs) (fun _ hd => lt_of_mem_nibbles hd)
    (by simpa [ofDigitsBE_nibbles] using hfit)
  simp only [Nat.zero_mul, Nat.zero_add, ofDigitsBE_nibbles] at h
  rw [parseUint, if_neg hnil, if_neg (by norm_num), if_neg (by norm_num), if_neg (by norm_num)]
  exact h

theorem mapM_digitVal_hexDigit {base : ℕ} (hb : base ≤ 16) :
    ∀ {ds : List ℕ}, (∀ d ∈ ds, d < base) →
      (ds.map hexDigit).mapM (fun c => (digitVal c).filter (· < base)) = some ds
  | [], _ => rfl
  | d :: ds, hds => by
    have hd : d < base := hds d List.mem_cons_self
    have ih := mapM_digitVal_hexDigit hb fun e he => hds e (List.mem_cons_of_mem d he)
    simp [List.mapM_cons, digitVal_hexDigit (lt_of_lt_of_le hd hb), Option.filter_some, hd, ih]

/-- **`SetString` reads a digit string as its value**: a digit is no
sign. -/
theorem setString_map_hexDigit {base : ℕ} (hb : base ≤ 16) {ds : List ℕ} (hne : ds ≠ [])
    (hds : ∀ d ∈ ds, d < base) :
    setString (ds.map hexDigit) base = some (ofDigitsBE base ds : ℤ) := by
  have hvalue : digitsValue base (ds.map hexDigit) = some (ofDigitsBE base ds) := by
    rw [digitsValue, if_neg (by simpa using hne), mapM_digitVal_hexDigit hb hds, Option.map_some]
  obtain ⟨d, rest, rfl⟩ := List.exists_cons_of_ne_nil hne
  have hsign : hexDigit d ≠ '-' ∧ hexDigit d ≠ '+' := by
    have : ∀ d : Fin 16, hexDigit d ≠ '-' ∧ hexDigit d ≠ '+' := by decide
    exact this ⟨d, lt_of_lt_of_le (hds d List.mem_cons_self) hb⟩
  rw [List.map_cons] at hvalue ⊢
  unfold setString
  split
  · rename_i heq
    exact absurd (List.cons.inj heq).1 hsign.1
  · rename_i heq
    exact absurd (List.cons.inj heq).1 hsign.2
  · rw [hvalue]
    rfl

/-- **Padded hex of a byte string reads back as its value**: `%0Ns` of
`EncodeToString`, parsed by `SetString(·, 16)`, also for no bytes. -/
theorem setString_padLeft_encodeToString {width : ℕ} (hw : 0 < width) (bs : List UInt8) :
    setString (padLeft width (encodeToString bs)) 16 = some (beValue bs : ℤ) := by
  have hdigits : padLeft width (encodeToString bs) =
      (List.replicate (width - 2 * bs.length) 0 ++ nibbles bs).map hexDigit := by
    simp [padLeft, encodeToString, List.map_replicate, hexDigit]
  have hne : List.replicate (width - 2 * bs.length) 0 ++ nibbles bs ≠ [] := by
    intro h
    have := congrArg List.length h
    simp only [List.length_append, List.length_replicate, length_nibbles, List.length_nil] at this
    omega
  have hlt : ∀ d ∈ List.replicate (width - 2 * bs.length) 0 ++ nibbles bs, d < 16 := by
    intro d hd
    rcases List.mem_append.1 hd with h | h
    · rw [List.eq_of_mem_replicate h]
      norm_num
    · exact lt_of_mem_nibbles h
  rw [hdigits, setString_map_hexDigit le_rfl hne hlt, ofDigitsBE_replicate_zero_append,
    ofDigitsBE_nibbles]

theorem hexDigits_ne_nil (n : ℕ) : hexDigits n ≠ [] := by
  unfold hexDigits
  split_ifs with h
  · exact List.cons_ne_nil 0 []
  · simpa using Nat.digits_ne_nil_iff_ne_zero.2 h

/-- **`strconv.ParseUint(strconv.FormatUint(n, 16), 16, 64)` is `n`**, for
any value of 64 bits. -/
theorem parseUint_formatHex {n : ℕ} (hn : n < 2 ^ 64) : parseUint (formatHex n) 16 64 = .ok n := by
  have hne : formatHex n ≠ [] := by
    simpa [formatHex] using hexDigits_ne_nil n
  have h := parseUintLoop_map_hexDigit 0 (hexDigits n) (fun _ hd => lt_of_mem_hexDigits hd)
    (by simpa using hn)
  simp only [Nat.zero_mul, Nat.zero_add, ofDigitsBE_hexDigits] at h
  rw [parseUint, if_neg hne, if_neg (by norm_num), if_neg (by norm_num), if_neg (by norm_num)]
  exact h

end GoHex

end XLayerNode
