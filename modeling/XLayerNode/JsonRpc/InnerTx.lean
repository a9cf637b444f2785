import XLayerNode.Common.Outcome
import Mathlib.Data.Int.Notation
import Mathlib.Data.List.Nodup
/-!
# Inner transactions: flattening a call trace

`internalTxTraceToInnerTxs` walks the call tracer's frame tree depth
first, one shared `indexMap` recording the 1-based position of the frame
taken at each level, and lists an `InnerTx` for every frame whose type is
one of the call types, skipping the subtree of any other frame. A frame's
name is its type followed by `_k` for each position on its path, and its
error flag is set when it or a frame above it failed.

The recursion is modelled as the code runs it, state and all (`dfs`,
`dfsCalls`); `listed` says which frames it visits, in preorder, each with
its path and error flag, and `mem_listed_root_iff` says which those are:
the frames reached from the root through frames of call types only (read
off the tree by `framesOn`), flagged when one of them failed.
`internalTxTraceToInnerTxs_eq` is the bridge: the
walk is `internalTxTraceToInnerTx` mapped over `listed`, because at every
call the map agrees with the path below the current level, which is all
the name reads. `internalTxTraceToInnerTx` reads the `To` address of a
`callcode` frame through its pointer, which the call tracer always sets on
the frames of calls (`CaptureEnter`; it clears it only on a failed create).
When no listed frame is a `callcode` frame without one, the walk returns
one `InnerTx` per listed frame with the depth, index and flag of its path,
under pairwise distinct names (`internalTxTraceToInnerTxs_preorder`).
-/

namespace XLayerNode

namespace JsonRpc

open Outcome

/-- A frame of the call tracer's output (`okFrame`), with the fields the
flattening reads. -/
structure OkFrame (Address : Type) where
  /-- `Type`. -/
  type : List Char
  /-- `From`. -/
  fromAddress : Address
  /-- `Gas`. -/
  gas : List Char
  /-- `GasUsed`. -/
  gasUsed : List Char
  /-- `To`; `none` is a nil pointer. -/
  toAddress : Option Address
  /-- `Input`. -/
  input : List Char
  /-- `Output`. -/
  output : List Char
  /-- `Error`. -/
  error : List Char
  /-- `Calls`. -/
  calls : List (OkFrame Address)
  /-- `Value`. -/
  value : List Char

/-- `InnerTx`; `Value` and `TraceAddress` are never set. -/
structure InnerTx where
  dept : ℤ
  internalIndex : ℤ
  fromAddress : List Char
  toAddress : List Char
  input : List Char
  output : List Char
  isError : Bool
  gasUsed : UInt64
  value : List Char
  valueWei : List Char
  callValueWei : List Char
  error : List Char
  gas : UInt64
  callType : List Char
  name : List Char
  traceAddress : List Char
  codeAddress : List Char
  deriving DecidableEq, Repr

/-- The library calls of the flattening, taken as given: `strings.ToLower`,
`common.Address.String()`, `strconv.ParseUint(s, 0, 64)` with its error
dropped, and `hexutil.DecodeBig(s)` printed by `big.Int.String()`. -/
structure Conversions (Address : Type) where
  toLower : List Char → List Char
  addressString : Address → List Char
  parseUint0 : List Char → UInt64
  decodeBigString : List Char → List Char

/-- The frame types `dfs` lists. -/
def callTypes : List (List Char) :=
  ["call", "create", "create2", "callcode", "delegatecall", "staticcall", "selfdestruct"].map
    String.toList

/-- `inArray`. -/
def inArray (dst : List Char) (src : List (List Char)) : Bool := src.any fun v => v == dst

/-- What `dfs` threads through the walk: the shared `indexMap`, where a
missing key reads `0`, and the `innerTxs` listed so far. -/
structure DfsState where
  indexMap : ℕ → ℕ
  innerTxs : List InnerTx

section Flatten

variable {Address : Type} (conv : Conversions Address)

/-- The `InnerTx` literal `internalTxTraceToInnerTx` starts from, with its
`InternalIndex` set. -/
def newInnerTx (currentTx : OkFrame Address) (name : List Char) (depth index : ℕ) : InnerTx :=
  let value := if currentTx.value = [] then "0x0".toList else currentTx.value
  let toAddress := match currentTx.toAddress with
    | some a => conv.addressString a
    | none => []
  let gas := conv.parseUint0 currentTx.gas
  let gasUsed := conv.parseUint0 currentTx.gasUsed
  let callTx : InnerTx :=
    { dept := depth, internalIndex := 0, fromAddress := conv.addressString currentTx.fromAddress,
      toAddress := toAddress, input := currentTx.input, output := currentTx.output,
      isError := false, gasUsed := gasUsed, value := [], valueWei := conv.decodeBigString value,
      callValueWei := value, error := [], gas := gas, callType := conv.toLower currentTx.type,
      name := name, traceAddress := [], codeAddress := [] }
  { callTx with internalIndex := (index : ℤ) - 1 }

/-- The `callcode` step of `internalTxTraceToInnerTx`: `CodeAddress` is
`currentTx.To.String()`, which panics on a nil `To`. -/
def setCodeAddress (currentTx : OkFrame Address) (callTx : InnerTx) : Outcome Empty InnerTx :=
  if conv.toLower currentTx.type = "callcode".toList then
    match currentTx.toAddress with
    | some a => pure { callTx with codeAddress := conv.addressString a }
    | none => panic
  else pure callTx

/-- `internalTxTraceToInnerTx`. -/
def internalTxTraceToInnerTx (currentTx : OkFrame Address) (name : List Char) (depth index : ℕ) :
    Outcome Empty InnerTx := do
  let callTx ← setCodeAddress conv currentTx (newInnerTx conv currentTx name depth index)
  let callTx :=
    if conv.toLower currentTx.type = "delegatecall".toList then { callTx with valueWei := [] }
    else callTx
  pure (if currentTx.error ≠ [] then { callTx with error := currentTx.error, isError := true }
    else callTx)

/-- The loop of `dfs` that names a frame at `level`: its type, then `_`
and the position recorded at each level above it. -/
def frameName (indexMap : ℕ → ℕ) (type : List Char) (level : ℕ) : List Char :=
  (List.range level).foldl
    (fun name i => if indexMap i = 0 then name else name ++ '_' :: Nat.toDigits 10 (indexMap i)) type

mutual

/-- `dfs.dfs`. -/
def dfs : OkFrame Address → ℕ → ℕ → Bool → DfsState → Outcome Empty DfsState
  | tx@⟨_, _, _, _, _, _, _, _, calls, _⟩, level, index, isError, st =>
    if !inArray (conv.toLower tx.type) callTypes then pure st
    else do
      let name := frameName st.indexMap (conv.toLower tx.type) level
      let innerTx ← internalTxTraceToInnerTx conv tx name level index
      let (isError, innerTx) :=
        if !isError then (innerTx.isError, innerTx) else (isError, { innerTx with isError := isError })
      let st := { st with innerTxs := st.innerTxs ++ [innerTx] }
      dfsCalls calls level isError 0 st

/-- The loop of `dfs.dfs` over `tx.Calls`: `index` counts the children,
skipped ones too. -/
def dfsCalls : List (OkFrame Address) → ℕ → Bool → ℕ → DfsState → Outcome Empty DfsState
  | [], _, _, _, st => pure st
  | call :: calls, level, isError, index, st => do
    let index := index + 1
    let st := { st with indexMap := fun i => if i = level then index else st.indexMap i }
    let st ← dfs call (level + 1) (index + 1) isError st
    dfsCalls calls level isError index st

end

/-- `internalTxTraceToInnerTxs`. -/
def internalTxTraceToInnerTxs (tx : OkFrame Address) : Outcome Empty (List InnerTx) := do
  let indexMap : ℕ → ℕ := fun i => if i = 0 then 1 else 0
  let st ← dfs conv tx 0 1 (tx.error != []) ⟨indexMap, []⟩
  pure st.innerTxs

/-! ## The frames listed -/

/-- A frame's name for a path of positions: its type, then `_k` for each. -/
def pathName (type : List Char) (path : List ℕ) : List Char :=
  type ++ path.flatMap fun k => '_' :: Nat.toDigits 10 k

mutual

/-- The frames the walk lists from `tx` at `path`, in preorder, each with
its path and whether it or a frame above it failed (`e` for the frames
above `tx`). -/
def listed : OkFrame Address → List ℕ → Bool → List (OkFrame Address × List ℕ × Bool)
  | tx@⟨_, _, _, _, _, _, _, _, calls, _⟩, path, e =>
    if conv.toLower tx.type ∈ callTypes then
      (tx, path, e || tx.error != []) :: listedCalls calls path (e || tx.error != []) 0
    else []

/-- The frames listed from the children after the first `k`. -/
def listedCalls : List (OkFrame Address) → List ℕ → Bool → ℕ →
    List (OkFrame Address × List ℕ × Bool)
  | [], _, _, _ => []
  | call :: calls, path, e, k => listed call (path ++ [k + 1]) e ++ listedCalls calls path e (k + 1)

end

/-- The frames from `tx` down the 1-based positions of `path`, `tx` first;
`none` when a position is out of range. -/
def framesOn : OkFrame Address → List ℕ → Option (List (OkFrame Address))
  | tx, [] => some [tx]
  | tx, k :: path =>
    if k = 0 then none
    else tx.calls[k - 1]?.bind fun child => (framesOn child path).map (tx :: ·)

/-- The `InnerTx` of a listed frame: `internalTxTraceToInnerTx` at its
path, with its error flag. -/
def innerTxOf (x : OkFrame Address × List ℕ × Bool) : Outcome Empty InnerTx := do
  let innerTx ← internalTxTraceToInnerTx conv x.1 (pathName (conv.toLower x.1.type) x.2.1)
    x.2.1.length (x.2.1.getLastD 0 + 1)
  pure { innerTx with isError := x.2.2 }

/-! ## One frame -/

/-- **`internalTxTraceToInnerTx` panics exactly on a `callcode` frame
without `To`.** -/
theorem internalTxTraceToInnerTx_eq_panic (currentTx : OkFrame Address) (name : List Char)
    (depth index : ℕ) :
    internalTxTraceToInnerTx conv currentTx name depth index = panic ↔
      conv.toLower currentTx.type = "callcode".toList ∧ currentTx.toAddress = none := by
  unfold internalTxTraceToInnerTx setCodeAddress
  by_cases hcc : conv.toLower currentTx.type = "callcode".toList
  · cases hto : currentTx.toAddress with
    | none => simp only [hcc, if_true, panic_bind, and_self]
    | some a => simp only [hcc, if_true, pure_def, ok_bind, reduceCtorEq, and_false]
  · simp only [hcc, if_false, pure_def, ok_bind, reduceCtorEq, false_and]

/-- The fields the walk reads back from an `InnerTx`. -/
theorem fields_of_internalTxTraceToInnerTx {currentTx : OkFrame Address} {name : List Char}
    {depth index : ℕ} {t : InnerTx} (h : internalTxTraceToInnerTx conv currentTx name depth index = ok t) :
    t.name = name ∧ t.dept = depth ∧ t.internalIndex = index - 1 ∧
      t.isError = (currentTx.error != []) := by
  unfold internalTxTraceToInnerTx at h
  obtain ⟨c, hc, ht⟩ := bind_eq_ok.1 h
  -- the `callcode` step sets `CodeAddress` and nothing the walk reads
  have hkey : c.name = name ∧ c.dept = depth ∧ c.internalIndex = index - 1 ∧ c.isError = false := by
    unfold setCodeAddress at hc
    split at hc
    · split at hc
      · cases hc
        exact ⟨rfl, rfl, rfl, rfl⟩
      · cases hc
    · cases hc
      exact ⟨rfl, rfl, rfl, rfl⟩
  obtain ⟨h1, h2, h3, h4⟩ := hkey
  simp only [pure_def, ok.injEq] at ht
  subst ht
  -- the `delegatecall` step clears `ValueWei` only; the error step sets `IsError`
  by_cases herr : currentTx.error = []
  · rw [if_neg (not_not.2 herr)]
    split_ifs <;> simp [h1, h2, h3, h4, herr]
  · rw [if_pos herr]
    split_ifs <;> simp [h1, h2, h3, herr]

theorem inArray_iff (dst : List Char) (src : List (List Char)) : inArray dst src = true ↔ dst ∈ src := by
  simp [inArray]

/-! ## Names -/

theorem frameName_succ (indexMap : ℕ → ℕ) (type : List Char) (level : ℕ) :
    frameName indexMap type (level + 1) =
      if indexMap level = 0 then frameName indexMap type level
      else frameName indexMap type level ++ '_' :: Nat.toDigits 10 (indexMap level) := by
  simp [frameName, List.range_succ]

theorem pathName_append_singleton (type : List Char) (path : List ℕ) (k : ℕ) :
    pathName type (path ++ [k]) = pathName type path ++ '_' :: Nat.toDigits 10 k := by
  simp [pathName]

/-- The map records `path`: the entry of each level above is the (positive)
position on the path. -/
def Records (indexMap : ℕ → ℕ) (path : List ℕ) : Prop :=
  ∀ i (h : i < path.length), indexMap i = path[i] ∧ 0 < path[i]

theorem Records.snoc {m : ℕ → ℕ} {path : List ℕ} (h : Records m path) {k : ℕ} (hk : 0 < k) :
    Records (fun i => if i = path.length then k else m i) (path ++ [k]) := by
  intro i hi
  dsimp only
  rw [List.length_append, List.length_singleton] at hi
  rcases Nat.lt_succ_iff_lt_or_eq.1 hi with hlt | rfl
  · rw [List.getElem_append_left hlt, if_neg (Nat.ne_of_lt hlt)]
    exact h i hlt
  · simp [hk]

theorem Records.congr {m m' : ℕ → ℕ} {path : List ℕ} (h : Records m path)
    (hm : ∀ i < path.length, m' i = m i) : Records m' path := by
  intro i hi
  rw [hm i hi]
  exact h i hi

/-- **The name `dfs` builds is the path's**: the map holds the positions of
the levels above, none of them `0`. -/
theorem frameName_eq {m : ℕ → ℕ} {path : List ℕ} (h : Records m path) (type : List Char) :
    frameName m type path.length = pathName type path := by
  -- by induction on the length of a prefix of the path
  suffices ∀ k ≤ path.length, frameName m type k = pathName type (path.take k) by
    simpa using this path.length (Nat.le_refl _)
  intro k
  induction k with
  | zero => intro _; simp [frameName, pathName]
  | succ k ih =>
    intro hk
    obtain ⟨hmk, hpos⟩ := h k (by omega)
    rw [frameName_succ, hmk, if_neg (Nat.ne_of_gt hpos), ih (by omega),
      List.take_succ_eq_append_getElem (by omega), pathName_append_singleton]

/-! ## The walk is the listing -/

theorem listed_eq (tx : OkFrame Address) (path : List ℕ) (e : Bool) :
    listed conv tx path e =
      if conv.toLower tx.type ∈ callTypes then
        (tx, path, e || tx.error != []) :: listedCalls conv tx.calls path (e || tx.error != []) 0
      else [] := by
  cases tx
  rw [listed]

/-- What a call of `dfs` leaves: a state whose map agrees with `st`'s below
`level` and whose list is `st`'s followed by what `spec` returns. -/
def Extends (level : ℕ) (st : DfsState) (run : Outcome Empty DfsState)
    (spec : Outcome Empty (List InnerTx)) : Prop :=
  ∃ m : ℕ → ℕ, (∀ i < level, m i = st.indexMap i) ∧
    run = (fun xs => (⟨m, st.innerTxs ++ xs⟩ : DfsState)) <$> spec

theorem Extends.of_panic {level : ℕ} {st : DfsState} {run : Outcome Empty DfsState}
    {spec : Outcome Empty (List InnerTx)} (hrun : run = panic) (hspec : spec = panic) :
    Extends level st run spec :=
  ⟨st.indexMap, fun _ _ => rfl, by rw [hrun, hspec, map_panic]⟩

/-- `dfs` at a frame of `level` whose map records its path and whose
`index` is the path's last position. -/
def DfsSpec (tx : OkFrame Address) (level index : ℕ) (isError : Bool) (st : DfsState) : Prop :=
  ∀ path : List ℕ, path.length = level → Records st.indexMap path →
    index = path.getLastD 0 + 1 →
    Extends level st (dfs conv tx level index isError st) ((listed conv tx path isError).mapM (innerTxOf conv))

/-- The loop over the children after the first `index`, at a frame whose
path the map records. -/
def DfsCallsSpec (calls : List (OkFrame Address)) (level : ℕ) (isError : Bool) (index : ℕ)
    (st : DfsState) : Prop :=
  ∀ path : List ℕ, path.length = level → Records st.indexMap path →
    Extends level st (dfsCalls conv calls level isError index st)
      ((listedCalls conv calls path isError index).mapM (innerTxOf conv))

/-- A frame of another type is skipped with its subtree. -/
theorem dfsSpec_skip {tx : OkFrame Address} {level index : ℕ} {isError : Bool} {st : DfsState}
    (h : (!inArray (conv.toLower tx.type) callTypes) = true) : DfsSpec conv tx level index isError st := by
  intro path _ _ _
  have hnot : conv.toLower tx.type ∉ callTypes := by
    rw [← inArray_iff]
    simpa using h
  refine ⟨st.indexMap, fun _ _ => rfl, ?_⟩
  rw [listed_eq, if_neg hnot]
  cases tx
  simp [dfs, h]

/-- A listed frame: its `InnerTx` is appended with the flag of its path,
and the children are walked from there. -/
theorem dfsSpec_frame {tx : OkFrame Address} {level index : ℕ} {isError : Bool} {st : DfsState}
    (h : ¬(!inArray (conv.toLower tx.type) callTypes) = true)
    (ih : ∀ isError' innerTx, DfsCallsSpec conv tx.calls level isError' 0
      ⟨st.indexMap, st.innerTxs ++ [innerTx]⟩) :
    DfsSpec conv tx level index isError st := by
  intro path hlen hrec hidx
  subst hlen hidx
  have hin : conv.toLower tx.type ∈ callTypes := by
    rw [← inArray_iff]
    simpa using h
  have hname := frameName_eq hrec (conv.toLower tx.type)
  have hdfs : dfs conv tx path.length (path.getLastD 0 + 1) isError st =
      (do
        let innerTx ← internalTxTraceToInnerTx conv tx (pathName (conv.toLower tx.type) path)
          path.length (path.getLastD 0 + 1)
        let (isError, innerTx) :=
          if !isError then (innerTx.isError, innerTx) else (isError, { innerTx with isError := isError })
        dfsCalls conv tx.calls path.length isError 0 ⟨st.indexMap, st.innerTxs ++ [innerTx]⟩) := by
    cases tx
    simp only [dfs, if_neg h, hname]
  rw [hdfs, listed_eq, if_pos hin, List.mapM_cons]
  cases ht : internalTxTraceToInnerTx conv tx (pathName (conv.toLower tx.type) path) path.length
      (path.getLastD 0 + 1) with
  | panic => exact Extends.of_panic (panic_bind _) (by simp only [innerTxOf, ht, panic_bind])
  | err e => exact e.elim
  | ok t =>
    obtain ⟨-, -, -, hterr⟩ := fields_of_internalTxTraceToInnerTx conv ht
    -- the flag the children get is the path's, and so is the one listed
    have hflag : (if !isError then (t.isError, t) else (isError, { t with isError := isError })) =
        (isError || tx.error != [], { t with isError := isError || tx.error != [] }) := by
      cases isError
      · rw [Bool.false_or, ← hterr]
        rfl
      · rfl
    obtain ⟨m, hm, hrun⟩ := ih (isError || tx.error != []) { t with isError := isError || tx.error != [] }
      path rfl hrec
    refine ⟨m, hm, ?_⟩
    simp only [ok_bind, hflag, hrun, innerTxOf, ht, pure_def]
    cases (listedCalls conv tx.calls path (isError || tx.error != []) 0).mapM (innerTxOf conv) <;>
      simp [List.append_assoc]

theorem dfsCallsSpec_nil {level : ℕ} {isError : Bool} {index : ℕ} {st : DfsState} :
    DfsCallsSpec conv [] level isError index st := by
  intro path _ _
  exact ⟨st.indexMap, fun _ _ => rfl, by simp [dfsCalls, listedCalls]⟩

/-- A child is walked from the map with its position recorded at `level`;
its subtree may overwrite the deeper levels, but the rest of the children
read only the levels up to `level`. -/
theorem dfsCallsSpec_cons {call : OkFrame Address} {calls : List (OkFrame Address)} {level : ℕ}
    {isError : Bool} {index : ℕ} {st : DfsState}
    (ih1 : DfsSpec conv call (level + 1) (index + 1 + 1) isError
      ⟨fun i => if i = level then index + 1 else st.indexMap i, st.innerTxs⟩)
    (ih2 : ∀ st, DfsCallsSpec conv calls level isError (index + 1) st) :
    DfsCallsSpec conv (call :: calls) level isError index st := by
  intro path hlen hrec
  subst hlen
  obtain ⟨m1, hm1, hrun1⟩ := ih1 (path ++ [index + 1]) (by simp) (hrec.snoc (Nat.succ_pos _))
    (by simp)
  -- the child left the levels up to `level` as they were
  have hagree : ∀ i < path.length, m1 i = st.indexMap i := fun i hi =>
    (hm1 i (by omega)).trans (if_neg (Nat.ne_of_lt hi))
  have hcalls : dfsCalls conv (call :: calls) path.length isError index st =
      dfs conv call (path.length + 1) (index + 1 + 1) isError
        ⟨fun i => if i = path.length then index + 1 else st.indexMap i, st.innerTxs⟩ >>=
        dfsCalls conv calls path.length isError (index + 1) := rfl
  rw [hcalls, hrun1, listedCalls, List.mapM_append]
  cases hM : (listed conv call (path ++ [index + 1]) isError).mapM (innerTxOf conv) with
  | panic => exact Extends.of_panic rfl rfl
  | err e => exact e.elim
  | ok xs =>
    obtain ⟨m2, hm2, hrun2⟩ := ih2 ⟨m1, st.innerTxs ++ xs⟩ path rfl (hrec.congr hagree)
    refine ⟨m2, fun i hi => (hm2 i hi).trans (hagree i hi), ?_⟩
    simp only [map_ok, ok_bind, hrun2]
    cases (listedCalls conv calls path isError (index + 1)).mapM (innerTxOf conv) <;>
      simp [List.append_assoc]

/-- The walk from any frame whose map records its path. -/
theorem dfsSpec_all : ∀ (tx : OkFrame Address) (level index : ℕ) (isError : Bool) (st : DfsState),
    DfsSpec conv tx level index isError st :=
  @dfs.induct Address conv (DfsSpec conv) (DfsCallsSpec conv)
    (fun _ _ _ _ _ _ _ _ _ _ _ _ _ _ h => dfsSpec_skip conv h)
    (fun _ _ _ _ _ _ _ _ _ _ _ _ _ _ h ih => dfsSpec_frame conv h ih)
    (fun _ _ _ _ => dfsCallsSpec_nil conv)
    (fun _ _ _ _ _ _ ih1 ih2 => dfsCallsSpec_cons conv ih1 ih2)

/-- The root's own error flag is the one the listing adds anyway. -/
theorem listed_error_self (tx : OkFrame Address) (path : List ℕ) :
    listed conv tx path (tx.error != []) = listed conv tx path false := by
  rw [listed_eq, listed_eq, Bool.or_self, Bool.false_or]

/-- **The walk is `internalTxTraceToInnerTx` over the listed frames**, panic
included. -/
theorem internalTxTraceToInnerTxs_eq (tx : OkFrame Address) :
    internalTxTraceToInnerTxs conv tx = (listed conv tx [] false).mapM (innerTxOf conv) := by
  obtain ⟨m, -, hrun⟩ := dfsSpec_all conv tx 0 1 (tx.error != []) ⟨fun i => if i = 0 then 1 else 0, []⟩
    [] rfl (fun _ h => absurd h (Nat.not_lt_zero _)) rfl
  rw [internalTxTraceToInnerTxs, listed_error_self] at *
  simp only [hrun]
  cases (listed conv tx [] false).mapM (innerTxOf conv) <;> rfl

/-! ## The listing -/

theorem mem_listedCalls_iff {calls : List (OkFrame Address)} {path : List ℕ} {e : Bool} {k : ℕ}
    {x : OkFrame Address × List ℕ × Bool} :
    x ∈ listedCalls conv calls path e k ↔
      ∃ j c, calls[j]? = some c ∧ x ∈ listed conv c (path ++ [k + (j + 1)]) e := by
  induction calls generalizing k with
  | nil => simp [listedCalls]
  | cons call calls ih =>
    rw [listedCalls, List.mem_append, ih]
    constructor
    · rintro (hx | ⟨j, c, hc, hx⟩)
      · exact ⟨0, call, rfl, hx⟩
      · refine ⟨j + 1, c, by simpa using hc, ?_⟩
        rwa [show k + 1 + (j + 1) = k + (j + 1 + 1) by omega] at hx
    · rintro ⟨_ | j, c, hc, hx⟩
      · simp only [List.getElem?_cons_zero, Option.some.injEq] at hc
        subst hc
        exact .inl hx
      · refine .inr ⟨j, c, by simpa using hc, ?_⟩
        rwa [show k + 1 + (j + 1) = k + (j + 1 + 1) by omega]

/-- **One level of the listing**: a frame of a call type, then what is
listed from each child at the child's position. -/
theorem mem_listed_iff {tx : OkFrame Address} {path : List ℕ} {e : Bool}
    {x : OkFrame Address × List ℕ × Bool} :
    x ∈ listed conv tx path e ↔ conv.toLower tx.type ∈ callTypes ∧
      (x = (tx, path, e || tx.error != []) ∨
        ∃ j c, tx.calls[j]? = some c ∧ x ∈ listed conv c (path ++ [j + 1]) (e || tx.error != [])) := by
  rw [listed_eq]
  split_ifs with hin
  · rw [List.mem_cons, mem_listedCalls_iff]
    simp only [hin, true_and, Nat.zero_add]
  · simp [hin]

theorem eq_of_prefix_of_prefix {path l : List ℕ} {a b : ℕ} (ha : path ++ [a] <+: l)
    (hb : path ++ [b] <+: l) : a = b := by
  have hab := (List.prefix_of_prefix_length_le ha hb (by simp)).eq_of_length (by simp)
  simpa using hab

/-- The frames listed from `tx` at `path` lie below `path`, at distinct
paths. -/
def PathsBelow (tx : OkFrame Address) (path : List ℕ) (e : Bool) : Prop :=
  (∀ x ∈ listed conv tx path e, path <+: x.2.1) ∧ ((listed conv tx path e).map fun x => x.2.1).Nodup

/-- The frames listed from the children after the first `k` lie below
positions past `k`, at distinct paths. -/
def PathsAfter (calls : List (OkFrame Address)) (path : List ℕ) (e : Bool) (k : ℕ) : Prop :=
  (∀ x ∈ listedCalls conv calls path e k, ∃ j, k < j ∧ path ++ [j] <+: x.2.1) ∧
    ((listedCalls conv calls path e k).map fun x => x.2.1).Nodup

theorem pathsBelow_frame {tx : OkFrame Address} {path : List ℕ} {e : Bool}
    (hin : conv.toLower tx.type ∈ callTypes)
    (ih : PathsAfter conv tx.calls path (e || tx.error != []) 0) : PathsBelow conv tx path e := by
  obtain ⟨hbelow, hnodup⟩ := ih
  rw [PathsBelow, listed_eq, if_pos hin]
  refine ⟨?_, ?_⟩
  · intro x hx
    rcases List.mem_cons.1 hx with rfl | hx
    · exact List.prefix_refl _
    · obtain ⟨j, -, hj⟩ := hbelow x hx
      exact (List.prefix_append _ _).trans hj
  · rw [List.map_cons, List.nodup_cons]
    refine ⟨fun hmem => ?_, hnodup⟩
    -- every path listed from a child is longer than the frame's own
    obtain ⟨x, hx, hpath⟩ := List.mem_map.1 hmem
    obtain ⟨j, -, hj⟩ := hbelow x hx
    have hlen := hj.length_le
    simp only [hpath, List.length_append, List.length_singleton] at hlen
    omega

theorem pathsBelow_skip {tx : OkFrame Address} {path : List ℕ} {e : Bool}
    (hin : conv.toLower tx.type ∉ callTypes) : PathsBelow conv tx path e := by
  rw [PathsBelow, listed_eq, if_neg hin]
  simp

theorem pathsAfter_nil {path : List ℕ} {e : Bool} {k : ℕ} : PathsAfter conv [] path e k := by
  simp [PathsAfter, listedCalls]

theorem pathsAfter_cons {call : OkFrame Address} {calls : List (OkFrame Address)} {path : List ℕ}
    {e : Bool} {k : ℕ} (ih1 : PathsBelow conv call (path ++ [k + 1]) e)
    (ih2 : PathsAfter conv calls path e (k + 1)) : PathsAfter conv (call :: calls) path e k := by
  obtain ⟨hbelow1, hnodup1⟩ := ih1
  obtain ⟨hbelow2, hnodup2⟩ := ih2
  rw [PathsAfter, listedCalls, List.map_append, List.nodup_append]
  refine ⟨?_, hnodup1, hnodup2, ?_⟩
  · intro x hx
    rcases List.mem_append.1 hx with hx | hx
    · exact ⟨k + 1, Nat.lt_succ_self k, hbelow1 x hx⟩
    · obtain ⟨j, hj, hpre⟩ := hbelow2 x hx
      exact ⟨j, by omega, hpre⟩
  · -- the first child's paths go through `k + 1`, the others' through later positions
    intro a ha b hb hab
    obtain ⟨x, hx, rfl⟩ := List.mem_map.1 ha
    obtain ⟨y, hy, rfl⟩ := List.mem_map.1 hb
    obtain ⟨j, hj, hpre⟩ := hbelow2 y hy
    have hfirst : path ++ [k + 1] <+: y.2.1 := by
      rw [← hab]
      exact hbelow1 x hx
    have := eq_of_prefix_of_prefix hfirst hpre
    omega

/-- **Listed paths are distinct** and lie below the path listed from. -/
theorem pathsBelow_all : ∀ (tx : OkFrame Address) (path : List ℕ) (e : Bool), PathsBelow conv tx path e :=
  @listed.induct Address conv (PathsBelow conv) (PathsAfter conv)
    (fun _ _ _ _ _ _ _ _ _ _ _ _ hin ih => pathsBelow_frame conv hin ih)
    (fun _ _ _ _ _ _ _ _ _ _ _ _ hin => pathsBelow_skip conv hin)
    (fun _ _ _ => pathsAfter_nil conv)
    (fun _ _ _ _ _ ih1 ih2 => pathsAfter_cons conv ih1 ih2)

theorem framesOn_ne_nil {tx : OkFrame Address} {q : List ℕ} {fs : List (OkFrame Address)}
    (h : framesOn tx q = some fs) : fs ≠ [] := by
  cases q with
  | nil =>
    simp only [framesOn, Option.some.injEq] at h
    simp [← h]
  | cons k q =>
    simp only [framesOn] at h
    split_ifs at h
    obtain ⟨c, -, hc⟩ := Option.bind_eq_some_iff.1 h
    obtain ⟨fs', -, rfl⟩ := Option.map_eq_some_iff.1 hc
    exact List.cons_ne_nil _ _

theorem framesOn_cons_eq_some {tx : OkFrame Address} {k : ℕ} {q : List ℕ}
    {fs : List (OkFrame Address)} :
    framesOn tx (k :: q) = some fs ↔
      0 < k ∧ ∃ c fs', tx.calls[k - 1]? = some c ∧ framesOn c q = some fs' ∧ fs = tx :: fs' := by
  rw [framesOn]
  split_ifs with hk
  · simp [hk]
  · simp only [Option.bind_eq_some_iff, Option.map_eq_some_iff]
    constructor
    · rintro ⟨c, hc, fs', hfs', rfl⟩
      exact ⟨by omega, c, fs', hc, hfs', rfl⟩
    · rintro ⟨-, c, fs', hc, hfs', rfl⟩
      exact ⟨c, hc, fs', hfs', rfl⟩

/-- One step down a path: the frames along `k :: q` are `tx` followed by
those of its `k`-th call along `q`, and `tx`'s error joins the flag. -/
theorem chain_cons_iff {tx f : OkFrame Address} {k : ℕ} {q : List ℕ} {e b : Bool} :
    (∃ fs, framesOn tx (k :: q) = some fs ∧ fs.getLast? = some f ∧
        (∀ g ∈ fs, conv.toLower g.type ∈ callTypes) ∧ b = (e || fs.any fun g => g.error != [])) ↔
      conv.toLower tx.type ∈ callTypes ∧ 0 < k ∧ ∃ c, tx.calls[k - 1]? = some c ∧
        ∃ fs, framesOn c q = some fs ∧ fs.getLast? = some f ∧
          (∀ g ∈ fs, conv.toLower g.type ∈ callTypes) ∧
          b = ((e || tx.error != []) || fs.any fun g => g.error != []) := by
  constructor
  · rintro ⟨fs, hfs, hlast, htypes, hflag⟩
    obtain ⟨hk, c, fs', hc, hfs', rfl⟩ := framesOn_cons_eq_some.1 hfs
    -- the chain below `tx` is not empty, so its last frame is the whole chain's
    obtain ⟨g, fs'', rfl⟩ := List.exists_cons_of_ne_nil (framesOn_ne_nil hfs')
    refine ⟨htypes tx List.mem_cons_self, hk, c, hc, g :: fs'', hfs', ?_,
      fun g' hg' => htypes g' (List.mem_cons_of_mem _ hg'), ?_⟩
    · rwa [List.getLast?_cons_cons] at hlast
    · simp only [hflag, List.any_cons, Bool.or_assoc]
  · rintro ⟨hin, hk, c, hc, fs, hfs, hlast, htypes, hflag⟩
    obtain ⟨g, fs', rfl⟩ := List.exists_cons_of_ne_nil (framesOn_ne_nil hfs)
    refine ⟨tx :: g :: fs', framesOn_cons_eq_some.2 ⟨hk, c, _, hc, hfs, rfl⟩, ?_, ?_, ?_⟩
    · rwa [List.getLast?_cons_cons]
    · intro g' hg'
      rcases List.mem_cons.1 hg' with rfl | hg'
      · exact hin
      · exact htypes g' hg'
    · simp only [hflag, List.any_cons, Bool.or_assoc]

/-- What the listing says of a frame at `path ++ q`, by induction on `q`. -/
theorem mem_listed_iff_of_path {f : OkFrame Address} {b : Bool} :
    ∀ {q : List ℕ} {tx : OkFrame Address} {path : List ℕ} {e : Bool},
      (f, path ++ q, b) ∈ listed conv tx path e ↔ ∃ fs, framesOn tx q = some fs ∧
        fs.getLast? = some f ∧ (∀ g ∈ fs, conv.toLower g.type ∈ callTypes) ∧
        b = (e || fs.any fun g => g.error != [])
  | [], tx, path, e => by
    -- only the frame itself is listed at its own path
    have hchild : ∀ j c, (f, path, b) ∉ listed conv c (path ++ [j + 1]) (e || tx.error != []) :=
      fun j c hmem => by
        have hlen := ((pathsBelow_all conv c _ _).1 _ hmem).length_le
        simp only [List.length_append, List.length_singleton] at hlen
        omega
    rw [List.append_nil, mem_listed_iff]
    simp only [framesOn, Option.some.injEq, exists_eq_left',
      List.getLast?_singleton, List.mem_singleton, forall_eq, List.any_cons, List.any_nil,
      Bool.or_false, Prod.mk.injEq, true_and]
    constructor
    · rintro ⟨hin, ⟨rfl, rfl⟩ | ⟨j, c, -, hmem⟩⟩
      · exact ⟨rfl, hin, rfl⟩
      · exact absurd hmem (hchild j c)
    · rintro ⟨rfl, hin, rfl⟩
      exact ⟨hin, .inl ⟨rfl, rfl⟩⟩
  | k :: q, tx, path, e => by
    rw [mem_listed_iff, chain_cons_iff]
    constructor
    · rintro ⟨hin, hroot | ⟨j, c, hc, hmem⟩⟩
      · simp at hroot
      · -- the child taken is the one at the path's next position
        have hpos : path ++ [k] <+: path ++ k :: q := ⟨q, by simp⟩
        have hj : j + 1 = k := eq_of_prefix_of_prefix ((pathsBelow_all conv c _ _).1 _ hmem) hpos
        subst hj
        rw [show path ++ (j + 1) :: q = path ++ [j + 1] ++ q by simp, mem_listed_iff_of_path] at hmem
        exact ⟨hin, Nat.succ_pos j, c, hc, hmem⟩
    · rintro ⟨hin, hk, c, hc, hchain⟩
      refine ⟨hin, .inr ⟨k - 1, c, hc, ?_⟩⟩
      rw [Nat.sub_add_cancel hk, show path ++ k :: q = path ++ [k] ++ q by simp,
        mem_listed_iff_of_path]
      exact hchain

/-- **Which frames are listed, and with which flag**: those reached from the
root by a path on which every frame has a call type; the flag says whether
one of them failed. -/
theorem mem_listed_root_iff (tx : OkFrame Address) (x : OkFrame Address × List ℕ × Bool) :
    x ∈ listed conv tx [] false ↔ ∃ fs, framesOn tx x.2.1 = some fs ∧ fs.getLast? = some x.1 ∧
      (∀ g ∈ fs, conv.toLower g.type ∈ callTypes) ∧ x.2.2 = fs.any fun g => g.error != [] := by
  obtain ⟨f, p, b⟩ := x
  simpa using @mem_listed_iff_of_path Address conv f b p tx [] false

/-! ## Names -/

theorem pathName_eq_intercalate (type : List Char) (path : List ℕ) :
    pathName type path = ['_'].intercalate (type :: path.map (Nat.toDigits 10)) := by
  induction path generalizing type with
  | nil => simp [pathName]
  | cons k path ih =>
    rw [List.map_cons, List.intercalate_cons_cons, ← ih]
    simp [pathName]

theorem toDigits_injective : Function.Injective (Nat.toDigits 10) := fun m n h => by
  rw [← @Nat.ofDigitChars_ten_toDigits m, h, Nat.ofDigitChars_ten_toDigits]

/-- **A name gives its path back**, for types without `_`: the `_`s cut it
into the type and the positions. -/
theorem pathName_inj {type type' : List Char} {p q : List ℕ} (ht : '_' ∉ type) (ht' : '_' ∉ type')
    (h : pathName type p = pathName type' q) : p = q := by
  have hsplit := congrArg (List.splitOn '_') h
  rw [pathName_eq_intercalate, pathName_eq_intercalate,
    List.splitOn_intercalate _ ?_ (List.cons_ne_nil _ _),
    List.splitOn_intercalate _ ?_ (List.cons_ne_nil _ _)] at hsplit
  · exact List.map_injective_iff.2 toDigits_injective (List.cons.inj hsplit).2
  all_goals
    intro l hl
    rcases List.mem_cons.1 hl with rfl | hl
    · assumption
    · obtain ⟨k, -, rfl⟩ := List.mem_map.1 hl
      exact Nat.underscore_not_in_toDigits

theorem underscore_not_mem_of_mem_callTypes : ∀ type ∈ callTypes, '_' ∉ type := by
  decide

theorem type_mem_callTypes_of_mem_listed {tx : OkFrame Address} {x : OkFrame Address × List ℕ × Bool}
    (hx : x ∈ listed conv tx [] false) : conv.toLower x.1.type ∈ callTypes := by
  obtain ⟨fs, -, hlast, htypes, -⟩ := (mem_listed_root_iff conv tx x).1 hx
  exact htypes _ (List.mem_of_getLast? hlast)

/-- **The listed frames' names are distinct**: their paths are, and a name
gives its path back. -/
theorem nodup_pathNames (tx : OkFrame Address) :
    ((listed conv tx [] false).map fun x => pathName (conv.toLower x.1.type) x.2.1).Nodup := by
  have hpaths := (pathsBelow_all conv tx [] false).2
  refine (hpaths.of_map _).map_on fun x hx y hy hxy => ?_
  have hx' := underscore_not_mem_of_mem_callTypes _ (type_mem_callTypes_of_mem_listed conv hx)
  have hy' := underscore_not_mem_of_mem_callTypes _ (type_mem_callTypes_of_mem_listed conv hy)
  exact List.inj_on_of_nodup_map hpaths hx hy (pathName_inj hx' hy' hxy)

/-! ## What the walk returns -/

/-- The fields of a listed frame's `InnerTx` that its path decides. -/
theorem innerTxOf_fields {x : OkFrame Address × List ℕ × Bool} {t : InnerTx}
    (h : innerTxOf conv x = ok t) :
    t.name = pathName (conv.toLower x.1.type) x.2.1 ∧ t.dept = x.2.1.length ∧
      t.internalIndex = x.2.1.getLastD 0 ∧ t.isError = x.2.2 := by
  obtain ⟨t', ht', ht⟩ := bind_eq_ok.1 h
  simp only [pure_def, ok.injEq] at ht
  subst ht
  obtain ⟨hname, hdept, hidx, -⟩ := fields_of_internalTxTraceToInnerTx conv ht'
  refine ⟨hname, hdept, ?_, rfl⟩
  -- `InternalIndex` is the frame's `index - 1`, and `index` is one past its position
  rw [hidx]
  omega

theorem innerTxOf_ne_panic {x : OkFrame Address × List ℕ × Bool}
    (hto : conv.toLower x.1.type = "callcode".toList → x.1.toAddress ≠ none) :
    innerTxOf conv x ≠ panic := by
  refine bind_ne_panic (fun hp => ?_) fun _ _ => by simp
  obtain ⟨hcc, hnone⟩ := (internalTxTraceToInnerTx_eq_panic conv _ _ _ _).1 hp
  exact hto hcc hnone

theorem internalTxTraceToInnerTxs_preorder (tx : OkFrame Address) :
    internalTxTraceToInnerTxs conv tx = (listed conv tx [] false).mapM (innerTxOf conv) ∧
    (∀ x, x ∈ listed conv tx [] false ↔ ∃ fs, framesOn tx x.2.1 = some fs ∧ fs.getLast? = some x.1 ∧
      (∀ g ∈ fs, conv.toLower g.type ∈ callTypes) ∧ x.2.2 = fs.any fun g => g.error != []) ∧
    ((listed conv tx [] false).map fun x => x.2.1).Nodup ∧
    ((∀ x ∈ listed conv tx [] false, conv.toLower x.1.type = "callcode".toList → x.1.toAddress ≠ none) →
      ∃ txs, internalTxTraceToInnerTxs conv tx = ok txs ∧
        txs.map InnerTx.name = (listed conv tx [] false).map (fun x => pathName (conv.toLower x.1.type) x.2.1) ∧
        txs.map InnerTx.dept = (listed conv tx [] false).map (fun x => (x.2.1.length : ℤ)) ∧
        txs.map InnerTx.internalIndex = (listed conv tx [] false).map (fun x => (x.2.1.getLastD 0 : ℤ)) ∧
        txs.map InnerTx.isError = (listed conv tx [] false).map (fun x => x.2.2) ∧
        (txs.map InnerTx.name).Nodup) := by
  refine ⟨internalTxTraceToInnerTxs_eq conv tx, mem_listed_root_iff conv tx,
    (pathsBelow_all conv tx [] false).2, fun hto => ?_⟩
  -- no listed frame panics, so the walk returns, one `InnerTx` per listed frame
  obtain ⟨txs, htxs⟩ := exists_eq_ok_of_ne_panic
    (mapM_ne_panic fun x hx => innerTxOf_ne_panic conv (hto x hx))
  have hname := map_of_mapM_eq_ok (fun _ _ h => (innerTxOf_fields conv h).1) htxs
  refine ⟨txs, (internalTxTraceToInnerTxs_eq conv tx).trans htxs, hname,
    map_of_mapM_eq_ok (fun _ _ h => (innerTxOf_fields conv h).2.1) htxs,
    map_of_mapM_eq_ok (fun _ _ h => (innerTxOf_fields conv h).2.2.1) htxs,
    map_of_mapM_eq_ok (fun _ _ h => (innerTxOf_fields conv h).2.2.2) htxs, ?_⟩
  rw [hname]
  exact nodup_pathNames conv tx

end Flatten

theorem internalTxTraceToInnerTxs_preorder_call :
    (∀ x ∈ listed (⟨List.map Char.toLower, fun _ => [], fun _ => 0, id⟩ : Conversions Unit)
        ⟨"CALL".toList, (), [], [], some (), [], [], [],
          [⟨"STATICCALL".toList, (), [], [], some (), [], [], "revert".toList, [], []⟩,
            ⟨"CALLCODE".toList, (), [], [], some (), [], [], [], [], []⟩], []⟩ [] false,
      List.map Char.toLower x.1.type = "callcode".toList → x.1.toAddress ≠ none) ∧
    ∃ txs, internalTxTraceToInnerTxs (⟨List.map Char.toLower, fun _ => [], fun _ => 0, id⟩ : Conversions Unit)
        ⟨"CALL".toList, (), [], [], some (), [], [], [],
          [⟨"STATICCALL".toList, (), [], [], some (), [], [], "revert".toList, [], []⟩,
            ⟨"CALLCODE".toList, (), [], [], some (), [], [], [], [], []⟩], []⟩ = ok txs ∧
      (txs.map InnerTx.name).Nodup := by
  have hto : ∀ x ∈ listed (⟨List.map Char.toLower, fun _ => [], fun _ => 0, id⟩ : Conversions Unit)
        ⟨"CALL".toList, (), [], [], some (), [], [], [],
          [⟨"STATICCALL".toList, (), [], [], some (), [], [], "revert".toList, [], []⟩,
            ⟨"CALLCODE".toList, (), [], [], some (), [], [], [], [], []⟩], []⟩ [] false,
      List.map Char.toLower x.1.type = "callcode".toList → x.1.toAddress ≠ none := by
    decide
  obtain ⟨txs, hrun, -, -, -, -, hnodup⟩ := (internalTxTraceToInnerTxs_preorder _ _).2.2.2 hto
  exact ⟨hto, txs, hrun, hnodup⟩

end JsonRpc

end XLayerNode
