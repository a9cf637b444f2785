import XLayerNode.State.Transaction
import XLayerNode.Common.Outcome
import Mathlib.Data.List.Nodup
/-!
# Pool admission: `validateTx` and the free-gas rules

`validateTx` runs a transaction through the pool's checks in order and
stops at the first that fails. One check is waived for some transactions:
the minimum gas price, when `checkFreeGp` finds a free-gas rule that
applies. There are three: a claim to the bridge from a configured
`FreeGasAddress`, a project of the `FreeGasList` that lists the sender, the
destination and the method, and the first transactions of an address the
bridge funded (`EnableFreeGasByNonce`).

The project rule reads two maps built from the list: the name of the last
project that lists the sender, and the last project of each name. A sender
no project lists has the name `""`; a project named `""` then applies to it,
and of two projects with one name, only the last is read. When the names
are distinct and not empty, the rule is what its configuration says
(`projectRule_sound`). The rule also reads the destination without looking
whether there is one, which a contract creation does not have.
-/

namespace XLayerNode

namespace Pool

open Outcome State

/-! ## The model -/

/-- `BridgeClaimMethodSignature`. -/
def bridgeClaimMethodSignature : String := "0xccaa2d11"
/-- `BridgeClaimMessageMethodSignature`. -/
def bridgeClaimMessageMethodSignature : String := "0xf5efcd79"
/-- `ExWithdrawalMethodSignature`: `transfer(address,uint256)` of an ERC-20. -/
def exWithdrawalMethodSignature : String := "0xa9059cbb"

/-- `txGas`. -/
def txGas : ℕ := 21000
/-- `txGasContractCreation`. -/
def txGasContractCreation : ℕ := 53000
/-- `txDataNonZeroGas`. -/
def txDataNonZeroGas : ℕ := 16
/-- `txDataZeroGas`. -/
def txDataZeroGas : ℕ := 4

/-- Why the pool refuses a transaction. -/
inductive PoolError where
  /-- `ErrInvalidIP`: "invalid IP address" -/
  | invalidIP
  /-- `ErrInvalidSender`: "invalid sender" -/
  | invalidSender
  /-- `ErrInvalidChainID`: "invalid chain id" -/
  | invalidChainID
  /-- `ErrTxTypeNotSupported` -/
  | txTypeNotSupported
  /-- `ErrOversizedData`: "oversized data" -/
  | oversizedData
  /-- "tx fee (%s okb) exceeds the configured cap (%.2f okb)" -/
  | txFeeCap
  /-- `ErrBlockedSender`: "blocked sender" -/
  | blockedSender
  /-- `ErrBlockedReceiver`: "blocked receiver" -/
  | blockedReceiver
  /-- `ErrNoWhitelistedSender` -/
  | noWhitelistedSender
  /-- An error of the state, passed on. -/
  | state
  /-- An error of the pool's storage, passed on. -/
  | storage
  /-- `ErrNonceTooLow`: "nonce too low" -/
  | nonceTooLow
  /-- `ErrNonceTooHigh`: "nonce too high" -/
  | nonceTooHigh
  /-- `ErrTxPoolOverflow`: "txpool is full" -/
  | txPoolOverflow
  /-- "gas-free transaction with too high gas limit" -/
  | gasFreeGasLimitTooHigh
  /-- "You are no longer eligible for gas-free transactions ... Only the
  first %d transactions(address nonce less than %d) can be gas-free" -/
  | noLongerEligible (freeGasCountPerAddr : UInt64)
  /-- "You are unable to initiate a gas-free transaction from this address
  unless you have previously transferred funds to this address via the X
  Layer Bridge (%s) or the OKX Exchange. ..." -/
  | notFreeGasAddress (freeGasCountPerAddr : UInt64)
  /-- `ErrGasPrice`: "gas price too low" -/
  | gasPrice
  /-- `ErrInsufficientFunds`: "insufficient funds for gas * price + value" -/
  | insufficientFunds
  /-- `ErrGasUintOverflow`: "gas uint64 overflow" -/
  | gasUintOverflow
  /-- `ErrIntrinsicGas`: "intrinsic gas too low" -/
  | intrinsicGas
  /-- `ErrAlreadyKnown`: "already known" -/
  | alreadyKnown
  /-- `ErrReplaceUnderpriced`: "replacement transaction underpriced" -/
  | replaceUnderpriced
  /-- "data size bigger than allowed, current size is %v bytes and max
  allowed is %v bytes" -/
  | dataSizeTooBig
  /-- "chain id higher than allowed, max allowed is %v" -/
  | chainIdTooHigh
  deriving DecidableEq

/-- `FreeGasInfo`: a project whose transactions are free, by sender,
destination and method. -/
structure FreeGasInfo where
  name : String
  fromList : List String
  toList : List String
  methodSigs : List String
  deriving DecidableEq

/-- The pool's configuration as `validateTx` reads it: the local one, or
Apollo's where Apollo is enabled. -/
structure PoolConfig where
  chainID : ℕ
  maxTxBytesSize : UInt64
  maxTxDataBytesSize : ℕ
  enableWhitelist : Bool
  accountQueue : UInt64
  globalQueue : UInt64
  freeGasAddress : List String
  freeClaimGasLimit : UInt64
  bridgeClaimMethodSigs : List String
  enableFreeGasByNonce : Bool
  freeGasExAddress : List String
  freeGasCountPerAddr : UInt64
  freeGasLimit : UInt64
  enableFreeGasList : Bool
  freeGasList : List FreeGasInfo

/-- `TxStatus`. -/
inductive TxStatus where
  | pending
  | invalid
  | selected
  | failed
  deriving DecidableEq

/-- A transaction of the pool with the sender and nonce of the one asked
about: what the replacement check reads of it. -/
structure OldTx where
  status : TxStatus
  gasPrice : ℕ
  gas : UInt64
  hash : ℕ

/-- What `validateTx` meets: the checks it leaves to libraries
(`net.ParseIP`, `CheckSignature`, `GetSender`, the size of
`EncodeTransaction`, the fee cap, `common.HexToAddress` and the checksummed
`String()` of an address, the hash of a transaction), the lists of blocked
and whitelisted addresses, the L2 bridge, and the answers of the state and
of the storage (`none` for an error). -/
structure PoolEnv where
  parseIP : String → Bool
  checkSignature : LegacyTx → Bool
  getSender : LegacyTx → Option Address
  encodedLength : LegacyTx → Option ℕ
  txFeeWithinCap : ℕ → UInt64 → Bool
  hexToAddress : List Char → Address
  addressString : Address → String
  txHash : LegacyTx → ℕ
  blocked : Address → Bool
  whitelisted : Address → Bool
  l2BridgeAddr : Address
  lastL2BlockRoot : Option ℕ
  getNonce : Address → ℕ → Option UInt64
  countPendingTransactions : Option UInt64
  isFreeGasAddr : Address → Option Bool
  minSuggestedGasPrice : ℕ
  getBalance : Address → ℕ → Option ℕ
  getTxsByFromAndNonce : Address → UInt64 → Option (List OldTx)
  addFreeGasAddr : Address → Bool

/-- A transaction of the pool: the transaction, the IP it came from, and
whether it is a claim (`IsClaims`). -/
structure PoolTx where
  tx : LegacyTx
  ip : String
  isClaims : Bool

/-- `IsValidIP`. -/
def isValidIP (env : PoolEnv) (ip : String) : Bool := ip ≠ "" && env.parseIP ip

/-- `strings.HasPrefix(s, prefix)`. -/
def hasPrefix (s : List Char) (pre : String) : Bool := pre.toList.isPrefixOf s

/-- `"0x"+common.Bytes2Hex(data)`, which is also `hex.EncodeToHex(data)`. -/
def dataHex (data : List UInt8) : List Char := '0' :: 'x' :: GoHex.encodeToString data

/-- `Contains`: whether an address of the list, read by
`common.HexToAddress`, is `ele`. -/
def contains (env : PoolEnv) (s : List String) (ele : Address) : Bool :=
  s.any fun e => env.hexToAddress e.toList = ele

/-- `ContainsMethod`: whether a method signature is a prefix of the data. -/
def containsMethod (data : List Char) (methods : List String) : Bool :=
  methods.any fun m => hasPrefix data m

/-- `getClaimMethod`: the two claim methods of the bridge when none is
configured. -/
def getClaimMethod (methods : List String) : List String :=
  if methods = [] then [bridgeClaimMethodSignature, bridgeClaimMessageMethodSignature] else methods

/-- `IsClaimTx`: a call of a claim method of the L2 bridge, with a gas
limit of at most `FreeClaimGasLimit`. -/
def isClaimTx (env : PoolEnv) (freeClaimGasLimit : UInt64) (bridgeClaimMethods : List String)
    (tx : LegacyTx) : Bool :=
  match tx.toAddr with
  | none => false
  | some dest =>
    if tx.gas > freeClaimGasLimit then false
    else if dest ≠ env.l2BridgeAddr then false
    else (getClaimMethod bridgeClaimMethods).any fun method => hasPrefix (dataHex tx.data) method

/-- `NewTransaction`: the pool's transaction, with `IsClaims` set. -/
def newTransaction (cfg : PoolConfig) (env : PoolEnv) (tx : LegacyTx) (ip : String) : PoolTx :=
  ⟨tx, ip, isClaimTx env cfg.freeClaimGasLimit cfg.bridgeClaimMethodSigs tx⟩

/-- `GetSpecialFreeGasList` (and Apollo's `setFreeGasList`): the name of
the project each sender is listed in, `""` for none, and the project of
each name; a later project overwrites an earlier one in both maps. -/
def getSpecialFreeGasList (freeGasList : List FreeGasInfo) :
    (String → String) × (String → Option FreeGasInfo) :=
  freeGasList.foldl
    (fun maps info =>
      (fun k => if k ∈ info.fromList then info.name else maps.1 k,
        fun name => if name = info.name then some info else maps.2 name))
    (fun _ => "", fun _ => none)

/-- The special-project rule of `checkFreeGp`. -/
def specialProjectRule (cfg : PoolConfig) (env : PoolEnv) (poolTx : PoolTx) (sender : Address) :
    Outcome PoolError Bool :=
  if cfg.enableFreeGasList then
    let maps := getSpecialFreeGasList cfg.freeGasList
    match maps.2 (maps.1 (env.addressString sender)) with
    | none => pure false
    | some info =>
      -- `*poolTx.To()`, with no check that there is a destination
      match poolTx.tx.toAddr with
      | none => .panic
      | some dest =>
        pure (contains env info.toList dest && containsMethod (dataHex poolTx.tx.data) info.methodSigs)
  else pure false

/-- The new-bridge-address rule of `checkFreeGp`: the first transactions
of an address the bridge funded are free. -/
def freeGasByNonceRule (cfg : PoolConfig) (env : PoolEnv) (poolTx : PoolTx) (sender : Address) :
    Except PoolError Bool :=
  if cfg.enableFreeGasByNonce && poolTx.tx.gasPrice = 0 then
    match env.isFreeGasAddr sender with
    | none => throw .storage
    | some isFreeAddr =>
      if isFreeAddr then
        if poolTx.tx.nonce < cfg.freeGasCountPerAddr then
          if poolTx.tx.gas > cfg.freeGasLimit then throw .gasFreeGasLimitTooHigh else pure true
        else throw (.noLongerEligible cfg.freeGasCountPerAddr)
      else throw (.notFreeGasAddress cfg.freeGasCountPerAddr)
  else pure false

/-- `checkFreeGp`: whether a free-gas rule waives the minimum gas price. -/
def checkFreeGp (cfg : PoolConfig) (env : PoolEnv) (poolTx : PoolTx) (sender : Address) :
    Outcome PoolError Bool :=
  -- claim tx
  if contains env cfg.freeGasAddress sender && poolTx.isClaims then pure true
  else do
    -- special project
    let special ← specialProjectRule cfg env poolTx sender
    if special then pure true
    -- new bridge address
    else Outcome.ofExcept (freeGasByNonceRule cfg env poolTx sender)

/-- The zero address, `common.Address{}`. -/
def zeroAddress : Address := ⟨List.replicate 20 0, by simp⟩

/-- The address `checkAndUpdateFreeGasAddr` makes free to send from: the
recipient of a withdrawal from an exchange address, or the destination of
a claim; the zero address for none. -/
def freeGasAddrOf (cfg : PoolConfig) (env : PoolEnv) (poolTx : PoolTx) (sender : Address) :
    Outcome PoolError Address :=
  let inputHex := dataHex poolTx.tx.data
  if contains env cfg.freeGasExAddress sender then
    if hasPrefix inputHex exWithdrawalMethodSignature && inputHex.length > 74 then do
      -- erc20 contract transfer
      let addrHex ← slice inputHex 10 74
      pure (env.hexToAddress ('0' :: 'x' :: addrHex))
    else
      -- `*poolTx.To()`, with no check that there is a destination
      match poolTx.tx.toAddr with
      | none => .panic
      | some dest => pure dest
  else if poolTx.isClaims && inputHex.length > 4554 then do
    -- bridge contract claim
    let addrHex ← slice inputHex 4490 4554
    pure (env.hexToAddress ('0' :: 'x' :: addrHex))
  else pure zeroAddress

/-- `checkAndUpdateFreeGasAddr`: stores the address `freeGasAddrOf` gives
when its nonce is below `FreeGasCountPerAddr`; the result is the address
stored. -/
def checkAndUpdateFreeGasAddr (cfg : PoolConfig) (env : PoolEnv) (poolTx : PoolTx)
    (sender : Address) (root : ℕ) : Outcome PoolError (Option Address) := do
  let freeGpAddr ← freeGasAddrOf cfg env poolTx sender
  if freeGpAddr = zeroAddress then pure none
  else
    match env.getNonce freeGpAddr root with
    | none => .err .state
    | some nonce =>
      if nonce < cfg.freeGasCountPerAddr then
        if env.addFreeGasAddr freeGpAddr then pure (some freeGpAddr) else .err .storage
      else pure none

/-- `IntrinsicGas`: the gas of a transaction before it runs, with the
checks that the sum stays in `uint64`. -/
def intrinsicGas (tx : LegacyTx) : Except PoolError ℕ :=
  let gas := if tx.toAddr = none then txGasContractCreation else txGas
  let dataLen := tx.data.length
  if dataLen > 0 then
    -- zero and non-zero bytes are priced differently
    let nz := tx.data.countP (· ≠ 0)
    let z := dataLen - nz
    if (2 ^ 64 - 1 - gas) / txDataNonZeroGas < nz then .error .gasUintOverflow
    else if (2 ^ 64 - 1 - (gas + nz * txDataNonZeroGas)) / txDataZeroGas < z then
      .error .gasUintOverflow
    else pure (gas + nz * txDataNonZeroGas + z * txDataZeroGas)
  else pure gas

/-- The replacement check: a transaction of the pool with the same sender
and nonce that is not invalid or failed must not be this one, nor pay more
for its gas. -/
def checkReplacement (txHash : ℕ) (tx : LegacyTx) : List OldTx → Except PoolError Unit
  | [] => pure ()
  | oldTx :: oldTxs =>
    -- discard invalid txs
    if oldTx.status = .invalid ∨ oldTx.status = .failed then checkReplacement txHash tx oldTxs
    else
      let oldTxPrice := oldTx.gasPrice * oldTx.gas.toNat
      let txPrice := tx.gasPrice * tx.gas.toNat
      if oldTx.hash = txHash then .error .alreadyKnown
      else if oldTxPrice > txPrice then .error .replaceUnderpriced
      else checkReplacement txHash tx oldTxs

/-- `checkTxFieldCompatibilityWithExecutor`. -/
def checkTxFieldCompatibilityWithExecutor (cfg : PoolConfig) (tx : LegacyTx) :
    Except PoolError Unit :=
  if tx.data.length > cfg.maxTxDataBytesSize then .error .dataSizeTooBig
  else if tx.chainId > 2 ^ 64 - 1 then .error .chainIdTooHigh
  else pure ()

/-- The checks of `validateTx` up to the sender: the IP, the signature and
the chain id. None of them can panic. -/
def checkSender (cfg : PoolConfig) (env : PoolEnv) (poolTx : PoolTx) : Except PoolError Address :=
  let tx := poolTx.tx
  -- `ChainId().Uint64()`
  let txChainID := tx.chainId % 2 ^ 64
  if poolTx.ip ≠ "" && !isValidIP env poolTx.ip then .error .invalidIP
  else if !env.checkSignature tx then .error .invalidSender
  else if txChainID ≠ cfg.chainID ∧ txChainID ≠ 0 then .error .invalidChainID
  -- `Type() != LegacyTxType` never holds: the model's transactions are legacy ones
  else if txChainID = 0 ∧ !isPreEIP155Tx tx then .error .invalidSender
  else
    match env.getSender tx with
    | none => .error .invalidSender
    | some sender => pure sender

/-- The checks of `validateTx` from the size to the pool's capacity; the
result is the root of the last L2 block. -/
def checkQueues (cfg : PoolConfig) (env : PoolEnv) (tx : LegacyTx) (sender : Address) :
    Except PoolError ℕ :=
  match env.encodedLength tx with
  | none => .error .txTypeNotSupported
  | some encodedLength =>
    if encodedLength > cfg.maxTxBytesSize.toNat then .error .oversizedData
    -- `Value().Sign() < 0` never holds: a value is a natural number here
    else if !env.txFeeWithinCap tx.gasPrice tx.gas then .error .txFeeCap
    else if env.blocked sender then .error .blockedSender
    else if tx.toAddr.any env.blocked then .error .blockedReceiver
    else if cfg.enableWhitelist && !env.whitelisted sender then .error .noWhitelistedSender
    else
      match env.lastL2BlockRoot with
      | none => .error .state
      | some root =>
        match env.getNonce sender root with
        | none => .error .state
        | some currentNonce =>
          if tx.nonce < currentNonce then .error .nonceTooLow
          else if cfg.accountQueue > 0 && tx.nonce > currentNonce + cfg.accountQueue - 1 then
            .error .nonceTooHigh
          else if cfg.globalQueue > 0 then
            match env.countPendingTransactions with
            | none => .error .state
            | some txCount =>
              if txCount ≥ cfg.globalQueue then .error .txPoolOverflow else pure root
          else pure root

/-- The checks of `validateTx` after `checkFreeGp`: the gas price, unless a
rule waived it, the funds, the intrinsic gas, the replacement and the
executor's field sizes. -/
def checkPriceAndFunds (cfg : PoolConfig) (env : PoolEnv) (tx : LegacyTx) (sender : Address)
    (root : ℕ) (freeGp : Bool) : Except PoolError Unit :=
  if !freeGp && tx.gasPrice < env.minSuggestedGasPrice then .error .gasPrice
  else
    match env.getBalance sender root with
    | none => .error .state
    | some balance =>
      -- `Cost()`: value + gas price × gas
      if balance < tx.value + tx.gasPrice * tx.gas.toNat then .error .insufficientFunds
      else do
        let intrGas ← intrinsicGas tx
        if tx.gas.toNat < intrGas then .error .intrinsicGas
        else
          match env.getTxsByFromAndNonce sender tx.nonce with
          | none => .error .storage
          | some oldTxs => do
            checkReplacement (env.txHash tx) tx oldTxs
            checkTxFieldCompatibilityWithExecutor cfg tx

/-- `validateTx`; the result is the address `checkAndUpdateFreeGasAddr`
stored, if any. -/
def validateTx (cfg : PoolConfig) (env : PoolEnv) (poolTx : PoolTx) :
    Outcome PoolError (Option Address) := do
  let sender ← Outcome.ofExcept (checkSender cfg env poolTx)
  let root ← Outcome.ofExcept (checkQueues cfg env poolTx.tx sender)
  let freeGp ← checkFreeGp cfg env poolTx sender
  Outcome.ofExcept (checkPriceAndFunds cfg env poolTx.tx sender root freeGp)
  if cfg.enableFreeGasByNonce then checkAndUpdateFreeGasAddr cfg env poolTx sender root
  else pure none

/-! ## What `checkFreeGp` waives the gas price for -/

/-- The three rules, as `checkFreeGp` reads them: a claim from a free-gas
address, the project the maps give for the sender, and free gas by count. -/
def FreeGasRule (cfg : PoolConfig) (env : PoolEnv) (poolTx : PoolTx) (sender : Address) : Prop :=
  (contains env cfg.freeGasAddress sender = true ∧ poolTx.isClaims = true) ∨
    (cfg.enableFreeGasList = true ∧ ∃ info dest,
      (getSpecialFreeGasList cfg.freeGasList).2
          ((getSpecialFreeGasList cfg.freeGasList).1 (env.addressString sender)) = some info ∧
        poolTx.tx.toAddr = some dest ∧ contains env info.toList dest = true ∧
        containsMethod (dataHex poolTx.tx.data) info.methodSigs = true) ∨
    (cfg.enableFreeGasByNonce = true ∧ poolTx.tx.gasPrice = 0 ∧
      env.isFreeGasAddr sender = some true ∧ poolTx.tx.nonce < cfg.freeGasCountPerAddr ∧
      poolTx.tx.gas ≤ cfg.freeGasLimit)

section Rules

variable {cfg : PoolConfig} {env : PoolEnv} {poolTx : PoolTx} {sender : Address}

theorem specialProjectRule_eq_ok_true (h : specialProjectRule cfg env poolTx sender = .ok true) :
    cfg.enableFreeGasList = true ∧ ∃ info dest,
      (getSpecialFreeGasList cfg.freeGasList).2
          ((getSpecialFreeGasList cfg.freeGasList).1 (env.addressString sender)) = some info ∧
        poolTx.tx.toAddr = some dest ∧ contains env info.toList dest = true ∧
        containsMethod (dataHex poolTx.tx.data) info.methodSigs = true := by
  unfold specialProjectRule at h
  by_cases hen : cfg.enableFreeGasList = true
  · rw [if_pos hen] at h
    refine ⟨hen, ?_⟩
    cases hinfo : (getSpecialFreeGasList cfg.freeGasList).2
        ((getSpecialFreeGasList cfg.freeGasList).1 (env.addressString sender)) with
    | none => simp [hinfo] at h
    | some info =>
      cases hdest : poolTx.tx.toAddr with
      | none => simp [hinfo, hdest] at h
      | some dest =>
        simp only [hinfo, hdest, pure_def, ok.injEq, Bool.and_eq_true] at h
        exact ⟨info, dest, rfl, rfl, h.1, h.2⟩
  · simp [hen] at h

/-- The project rule panics only on a contract creation. -/
theorem specialProjectRule_ne_panic (hdest : poolTx.tx.toAddr ≠ none) :
    specialProjectRule cfg env poolTx sender ≠ .panic := by
  unfold specialProjectRule
  by_cases hen : cfg.enableFreeGasList = true
  · rw [if_pos hen]
    obtain ⟨dest, hd⟩ := Option.ne_none_iff_exists'.1 hdest
    cases hinfo : (getSpecialFreeGasList cfg.freeGasList).2
        ((getSpecialFreeGasList cfg.freeGasList).1 (env.addressString sender)) <;>
      simp [hinfo, hd]
  · simp [hen]

theorem freeGasByNonceRule_eq_ok_true (h : freeGasByNonceRule cfg env poolTx sender = .ok true) :
    cfg.enableFreeGasByNonce = true ∧ poolTx.tx.gasPrice = 0 ∧
      env.isFreeGasAddr sender = some true ∧ poolTx.tx.nonce < cfg.freeGasCountPerAddr ∧
      poolTx.tx.gas ≤ cfg.freeGasLimit := by
  unfold freeGasByNonceRule at h
  by_cases hen : (cfg.enableFreeGasByNonce && decide (poolTx.tx.gasPrice = 0)) = true
  · rw [if_pos hen] at h
    simp only [Bool.and_eq_true, decide_eq_true_eq] at hen
    cases hfree : env.isFreeGasAddr sender with
    | none => simp [hfree] at h
    | some isFreeAddr =>
      simp only [hfree] at h
      by_cases hisFree : isFreeAddr = true
      · by_cases hnonce : poolTx.tx.nonce < cfg.freeGasCountPerAddr
        · by_cases hgas : poolTx.tx.gas > cfg.freeGasLimit
          · simp [hisFree, hnonce, hgas] at h
          · exact ⟨hen.1, hen.2, by rw [hisFree], hnonce, UInt64.not_lt.1 hgas⟩
        · simp [hisFree, hnonce] at h
      · simp [hisFree] at h
  · rw [if_neg hen] at h
    cases h

/-- **`checkFreeGp` waives the gas price only under one of its rules.** -/
theorem checkFreeGp_eq_ok_true (h : checkFreeGp cfg env poolTx sender = .ok true) :
    FreeGasRule cfg env poolTx sender := by
  unfold checkFreeGp at h
  by_cases hclaim : (contains env cfg.freeGasAddress sender && poolTx.isClaims) = true
  · exact .inl (by simpa using hclaim)
  · rw [if_neg hclaim] at h
    obtain ⟨special, hspecial, h⟩ := bind_eq_ok.1 h
    cases special
    · exact .inr (.inr (freeGasByNonceRule_eq_ok_true (ofExcept_eq_ok.1 (by simpa using h))))
    · exact .inr (.inl (specialProjectRule_eq_ok_true hspecial))

theorem checkFreeGp_ne_panic (hdest : poolTx.tx.toAddr ≠ none) :
    checkFreeGp cfg env poolTx sender ≠ .panic := by
  unfold checkFreeGp
  split_ifs
  · simp
  · refine bind_ne_panic (specialProjectRule_ne_panic hdest) fun special _ => ?_
    cases special
    · exact ofExcept_ne_panic _
    · simp

end Rules

/-! ## The project rule reads the last project of a name -/

theorem getSpecialFreeGasList_append (l : List FreeGasInfo) (info : FreeGasInfo) :
    getSpecialFreeGasList (l ++ [info]) =
      (fun k => if k ∈ info.fromList then info.name else (getSpecialFreeGasList l).1 k,
        fun name => if name = info.name then some info else (getSpecialFreeGasList l).2 name) := by
  simp only [getSpecialFreeGasList, List.foldl_append, List.foldl_cons, List.foldl_nil]

/-- The name a sender is read under: that of the last project listing it,
`""` if none does. -/
theorem getSpecialFreeGasList_fst (l : List FreeGasInfo) (k : String) :
    (getSpecialFreeGasList l).1 k =
      ((l.reverse.find? fun info => k ∈ info.fromList).map (·.name)).getD "" := by
  induction l using List.reverseRecOn with
  | nil => rfl
  | append_singleton l info ih =>
    rw [getSpecialFreeGasList_append, List.reverse_append, List.reverse_singleton,
      List.singleton_append, List.find?_cons]
    by_cases hk : k ∈ info.fromList
    · simp [hk]
    · simpa [hk] using ih

/-- The project a name is read as: the last one of that name. -/
theorem getSpecialFreeGasList_snd (l : List FreeGasInfo) (name : String) :
    (getSpecialFreeGasList l).2 name = l.reverse.find? fun info => info.name = name := by
  induction l using List.reverseRecOn with
  | nil => rfl
  | append_singleton l info ih =>
    rw [getSpecialFreeGasList_append, List.reverse_append, List.reverse_singleton,
      List.singleton_append, List.find?_cons]
    by_cases hname : name = info.name
    · simp [hname]
    · simpa [hname, Ne.symm hname] using ih

/-- The names of a `FreeGasList` are distinct and none is empty. -/
def WellNamed (l : List FreeGasInfo) : Prop :=
  (l.map (·.name)).Nodup ∧ ∀ info ∈ l, info.name ≠ ""

/-- **With well-named projects, the project rule reads a project that lists
the sender.** -/
theorem projectRule_sound {l : List FreeGasInfo} (hl : WellNamed l) {k : String}
    {info : FreeGasInfo}
    (h : (getSpecialFreeGasList l).2 ((getSpecialFreeGasList l).1 k) = some info) :
    info ∈ l ∧ k ∈ info.fromList := by
  rw [getSpecialFreeGasList_snd, getSpecialFreeGasList_fst] at h
  obtain ⟨hinfo, hname⟩ : info ∈ l ∧ info.name =
      ((l.reverse.find? fun info => k ∈ info.fromList).map (·.name)).getD "" := by
    have := List.mem_of_find?_eq_some h
    exact ⟨List.mem_reverse.1 this, by simpa using List.find?_some h⟩
  cases hfind : l.reverse.find? fun info => k ∈ info.fromList with
  | none =>
    -- a sender no project lists is read under `""`, which no project has
    rw [hfind] at hname
    exact absurd hname (hl.2 info hinfo)
  | some listing =>
    rw [hfind] at hname
    have hlisting : listing ∈ l := List.mem_reverse.1 (List.mem_of_find?_eq_some hfind)
    have hk : k ∈ listing.fromList := by simpa using List.find?_some hfind
    -- two projects of one name are one project
    have heq : info = listing := List.inj_on_of_nodup_map hl.1 hinfo hlisting hname
    exact ⟨hinfo, heq ▸ hk⟩

/-! ## Admission -/

section Admission

variable {cfg : PoolConfig} {env : PoolEnv} {poolTx : PoolTx} {sender : Address}

theorem checkSender_eq_ok (h : checkSender cfg env poolTx = .ok sender) :
    env.getSender poolTx.tx = some sender := by
  unfold checkSender at h
  dsimp only at h
  split_ifs at h
  cases hs : env.getSender poolTx.tx with
  | none =>
    rw [hs] at h
    cases h
  | some s =>
    rw [hs] at h
    cases h
    rfl

/-- Past `checkPriceAndFunds`, the gas price was waived or is not below the
minimum. -/
theorem checkPriceAndFunds_gasPrice {tx : LegacyTx} {root : ℕ} {freeGp : Bool}
    (h : checkPriceAndFunds cfg env tx sender root freeGp = .ok ()) :
    freeGp = true ∨ env.minSuggestedGasPrice ≤ tx.gasPrice := by
  unfold checkPriceAndFunds at h
  by_cases hlow : (!freeGp && decide (tx.gasPrice < env.minSuggestedGasPrice)) = true
  · rw [if_pos hlow] at h
    cases h
  · cases freeGp
    · exact .inr (by simpa using hlow)
    · exact .inl rfl

/-- The address `checkAndUpdateFreeGasAddr` reads: its two slices are in
range, and the destination it reads is there unless the transaction
creates a contract. -/
theorem freeGasAddrOf_ne_panic (hdest : poolTx.tx.toAddr ≠ none) :
    freeGasAddrOf cfg env poolTx sender ≠ .panic := by
  unfold freeGasAddrOf
  dsimp only
  split_ifs with hex hwithdrawal hclaim
  · have hlen : (dataHex poolTx.tx.data).length > 74 := by
      simp only [Bool.and_eq_true, decide_eq_true_eq] at hwithdrawal
      exact hwithdrawal.2
    rw [slice_of_le (by omega) (by omega), ok_bind]
    simp
  · obtain ⟨dest, hd⟩ := Option.ne_none_iff_exists'.1 hdest
    simp [hd]
  · have hlen : (dataHex poolTx.tx.data).length > 4554 := by
      simp only [Bool.and_eq_true, decide_eq_true_eq] at hclaim
      exact hclaim.2
    rw [slice_of_le (by omega) (by omega), ok_bind]
    simp
  · simp

theorem checkAndUpdateFreeGasAddr_ne_panic (hdest : poolTx.tx.toAddr ≠ none) (root : ℕ) :
    checkAndUpdateFreeGasAddr cfg env poolTx sender root ≠ .panic := by
  unfold checkAndUpdateFreeGasAddr
  refine bind_ne_panic (freeGasAddrOf_ne_panic hdest) fun freeGpAddr _ => ?_
  by_cases hzero : freeGpAddr = zeroAddress
  · simp [hzero]
  · rw [if_neg hzero]
    cases env.getNonce freeGpAddr root with
    | none => simp
    | some nonce =>
      dsimp only
      split_ifs <;> simp

/-- **`validateTx` never panics on a transaction with a destination.** -/
theorem validateTx_ne_panic (hdest : poolTx.tx.toAddr ≠ none) :
    validateTx cfg env poolTx ≠ .panic := by
  unfold validateTx
  refine bind_ne_panic (ofExcept_ne_panic _) fun sender _ => ?_
  refine bind_ne_panic (ofExcept_ne_panic _) fun root _ => ?_
  refine bind_ne_panic (checkFreeGp_ne_panic hdest) fun freeGp _ => ?_
  refine bind_ne_panic (ofExcept_ne_panic _) fun _ _ => ?_
  split_ifs
  · exact checkAndUpdateFreeGasAddr_ne_panic hdest root
  · simp

/-- **A transaction admitted below the minimum gas price is under a rule
of `checkFreeGp`.** -/
theorem validateTx_freeGasRule {r : Option Address} (h : validateTx cfg env poolTx = .ok r)
    (hlow : poolTx.tx.gasPrice < env.minSuggestedGasPrice) :
    ∃ sender, env.getSender poolTx.tx = some sender ∧ FreeGasRule cfg env poolTx sender := by
  unfold validateTx at h
  obtain ⟨sender, hsender, h⟩ := bind_eq_ok.1 h
  obtain ⟨root, -, h⟩ := bind_eq_ok.1 h
  obtain ⟨freeGp, hfree, h⟩ := bind_eq_ok.1 h
  obtain ⟨_, hprice, -⟩ := bind_eq_ok.1 h
  refine ⟨sender, checkSender_eq_ok (ofExcept_eq_ok.1 hsender), ?_⟩
  rcases checkPriceAndFunds_gasPrice (ofExcept_eq_ok.1 hprice) with hwaived | hge
  · exact checkFreeGp_eq_ok_true (hwaived ▸ hfree)
  · omega

/-- `IsClaimTx`: a claim method called on the L2 bridge within
`FreeClaimGasLimit`. -/
theorem isClaimTx_eq_true {freeClaimGasLimit : UInt64} {methods : List String} {tx : LegacyTx} :
    isClaimTx env freeClaimGasLimit methods tx = true ↔
      tx.toAddr = some env.l2BridgeAddr ∧ tx.gas ≤ freeClaimGasLimit ∧
        ∃ method ∈ getClaimMethod methods, hasPrefix (dataHex tx.data) method = true := by
  unfold isClaimTx
  cases hto : tx.toAddr with
  | none => simp
  | some dest =>
    by_cases hgas : tx.gas > freeClaimGasLimit
    · simp [hgas, UInt64.not_le.2 hgas]
    · by_cases hbridge : dest = env.l2BridgeAddr
      · simp [hgas, hbridge, UInt64.not_lt.1 hgas]
      · simp [hgas, hbridge]

/-- **Admission below the minimum gas price, with well-named projects**: a
claim to the bridge from a free-gas address, a project that lists the
sender, the destination and the method, or free gas by count. -/
theorem validateTx_sound (hnamed : WellNamed cfg.freeGasList) {tx : LegacyTx} {ip : String}
    {r : Option Address} (h : validateTx cfg env (newTransaction cfg env tx ip) = .ok r)
    (hlow : tx.gasPrice < env.minSuggestedGasPrice) :
    ∃ sender, env.getSender tx = some sender ∧
      ((contains env cfg.freeGasAddress sender = true ∧ tx.toAddr = some env.l2BridgeAddr ∧
          tx.gas ≤ cfg.freeClaimGasLimit ∧
          ∃ method ∈ getClaimMethod cfg.bridgeClaimMethodSigs,
            hasPrefix (dataHex tx.data) method = true) ∨
        (∃ info ∈ cfg.freeGasList, env.addressString sender ∈ info.fromList ∧
          ∃ dest, tx.toAddr = some dest ∧ contains env info.toList dest = true ∧
            containsMethod (dataHex tx.data) info.methodSigs = true) ∨
        (cfg.enableFreeGasByNonce = true ∧ tx.gasPrice = 0 ∧
          env.isFreeGasAddr sender = some true ∧ tx.nonce < cfg.freeGasCountPerAddr ∧
          tx.gas ≤ cfg.freeGasLimit)) := by
  obtain ⟨sender, hsender, hrule⟩ := validateTx_freeGasRule h hlow
  refine ⟨sender, hsender, ?_⟩
  rcases hrule with ⟨hfree, hclaim⟩ | ⟨-, info, dest, hinfo, hdest, hto, hmethod⟩ | hnonce
  · exact .inl ⟨hfree, isClaimTx_eq_true.1 hclaim⟩
  · obtain ⟨hmem, hlisted⟩ := projectRule_sound hnamed hinfo
    exact .inr (.inl ⟨info, hmem, hlisted, dest, hdest, hto, hmethod⟩)
  · exact .inr (.inr hnonce)

end Admission

/-! ## Where the free-gas rules break

Both hypotheses above are needed. A contract creation from a sender a
project lists makes the project rule read a destination that is not there,
and a project named `""` applies to every sender no project lists. -/

/-- A sender, and the answers of a pool that lets every transaction through
every other check; the minimum gas price is `1`. -/
def senderAddr : Address := ⟨List.replicate 20 1, by simp⟩

def acceptingEnv : PoolEnv where
  parseIP _ := true
  checkSignature _ := true
  getSender _ := some senderAddr
  encodedLength _ := some 0
  txFeeWithinCap _ _ := true
  hexToAddress _ := zeroAddress
  addressString _ := "sender"
  txHash _ := 0
  blocked _ := false
  whitelisted _ := true
  l2BridgeAddr := zeroAddress
  lastL2BlockRoot := some 0
  getNonce _ _ := some 0
  countPendingTransactions := some 0
  isFreeGasAddr _ := some false
  minSuggestedGasPrice := 1
  getBalance _ _ := some (10 ^ 6)
  getTxsByFromAndNonce _ _ := some []
  addFreeGasAddr _ := true

/-- The free-gas list on, with one project that lists the sender. -/
def listedProjectConfig : PoolConfig where
  chainID := 196
  maxTxBytesSize := 1000
  maxTxDataBytesSize := 1000
  enableWhitelist := false
  accountQueue := 0
  globalQueue := 0
  freeGasAddress := []
  freeClaimGasLimit := 0
  bridgeClaimMethodSigs := []
  enableFreeGasByNonce := false
  freeGasExAddress := []
  freeGasCountPerAddr := 0
  freeGasLimit := 0
  enableFreeGasList := true
  freeGasList := [⟨"project", ["sender"], [], []⟩]

/-- One project, named `""`, that lists no sender. -/
def unnamedProjectConfig : PoolConfig :=
  { listedProjectConfig with freeGasList := [⟨"", [], ["0x0"], ["0x"]⟩] }

/-- A pre-EIP-155 contract creation at gas price `0`. -/
def creationTx : LegacyTx := ⟨0, 0, 100000, none, 0, [], 27, 1, 1⟩

/-- The same transaction as a call. -/
def callTx : LegacyTx := { creationTx with toAddr := some zeroAddress }

theorem validateTx_free_gas_waiver_unsound :
    validateTx listedProjectConfig acceptingEnv
        (newTransaction listedProjectConfig acceptingEnv creationTx "") = .panic ∧
      validateTx unnamedProjectConfig acceptingEnv
          (newTransaction unnamedProjectConfig acceptingEnv callTx "") = .ok none ∧
      callTx.gasPrice < acceptingEnv.minSuggestedGasPrice ∧
      acceptingEnv.getSender callTx = some senderAddr ∧
      contains acceptingEnv unnamedProjectConfig.freeGasAddress senderAddr = false ∧
      (∀ info ∈ unnamedProjectConfig.freeGasList,
        acceptingEnv.addressString senderAddr ∉ info.fromList) ∧
      unnamedProjectConfig.enableFreeGasByNonce = false := by
  decide

end Pool

end XLayerNode
