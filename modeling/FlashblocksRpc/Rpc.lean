import FlashblocksRpc.Index

/-!
# The RPC handlers that read the cache

`rpc.rs` answers pending-tag queries from the cache the actor fills. The handlers only read, and
they read with `.unwrap()` and `.expect(..)`: a read that finds nothing panics. Each handler here
returns `Except Panic _`, the panic naming the key whose read came back empty (or the message of
the `expect`), so that when a handler panics becomes a statement about the cache it reads.

What the handlers hand to code outside this repository is a parameter: `extract_l1_info` and the
receipt builder `OpReceiptBuilder`, and the base node's own answers. The block hash
(`seal_slow`, `hash_slow`) is a Keccak of the header and is left out.

* **`transformBlock_isOk_iff`**: `transform_block(block, true)` returns exactly when every
  signer can be recovered and every deposit of the block has its receipt cached.
* `getTransactionReceipt_missing_transaction`: a receipt found in the cache whose raw
  transaction is not panics at the first read of `transform_receipt`.
* **`getTransactionCount_run`**: the pending nonce is the latest nonce plus the number of hashes
  recorded as sent by the address in the next block.
-/

namespace FlashblocksRpc

open Cache

/-! ## Panics -/

/-- Why a handler panics: the key of a cache read that `.unwrap()` found empty, another
`.unwrap()` of nothing, or the message of a failed `.expect(..)`.
Source: `rpc.rs` 85–396, every `.unwrap()` and `.expect(..)`
Kind: D -/
inductive Panic where
  | missing (key : Key)
  | unwrap (what : String)
  | expect (message : String)
  deriving DecidableEq, Repr

/-- Handler results can be compared, so that a run of a handler can be checked by evaluation.
Source: none: infrastructure
Kind: D -/
instance decEqExcept [DecidableEq ε] [DecidableEq α] : DecidableEq (Except ε α)
  | .ok a, .ok b => decidable_of_iff (a = b) ⟨congrArg _, Except.ok.inj⟩
  | .error e, .error e' => decidable_of_iff (e = e') ⟨congrArg _, Except.error.inj⟩
  | .ok _, .error _ => isFalse nofun
  | .error _, .ok _ => isFalse nofun

/-- `.unwrap()` and `.expect(..)` of an `Option`: its value, or the panic `p`.
Source: Rust's `Option::unwrap` and `Option::expect`
Kind: D -/
def orPanic (p : Panic) : Option α → Except Panic α
  | some a => .ok a
  | none => .error p

/-- Unwrapping a value returns it. Source: none: infrastructure. Kind: L -/
@[simp] theorem orPanic_some (p : Panic) (a : α) : orPanic p (some a) = pure a := rfl

/-- Unwrapping nothing panics. Source: none: infrastructure. Kind: L -/
@[simp] theorem orPanic_none (p : Panic) : orPanic p (none : Option α) = .error p := rfl

/-- A panic ends the handler. Source: none: infrastructure. Kind: L -/
@[simp] theorem error_bind (p : Panic) (f : α → Except Panic β) :
    (Except.error p >>= f) = .error p := rfl

/-! ## Blocks and transactions -/

/-- `alloy_consensus::transaction::TransactionInfo`.
Source: `alloy_rpc_types_eth`, built at `rpc.rs` 97–103
Kind: D -/
structure TransactionInfo where
  hash : Option TxHash
  blockHash : Option B256
  blockNumber : Option UInt64
  index : Option UInt64
  baseFee : Option UInt64
  deriving DecidableEq, Repr

/-- `op_alloy_rpc_types::Transaction`, through the fields `transform_tx` fills: the transaction
with its recovered sender, its place, its gas price and its deposit fields.
Source: `op_alloy_rpc_types`, built at `rpc.rs` 124–176
Kind: D -/
structure RpcTransaction where
  inner : OpTransactionSigned
  sender : Address
  blockHash : Option B256
  blockNumber : Option UInt64
  transactionIndex : Option UInt64
  effectiveGasPrice : Option Nat
  depositNonce : Option UInt64
  depositReceiptVersion : Option UInt64
  deriving DecidableEq, Repr

/-- `BlockTransactions`: the full transactions, or their hashes.
Source: `alloy_rpc_types_eth`, built at `rpc.rs` 85–122
Kind: D -/
inductive BlockTransactions where
  | full (txs : List RpcTransaction)
  | hashes (hashes : List TxHash)
  deriving DecidableEq, Repr

/-- `RpcBlock<Optimism>`; its header is the consensus header (the hash it is sealed with is not
modelled).
Source: `alloy_rpc_types_eth::Block`, built at `rpc.rs` 85–122
Kind: D -/
structure RpcBlock where
  header : Header
  transactions : BlockTransactions
  uncles : List B256
  withdrawals : Option (List Withdrawal)
  deriving DecidableEq, Repr

/-- `effective_tip_per_gas(base_fee)`, alloy's provided method: nothing below the base fee,
otherwise what is left of the fee cap, bounded by the priority fee if there is one.
Source: alloy `Transaction::effective_tip_per_gas`, called at `rpc.rs` 158–162
Kind: D -/
def OpTransactionSigned.effectiveTipPerGas (tx : OpTransactionSigned) (baseFee : UInt64) :
    Option Nat :=
  if tx.maxFeePerGas < baseFee.toNat then none
  else some (match tx.maxPriorityFeePerGas with
    | some p => min (tx.maxFeePerGas - baseFee.toNat) p
    | none => tx.maxFeePerGas - baseFee.toNat)

/-- `transform_tx`: the transaction as the RPC returns it. A deposit reads its receipt under the
hash `tx_info` carries and unwraps it; its gas price is `0`.
Source: `rpc.rs` 124–176
Kind: D -/
def transformTx (c : Cache) (tx : OpTransactionSigned) (sender : Address)
    (info : TransactionInfo) : Except Panic RpcTransaction := do
  let deposit ← if tx.isDeposit then do
      let h ← orPanic (.unwrap "tx_info.hash") info.hash
      let receipt ← orPanic (.missing (.receipt h)) (c.get (.receipt h) Value.receipt?)
      pure (match receipt with
        | .deposit _ nonce version => (nonce, version)
        | .nonDeposit _ => (none, none))
    else pure (none, none)
  let effectiveGasPrice := if tx.isDeposit then 0 else
    match info.baseFee with
    | some baseFee => (tx.effectiveTipPerGas baseFee).getD 0 + baseFee.toNat
    | none => tx.maxFeePerGas
  pure ⟨tx, sender, info.blockHash, info.blockNumber, info.index, some effectiveGasPrice,
    deposit.1, deposit.2⟩

/-- `recover_signers()` of a block body: every transaction's signer, or nothing if one cannot be
recovered.
Source: `rpc.rs` 90–92 (reth `recover_signers`)
Kind: D -/
def recoverSigners : List OpTransactionSigned → Option (List Address)
  | [] => some []
  | tx :: txs => do
    let s ← tx.signer
    let ss ← recoverSigners txs
    pure (s :: ss)

/-- The `enumerate().map(..)` of `transform_block`: each transaction with its sender, from
position `idx` on, with no block hash and no base fee.
Source: `rpc.rs` 90–106
Kind: D -/
def transformTxs (c : Cache) (number : UInt64) :
    Nat → List (OpTransactionSigned × Address) → Except Panic (List RpcTransaction)
  | _, [] => pure []
  | idx, (tx, sender) :: rest => do
    let t ← transformTx c tx sender ⟨some tx.hash, none, some number, some (UInt64.ofNat idx), none⟩
    let ts ← transformTxs c number (idx + 1) rest
    pure (t :: ts)

/-- `transform_block`: the block with its full transactions, their signers unwrapped, or with
their hashes.
Source: `rpc.rs` 85–122
Kind: D -/
def transformBlock (c : Cache) (block : OpBlock) (full : Bool) : Except Panic RpcBlock :=
  if full then do
    let senders ← orPanic (.unwrap "recover_signers") (recoverSigners block.body.transactions)
    let txs ← transformTxs c block.number 0 (block.body.transactions.zip senders)
    pure ⟨block.header, .full txs, [], none⟩
  else pure ⟨block.header, .hashes (block.body.transactions.map (·.hash)), [], none⟩

/-- `block_by_number` at the pending tag: the cached pending block, transformed, or nothing.
(Every other tag goes to the base node.)
Source: `rpc.rs` 235–259
Kind: D -/
def blockByNumber (c : Cache) (full : Bool) : Except Panic (Option RpcBlock) :=
  match c.get .pending Value.block? with
  | some block => (transformBlock c block full).map some
  | none => pure none

/-! ## When `transform_block` panics -/

/-- `recover_signers()` succeeds exactly when every transaction's signer can be recovered.
Source: `rpc.rs` 90–92
Kind: L -/
theorem recoverSigners_isSome (txs : List OpTransactionSigned) :
    (recoverSigners txs).isSome ↔ ∀ tx ∈ txs, tx.signer.isSome := by
  induction txs with
  | nil => simp [recoverSigners]
  | cons tx txs ih =>
    rw [recoverSigners, List.forall_mem_cons, ← ih]
    cases tx.signer <;> cases recoverSigners txs <;> simp

/-- The signers recovered pair up with every transaction of the body.
Source: `rpc.rs` 90–92
Kind: L -/
theorem map_fst_zip_of_recoverSigners {txs : List OpTransactionSigned} {ss : List Address}
    (h : recoverSigners txs = some ss) : (txs.zip ss).map Prod.fst = txs := by
  induction txs generalizing ss with
  | nil => rfl
  | cons tx txs ih =>
    cases hs : tx.signer <;> cases h' : recoverSigners txs <;> simp [recoverSigners, hs, h'] at h
    subst h
    simp [ih h']

/-- A deposit whose receipt is cached, or any other transaction.
Source: `rpc.rs` 133–142
Kind: D -/
def DepositReceiptCached (c : Cache) (tx : OpTransactionSigned) : Bool :=
  !tx.isDeposit || (c.get (.receipt tx.hash) Value.receipt?).isSome

/-- `transform_tx` returns exactly when the transaction is not a deposit or its receipt is cached.
Source: `rpc.rs` 124–176
Kind: L -/
theorem transformTx_isOk (c : Cache) (tx : OpTransactionSigned) (sender : Address)
    (info : TransactionInfo) (hh : info.hash = some tx.hash) :
    (transformTx c tx sender info).isOk = DepositReceiptCached c tx := by
  unfold transformTx DepositReceiptCached
  rw [hh]
  simp only [orPanic_some, pure_bind]
  cases tx.isDeposit <;> cases c.get (.receipt tx.hash) Value.receipt? <;> rfl

/-- The transactions of a block transform exactly when every deposit among them has its receipt
cached.
Source: `rpc.rs` 90–106, 124–176
Kind: L -/
theorem transformTxs_isOk (c : Cache) (number : UInt64) (idx : Nat)
    (ps : List (OpTransactionSigned × Address)) :
    (transformTxs c number idx ps).isOk = ps.all fun p => DepositReceiptCached c p.1 := by
  induction ps generalizing idx with
  | nil => rfl
  | cons p ps ih =>
    obtain ⟨tx, sender⟩ := p
    rw [List.all_cons, ← ih (idx + 1), ← transformTx_isOk c tx sender
      ⟨some tx.hash, none, some number, some (UInt64.ofNat idx), none⟩ rfl]
    simp only [transformTxs]
    cases transformTx c tx sender _ <;> cases transformTxs c number (idx + 1) ps <;> rfl

/-- **When `transform_block(block, true)` returns**: exactly when every transaction's signer can
be recovered and every deposit of the block has its receipt cached.
Source: `rpc.rs` 85–176
Kind: P -/
theorem transformBlock_isOk_iff (c : Cache) (block : OpBlock) :
    (transformBlock c block true).isOk ↔ (∀ tx ∈ block.body.transactions, tx.signer.isSome) ∧
      ∀ tx ∈ block.body.transactions, DepositReceiptCached c tx := by
  rw [← recoverSigners_isSome]
  unfold transformBlock
  cases hs : recoverSigners block.body.transactions with
  | none => exact iff_of_false Bool.false_ne_true fun h => Bool.false_ne_true h.1
  | some ss =>
    have h : (∀ tx ∈ block.body.transactions, DepositReceiptCached c tx) ↔
        (transformTxs c block.number 0 (block.body.transactions.zip ss)).isOk := by
      rw [transformTxs_isOk, List.all_eq_true]
      conv_lhs => rw [← map_fst_zip_of_recoverSigners hs]
      exact List.forall_mem_map
    simp only [if_true, orPanic_some, pure_bind, Option.isSome_some, true_and, h]
    cases transformTxs c block.number 0 (block.body.transactions.zip ss) <;> exact Iff.rfl

/-! ## Receipts -/

/-- `alloy_consensus::transaction::TransactionMeta` as `transform_receipt` fills it (its block
hash is not modelled).
Source: `alloy_consensus`, built at `rpc.rs` 199–207
Kind: D -/
structure TransactionMeta where
  txHash : TxHash
  index : UInt64
  blockNumber : UInt64
  baseFee : Option UInt64
  excessBlobGas : Option UInt64
  timestamp : UInt64
  deriving DecidableEq, Repr

/-- What `transform_receipt` hands to `OpReceiptBuilder::new`: the transaction, its metadata,
its receipt, the block's receipts and the block's L1 information.
Source: `rpc.rs` 215–224 (`OpReceiptBuilder::new`)
Kind: D -/
structure ReceiptInput (L : Type) where
  tx : OpTransactionSigned
  txMeta : TransactionMeta
  receipt : OpReceipt
  allReceipts : List OpReceipt
  l1BlockInfo : L

section Receipts

variable {L R E : Type} (extractL1Info : BlockBody → Option L)
  (buildReceipt : ReceiptInput L → Option R)

/-- `transform_receipt`: the raw transaction, the block, its L1 information, the transaction's
position and the block's receipts, each unwrapped in this order, handed to the receipt builder.
Source: `rpc.rs` 178–227
Kind: D -/
def transformReceipt (c : Cache) (receipt : OpReceipt) (txHash : TxHash) (blockNumber : UInt64) :
    Except Panic R := do
  let tx ← orPanic (.missing (.transaction txHash)) (c.get (.transaction txHash) Value.transaction?)
  let block ← orPanic (.missing (.block blockNumber)) (c.get (.block blockNumber) Value.block?)
  let l1BlockInfo ← orPanic (.expect "failed to extract l1 info") (extractL1Info block.body)
  let index ← orPanic (.missing (.txIdx txHash)) (c.get (.txIdx txHash) Value.u64?)
  let txMeta : TransactionMeta := ⟨txHash, index, block.number, block.header.baseFeePerGas,
    block.header.excessBlobGas, block.header.timestamp⟩
  let allReceipts ← orPanic (.missing (.pendingReceipts blockNumber))
    (c.get (.pendingReceipts blockNumber) Value.receiptList?)
  orPanic (.expect "failed to build receipt")
    (buildReceipt ⟨tx, txMeta, receipt, allReceipts, l1BlockInfo⟩)

/-- `get_transaction_receipt`: the base node's answer, unless it found nothing and the cache
holds a receipt for the hash; then the receipt, its block number unwrapped, transformed.
Source: `rpc.rs` 261–288
Kind: D -/
def getTransactionReceipt (baseNode : Except E (Option R)) (txHash : TxHash) (c : Cache) :
    Except Panic (Except E (Option R)) :=
  match baseNode with
  | .ok none =>
    match c.get (.receipt txHash) Value.receipt? with
    | some receipt => do
      let blockNumber ← orPanic (.missing (.receiptBlock txHash))
        (c.get (.receiptBlock txHash) Value.u64?)
      let r ← transformReceipt extractL1Info buildReceipt c receipt txHash blockNumber
      pure (.ok (some r))
    | none => pure baseNode
  | _ => pure baseNode

/-- A receipt and its block number found, but no raw transaction: the first read of
`transform_receipt` panics.
Source: `rpc.rs` 178–227, 261–288
Kind: L -/
theorem getTransactionReceipt_missing_transaction {c : Cache} {h : TxHash} {r : OpReceipt}
    {n : UInt64} (hr : c.get (.receipt h) Value.receipt? = some r)
    (hn : c.get (.receiptBlock h) Value.u64? = some n)
    (ht : c.get (.transaction h) Value.transaction? = none) :
    getTransactionReceipt extractL1Info buildReceipt (.ok none : Except E (Option R)) h c =
      .error (.missing (.transaction h)) := by
  simp only [getTransactionReceipt, hr, hn, transformReceipt, ht, orPanic_some, pure_bind,
    orPanic_none, error_bind]

end Receipts

/-! ## Nonces -/

/-- `get_transaction_count` at the pending tag: the base node's nonce at the latest block plus
the send count cached for the block after it (`0` when absent), or the nonce alone without a
latest block. `U256` addition wraps.
Source: `rpc.rs` 309–350
Kind: D -/
def getTransactionCount (currentNonce : U256) (latest : Option UInt64) (address : Address)
    (c : Cache) : U256 :=
  match latest with
  | none => currentNonce
  | some n => currentNonce + BitVec.ofNat 256 (c.sendCount address (n + 1)).toNat

variable (decode : Bytes → Option OpTransactionSigned)

/-- **The pending nonce**: along any run from the empty cache whose balance maps name accounts,
`get_transaction_count(a, pending)` is the latest nonce plus the number of hashes recorded as
sent by `a` in the block after the latest (as a `u64`).
Source: `rpc.rs` 309–350, `flashblocks.rs` 398–425
Kind: P -/
theorem getTransactionCount_run (us : List FlashblocksPayloadV1) (hus : ∀ u ∈ us, u.AccountsOnly)
    (currentNonce : U256) (n : UInt64) (a : Address) :
    getTransactionCount currentNonce (some n) a (run decode us Cache.empty) =
      currentNonce + BitVec.ofNat 256
        (UInt64.ofNat (sentIn (run decode us Cache.empty) a (n + 1)).ncard).toNat := by
  rw [getTransactionCount,
    (countsSenders_run decode us hus (fun _ => rfl) countsSenders_empty).count_eq a (n + 1)]

/-- Transaction `5` of address `1` in block `1`, then again in block `2`: the pending count for
latest block `1` adds the hashes recorded for block `2`.
Source: none: sample input
Kind: L -/
theorem getTransactionCount_run_resent :
    getTransactionCount 3 (some 1) 1 (run testDecode resentUpdates Cache.empty) =
      3 + BitVec.ofNat 256
        (UInt64.ofNat (sentIn (run testDecode resentUpdates Cache.empty) 1 (1 + 1)).ncard).toNat :=
  getTransactionCount_run testDecode resentUpdates (by simp [resentUpdates]) 3 1 1

/-! ## Balances -/

/-- Decoding at `U256`: a balance is cached as its JSON string, which `serde` reads as a quantity
with `parseQuantity`.
Source: spec §4.1 (StateCache), read at `rpc.rs` 298
Kind: D -/
def Value.u256? (parseQuantity : String → Option U256) : Value → Option U256
  | .string s => parseQuantity s
  | _ => none

/-- The `i`-th hex digit of an address, counted from the most significant one (`i < 40`).
Source: none: infrastructure
Kind: D -/
def nibble (a : Address) (i : Nat) : Nat := a.toNat / 16 ^ (39 - i) % 16

/-- A hex digit (`d < 16`), a letter in lower or upper case.
Source: none: infrastructure
Kind: D -/
def hexDigit (upper : Bool) (d : Nat) : Char :=
  if d < 10 then Char.ofNat (48 + d) else Char.ofNat ((if upper then 55 else 87) + d)

/-- A letter digit's case can be read back from it. Source: none: infrastructure. Kind: L -/
theorem hexDigit_case_eq {d : Nat} {u u' : Bool} (h₁ : 10 ≤ d) (h₂ : d < 16)
    (h : hexDigit u d = hexDigit u' d) : u = u' := by
  have : ∀ d < 16, 10 ≤ d → ∀ u u' : Bool, hexDigit u d = hexDigit u' d → u = u' := by decide
  exact this d h₂ h₁ u u' h

/-- A `0x` hex rendering of an address: its 40 digits, each letter in the case `upper` gives its
position. Every string that denotes the address in hex is one of these.
Source: none: infrastructure
Kind: D -/
def renderAddress (upper : Nat → Bool) (a : Address) : String :=
  "0x" ++ String.mk ((List.range 40).map fun i => hexDigit (upper i) (nibble a i))

/-- Two renderings differ where a letter digit is in different cases.
Source: none: infrastructure
Kind: L -/
theorem renderAddress_ne {upper upper' : Nat → Bool} {a : Address} {i : Nat} (hi : i < 40)
    (hl : 10 ≤ nibble a i) (hu : upper i ≠ upper' i) : renderAddress upper a ≠ renderAddress upper' a := by
  intro h
  have hd := congrArg (fun s : String => s.data[i + 1 + 1]?) h
  simp only [renderAddress, String.data_append, show ("0x" : String).data = ['0', 'x'] from rfl,
    List.cons_append, List.nil_append, List.getElem?_cons_succ, List.getElem?_map,
    List.getElem?_range hi, Option.map_some', Option.some.injEq] at hd
  exact hu (hexDigit_case_eq hl (Nat.mod_lt _ (by decide)) hd)

/-- `address.to_string()`: alloy's checksummed rendering, which writes a letter digit in upper case
where the Keccak-256 of the lowercase rendering has a nibble of `8` or more. The Keccak is left
out: `checksumCase a` is the case it chooses at each position.
Source: `rpc.rs` 298 (alloy `Address`'s `Display`)
Kind: D -/
def addressToString (checksumCase : Address → Nat → Bool) (a : Address) : String :=
  renderAddress (checksumCase a) a

/-- An update leaves an account entry alone unless its balance map names the account's key.
Source: `flashblocks.rs` 149–306
Kind: L -/
theorem processPayload_lookup_account (u : FlashblocksPayloadV1) (c : Cache) {s : String}
    (hs : ∀ m, u.metadata = some m → Key.account s ∉ m.newAccountBalances.map Prod.fst) :
    (processPayload decode u c).lookup (.account s) = c.lookup (.account s) := by
  rcases processPayload_cases decode u c with ⟨-, h⟩ | ⟨m, hm, hg, -⟩
  · rw [h]
  · rw [(processPayload_agrees_of_passes decode hm hg).lookup_eq,
      (updateFlashblocksIndex_agrees u.index c).lookup_eq (by simp)]
    simp [storeKeys, storeBlockKeys, Key.TxEntry, Key.isTxEntry, hs m hm]

/-- A run leaves an account entry alone unless some balance map names the account's key.
Source: `flashblocks.rs` 149–306
Kind: L -/
theorem run_lookup_account (us : List FlashblocksPayloadV1) (c : Cache) {s : String}
    (hs : ∀ u ∈ us, ∀ m, u.metadata = some m → Key.account s ∉ m.newAccountBalances.map Prod.fst) :
    (run decode us c).lookup (.account s) = c.lookup (.account s) := by
  induction us generalizing c with
  | nil => rfl
  | cons u us ih =>
    rw [run_cons, ih _ fun u' hu' => hs u' (List.mem_cons_of_mem u hu'),
      processPayload_lookup_account decode u c (hs u (List.mem_cons_self u us))]

section Balances

variable {E : Type} (checksumCase : Address → Nat → Bool) (parseQuantity : String → Option U256)

/-- `get_balance` at the pending tag: the balance cached under the address's `to_string()`, or the
base node's answer when there is none.
Source: `rpc.rs` 290–307
Kind: D -/
def getBalance (baseNode : Except E U256) (address : Address) (c : Cache) : Except E U256 :=
  match c.get (.account (addressToString checksumCase address)) (Value.u256? parseQuantity) with
  | some balance => .ok balance
  | none => baseNode

/-- **A balance written under another rendering is not read**: every address with a letter
digit has a hex rendering such that, along any run from the empty cache whose balance maps name
only that rendering, `get_balance(a, pending)` is the base node's answer.
Source: `rpc.rs` 290–307, `flashblocks.rs` 288–293
Kind: P -/
theorem getBalance_misses_rendering (a : Address) {i : Nat} (hi : i < 40) (hl : 10 ≤ nibble a i)
    (baseNode : Except E U256) :
    ∃ s, (∃ upper, s = renderAddress upper a) ∧ ∀ us : List FlashblocksPayloadV1,
      (∀ u ∈ us, ∀ m, u.metadata = some m → ∀ p ∈ m.newAccountBalances, p.1 = .account s) →
        getBalance checksumCase parseQuantity baseNode a (run decode us Cache.empty) = baseNode := by
  let upper : Nat → Bool := fun j => if j = i then !checksumCase a i else checksumCase a j
  have hne : renderAddress upper a ≠ addressToString checksumCase a :=
    renderAddress_ne hi hl (by simp [upper])
  refine ⟨_, ⟨upper, rfl⟩, fun us hus => ?_⟩
  have hk : (run decode us Cache.empty).lookup (.account (addressToString checksumCase a)) = none := by
    refine (run_lookup_account decode us _ fun u hu m hm hmem => ?_).trans rfl
    obtain ⟨p, hp, hpk⟩ := List.mem_map.mp hmem
    exact hne (Key.account.inj ((hus u hu m hm p hp).symm.trans hpk))
  simp [getBalance, hk]

/-- `getBalance_misses_rendering` at address `10`, whose digit `a` is a letter.
Source: none: sample input
Kind: L -/
theorem getBalance_misses_rendering_sample :
    ∃ s, (∃ upper, s = renderAddress upper 10) ∧ ∀ us : List FlashblocksPayloadV1,
      (∀ u ∈ us, ∀ m, u.metadata = some m → ∀ p ∈ m.newAccountBalances, p.1 = .account s) →
        getBalance (fun _ _ => true) (fun _ => none) (.ok 0 : Except Unit U256) 10
          (run testDecode us Cache.empty) = .ok 0 :=
  getBalance_misses_rendering testDecode (fun _ _ => true) (fun _ => none) 10 (i := 39) (by decide)
    (by decide) (.ok 0)

/-- The test helper's index-0 update for block `1`, whose metadata maps the key `s` to the balance
`"0x1234"`.
Source: none: test data
Kind: D -/
def balanceUpdate (s : String) : FlashblocksPayloadV1 :=
  { payloadWithIndex 0 1 with metadata := some ⟨[], [(.account s, "0x1234")], 1⟩ }

/-- An address whose checksummed rendering has every letter digit in upper case.
Source: none: test data
Kind: D -/
def upperChecksummed : Address := 0x52908400098527886E0F7030069857D2E4169EE7

/-- A quantity decoder for the examples that knows one balance string.
Source: none: test data
Kind: D -/
def quantityOf (s : String) : Option U256 := if s = "0x1234" then some 0x1234 else none

/-- The lowercase rendering of `upperChecksummed`: an accepted update that maps it to `"0x1234"`
leaves that balance in the cache, yet `get_balance` reads the checksummed key, finds nothing and
answers the base node's `0`.
Source: `rpc.rs` 290–307
Kind: L -/
theorem balance_under_other_case :
    (run testDecode [balanceUpdate (renderAddress (fun _ => false) upperChecksummed)]
        Cache.empty).lookup (.account (renderAddress (fun _ => false) upperChecksummed)) =
      some (.string "0x1234") ∧
    quantityOf "0x1234" = some 0x1234 ∧
    getBalance (fun _ _ => true) quantityOf (.ok 0 : Except Unit U256) upperChecksummed
      (run testDecode [balanceUpdate (renderAddress (fun _ => false) upperChecksummed)]
        Cache.empty) = .ok 0 := by
  decide

end Balances

/-! ## Calls -/

/-- `EthCallResponse`: a call's output, or its error.
Source: `alloy_rpc_types_eth`, read at `rpc.rs` 382–391
Kind: D -/
structure EthCallResponse where
  value : Option Bytes
  error : Option String
  deriving DecidableEq, Repr

section Calls

variable {Req E : Type} (fromTransaction : OpTransactionSigned → Req)
  (callMany : List Req → Except E (List EthCallResponse))

/-- The bundle `call` submits: the cached pending block's transactions as requests (none without a
pending block, `unwrap_or_default()`), then the call's own request.
Source: `rpc.rs` 362–374
Kind: D -/
def callBundle (c : Cache) (transaction : Req) : List Req :=
  (((c.get .pending Value.block?).map (·.body.transactions)).getD []).map fromTransaction ++
    [transaction]

/-- `call` at the pending tag: the bundle run by `call_many` in pending context; the answer is the
output of the first response (empty bytes for no output or no response).
Source: `rpc.rs` 352–396
Kind: D -/
def call (c : Cache) (transaction : Req) : Except E Bytes :=
  (callMany (callBundle fromTransaction c transaction)).map fun responses =>
    (responses.head?.map fun r => r.value.getD []).getD []

/-- **The answer of `call` with a pending block**: when the cached pending block has a first
transaction `tx₁`, the answer is the output of the first response `call_many` gives for the
bundle, the one for `tx₁`, whatever the request.
Source: `rpc.rs` 352–396
Kind: P -/
theorem call_answers_first_transaction {c : Cache} {block : OpBlock}
    (hp : c.get .pending Value.block? = some block) {tx₁ : OpTransactionSigned}
    {txs : List OpTransactionSigned} (hb : block.body.transactions = tx₁ :: txs) (transaction : Req)
    {r₁ : EthCallResponse} {rs : List EthCallResponse}
    (h : callMany (fromTransaction tx₁ :: (txs.map fromTransaction ++ [transaction])) = .ok (r₁ :: rs)) :
    call fromTransaction callMany c transaction = .ok (r₁.value.getD []) := by
  simp only [call, callBundle, hp, hb, Option.map_some', Option.getD_some, List.map_cons,
    List.cons_append, h]
  rfl

/-- A cache whose pending block, for block `1`, holds `txs`. Source: none: test data. Kind: D -/
def pendingWith (txs : List OpTransactionSigned) : Cache :=
  Cache.empty.write .pending (.block { emptyBlock 1 with body := ⟨txs, none⟩ }) (some 10)

/-- A transaction of hash `h`, sent by address `1`. Source: none: test data. Kind: D -/
def sampleTransaction (h : TxHash) : OpTransactionSigned := ⟨h, some 1, false, 0, none⟩

/-- A `call_many` for the examples, over requests that are numbers: one response per request,
whose output is the request.
Source: none: test data
Kind: D -/
def echoCallMany (bundle : List Nat) : Except Unit (List EthCallResponse) :=
  .ok (bundle.map fun n => ⟨some [n.toUInt8], none⟩)

/-- One pending transaction and the request `2`: the answer is the pending transaction's output.
Source: none: sample input
Kind: L -/
theorem call_answers_first_transaction_sample :
    call (fun tx => tx.hash.toNat) echoCallMany (pendingWith [sampleTransaction 1]) 2 = .ok [1] :=
  @call_answers_first_transaction _ _ (fun tx => tx.hash.toNat) echoCallMany _ _ (by rfl) _ _ (by rfl) 2
    ⟨some [1], none⟩ _ (by rfl)

/-- One pending transaction and the request `2`: `call` answers the pending transaction's output
`[1]`, while the response to the request, the last of the bundle, is `[2]`.
Source: `rpc.rs` 352–396
Kind: L -/
theorem call_answers_pending_transaction :
    call (fun tx => tx.hash.toNat) echoCallMany (pendingWith [sampleTransaction 1]) 2 = .ok [1] ∧
      (echoCallMany (callBundle (fun tx => tx.hash.toNat) (pendingWith [sampleTransaction 1]) 2)).map
        (fun rs => rs.getLast?.map fun r => r.value.getD []) = .ok (some [2]) := by
  decide

end Calls

end FlashblocksRpc
