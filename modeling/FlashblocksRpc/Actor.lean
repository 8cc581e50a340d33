import FlashblocksRpc.Cache

/-!
# The reconstruction actor: `process_payload`

`process_payload` (`crates/flashblocks-rpc/src/flashblocks.rs` 149–306) and the helpers it
calls, one definition per Rust function, each returning where the Rust code returns. An early
`return` keeps every write made before it, so each exit hands back the cache as it stands
there; a `continue` in the transaction loop likewise keeps the loop state reached.

* `updateFlashblocksIndex` / `flashblocksInBlock`: the tracker write and the metric recorded
  for the previous block (lines 308–332).
* `getAndSetCumulative`: the reset-or-append step that `get_and_set_transactions` and
  `get_and_set_all_receipts` share, with the two as instances.
* `txStep` / `txLoop` / `getAndSetTxsAndReceipts`: one pass of the transaction loop, the loop,
  and the function around it (lines 364–455).
* `storeBlock`: the tail of `process_payload` from the write of `"pending"` on (248–293).
* `processPayload`, and `run`, the actor's loop over the updates in delivery order.

The transaction decoder of the node is the parameter `decode`. Metrics, timing and log lines
are not modelled, except the flash-block count `flashblocksInBlock` records, which
`highestPayloadIndex_run` is about.
-/

namespace FlashblocksRpc

/-! ## The highest-index tracker -/

/-- `update_flashblocks_index`: an index-0 update resets the tracker to `0`, a later one raises
it to its index when that is higher.
Source: `flashblocks.rs` 308–332
Kind: D -/
def updateFlashblocksIndex (index : UInt64) (c : Cache) : Cache :=
  if index = 0 then c.put .highestPayloadIndex (.u64 0) (some 10)
  else
    let currentHighest := (c.get .highestPayloadIndex Value.u64?).getD 0
    if currentHighest < index then c.put .highestPayloadIndex (.u64 index) (some 10) else c

/-- The count `update_flashblocks_index` records in `flashblocks_in_block` when an index-0
update arrives: the tracker found, plus one. The sum is `u64` arithmetic, which wraps in a
release build (a debug build panics there instead).
Source: `flashblocks.rs` 309–317
Kind: D -/
def flashblocksInBlock (index : UInt64) (c : Cache) : Option UInt64 :=
  if index = 0 then (c.get .highestPayloadIndex Value.u64?).map (· + 1) else none

/-! ## Reset-or-append lists -/

/-- The step `get_and_set_transactions` and `get_and_set_all_receipts` share: at index `0` the
update's items, otherwise the cached list with the items appended (an `Err` when nothing is
cached), written back under `key`.
Source: `flashblocks.rs` 334–362 and 457–488
Kind: D -/
def getAndSetCumulative (key : Key) (wrap : List α → Value) (unwrap : Value → Option (List α))
    (items : List α) (payloadIndex : UInt64) (c : Cache) : Option (List α × Cache) :=
  (if payloadIndex = 0 then some items else (c.get key unwrap).map (· ++ items)).bind
    fun l => (c.set key (wrap l) (some 10)).map (l, ·)

/-- `get_and_set_transactions`.
Source: `flashblocks.rs` 334–362
Kind: D -/
def getAndSetTransactions (transactions : List Bytes) (payloadIndex blockNumber : UInt64)
    (c : Cache) : Option (List Bytes × Cache) :=
  getAndSetCumulative (.diffTransactions blockNumber) .bytesList Value.bytesList? transactions
    payloadIndex c

/-- `get_and_set_all_receipts`.
Source: `flashblocks.rs` 457–488
Kind: D -/
def getAndSetAllReceipts (payloadIndex blockNumber : UInt64) (c : Cache)
    (diffReceipts : List OpReceipt) : Option (List OpReceipt × Cache) :=
  getAndSetCumulative (.pendingReceipts blockNumber) .receiptList Value.receiptList?
    diffReceipts payloadIndex c

/-! ## The transaction loop -/

/-- `tx_hashes.push(tx_hash)` unless `tx_hashes.contains(&tx_hash)`.
Source: `flashblocks.rs` 382–384
Kind: D -/
def pushIfAbsent (hashes : List TxHash) (h : TxHash) : List TxHash :=
  if h ∈ hashes then hashes else hashes ++ [h]

/-- The state of the loop of `get_and_set_txs_and_receipts`.
Source: `flashblocks.rs` 364–377
Kind: D -/
structure TxLoop where
  diffReceipts : List OpReceipt
  txHashes : List TxHash
  cache : Cache

/-- The sender entries of a transaction seen for the first time: its signer's send count for
the block goes up by one (`u64`), and its sender and block number are recorded. Write errors
are only logged.
Source: `flashblocks.rs` 398–425
Kind: D -/
def recordSender (blockNumber : UInt64) (tx : OpTransactionSigned) (c : Cache) : Cache :=
  match tx.signer with
  | none => c
  | some sender =>
    let currentCount := (c.get (.txCount sender blockNumber) Value.u64?).getD 0
    let c := c.put (.txCount sender blockNumber) (.u64 (currentCount + 1)) (some 10)
    let c := c.put (.txSender tx.hash) (.address sender) (some 10)
    c.put (.txBlockNumber tx.hash) (.u64 blockNumber) (some 10)

/-- The receipt of a transaction, if the metadata carries one: cached with its block number
and added to the update's batch; a failed write `continue`s.
Source: `flashblocks.rs` 428–447
Kind: D -/
def storeReceipt (blockNumber : UInt64) (metadata : Metadata) (txHash : TxHash) (st : TxLoop) :
    TxLoop :=
  match metadata.receipts.lookup txHash with
  | none => st
  | some receipt =>
    match st.cache.set (.receipt txHash) (.receipt receipt) (some 10) with
    | none => st
    | some c =>
      match c.set (.receiptBlock txHash) (.u64 blockNumber) (some 10) with
      | none => { st with cache := c }
      | some c => { st with cache := c, diffReceipts := st.diffReceipts ++ [receipt] }

/-- One pass of the loop body for the transaction at position `idx`: note its hash, cache the
transaction, its position and its sender if no transaction is cached under its hash, then its
receipt.
Source: `flashblocks.rs` 378–448
Kind: D -/
def txStep (blockNumber : UInt64) (metadata : Metadata) (st : TxLoop) (idx : Nat)
    (tx : OpTransactionSigned) : TxLoop :=
  let st := { st with txHashes := pushIfAbsent st.txHashes tx.hash }
  if (st.cache.get (.transaction tx.hash) Value.transaction?).isNone then
    match st.cache.set (.transaction tx.hash) (.transaction tx) (some 10) with
    | none => st
    | some c =>
      match c.set (.txIdx tx.hash) (.u64 (UInt64.ofNat idx)) (some 10) with
      | none => { st with cache := c }
      | some c => storeReceipt blockNumber metadata tx.hash
          { st with cache := recordSender blockNumber tx c }
  else storeReceipt blockNumber metadata tx.hash st

/-- The loop over `block.body.transactions.iter().enumerate()`, from position `idx` on.
Source: `flashblocks.rs` 378–448
Kind: D -/
def txLoop (blockNumber : UInt64) (metadata : Metadata) :
    Nat → List OpTransactionSigned → TxLoop → TxLoop
  | _, [], st => st
  | idx, tx :: txs, st => txLoop blockNumber metadata (idx + 1) txs (txStep blockNumber metadata st idx tx)

/-- `get_and_set_txs_and_receipts`: run the loop from the cached hash list, write the list
back, return the update's batch of receipts. It never returns `Err`.
Source: `flashblocks.rs` 364–455
Kind: D -/
def getAndSetTxsAndReceipts (block : OpBlock) (blockNumber : UInt64) (c : Cache)
    (metadata : Metadata) : List OpReceipt × Cache :=
  let txHashes := (c.get (.txHashes blockNumber) Value.hashList?).getD []
  let st := txLoop blockNumber metadata 0 block.body.transactions ⟨[], txHashes, c⟩
  (st.diffReceipts, st.cache.put (.txHashes blockNumber) (.hashList st.txHashes) (some 10))

/-! ## `process_payload` -/

/-- The balances of the metadata, each written under its key; errors are only logged.
Source: `flashblocks.rs` 288–293
Kind: D -/
def storeBalances : List (Key × String) → Cache → Cache
  | [], c => c
  | (address, balance) :: rest, c => storeBalances rest (c.put address (.string balance) (some 10))

/-- The execution payload `process_payload` assembles: the base's fields, the diff's fields,
the cumulative transactions, and a base fee fixed at `1000`.
Source: `flashblocks.rs` 216–238
Kind: D -/
def executionPayload (base : ExecutionPayloadBaseV1) (diff : ExecutionPayloadFlashblockDeltaV1)
    (transactions : List Bytes) : ExecutionPayloadV3 where
  parentHash := base.parentHash
  feeRecipient := base.feeRecipient
  stateRoot := diff.stateRoot
  receiptsRoot := diff.receiptsRoot
  logsBloom := diff.logsBloom
  prevRandao := base.prevRandao
  blockNumber := base.blockNumber
  gasLimit := base.gasLimit
  gasUsed := diff.gasUsed
  timestamp := base.timestamp
  extraData := base.extraData
  baseFeePerGas := 1000
  blockHash := diff.blockHash
  transactions := transactions
  withdrawals := diff.withdrawals
  blobGasUsed := 0
  excessBlobGas := 0

/-- The first gate: an update past index `0` whose block has no cached base is skipped.
Source: `flashblocks.rs` 167–175
Kind: D -/
def lacksBase (index blockNumber : UInt64) (c : Cache) : Bool :=
  index != 0 && (c.get (.base blockNumber) Value.base?).isNone

/-- The second gate: the block cached under `"pending"` has a higher number.
Source: `flashblocks.rs` 180–184
Kind: D -/
def behindPending (blockNumber : UInt64) (c : Cache) : Bool :=
  match c.get .pending Value.block? with
  | some current => blockNumber < current.number
  | none => false

/-- The base of the update: the one it carries, cached under its block number, or else the one
cached there (none: return).
Source: `flashblocks.rs` 186–201
Kind: D -/
def resolveBase (base : Option ExecutionPayloadBaseV1) (blockNumber : UInt64) (c : Cache) :
    Option (ExecutionPayloadBaseV1 × Cache) :=
  match base with
  | some base => (c.set (.base blockNumber) (.base base) (some 10)).map (base, ·)
  | none => (c.get (.base blockNumber) Value.base?).map (·, c)

/-- The tail of `process_payload` once the block is cached: index its transactions and
receipts, append the receipts, store the balances.
Source: `flashblocks.rs` 262–293
Kind: D -/
def indexBlock (payloadIndex : UInt64) (metadata : Metadata) (block : OpBlock) (c : Cache) :
    Cache :=
  let indexed := getAndSetTxsAndReceipts block metadata.blockNumber c metadata
  match getAndSetAllReceipts payloadIndex metadata.blockNumber indexed.2 indexed.1 with
  | none => indexed.2
  | some (_, c) => storeBalances metadata.newAccountBalances c

/-- The rest of `process_payload` once the block is assembled: cache it as `"pending"` and
`"block:{n}"`, then `indexBlock`.
Source: `flashblocks.rs` 248–293
Kind: D -/
def storeBlock (payloadIndex : UInt64) (metadata : Metadata) (block : OpBlock) (c : Cache) :
    Cache :=
  match c.set .pending (.block block) (some 10) with
  | none => c
  | some c =>
    match c.set (.block metadata.blockNumber) (.block block) (some 10) with
    | none => c
    | some c => indexBlock payloadIndex metadata block c

variable (decode : Bytes → Option OpTransactionSigned)

/-- `process_payload`: fold one update into the cache.
Source: `flashblocks.rs` 149–306
Kind: D -/
def processPayload (payload : FlashblocksPayloadV1) (c : Cache) : Cache :=
  match payload.metadata with
  | none => c
  | some metadata =>
    if lacksBase payload.index metadata.blockNumber c then c else
    let c := updateFlashblocksIndex payload.index c
    if behindPending metadata.blockNumber c then c else
    match resolveBase payload.base metadata.blockNumber c with
    | none => c
    | some (base, c) =>
      match getAndSetTransactions payload.diff.transactions payload.index metadata.blockNumber c with
      | none => c
      | some (transactions, c) =>
        match (executionPayload base payload.diff transactions).tryIntoBlock decode with
        | .error _ => c
        | .ok block => storeBlock payload.index metadata block c

/-- The actor's loop: the updates processed one at a time, in delivery order.
Source: `flashblocks.rs` 135–143
Kind: D -/
def run : List FlashblocksPayloadV1 → Cache → Cache
  | [], c => c
  | u :: us, c => run us (processPayload decode u c)

/-- No update leaves the cache as it was. Source: none: infrastructure. Kind: L -/
@[simp] theorem run_nil (c : Cache) : run decode [] c = c := rfl

/-- A run processes its first update, then the rest. Source: none: infrastructure. Kind: L -/
@[simp] theorem run_cons (u : FlashblocksPayloadV1) (us : List FlashblocksPayloadV1) (c : Cache) :
    run decode (u :: us) c = run decode us (processPayload decode u c) := rfl

/-- A run of two lists of updates is the second run after the first.
Source: none: infrastructure
Kind: L -/
theorem run_append (us vs : List FlashblocksPayloadV1) (c : Cache) :
    run decode (us ++ vs) c = run decode vs (run decode us c) := by
  induction us generalizing c with
  | nil => rfl
  | cons u us ih => exact ih _

end FlashblocksRpc
