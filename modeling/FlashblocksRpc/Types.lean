import Mathlib.Data.List.Basic

/-!
# The data model: stream updates, blocks, receipts and cache keys

The records `process_payload` (`crates/flashblocks-rpc/src/flashblocks.rs`) and the RPC
overrides (`src/rpc.rs`) read and write, each reduced to the fields some modelled function
reads.

* Words keep their Rust widths: `B256`, `Address`, `Bloom` are `BitVec`s, every `u64` is a
  `UInt64`, so that an index near `u64::MAX` is a value the model can receive.
* `OpTransactionSigned` is a decoded transaction seen through what the code asks of it: its
  hash, its recovered signer, whether it is a deposit, its fee fields. Decoding raw bytes
  (`Decodable2718`) belongs to the node's libraries and is a parameter `decode` throughout.
* `ExecutionPayloadV3.tryIntoBlock` is alloy's conversion of an assembled payload into a block:
  it checks the extra data, decodes every transaction and copies the header fields.
* `Key` is the cache's key namespace, one constructor per `format!` string of the source. The
  metadata's balance map is keyed by strings the upstream chooses, and `cache.set(address, …)`
  writes under the string itself, so a balance key is the `Key` its string spells: an address is
  a `Key.account`, but the string `"pending"` would be `Key.pending`.

Scope: `payload_id`, receipt logs, the header's computed roots and the blob sidecar fields are
read by no modelled function and are left out.
-/

namespace FlashblocksRpc

/-! ## Words and byte strings -/

/-- A 32-byte word (`B256`): hashes, roots and the prev-randao value, only copied and compared.
Source: `alloy_primitives::B256`
Kind: D -/
abbrev B256 := BitVec 256

/-- A 20-byte account address. Source: `alloy_primitives::Address`. Kind: D -/
abbrev Address := BitVec 160

/-- The hash of a transaction (`TxHash`, a `B256`). Source: `alloy_primitives::TxHash`. Kind: D -/
abbrev TxHash := B256

/-- The 256-byte logs bloom. Source: `alloy_primitives::Bloom`. Kind: D -/
abbrev Bloom := BitVec 2048

/-- A 256-bit unsigned integer (`U256`).
Source: `alloy_primitives::U256`, imported at `flashblocks.rs` 2
Kind: D -/
abbrev U256 := BitVec 256

/-- A byte string (`Bytes`): raw transactions and extra data.
Source: `alloy_primitives::Bytes`, imported at `flashblocks.rs` 2
Kind: D -/
abbrev Bytes := List UInt8

/-! ## The stream's records -/

/-- An EIP-4895 withdrawal, carried from the diff into the block unread.
Source: `alloy_eips::eip4895::Withdrawal`
Kind: D -/
structure Withdrawal where
  index : UInt64
  validatorIndex : UInt64
  address : Address
  amount : UInt64
  deriving DecidableEq, Repr

/-- `ExecutionPayloadBaseV1`: the fields fixed for a block by its first update.
Source: `rollup_boost::primitives`, imported at `flashblocks.rs` 7
Kind: D -/
structure ExecutionPayloadBaseV1 where
  parentHash : B256
  parentBeaconBlockRoot : B256
  feeRecipient : Address
  prevRandao : B256
  blockNumber : UInt64
  gasLimit : UInt64
  timestamp : UInt64
  extraData : Bytes
  baseFeePerGas : U256
  deriving DecidableEq, Repr

/-- `ExecutionPayloadFlashblockDeltaV1`: the incremental fields of one update.
Source: `rollup_boost::primitives`, read at `flashblocks.rs` 203–238
Kind: D -/
structure ExecutionPayloadFlashblockDeltaV1 where
  stateRoot : B256
  receiptsRoot : B256
  logsBloom : Bloom
  gasUsed : UInt64
  blockHash : B256
  transactions : List Bytes
  withdrawals : List Withdrawal
  deriving DecidableEq, Repr

/-- A decoded transaction (`OpTransactionSigned`) seen through the methods the code calls.
Source: `reth_optimism_primitives`, imported at `flashblocks.rs` 6
Kind: D -/
structure OpTransactionSigned where
  /-- `tx_hash()`. -/
  hash : TxHash
  /-- `recover_signer()`, `none` where no signer can be recovered. -/
  signer : Option Address
  /-- `is_deposit()`. -/
  isDeposit : Bool
  /-- `max_fee_per_gas()` (a `u128`). -/
  maxFeePerGas : Nat
  /-- `max_priority_fee_per_gas()`, absent for legacy and deposit transactions. -/
  maxPriorityFeePerGas : Option Nat
  deriving DecidableEq, Repr

/-- The consensus receipt fields the code reads (`alloy_consensus::Receipt`).
Source: `alloy_consensus::Receipt`
Kind: D -/
structure Receipt where
  status : Bool
  cumulativeGasUsed : UInt64
  deriving DecidableEq, Repr

/-- `OpReceipt`. The legacy, EIP-2930, EIP-1559 and EIP-7702 variants are one constructor:
the code only asks whether a receipt is `OpReceipt::Deposit`.
Source: `reth_optimism_primitives`, imported at `flashblocks.rs` 6
Kind: D -/
inductive OpReceipt where
  | nonDeposit (receipt : Receipt)
  | deposit (receipt : Receipt) (depositNonce depositReceiptVersion : Option UInt64)
  deriving DecidableEq, Repr

/-! ## Blocks and their assembly -/

/-- The block header fields that `try_into_block` copies from the payload.
Source: alloy `ExecutionPayloadV1::try_into_block_with`
Kind: D -/
structure Header where
  parentHash : B256
  beneficiary : Address
  stateRoot : B256
  receiptsRoot : B256
  logsBloom : Bloom
  number : UInt64
  gasLimit : UInt64
  gasUsed : UInt64
  timestamp : UInt64
  mixHash : B256
  baseFeePerGas : Option UInt64
  extraData : Bytes
  blobGasUsed : Option UInt64
  excessBlobGas : Option UInt64
  deriving DecidableEq, Repr

/-- A block body: the decoded transactions and the withdrawals.
Source: alloy `ExecutionPayloadV1::try_into_block_with`
Kind: D -/
structure BlockBody where
  transactions : List OpTransactionSigned
  withdrawals : Option (List Withdrawal)
  deriving DecidableEq, Repr

/-- `OpBlock`. Source: `reth_optimism_primitives`, imported at `flashblocks.rs` 6. Kind: D -/
structure OpBlock where
  header : Header
  body : BlockBody
  deriving DecidableEq, Repr

/-- `block.number`, through the block's `Deref` to its header.
Source: `flashblocks.rs` 180–184
Kind: D -/
def OpBlock.number (b : OpBlock) : UInt64 := b.header.number

/-- `ExecutionPayloadV3` with its nested `V2` and `V1` payloads flattened into one record.
Source: `alloy_rpc_types_engine`, built at `flashblocks.rs` 216–238
Kind: D -/
structure ExecutionPayloadV3 where
  parentHash : B256
  feeRecipient : Address
  stateRoot : B256
  receiptsRoot : B256
  logsBloom : Bloom
  prevRandao : B256
  blockNumber : UInt64
  gasLimit : UInt64
  gasUsed : UInt64
  timestamp : UInt64
  extraData : Bytes
  baseFeePerGas : U256
  blockHash : B256
  transactions : List Bytes
  withdrawals : List Withdrawal
  blobGasUsed : UInt64
  excessBlobGas : UInt64
  deriving DecidableEq, Repr

/-- Why `try_into_block` refuses a payload. Source: alloy `PayloadError`. Kind: D -/
inductive PayloadError where
  | extraData (data : Bytes)
  | baseFee (fee : U256)
  | decode
  deriving DecidableEq, Repr

/-- Decode every raw transaction of a payload, failing on the first one that does not decode.
Source: alloy `ExecutionPayloadV1::try_into_block_with`
Kind: D -/
def decodeTransactions (decode : Bytes → Option OpTransactionSigned) :
    List Bytes → Except PayloadError (List OpTransactionSigned)
  | [] => .ok []
  | raw :: rest =>
    match decode raw with
    | none => .error .decode
    | some tx => (decodeTransactions decode rest).map (tx :: ·)

/-- alloy's `ExecutionPayloadV3::try_into_block` (through `V2` and `V1`): reject extra data
over 32 bytes, decode the transactions, narrow the base fee to `u64`, copy the header fields.
The payload's `block_hash` is not a header field; the header's roots are computed and not
modelled.
Source: alloy `ExecutionPayloadV1::try_into_block_with`, called at `flashblocks.rs` 240
Kind: D -/
def ExecutionPayloadV3.tryIntoBlock (decode : Bytes → Option OpTransactionSigned)
    (p : ExecutionPayloadV3) : Except PayloadError OpBlock :=
  if 32 < p.extraData.length then .error (.extraData p.extraData) else
  match decodeTransactions decode p.transactions with
  | .error e => .error e
  | .ok txs =>
    if UInt64.size ≤ p.baseFeePerGas.toNat then .error (.baseFee p.baseFeePerGas) else
    .ok { header :=
            { parentHash := p.parentHash, beneficiary := p.feeRecipient,
              stateRoot := p.stateRoot, receiptsRoot := p.receiptsRoot,
              logsBloom := p.logsBloom, number := p.blockNumber, gasLimit := p.gasLimit,
              gasUsed := p.gasUsed, timestamp := p.timestamp, mixHash := p.prevRandao,
              baseFeePerGas := some (UInt64.ofNat p.baseFeePerGas.toNat),
              extraData := p.extraData, blobGasUsed := some p.blobGasUsed,
              excessBlobGas := some p.excessBlobGas }
          body := { transactions := txs, withdrawals := some p.withdrawals } }

/-! ## The cache's key namespace -/

/-- A cache key, one constructor per `format!` string of the source. Numbers print in decimal
(`{}` and `{:?}` agree on `u64`), a hash as its lowercase `0x` hex string, an address as its
checksummed `0x` string.
Source: `flashblocks.rs`, every `format!` key; spec §6 (cache key namespace)
Kind: D -/
inductive Key where
  /-- `"base:{n}"` -/
  | base (n : UInt64)
  /-- `"pending"` -/
  | pending
  /-- `"block:{n}"` -/
  | block (n : UInt64)
  /-- `"diff:transactions:{n}"` -/
  | diffTransactions (n : UInt64)
  /-- `"tx_hashes:{n}"` -/
  | txHashes (n : UInt64)
  /-- the hash string itself: the raw transaction -/
  | transaction (h : TxHash)
  /-- `"tx_idx:{h}"` -/
  | txIdx (h : TxHash)
  /-- `"tx_sender:{h}"` -/
  | txSender (h : TxHash)
  /-- `"tx_block_number:{h}"` -/
  | txBlockNumber (h : TxHash)
  /-- `"tx_count:{a}:{n}"` -/
  | txCount (a : Address) (n : UInt64)
  /-- `"receipt:{h:?}"`: the hash string's `Debug` form, in quotes -/
  | receipt (h : TxHash)
  /-- `"receipt_block:{h:?}"` -/
  | receiptBlock (h : TxHash)
  /-- `"pending_receipts:{n}"` -/
  | pendingReceipts (n : UInt64)
  /-- `"highest_payload_index"` -/
  | highestPayloadIndex
  /-- any other string, such as an address: a balance entry -/
  | account (s : String)
  deriving DecidableEq, Repr

/-- The keys the loop of `get_and_set_txs_and_receipts` writes: the per-transaction entries.
Source: `flashblocks.rs` 378–448
Kind: D -/
def Key.isTxEntry : Key → Bool
  | .transaction _ | .txIdx _ | .txSender _ | .txBlockNumber _ | .txCount _ _
  | .receipt _ | .receiptBlock _ => true
  | _ => false

/-- A balance key names an account, not one of the actor's own entries.
Source: `flashblocks.rs` 288–293
Kind: D -/
def Key.isAccount : Key → Bool
  | .account _ => true
  | _ => false

/-! ## Updates -/

/-- `Metadata`, as `serde_json::from_value` decodes the update's metadata object. The receipt
map is looked up only with `tx_hash().to_string()`, the canonical lowercase `0x` rendering
(`flashblocks.rs` 379, 429–431), so `receipts` is that map restricted to the keys that are such a
rendering of some hash; an entry under any other spelling is never found and is left out. The
balance map is keyed as described in the module header.
Source: `flashblocks.rs` 27–31
Kind: D -/
structure Metadata where
  receipts : List (TxHash × OpReceipt)
  newAccountBalances : List (Key × String)
  blockNumber : UInt64
  deriving DecidableEq, Repr

/-- `FlashblocksPayloadV1`, one decoded stream message. `metadata` is `none` for a JSON value
that does not deserialize to `Metadata`.
Source: `rollup_boost::primitives`, imported at `flashblocks.rs` 7
Kind: D -/
structure FlashblocksPayloadV1 where
  index : UInt64
  base : Option ExecutionPayloadBaseV1
  diff : ExecutionPayloadFlashblockDeltaV1
  metadata : Option Metadata
  deriving DecidableEq, Repr

/-- The upstream's schema for the balance map (`map<addressString, hexString>`): every key is
an account.
Source: spec §6 (the metadata's balance map)
Kind: D -/
def Metadata.AccountsOnly (m : Metadata) : Prop :=
  ∀ p ∈ m.newAccountBalances, p.1.isAccount

/-- An update whose metadata, if it decodes, keeps to the balance map's schema.
Source: spec §6 (the metadata's balance map)
Kind: D -/
def FlashblocksPayloadV1.AccountsOnly (u : FlashblocksPayloadV1) : Prop :=
  ∀ m, u.metadata = some m → m.AccountsOnly

end FlashblocksRpc
