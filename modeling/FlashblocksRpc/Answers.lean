import FlashblocksRpc.Sightings

/-!
# What `get_transaction_receipt` answers after a run

`transform_receipt` (`rpc.rs` 178–227) reads the raw transaction and the position cached under
the hash, and `"block:{n}"` and `"pending_receipts:{n}"` for the receipt's block `n`, and hands
them with the receipt to the receipt builder. Along a run from the empty cache every one of these
reads is a function of the blocks the run assembled, and so is the handler's answer:

* `lastBlock n blocks`: the block of the last of `blocks` assembled for block number `n`.
  `BlocksAs` says `"block:{n}"` holds it for every `n` (`blocksAs_processPayload`,
  `blocksAs_run`).
* `receiptFrom`: what the builder makes for a hash from its receipt, its position and raw
  transaction, a block and a receipts list, the tail of `transform_receipt` once its reads are
  done (`transformReceipt_eq`).
* **`getTransactionReceipt_run`**: along any run from the empty cache whose balance maps name
  accounts and which carries a base only at index `0`, `get_transaction_receipt(h)` answers the
  base node unless the base node found nothing and some assembled update carried a receipt for
  `h`. Then it answers `receiptFrom` of the last such receipt, of the position and transaction of
  `h`'s first sighting, of the last block assembled for the receipt's block number, and of that
  block number's cached receipts list. The position is the first sighting's even when the
  receipt and the block are those of a later block number.
-/

namespace FlashblocksRpc

open Cache

/-! ## The block of a block number -/

/-- The block of the last of `blocks` assembled for block number `n`.
Source: `flashblocks.rs` 248–260
Kind: D -/
def lastBlock (n : UInt64) : List (Metadata × OpBlock) → Option OpBlock
  | [] => none
  | (m, block) :: rest => (lastBlock n rest).or (if m.blockNumber = n then some block else none)

/-- One more block: it, if it is for `n`, else the earlier one.
Source: none: infrastructure
Kind: L -/
theorem lastBlock_append (n : UInt64) (blocks : List (Metadata × OpBlock)) (m : Metadata)
    (block : OpBlock) :
    lastBlock n (blocks ++ [(m, block)]) =
      (if m.blockNumber = n then some block else none).or (lastBlock n blocks) := by
  induction blocks with
  | nil => simp [lastBlock, Option.or_none]
  | cons b blocks ih =>
    obtain ⟨m', b'⟩ := b
    rw [List.cons_append, lastBlock, lastBlock, ih, Option.or_assoc]

/-- `"block:{n}"` holds the last block assembled for `n`, for every `n`.
Source: `flashblocks.rs` 248–260
Kind: D -/
def BlocksAs (blocks : List (Metadata × OpBlock)) (c : Cache) : Prop :=
  ∀ n, c.get (.block n) Value.block? = lastBlock n blocks

section Run

variable (decode : Bytes → Option OpTransactionSigned)

/-- An update appends the block it assembles, if any, to the blocks by number.
Source: `flashblocks.rs` 149–306
Kind: L -/
theorem blocksAs_processPayload (u : FlashblocksPayloadV1) (hu : u.AccountsOnly) {c : Cache}
    (hc : c.Healthy) {blocks : List (Metadata × OpBlock)} (hB : BlocksAs blocks c) :
    BlocksAs (blocks ++ ((assembled decode u c).map fun a => (a.1, a.2.1)).toList)
      (processPayload decode u c) := by
  intro n
  rcases processPayload_assembled decode u c with ⟨hn, a⟩ | ⟨m, block, c', hm, ha, a, hp⟩
  · rw [hn, Option.map_none', Option.toList_none, List.append_nil, get_eq,
      a.lookup_eq (k := .block n) Bool.false_ne_true]
    exact hB n
  · rw [ha, hp, Option.map_some', Option.toList_some, lastBlock_append, get_eq,
      (storeBlock_of_healthy u.index (hu m hm) block (a.healthy hc)).lookup_eq
        (by simp [tailKeys, Key.TxEntry, Key.isTxEntry, Key.isAccount])]
    by_cases hb : m.blockNumber = n
    · simp [hb, Value.block?]
    · rw [← hB n, get_eq, ← a.lookup_eq (k := .block n) Bool.false_ne_true]
      simp [hb, Ne.symm hb]

/-- A run appends the blocks it assembles to the blocks by number.
Source: `flashblocks.rs` 149–306
Kind: L -/
theorem blocksAs_run (us : List FlashblocksPayloadV1) (hus : ∀ u ∈ us, u.AccountsOnly)
    {c : Cache} (hc : c.Healthy) {blocks : List (Metadata × OpBlock)} (hB : BlocksAs blocks c) :
    BlocksAs (blocks ++ assembledBlocks decode us c) (run decode us c) := by
  induction us generalizing c blocks with
  | nil => simpa [assembledBlocks] using hB
  | cons u us ih =>
    rw [run_cons, assembledBlocks, ← List.append_assoc]
    exact ih (fun v hv => hus v (List.mem_cons_of_mem u hv)) (healthy_processPayload decode u hc)
      (blocksAs_processPayload decode u (hus u (List.mem_cons_self u us)) hc hB)

end Run

/-! ## The receipt built from the history -/

section Receipts

variable {L R E : Type} (extractL1Info : BlockBody → Option L)
  (buildReceipt : ReceiptInput L → Option R)

/-- What the receipt builder makes for hash `h` from its receipt `r`, its position `idx` and raw
transaction `tx`, the block `block` and the block's receipts `allReceipts`.
Source: `rpc.rs` 199–224
Kind: D -/
def receiptFrom (h : TxHash) (r : OpReceipt) (idx : UInt64) (tx : OpTransactionSigned)
    (block : OpBlock) (allReceipts : List OpReceipt) : Except Panic R := do
  let l1BlockInfo ← orPanic (.expect "failed to extract l1 info") (extractL1Info block.body)
  orPanic (.expect "failed to build receipt")
    (buildReceipt ⟨tx, ⟨h, idx, block.number, block.header.baseFeePerGas,
      block.header.excessBlobGas, block.header.timestamp⟩, r, allReceipts, l1BlockInfo⟩)

/-- `transform_receipt` on a cache whose four reads succeed is `receiptFrom` of what they read.
Source: `rpc.rs` 178–227
Kind: L -/
theorem transformReceipt_eq {c : Cache} {h : TxHash} {n : UInt64} {tx : OpTransactionSigned}
    {block : OpBlock} {idx : UInt64} {allReceipts : List OpReceipt}
    (ht : c.get (.transaction h) Value.transaction? = some tx)
    (hb : c.get (.block n) Value.block? = some block) (hi : c.get (.txIdx h) Value.u64? = some idx)
    (ha : c.get (.pendingReceipts n) Value.receiptList? = some allReceipts) (r : OpReceipt) :
    transformReceipt extractL1Info buildReceipt c r h n =
      receiptFrom extractL1Info buildReceipt h r idx tx block allReceipts := by
  simp only [transformReceipt, ht, hb, hi, ha, orPanic_some, pure_bind]
  rfl

/-- **What `get_transaction_receipt` answers along a run**: along any run from the empty cache
whose balance maps name accounts and which carries a base only at index `0`, the handler answers
the base node unless the base node found nothing and some assembled update carried a receipt for
`h`; then it answers the receipt built from the last such receipt `(r, n)`, the position and raw
transaction of `h`'s first sighting, the last block assembled for `n`, and `n`'s cached receipts
list.
Source: `rpc.rs` 178–227 and 261–288, `flashblocks.rs` 248–293 and 364–455
Kind: P -/
theorem getTransactionReceipt_run (decode : Bytes → Option OpTransactionSigned)
    (us : List FlashblocksPayloadV1) (hus : ∀ u ∈ us, u.AccountsOnly ∧ u.BaseFirst)
    (baseNode : Except E (Option R)) (h : TxHash) :
    ((lastReceipt h (assembledBlocks decode us Cache.empty)).isNone ∨ baseNode ≠ .ok none →
      getTransactionReceipt extractL1Info buildReceipt baseNode h (run decode us Cache.empty) =
        .ok baseNode) ∧
    ∀ r n, baseNode = .ok none → lastReceipt h (assembledBlocks decode us Cache.empty) = some (r, n) →
      ∃ n' idx tx block allReceipts,
        firstSighting h (assembledBlocks decode us Cache.empty) = some (n', idx, tx) ∧
        lastBlock n (assembledBlocks decode us Cache.empty) = some block ∧
        (run decode us Cache.empty).get (.pendingReceipts n) Value.receiptList? = some allReceipts ∧
        getTransactionReceipt extractL1Info buildReceipt baseNode h (run decode us Cache.empty) =
          (do
            let receipt ← receiptFrom extractL1Info buildReceipt h r (UInt64.ofNat idx) tx block
              allReceipts
            pure (.ok (some receipt))) := by
  have hacc : ∀ u ∈ us, u.AccountsOnly := fun u hu => (hus u hu).1
  have hI := indexedAs_run decode us hacc (fun _ => rfl) indexedAs_empty h
  have hB := blocksAs_run decode us hacc (fun _ => rfl) (show BlocksAs [] Cache.empty from fun _ => rfl)
  have hR := receiptsReadable_run decode us hus (fun _ => rfl) (receiptsReadable_empty decode)
  rw [List.nil_append] at hI hB
  obtain ⟨hT, hRc⟩ := hI
  simp only [Cache.receiptRecord, receiptEntries, Prod.mk.injEq] at hRc
  constructor
  · rintro hfall
    rcases baseNode with _ | _ | _
    · rfl
    · have hn : lastReceipt h (assembledBlocks decode us Cache.empty) = none := by simpa using hfall
      simp only [getTransactionReceipt, hRc.1, hn, Option.map_none']
      rfl
    · rfl
  · rintro r n rfl hl
    simp only [hl, Option.map_some'] at hRc
    have htx := ((hR.hashes h).receipt (by rw [hRc.1]; rfl)).2
    obtain ⟨hbk, hpr⟩ := hR.receiptBlock h n hRc.2
    obtain ⟨block, hblock⟩ := Option.isSome_iff_exists.mp hbk
    obtain ⟨allReceipts, hall⟩ := Option.isSome_iff_exists.mp hpr
    rcases hs : firstSighting h (assembledBlocks decode us Cache.empty) with _ | ⟨n', idx, tx⟩ <;>
      simp only [Cache.txRecord, sightingRecord, hs, Prod.mk.injEq] at hT
    · rw [hT.1] at htx
      cases htx
    refine ⟨n', idx, tx, block, allReceipts, rfl, (hB n).symm.trans hblock, hall, ?_⟩
    simp only [getTransactionReceipt, hRc.1, hRc.2, orPanic_some, pure_bind,
      transformReceipt_eq extractL1Info buildReceipt hT.1 hblock hT.2.1 hall]

/-- `getTransactionReceipt_run` at `receiptUpdate` then `laterUpdate`, for transaction `3`.
Source: none: sample input
Kind: L -/
theorem getTransactionReceipt_run_resent :
    (∀ u ∈ [receiptUpdate, laterUpdate], u.AccountsOnly ∧ u.BaseFirst) ∧
    (((lastReceipt 3 (assembledBlocks testDecode [receiptUpdate, laterUpdate] Cache.empty)).isNone ∨
        (.ok none : Except Unit (Option UInt64)) ≠ .ok none →
      getTransactionReceipt (fun _ => some ()) (fun i => some i.txMeta.index)
        (.ok none : Except Unit (Option UInt64)) 3
        (run testDecode [receiptUpdate, laterUpdate] Cache.empty) = .ok (.ok none)) ∧
    ∀ r n, (.ok none : Except Unit (Option UInt64)) = .ok none →
      lastReceipt 3 (assembledBlocks testDecode [receiptUpdate, laterUpdate] Cache.empty) =
        some (r, n) →
      ∃ n' idx tx block allReceipts,
        firstSighting 3 (assembledBlocks testDecode [receiptUpdate, laterUpdate] Cache.empty) =
          some (n', idx, tx) ∧
        lastBlock n (assembledBlocks testDecode [receiptUpdate, laterUpdate] Cache.empty) =
          some block ∧
        (run testDecode [receiptUpdate, laterUpdate] Cache.empty).get (.pendingReceipts n)
          Value.receiptList? = some allReceipts ∧
        getTransactionReceipt (fun _ => some ()) (fun i => some i.txMeta.index)
            (.ok none : Except Unit (Option UInt64)) 3
            (run testDecode [receiptUpdate, laterUpdate] Cache.empty) =
          (do
            let receipt ← receiptFrom (fun _ => some ()) (fun i => some i.txMeta.index) 3 r
              (UInt64.ofNat idx) tx block allReceipts
            pure (.ok (some receipt)))) :=
  have hus : ∀ u ∈ [receiptUpdate, laterUpdate], u.AccountsOnly ∧ u.BaseFirst := fun u hu => by
    rcases List.mem_cons.mp hu with rfl | hu
    · exact ⟨fun m hm p hp => (by cases hm; cases hp), fun h => (h rfl).elim⟩
    · obtain rfl := List.mem_singleton.mp hu
      exact ⟨fun m hm p hp => (by cases hm; cases hp), fun _ => rfl⟩
  ⟨hus, getTransactionReceipt_run (fun _ => some ()) (fun i => some i.txMeta.index) testDecode _
    hus (.ok none : Except Unit (Option UInt64)) 3⟩

/-- Transaction `7` sent again in the first update of block `2`, at position `1`, with its
receipt.
Source: none: test data
Kind: D -/
def movedUpdate : FlashblocksPayloadV1 :=
  { payloadWithTransactions 0 2 [[5], [7]] with
    metadata := some ⟨[(7, .nonDeposit ⟨true, 42000⟩)], [], 2⟩ }

/-- After `receiptUpdate` (transaction `7` at position `0` of block `1`) and `movedUpdate`, the
receipt of `7` is built with block `2` and position `0`, while `7` sits at position `1` of
block `2`. -/
example : getTransactionReceipt (fun _ => some ())
    (fun i => some (i.txMeta.blockNumber, i.txMeta.index))
    (.ok none : Except Unit (Option (UInt64 × UInt64))) 7
    (run testDecode [receiptUpdate, movedUpdate] Cache.empty) = .ok (.ok (some (2, 0))) := by
  decide

end Receipts

end FlashblocksRpc
