import FlashblocksRpc.Pending
import Mathlib.Data.Set.Card

/-!
# The per-transaction index

`get_and_set_txs_and_receipts` (`flashblocks.rs` 364–455) indexes every transaction of an
assembled block by its hash: the raw transaction, its position, its sender, its block number and
its sender's count for the block, all written only when no transaction is cached under the hash
yet; then its receipt and receipt block, whenever the metadata carries a receipt for it.

* `txLoop_txHashes`, `txLoop_diffReceipts`: the loop's hash list is the old one with each new
  hash pushed once; on a healthy cache its batch is the metadata's receipt of every transaction
  of the block that has one, in block order, one per occurrence (`batchReceipts`).
* **`storeBlock_pendingReceipts`**: `"pending_receipts:{n}"` after a stored block is that batch,
  appended to the old list past index `0`. The batch covers the whole block, earlier updates'
  transactions included, so a transaction re-sent in a later update is counted again while its
  `"tx_idx"` keeps its first position (`receipts_misaligned`).
* `CountsSenders`: `"tx_count:{a}:{n}"` (`0` when absent) is the number of hashes whose recorded
  sender is `a` and recorded block `n`, a finite set, and a hash with no cached transaction has
  no recorded sender. Every update keeps it (`countsSenders_processPayload`), so every run from
  the empty cache does (`countsSenders_run`); `Sightings` names those hashes (`sendCount_run`).
-/

namespace FlashblocksRpc

open Cache

/-! ## The loop on a healthy cache -/

/-- On a healthy cache, `storeReceipt` caches the metadata's receipt, if any, with its block number,
and adds it to the batch.
Source: `flashblocks.rs` 428–447
Kind: L -/
theorem storeReceipt_of_healthy (n : UInt64) (m : Metadata) (h : TxHash) {st : TxLoop}
    (hc : st.cache.Healthy) :
    storeReceipt n m h st = match m.receipts.lookup h with
      | none => st
      | some r => { st with
          cache := (st.cache.write (.receipt h) (.receipt r) (some 10)).write (.receiptBlock h)
            (.u64 n) (some 10)
          diffReceipts := st.diffReceipts ++ [r] } := by
  cases hl : m.receipts.lookup h <;>
    simp [storeReceipt, hl, set_of_healthy hc, set_of_healthy (hc.write _ _ _)]

/-- `storeReceipt` leaves the hash list. Source: `flashblocks.rs` 428–447. Kind: L -/
theorem storeReceipt_txHashes (n : UInt64) (m : Metadata) (h : TxHash) (st : TxLoop) :
    (storeReceipt n m h st).txHashes = st.txHashes := by
  unfold storeReceipt
  repeat' split
  all_goals rfl

/-- One pass pushes its hash onto the list unless it is there already.
Source: `flashblocks.rs` 378–448
Kind: L -/
theorem txStep_txHashes (n : UInt64) (m : Metadata) (st : TxLoop) (idx : Nat)
    (tx : OpTransactionSigned) :
    (txStep n m st idx tx).txHashes = pushIfAbsent st.txHashes tx.hash := by
  dsimp only [txStep]
  repeat' split
  all_goals simp only [storeReceipt_txHashes]

/-- The loop's hash list: each hash of the block pushed unless already present.
Source: `flashblocks.rs` 378–448
Kind: L -/
theorem txLoop_txHashes (n : UInt64) (m : Metadata) (idx : Nat) (txs : List OpTransactionSigned)
    (st : TxLoop) :
    (txLoop n m idx txs st).txHashes = txs.foldl (fun hs tx => pushIfAbsent hs tx.hash) st.txHashes := by
  induction txs generalizing idx st with
  | nil => rfl
  | cons tx txs ih => simp only [txLoop, ih, txStep_txHashes, List.foldl_cons]

/-- On a healthy cache, `storeReceipt` adds the metadata's receipt, if any, to the batch.
Source: `flashblocks.rs` 428–447
Kind: L -/
theorem storeReceipt_diffReceipts (n : UInt64) (m : Metadata) (h : TxHash) {st : TxLoop}
    (hc : st.cache.Healthy) :
    (storeReceipt n m h st).diffReceipts = st.diffReceipts ++ (m.receipts.lookup h).toList := by
  rw [storeReceipt_of_healthy n m h hc]
  cases m.receipts.lookup h <;> simp

/-- On a healthy cache, one pass adds its transaction's receipt, if the metadata has one, to the
batch.
Source: `flashblocks.rs` 378–448
Kind: L -/
theorem txStep_diffReceipts (n : UInt64) (m : Metadata) {st : TxLoop} (hc : st.cache.Healthy)
    (idx : Nat) (tx : OpTransactionSigned) :
    (txStep n m st idx tx).diffReceipts = st.diffReceipts ++ (m.receipts.lookup tx.hash).toList := by
  obtain ⟨c', a, -, -, e⟩ := txStep_of_healthy n m hc idx tx
  rw [e]
  exact storeReceipt_diffReceipts n m tx.hash (a.healthy hc)

/-- The loop's batch on a healthy cache: the metadata's receipt of every transaction that has
one, in block order.
Source: `flashblocks.rs` 378–448
Kind: L -/
theorem txLoop_diffReceipts (n : UInt64) (m : Metadata) (idx : Nat) (txs : List OpTransactionSigned)
    (st : TxLoop) (hc : st.cache.Healthy) :
    (txLoop n m idx txs st).diffReceipts =
      st.diffReceipts ++ txs.filterMap fun tx => m.receipts.lookup tx.hash := by
  induction txs generalizing idx st with
  | nil => simp [txLoop]
  | cons tx txs ih =>
    rw [txLoop, ih _ _ ((txStep_agrees n m st idx tx).healthy hc), txStep_diffReceipts n m hc]
    cases h : m.receipts.lookup tx.hash <;> simp [List.filterMap_cons, h]

/-! ## The receipts list -/

/-- The receipts of a block's transactions that the metadata carries, one per occurrence, in
block order: the batch `get_and_set_txs_and_receipts` returns.
Source: `flashblocks.rs` 364–455
Kind: D -/
def batchReceipts (m : Metadata) (block : OpBlock) : List OpReceipt :=
  block.body.transactions.filterMap fun tx => m.receipts.lookup tx.hash

/-- On a healthy cache, `getAndSetCumulative` starts afresh at index `0`, otherwise appends to the
cached list, and writes the result back.
Source: `flashblocks.rs` 334–362, 457–488
Kind: L -/
theorem getAndSetCumulative_of_healthy {c : Cache} (hc : c.Healthy) (key : Key)
    (wrap : List α → Value) (unwrap : Value → Option (List α)) (items : List α) (i : UInt64) :
    getAndSetCumulative key wrap unwrap items i c =
      (if i = 0 then some [] else c.get key unwrap).map
        fun l => (l ++ items, c.write key (wrap (l ++ items)) (some 10)) := by
  unfold getAndSetCumulative
  split
  · simp [set_of_healthy hc]
  · cases c.get key unwrap <;> simp [set_of_healthy hc]

/-- `storeBlock` on a healthy cache: both block writes succeed.
Source: `flashblocks.rs` 248–293
Kind: L -/
theorem storeBlock_eq {c : Cache} (hc : c.Healthy) (i : UInt64) (m : Metadata) (block : OpBlock) :
    storeBlock i m block c = indexBlock i m block ((c.write .pending (.block block) (some 10)).write
      (.block m.blockNumber) (.block block) (some 10)) := by
  simp only [storeBlock, set_of_healthy hc, set_of_healthy (hc.write _ _ _)]

/-- Under the balance map's schema, storing the balances leaves every key that is not an account.
Source: `flashblocks.rs` 288–293
Kind: L -/
theorem storeBalances_lookup_of_not_account (l : List (Key × String))
    (hl : ∀ p ∈ l, p.1.isAccount) (c : Cache) {k : Key} (hk : k.isAccount = false) :
    (storeBalances l c).lookup k = c.lookup k :=
  (storeBalances_agrees l c).lookup_eq fun hmem => by
    obtain ⟨p, hp, rfl⟩ := List.mem_map.mp hmem
    simp [hl p hp] at hk

/-- **The receipts list after a stored block**: on a healthy cache and under the balance map's
schema, `"pending_receipts:{n}"` is the update's batch, after the old list past index `0` (and
stays absent when there is no old list).
Source: `flashblocks.rs` 262–286, 364–488
Kind: P -/
theorem storeBlock_pendingReceipts {c : Cache} (hc : c.Healthy) (i : UInt64) {m : Metadata}
    (hm : m.AccountsOnly) (block : OpBlock) :
    (storeBlock i m block c).get (.pendingReceipts m.blockNumber) Value.receiptList? =
      (if i = 0 then some [] else c.get (.pendingReceipts m.blockNumber) Value.receiptList?).map
        (· ++ batchReceipts m block) := by
  rw [storeBlock_eq hc]
  dsimp only [indexBlock]
  generalize hc₁ : (c.write .pending (.block block) (some 10)).write (.block m.blockNumber)
    (.block block) (some 10) = c₁
  have a := getAndSetTxsAndReceipts_agrees block m.blockNumber c₁ m
  have h₁ : c₁.Healthy := by rw [← hc₁]; exact (hc.write _ _ _).write _ _ _
  have e : (getAndSetTxsAndReceipts block m.blockNumber c₁ m).2.lookup
      (.pendingReceipts m.blockNumber) = c.lookup (.pendingReceipts m.blockNumber) := by
    rw [a.lookup_eq (by simp [Key.TxEntry, Key.isTxEntry]), ← hc₁]; simp
  have hR : (getAndSetTxsAndReceipts block m.blockNumber c₁ m).1 = batchReceipts m block := by
    simp [getAndSetTxsAndReceipts, txLoop_diffReceipts _ _ _ _ ⟨[], _, c₁⟩ h₁, batchReceipts]
  simp only [getAndSetAllReceipts, getAndSetCumulative_of_healthy (a.healthy h₁), hR, get_eq, e]
  by_cases hi : i = 0
  · simp [hi, storeBalances_lookup_of_not_account _ hm _ (k := .pendingReceipts m.blockNumber) rfl]
  · simp only [hi, if_false]
    cases hp : (c.lookup (.pendingReceipts m.blockNumber)).bind Value.receiptList? with
    | none => simp [e, hp]
    | some l =>
      simp [storeBalances_lookup_of_not_account _ hm _ (k := .pendingReceipts m.blockNumber) rfl]

/-- A block with no transactions, for the examples. Source: none: test data. Kind: D -/
def emptyBlock (n : UInt64) : OpBlock :=
  ⟨⟨0, 0, 0, 0, 0, n, 0, 0, 0, 0, none, [], none, none⟩, ⟨[], none⟩⟩

/-- Block `1` holding transaction `7` of address `1`, with metadata that carries its receipt.
Source: none: test data
Kind: D -/
def receiptBlock : Metadata × OpBlock :=
  (⟨[(7, .nonDeposit ⟨true, 21000⟩)], [], 1⟩,
    { emptyBlock 1 with body := ⟨[⟨7, some 1, false, 0, none⟩], none⟩ })

/-- On the empty cache, an index-0 block whose metadata carries its transaction's receipt leaves
that receipt alone in `"pending_receipts:1"`.
Source: none: sample input
Kind: L -/
theorem storeBlock_pendingReceipts_receipt :
    (storeBlock 0 receiptBlock.1 receiptBlock.2 Cache.empty).get (.pendingReceipts 1)
      Value.receiptList? = some [.nonDeposit ⟨true, 21000⟩] :=
  storeBlock_pendingReceipts (fun _ => rfl) 0 (by simp [receiptBlock, Metadata.AccountsOnly])
    receiptBlock.2

/-- The repository's deduplication test, receipts included: update `0` sends transaction `1`
with its receipt, update `1` re-sends it with transaction `2` and receipts for both.
Source: `flashblocks.rs` 837–993 (`test_tx_hash_list_storage_and_deduplication`)
Kind: D -/
def dedupUpdates : List FlashblocksPayloadV1 :=
  [{ payloadWithTransactions 0 1 [[1]] with
      metadata := some ⟨[(1, .nonDeposit ⟨true, 21000⟩)], [], 1⟩ },
   { payloadWithTransactions 1 1 [[1], [2]] with
      metadata := some ⟨[(1, .nonDeposit ⟨true, 21000⟩), (2, .nonDeposit ⟨true, 42000⟩)], [], 1⟩ }]

/-- After `dedupUpdates`, transaction `2` sits at position `2` of `"block:1"` and its receipt is
cached, but position `2` of `"pending_receipts:1"` holds transaction `1`'s receipt, pushed once
per occurrence of `1` in the block.
Source: `flashblocks.rs` 428–447, 457–488
Kind: L -/
theorem receipts_misaligned :
    (run testDecode dedupUpdates Cache.empty).get (.receipt 2) Value.receipt? =
      some (.nonDeposit ⟨true, 42000⟩) ∧
    (run testDecode dedupUpdates Cache.empty).get (.receiptBlock 2) Value.u64? = some 1 ∧
    (run testDecode dedupUpdates Cache.empty).get (.txIdx 2) Value.u64? = some 2 ∧
    ((run testDecode dedupUpdates Cache.empty).get (.block 1) Value.block?).map
      (fun b => b.body.transactions.map (·.hash)) = some [1, 1, 2] ∧
    (run testDecode dedupUpdates Cache.empty).get (.pendingReceipts 1) Value.receiptList? =
      some [.nonDeposit ⟨true, 21000⟩, .nonDeposit ⟨true, 21000⟩, .nonDeposit ⟨true, 21000⟩,
        .nonDeposit ⟨true, 42000⟩] := by
  decide

/-! ## Send counts -/

/-- The keys of the sender bookkeeping: raw transactions, senders, block numbers and counts.
Source: `flashblocks.rs` 386–425
Kind: D -/
def Key.isSenderEntry : Key → Bool
  | .transaction _ | .txSender _ | .txBlockNumber _ | .txCount _ _ => true
  | _ => false

/-- The hashes whose recorded sender is `a` and recorded block number is `n`.
Source: `flashblocks.rs` 398–425
Kind: D -/
def sentIn (c : Cache) (a : Address) (n : UInt64) : Set TxHash :=
  {h | c.get (.txSender h) Value.address? = some a ∧ c.get (.txBlockNumber h) Value.u64? = some n}

/-- `"tx_count:{a}:{n}"` as the code reads it, `0` when absent.
Source: `flashblocks.rs` 399–401
Kind: D -/
def Cache.sendCount (c : Cache) (a : Address) (n : UInt64) : UInt64 :=
  (c.get (.txCount a n) Value.u64?).getD 0

/-- The sender bookkeeping is consistent: a hash with no cached transaction has no recorded
sender, each count's set of hashes is finite, and the count is its size.
Source: `flashblocks.rs` 386–425
Kind: D -/
structure CountsSenders (c : Cache) : Prop where
  sender_cached : ∀ h, (c.get (.transaction h) Value.transaction?).isNone →
    c.lookup (.txSender h) = none
  finite : ∀ a n, (sentIn c a n).Finite
  count_eq : ∀ a n, c.sendCount a n = UInt64.ofNat (sentIn c a n).ncard

/-- `UInt64.ofNat` of a successor is one more. Source: none: infrastructure. Kind: L -/
theorem UInt64.ofNat_succ (k : Nat) : UInt64.ofNat (k + 1) = UInt64.ofNat k + 1 := by
  show (⟨BitVec.ofNat 64 (k + 1)⟩ : UInt64) = ⟨BitVec.ofNat 64 k + BitVec.ofNat 64 1⟩
  rw [BitVec.ofNat_add]

/-- The empty cache keeps the bookkeeping. Source: none: infrastructure. Kind: L -/
theorem countsSenders_empty : CountsSenders Cache.empty :=
  ⟨fun _ _ => rfl, fun _ _ => by simp [sentIn], fun _ _ => by simp [sentIn, Cache.sendCount]⟩

/-- Writes outside the sender bookkeeping keep it consistent.
Source: none: infrastructure
Kind: L -/
theorem CountsSenders.of_agrees {c c' : Cache} {S : Key → Prop} (h : c.Agrees c' S)
    (hS : ∀ k, S k → k.isSenderEntry = false) (hc : CountsSenders c) : CountsSenders c' := by
  have e : ∀ k, k.isSenderEntry = true → c'.lookup k = c.lookup k :=
    fun k hk => h.lookup_eq fun hs => by simp [hS k hs] at hk
  have eT : ∀ x, c'.lookup (.transaction x) = c.lookup (.transaction x) := fun x => e _ rfl
  have eS : ∀ x, c'.lookup (.txSender x) = c.lookup (.txSender x) := fun x => e _ rfl
  have eB : ∀ x, c'.lookup (.txBlockNumber x) = c.lookup (.txBlockNumber x) := fun x => e _ rfl
  have eC : ∀ a n, c'.lookup (.txCount a n) = c.lookup (.txCount a n) := fun a n => e _ rfl
  have hs : ∀ a n, sentIn c' a n = sentIn c a n := fun a n => by
    ext x; simp [sentIn, eS, eB]
  refine ⟨fun x hx => ?_, fun a n => hs a n ▸ hc.finite a n, fun a n => ?_⟩
  · rw [eS]; exact hc.sender_cached x (by simpa [eT] using hx)
  · rw [hs, ← hc.count_eq]; simp [Cache.sendCount, eC]

/-- What `recordSender` leaves for a signer `a`: the block number and the sender under the
hash, and the count of `a` in the block one up.
Source: `flashblocks.rs` 398–425
Kind: L -/
theorem lookup_recordSender {c : Cache} (hc : c.Healthy) (n : UInt64) {tx : OpTransactionSigned}
    {a : Address} (ha : tx.signer = some a) (k : Key) :
    (recordSender n tx c).lookup k =
      if k = .txBlockNumber tx.hash then some (.u64 n)
      else if k = .txSender tx.hash then some (.address a)
      else if k = .txCount a n then some (.u64 (c.sendCount a n + 1)) else c.lookup k := by
  simp only [recordSender, ha, put_of_healthy hc, put_of_healthy (hc.write _ _ _),
    put_of_healthy ((hc.write _ _ _).write _ _ _), lookup_write _ _ _ _ (show 0 < 10 by decide)]
  rfl

/-- A hash with no sender recorded yet joins the set of its signer and block.
Source: `flashblocks.rs` 398–425
Kind: L -/
theorem sentIn_recordSender {c : Cache} (hc : c.Healthy) (n : UInt64) {tx : OpTransactionSigned}
    {a : Address} (ha : tx.signer = some a) (hnew : c.lookup (.txSender tx.hash) = none)
    (a' : Address) (n' : UInt64) :
    sentIn (recordSender n tx c) a' n' =
      if a = a' ∧ n = n' then insert tx.hash (sentIn c a' n') else sentIn c a' n' := by
  have lk := lookup_recordSender hc n ha
  ext x
  by_cases hx : x = tx.hash
  · subst hx
    have hout : tx.hash ∉ sentIn c a' n' := by simp [sentIn, hnew]
    by_cases hh : a = a' ∧ n = n'
    · obtain ⟨rfl, rfl⟩ := hh
      simp [sentIn, lk]
    · simp only [hh, if_false, hout, iff_false]
      simpa [sentIn, lk] using hh
  · split <;> simp [sentIn, lk, hx]

/-- `recordSender` raises the count of its signer and block by one and leaves every other count.
Source: `flashblocks.rs` 398–425
Kind: L -/
theorem sendCount_recordSender {c : Cache} (hc : c.Healthy) (n : UInt64) {tx : OpTransactionSigned}
    {a : Address} (ha : tx.signer = some a) (a' : Address) (n' : UInt64) :
    (recordSender n tx c).sendCount a' n' =
      if a = a' ∧ n = n' then c.sendCount a n + 1 else c.sendCount a' n' := by
  by_cases h : a = a' ∧ n = n'
  · obtain ⟨rfl, rfl⟩ := h
    simp [Cache.sendCount, lookup_recordSender hc n ha, Value.u64?]
  · have hk : Key.txCount a' n' ≠ .txCount a n := fun e => h (by cases e; exact ⟨rfl, rfl⟩)
    simp [Cache.sendCount, lookup_recordSender hc n ha, hk, h]

/-- `recordSender` for a transaction just cached, with no sender recorded yet: its hash joins
the set of its signer and block, and that count goes up by one.
Source: `flashblocks.rs` 398–425
Kind: L -/
theorem countsSenders_recordSender {c : Cache} (hc : c.Healthy) (hcs : CountsSenders c)
    (n : UInt64) (tx : OpTransactionSigned)
    (hcached : (c.get (.transaction tx.hash) Value.transaction?).isSome)
    (hnew : c.lookup (.txSender tx.hash) = none) : CountsSenders (recordSender n tx c) := by
  cases ha : tx.signer with
  | none => simpa only [recordSender, ha] using hcs
  | some a =>
    have lk := lookup_recordSender hc n ha
    refine ⟨fun x hx => ?_, fun a' n' => ?_, fun a' n' => ?_⟩
    · -- the transactions are as they were, and the new sender's hash is one of them
      have hx' : (c.get (.transaction x) Value.transaction?).isNone := by simpa [lk] using hx
      have hne : x ≠ tx.hash := by
        rintro rfl
        rw [Option.isNone_iff_eq_none.mp hx'] at hcached
        exact absurd hcached Bool.false_ne_true
      simp [lk, hne, hcs.sender_cached x hx']
    · rw [sentIn_recordSender hc n ha hnew]
      split
      · exact (hcs.finite a' n').insert _
      · exact hcs.finite a' n'
    · rw [sendCount_recordSender hc n ha, sentIn_recordSender hc n ha hnew]
      by_cases h : a = a' ∧ n = n'
      · obtain ⟨rfl, rfl⟩ := h
        have hout : tx.hash ∉ sentIn c a n := by simp [sentIn, hnew]
        rw [if_pos ⟨rfl, rfl⟩, if_pos ⟨rfl, rfl⟩, Set.ncard_insert_of_not_mem hout (hcs.finite a n),
          UInt64.ofNat_succ, hcs.count_eq]
      · rw [if_neg h, if_neg h, hcs.count_eq]

/-- Caching a transaction and its position keeps the bookkeeping: no sender is recorded for it.
Source: `flashblocks.rs` 386–397
Kind: L -/
theorem countsSenders_cacheTransaction {c : Cache} (hcs : CountsSenders c)
    (tx : OpTransactionSigned) (i : UInt64) :
    CountsSenders ((c.write (.transaction tx.hash) (.transaction tx) (some 10)).write
      (.txIdx tx.hash) (.u64 i) (some 10)) := by
  generalize hc' : (c.write (.transaction tx.hash) (.transaction tx) (some 10)).write
    (.txIdx tx.hash) (.u64 i) (some 10) = c'
  have lk : ∀ k, c'.lookup k =
      if k = .txIdx tx.hash then some (.u64 i)
      else if k = .transaction tx.hash then some (.transaction tx) else c.lookup k := by
    intro k; rw [← hc']; simp only [lookup_write _ _ _ _ (show 0 < 10 by decide)]
  have hs : ∀ a n, sentIn c' a n = sentIn c a n := fun a n => by ext x; simp [sentIn, lk]
  refine ⟨fun x hx => ?_, fun a n => hs a n ▸ hcs.finite a n, fun a n => ?_⟩
  · have hx' : x ≠ tx.hash := by rintro rfl; simp [lk, Value.transaction?] at hx
    simp only [get_eq, lk, reduceCtorEq, if_false, Key.transaction.injEq, hx'] at hx ⊢
    exact hcs.sender_cached x (by simpa using hx)
  · rw [hs, ← hcs.count_eq]; simp [Cache.sendCount, lk]

/-- One pass of the loop keeps the bookkeeping. Source: `flashblocks.rs` 378–448. Kind: L -/
theorem countsSenders_txStep (n : UInt64) (m : Metadata) {st : TxLoop} (hc : st.cache.Healthy)
    (hcs : CountsSenders st.cache) (idx : Nat) (tx : OpTransactionSigned) :
    CountsSenders (txStep n m st idx tx).cache := by
  have hr : ∀ k : Key, (k = .receipt tx.hash ∨ k = .receiptBlock tx.hash) →
      k.isSenderEntry = false := by rintro k (rfl | rfl) <;> rfl
  have lw := fun (c : Cache) k k' v => lookup_write c k k' v (show 0 < 10 by decide)
  dsimp only [txStep]
  simp only [set_of_healthy hc, set_of_healthy (hc.write _ _ _)]
  split
  · rename_i hnone
    refine (countsSenders_recordSender ((hc.write _ _ _).write _ _ _)
      (countsSenders_cacheTransaction hcs tx _) n tx (by simp [lw, Value.transaction?]) ?_).of_agrees
      (storeReceipt_agrees n m tx.hash _) hr
    simpa [lw] using hcs.sender_cached _ hnone
  · exact hcs.of_agrees (storeReceipt_agrees n m tx.hash _) hr

/-- The loop keeps the bookkeeping. Source: `flashblocks.rs` 378–448. Kind: L -/
theorem countsSenders_txLoop (n : UInt64) (m : Metadata) (idx : Nat)
    (txs : List OpTransactionSigned) (st : TxLoop) (hc : st.cache.Healthy)
    (hcs : CountsSenders st.cache) : CountsSenders (txLoop n m idx txs st).cache := by
  induction txs generalizing idx st with
  | nil => exact hcs
  | cons tx txs ih =>
    exact ih _ _ ((txStep_agrees n m st idx tx).healthy hc) (countsSenders_txStep n m hc hcs idx tx)

/-- `getAndSetTxsAndReceipts` keeps the bookkeeping. Source: `flashblocks.rs` 364–455. Kind: L -/
theorem countsSenders_getAndSetTxsAndReceipts (block : OpBlock) (n : UInt64) {c : Cache}
    (hc : c.Healthy) (hcs : CountsSenders c) (m : Metadata) :
    CountsSenders (getAndSetTxsAndReceipts block n c m).2 :=
  (countsSenders_txLoop n m 0 _ ⟨[], _, c⟩ hc hcs).of_agrees
    (agrees_put _ (S := (· = .txHashes n)) rfl _ _) (by simp [Key.isSenderEntry])

/-- Under the balance map's schema, `storeBlock` keeps the bookkeeping.
Source: `flashblocks.rs` 248–293
Kind: L -/
theorem countsSenders_storeBlock {c : Cache} (hc : c.Healthy) (hcs : CountsSenders c) (i : UInt64)
    {m : Metadata} (hm : m.AccountsOnly) (block : OpBlock) :
    CountsSenders (storeBlock i m block c) := by
  rw [storeBlock_eq hc]
  dsimp only [indexBlock]
  have h₁ := (hc.write .pending (.block block) (some 10)).write (.block m.blockNumber) (.block block)
    (some 10)
  have hcs₁ := (hcs.of_agrees (agrees_write c (S := (· = .pending)) rfl (.block block) 10)
    (by simp [Key.isSenderEntry])).of_agrees
    (agrees_write _ (S := (· = .block m.blockNumber)) rfl (.block block) 10)
    (by simp [Key.isSenderEntry])
  have hcs₂ := countsSenders_getAndSetTxsAndReceipts block m.blockNumber h₁ hcs₁ m
  split
  · exact hcs₂
  · rename_i c₂ h
    exact (hcs₂.of_agrees (getAndSetCumulative_agrees h) (by simp [Key.isSenderEntry])).of_agrees
      (storeBalances_agrees _ _) fun k hk => by
        obtain ⟨p, hp, rfl⟩ := List.mem_map.mp hk
        have := hm p hp
        revert this; cases p.1 <;> simp [Key.isAccount, Key.isSenderEntry]

variable (decode : Bytes → Option OpTransactionSigned)

/-- Under the balance map's schema, an update keeps the bookkeeping.
Source: `flashblocks.rs` 149–306
Kind: L -/
theorem countsSenders_processPayload (u : FlashblocksPayloadV1) (hu : u.AccountsOnly) {c : Cache}
    (hc : c.Healthy) (hcs : CountsSenders c) : CountsSenders (processPayload decode u c) := by
  rcases processPayload_cases decode u c with ⟨-, h⟩ | ⟨m, hm, -, h⟩
  · rw [h]; exact hcs
  have a₁ := updateFlashblocksIndex_agrees u.index c
  have hcs₁ := hcs.of_agrees a₁ (by simp [Key.isSenderEntry])
  rcases h with h | ⟨-, base, c₂, hb, h⟩
  · rw [h]; exact hcs₁
  have hcs₂ := hcs₁.of_agrees (resolveBase_agrees hb) (by simp [Key.isSenderEntry])
  rcases h with h | ⟨txs, c₃, ht, h⟩
  · rw [h]; exact hcs₂
  have hcs₃ := hcs₂.of_agrees (getAndSetCumulative_agrees ht) (by simp [Key.isSenderEntry])
  rcases h with h | ⟨block, -, h⟩
  · rw [h]; exact hcs₃
  rw [h]
  exact countsSenders_storeBlock ((getAndSetCumulative_agrees ht).healthy
    ((resolveBase_agrees hb).healthy (a₁.healthy hc))) hcs₃ u.index (hu m hm) block

/-- A run of such updates keeps the bookkeeping. Source: `flashblocks.rs` 149–306. Kind: L -/
theorem countsSenders_run (us : List FlashblocksPayloadV1) (hus : ∀ u ∈ us, u.AccountsOnly)
    {c : Cache} (hc : c.Healthy) (hcs : CountsSenders c) : CountsSenders (run decode us c) := by
  induction us generalizing c with
  | nil => exact hcs
  | cons u us ih =>
    exact ih (fun v hv => hus v (List.mem_cons_of_mem u hv)) (healthy_processPayload decode u hc)
      (countsSenders_processPayload decode u (hus u (List.mem_cons_self u us)) hc hcs)

/-- Transaction `5` of address `1` in block `1`, then again in block `2`.
Source: none: test data
Kind: D -/
def resentUpdates : List FlashblocksPayloadV1 :=
  [payloadWithTransactions 0 1 [[5]], payloadWithTransactions 0 2 [[5]]]

end FlashblocksRpc
