import FlashblocksRpc.HashList
import FlashblocksRpc.Races

/-!
# What `transform_receipt` reads, the actor has written

`get_transaction_receipt` (`rpc.rs` 261–288) answers a hash the base node does not know from the
cache, and unwraps every read on the way: the receipt's block number, then in `transform_receipt`
(178–227) the raw transaction, the block, the transaction's position and the block's receipts
list. This module shows that on every cache the actor builds from an empty one (the clock
standing still), none of these reads comes back empty: the only panics left are the two
`.expect`s on code outside the repository, `extract_l1_info` and the receipt builder.

The stream has to keep to the upstream's rule for bases, which `process_payload` states in a
comment and does not check ("base only appears once in the first payload index"). A base carried
past index `0` replaces the cached one, so a block whose first update did not assemble (its extra
data too long) can be assembled by a later update that finds no receipts list to append to: its
receipts are cached, the list is not, and `transform_receipt` panics at
`"pending_receipts:{n}"` (the example after the main theorem).

* `HashReadable c h`: a cached receipt of `h` has its block number and its raw transaction, and
  a cached raw transaction its position. One pass of the loop keeps it
  (`txStep_hashReadable`).
* `Assemblable n c`: a later flash block of `n` could still be assembled from the cached base and
  list. A payload that assembles with more transactions assembles without them
  (`tryIntoBlock_of_append`), so an update of `n` that fails to assemble leaves `n` not
  assemblable (`receiptsReadable_of_not_assembled`).
* **`ReceiptsReadable`**: every hash readable; every receipt's block number names a cached block
  and receipts list; every block that could still be assembled has its receipts list. A stored
  block keeps it (`receiptsReadable_storeBlock`), so does every update
  (`receiptsReadable_processPayload`) and every run (`receiptsReadable_run`).
* **`getTransactionReceipt_panics_outside`**: on a cache so reached, `get_transaction_receipt`
  panics only in `extract_l1_info` or in the receipt builder.
-/

namespace FlashblocksRpc

open Cache

/-- The upstream's rule for bases, which `process_payload` states and does not check: an update
past index `0` carries none.
Source: `flashblocks.rs` 186
Kind: D -/
def FlashblocksPayloadV1.BaseFirst (u : FlashblocksPayloadV1) : Prop :=
  u.index ≠ 0 → u.base = none

/-! ## The reads under one hash -/

/-- The reads `get_transaction_receipt` makes under hash `h` succeed whenever the one before
them did.
Source: `rpc.rs` 178–227
Kind: D -/
structure HashReadable (c : Cache) (h : TxHash) : Prop where
  /-- a cached receipt has its block number and its raw transaction -/
  receipt : (c.get (.receipt h) Value.receipt?).isSome →
    (c.get (.receiptBlock h) Value.u64?).isSome ∧ (c.get (.transaction h) Value.transaction?).isSome
  /-- a cached raw transaction has its position -/
  transaction : (c.get (.transaction h) Value.transaction?).isSome →
    (c.get (.txIdx h) Value.u64?).isSome

/-- Readability of `h` depends only on the keys of `h`. Source: none: infrastructure. Kind: L -/
theorem HashReadable.of_lookup_eq {c c' : Cache} {h : TxHash}
    (e : ∀ k, k.hash? = some h → c'.lookup k = c.lookup k) (hr : HashReadable c h) :
    HashReadable c' h := by
  have e₁ := e (.receipt h) rfl
  have e₂ := e (.receiptBlock h) rfl
  have e₃ := e (.transaction h) rfl
  have e₄ := e (.txIdx h) rfl
  exact ⟨by simpa only [get_eq, e₁, e₂, e₃] using hr.receipt,
    by simpa only [get_eq, e₃, e₄] using hr.transaction⟩

/-- Readability of `h` survives any change that writes no key of `h`.
Source: none: infrastructure
Kind: L -/
theorem HashReadable.of_agrees {c c' : Cache} {S : Key → Prop} (a : c.Agrees c' S) {h : TxHash}
    (hS : ∀ k, S k → k.hash? ≠ some h) (hr : HashReadable c h) : HashReadable c' h :=
  hr.of_lookup_eq fun k hk => a.lookup_eq fun hSk => hS k hSk hk

/-- A pass that caches a transaction caches its position with it.
Source: `flashblocks.rs` 386–397
Kind: L -/
theorem txStep_txIdx (n : UInt64) (m : Metadata) {st : TxLoop} (hc : st.cache.Healthy) (idx : Nat)
    (tx : OpTransactionSigned)
    (hi : (st.cache.get (.transaction tx.hash) Value.transaction?).isSome →
      (st.cache.get (.txIdx tx.hash) Value.u64?).isSome) :
    ((txStep n m st idx tx).cache.get (.txIdx tx.hash) Value.u64?).isSome := by
  have hr : ∀ st' : TxLoop, (storeReceipt n m tx.hash st').cache.lookup (.txIdx tx.hash) =
      st'.cache.lookup (.txIdx tx.hash) :=
    fun st' => (storeReceipt_agrees n m tx.hash st').lookup_eq (by simp)
  dsimp only [txStep]
  simp only [set_of_healthy hc, set_of_healthy (hc.write _ _ _)]
  split
  · rw [get_eq, hr, (recordSender_agrees n tx _).lookup_eq (by simp [senderKeys])]
    simp [Value.u64?]
  · rename_i hno
    rw [get_eq, hr, ← get_eq]
    exact hi (Option.isSome_iff_ne_none.mpr fun h => hno (by rw [h]; rfl))

/-- **One pass of the loop keeps every hash readable** on a healthy cache: the pass for `h`
leaves its transaction cached, writes a position with a new transaction, and a receipt only with
its block number.
Source: `flashblocks.rs` 378–448
Kind: P -/
theorem txStep_hashReadable (n : UInt64) (m : Metadata) {st : TxLoop} (hc : st.cache.Healthy)
    (idx : Nat) (tx : OpTransactionSigned) {h : TxHash} (hr : HashReadable st.cache h) :
    HashReadable (txStep n m st idx tx).cache h := by
  by_cases hh : h = tx.hash
  · subst hh
    obtain ⟨c', a, -, -, e⟩ := txStep_of_healthy n m hc idx tx
    refine ⟨fun hrc => ⟨?_, (txStep_settles n m hc idx tx).1⟩,
      fun _ => txStep_txIdx n m hc idx tx hr.transaction⟩
    rw [e, storeReceipt_of_healthy n m tx.hash (a.healthy hc)] at hrc ⊢
    cases hl : m.receipts.lookup tx.hash with
    | none =>
      simp only [hl, get_eq, a.lookup_eq (k := .receipt tx.hash) (by simp [senderKeys]),
        a.lookup_eq (k := .receiptBlock tx.hash) (by simp [senderKeys])] at hrc ⊢
      exact (hr.receipt hrc).1
    | some r => simp [Value.u64?]
  · exact hr.of_agrees (txStep_agrees n m st idx tx) fun k hk hk' =>
      Key.not_txEntryOf hk' (fun e => hh e.symm) hk

/-- The loop keeps every hash readable on a healthy cache.
Source: `flashblocks.rs` 378–448
Kind: L -/
theorem txLoop_hashReadable (n : UInt64) (m : Metadata) (idx : Nat) (txs : List OpTransactionSigned)
    (st : TxLoop) (hc : st.cache.Healthy) {h : TxHash} (hr : HashReadable st.cache h) :
    HashReadable (txLoop n m idx txs st).cache h := by
  induction txs generalizing idx st with
  | nil => exact hr
  | cons tx txs ih =>
    exact ih _ _ ((txStep_agrees n m st idx tx).healthy hc) (txStep_hashReadable n m hc idx tx hr)

/-- A pass writes a receipt's block number only as the block being indexed.
Source: `flashblocks.rs` 428–447
Kind: L -/
theorem txStep_receiptBlock (n : UInt64) (m : Metadata) {st : TxLoop} (hc : st.cache.Healthy)
    (idx : Nat) (tx : OpTransactionSigned) {h : TxHash} {n' : UInt64}
    (hb : (txStep n m st idx tx).cache.get (.receiptBlock h) Value.u64? = some n') :
    n' = n ∨ st.cache.get (.receiptBlock h) Value.u64? = some n' := by
  obtain ⟨c', a, -, -, e⟩ := txStep_of_healthy n m hc idx tx
  have e' : c'.lookup (.receiptBlock h) = st.cache.lookup (.receiptBlock h) :=
    a.lookup_eq (by simp [senderKeys])
  rw [e, storeReceipt_of_healthy n m tx.hash (a.healthy hc)] at hb
  cases hl : m.receipts.lookup tx.hash with
  | none => simp only [hl, get_eq, e'] at hb; exact Or.inr hb
  | some r =>
    simp only [hl, get_eq, lookup_write _ _ _ _ (show 0 < 10 by decide)] at hb
    by_cases hh : h = tx.hash
    · subst hh; simp [Value.u64?] at hb; exact Or.inl hb.symm
    · simp only [Key.receiptBlock.injEq, hh, if_false, e'] at hb; exact Or.inr hb

/-- The loop writes a receipt's block number only as the block being indexed.
Source: `flashblocks.rs` 378–448
Kind: L -/
theorem txLoop_receiptBlock (n : UInt64) (m : Metadata) (idx : Nat) (txs : List OpTransactionSigned)
    (st : TxLoop) (hc : st.cache.Healthy) {h : TxHash} {n' : UInt64}
    (hb : (txLoop n m idx txs st).cache.get (.receiptBlock h) Value.u64? = some n') :
    n' = n ∨ st.cache.get (.receiptBlock h) Value.u64? = some n' := by
  induction txs generalizing idx st with
  | nil => exact Or.inr hb
  | cons tx txs ih =>
    rcases ih _ _ ((txStep_agrees n m st idx tx).healthy hc) hb with h | h
    · exact Or.inl h
    · exact txStep_receiptBlock n m hc idx tx h

/-! ## A stored block -/

/-- Under the balance map's schema, a key that is not an account is not in the map.
Source: none: infrastructure
Kind: L -/
theorem not_mem_balances {m : Metadata} (hm : m.AccountsOnly) {k : Key} (hk : k.isAccount = false) :
    k ∉ m.newAccountBalances.map Prod.fst := fun hmem => by
  obtain ⟨p, hp, rfl⟩ := List.mem_map.mp hmem
  simp [hm p hp] at hk

/-- `storeBlock` on a healthy cache: `indexBlock` on the cache with the block written.
Source: `flashblocks.rs` 248–293
Kind: L -/
theorem storeBlock_eq_blockWritten {c : Cache} (hc : c.Healthy) (i : UInt64) (m : Metadata)
    (block : OpBlock) : storeBlock i m block c = indexBlock i m block (blockWritten m block c) :=
  storeBlock_eq hc i m block

/-- On a healthy cache, a per-hash key reads after `storeBlock` as after its transaction loop.
Source: `flashblocks.rs` 248–293
Kind: L -/
theorem storeBlock_lookup_of_hash {c : Cache} (hc : c.Healthy) (i : UInt64) {m : Metadata}
    (hm : m.AccountsOnly) (block : OpBlock) {k : Key} {h : TxHash} (hk : k.hash? = some h) :
    (storeBlock i m block c).lookup k = (indexLoop m block (blockWritten m block c)).cache.lookup k := by
  rw [storeBlock_eq_blockWritten hc]
  refine (indexLoop_agrees i hm block _).lookup_eq ?_
  rintro (rfl | rfl | ha)
  · cases hk
  · cases hk
  · simp [Key.hash?_eq_none_of_isAccount ha] at hk

/-- On a healthy cache, `indexBlock` that starts its receipts list over (index `0`) or finds one
to append to writes the list and then the balances.
Source: `flashblocks.rs` 262–293, 457–488
Kind: L -/
theorem indexBlock_of_listed {c : Cache} (hc : c.Healthy) (i : UInt64) (m : Metadata)
    (block : OpBlock)
    (hp : i = 0 ∨ (c.get (.pendingReceipts m.blockNumber) Value.receiptList?).isSome) :
    ∃ l, indexBlock i m block c = storeBalances m.newAccountBalances
      ((getAndSetTxsAndReceipts block m.blockNumber c m).2.write (.pendingReceipts m.blockNumber)
        (.receiptList l) (some 10)) := by
  have a := getAndSetTxsAndReceipts_agrees block m.blockNumber c m
  obtain ⟨l, hl⟩ : ∃ l, (if i = 0 then some [] else
      (getAndSetTxsAndReceipts block m.blockNumber c m).2.get (.pendingReceipts m.blockNumber)
        Value.receiptList?) = some l := by
    split_ifs with hi
    · exact ⟨_, rfl⟩
    · rw [get_eq, a.lookup_eq (by simp [Key.TxEntry, Key.isTxEntry]), ← get_eq]
      exact Option.isSome_iff_exists.mp (hp.resolve_left hi)
  exact ⟨l ++ (getAndSetTxsAndReceipts block m.blockNumber c m).1, by
    simp only [indexBlock, getAndSetAllReceipts, getAndSetCumulative_of_healthy (a.healthy hc), hl,
      Option.map_some']⟩

/-- On a healthy cache, `indexBlock` leaves block `n`'s receipts list cached when it starts the
list over (index `0`) or finds one to append to.
Source: `flashblocks.rs` 262–293, 457–488
Kind: L -/
theorem indexBlock_listed {c : Cache} (hc : c.Healthy) (i : UInt64) {m : Metadata}
    (hm : m.AccountsOnly) (block : OpBlock)
    (hp : i = 0 ∨ (c.get (.pendingReceipts m.blockNumber) Value.receiptList?).isSome) :
    ((indexBlock i m block c).get (.pendingReceipts m.blockNumber) Value.receiptList?).isSome := by
  obtain ⟨l, e⟩ := indexBlock_of_listed hc i m block hp
  rw [e, get_eq, storeBalances_lookup_of_not_account _ hm _ (k := .pendingReceipts m.blockNumber) rfl]
  simp [Value.receiptList?]

/-- On a healthy cache and under the balance map's schema, `storeBlock` leaves its block under
`"block:{n}"`.
Source: `flashblocks.rs` 248–293
Kind: L -/
theorem storeBlock_get_block {c : Cache} (hc : c.Healthy) (i : UInt64) {m : Metadata}
    (hm : m.AccountsOnly) (block : OpBlock) :
    (storeBlock i m block c).get (.block m.blockNumber) Value.block? = some block := by
  rw [get_eq, (storeBlock_of_healthy i hm block hc).lookup_eq
    (by simp [tailKeys, Key.TxEntry, Key.isTxEntry, Key.isAccount])]
  simp [Value.block?]

/-- A stored block leaves every other block's base, list, block and receipts list alone.
Source: `flashblocks.rs` 248–293
Kind: L -/
theorem storeBlock_lookup_of_ne (i : UInt64) {m : Metadata} (hm : m.AccountsOnly) (block : OpBlock)
    (c : Cache) {n : UInt64} (hne : n ≠ m.blockNumber) {k : Key}
    (hk : k = .base n ∨ k = .diffTransactions n ∨ k = .block n ∨ k = .pendingReceipts n) :
    (storeBlock i m block c).lookup k = c.lookup k :=
  (storeBlock_agrees i m block c).lookup_eq fun hs => by
    have ha : k.isAccount = false := by rcases hk with rfl | rfl | rfl | rfl <;> rfl
    rcases hs with hs | hs | hs | hs | hs | hs
    all_goals first
      | exact not_mem_balances hm ha hs
      | (rcases hk with rfl | rfl | rfl | rfl <;> simp_all [Key.TxEntry, Key.isTxEntry])

/-! ## The invariant -/

section Invariant

variable (decode : Bytes → Option OpTransactionSigned)

/-- A later flash block of `n` could still be assembled from what the cache holds: the cached
base and list, with some diff and some more transactions, make a block.
Source: `flashblocks.rs` 186–246
Kind: D -/
def Assemblable (n : UInt64) (c : Cache) : Prop :=
  ∃ base l, c.get (.base n) Value.base? = some base ∧
    c.get (.diffTransactions n) Value.bytesList? = some l ∧
    ∃ diff more block, (executionPayload base diff (l ++ more)).tryIntoBlock decode = .ok block

/-- Whether block `n` can still be assembled depends only on its base and its list.
Source: none: infrastructure
Kind: L -/
theorem Assemblable.of_lookup_eq {c c' : Cache} {n : UInt64}
    (hb : c'.lookup (.base n) = c.lookup (.base n))
    (hd : c'.lookup (.diffTransactions n) = c.lookup (.diffTransactions n))
    (h : Assemblable decode n c) : Assemblable decode n c' := by
  simpa only [Assemblable, get_eq, hb, hd] using h

/-- A list that decodes with more bytes after it decodes on its own.
Source: alloy `ExecutionPayloadV1::try_into_block_with`
Kind: L -/
theorem decodeTransactions_of_append {l more : List Bytes} {txs : List OpTransactionSigned}
    (h : decodeTransactions decode (l ++ more) = .ok txs) :
    ∃ txs', decodeTransactions decode l = .ok txs' := by
  induction l generalizing txs with
  | nil => exact ⟨[], rfl⟩
  | cons raw l ih =>
    simp only [List.cons_append, decodeTransactions] at h ⊢
    cases hr : decode raw with
    | none => simp [hr] at h
    | some tx =>
      simp only [hr] at h ⊢
      cases hd : decodeTransactions decode (l ++ more) with
      | error e => simp [hd, Except.map] at h
      | ok txs₀ =>
        obtain ⟨txs', e⟩ := ih hd
        exact ⟨tx :: txs', by rw [e]; rfl⟩

/-- **A payload that assembles with more transactions assembles without them**, whatever the
diff: the extra data is the base's and the base fee is fixed.
Source: alloy `ExecutionPayloadV1::try_into_block_with`; `flashblocks.rs` 216–238
Kind: P -/
theorem tryIntoBlock_of_append {base : ExecutionPayloadBaseV1}
    {diff' : ExecutionPayloadFlashblockDeltaV1} {l more : List Bytes} {block : OpBlock}
    (h : (executionPayload base diff' (l ++ more)).tryIntoBlock decode = .ok block)
    (diff : ExecutionPayloadFlashblockDeltaV1) : ∃ block', (executionPayload base diff l).tryIntoBlock decode = .ok block' := by
  have hfee : ¬ UInt64.size ≤ (1000 : U256).toNat := by decide
  unfold ExecutionPayloadV3.tryIntoBlock at h ⊢
  simp only [executionPayload, hfee, if_false] at h ⊢
  split_ifs at h ⊢
  rcases hd : decodeTransactions decode (l ++ more) with e | txs <;> simp only [hd] at h
  · cases h
  obtain ⟨txs', e⟩ := decodeTransactions_of_append decode hd
  simp only [e]
  exact ⟨_, rfl⟩

/-- **What `transform_receipt` needs, held by the cache**: every hash readable; every receipt's
block number names a cached block and a cached receipts list; every block that could still be
assembled has its receipts list.
Source: `rpc.rs` 178–227
Kind: D -/
structure ReceiptsReadable (c : Cache) : Prop where
  hashes : ∀ h, HashReadable c h
  receiptBlock : ∀ h n, c.get (.receiptBlock h) Value.u64? = some n →
    (c.get (.block n) Value.block?).isSome ∧ (c.get (.pendingReceipts n) Value.receiptList?).isSome
  assemblable : ∀ n, Assemblable decode n c →
    (c.get (.pendingReceipts n) Value.receiptList?).isSome

/-- The empty cache holds the invariant. Source: none: infrastructure. Kind: L -/
theorem receiptsReadable_empty : ReceiptsReadable decode Cache.empty :=
  ⟨fun _ => ⟨fun h => by simp at h, fun h => by simp at h⟩, fun _ _ h => by simp at h,
    fun _ ⟨_, _, h, _⟩ => by simp at h⟩

/-- What an update of block `n` writes before its block is assembled: the tracker, `n`'s base
and `n`'s list.
Source: `flashblocks.rs` 177–214
Kind: D -/
def earlyKeys (n : UInt64) (k : Key) : Prop :=
  k = .highestPayloadIndex ∨ k = .base n ∨ k = .diffTransactions n

/-- The invariant survives writes to the tracker and to block `n`'s base and list that leave `n`
assemblable only with its receipts list cached.
Source: none: infrastructure
Kind: L -/
theorem ReceiptsReadable.of_agrees {c c' : Cache} {n : UInt64} (hr : ReceiptsReadable decode c)
    (a : c.Agrees c' (earlyKeys n))
    (hn : Assemblable decode n c' → (c'.get (.pendingReceipts n) Value.receiptList?).isSome) :
    ReceiptsReadable decode c' := by
  refine ⟨fun h => (hr.hashes h).of_agrees a fun k hk => ?_, fun h n' hb => ?_, fun n' ha => ?_⟩
  · rcases hk with rfl | rfl | rfl <;> simp [Key.hash?]
  · rw [get_eq, a.lookup_eq (by simp [earlyKeys]), ← get_eq] at hb
    simpa only [get_eq, a.lookup_eq (k := .block n') (by simp [earlyKeys]),
      a.lookup_eq (k := .pendingReceipts n') (by simp [earlyKeys])] using hr.receiptBlock h n' hb
  · by_cases hne : n' = n
    · subst hne; exact hn ha
    have hb : ¬ earlyKeys n (.base n') := by simp [earlyKeys, hne]
    have hd : ¬ earlyKeys n (.diffTransactions n') := by simp [earlyKeys, hne]
    simpa only [get_eq, a.lookup_eq (k := .pendingReceipts n') (by simp [earlyKeys])] using
      hr.assemblable n' (ha.of_lookup_eq decode (a.lookup_eq hb).symm (a.lookup_eq hd).symm)

/-- **A stored block keeps the invariant.** `c₀` is the cache the update found, `c` the one
`storeBlock` receives, which differs from `c₀` on the tracker and on block `n`'s base and list;
past index `0` there is a receipts list to append to.
Source: `flashblocks.rs` 248–293
Kind: P -/
theorem receiptsReadable_storeBlock {c₀ c : Cache} {m : Metadata} (hr : ReceiptsReadable decode c₀)
    (a : c₀.Agrees c (earlyKeys m.blockNumber)) (hc : c.Healthy) (i : UInt64)
    (hm : m.AccountsOnly) (block : OpBlock)
    (hp : i = 0 ∨ (c.get (.pendingReceipts m.blockNumber) Value.receiptList?).isSome) :
    ReceiptsReadable decode (storeBlock i m block c) := by
  -- the cache the loop receives: `"pending"` and `"block:{n}"` written
  have a₄ : c.Agrees (blockWritten m block c) (fun k => k = .pending ∨ k = .block m.blockNumber) :=
    (agrees_write c (Or.inl rfl) (.block block) 10).trans (agrees_write _ (Or.inr rfl) (.block block) 10)
  have hc₄ := a₄.healthy hc
  have a₀ : c₀.Agrees c (fun k => earlyKeys m.blockNumber k ∨ k = .pending ∨
      k = .block m.blockNumber) := a.mono fun _ => Or.inl
  have listed : ((storeBlock i m block c).get (.pendingReceipts m.blockNumber)
      Value.receiptList?).isSome := by
    rw [storeBlock_eq hc]
    refine indexBlock_listed hc₄ i hm block (hp.imp_right fun h => ?_)
    rwa [get_eq, a₄.lookup_eq (by simp), ← get_eq]
  have hblock : ((storeBlock i m block c).get (.block m.blockNumber) Value.block?).isSome := by
    rw [storeBlock_get_block hc i hm block]; rfl
  -- every other block's entries read as in `c₀`
  have other : ∀ {n k}, n ≠ m.blockNumber →
      (k = .base n ∨ k = .diffTransactions n ∨ k = .block n ∨ k = .pendingReceipts n) →
      (storeBlock i m block c).lookup k = c₀.lookup k := fun hne hk => by
    rw [storeBlock_lookup_of_ne i hm block c hne hk, a.lookup_eq]
    rcases hk with rfl | rfl | rfl | rfl <;> simp [earlyKeys, hne]
  have a₀₄ := a₀.trans (a₄.mono fun _ => Or.inr)
  have hS : ∀ {h} k, (earlyKeys m.blockNumber k ∨ k = .pending ∨ k = .block m.blockNumber) →
      k.hash? ≠ some h := fun k hk => by
    rcases hk with (rfl | rfl | rfl) | rfl | rfl <;> simp [Key.hash?]
  refine ⟨fun h => ?_, fun h n hb => ?_, fun n ha => ?_⟩
  · exact (txLoop_hashReadable _ m 0 _ _ hc₄ ((hr.hashes h).of_agrees a₀₄ hS)).of_lookup_eq fun k hk =>
      storeBlock_lookup_of_hash hc i hm block hk
  · by_cases hne : n = m.blockNumber
    · subst hne; exact ⟨hblock, listed⟩
    rw [get_eq, storeBlock_lookup_of_hash hc i hm block (k := .receiptBlock h) rfl, ← get_eq] at hb
    rcases txLoop_receiptBlock _ m 0 _ _ hc₄ hb with rfl | hb
    · exact absurd rfl hne
    rw [get_eq, a₀₄.lookup_eq (by simp [earlyKeys]), ← get_eq] at hb
    simpa only [get_eq, other hne (Or.inr (Or.inr (Or.inl rfl))),
      other hne (Or.inr (Or.inr (Or.inr rfl)))] using hr.receiptBlock h n hb
  · by_cases hne : n = m.blockNumber
    · subst hne; exact listed
    simpa only [get_eq, other hne (Or.inr (Or.inr (Or.inr rfl)))] using
      hr.assemblable n (ha.of_lookup_eq decode (other hne (Or.inl rfl)).symm
        (other hne (Or.inr (Or.inl rfl))).symm)

/-- **An update whose block does not assemble keeps the invariant**: the base and the list it
leaves for block `n` assemble no later flash block either, as a block that assembles with more
transactions assembles without them.
Source: `flashblocks.rs` 203–246
Kind: P -/
theorem receiptsReadable_of_not_assembled {c c₂ : Cache} {n : UInt64}
    (hr : ReceiptsReadable decode c) {base : ExecutionPayloadBaseV1} {txs : List Bytes}
    (a : c.Agrees (c₂.write (.diffTransactions n) (.bytesList txs) (some 10)) (earlyKeys n))
    (hbase : c₂.get (.base n) Value.base? = some base) {diff : ExecutionPayloadFlashblockDeltaV1}
    {e : PayloadError} (hblock : (executionPayload base diff txs).tryIntoBlock decode = .error e) :
    ReceiptsReadable decode (c₂.write (.diffTransactions n) (.bytesList txs) (some 10)) := by
  refine hr.of_agrees decode a fun ⟨base', l, hb', hl', diff', more, block', hok⟩ => ?_
  simp only [get_eq, lookup_write _ _ _ _ (show 0 < 10 by decide), reduceCtorEq, if_false,
    ↓reduceIte, Option.some_bind, Value.bytesList?_eq_some, Value.bytesList.injEq] at hb' hl'
  rw [← get_eq, hbase, Option.some.injEq] at hb'
  subst hb' hl'
  obtain ⟨_, hok'⟩ := tryIntoBlock_of_append decode hok diff
  rw [hblock] at hok'
  cases hok'

/-- **An update assembled past index `0` finds its receipts list**, if it keeps to the rule for
bases: its base and list are the cached ones, which then assemble a block, so the invariant
lists the receipts.
Source: `flashblocks.rs` 167–246
Kind: P -/
theorem assembled_listed {u : FlashblocksPayloadV1} (hb : u.BaseFirst) {c : Cache}
    (hr : ReceiptsReadable decode c) {m : Metadata} {block : OpBlock} {c' : Cache}
    (h : assembled decode u c = some (m, block, c')) :
    u.index = 0 ∨ (c'.get (.pendingReceipts m.blockNumber) Value.receiptList?).isSome := by
  refine or_iff_not_imp_left.mpr fun hi => ?_
  have e₁ : ∀ {k}, k ≠ .highestPayloadIndex → (updateFlashblocksIndex u.index c).lookup k =
      c.lookup k := fun hk => (updateFlashblocksIndex_agrees u.index c).lookup_eq hk
  unfold assembled at h
  split at h
  · cases h
  dsimp only at h
  split_ifs at h
  split at h
  · cases h
  rename_i base c₂ hbase
  split at h
  · cases h
  rename_i txs c₃ ht
  split at h
  · cases h
  rename_i block' hblock
  cases h
  obtain ⟨-, hbase', rfl⟩ := (resolveBase_cases hbase).resolve_left fun h => by simp [hb hi] at h
  obtain ⟨hl, -, rfl⟩ := getAndSetCumulative_cases ht
  obtain ⟨l₀, hl₀, rfl⟩ := (hl.resolve_left fun h => hi h.1).2
  have hasm : Assemblable decode m.blockNumber c :=
    ⟨base, l₀, by rwa [get_eq, ← e₁ (by simp), ← get_eq], by rwa [get_eq, ← e₁ (by simp), ← get_eq],
      u.diff, u.diff.transactions, block, hblock⟩
  rw [get_eq, lookup_write _ _ _ _ (show 0 < 10 by decide), if_neg (by simp), e₁ (by simp), ← get_eq]
  exact hr.assemblable _ hasm

/-- **Every update keeps the invariant** on a healthy cache, if it keeps to the balance map's
schema and to the rule for bases. An update that stops before its block writes at most the
tracker and block `n`'s base and list, and leaves `n` assemblable only if nothing was written or
the receipts list is there; one that assembles a block past index `0` found `n` assemblable, so
found its receipts list.
Source: `flashblocks.rs` 149–306
Kind: P -/
theorem receiptsReadable_processPayload (u : FlashblocksPayloadV1) (hu : u.AccountsOnly)
    (hb : u.BaseFirst) {c : Cache} (hc : c.Healthy) (hr : ReceiptsReadable decode c) :
    ReceiptsReadable decode (processPayload decode u c) := by
  unfold processPayload
  rcases hm : u.metadata with _ | m
  · exact hr
  dsimp only
  have a₁ := updateFlashblocksIndex_agrees u.index c
  have e₁ : ∀ {k}, k ≠ .highestPayloadIndex → (updateFlashblocksIndex u.index c).lookup k =
      c.lookup k := fun hk => a₁.lookup_eq hk
  have tracker : ReceiptsReadable decode (updateFlashblocksIndex u.index c) :=
    hr.of_agrees decode (n := m.blockNumber) (a₁.mono fun _ => Or.inl) fun ha => by
      simpa only [get_eq, e₁ (k := .pendingReceipts m.blockNumber) (by simp)] using
        hr.assemblable _ (ha.of_lookup_eq decode (e₁ (k := .base _) (by simp)).symm
          (e₁ (k := .diffTransactions _) (by simp)).symm)
  split_ifs with hg hs
  · exact hr
  · exact tracker
  rcases hbase : resolveBase u.base m.blockNumber (updateFlashblocksIndex u.index c) with
    _ | ⟨base, c₂⟩
  · exact tracker
  dsimp only
  have hc₁ := a₁.healthy hc
  have a₂ : c.Agrees c₂ (earlyKeys m.blockNumber) :=
    (a₁.mono fun _ => Or.inl).trans ((resolveBase_agrees hbase).mono fun _ h => Or.inr (Or.inl h))
  rcases ht : getAndSetTransactions u.diff.transactions u.index m.blockNumber c₂ with
    _ | ⟨txs, c₃⟩
  · -- no list: the update brought no base (with one, its index is `0` and the list is written)
    rcases resolveBase_cases hbase with ⟨hb', -, rfl⟩ | ⟨-, -, rfl⟩
    · have hi : u.index = 0 := Classical.byContradiction fun hi => by simp [hb hi] at hb'
      simp [getAndSetTransactions_zero (hc₁.write _ _ _) _ hi] at ht
    · exact tracker
  dsimp only
  obtain ⟨hl, -, rfl⟩ := getAndSetCumulative_cases ht
  have a₃ : c.Agrees (c₂.write (.diffTransactions m.blockNumber) (.bytesList txs) (some 10))
      (earlyKeys m.blockNumber) := a₂.trans (agrees_write _ (Or.inr (Or.inr rfl)) _ _)
  rcases hblock : (executionPayload base u.diff txs).tryIntoBlock decode with e | block
  · -- not assembled: with the base and list it leaves, no later flash block assembles either
    have hbase' : c₂.get (.base m.blockNumber) Value.base? = some base := by
      rcases resolveBase_cases hbase with ⟨-, -, rfl⟩ | ⟨-, h, rfl⟩
      · simp [Value.base?]
      · exact h
    exact receiptsReadable_of_not_assembled decode hr a₃ hbase' hblock
  · -- assembled: past index `0` there is a receipts list to append to
    have ha : assembled decode u c = some (m, block,
        c₂.write (.diffTransactions m.blockNumber) (.bytesList txs) (some 10)) := by
      simp [assembled, hm, hg, hs, hbase, ht, hblock]
    exact receiptsReadable_storeBlock decode hr a₃ (a₃.healthy hc) u.index (hu m hm) block
      (assembled_listed decode hb hr ha)

/-- **The invariant over a run**, from any healthy cache it holds in.
Source: `flashblocks.rs` 135–143
Kind: P -/
theorem receiptsReadable_run (us : List FlashblocksPayloadV1)
    (hus : ∀ u ∈ us, u.AccountsOnly ∧ u.BaseFirst) {c : Cache} (hc : c.Healthy)
    (hr : ReceiptsReadable decode c) : ReceiptsReadable decode (run decode us c) := by
  induction us generalizing c with
  | nil => exact hr
  | cons u us ih =>
    have hu := hus u (List.mem_cons_self _ _)
    exact ih (fun v hv => hus v (List.mem_cons_of_mem _ hv)) (healthy_processPayload decode u hc)
      (receiptsReadable_processPayload decode u hu.1 hu.2 hc hr)

end Invariant

/-! ## `get_transaction_receipt` -/

section Receipts

variable {L R E : Type} (extractL1Info : BlockBody → Option L)
  (buildReceipt : ReceiptInput L → Option R)

/-- Where the invariant holds, every read `get_transaction_receipt` unwraps finds its value: a
panic is a failed `expect`.
Source: `rpc.rs` 178–227, 261–288
Kind: L -/
theorem getTransactionReceipt_of_readable {decode : Bytes → Option OpTransactionSigned}
    {c : Cache} (hr : ReceiptsReadable decode c) (baseNode : Except E (Option R)) (h : TxHash)
    {p : Panic} (hp : getTransactionReceipt extractL1Info buildReceipt baseNode h c = .error p) :
    p = .expect "failed to extract l1 info" ∨ p = .expect "failed to build receipt" := by
  unfold getTransactionReceipt at hp
  split at hp
  · split at hp
    · rename_i receipt hrc
      obtain ⟨hn, ht⟩ := (hr.hashes h).receipt (by rw [hrc]; rfl)
      obtain ⟨n, hn⟩ := Option.isSome_iff_exists.mp hn
      obtain ⟨hblk, hl⟩ := hr.receiptBlock h n hn
      obtain ⟨idx, hidx⟩ := Option.isSome_iff_exists.mp ((hr.hashes h).transaction ht)
      obtain ⟨tx, ht⟩ := Option.isSome_iff_exists.mp ht
      obtain ⟨blk, hblk⟩ := Option.isSome_iff_exists.mp hblk
      obtain ⟨all, hl⟩ := Option.isSome_iff_exists.mp hl
      simp only [hn, transformReceipt, ht, hblk, hidx, hl, orPanic_some, pure_bind] at hp
      cases hx : extractL1Info blk.body with
      | none =>
        simp only [hx, orPanic_none, error_bind, Except.error.injEq] at hp
        exact Or.inl hp.symm
      | some l1 =>
        simp only [hx, orPanic_some, pure_bind] at hp
        cases hy : buildReceipt ⟨tx, ⟨h, idx, blk.number, blk.header.baseFeePerGas,
          blk.header.excessBlobGas, blk.header.timestamp⟩, receipt, all, l1⟩ with
        | none =>
          simp only [hy, orPanic_none, error_bind, Except.error.injEq] at hp
          exact Or.inr hp.symm
        | some r => simp only [hy, orPanic_some, pure_bind] at hp; cases hp
    · cases hp
  · cases hp

/-- **`get_transaction_receipt` never finds a key it unwraps empty** on a cache the actor builds
from an empty one, the clock standing still, from a stream that keeps to the balance map's schema
and to the rule for bases: whatever the base node answers and whatever the hash, a panic is one
of the two `expect`s on code outside the repository.
Source: `flashblocks.rs` 149–488, `rpc.rs` 178–288
Kind: P -/
theorem getTransactionReceipt_panics_outside (decode : Bytes → Option OpTransactionSigned)
    (us : List FlashblocksPayloadV1) (hus : ∀ u ∈ us, u.AccountsOnly ∧ u.BaseFirst)
    (baseNode : Except E (Option R)) (h : TxHash) {p : Panic}
    (hp : getTransactionReceipt extractL1Info buildReceipt baseNode h
      (run decode us Cache.empty) = .error p) :
    p = .expect "failed to extract l1 info" ∨ p = .expect "failed to build receipt" :=
  getTransactionReceipt_of_readable extractL1Info buildReceipt
    (receiptsReadable_run decode us hus (fun _ => rfl) (receiptsReadable_empty decode)) baseNode h hp

/-- `receiptUpdate` then `laterUpdate`, both keeping to the rules, and a read of receipt `3` under
an `extract_l1_info` that fails: the handler panics at a failed `expect`.
Source: none: sample input
Kind: L -/
theorem getTransactionReceipt_panics_outside_sample :
    (∀ u ∈ [receiptUpdate, laterUpdate], u.AccountsOnly ∧ u.BaseFirst) ∧
    getTransactionReceipt (fun _ => (none : Option Unit)) (fun _ => some ())
      (.ok none : Except Unit (Option Unit)) 3 (run testDecode [receiptUpdate, laterUpdate] Cache.empty) =
      .error (.expect "failed to extract l1 info") ∧
    (Panic.expect "failed to extract l1 info" = .expect "failed to extract l1 info" ∨
      Panic.expect "failed to extract l1 info" = .expect "failed to build receipt") :=
  have hus : ∀ u ∈ [receiptUpdate, laterUpdate], u.AccountsOnly ∧ u.BaseFirst := fun u hu => by
    rcases List.mem_cons.mp hu with rfl | hu
    · exact ⟨fun m hm p hp => (by cases hm; cases hp), fun h => (h rfl).elim⟩
    · obtain rfl := List.mem_singleton.mp hu
      exact ⟨fun m hm p hp => (by cases hm; cases hp), fun _ => rfl⟩
  ⟨hus, by rfl, getTransactionReceipt_panics_outside (fun _ => (none : Option Unit)) (fun _ => some ())
    testDecode _ hus (.ok none : Except Unit (Option Unit)) 3 (by rfl)⟩

end Receipts

/-- A base whose extra data is over 32 bytes, for block `1`. Source: none: test data. Kind: D -/
def longBase : ExecutionPayloadBaseV1 := { sampleBase 1 with extraData := List.replicate 33 0 }

/-- Block `1` against the rule for bases: a first update with `longBase`, which does not
assemble, then a second that brings a base of its own and transaction `3` with its receipt.
Source: none: test data
Kind: D -/
def lateBaseUpdates : List FlashblocksPayloadV1 :=
  [{ receiptUpdate with base := some longBase }, { laterUpdate with base := some (sampleBase 1) }]

/- The second update assembles the block and caches the receipt of `3`, but finds no receipts
list to append to: `transform_receipt` panics at it. -/
example : getTransactionReceipt (fun _ => some ()) (fun _ => some ())
    (.ok none : Except Unit (Option Unit)) 3 (run testDecode lateBaseUpdates Cache.empty) =
    .error (.missing (.pendingReceipts 1)) := by
  decide

end FlashblocksRpc
