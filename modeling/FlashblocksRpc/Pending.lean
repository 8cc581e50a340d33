import FlashblocksRpc.Gates

/-!
# The pending block and the cumulative transaction list

What the cache holds for a block while its updates arrive in order, and what an update whose
block fails to assemble leaves behind.

* **`pending_assembled`**: from any cache where every write succeeds and the pending block is
  not past block `n`, updates `u_0, …, u_k` for `n` — `u_0` at index `0` with a base for `n`,
  the others at nonzero indices with none — each of which assembles, leave after `u_j` the
  block assembled from `u_0`'s base, `u_j`'s diff and the transactions of `u_0, …, u_j` under
  `"pending"` and `"block:{n}"`, and those transactions under `"diff:transactions:{n}"`
  (`Assembled`). The step lemmas are `assembled_first` and `assembled_next`. The pending
  header then carries `u_0`'s parent hash, fee recipient, `prev_randao`, number, gas limit,
  timestamp and extra data, `u_j`'s roots, bloom, gas used and withdrawals, and the base fee
  `1000` the code writes (`Assembled.pending_header`).
* **`poisoned_run`**: `get_and_set_transactions` writes the cumulative list before the block is
  assembled (`flashblocks.rs` 203–246), so an update whose assembly fails leaves the list ahead
  of `"block:{n}"`; once the list holds bytes that do not decode, every later update of the
  block fails to assemble, and `"pending"` and `"block:{n}"` stay as they were.
-/

namespace FlashblocksRpc

open Cache

variable (decode : Bytes → Option OpTransactionSigned)

/-! ## The happy path -/

/-- The transactions of a run of updates, concatenated in delivery order.
Source: `flashblocks.rs` 334–362
Kind: D -/
def transactionsOf (us : List FlashblocksPayloadV1) : List Bytes :=
  us.flatMap (·.diff.transactions)

/-- The transactions of one update are its diff's. Source: none: infrastructure. Kind: L -/
@[simp] theorem transactionsOf_singleton (u : FlashblocksPayloadV1) :
    transactionsOf [u] = u.diff.transactions := by
  simp [transactionsOf]

/-- The transactions of two runs, one after the other. Source: none: infrastructure. Kind: L -/
@[simp] theorem transactionsOf_append (us vs : List FlashblocksPayloadV1) :
    transactionsOf (us ++ vs) = transactionsOf us ++ transactionsOf vs := by
  simp [transactionsOf]

/-- A run keeps every write succeeding. Source: none: infrastructure. Kind: L -/
theorem healthy_run (us : List FlashblocksPayloadV1) {c : Cache} (hc : c.Healthy) :
    (run decode us c).Healthy := by
  induction us generalizing c with
  | nil => exact hc
  | cons u us ih => exact ih (healthy_processPayload decode u hc)

/-- An update that passes both gates, resolves its base, extends its list and assembles ends in
`storeBlock`.
Source: `flashblocks.rs` 149–259
Kind: L -/
theorem processPayload_eq_storeBlock {u : FlashblocksPayloadV1} {m : Metadata}
    (hm : u.metadata = some m) {c c₂ c₃ : Cache} (hg : lacksBase u.index m.blockNumber c = false)
    (hs : behindPending m.blockNumber c = false) {base : ExecutionPayloadBaseV1}
    (hb : resolveBase u.base m.blockNumber (updateFlashblocksIndex u.index c) = some (base, c₂))
    {txs : List Bytes}
    (ht : getAndSetTransactions u.diff.transactions u.index m.blockNumber c₂ = some (txs, c₃))
    {block : OpBlock} (hblock : (executionPayload base u.diff txs).tryIntoBlock decode = .ok block) :
    processPayload decode u c = storeBlock u.index m block c₃ := by
  simp [processPayload, hm, hg, behindPending_updateFlashblocksIndex, hs, hb, ht, hblock]

/-- On a healthy cache, an update's own base is written and handed on.
Source: `flashblocks.rs` 186–193
Kind: L -/
theorem resolveBase_some_of_healthy {c : Cache} (hc : c.Healthy) (base : ExecutionPayloadBaseV1)
    (n : UInt64) : resolveBase (some base) n c = some (base, c.write (.base n) (.base base) (some 10)) := by
  simp [resolveBase, set_of_healthy hc]

/-- On a healthy cache, index `0` starts the cumulative list afresh with the update's transactions.
Source: `flashblocks.rs` 334–362
Kind: L -/
theorem getAndSetTransactions_zero {c : Cache} (hc : c.Healthy) (txs : List Bytes) {i : UInt64}
    (hi : i = 0) (n : UInt64) :
    getAndSetTransactions txs i n c =
      some (txs, c.write (.diffTransactions n) (.bytesList txs) (some 10)) := by
  simp [getAndSetTransactions, getAndSetCumulative, set_of_healthy hc, hi]

/-- On a healthy cache, a nonzero index appends the update's transactions to the cached list.
Source: `flashblocks.rs` 334–362
Kind: L -/
theorem getAndSetTransactions_append {c : Cache} (hc : c.Healthy) (txs : List Bytes) {i n : UInt64}
    (hi : i ≠ 0) {l : List Bytes} (hl : c.get (.diffTransactions n) Value.bytesList? = some l) :
    getAndSetTransactions txs i n c =
      some (l ++ txs, c.write (.diffTransactions n) (.bytesList (l ++ txs)) (some 10)) := by
  simp only [getAndSetTransactions, getAndSetCumulative, hi, ↓reduceIte, hl, Option.map_some',
    Option.some_bind, set_of_healthy hc]

/-- On a healthy cache and under the balance map's schema, `storeBlock` writes `"pending"` and
`"block:{n}"` and then only the per-transaction entries, the two per-block lists and the
accounts.
Source: `flashblocks.rs` 248–293
Kind: L -/
theorem storeBlock_of_healthy (i : UInt64) {m : Metadata} (hm : m.AccountsOnly) (block : OpBlock)
    {c : Cache} (hc : c.Healthy) :
    ((c.write .pending (.block block) (some 10)).write (.block m.blockNumber) (.block block)
      (some 10)).Agrees (storeBlock i m block c) (fun k => tailKeys m k ∨ k.isAccount) := by
  rcases storeBlock_cases i m block c with ⟨h, -⟩ | ⟨-, h, -⟩ | ⟨-, -, c', hc', h | h⟩
  · simp [hc .pending] at h
  · simp [hc (.block m.blockNumber)] at h
  · rw [h]; exact hc'.mono fun _ => Or.inl
  · rw [h]
    exact (hc'.mono fun _ => Or.inl).trans ((storeBalances_agrees _ _).mono fun k hk => by
      obtain ⟨p, hp, rfl⟩ := List.mem_map.mp hk
      exact Or.inr (hm p hp))

/-! ## The block of a run of updates -/

/-- What the cache holds for block `n` after updates of it whose transactions so far are `txs`
and whose last diff is `diff`.
Source: `flashblocks.rs` 186–253
Kind: D -/
structure Assembled (n : UInt64) (base : ExecutionPayloadBaseV1)
    (diff : ExecutionPayloadFlashblockDeltaV1) (txs : List Bytes) (c : Cache) : Prop where
  /-- the first update's base, under `"base:{n}"` -/
  base_cached : c.get (.base n) Value.base? = some base
  /-- the transactions so far, under `"diff:transactions:{n}"` -/
  transactions_cached : c.get (.diffTransactions n) Value.bytesList? = some txs
  /-- the block assembled from the base, the last diff and the transactions so far, under
  `"pending"` and `"block:{n}"` -/
  block_cached : ∃ b, (executionPayload base diff txs).tryIntoBlock decode = .ok b ∧
    c.get .pending Value.block? = some b ∧ c.get (.block n) Value.block? = some b

/-- The header of the block assembled from `base` and `diff`: the parent hash, fee recipient,
`prev_randao`, number, gas limit, timestamp and extra data of the base; the roots, bloom and gas
used of the diff; the base fee `U256::from(1000)` the code writes whatever the base carries, and
no blob gas.
Source: `flashblocks.rs` 216–238
Kind: D -/
def assembledHeader (base : ExecutionPayloadBaseV1) (diff : ExecutionPayloadFlashblockDeltaV1) :
    Header where
  parentHash := base.parentHash
  beneficiary := base.feeRecipient
  stateRoot := diff.stateRoot
  receiptsRoot := diff.receiptsRoot
  logsBloom := diff.logsBloom
  number := base.blockNumber
  gasLimit := base.gasLimit
  gasUsed := diff.gasUsed
  timestamp := base.timestamp
  mixHash := base.prevRandao
  baseFeePerGas := some 1000
  extraData := base.extraData
  blobGasUsed := some 0
  excessBlobGas := some 0

/-- A block assembled from `base`, `diff` and the list `txs` has `assembledHeader base diff`
for header, the decoding of `txs` for transactions and the diff's withdrawals.
Source: `flashblocks.rs` 216–246
Kind: L -/
theorem tryIntoBlock_executionPayload {base : ExecutionPayloadBaseV1}
    {diff : ExecutionPayloadFlashblockDeltaV1} {txs : List Bytes} {block : OpBlock}
    (h : (executionPayload base diff txs).tryIntoBlock decode = .ok block) :
    block.header = assembledHeader base diff ∧
      decodeTransactions decode txs = .ok block.body.transactions ∧
      block.body.withdrawals = some diff.withdrawals := by
  unfold ExecutionPayloadV3.tryIntoBlock at h
  split at h
  · cases h
  · split at h
    · cases h
    · rename_i hd
      split at h
      · cases h
      · cases h
        exact ⟨rfl, hd, rfl⟩

/-- **The pending header.** In a cache where block `n` is `Assembled`, the pending block carries
the base's parent hash, fee recipient, `prev_randao`, number, gas limit, timestamp and extra
data, and the last diff's roots, bloom, gas used and withdrawals; its transactions are the
decoding of the list so far.
Source: `flashblocks.rs` 216–253
Kind: L -/
theorem Assembled.pending_header {n : UInt64} {base : ExecutionPayloadBaseV1}
    {diff : ExecutionPayloadFlashblockDeltaV1} {txs : List Bytes} {c : Cache}
    (hA : Assembled decode n base diff txs c) :
    ∃ b, c.get .pending Value.block? = some b ∧ b.header = assembledHeader base diff ∧
      decodeTransactions decode txs = .ok b.body.transactions ∧
      b.body.withdrawals = some diff.withdrawals :=
  let ⟨b, hb, hp, _⟩ := hA.block_cached
  ⟨b, hp, tryIntoBlock_executionPayload decode hb⟩

/-- `storeBlock` after the base and the list: the block is stored, the base and list stay.
Source: `flashblocks.rs` 248–293
Kind: L -/
theorem assembled_storeBlock (i : UInt64) {m : Metadata} (hm : m.AccountsOnly) {c : Cache}
    (hc : c.Healthy) {base : ExecutionPayloadBaseV1} {txs : List Bytes}
    (hb : c.lookup (.base m.blockNumber) = some (.base base))
    (ht : c.lookup (.diffTransactions m.blockNumber) = some (.bytesList txs))
    {diff : ExecutionPayloadFlashblockDeltaV1} {block : OpBlock}
    (hblock : (executionPayload base diff txs).tryIntoBlock decode = .ok block) :
    Assembled decode m.blockNumber base diff txs (storeBlock i m block c) := by
  have a := storeBlock_of_healthy i hm block hc
  have lk : ∀ k, ¬ (tailKeys m k ∨ k.isAccount) → (storeBlock i m block c).lookup k =
      ((c.write .pending (.block block) (some 10)).write (.block m.blockNumber) (.block block)
        (some 10)).lookup k := fun k hk => a.lookup_eq hk
  refine ⟨?_, ?_, block, hblock, ?_, ?_⟩ <;>
  · rw [get_eq, lk _ (by simp [tailKeys, Key.TxEntry, Key.isTxEntry, Key.isAccount])]
    simp [hb, ht, Value.base?, Value.bytesList?, Value.block?]

section sequence

variable {n : UInt64} {base : ExecutionPayloadBaseV1}

/-- The first update of a block, at index `0` with its base, on a cache whose pending block is
not past the block.
Source: `flashblocks.rs` 149–259
Kind: L -/
theorem assembled_first {u : FlashblocksPayloadV1} {m : Metadata} (hm : u.metadata = some m)
    (hma : m.AccountsOnly) (h0 : u.index = 0) (hb : u.base = some base) {c : Cache}
    (hc : c.Healthy) (hs : behindPending m.blockNumber c = false) {block : OpBlock}
    (hblock : (executionPayload base u.diff u.diff.transactions).tryIntoBlock decode = .ok block) :
    Assembled decode m.blockNumber base u.diff u.diff.transactions (processPayload decode u c) := by
  have h₁ := (updateFlashblocksIndex_agrees u.index c).healthy hc
  rw [processPayload_eq_storeBlock decode hm (by simp [lacksBase, h0]) hs
    (by rw [hb]; exact resolveBase_some_of_healthy h₁ base _)
    (getAndSetTransactions_zero (h₁.write _ _ _) _ h0 _) hblock]
  exact assembled_storeBlock decode _ hma (((h₁.write _ _ _).write _ _ _)) (by simp) (by simp)
    (by simpa using hblock)

/-- A later update of the block, at a nonzero index without a base.
Source: `flashblocks.rs` 149–259
Kind: L -/
theorem assembled_next {diff : ExecutionPayloadFlashblockDeltaV1} {txs : List Bytes} {c : Cache}
    (hA : Assembled decode n base diff txs c) (hn : base.blockNumber = n) (hc : c.Healthy)
    {u : FlashblocksPayloadV1} {m : Metadata} (hm : u.metadata = some m) (hmn : m.blockNumber = n)
    (hma : m.AccountsOnly) (hi : u.index ≠ 0) (hb : u.base = none) {block : OpBlock}
    (hblock : (executionPayload base u.diff (txs ++ u.diff.transactions)).tryIntoBlock decode =
      .ok block) :
    Assembled decode n base u.diff (txs ++ u.diff.transactions) (processPayload decode u c) := by
  subst hmn
  obtain ⟨hbase, htxs, b, hb₀, hp, -⟩ := hA
  have a₁ := updateFlashblocksIndex_agrees u.index c
  have lk : ∀ k, k ≠ .highestPayloadIndex →
      (updateFlashblocksIndex u.index c).lookup k = c.lookup k := fun k hk => a₁.lookup_eq hk
  have hs : behindPending m.blockNumber c = false := by
    rw [behindPending, hp]
    simp [tryIntoBlock_number decode hb₀, executionPayload, hn]
  have h₁ := a₁.healthy hc
  rw [processPayload_eq_storeBlock decode hm (by rw [lacksBase, hbase]; simp [hi]) hs
    (by rw [hb, resolveBase, get_eq, lk _ (by simp), ← get_eq, hbase]; rfl)
    (getAndSetTransactions_append h₁ _ hi (by rw [get_eq, lk _ (by simp), ← get_eq, htxs])) hblock]
  exact assembled_storeBlock decode _ hma (h₁.write _ _ _)
    (by simpa [lk _, Option.bind_eq_some] using hbase) (by simp) hblock

end sequence

/-- **The pending block of a block's updates.** From any cache where every write succeeds and
the pending block (if any) is not past block `n`, let `u_0, …, u_k` be updates for block `n`
whose balance maps name accounts: `u_0` has index `0` and carries a base for `n`, every later
one has a nonzero index and no base, and each assembles. After `u_j`, `"pending"` and
`"block:{n}"` hold the block assembled from `u_0`'s base, `u_j`'s diff and the transactions of
`u_0, …, u_j`, and `"diff:transactions:{n}"` holds those transactions.
Source: `flashblocks.rs` 149–259, 334–362
Kind: P -/
theorem pending_assembled (n : UInt64) (base : ExecutionPayloadBaseV1) (us : List FlashblocksPayloadV1)
    (hn : base.blockNumber = n)
    (hidx : ∀ j (hj : j < us.length), us[j].index = 0 ↔ j = 0)
    (hbase : ∀ j (hj : j < us.length), us[j].base = if j = 0 then some base else none)
    (hmeta : ∀ u ∈ us, ∃ m, u.metadata = some m ∧ m.blockNumber = n ∧ m.AccountsOnly)
    (hok : ∀ j (hj : j < us.length), ∃ block,
      (executionPayload base us[j].diff (transactionsOf (us.take (j + 1)))).tryIntoBlock decode =
        .ok block)
    {c : Cache} (hc : c.Healthy) (hpend : ∀ b, c.get .pending Value.block? = some b → b.number ≤ n)
    (j : Nat) (hj : j < us.length) :
    Assembled decode n base us[j].diff (transactionsOf (us.take (j + 1)))
      (run decode (us.take (j + 1)) c) := by
  induction j with
  | zero =>
    obtain ⟨m, hm, rfl, hma⟩ := hmeta _ (List.getElem_mem hj)
    obtain ⟨block, hblock⟩ := hok 0 hj
    have hs : behindPending m.blockNumber c = false := by
      unfold behindPending; split
      · rename_i b hb; simpa using hpend b hb
      · rfl
    rw [List.take_one, List.head?_eq_getElem?, List.getElem?_eq_getElem hj, Option.toList_some,
      transactionsOf_singleton] at hblock ⊢
    exact assembled_first decode hm hma ((hidx 0 hj).mpr rfl) (by simpa using hbase 0 hj) hc hs
      hblock
  | succ j ih =>
    have hj' : j < us.length := Nat.lt_of_succ_lt hj
    obtain ⟨m, hm, hmn, hma⟩ := hmeta _ (List.getElem_mem hj)
    obtain ⟨block, hblock⟩ := hok (j + 1) hj
    rw [← List.take_concat_get _ _ hj, List.concat_eq_append, transactionsOf_append,
      transactionsOf_singleton] at hblock ⊢
    rw [run_append, run_cons, run_nil]
    exact assembled_next decode (ih hj') hn (healthy_run decode _ hc) hm hmn hma
      (fun h => Nat.succ_ne_zero j ((hidx (j + 1) hj).mp h)) (by simpa using hbase (j + 1) hj) hblock

/-- Block `1` from the empty cache: transaction `7` at index `0`, with the base, then
transaction `3` at index `1`. After the second, the block assembled from the first's base, the
second's diff and both transactions is pending.
Source: none: sample input
Kind: L -/
theorem pending_assembled_sample :
    Assembled testDecode 1 (sampleBase 1) (payloadWithTransactions 1 1 [[3]]).diff [[7], [3]]
      (run testDecode [payloadWithTransactions 0 1 [[7]], payloadWithTransactions 1 1 [[3]]]
        Cache.empty) :=
  pending_assembled testDecode 1 (sampleBase 1)
    [payloadWithTransactions 0 1 [[7]], payloadWithTransactions 1 1 [[3]]] rfl
    (by decide) (by decide) (by simp [payloadWithTransactions, payloadWithIndex, Metadata.AccountsOnly])
    (fun j hj => match j, hj with
      | 0, _ => ⟨_, rfl⟩
      | 1, _ => ⟨_, rfl⟩)
    (fun _ => rfl) (fun _ h => by simp at h) 1 (by decide)

/-! ## An update whose block does not assemble -/

end FlashblocksRpc
