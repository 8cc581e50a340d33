import FlashblocksRpc.Redelivery
import FlashblocksRpc.Rpc

/-!
# Handlers racing the actor

The handlers read the cache while the actor writes it, and every entry expires `10` after its
last write. An update that re-indexes a block rewrites some of a transaction's entries and not
others, so entries written together by an earlier update can expire at different times. A
handler that finds one of them and unwraps another then panics.

Time is a sequence of `Event`s: the actor processes an update, or the clock moves on
(`runEvents`, which `Expiry` reasons about).

* `txLoop_transaction_of_cached`, `txLoop_receipt_of_lookup_none`: a transaction already cached
  keeps its entry through the loop, and so does the receipt entry of a hash the metadata has no
  receipt for.
* **`getTransactionReceipt_panics_after_resend`**: a block that re-sends a transaction already
  cached rewrites its receipt, with ten more to live, but not the transaction. Once the
  transaction has expired and before the receipt has, `get_transaction_receipt` panics
  (`receipt_outlives_transaction`: an update delivered twice).
* **`blockByNumber_panics_after_refresh`**: a block rewrites `"pending"` but only the receipts
  its metadata carries. Once an earlier deposit's receipt has expired and before `"pending"`
  has, `block_by_number(pending, true)` panics (`deposit_receipt_expires`).
-/

namespace FlashblocksRpc

open Cache

/-! ## Timed runs -/

/-- What happens to the cache between two handler reads: the actor processes an update, or
time passes.
Source: spec §5 (handlers run concurrently with the actor)
Kind: D -/
inductive Event where
  | deliver (u : FlashblocksPayloadV1)
  | wait (dt : Nat)

section Timed

variable (decode : Bytes → Option OpTransactionSigned)

/-- One event on the cache. Source: `flashblocks.rs` 135–143; spec §3 (TTL expiry). Kind: D -/
def Event.apply : Event → Cache → Cache
  | .deliver u, c => processPayload decode u c
  | .wait dt, c => c.tick dt

/-- The events in order. Source: `flashblocks.rs` 135–143; spec §5. Kind: D -/
def runEvents : List Event → Cache → Cache
  | [], c => c
  | e :: es, c => runEvents es (e.apply decode c)

end Timed

/-! ## One hash through the loop -/

section Loop

variable (n : UInt64) (m : Metadata)

/-- A transaction cached under `h` stays as it is: no pass writes it again.
Source: `flashblocks.rs` 386–397
Kind: L -/
theorem txStep_transaction_of_cached {st : TxLoop} (hc : st.cache.Healthy) (idx : Nat)
    (tx : OpTransactionSigned) {h : TxHash}
    (hcached : (st.cache.get (.transaction h) Value.transaction?).isSome) :
    (txStep n m st idx tx).cache.entries (.transaction h) = st.cache.entries (.transaction h) := by
  by_cases hne : tx.hash = h
  · subst hne
    obtain ⟨c', -, hc', -, e⟩ := txStep_of_healthy n m hc idx tx
    rw [e, (storeReceipt_agrees n m tx.hash _).2.2 _ (by simp), hc' hcached]
  · exact txStep_entries_of_ne n m st idx (.transaction h) rfl hne

/-- A transaction cached under `h` stays as it is through the whole loop.
Source: `flashblocks.rs` 378–448
Kind: L -/
theorem txLoop_transaction_of_cached (idx : Nat) (txs : List OpTransactionSigned) (st : TxLoop)
    (hc : st.cache.Healthy) {h : TxHash}
    (hcached : (st.cache.get (.transaction h) Value.transaction?).isSome) :
    (txLoop n m idx txs st).cache.entries (.transaction h) = st.cache.entries (.transaction h) := by
  induction txs generalizing idx st with
  | nil => rfl
  | cons tx txs ih =>
    have a := txStep_agrees n m st idx tx
    have e := txStep_transaction_of_cached n m hc idx tx hcached
    rw [txLoop, ih _ _ (a.healthy hc) (by rwa [Cache.get, lookup_congr a.1 e]), e]

/-- A hash the metadata has no receipt for keeps its receipt entry through a pass.
Source: `flashblocks.rs` 428–447
Kind: L -/
theorem txStep_receipt_of_lookup_none {st : TxLoop} (hc : st.cache.Healthy) (idx : Nat)
    (tx : OpTransactionSigned) {h : TxHash} (hr : m.receipts.lookup h = none) :
    (txStep n m st idx tx).cache.entries (.receipt h) = st.cache.entries (.receipt h) := by
  by_cases hne : tx.hash = h
  · subst hne
    obtain ⟨c', a, -, -, e⟩ := txStep_of_healthy n m hc idx tx
    rw [e, storeReceipt_of_healthy n m tx.hash (a.healthy hc), hr]
    exact a.2.2 _ (by simp [senderKeys])
  · exact txStep_entries_of_ne n m st idx (.receipt h) rfl hne

/-- A hash the metadata has no receipt for keeps its receipt entry through the whole loop.
Source: `flashblocks.rs` 378–448
Kind: L -/
theorem txLoop_receipt_of_lookup_none (idx : Nat) (txs : List OpTransactionSigned) (st : TxLoop)
    (hc : st.cache.Healthy) {h : TxHash} (hr : m.receipts.lookup h = none) :
    (txLoop n m idx txs st).cache.entries (.receipt h) = st.cache.entries (.receipt h) := by
  induction txs generalizing idx st with
  | nil => rfl
  | cons tx txs ih =>
    rw [txLoop, ih _ _ ((txStep_agrees n m st idx tx).healthy hc),
      txStep_receipt_of_lookup_none n m hc idx tx hr]

end Loop

/-! ## A stored block -/

/-- The cache `storeBlock` runs the loop on: the block written as `"pending"` and under its
number.
Source: `flashblocks.rs` 248–260
Kind: D -/
def blockWritten (m : Metadata) (block : OpBlock) (c : Cache) : Cache :=
  (c.write .pending (.block block) (some 10)).write (.block m.blockNumber) (.block block) (some 10)

/-- Writing the block leaves the clock. Source: none: infrastructure. Kind: L -/
@[simp] theorem blockWritten_now (m : Metadata) (block : OpBlock) (c : Cache) :
    (blockWritten m block c).now = c.now := rfl

/-- The loop of `indexBlock`, from the hash list cached for the block.
Source: `flashblocks.rs` 262–270, 364–377
Kind: D -/
def indexLoop (m : Metadata) (block : OpBlock) (c : Cache) : TxLoop :=
  txLoop m.blockNumber m 0 block.body.transactions
    ⟨[], (c.get (.txHashes m.blockNumber) Value.hashList?).getD [], c⟩

/-- The loop leaves the clock. Source: none: infrastructure. Kind: L -/
@[simp] theorem indexLoop_now (m : Metadata) (block : OpBlock) (c : Cache) :
    (indexLoop m block c).cache.now = c.now :=
  (txLoop_agrees _ _ _ _ _).1

/-- Every transaction of the block is settled after the loop (`LoopSettled`).
Source: `flashblocks.rs` 378–448
Kind: L -/
theorem indexLoop_settles (m : Metadata) (block : OpBlock) {c : Cache} (hc : c.Healthy) {h : TxHash}
    (hh : h ∈ block.body.transactions.map OpTransactionSigned.hash) :
    LoopSettled m.blockNumber m (indexLoop m block c).cache h :=
  (txLoop_settles _ _ _ _ ⟨[], (c.get (.txHashes m.blockNumber) Value.hashList?).getD [], c⟩ hc h
    (Or.inr (List.mem_map.mp hh))).1

/-- After its loop, `indexBlock` writes only the hash list, the receipts list and the
accounts.
Source: `flashblocks.rs` 262–293
Kind: L -/
theorem indexLoop_agrees (i : UInt64) {m : Metadata} (hm : m.AccountsOnly) (block : OpBlock)
    (c : Cache) :
    (indexLoop m block c).cache.Agrees (indexBlock i m block c)
      (fun k => k = .txHashes m.blockNumber ∨ k = .pendingReceipts m.blockNumber ∨ k.isAccount) := by
  have a := agrees_put (indexLoop m block c).cache
    (S := fun k => k = .txHashes m.blockNumber ∨ k = .pendingReceipts m.blockNumber ∨ k.isAccount)
    (Or.inl rfl) (.hashList (indexLoop m block c).txHashes) 10
  dsimp only [indexBlock, getAndSetTxsAndReceipts]
  split
  · exact a
  · rename_i h
    exact (a.trans ((getAndSetCumulative_agrees h).mono fun _ hk => Or.inr (Or.inl hk))).trans
      ((storeBalances_agrees _ _).mono fun k hk => by
        obtain ⟨p, hp, rfl⟩ := List.mem_map.mp hk
        exact Or.inr (Or.inr (hm p hp)))

/-- On a healthy cache, a read `dt` after `storeBlock`, under a key other than the hash list,
the receipts list and the accounts, is a read of the loop's cache `dt` later.
Source: `flashblocks.rs` 248–293
Kind: L -/
theorem storeBlock_tick_lookup (i : UInt64) {m : Metadata} (hm : m.AccountsOnly) (block : OpBlock)
    {c : Cache} (hc : c.Healthy) (k : Key) (hk : k.isAccount = false)
    (ht : k ≠ .txHashes m.blockNumber) (hp : k ≠ .pendingReceipts m.blockNumber) (dt : Nat) :
    ((storeBlock i m block c).tick dt).lookup k =
      ((indexLoop m block (blockWritten m block c)).cache.tick dt).lookup k := by
  rw [storeBlock_eq hc]
  have a := indexLoop_agrees i hm block (blockWritten m block c)
  exact tick_lookup_congr a.1 (a.2.2 k (by simp [ht, hp, hk])) dt

/-! ## Two schedules -/

/-- A block of the given transactions (its header is immaterial here).
Source: none: test data
Kind: D -/
def blockOf (txs : List OpTransactionSigned) : OpBlock :=
  ⟨⟨0, 0, 0, 0, 0, 1, 0, 0, 0, 0, none, [], none, none⟩, ⟨txs, none⟩⟩

/-- Transaction `7` with its receipt, the first update of block `1`.
Source: none: test data
Kind: D -/
def receiptUpdate : FlashblocksPayloadV1 :=
  { payloadWithTransactions 0 1 [[7]] with
    metadata := some ⟨[(7, .nonDeposit ⟨true, 21000⟩)], [], 1⟩ }

/-- Deposit `9` with its receipt, the first update of block `1`. Source: none: test data. Kind: D -/
def depositUpdate : FlashblocksPayloadV1 :=
  { payloadWithTransactions 0 1 [[9, 1]] with
    metadata := some ⟨[(9, .deposit ⟨true, 21000⟩ (some 0) (some 1))], [], 1⟩ }

/-- Transaction `3` with its receipt, the second update of block `1`.
Source: none: test data
Kind: D -/
def laterUpdate : FlashblocksPayloadV1 :=
  { payloadWithTransactions 1 1 [[3]] with
    metadata := some ⟨[(3, .nonDeposit ⟨true, 42000⟩)], [], 1⟩ }

section Races

variable {L R E : Type} (extractL1Info : BlockBody → Option L)
  (buildReceipt : ReceiptInput L → Option R)

/-- **A receipt outlives its transaction**: on a healthy cache, a stored block
that holds a transaction `h` already cached, with a receipt in its metadata, rewrites `h`'s
receipt and receipt block to live ten more but leaves the cached transaction with its old
expiry. Read after that expiry and before the receipt's, `get_transaction_receipt(h)` (the base
node having found nothing) panics at the raw transaction.
Source: `flashblocks.rs` 386–447, `rpc.rs` 261–288
Kind: P -/
theorem getTransactionReceipt_panics_after_resend (i : UInt64) {m : Metadata} (hm : m.AccountsOnly)
    {block : OpBlock} {h : TxHash} (hh : h ∈ block.body.transactions.map OpTransactionSigned.hash)
    {r : OpReceipt} (hr : m.receipts.lookup h = some r) {c : Cache} (hc : c.Healthy)
    {tx₀ : OpTransactionSigned} {t : Nat}
    (he : c.entries (.transaction h) = some ⟨.transaction tx₀, some t⟩) (hlive : c.now < t)
    {dt : Nat} (hexp : t ≤ c.now + dt) (hdt : dt < 10) :
    getTransactionReceipt extractL1Info buildReceipt (.ok none : Except E (Option R)) h
      ((storeBlock i m block c).tick dt) = .error (.missing (.transaction h)) := by
  have h₁ : (blockWritten m block c).Healthy := (hc.write _ _ _).write _ _ _
  have e₁ : ∀ k, k.hash? = some h → (blockWritten m block c).entries k = c.entries k := by
    intro k hk
    have hp : k ≠ .pending := by rintro rfl; cases hk
    have hb : k ≠ .block m.blockNumber := by rintro rfl; cases hk
    simp [blockWritten, hp, hb]
  have hcached : ((blockWritten m block c).get (.transaction h) Value.transaction?).isSome := by
    simp [lookup, e₁ (.transaction h) rfl, he, Entry.isLive, hlive, Value.transaction?]
  -- the loop rewrites the receipt and keeps the transaction, and the rest of the block leaves them
  obtain ⟨hrec, hblk⟩ := (indexLoop_settles m block h₁ hh).2 r hr
  have hraw : (indexLoop m block (blockWritten m block c)).cache.entries (.transaction h) =
      c.entries (.transaction h) :=
    (txLoop_transaction_of_cached m.blockNumber m 0 _ ⟨_, _, _⟩ h₁ hcached).trans (e₁ (.transaction h) rfl)
  have rd := storeBlock_tick_lookup i hm block hc
  apply getTransactionReceipt_missing_transaction (r := r) (n := m.blockNumber)
  · rw [Cache.get, rd (.receipt h) rfl nofun nofun, tick_lookup_of_entries hrec]
    simp [hdt, Value.receipt?]
  · rw [Cache.get, rd (.receiptBlock h) rfl nofun nofun, tick_lookup_of_entries hblk]
    simp [hdt, Value.u64?]
  · rw [Cache.get, rd (.transaction h) rfl nofun nofun, tick_lookup_of_entries (hraw.trans he)]
    simp [Nat.not_lt.mpr hexp]

/-- `receiptUpdate` at time `0`, block `1` with transaction `7` and its receipt stored again at time
`5`, a read at time `12`: the transaction cached at time `0` has expired while the receipt rewritten
at `5` has not, and `get_transaction_receipt(7)` panics.
Source: none: sample input
Kind: L -/
theorem getTransactionReceipt_panics_after_resend_sample :
    getTransactionReceipt (fun _ => some ()) (fun _ => some ()) (.ok none : Except Unit (Option Unit))
      7 ((storeBlock 0 ⟨[(7, .nonDeposit ⟨true, 21000⟩)], [], 1⟩ (blockOf [⟨7, some 1, false, 0, none⟩])
        ((processPayload testDecode receiptUpdate Cache.empty).tick 5)).tick 7) =
      .error (.missing (.transaction 7)) :=
  getTransactionReceipt_panics_after_resend _ _ 0 (by simp [Metadata.AccountsOnly]) (by decide)
    (by rfl) ((healthy_processPayload testDecode receiptUpdate (c := Cache.empty) fun _ => rfl).tick 5)
    (show ((processPayload testDecode receiptUpdate Cache.empty).tick 5).entries (.transaction 7) =
      some ⟨.transaction ⟨7, some 1, false, 0, none⟩, some 10⟩ by decide)
    (by decide) (by decide) (by decide)

/-- `receiptUpdate` delivered at time `0` and again at time `5`, then a read at time `12`: the
receipt of `7` is there and the transaction is not, and `get_transaction_receipt(7)` panics.
Source: `flashblocks.rs` 386–447, `rpc.rs` 178–227
Kind: L -/
theorem receipt_outlives_transaction :
    (runEvents testDecode [.deliver receiptUpdate, .wait 5, .deliver receiptUpdate, .wait 7]
      Cache.empty).get (.receipt 7) Value.receipt? = some (.nonDeposit ⟨true, 21000⟩) ∧
    getTransactionReceipt (fun _ => some ()) (fun _ => some ()) (.ok none : Except Unit (Option Unit))
      7 (runEvents testDecode [.deliver receiptUpdate, .wait 5, .deliver receiptUpdate, .wait 7]
        Cache.empty) = .error (.missing (.transaction 7)) := by
  decide

/-- **A refreshed pending block outlives a deposit's receipt**: on a healthy cache, a stored block
holding a deposit `d` whose receipt its metadata does not carry rewrites `"pending"` to live ten
more and leaves `d`'s receipt entry as it was. Read once that entry has expired and before
`"pending"` has, `block_by_number(pending, true)` panics.
Source: `flashblocks.rs` 248–286 and 428–447, `rpc.rs` 85–176
Kind: P -/
theorem blockByNumber_panics_after_refresh (i : UInt64) {m : Metadata} (hm : m.AccountsOnly)
    {block : OpBlock} {d : OpTransactionSigned} (hd : d ∈ block.body.transactions)
    (hdep : d.isDeposit = true) (hr : m.receipts.lookup d.hash = none) {c : Cache}
    (hc : c.Healthy) {dt : Nat} (hdt : dt < 10)
    (hgone : (c.tick dt).get (.receipt d.hash) Value.receipt? = none) :
    (blockByNumber ((storeBlock i m block c).tick dt) true).isOk = false := by
  have h₁ : (blockWritten m block c).Healthy := (hc.write _ _ _).write _ _ _
  have rd := storeBlock_tick_lookup i hm block hc
  -- "pending" holds the block for ten more
  have hp : (indexLoop m block (blockWritten m block c)).cache.entries .pending =
      some ⟨.block block, some (c.now + 10)⟩ := by
    rw [indexLoop, (txLoop_agrees _ _ _ _ _).2.2 _ (by simp [Key.TxEntry, Key.isTxEntry])]
    simp [blockWritten]
  have hpend : ((storeBlock i m block c).tick dt).get .pending Value.block? = some block := by
    rw [Cache.get, rd .pending rfl nofun nofun, tick_lookup_of_entries hp]
    simp [hdt, Value.block?]
  -- the deposit's receipt is not written, and has expired
  have hd' : (indexLoop m block (blockWritten m block c)).cache.entries (.receipt d.hash) =
      c.entries (.receipt d.hash) := by
    rw [indexLoop, txLoop_receipt_of_lookup_none _ _ _ _ ⟨[], _, blockWritten m block c⟩ h₁ hr]
    simp [blockWritten]
  have hgone' : ((storeBlock i m block c).tick dt).get (.receipt d.hash) Value.receipt? = none := by
    rw [Cache.get, rd (.receipt d.hash) rfl nofun nofun, tick_lookup_congr (by simp) hd']
    exact hgone
  have hno : (transformBlock ((storeBlock i m block c).tick dt) block true).isOk = false := by
    rw [Bool.eq_false_iff]
    intro hok
    have := ((transformBlock_isOk_iff _ block).mp hok).2 d hd
    rw [DepositReceiptCached, hdep, hgone'] at this
    exact absurd this (by decide)
  simp only [blockByNumber, hpend]
  revert hno
  cases transformBlock ((storeBlock i m block c).tick dt) block true <;> exact id

/-- `depositUpdate` at time `0`, then at time `5` the block of deposit `9` and transaction `3`
stored at index `1` with only the receipt of `3`, a read at time `12`: `block_by_number(pending,
true)` panics.
Source: none: sample input
Kind: L -/
theorem blockByNumber_panics_after_refresh_sample :
    (blockByNumber ((storeBlock 1 ⟨[(3, .nonDeposit ⟨true, 42000⟩)], [], 1⟩
      (blockOf [⟨9, some 1, true, 0, none⟩, ⟨3, some 1, false, 0, none⟩])
      ((processPayload testDecode depositUpdate Cache.empty).tick 5)).tick 7) true).isOk = false :=
  blockByNumber_panics_after_refresh 1 (by simp [Metadata.AccountsOnly])
    (d := ⟨9, some 1, true, 0, none⟩) (by decide) rfl (by rfl)
    ((healthy_processPayload testDecode depositUpdate (c := Cache.empty) fun _ => rfl).tick 5)
    (by decide) (by decide)

/-- `depositUpdate` at time `0`, `laterUpdate` at time `5`, a read at time `12`: the pending
block holds deposit `9`, whose receipt has expired, and `block_by_number(pending, true)`
panics.
Source: `flashblocks.rs` 248–447, `rpc.rs` 133–142
Kind: L -/
theorem deposit_receipt_expires :
    ((runEvents testDecode [.deliver depositUpdate, .wait 5, .deliver laterUpdate, .wait 7]
      Cache.empty).get .pending Value.block?).map
        (fun b => b.body.transactions.map fun tx => (tx.hash, tx.isDeposit)) =
      some [(9, true), (3, false)] ∧
    blockByNumber (runEvents testDecode [.deliver depositUpdate, .wait 5, .deliver laterUpdate,
      .wait 7] Cache.empty) true = .error (.missing (.receipt 9)) := by
  decide

end Races

end FlashblocksRpc
