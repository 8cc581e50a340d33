import FlashblocksRpc.Index

/-!
# Delivering an update twice

The stream can hand the actor the same update twice. For an update at index `0` — the first of a
block — a second delivery right after the first changes nothing: every write it makes puts back
what the first left there, and a second pass over the balances ends where the first ended. Past
index `0` it does not hold: the second delivery appends the diff's transactions, and the
block's receipts, once more (`redelivery_appends`).

* `storeBalances_storeBalances`: writing the balances twice is writing them once.
* `txLoop_settles`, `txLoop_of_settled`: after one pass of the transaction loop every
  transaction of the block is cached with its receipt (`LoopSettled`), and a pass over settled
  transactions only rebuilds the batch of receipts.
* `indexBlock_idempotent`, `storeBlock_idempotent`, and **`processPayload_idempotent`**.
-/

namespace FlashblocksRpc

open Cache

/-! ## The balances twice -/

/-- A write under a key of the balance map is overwritten when the balances are stored.
Source: `flashblocks.rs` 288–293
Kind: L -/
theorem storeBalances_write_of_mem (l : List (Key × String)) {c : Cache} (hc : c.Healthy)
    {k : Key} (hk : k ∈ l.map Prod.fst) (v : Value) :
    storeBalances l (c.write k v (some 10)) = storeBalances l c := by
  induction l generalizing c with
  | nil => cases hk
  | cons p l ih =>
    obtain ⟨k', v'⟩ := p
    simp only [storeBalances, put_of_healthy hc, put_of_healthy (hc.write _ _ _)]
    by_cases h : k = k'
    · subst h; rw [write_write]
    · rw [write_comm _ h]
      exact ih (hc.write _ _ _) (by simpa [h] using hk)

/-- Writing the balances a second time ends where the first time ended.
Source: `flashblocks.rs` 288–293
Kind: L -/
theorem storeBalances_storeBalances (l : List (Key × String)) {c : Cache} (hc : c.Healthy) :
    storeBalances l (storeBalances l c) = storeBalances l c := by
  suffices h : ∀ l' : List (Key × String), (∀ p ∈ l', p.1 ∈ l.map Prod.fst) →
      ∀ c : Cache, c.Healthy → storeBalances l (storeBalances l' c) = storeBalances l c from
    h l (fun p hp => List.mem_map_of_mem _ hp) c hc
  intro l' hl'
  induction l' with
  | nil => exact fun _ _ => rfl
  | cons p l' ih =>
    intro c hc
    rw [storeBalances, put_of_healthy hc,
      ih (fun q hq => hl' q (List.mem_cons_of_mem _ hq)) _ (hc.write _ _ _),
      storeBalances_write_of_mem l hc (hl' _ (List.mem_cons_self _ _))]

/-! ## The transaction loop twice -/

/-- The hashes after a push are the old ones and the pushed one.
Source: `flashblocks.rs` 382–384
Kind: L -/
theorem mem_pushIfAbsent {hashes : List TxHash} {h x : TxHash} :
    x ∈ pushIfAbsent hashes h ↔ x ∈ hashes ∨ x = h := by
  unfold pushIfAbsent
  split <;> simp_all [or_iff_left_of_imp]

/-- Pushing a hash already listed changes nothing. Source: `flashblocks.rs` 382–384. Kind: L -/
theorem pushIfAbsent_of_mem {hashes : List TxHash} {h : TxHash} (hm : h ∈ hashes) :
    pushIfAbsent hashes h = hashes := by
  simp [pushIfAbsent, hm]

/-- What another pass of the loop for hash `h` would write is already there: a transaction is
cached under `h`, and if the metadata has a receipt for `h`, it and the block number are stored
as that pass would store them.
Source: `flashblocks.rs` 378–448
Kind: D -/
def LoopSettled (n : UInt64) (m : Metadata) (c : Cache) (h : TxHash) : Prop :=
  (c.get (.transaction h) Value.transaction?).isSome ∧
  ∀ r, m.receipts.lookup h = some r →
    c.entries (.receipt h) = some ⟨.receipt r, some (c.now + 10)⟩ ∧
    c.entries (.receiptBlock h) = some ⟨.u64 n, some (c.now + 10)⟩

/-- Settlement of `h` survives any change that writes no key of `h`.
Source: none: infrastructure
Kind: L -/
theorem LoopSettled.of_agrees {c c' : Cache} {S : Key → Prop} (a : c.Agrees c' S) {n : UInt64}
    {m : Metadata} {h : TxHash} (hS : ∀ k, S k → k.hash? ≠ some h) (hs : LoopSettled n m c h) :
    LoopSettled n m c' h := by
  have e : ∀ k, k.hash? = some h → c'.entries k = c.entries k :=
    fun k hk => a.2.2 k fun hSk => hS k hSk hk
  refine ⟨?_, fun r hr => ?_⟩
  · rw [get_eq, a.lookup_eq (k := .transaction h) (fun hSk => hS _ hSk rfl), ← get_eq]; exact hs.1
  · rw [e (.receipt h) rfl, e (.receiptBlock h) rfl, a.1]; exact hs.2 r hr

/-- `storeReceipt` settles a hash whose transaction is cached.
Source: `flashblocks.rs` 428–447
Kind: L -/
theorem storeReceipt_settles (n : UInt64) (m : Metadata) (h : TxHash) {st : TxLoop}
    (hc : st.cache.Healthy) (hcached : (st.cache.get (.transaction h) Value.transaction?).isSome) :
    LoopSettled n m (storeReceipt n m h st).cache h := by
  rw [storeReceipt_of_healthy n m h hc]
  cases hl : m.receipts.lookup h with
  | none => exact ⟨hcached, fun r hr => by simp [hl] at hr⟩
  | some r =>
    refine ⟨by simpa using hcached, fun r' hr' => ?_⟩
    rw [hl] at hr'
    cases hr'
    simp

/-- A pass of the loop settles its own transaction. Source: `flashblocks.rs` 378–448. Kind: L -/
theorem txStep_settles (n : UInt64) (m : Metadata) {st : TxLoop} (hc : st.cache.Healthy)
    (idx : Nat) (tx : OpTransactionSigned) : LoopSettled n m (txStep n m st idx tx).cache tx.hash := by
  obtain ⟨c', a, -, hs, e⟩ := txStep_of_healthy n m hc idx tx
  rw [e]
  exact storeReceipt_settles n m tx.hash (a.healthy hc) hs

/-- A pass of the loop keeps every settled hash settled.
Source: `flashblocks.rs` 378–448
Kind: L -/
theorem txStep_keeps_settled (n : UInt64) (m : Metadata) {st : TxLoop} (hc : st.cache.Healthy)
    (idx : Nat) (tx : OpTransactionSigned) {h : TxHash} (hs : LoopSettled n m st.cache h) :
    LoopSettled n m (txStep n m st idx tx).cache h := by
  by_cases hh : h = tx.hash
  · subst hh; exact txStep_settles n m hc idx tx
  · exact hs.of_agrees (txStep_agrees n m st idx tx) fun k hk hk' =>
      Key.not_txEntryOf hk' (fun e => hh e.symm) hk

/-- After a pass of the loop, every transaction it went over is settled and listed, and so is
every hash that was before.
Source: `flashblocks.rs` 378–448
Kind: L -/
theorem txLoop_settles (n : UInt64) (m : Metadata) (idx : Nat) (txs : List OpTransactionSigned)
    (st : TxLoop) (hc : st.cache.Healthy) (h : TxHash)
    (hh : (LoopSettled n m st.cache h ∧ h ∈ st.txHashes) ∨ ∃ tx ∈ txs, tx.hash = h) :
    LoopSettled n m (txLoop n m idx txs st).cache h ∧ h ∈ (txLoop n m idx txs st).txHashes := by
  induction txs generalizing idx st with
  | nil => simpa using hh
  | cons tx txs ih =>
    refine ih _ _ ((txStep_agrees n m st idx tx).healthy hc) ?_
    rw [txStep_txHashes, mem_pushIfAbsent]
    rcases hh with ⟨hs, hm⟩ | ⟨tx', htx', rfl⟩
    · exact Or.inl ⟨txStep_keeps_settled n m hc idx tx hs, Or.inl hm⟩
    · rcases List.mem_cons.mp htx' with rfl | htx'
      · exact Or.inl ⟨txStep_settles n m hc idx tx', Or.inr rfl⟩
      · exact Or.inr ⟨tx', htx', rfl⟩

/-- A pass over a settled, listed transaction writes nothing: it only adds the receipt to the batch.
Source: `flashblocks.rs` 378–448
Kind: L -/
theorem txStep_of_settled (n : UInt64) (m : Metadata) {st : TxLoop} (hc : st.cache.Healthy)
    (idx : Nat) (tx : OpTransactionSigned) (hs : LoopSettled n m st.cache tx.hash)
    (hm : tx.hash ∈ st.txHashes) :
    txStep n m st idx tx =
      { st with diffReceipts := st.diffReceipts ++ (m.receipts.lookup tx.hash).toList } := by
  have hno : (st.cache.get (.transaction tx.hash) Value.transaction?).isNone = false := by
    simpa [Option.isNone_iff_eq_none, ← Option.isSome_iff_ne_none] using hs.1
  simp only [txStep, pushIfAbsent_of_mem hm, hno, Bool.false_eq_true, ↓reduceIte]
  rw [storeReceipt_of_healthy n m tx.hash hc]
  cases hl : m.receipts.lookup tx.hash with
  | none => simp
  | some r =>
    obtain ⟨h₁, h₂⟩ := hs.2 r hl
    simp only [write_eq_self h₁, write_eq_self h₂, Option.toList_some]

/-- A pass of the loop over settled, listed transactions writes nothing: it only rebuilds the
batch of receipts.
Source: `flashblocks.rs` 378–448
Kind: L -/
theorem txLoop_of_settled (n : UInt64) (m : Metadata) (idx : Nat) (txs : List OpTransactionSigned)
    (st : TxLoop) (hc : st.cache.Healthy)
    (hs : ∀ tx ∈ txs, LoopSettled n m st.cache tx.hash ∧ tx.hash ∈ st.txHashes) :
    txLoop n m idx txs st =
      { st with diffReceipts := st.diffReceipts ++ txs.filterMap fun tx => m.receipts.lookup tx.hash } := by
  induction txs generalizing idx st with
  | nil => simp [txLoop]
  | cons tx txs ih =>
    obtain ⟨h₁, h₂⟩ := hs tx (List.mem_cons_self _ _)
    rw [txLoop, txStep_of_settled n m hc idx tx h₁ h₂,
      ih (idx + 1) { st with diffReceipts := st.diffReceipts ++ (m.receipts.lookup tx.hash).toList }
        hc (fun t ht => hs t (List.mem_cons_of_mem _ ht))]
    cases h : m.receipts.lookup tx.hash <;> simp [List.filterMap_cons, h]

/-! ## A block indexed twice -/

/-- `indexBlock` at index `0` on a healthy cache: the loop, the hash list, the batch as the new
receipts list, then the balances.
Source: `flashblocks.rs` 262–293
Kind: L -/
theorem indexBlock_zero {c : Cache} (hc : c.Healthy) (m : Metadata) (block : OpBlock) :
    indexBlock 0 m block c =
      let st := txLoop m.blockNumber m 0 block.body.transactions
        ⟨[], (c.get (.txHashes m.blockNumber) Value.hashList?).getD [], c⟩
      storeBalances m.newAccountBalances
        ((st.cache.write (.txHashes m.blockNumber) (.hashList st.txHashes) (some 10)).write
          (.pendingReceipts m.blockNumber) (.receiptList st.diffReceipts) (some 10)) := by
  have h₁ := (txLoop_agrees m.blockNumber m 0 block.body.transactions
    ⟨[], (c.get (.txHashes m.blockNumber) Value.hashList?).getD [], c⟩).healthy hc
  simp only [indexBlock, getAndSetTxsAndReceipts, getAndSetAllReceipts, put_of_healthy h₁,
    getAndSetCumulative_of_healthy (h₁.write _ _ _), ↓reduceIte, Option.map_some',
    List.nil_append]

/-- Indexing the same block at index `0` a second time changes nothing.
Source: `flashblocks.rs` 262–293
Kind: L -/
theorem indexBlock_idempotent {c : Cache} (hc : c.Healthy) {m : Metadata} (hm : m.AccountsOnly)
    (block : OpBlock) : indexBlock 0 m block (indexBlock 0 m block c) = indexBlock 0 m block c := by
  rw [indexBlock_zero hc]
  dsimp only
  generalize hst : txLoop m.blockNumber m 0 block.body.transactions
    ⟨[], (c.get (.txHashes m.blockNumber) Value.hashList?).getD [], c⟩ = st
  have h₁ : st.cache.Healthy := hst ▸ (txLoop_agrees _ _ _ _ _).healthy hc
  have hR : st.diffReceipts = [] ++ block.body.transactions.filterMap
      fun tx => m.receipts.lookup tx.hash := by
    rw [← hst, txLoop_diffReceipts _ _ _ _ _ hc]
  generalize hc₃ : (st.cache.write (.txHashes m.blockNumber) (.hashList st.txHashes) (some 10)).write
    (.pendingReceipts m.blockNumber) (.receiptList st.diffReceipts) (some 10) = c₃
  have h₃ : c₃.Healthy := hc₃ ▸ (h₁.write _ _ _).write _ _ _
  -- from the loop's cache to the result: the two lists, then accounts
  have a : st.cache.Agrees (storeBalances m.newAccountBalances c₃)
      (fun k => k = .txHashes m.blockNumber ∨ k = .pendingReceipts m.blockNumber ∨ k.isAccount) := by
    rw [← hc₃]
    exact ((agrees_write _ (Or.inl rfl) _ _).trans (agrees_write _ (Or.inr (Or.inl rfl)) _ _)).trans
      ((storeBalances_agrees _ _).mono fun k hk => by
        obtain ⟨p, hp, rfl⟩ := List.mem_map.mp hk
        exact Or.inr (Or.inr (hm p hp)))
  have e₃ : ∀ k, k.isAccount = false → (storeBalances m.newAccountBalances c₃).entries k =
      c₃.entries k := fun k hk => (storeBalances_agrees _ _).2.2 k fun hmem => by
    obtain ⟨p, hp, rfl⟩ := List.mem_map.mp hmem
    simp [hm p hp] at hk
  have hnow : (storeBalances m.newAccountBalances c₃).now = st.cache.now := a.1
  have hH : ((storeBalances m.newAccountBalances c₃).get (.txHashes m.blockNumber)
      Value.hashList?).getD [] = st.txHashes := by
    simp only [get_eq, lookup]
    rw [e₃ (.txHashes m.blockNumber) rfl, hnow, ← hc₃]
    simp [Entry.isLive, Value.hashList?]
  -- the second pass
  rw [indexBlock_zero (a.healthy h₁)]
  dsimp only
  rw [hH, txLoop_of_settled _ _ _ _ _ (a.healthy h₁) fun tx htx => by
    obtain ⟨hs, hmem⟩ := hst ▸ txLoop_settles m.blockNumber m 0 block.body.transactions _ hc tx.hash
      (Or.inr ⟨tx, htx, rfl⟩)
    refine ⟨hs.of_agrees a fun k hk => ?_, hmem⟩
    rcases hk with rfl | rfl | hk
    · nofun
    · nofun
    · rw [Key.hash?_eq_none_of_isAccount hk]; nofun]
  dsimp only
  have w₁ : (storeBalances m.newAccountBalances c₃).write (.txHashes m.blockNumber)
      (.hashList st.txHashes) (some 10) = storeBalances m.newAccountBalances c₃ :=
    write_eq_self (by rw [e₃ (.txHashes m.blockNumber) rfl, hnow, ← hc₃]; simp)
  have w₂ : (storeBalances m.newAccountBalances c₃).write (.pendingReceipts m.blockNumber)
      (.receiptList st.diffReceipts) (some 10) = storeBalances m.newAccountBalances c₃ :=
    write_eq_self (by rw [e₃ (.pendingReceipts m.blockNumber) rfl, hnow, ← hc₃]; simp)
  rw [← hR, w₁, w₂, storeBalances_storeBalances _ h₃]

/-- Storing the same block at index `0` a second time changes nothing.
Source: `flashblocks.rs` 248–293
Kind: L -/
theorem storeBlock_idempotent {c : Cache} (hc : c.Healthy) {m : Metadata} (hm : m.AccountsOnly)
    (block : OpBlock) : storeBlock 0 m block (storeBlock 0 m block c) = storeBlock 0 m block c := by
  have h₂ := (hc.write .pending (.block block) (some 10)).write (.block m.blockNumber) (.block block)
    (some 10)
  have a := storeBlock_of_healthy 0 hm block hc
  have e : ∀ k, k = .pending ∨ k = .block m.blockNumber → (storeBlock 0 m block c).entries k =
      ((c.write .pending (.block block) (some 10)).write (.block m.blockNumber) (.block block)
        (some 10)).entries k := by
    rintro k (rfl | rfl) <;> exact a.2.2 _ (by simp [tailKeys, Key.TxEntry, Key.isTxEntry, Key.isAccount])
  have w₁ : (storeBlock 0 m block c).write .pending (.block block) (some 10) = storeBlock 0 m block c :=
    write_eq_self (by rw [e _ (Or.inl rfl), a.1]; simp)
  have w₂ : (storeBlock 0 m block c).write (.block m.blockNumber) (.block block) (some 10) =
      storeBlock 0 m block c :=
    write_eq_self (by rw [e _ (Or.inr rfl), a.1]; simp)
  rw [storeBlock_eq (a.healthy h₂), w₁, w₂, storeBlock_eq hc, indexBlock_idempotent h₂ hm]

/-! ## An update delivered twice -/

section redelivery

variable (decode : Bytes → Option OpTransactionSigned)

/-- On a healthy cache, index `0` resets the tracker to `0`.
Source: `flashblocks.rs` 308–332
Kind: L -/
theorem updateFlashblocksIndex_zero {c : Cache} (hc : c.Healthy) :
    updateFlashblocksIndex 0 c = c.write .highestPayloadIndex (.u64 0) (some 10) := by
  simp [updateFlashblocksIndex, put_of_healthy hc]

/-- A later pass resolves the same base and writes nothing, once the cache holds the base entry
the first pass left.
Source: `flashblocks.rs` 186–201
Kind: L -/
theorem resolveBase_again {b : Option ExecutionPayloadBaseV1} {n : UInt64} {d d₂ : Cache}
    {base : ExecutionPayloadBaseV1} (hb : resolveBase b n d = some (base, d₂)) {e : Cache}
    (he : e.Healthy) (hent : e.entries (.base n) = d₂.entries (.base n)) (hnow : e.now = d₂.now) :
    resolveBase b n e = some (base, e) := by
  rcases resolveBase_cases hb with ⟨rfl, -, rfl⟩ | ⟨rfl, hget, rfl⟩
  · rw [resolveBase_some_of_healthy he, write_eq_self (by rw [hent, hnow]; simp)]
  · have : e.get (.base n) Value.base? = some base := by
      rw [get_eq, lookup_congr hnow hent, ← get_eq, hget]
    rw [resolveBase, this]
    rfl

/-- A later pass of what an index-0 update writes before its block (the tracker, the base, the
transaction list) writes nothing, once the cache holds the entries the first pass left there.
Source: `flashblocks.rs` 177–214
Kind: L -/
theorem prefix_again {b : Option ExecutionPayloadBaseV1} {n : UInt64} {d d₂ : Cache}
    {base : ExecutionPayloadBaseV1} (hb : resolveBase b n d = some (base, d₂)) (txs : List Bytes)
    {e : Cache} (he : e.Healthy) (hn : e.now = d₂.now)
    (hT : e.entries .highestPayloadIndex = some ⟨.u64 0, some (e.now + 10)⟩)
    (hB : e.entries (.base n) = d₂.entries (.base n))
    (hL : e.entries (.diffTransactions n) = some ⟨.bytesList txs, some (e.now + 10)⟩) :
    updateFlashblocksIndex 0 e = e ∧ resolveBase b n e = some (base, e) ∧
      getAndSetTransactions txs 0 n e = some (txs, e) :=
  ⟨by rw [updateFlashblocksIndex_zero he, write_eq_self hT], resolveBase_again hb he hB hn,
    by rw [getAndSetTransactions_zero he _ rfl, write_eq_self hL]⟩

/-- An index-0 update, delivered to a cache whose tracker it has already reset, leaves the cache
as one delivery does when delivered again.
Source: `flashblocks.rs` 149–306
Kind: L -/
theorem processPayload_idempotent_of_reset {u : FlashblocksPayloadV1} (hu : u.index = 0)
    (hua : u.AccountsOnly) {d : Cache} (hd : d.Healthy)
    (hT : d.entries .highestPayloadIndex = some ⟨.u64 0, some (d.now + 10)⟩) :
    processPayload decode u (processPayload decode u d) = processPayload decode u d := by
  cases hm : u.metadata with
  | none => simp [processPayload, hm]
  | some m =>
  have hg : ∀ e, lacksBase 0 m.blockNumber e = false := fun e => by simp [lacksBase]
  have hdd : updateFlashblocksIndex 0 d = d := by
    rw [updateFlashblocksIndex_zero hd, write_eq_self hT]
  by_cases hs : behindPending m.blockNumber d
  · have h₁ : processPayload decode u d = d := by simp [processPayload, hm, hu, hg, hdd, hs]
    rw [h₁, h₁]
  cases hb : resolveBase u.base m.blockNumber d with
  | none =>
    have h₁ : processPayload decode u d = d := by simp [processPayload, hm, hu, hg, hdd, hs, hb]
    rw [h₁, h₁]
  | some p =>
  obtain ⟨base, c₂⟩ := p
  have a₂ := resolveBase_agrees hb
  have h₂ := a₂.healthy hd
  have ht := getAndSetTransactions_zero h₂ u.diff.transactions (rfl : (0 : UInt64) = 0) m.blockNumber
  generalize hc₃ : c₂.write (.diffTransactions m.blockNumber) (.bytesList u.diff.transactions)
    (some 10) = c₃ at ht
  have h₃ : c₃.Healthy := hc₃ ▸ h₂.write _ _ _
  have now₃ : c₃.now = c₂.now := by rw [← hc₃, write_now]
  -- a second pass over a cache that holds `c₃`'s tracker, base and list writes nothing there
  have second : ∀ e : Cache, e.Healthy →
      (∀ k, k = .highestPayloadIndex ∨ k = .base m.blockNumber ∨
        k = .diffTransactions m.blockNumber → e.entries k = c₃.entries k) → e.now = c₃.now →
      updateFlashblocksIndex 0 e = e ∧ resolveBase u.base m.blockNumber e = some (base, e) ∧
      getAndSetTransactions u.diff.transactions 0 m.blockNumber e = some (u.diff.transactions, e) :=
    fun e he h hn => prefix_again hb _ he (hn.trans now₃)
      (by rw [h _ (Or.inl rfl), hn, now₃, a₂.1, ← hc₃, entries_write, if_neg (by simp),
        a₂.2.2 _ (by simp), hT])
      (by rw [h _ (Or.inr (Or.inl rfl)), ← hc₃, entries_write, if_neg (by simp)])
      (by rw [h _ (Or.inr (Or.inr rfl)), hn, now₃, ← hc₃]; simp)
  have hs₃ : behindPending m.blockNumber c₃ = false := by
    have : c₃.lookup .pending = d.lookup .pending := by
      rw [← hc₃, lookup_write _ _ _ _ (by decide), if_neg (by simp), a₂.lookup_eq (by simp)]
    simpa [behindPending, this] using hs
  cases hblock : (executionPayload base u.diff u.diff.transactions).tryIntoBlock decode with
  | error err =>
    have h₁ : processPayload decode u d = c₃ := by
      simp [processPayload, hm, hu, hg, hdd, hs, hb, ht, hblock]
    obtain ⟨u₃, r₃, t₃⟩ := second c₃ h₃ (fun _ _ => rfl) rfl
    rw [h₁]
    simp [processPayload, hm, hu, hg, u₃, hs₃, r₃, t₃, hblock]
  | ok block =>
    have h₁ : processPayload decode u d = storeBlock 0 m block c₃ := by
      simp [processPayload, hm, hu, hg, hdd, hs, hb, ht, hblock]
    rw [h₁]
    have a := storeBlock_of_healthy 0 (hua m hm) block h₃
    have h' := a.healthy ((h₃.write _ _ _).write _ _ _)
    have e' : ∀ k, k = .highestPayloadIndex ∨ k = .base m.blockNumber ∨
        k = .diffTransactions m.blockNumber → (storeBlock 0 m block c₃).entries k = c₃.entries k := by
      rintro k (rfl | rfl | rfl) <;>
        rw [a.2.2 _ (by simp [tailKeys, Key.TxEntry, Key.isTxEntry, Key.isAccount])] <;> simp
    obtain ⟨u', r', t'⟩ := second _ h' e' a.1
    by_cases hs' : behindPending m.blockNumber (storeBlock 0 m block c₃)
    · simp [processPayload, hm, hu, hg, u', hs']
    · simp [processPayload, hm, hu, hg, u', hs', r', t', hblock,
        storeBlock_idempotent h₃ (hua m hm)]

/-- **An index-0 update delivered twice.** On a cache where every write succeeds, delivering an
update at index `0` whose balance map names accounts a second time, right after the first,
leaves the cache exactly as one delivery does.
Source: `flashblocks.rs` 149–306
Kind: P -/
theorem processPayload_idempotent (u : FlashblocksPayloadV1) (hu : u.index = 0)
    (hua : u.AccountsOnly) {c : Cache} (hc : c.Healthy) :
    processPayload decode u (processPayload decode u c) = processPayload decode u c := by
  cases hm : u.metadata with
  | none => simp [processPayload, hm]
  | some m =>
  -- the first delivery runs as if the tracker had been reset before it
  have e : processPayload decode u (updateFlashblocksIndex 0 c) = processPayload decode u c := by
    simp [processPayload, hm, hu, lacksBase, updateFlashblocksIndex_zero hc,
      updateFlashblocksIndex_zero (hc.write _ _ _), write_write]
  rw [← e]
  exact processPayload_idempotent_of_reset decode hu hua ((updateFlashblocksIndex_agrees 0 c).healthy hc)
    (by rw [updateFlashblocksIndex_zero hc]; simp)

/-- Block `1`'s first update delivered twice to the empty cache.
Source: none: sample input
Kind: L -/
theorem processPayload_idempotent_sample :
    processPayload testDecode (payloadWithTransactions 0 1 [[1]])
        (processPayload testDecode (payloadWithTransactions 0 1 [[1]]) Cache.empty) =
      processPayload testDecode (payloadWithTransactions 0 1 [[1]]) Cache.empty :=
  processPayload_idempotent testDecode _ rfl (payloadWithTransactions_accountsOnly 0 1 [[1]])
    (fun _ => rfl)

/-- Block `1`'s second update (index `1`) delivered twice: its transaction is appended to
`"diff:transactions:1"` a second time.
Source: `flashblocks.rs` 334–362
Kind: L -/
theorem redelivery_appends :
    (run testDecode [payloadWithTransactions 0 1 [[1]], payloadWithTransactions 1 1 [[2]]]
      Cache.empty).get (.diffTransactions 1) Value.bytesList? = some [[1], [2]] ∧
    (run testDecode [payloadWithTransactions 0 1 [[1]], payloadWithTransactions 1 1 [[2]],
      payloadWithTransactions 1 1 [[2]]] Cache.empty).get (.diffTransactions 1) Value.bytesList? =
      some [[1], [2], [2]] := by
  decide

end redelivery

end FlashblocksRpc
