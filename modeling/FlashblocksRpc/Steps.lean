import FlashblocksRpc.Actor

/-!
# What each step of the actor writes

One frame lemma per function of `Actor.lean`: the keys outside which the function leaves the
cache as it found it, on the same clock and with the same failing writes. Invariants over runs
are then proved from these and from `processPayload_cases`, which lists every place
`process_payload` can return, without unfolding `processPayload` again.

* `storeBlockKeys m`: what `storeBlock` may write — `"pending"`, `"block:{n}"`, the
  per-transaction entries, `"tx_hashes:{n}"`, `"pending_receipts:{n}"` and the balance keys.
* `storeKeys m`: those, and `"base:{n}"` and `"diff:transactions:{n}"`: what is written after
  the tracker.
* **`processPayload_cases`**: an update leaves the cache untouched, or passes the first gate
  and ends after the tracker write, after resolving the base, after the cumulative list, or in
  `storeBlock` with the assembled block.
* **`run_blockEntries`**: the entries of block `n` (`Key.blockNumber?`) are changed by no update
  whose metadata names another block, so a run of such updates leaves them as it found them.
-/

namespace FlashblocksRpc

open Cache

/-! ## Key sets -/

/-- A per-transaction entry. Source: `flashblocks.rs` 378–448. Kind: D -/
def Key.TxEntry (k : Key) : Prop := k.isTxEntry = true

/-- The transaction a per-hash key names. Source: spec §6 (cache key namespace). Kind: D -/
def Key.hash? : Key → Option TxHash
  | .transaction h | .txIdx h | .txSender h | .txBlockNumber h | .receipt h | .receiptBlock h =>
    some h
  | _ => none

/-- The keys the loop's pass for transaction `h` may write: its per-hash entries and the send
counts.
Source: `flashblocks.rs` 378–448
Kind: D -/
def Key.TxEntryOf (h : TxHash) (k : Key) : Prop := k.hash? = some h ∨ ∃ a n, k = .txCount a n

/-- A key of one transaction's pass is a per-transaction entry.
Source: none: infrastructure
Kind: L -/
theorem Key.TxEntryOf.txEntry {h : TxHash} {k : Key} (hk : k.TxEntryOf h) : k.TxEntry := by
  rcases hk with hk | ⟨a, n, rfl⟩
  · cases k <;> first | rfl | cases hk
  · rfl

/-- A per-hash key of `h` is no key of another transaction's pass.
Source: none: infrastructure
Kind: L -/
theorem Key.not_txEntryOf {k : Key} {h h' : TxHash} (hk : k.hash? = some h) (hne : h' ≠ h) :
    ¬ k.TxEntryOf h' := by
  rintro (hk' | ⟨a, n, rfl⟩)
  · exact hne (Option.some_injective _ (hk'.symm.trans hk))
  · cases hk

/-- A balance key names no transaction. Source: none: infrastructure. Kind: L -/
theorem Key.hash?_eq_none_of_isAccount {k : Key} (hk : k.isAccount = true) : k.hash? = none := by
  cases k <;> first | rfl | cases hk

/-- The keys `storeBlock` may write for an update with metadata `m`.
Source: `flashblocks.rs` 248–293
Kind: D -/
def storeBlockKeys (m : Metadata) (k : Key) : Prop :=
  k = .pending ∨ k = .block m.blockNumber ∨ k.TxEntry ∨ k = .txHashes m.blockNumber ∨
    k = .pendingReceipts m.blockNumber ∨ k ∈ m.newAccountBalances.map Prod.fst

/-- The keys `processPayload` may write after the tracker, for an update with metadata `m`.
Source: `flashblocks.rs` 186–293
Kind: D -/
def storeKeys (m : Metadata) (k : Key) : Prop :=
  k = .base m.blockNumber ∨ k = .diffTransactions m.blockNumber ∨ storeBlockKeys m k

/-- Agreement keeps every write succeeding: the failing keys are shared.
Source: none: infrastructure
Kind: L -/
theorem Cache.Agrees.healthy {c c' : Cache} {S : Key → Prop} (h : c.Agrees c' S)
    (hc : c.Healthy) : c'.Healthy := fun k => h.2.1 ▸ hc k

/-! ## Frames of the helpers -/

/-- `updateFlashblocksIndex` writes only the tracker. Source: `flashblocks.rs` 308–332. Kind: L -/
theorem updateFlashblocksIndex_agrees (index : UInt64) (c : Cache) :
    c.Agrees (updateFlashblocksIndex index c) (· = .highestPayloadIndex) := by
  dsimp only [updateFlashblocksIndex]
  split_ifs
  · exact agrees_put c (by rfl) _ _
  · exact agrees_put c (by rfl) _ _
  · exact Agrees.refl c _

/-- `getAndSetCumulative` writes only its key. Source: `flashblocks.rs` 334–362, 457–488. Kind: L -/
theorem getAndSetCumulative_agrees {key : Key} {wrap : List α → Value}
    {unwrap : Value → Option (List α)} {items : List α} {i : UInt64} {c c' : Cache}
    {l : List α} (h : getAndSetCumulative key wrap unwrap items i c = some (l, c')) :
    c.Agrees c' (· = key) := by
  obtain ⟨l', -, h⟩ := Option.bind_eq_some.mp h
  obtain ⟨c'', hset, hc⟩ := Option.map_eq_some'.mp h
  cases hc
  exact agrees_set (by rfl) hset

/-- What `getAndSetCumulative` hands back: the items at index `0`, otherwise the cached list with
the items appended, in either case written back under the key.
Source: `flashblocks.rs` 334–362, 457–488
Kind: L -/
theorem getAndSetCumulative_cases {key : Key} {wrap : List α → Value}
    {unwrap : Value → Option (List α)} {items : List α} {i : UInt64} {c c' : Cache}
    {l : List α} (h : getAndSetCumulative key wrap unwrap items i c = some (l, c')) :
    (i = 0 ∧ l = items ∨ i ≠ 0 ∧ ∃ l₀, c.get key unwrap = some l₀ ∧ l = l₀ ++ items) ∧
    c.failing key = false ∧ c' = c.write key (wrap l) (some 10) := by
  obtain ⟨l', hl', h⟩ := Option.bind_eq_some.mp h
  obtain ⟨c'', hset, hc⟩ := Option.map_eq_some'.mp h
  simp only [Prod.mk.injEq] at hc
  obtain ⟨rfl, rfl⟩ := hc
  unfold Cache.set at hset
  split at hset
  · cases hset
  rename_i hf
  cases hset
  refine ⟨?_, Bool.eq_false_iff.mpr hf, rfl⟩
  by_cases hi : i = 0
  · simp only [hi, ↓reduceIte, Option.some.injEq] at hl'
    exact Or.inl ⟨hi, hl'.symm⟩
  · simp only [hi, ↓reduceIte] at hl'
    obtain ⟨l₀, h₀, rfl⟩ := Option.map_eq_some'.mp hl'
    exact Or.inr ⟨hi, l₀, h₀, rfl⟩

/-- `resolveBase` writes only the base of its block. Source: `flashblocks.rs` 186–201. Kind: L -/
theorem resolveBase_agrees {b : Option ExecutionPayloadBaseV1} {n : UInt64} {c c' : Cache}
    {base : ExecutionPayloadBaseV1} (h : resolveBase b n c = some (base, c')) :
    c.Agrees c' (· = .base n) := by
  unfold resolveBase at h
  split at h
  · obtain ⟨c'', hset, hc⟩ := Option.map_eq_some'.mp h
    cases hc
    exact agrees_set (by rfl) hset
  · obtain ⟨b', -, hc⟩ := Option.map_eq_some'.mp h
    cases hc
    exact Agrees.refl c _

/-- Where `resolveBase` succeeds: it was handed the base and wrote it, or it read the base already
cached and left the store alone.
Source: `flashblocks.rs` 186–201
Kind: L -/
theorem resolveBase_cases {b : Option ExecutionPayloadBaseV1} {n : UInt64} {c c' : Cache}
    {base : ExecutionPayloadBaseV1} (h : resolveBase b n c = some (base, c')) :
    b = some base ∧ c.failing (.base n) = false ∧ c' = c.write (.base n) (.base base) (some 10) ∨
    b = none ∧ c.get (.base n) Value.base? = some base ∧ c' = c := by
  unfold resolveBase at h
  split at h
  · unfold Cache.set at h
    split at h
    · cases h
    · rename_i hf
      simp only [Option.map_some', Option.some.injEq, Prod.mk.injEq] at h
      obtain ⟨rfl, rfl⟩ := h
      exact Or.inl ⟨rfl, by simpa using hf, rfl⟩
  · obtain ⟨b', hb', hc⟩ := Option.map_eq_some'.mp h
    cases hc
    exact Or.inr ⟨rfl, hb', rfl⟩

/-- The keys `recordSender` may write: the send counts, and the sender and block number of the
transaction.
Source: `flashblocks.rs` 398–425
Kind: D -/
def senderKeys (h : TxHash) (k : Key) : Prop :=
  (∃ a n, k = .txCount a n) ∨ k = .txSender h ∨ k = .txBlockNumber h

/-- `recordSender` writes only the send counts and the sender entries of its transaction.
Source: `flashblocks.rs` 398–425
Kind: L -/
theorem recordSender_agrees (n : UInt64) (tx : OpTransactionSigned) (c : Cache) :
    c.Agrees (recordSender n tx c) (senderKeys tx.hash) := by
  dsimp only [recordSender]
  split
  · exact Agrees.refl c _
  · exact ((agrees_put c (Or.inl ⟨_, _, rfl⟩) _ _).trans (agrees_put _ (Or.inr (Or.inl rfl)) _ _)).trans
      (agrees_put _ (Or.inr (Or.inr rfl)) _ _)

/-- `storeReceipt` writes only the receipt and the receipt block of its transaction.
Source: `flashblocks.rs` 428–447
Kind: L -/
theorem storeReceipt_agrees (n : UInt64) (m : Metadata) (h : TxHash) (st : TxLoop) :
    st.cache.Agrees (storeReceipt n m h st).cache (fun k => k = .receipt h ∨ k = .receiptBlock h) := by
  unfold storeReceipt
  split
  · exact Agrees.refl _ _
  · split
    · exact Agrees.refl _ _
    · rename_i hset
      split
      · exact agrees_set (Or.inl rfl) hset
      · rename_i hset'
        exact (agrees_set (Or.inl rfl) hset).trans (agrees_set (Or.inr rfl) hset')

/-- One pass of the loop writes only the keys of its transaction.
Source: `flashblocks.rs` 378–448
Kind: L -/
theorem txStep_agrees (n : UInt64) (m : Metadata) (st : TxLoop) (idx : Nat)
    (tx : OpTransactionSigned) :
    st.cache.Agrees (txStep n m st idx tx).cache (Key.TxEntryOf tx.hash) := by
  have hr : ∀ k : Key, (k = .receipt tx.hash ∨ k = .receiptBlock tx.hash) → k.TxEntryOf tx.hash := by
    rintro k (rfl | rfl) <;> exact Or.inl rfl
  have hs : ∀ k : Key, senderKeys tx.hash k → k.TxEntryOf tx.hash := by
    rintro k (⟨a, n, rfl⟩ | rfl | rfl)
    exacts [Or.inr ⟨a, n, rfl⟩, Or.inl rfl, Or.inl rfl]
  dsimp only [txStep]
  split
  · split
    · exact Agrees.refl _ _
    · rename_i hset
      split
      · exact agrees_set (by exact Or.inl rfl) hset
      · rename_i hset'
        exact ((agrees_set (by exact Or.inl rfl) hset).trans (agrees_set (by exact Or.inl rfl) hset')).trans
          (((recordSender_agrees n tx _).mono hs).trans ((storeReceipt_agrees n m tx.hash _).mono hr))
  · exact (storeReceipt_agrees n m tx.hash _).mono hr

/-- **One pass on a healthy cache**: the transaction, its position and its sender entries are
written only when no transaction is cached under its hash, after which one is; then its
receipt.
Source: `flashblocks.rs` 378–448
Kind: P -/
theorem txStep_of_healthy (n : UInt64) (m : Metadata) {st : TxLoop} (hc : st.cache.Healthy)
    (idx : Nat) (tx : OpTransactionSigned) :
    ∃ c', st.cache.Agrees c'
        (fun k => k = .transaction tx.hash ∨ k = .txIdx tx.hash ∨ senderKeys tx.hash k) ∧
      ((st.cache.get (.transaction tx.hash) Value.transaction?).isSome → c' = st.cache) ∧
      (c'.get (.transaction tx.hash) Value.transaction?).isSome ∧
      txStep n m st idx tx =
        storeReceipt n m tx.hash ⟨st.diffReceipts, pushIfAbsent st.txHashes tx.hash, c'⟩ := by
  dsimp only [txStep]
  simp only [set_of_healthy hc, set_of_healthy (hc.write _ _ _)]
  split
  · rename_i hnone
    refine ⟨_, ((agrees_write _ (Or.inl rfl) _ _).trans (agrees_write _ (Or.inr (Or.inl rfl)) _ _)).trans
      ((recordSender_agrees n tx _).mono fun _ h => Or.inr (Or.inr h)), fun hs => ?_, ?_, rfl⟩
    · rw [Option.isNone_iff_eq_none.mp hnone] at hs
      exact absurd hs Bool.false_ne_true
    · rw [get_eq, (recordSender_agrees n tx _).lookup_eq (k := .transaction tx.hash)
        (by simp [senderKeys])]
      simp [Value.transaction?]
  · rename_i hno
    exact ⟨st.cache, Agrees.refl _ _, fun _ => rfl,
      Option.isSome_iff_ne_none.mpr fun h => hno (by rw [h]; rfl), rfl⟩

/-- Another transaction's pass leaves the entries of `h` alone.
Source: `flashblocks.rs` 378–448
Kind: L -/
theorem txStep_entries_of_ne (n : UInt64) (m : Metadata) (st : TxLoop) (idx : Nat)
    {tx : OpTransactionSigned} (k : Key) {h : TxHash} (hk : k.hash? = some h) (hne : tx.hash ≠ h) :
    (txStep n m st idx tx).cache.entries k = st.cache.entries k :=
  (txStep_agrees n m st idx tx).2.2 k (Key.not_txEntryOf hk hne)

/-- The loop writes only per-transaction entries. Source: `flashblocks.rs` 378–448. Kind: L -/
theorem txLoop_agrees (n : UInt64) (m : Metadata) (idx : Nat) (txs : List OpTransactionSigned)
    (st : TxLoop) : st.cache.Agrees (txLoop n m idx txs st).cache Key.TxEntry := by
  induction txs generalizing idx st with
  | nil => exact Agrees.refl _ _
  | cons tx txs ih =>
    exact ((txStep_agrees n m st idx tx).mono fun _ => Key.TxEntryOf.txEntry).trans (ih _ _)

/-- `getAndSetTxsAndReceipts` writes only per-transaction entries and the block's hash list.
Source: `flashblocks.rs` 364–455
Kind: L -/
theorem getAndSetTxsAndReceipts_agrees (block : OpBlock) (n : UInt64) (c : Cache)
    (m : Metadata) : c.Agrees (getAndSetTxsAndReceipts block n c m).2
      (fun k => k.TxEntry ∨ k = .txHashes n) :=
  ((txLoop_agrees n m 0 _ _).mono fun _ => Or.inl).trans (agrees_put _ (Or.inr rfl) _ _)

/-- Storing the balances writes only the keys of the balance map.
Source: `flashblocks.rs` 288–293
Kind: L -/
theorem storeBalances_agrees (l : List (Key × String)) (c : Cache) :
    c.Agrees (storeBalances l c) (· ∈ l.map Prod.fst) := by
  induction l generalizing c with
  | nil => exact Agrees.refl c _
  | cons p l ih =>
    obtain ⟨k, v⟩ := p
    exact (agrees_put c (List.mem_cons_self k _) _ _).trans
      ((ih _).mono fun _ hk => List.mem_cons_of_mem k hk)

/-! ## Balances -/

/-- After the balances are stored, a key reads as before or reads a balance string.
Source: `flashblocks.rs` 288–293
Kind: L -/
theorem storeBalances_lookup (l : List (Key × String)) (c : Cache) (k : Key) :
    (storeBalances l c).lookup k = c.lookup k ∨
      ∃ s, (storeBalances l c).lookup k = some (.string s) := by
  induction l generalizing c with
  | nil => exact Or.inl rfl
  | cons p l ih =>
    obtain ⟨k', v⟩ := p
    rcases ih (c.put k' (.string v) (some 10)) with h | h
    · rw [storeBalances, h]
      unfold Cache.put Cache.set
      split
      · exact Or.inl rfl
      · simp only [Option.getD_some, lookup_write _ _ _ _ (show 0 < 10 by decide)]
        split
        · exact Or.inr ⟨v, rfl⟩
        · exact Or.inl rfl
    · exact Or.inr h

/-! ## Storing the block -/

/-- The keys `indexBlock` writes, balances apart. Source: `flashblocks.rs` 262–293. Kind: D -/
def tailKeys (m : Metadata) (k : Key) : Prop :=
  k.TxEntry ∨ k = .txHashes m.blockNumber ∨ k = .pendingReceipts m.blockNumber

/-- **Where `indexBlock` can return**: after the transaction loop, with or without the receipts
list and the balances.
Source: `flashblocks.rs` 262–293
Kind: P -/
theorem indexBlock_cases (i : UInt64) (m : Metadata) (block : OpBlock) (c : Cache) :
    ∃ c', c.Agrees c' (tailKeys m) ∧
      (indexBlock i m block c = c' ∨ indexBlock i m block c = storeBalances m.newAccountBalances c') := by
  have a := (getAndSetTxsAndReceipts_agrees block m.blockNumber c m).mono (T := tailKeys m)
    fun k hk => hk.elim Or.inl (fun h => Or.inr (Or.inl h))
  dsimp only [indexBlock]
  split
  · exact ⟨_, a, Or.inl rfl⟩
  · rename_i h
    exact ⟨_, a.trans ((getAndSetCumulative_agrees h).mono fun k hk => Or.inr (Or.inr hk)),
      Or.inr rfl⟩

/-- `indexBlock` writes only the keys it indexes and the keys of the balance map.
Source: `flashblocks.rs` 262–293
Kind: L -/
theorem indexBlock_agrees (i : UInt64) (m : Metadata) (block : OpBlock) (c : Cache) :
    c.Agrees (indexBlock i m block c) (fun k => tailKeys m k ∨ k ∈ m.newAccountBalances.map Prod.fst) := by
  obtain ⟨c', a, h | h⟩ := indexBlock_cases i m block c <;> rw [h]
  · exact a.mono fun _ => Or.inl
  · exact (a.mono fun _ => Or.inl).trans ((storeBalances_agrees _ _).mono fun _ => Or.inr)

/-- `storeBlock` writes only `storeBlockKeys`. Source: `flashblocks.rs` 248–293. Kind: L -/
theorem storeBlock_agrees (i : UInt64) (m : Metadata) (block : OpBlock) (c : Cache) :
    c.Agrees (storeBlock i m block c) (storeBlockKeys m) := by
  dsimp only [storeBlock]
  split
  · exact Agrees.refl c _
  · rename_i c₁ h₁
    have a₁ : c.Agrees c₁ (storeBlockKeys m) := agrees_set (Or.inl rfl) h₁
    split
    · exact a₁
    · rename_i c₂ h₂
      exact (a₁.trans (agrees_set (Or.inr (Or.inl rfl)) h₂)).trans
        ((indexBlock_agrees i m block c₂).mono fun k hk => hk.elim
          (fun h => Or.inr (Or.inr (h.imp_right fun h => h.imp_right Or.inl)))
          fun h => Or.inr (Or.inr (Or.inr (Or.inr (Or.inr h)))))

/-- **Where `storeBlock` can return**: before any write (the write of `"pending"` fails), right
after `"pending"` (the write of `"block:{n}"` fails), or after both and then `indexBlock`.
Source: `flashblocks.rs` 248–293
Kind: P -/
theorem storeBlock_cases (i : UInt64) (m : Metadata) (block : OpBlock) (c : Cache) :
    c.failing .pending = true ∧ storeBlock i m block c = c ∨
    c.failing .pending = false ∧ c.failing (.block m.blockNumber) = true ∧
      storeBlock i m block c = c.write .pending (.block block) (some 10) ∨
    c.failing .pending = false ∧ c.failing (.block m.blockNumber) = false ∧ ∃ c',
      ((c.write .pending (.block block) (some 10)).write (.block m.blockNumber) (.block block)
        (some 10)).Agrees c' (tailKeys m) ∧
      (storeBlock i m block c = c' ∨
        storeBlock i m block c = storeBalances m.newAccountBalances c') := by
  dsimp only [storeBlock, Cache.set]
  by_cases h₁ : c.failing .pending
  · simp [h₁]
  by_cases h₂ : c.failing (.block m.blockNumber)
  · simp [h₁, h₂]
  refine Or.inr (Or.inr ⟨Bool.eq_false_iff.mpr h₁, Bool.eq_false_iff.mpr h₂, ?_⟩)
  simp only [h₁, h₂, Bool.false_eq_true, ↓reduceIte, write_failing]
  exact indexBlock_cases i m block _

/-- `storeBlock` leaves a key it does not write for itself reading as before, or reading a
balance string.
Source: `flashblocks.rs` 248–293
Kind: L -/
theorem storeBlock_lookup (i : UInt64) (m : Metadata) (block : OpBlock) (c : Cache) {k : Key}
    (hp : k ≠ .pending) (hb : k ≠ .block m.blockNumber) (ht : ¬ tailKeys m k) :
    (storeBlock i m block c).lookup k = c.lookup k ∨
      ∃ s, (storeBlock i m block c).lookup k = some (.string s) := by
  rcases storeBlock_cases i m block c with ⟨-, h⟩ | ⟨-, -, h⟩ | ⟨-, -, c', hc', h | h⟩
  · exact Or.inl (by rw [h])
  · exact Or.inl (by rw [h]; simp [hp])
  · exact Or.inl (by rw [h, hc'.lookup_eq ht]; simp [hp, hb])
  · rw [h]
    rcases storeBalances_lookup m.newAccountBalances c' k with h' | h'
    · exact Or.inl (by rw [h', hc'.lookup_eq ht]; simp [hp, hb])
    · exact Or.inr h'

/-! ## Every way `processPayload` ends -/

variable (decode : Bytes → Option OpTransactionSigned)

/-- **Every place `processPayload` can return**: untouched, or past the first gate and then
right after the tracker write (stale, or no base), after the base (no cumulative list), after
the cumulative list (assembly fails), or in `storeBlock`.
Source: `flashblocks.rs` 149–306
Kind: P -/
theorem processPayload_cases (u : FlashblocksPayloadV1) (c : Cache) :
    (∀ m, u.metadata = some m → lacksBase u.index m.blockNumber c = true) ∧
      processPayload decode u c = c ∨
    ∃ m, u.metadata = some m ∧ lacksBase u.index m.blockNumber c = false ∧
      (processPayload decode u c = updateFlashblocksIndex u.index c ∨
       behindPending m.blockNumber (updateFlashblocksIndex u.index c) = false ∧
       ∃ base c₂, resolveBase u.base m.blockNumber (updateFlashblocksIndex u.index c) =
          some (base, c₂) ∧
        (processPayload decode u c = c₂ ∨
         ∃ txs c₃, getAndSetTransactions u.diff.transactions u.index m.blockNumber c₂ =
            some (txs, c₃) ∧
          (processPayload decode u c = c₃ ∨
           ∃ block, (executionPayload base u.diff txs).tryIntoBlock decode = .ok block ∧
             processPayload decode u c = storeBlock u.index m block c₃))) := by
  unfold processPayload
  rcases hm : u.metadata with _ | m
  · exact Or.inl ⟨(fun _ h => nomatch h), rfl⟩
  dsimp only
  split_ifs with hg hs
  · exact Or.inl ⟨fun _ h => by cases h; exact hg, rfl⟩
  · exact Or.inr ⟨m, rfl, by simpa using hg, Or.inl rfl⟩
  rcases hb : resolveBase u.base m.blockNumber (updateFlashblocksIndex u.index c) with
    _ | ⟨base, c₂⟩
  · exact Or.inr ⟨m, rfl, by simpa using hg, Or.inl rfl⟩
  refine Or.inr ⟨m, rfl, by simpa using hg, Or.inr ⟨by simpa using hs, base, c₂, hb, ?_⟩⟩
  dsimp only
  rcases ht : getAndSetTransactions u.diff.transactions u.index m.blockNumber c₂ with _ | ⟨txs, c₃⟩
  · exact Or.inl rfl
  refine Or.inr ⟨txs, c₃, rfl, ?_⟩
  dsimp only
  rcases hblock : (executionPayload base u.diff txs).tryIntoBlock decode with _ | block
  · exact Or.inl rfl
  · exact Or.inr ⟨block, rfl, rfl⟩

/-- Past the base gate, everything `processPayload` writes after the tracker is in
`storeKeys m`.
Source: `flashblocks.rs` 149–306
Kind: L -/
theorem processPayload_agrees_of_passes {u : FlashblocksPayloadV1} {m : Metadata}
    (hm : u.metadata = some m) {c : Cache} (hg : lacksBase u.index m.blockNumber c = false) :
    (updateFlashblocksIndex u.index c).Agrees (processPayload decode u c) (storeKeys m) := by
  rcases processPayload_cases decode u c with ⟨hg', -⟩ | ⟨m', hm', -, h⟩
  · simp [hg' m hm] at hg
  rw [hm] at hm'; cases hm'
  rcases h with h | ⟨-, base, c₂, hb, h | ⟨txs, c₃, ht, h | ⟨block, -, h⟩⟩⟩ <;> rw [h]
  · exact Agrees.refl _ _
  · exact agrees_of_resolveBase hb
  · exact (agrees_of_resolveBase hb).trans ((getAndSetCumulative_agrees ht).mono
      fun k hk => Or.inr (Or.inl hk))
  · exact ((agrees_of_resolveBase hb).trans ((getAndSetCumulative_agrees ht).mono
      fun k hk => Or.inr (Or.inl hk))).trans ((storeBlock_agrees _ _ _ _).mono
      fun k hk => Or.inr (Or.inr hk))
where
  agrees_of_resolveBase {c c₂ : Cache} {base : ExecutionPayloadBaseV1}
      (hb : resolveBase u.base m.blockNumber c = some (base, c₂)) : c.Agrees c₂ (storeKeys m) :=
    (resolveBase_agrees hb).mono fun _ hk => Or.inl hk

/-- Under the balance map's schema, the tracker is not among the keys written after it.
Source: none: infrastructure
Kind: L -/
theorem highestPayloadIndex_not_storeKeys {m : Metadata} (hm : m.AccountsOnly) :
    ¬ storeKeys m .highestPayloadIndex := by
  simp only [storeKeys, storeBlockKeys, Key.TxEntry, Key.isTxEntry, List.mem_map]
  rintro (h | h | h | h | h | h | h | ⟨p, hp, hk⟩) <;> try cases h
  simpa [hk, Key.isAccount] using hm p hp

/-! ## The entries of another block -/

/-- The block number of a per-block entry: `"base:{n}"`, `"diff:transactions:{n}"`,
`"block:{n}"`, `"tx_hashes:{n}"` and `"pending_receipts:{n}"`.
Source: spec §6 (cache key namespace)
Kind: D -/
def Key.blockNumber? : Key → Option UInt64
  | .base n | .diffTransactions n | .block n | .txHashes n | .pendingReceipts n => some n
  | _ => none

/-- Under the balance map's schema, the entries of another block are not among the keys written
after the tracker.
Source: none: infrastructure
Kind: L -/
theorem not_storeKeys_of_blockNumber? {m : Metadata} (hm : m.AccountsOnly) {k : Key} {n : UInt64}
    (hk : k.blockNumber? = some n) (hne : m.blockNumber ≠ n) : ¬ storeKeys m k := by
  have hacc : k ∉ m.newAccountBalances.map Prod.fst := fun hmem => by
    obtain ⟨p, hp, rfl⟩ := List.mem_map.mp hmem
    have := hm p hp
    cases hp' : p.1 <;> simp [hp', Key.isAccount, Key.blockNumber?] at this hk
  cases k <;> simp only [Key.blockNumber?, Option.some.injEq, reduceCtorEq] at hk <;> subst hk <;>
    simp [storeKeys, storeBlockKeys, Key.TxEntry, Key.isTxEntry, hne, Ne.symm hne, hacc]

/-- An update whose metadata names another block leaves the entries of block `n` alone.
Source: `flashblocks.rs` 149–306
Kind: L -/
theorem processPayload_lookup_of_blockNumber? (u : FlashblocksPayloadV1) (hu : u.AccountsOnly)
    {n : UInt64} (hn : u.metadata.map (·.blockNumber) ≠ some n) (c : Cache) {k : Key}
    (hk : k.blockNumber? = some n) : (processPayload decode u c).lookup k = c.lookup k := by
  rcases processPayload_cases decode u c with ⟨-, h⟩ | ⟨m, hm, hg, -⟩
  · rw [h]
  have hne : m.blockNumber ≠ n := fun h => hn (by rw [hm, Option.map_some', h])
  rw [(processPayload_agrees_of_passes decode hm hg).lookup_eq
      (not_storeKeys_of_blockNumber? (hu m hm) hk hne),
    (updateFlashblocksIndex_agrees u.index c).lookup_eq (by rintro rfl; cases hk)]

/-- **A run touches a block's entries only through updates naming it**: along any run whose
balance maps name accounts, updates whose metadata names no block `n` never change the base, the
cumulative diff, the block, the hash list or the receipts list cached for `n`, whatever they do
to the tracker and to `"pending"`.
Source: `flashblocks.rs` 149–306, 334–362, 364–455 and 457–488
Kind: P -/
theorem run_blockEntries (us : List FlashblocksPayloadV1) {n : UInt64}
    (hus : ∀ u ∈ us, u.AccountsOnly ∧ u.metadata.map (·.blockNumber) ≠ some n) (c : Cache)
    {k : Key} (hk : k.blockNumber? = some n) : (run decode us c).lookup k = c.lookup k := by
  induction us generalizing c with
  | nil => rfl
  | cons u us ih =>
    obtain ⟨hu, hn⟩ := hus u (List.mem_cons_self u us)
    rw [run_cons, ih (fun v hv => hus v (List.mem_cons_of_mem u hv)),
      processPayload_lookup_of_blockNumber? decode u hu hn c hk]

/-- One update for block `2`, from the empty cache: the entries of block `1` stay absent.
Source: none: sample input
Kind: L -/
theorem run_blockEntries_other :
    (∀ u ∈ [(⟨0, none, ⟨0, 0, 0, 0, 0, [], []⟩, some ⟨[], [], 2⟩⟩ : FlashblocksPayloadV1)],
      u.AccountsOnly ∧ u.metadata.map (·.blockNumber) ≠ some 1) ∧
    (Key.block 1).blockNumber? = some 1 ∧
    (run (fun _ => none) [⟨0, none, ⟨0, 0, 0, 0, 0, [], []⟩, some ⟨[], [], 2⟩⟩] Cache.empty).lookup
      (.block 1) = Cache.empty.lookup (.block 1) :=
  have hus : ∀ u ∈ [(⟨0, none, ⟨0, 0, 0, 0, 0, [], []⟩, some ⟨[], [], 2⟩⟩ : FlashblocksPayloadV1)],
      u.AccountsOnly ∧ u.metadata.map (·.blockNumber) ≠ some 1 := by
    simp [FlashblocksPayloadV1.AccountsOnly, Metadata.AccountsOnly]
  ⟨hus, rfl, run_blockEntries (fun _ => none) _ hus Cache.empty rfl⟩

end FlashblocksRpc
