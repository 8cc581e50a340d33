import FlashblocksRpc.HashList
import FlashblocksRpc.Receipts

/-!
# Where the index says a transaction was seen

`get_and_set_txs_and_receipts` (`flashblocks.rs` 364–455) indexes a transaction only when no
transaction is cached under its hash (`existing_tx.is_none()`): the raw transaction, its
position in the block, and, when its signer is recovered, the signer and the block number. It
stores a receipt whenever the update's metadata carries one for a transaction of the block, with
the block number. Along a run from the empty cache, the clock standing still, a hash's entries are
therefore those of its first sighting and of its last sighting with a receipt:

* `firstSighting h blocks`: the block number, position and transaction of the first occurrence
  of hash `h` in the first of `blocks` that holds it. `Cache.txRecord` reads `"{h}"`,
  `"tx_idx:{h}"`, `"tx_sender:{h}"` and `"tx_block_number:{h}"` together, and `sightingRecord`
  is what they hold after a sighting (nothing before any).
* `lastReceipt h blocks`: the receipt for `h` in the metadata of the last of `blocks` that holds
  `h` and carries one, with that block number. `Cache.receiptRecord` reads `"receipt:{h}"` and
  `"receipt_block:{h}"`.
* One pass of the loop (`txStep_txRecord`, `txStep_receiptRecord`), the loop (`txLoop_txRecord`,
  `txLoop_receiptRecord`), then a stored block, an update and a run.
* **`hashEntries_run`**: along any run from the empty cache whose balance maps name accounts, a
  hash's transaction entries are those of its first sighting among the assembled blocks, never
  rewritten by a later block, and its receipt entries those of its last sighting with a receipt.
* **`blockByNumber_run`**: on such a run, `"pending"` is the last block assembled, and
  `block_by_number(pending, true)` returns exactly when every transaction of it has a signer and
  every deposit of it a receipt from some assembled update's metadata.
-/

namespace FlashblocksRpc

open Cache

/-! ## First and last sightings -/

/-- The first position, counted from `idx`, of a transaction of hash `h` in `txs`, with the
transaction there.
Source: `flashblocks.rs` 378–397
Kind: D -/
def firstIn (h : TxHash) : Nat → List OpTransactionSigned → Option (Nat × OpTransactionSigned)
  | _, [] => none
  | idx, tx :: txs => if tx.hash = h then some (idx, tx) else firstIn h (idx + 1) txs

/-- Where hash `h` is first seen among `blocks`: the block number of the update that assembled
the block, the position in the block, and the transaction.
Source: `flashblocks.rs` 386–425
Kind: D -/
def firstSighting (h : TxHash) :
    List (Metadata × OpBlock) → Option (UInt64 × Nat × OpTransactionSigned)
  | [] => none
  | (m, block) :: rest =>
    ((firstIn h 0 block.body.transactions).map (m.blockNumber, ·)).or (firstSighting h rest)

/-- One more block: the earlier sighting if there is one, else the first in the new block.
Source: none: infrastructure
Kind: L -/
theorem firstSighting_append (h : TxHash) (blocks : List (Metadata × OpBlock)) (m : Metadata)
    (block : OpBlock) : firstSighting h (blocks ++ [(m, block)]) =
      (firstSighting h blocks).or ((firstIn h 0 block.body.transactions).map (m.blockNumber, ·)) := by
  induction blocks with
  | nil => simp [firstSighting, Option.or_none]
  | cons b blocks ih =>
    obtain ⟨m', b'⟩ := b
    rw [List.cons_append, firstSighting, firstSighting, ih, Option.or_assoc]

/-- The receipt the metadata `m` carries for `h`, with `m`'s block number, if `block` holds `h`.
Source: `flashblocks.rs` 428–447
Kind: D -/
def receiptIn (h : TxHash) (m : Metadata) (block : OpBlock) : Option (OpReceipt × UInt64) :=
  if h ∈ block.body.transactions.map (·.hash) then (m.receipts.lookup h).map (·, m.blockNumber)
  else none

/-- The last receipt for `h` among `blocks`, with its block number.
Source: `flashblocks.rs` 428–447
Kind: D -/
def lastReceipt (h : TxHash) : List (Metadata × OpBlock) → Option (OpReceipt × UInt64)
  | [] => none
  | (m, block) :: rest => (lastReceipt h rest).or (receiptIn h m block)

/-- One more block: its receipt for `h` if it has one, else the earlier one.
Source: none: infrastructure
Kind: L -/
theorem lastReceipt_append (h : TxHash) (blocks : List (Metadata × OpBlock)) (m : Metadata)
    (block : OpBlock) :
    lastReceipt h (blocks ++ [(m, block)]) = (receiptIn h m block).or (lastReceipt h blocks) := by
  induction blocks with
  | nil => simp [lastReceipt, Option.or_none]
  | cons b blocks ih =>
    obtain ⟨m', b'⟩ := b
    rw [List.cons_append, lastReceipt, lastReceipt, ih, Option.or_assoc]

/-! ## The entries of a hash -/

/-- The entries the loop writes for a transaction it sees first: the raw transaction, its
position, its sender and its block number.
Source: `flashblocks.rs` 386–425
Kind: D -/
def Cache.txRecord (c : Cache) (h : TxHash) :
    Option OpTransactionSigned × Option UInt64 × Option Address × Option UInt64 :=
  (c.get (.transaction h) Value.transaction?, c.get (.txIdx h) Value.u64?,
    c.get (.txSender h) Value.address?, c.get (.txBlockNumber h) Value.u64?)

/-- What those entries hold after a sighting in block `n` at position `idx`, and before any.
Source: `flashblocks.rs` 386–425
Kind: D -/
def sightingRecord : Option (UInt64 × Nat × OpTransactionSigned) →
    Option OpTransactionSigned × Option UInt64 × Option Address × Option UInt64
  | none => (none, none, none, none)
  | some (n, idx, tx) => (some tx, some (UInt64.ofNat idx), tx.signer, tx.signer.map fun _ => n)

/-- The receipt entries of a hash: the receipt and its block number.
Source: `flashblocks.rs` 428–447
Kind: D -/
def Cache.receiptRecord (c : Cache) (h : TxHash) : Option OpReceipt × Option UInt64 :=
  (c.get (.receipt h) Value.receipt?, c.get (.receiptBlock h) Value.u64?)

/-- What those entries hold after a receipt `r` stored for block `n`, and before any.
Source: `flashblocks.rs` 428–447
Kind: D -/
def receiptEntries (o : Option (OpReceipt × UInt64)) : Option OpReceipt × Option UInt64 :=
  (o.map (·.1), o.map (·.2))

/-- The entries of `h` depend only on the keys of `h` other than its receipt entries.
Source: none: infrastructure
Kind: L -/
theorem Cache.txRecord_congr {c c' : Cache} {h : TxHash}
    (e : ∀ k, k.hash? = some h → k ≠ .receipt h → k ≠ .receiptBlock h → c'.lookup k = c.lookup k) :
    c'.txRecord h = c.txRecord h := by
  simp only [txRecord, get_eq, e (.transaction h) rfl (by simp) (by simp), e (.txIdx h) rfl
    (by simp) (by simp), e (.txSender h) rfl (by simp) (by simp),
    e (.txBlockNumber h) rfl (by simp) (by simp)]

/-- The receipt entries of `h` depend only on those two keys.
Source: none: infrastructure
Kind: L -/
theorem Cache.receiptRecord_congr {c c' : Cache} {h : TxHash}
    (e₁ : c'.lookup (.receipt h) = c.lookup (.receipt h))
    (e₂ : c'.lookup (.receiptBlock h) = c.lookup (.receiptBlock h)) :
    c'.receiptRecord h = c.receiptRecord h := by
  simp only [receiptRecord, get_eq, e₁, e₂]

/-! ## One pass and the loop -/

/-- The entries a pass writes for a transaction of a hash it sees first.
Source: `flashblocks.rs` 386–425
Kind: L -/
theorem txStep_txRecord_first (n : UInt64) (m : Metadata) {st : TxLoop} (hc : st.cache.Healthy)
    (idx : Nat) (tx : OpTransactionSigned) (hr : st.cache.txRecord tx.hash = sightingRecord none) :
    (txStep n m st idx tx).cache.txRecord tx.hash = sightingRecord (some (n, idx, tx)) := by
  have hnone : st.cache.get (.transaction tx.hash) Value.transaction? = none := congrArg (·.1) hr
  dsimp only [txStep]
  simp only [hnone, Option.isNone_none, if_true, set_of_healthy hc, set_of_healthy (hc.write _ _ _)]
  rw [txRecord_congr fun k _ h₁ h₂ => (storeReceipt_agrees n m tx.hash _).lookup_eq
    fun h => h.elim h₁ h₂]
  have hw : ((st.cache.write (.transaction tx.hash) (.transaction tx) (some 10)).write
      (.txIdx tx.hash) (.u64 (UInt64.ofNat idx)) (some 10)).Healthy := (hc.write _ _ _).write _ _ _
  unfold recordSender
  cases hs : tx.signer with
  | none =>
    have h₃ : st.cache.get (.txSender tx.hash) Value.address? = none := congrArg (·.2.2.1) hr
    have h₄ : st.cache.get (.txBlockNumber tx.hash) Value.u64? = none := congrArg (·.2.2.2) hr
    simp only [get_eq] at h₃ h₄
    simp [txRecord, sightingRecord, hs, h₃, h₄]
  | some a =>
    simp [txRecord, sightingRecord, hs, put_of_healthy hw, put_of_healthy (hw.write _ _ _),
      put_of_healthy ((hw.write _ _ _).write _ _ _), Value.transaction?, Value.u64?, Value.address?]

/-- **One pass on the entries of a hash**: a pass over a transaction of another hash, or of a
hash whose transaction is cached, leaves them; a pass over the first of its hash writes the
sighting.
Source: `flashblocks.rs` 378–448
Kind: P -/
theorem txStep_txRecord (n : UInt64) (m : Metadata) {st : TxLoop} (hc : st.cache.Healthy)
    (idx : Nat) (tx : OpTransactionSigned) {h : TxHash} {s : Option (UInt64 × Nat × OpTransactionSigned)}
    (hr : st.cache.txRecord h = sightingRecord s) :
    (txStep n m st idx tx).cache.txRecord h =
      sightingRecord (s.or (if tx.hash = h then some (n, idx, tx) else none)) := by
  by_cases hh : tx.hash = h
  · subst hh
    cases s with
    | none => simpa using txStep_txRecord_first n m hc idx tx hr
    | some x =>
      obtain ⟨c', -, hcached, -, e⟩ := txStep_of_healthy n m hc idx tx
      have hsome : (st.cache.get (.transaction tx.hash) Value.transaction?).isSome := by
        rw [show st.cache.get (.transaction tx.hash) Value.transaction? = _ from congrArg (·.1) hr]
        rfl
      rw [e, hcached hsome, txRecord_congr fun k _ h₁ h₂ =>
        (storeReceipt_agrees n m tx.hash _).lookup_eq fun h => h.elim h₁ h₂]
      simpa using hr
  · rw [if_neg hh, Option.or_none, ← hr]
    exact txRecord_congr fun k hk _ _ =>
      (txStep_agrees n m st idx tx).lookup_eq (Key.not_txEntryOf hk hh)

/-- The loop adds to the entries of `h` its first sighting in the block, unless there was one
before.
Source: `flashblocks.rs` 378–448
Kind: L -/
theorem txLoop_txRecord (n : UInt64) (m : Metadata) (idx : Nat) (txs : List OpTransactionSigned)
    (st : TxLoop) (hc : st.cache.Healthy) {h : TxHash}
    {s : Option (UInt64 × Nat × OpTransactionSigned)} (hr : st.cache.txRecord h = sightingRecord s) :
    (txLoop n m idx txs st).cache.txRecord h = sightingRecord (s.or ((firstIn h idx txs).map (n, ·))) := by
  induction txs generalizing idx st s with
  | nil => simpa [firstIn, Option.or_none] using hr
  | cons tx txs ih =>
    rw [txLoop, ih _ _ ((txStep_agrees n m st idx tx).healthy hc)
      (txStep_txRecord n m hc idx tx hr), Option.or_assoc, firstIn]
    by_cases hh : tx.hash = h <;> simp [hh]

/-- **One pass on the receipt entries of a hash**: a pass over a transaction of the hash whose
receipt the metadata carries writes it with the block number; any other leaves them.
Source: `flashblocks.rs` 428–447
Kind: P -/
theorem txStep_receiptRecord (n : UInt64) (m : Metadata) {st : TxLoop} (hc : st.cache.Healthy)
    (idx : Nat) (tx : OpTransactionSigned) (h : TxHash) :
    (txStep n m st idx tx).cache.receiptRecord h =
      if tx.hash = h then
        match m.receipts.lookup h with
        | some r => (some r, some n)
        | none => st.cache.receiptRecord h
      else st.cache.receiptRecord h := by
  obtain ⟨c', a, -, -, e⟩ := txStep_of_healthy n m hc idx tx
  split_ifs with hh
  · subst hh
    rw [e, storeReceipt_of_healthy n m tx.hash (a.healthy hc)]
    have hkeep : c'.receiptRecord tx.hash = st.cache.receiptRecord tx.hash :=
      receiptRecord_congr (a.lookup_eq (by simp [senderKeys])) (a.lookup_eq (by simp [senderKeys]))
    cases m.receipts.lookup tx.hash with
    | none => exact hkeep
    | some r => simp [receiptRecord, Value.receipt?, Value.u64?]
  · exact receiptRecord_congr ((txStep_agrees n m st idx tx).lookup_eq (Key.not_txEntryOf rfl hh))
      ((txStep_agrees n m st idx tx).lookup_eq (Key.not_txEntryOf rfl hh))

/-- The loop replaces the receipt entries of `h` with the metadata's receipt if the block holds `h`.
Source: `flashblocks.rs` 378–448
Kind: L -/
theorem txLoop_receiptRecord (n : UInt64) (m : Metadata) (idx : Nat) (txs : List OpTransactionSigned)
    (st : TxLoop) (hc : st.cache.Healthy) {h : TxHash} {o : Option (OpReceipt × UInt64)}
    (hr : st.cache.receiptRecord h = receiptEntries o) :
    (txLoop n m idx txs st).cache.receiptRecord h = receiptEntries
      ((if h ∈ txs.map (·.hash) then (m.receipts.lookup h).map (·, n) else none).or o) := by
  induction txs generalizing idx st o with
  | nil => simpa using hr
  | cons tx txs ih =>
    have step : (txStep n m st idx tx).cache.receiptRecord h = receiptEntries
        ((if tx.hash = h then (m.receipts.lookup h).map (·, n) else none).or o) := by
      rw [txStep_receiptRecord n m hc idx tx h]
      split_ifs
      · cases m.receipts.lookup h <;> simp [receiptEntries, hr]
      · simpa using hr
    rw [txLoop, ih _ _ ((txStep_agrees n m st idx tx).healthy hc) step, ← Option.or_assoc]
    by_cases hh : tx.hash = h
    · by_cases ht : h ∈ txs.map (·.hash) <;> simp [hh, ht, Option.or_self]
    · simp [hh, List.mem_cons, Ne.symm hh]

/-! ## A stored block, an update, a run -/

/-- The entries of every hash after the blocks `blocks` were assembled.
Source: `flashblocks.rs` 378–448
Kind: D -/
def IndexedAs (blocks : List (Metadata × OpBlock)) (c : Cache) : Prop :=
  ∀ h, c.txRecord h = sightingRecord (firstSighting h blocks) ∧
    c.receiptRecord h = receiptEntries (lastReceipt h blocks)

/-- The empty cache holds the entries of no block. Source: none: infrastructure. Kind: L -/
theorem indexedAs_empty : IndexedAs [] Cache.empty := fun _ =>
  ⟨by simp [txRecord, sightingRecord, firstSighting],
    by simp [receiptRecord, receiptEntries, lastReceipt]⟩

/-- Storing an assembled block appends it to the sightings.
Source: `flashblocks.rs` 248–293
Kind: L -/
theorem indexedAs_storeBlock {blocks : List (Metadata × OpBlock)} {c c' : Cache} (hc : c'.Healthy)
    (hi : IndexedAs blocks c) (a : c.Agrees c' (·.isEarly)) (i : UInt64) {m : Metadata}
    (hm : m.AccountsOnly) (block : OpBlock) :
    IndexedAs (blocks ++ [(m, block)]) (storeBlock i m block c') := by
  intro h
  -- the loop starts from the entries of `c`: only early keys, `"pending"` and `"block:{n}"` differ
  have e : ∀ k, k.hash? = some h → (blockWritten m block c').lookup k = c.lookup k := fun k hk => by
    have hp : k ≠ .pending := by rintro rfl; cases hk
    have hb : k ≠ .block m.blockNumber := by rintro rfl; cases hk
    rw [show (blockWritten m block c').lookup k = c'.lookup k by simp [blockWritten, hp, hb],
      a.lookup_eq (by cases k <;> first | exact Bool.false_ne_true | cases hk)]
  have hw : (blockWritten m block c').Healthy := (hc.write _ _ _).write _ _ _
  have h₀ := hi h
  constructor
  · rw [txRecord_congr fun k hk _ _ => storeBlock_lookup_of_hash hc i hm block hk,
      indexLoop, txLoop_txRecord _ m 0 _ ⟨[], _, blockWritten m block c'⟩ hw
        ((txRecord_congr fun k hk _ _ => e k hk).trans h₀.1),
      firstSighting_append]
  · rw [receiptRecord_congr (storeBlock_lookup_of_hash hc i hm block rfl)
      (storeBlock_lookup_of_hash hc i hm block rfl),
      indexLoop, txLoop_receiptRecord _ m 0 _ ⟨[], _, blockWritten m block c'⟩ hw
        ((receiptRecord_congr (e _ rfl) (e _ rfl)).trans h₀.2),
      lastReceipt_append]
    rfl

section Run

variable (decode : Bytes → Option OpTransactionSigned)

/-- An update appends the block it assembles, if any, to the sightings.
Source: `flashblocks.rs` 149–306
Kind: L -/
theorem indexedAs_processPayload (u : FlashblocksPayloadV1) (hu : u.AccountsOnly) {c : Cache}
    (hc : c.Healthy) {blocks : List (Metadata × OpBlock)} (hi : IndexedAs blocks c) :
    IndexedAs (blocks ++ ((assembled decode u c).map fun a => (a.1, a.2.1)).toList)
      (processPayload decode u c) := by
  rcases processPayload_assembled decode u c with ⟨hn, a⟩ | ⟨m, block, c', hm, ha, a, hp⟩
  · rw [hn, Option.map_none', Option.toList_none, List.append_nil]
    intro h
    rw [txRecord_congr fun k hk _ _ => a.lookup_eq (by cases k <;> first | exact Bool.false_ne_true | cases hk),
      receiptRecord_congr (a.lookup_eq Bool.false_ne_true) (a.lookup_eq Bool.false_ne_true)]
    exact hi h
  · rw [ha, hp]
    exact indexedAs_storeBlock (a.healthy hc) hi a u.index (hu m hm) block

/-- A run appends the blocks it assembles to the sightings.
Source: `flashblocks.rs` 149–306
Kind: L -/
theorem indexedAs_run (us : List FlashblocksPayloadV1) (hus : ∀ u ∈ us, u.AccountsOnly)
    {c : Cache} (hc : c.Healthy) {blocks : List (Metadata × OpBlock)} (hi : IndexedAs blocks c) :
    IndexedAs (blocks ++ assembledBlocks decode us c) (run decode us c) := by
  induction us generalizing c blocks with
  | nil => simpa [assembledBlocks] using hi
  | cons u us ih =>
    rw [run_cons, assembledBlocks, ← List.append_assoc]
    exact ih (fun v hv => hus v (List.mem_cons_of_mem u hv)) (healthy_processPayload decode u hc)
      (indexedAs_processPayload decode u (hus u (List.mem_cons_self u us)) hc hi)

/-- **A hash's entries are its first and last sightings**: along any run from the empty cache
whose balance maps name accounts, the raw transaction, position, sender and block number cached
under a hash are those of its first occurrence in the first assembled block that holds it —
written once and never by a later block — and its receipt and receipt block are those of the
last assembled block that holds it and whose metadata carries its receipt.
Source: `flashblocks.rs` 364–455
Kind: P -/
theorem hashEntries_run (us : List FlashblocksPayloadV1) (hus : ∀ u ∈ us, u.AccountsOnly)
    (h : TxHash) :
    (run decode us Cache.empty).txRecord h =
      sightingRecord (firstSighting h (assembledBlocks decode us Cache.empty)) ∧
    (run decode us Cache.empty).receiptRecord h =
      receiptEntries (lastReceipt h (assembledBlocks decode us Cache.empty)) := by
  simpa using indexedAs_run decode us hus (fun _ => rfl) indexedAs_empty h

/-- `hashEntries_run` at the repository's deduplication test, for transaction `2`.
Source: none: sample input
Kind: L -/
theorem hashEntries_run_dedup :
    (∀ u ∈ dedupUpdates, u.AccountsOnly) ∧
    ((run testDecode dedupUpdates Cache.empty).txRecord 2 =
      sightingRecord (firstSighting 2 (assembledBlocks testDecode dedupUpdates Cache.empty)) ∧
    (run testDecode dedupUpdates Cache.empty).receiptRecord 2 =
      receiptEntries (lastReceipt 2 (assembledBlocks testDecode dedupUpdates Cache.empty))) :=
  have hus : ∀ u ∈ dedupUpdates, u.AccountsOnly := by
    simp [dedupUpdates, FlashblocksPayloadV1.AccountsOnly, Metadata.AccountsOnly]
  ⟨hus, hashEntries_run testDecode dedupUpdates hus 2⟩

/-- In the deduplication test, transaction `2` is first seen at position `2` of the second
block assembled for block `1`, `[1, 1, 2]`, and `1` at position `0` of the first. -/
example : (run testDecode dedupUpdates Cache.empty).get (.txIdx 2) Value.u64? = some 2 ∧
    (run testDecode dedupUpdates Cache.empty).get (.txIdx 1) Value.u64? = some 0 := by
  decide

/-! ## The send counts -/

/-- The hashes whose first sighting among `blocks` is in a block assembled for `n`, in a
transaction whose signer is `a`: the transactions `"tx_count:{a}:{n}"` should count.
Source: `flashblocks.rs` 398–425
Kind: D -/
def firstSentIn (blocks : List (Metadata × OpBlock)) (a : Address) (n : UInt64) : Set TxHash :=
  {h | ∃ idx tx, firstSighting h blocks = some (n, idx, tx) ∧ tx.signer = some a}

/-- Where the entries of every hash are those of its first sighting, the hashes recorded with
sender `a` and block `n` are those first seen in block `n` with signer `a`.
Source: none: infrastructure.
Kind: L -/
theorem sentIn_eq_firstSentIn {blocks : List (Metadata × OpBlock)} {c : Cache}
    (hi : IndexedAs blocks c) (a : Address) (n : UInt64) :
    sentIn c a n = firstSentIn blocks a n := by
  ext h
  have hr := (hi h).1
  simp only [Cache.txRecord, Prod.ext_iff] at hr
  simp only [sentIn, firstSentIn, Set.mem_setOf_eq, hr.2.2.1, hr.2.2.2]
  rcases firstSighting h blocks with _ | ⟨n', idx, tx⟩
  · simp [sightingRecord]
  · rcases hsig : tx.signer with _ | a' <;> simp [sightingRecord, hsig, and_assoc, and_comm]

/-- **The send counts after a run**: from the empty cache, `"tx_count:{a}:{n}"` (`0` when absent)
is the number of transactions first seen, among the blocks assembled, in a block assembled for
`n` and signed by `a`, a finite set; those are the hashes recorded with sender `a` and block `n`.
A transaction seen again in a later block is not counted there.
Source: `flashblocks.rs` 398–425
Kind: P -/
theorem sendCount_run (us : List FlashblocksPayloadV1) (hus : ∀ u ∈ us, u.AccountsOnly)
    (a : Address) (n : UInt64) :
    sentIn (run decode us Cache.empty) a n = firstSentIn (assembledBlocks decode us Cache.empty) a n ∧
    (firstSentIn (assembledBlocks decode us Cache.empty) a n).Finite ∧
    (run decode us Cache.empty).sendCount a n =
      UInt64.ofNat (firstSentIn (assembledBlocks decode us Cache.empty) a n).ncard := by
  have hcs := countsSenders_run decode us hus (c := Cache.empty) (fun _ => rfl) countsSenders_empty
  have he : sentIn (run decode us Cache.empty) a n =
      firstSentIn (assembledBlocks decode us Cache.empty) a n :=
    sentIn_eq_firstSentIn (by simpa using indexedAs_run decode us hus (fun _ => rfl) indexedAs_empty) a n
  exact ⟨he, he ▸ hcs.finite a n, he ▸ hcs.count_eq a n⟩

/-- `sendCount_run` at `resentUpdates`, for address `1` and block `2`.
Source: none: sample input
Kind: L -/
theorem sendCount_run_resent :
    (∀ u ∈ resentUpdates, u.AccountsOnly) ∧
    (sentIn (run testDecode resentUpdates Cache.empty) 1 2 =
      firstSentIn (assembledBlocks testDecode resentUpdates Cache.empty) 1 2 ∧
    (firstSentIn (assembledBlocks testDecode resentUpdates Cache.empty) 1 2).Finite ∧
    (run testDecode resentUpdates Cache.empty).sendCount 1 2 =
      UInt64.ofNat (firstSentIn (assembledBlocks testDecode resentUpdates Cache.empty) 1 2).ncard) :=
  have hus : ∀ u ∈ resentUpdates, u.AccountsOnly := by simp [resentUpdates]
  ⟨hus, sendCount_run testDecode resentUpdates hus 1 2⟩

/-- After `resentUpdates`, `"block:2"` holds transaction `5` of address `1`, yet
`"tx_count:1:2"` is absent: the transaction was cached when block `1` was assembled.
Source: `flashblocks.rs` 386–425
Kind: L -/
theorem sendCount_misses_block :
    ((run testDecode resentUpdates Cache.empty).get (.block 2) Value.block?).map
      (fun b => b.body.transactions.map fun tx => (tx.hash, tx.signer)) = some [(5, some 1)] ∧
    (run testDecode resentUpdates Cache.empty).sendCount 1 2 = 0 := by
  decide

/-! ## The pending block and `block_by_number` -/

/-- `"pending"` holds the last block assembled. Source: `flashblocks.rs` 248–253. Kind: D -/
def PendingAs (blocks : List (Metadata × OpBlock)) (c : Cache) : Prop :=
  c.get .pending Value.block? = blocks.getLast?.map (·.2)

/-- An update that assembles a block leaves it pending; one that does not leaves `"pending"` alone.
Source: `flashblocks.rs` 149–306
Kind: L -/
theorem pendingAs_processPayload (u : FlashblocksPayloadV1) (hu : u.AccountsOnly) {c : Cache}
    (hc : c.Healthy) {blocks : List (Metadata × OpBlock)} (hP : PendingAs blocks c) :
    PendingAs (blocks ++ ((assembled decode u c).map fun a => (a.1, a.2.1)).toList)
      (processPayload decode u c) := by
  rcases processPayload_assembled decode u c with ⟨hn, a⟩ | ⟨m, block, c', hm, ha, a, hp⟩
  · rw [hn, Option.map_none', Option.toList_none, List.append_nil, PendingAs, get_eq,
      a.lookup_eq (k := .pending) Bool.false_ne_true]
    exact hP
  · rw [ha, hp, PendingAs, get_eq, (storeBlock_of_healthy u.index (hu m hm) block (a.healthy hc)).lookup_eq
      (by simp [tailKeys, Key.TxEntry, Key.isTxEntry, Key.isAccount])]
    simp [Value.block?]

/-- After a run, `"pending"` holds the last block assembled, or what it held before.
Source: `flashblocks.rs` 149–306
Kind: L -/
theorem pendingAs_run (us : List FlashblocksPayloadV1) (hus : ∀ u ∈ us, u.AccountsOnly)
    {c : Cache} (hc : c.Healthy) {blocks : List (Metadata × OpBlock)} (hP : PendingAs blocks c) :
    PendingAs (blocks ++ assembledBlocks decode us c) (run decode us c) := by
  induction us generalizing c blocks with
  | nil => simpa [assembledBlocks] using hP
  | cons u us ih =>
    rw [run_cons, assembledBlocks, ← List.append_assoc]
    exact ih (fun v hv => hus v (List.mem_cons_of_mem u hv)) (healthy_processPayload decode u hc)
      (pendingAs_processPayload decode u (hus u (List.mem_cons_self u us)) hc hP)

/-- **What `block_by_number(pending, true)` finds along a run**: along any run from the empty
cache whose balance maps name accounts, `"pending"` is the last block assembled, and
`block_by_number(pending, true)` returns (rather than panics) exactly when every transaction of
that block has a recoverable signer and every deposit among them had its receipt carried by the
metadata of an assembled update whose block holds it.
Source: `flashblocks.rs` 248–286 and 364–455, `rpc.rs` 85–176 and 235–259
Kind: P -/
theorem blockByNumber_run (us : List FlashblocksPayloadV1) (hus : ∀ u ∈ us, u.AccountsOnly) :
    (run decode us Cache.empty).get .pending Value.block? =
      (assembledBlocks decode us Cache.empty).getLast?.map (·.2) ∧
    ((blockByNumber (run decode us Cache.empty) true).isOk ↔
      ∀ b ∈ (assembledBlocks decode us Cache.empty).getLast?,
        (∀ tx ∈ b.2.body.transactions, tx.signer.isSome) ∧
        ∀ tx ∈ b.2.body.transactions, tx.isDeposit →
          (lastReceipt tx.hash (assembledBlocks decode us Cache.empty)).isSome) := by
  have hP := pendingAs_run decode us hus (c := Cache.empty) (fun _ => rfl)
    (show PendingAs [] Cache.empty from rfl)
  have hI := indexedAs_run decode us hus (fun _ => rfl) indexedAs_empty
  rw [List.nil_append] at hP hI
  refine ⟨hP, ?_⟩
  have hr : ∀ h, ((run decode us Cache.empty).get (.receipt h) Value.receipt?).isSome =
      (lastReceipt h (assembledBlocks decode us Cache.empty)).isSome := fun h => by
    rw [show (run decode us Cache.empty).get (.receipt h) Value.receipt? = _ from
      congrArg Prod.fst (hI h).2]
    simp [receiptEntries]
  unfold blockByNumber
  rw [hP]
  cases (assembledBlocks decode us Cache.empty).getLast? with
  | none => exact iff_of_true rfl fun _ h => by cases h
  | some b =>
    rw [Option.map_some', show ∀ e : Except Panic RpcBlock, (e.map some).isOk = e.isOk by
      intro e; cases e <;> rfl, transformBlock_isOk_iff]
    simp only [Option.mem_def, Option.some.injEq, forall_eq']
    simp only [DepositReceiptCached, hr, Bool.or_eq_true, Bool.not_eq_true', imp_iff_not_or,
      Bool.not_eq_true]

/-- `blockByNumber_run` at `depositUpdate` alone. Source: none: sample input. Kind: L -/
theorem blockByNumber_run_deposit :
    (∀ u ∈ [depositUpdate], u.AccountsOnly) ∧
    ((run testDecode [depositUpdate] Cache.empty).get .pending Value.block? =
      (assembledBlocks testDecode [depositUpdate] Cache.empty).getLast?.map (·.2) ∧
    ((blockByNumber (run testDecode [depositUpdate] Cache.empty) true).isOk ↔
      ∀ b ∈ (assembledBlocks testDecode [depositUpdate] Cache.empty).getLast?,
        (∀ tx ∈ b.2.body.transactions, tx.signer.isSome) ∧
        ∀ tx ∈ b.2.body.transactions, tx.isDeposit →
          (lastReceipt tx.hash (assembledBlocks testDecode [depositUpdate] Cache.empty)).isSome)) :=
  have hus : ∀ u ∈ [depositUpdate], u.AccountsOnly := by
    simp [depositUpdate, FlashblocksPayloadV1.AccountsOnly, Metadata.AccountsOnly,
      payloadWithTransactions, payloadWithIndex]
  ⟨hus, blockByNumber_run testDecode [depositUpdate] hus⟩

/-- The deposit update without its receipt: the block is assembled, and
`block_by_number(pending, true)` panics on the deposit. -/
example : (blockByNumber (run testDecode [{ depositUpdate with metadata := some ⟨[], [], 1⟩ }]
    Cache.empty) true).isOk = false := by
  decide

end Run

end FlashblocksRpc
