import FlashblocksRpc.Index

/-!
# The hash list of a block

`get_and_set_txs_and_receipts` (`flashblocks.rs` 364–455) reads `"tx_hashes:{n}"` (an empty list
when absent), pushes the hash of every transaction of the assembled block unless the list
`contains` it already, and writes the list back. The list is never reset: an index-0 update that
rebuilds the block reads and extends it like any other.

* `dedupFirst`: a list with every element after its first occurrence removed, the spec's
  "deduplicated by hash while preserving first-seen order". `foldl_pushIfAbsent`: the code's
  nested `contains`/`push` loop computes it.
* `assembled`, `assembledBlocks`: the block `process_payload` assembles from an update, if it gets
  that far, and the blocks a run assembles, in order.
* **`txHashes_run`**: along any run from the empty cache whose balance maps name accounts,
  `"tx_hashes:{n}"` is absent until a block is assembled for `n`, and then is the hashes of all
  blocks assembled for `n`, concatenated in assembly order, each kept at its first occurrence; so
  it never holds a hash twice.
-/

namespace FlashblocksRpc

open Cache

/-! ## First occurrences -/

section Dedup

variable {α : Type} [DecidableEq α]

/-- The list with every element after its first occurrence removed.
Source: none: infrastructure
Kind: D -/
def dedupFirst : List α → List α
  | [] => []
  | a :: l => a :: (dedupFirst l).filter (· != a)

/-- The empty list has no duplicates to drop. Source: none: infrastructure. Kind: L -/
@[simp] theorem dedupFirst_nil : dedupFirst ([] : List α) = [] := rfl

/-- Dropping later occurrences keeps every element. Source: none: infrastructure. Kind: L -/
@[simp] theorem mem_dedupFirst {x : α} : ∀ {l : List α}, x ∈ dedupFirst l ↔ x ∈ l
  | [] => Iff.rfl
  | a :: l => by
    by_cases h : x = a <;> simp [dedupFirst, mem_dedupFirst, h]

/-- The first-occurrence list has no duplicates. Source: none: infrastructure. Kind: L -/
theorem nodup_dedupFirst : ∀ l : List α, (dedupFirst l).Nodup
  | [] => List.nodup_nil
  | a :: l => List.nodup_cons.mpr ⟨by simp, (nodup_dedupFirst l).filter _⟩

/-- One more element: dropped if it occurred before, appended otherwise.
Source: none: infrastructure
Kind: L -/
theorem dedupFirst_append_singleton (l : List α) (x : α) :
    dedupFirst (l ++ [x]) = if x ∈ l then dedupFirst l else dedupFirst l ++ [x] := by
  induction l with
  | nil => rfl
  | cons a l ih =>
    by_cases hx : x ∈ l
    · simp [dedupFirst, ih, hx]
    · by_cases hxa : x = a
      · subst hxa; simp [dedupFirst, ih, hx, List.filter_append]
      · simp [dedupFirst, ih, hx, hxa, List.filter_append]

end Dedup

/-- One `contains`/`push` step on a first-occurrence list is the first-occurrence list of the
extended list.
Source: `flashblocks.rs` 381–384
Kind: L -/
theorem pushIfAbsent_dedupFirst (l : List TxHash) (h : TxHash) :
    pushIfAbsent (dedupFirst l) h = dedupFirst (l ++ [h]) := by
  simp only [pushIfAbsent, dedupFirst_append_singleton, mem_dedupFirst]

/-- The code's loop over a block's hashes, from a first-occurrence list, keeps it one.
Source: `flashblocks.rs` 378–384
Kind: L -/
theorem foldl_pushIfAbsent (hs acc : List TxHash) :
    hs.foldl pushIfAbsent (dedupFirst acc) = dedupFirst (acc ++ hs) := by
  induction hs generalizing acc with
  | nil => simp
  | cons h hs ih =>
    rw [List.foldl_cons, pushIfAbsent_dedupFirst, ih, List.append_assoc, List.singleton_append]

/-! ## The hash list after a stored block -/

/-- On a healthy cache and under the balance map's schema, `storeBlock` writes
`"tx_hashes:{n}"` for the update's block number only: the old list with the block's hashes
pushed.
Source: `flashblocks.rs` 262–293, 364–455
Kind: L -/
theorem storeBlock_lookup_txHashes {c : Cache} (hc : c.Healthy) (i : UInt64) {m : Metadata}
    (hm : m.AccountsOnly) (block : OpBlock) (n : UInt64) :
    (storeBlock i m block c).lookup (.txHashes n) =
      if n = m.blockNumber then some (.hashList ((block.body.transactions.map (·.hash)).foldl
        pushIfAbsent ((c.get (.txHashes n) Value.hashList?).getD [])))
      else c.lookup (.txHashes n) := by
  rw [storeBlock_eq hc]
  generalize hc₁ : (c.write .pending (.block block) (some 10)).write (.block m.blockNumber)
    (.block block) (some 10) = c₁
  have e : c₁.lookup (.txHashes n) = c.lookup (.txHashes n) := by rw [← hc₁]; simp
  have hl : (indexBlock i m block c₁).lookup (.txHashes n) =
      (getAndSetTxsAndReceipts block m.blockNumber c₁ m).2.lookup (.txHashes n) := by
    dsimp only [indexBlock]
    split
    · rfl
    · rename_i c₂ h
      rw [storeBalances_lookup_of_not_account _ hm _ (k := .txHashes n) rfl,
        (getAndSetCumulative_agrees h).lookup_eq (by simp)]
  have a := txLoop_agrees m.blockNumber m 0 block.body.transactions
    ⟨[], (c₁.get (.txHashes m.blockNumber) Value.hashList?).getD [], c₁⟩
  have h₁ : c₁.Healthy := by rw [← hc₁]; exact (hc.write _ _ _).write _ _ _
  rw [hl, getAndSetTxsAndReceipts, put_of_healthy (a.healthy h₁),
    lookup_write _ _ _ _ (by decide), a.lookup_eq (by simp [Key.TxEntry, Key.isTxEntry]),
    txLoop_txHashes, List.foldl_map]
  by_cases hn : n = m.blockNumber
  · subst hn; simp [e]
  · simp [hn, e]

/-! ## The blocks a run assembles -/

/-- A key written by `processPayload` before its block is assembled: the tracker, a base, a
cumulative transaction list.
Source: `flashblocks.rs` 177–214
Kind: D -/
def Key.isEarly : Key → Bool
  | .highestPayloadIndex | .base _ | .diffTransactions _ => true
  | _ => false

section Assembly

variable (decode : Bytes → Option OpTransactionSigned)

/-- The block `process_payload` assembles from an update, if it gets that far: the update's
metadata, the block `try_into_block` returns, and the cache `storeBlock` then receives.
Source: `flashblocks.rs` 149–246
Kind: D -/
def assembled (payload : FlashblocksPayloadV1) (c : Cache) : Option (Metadata × OpBlock × Cache) :=
  match payload.metadata with
  | none => none
  | some metadata =>
    if lacksBase payload.index metadata.blockNumber c then none else
    let c := updateFlashblocksIndex payload.index c
    if behindPending metadata.blockNumber c then none else
    match resolveBase payload.base metadata.blockNumber c with
    | none => none
    | some (base, c) =>
      match getAndSetTransactions payload.diff.transactions payload.index metadata.blockNumber c with
      | none => none
      | some (transactions, c) =>
        match (executionPayload base payload.diff transactions).tryIntoBlock decode with
        | .error _ => none
        | .ok block => some (metadata, block, c)

/-- **`processPayload` through `assembled`**: with no block assembled it writes only early keys;
with one, it stores that block with `storeBlock`, in a cache that differs from the first only on
early keys.
Source: `flashblocks.rs` 149–306
Kind: P -/
theorem processPayload_assembled (u : FlashblocksPayloadV1) (c : Cache) :
    assembled decode u c = none ∧ c.Agrees (processPayload decode u c) (·.isEarly) ∨
    ∃ m block c', u.metadata = some m ∧ assembled decode u c = some (m, block, c') ∧
      c.Agrees c' (·.isEarly) ∧ processPayload decode u c = storeBlock u.index m block c' := by
  unfold processPayload assembled
  rcases hm : u.metadata with _ | m
  · exact Or.inl ⟨rfl, Agrees.refl c _⟩
  have a₁ : c.Agrees (updateFlashblocksIndex u.index c) (·.isEarly) :=
    (updateFlashblocksIndex_agrees _ _).mono fun k hk => by subst hk; rfl
  dsimp only
  split_ifs
  · exact Or.inl ⟨rfl, Agrees.refl c _⟩
  · exact Or.inl ⟨rfl, a₁⟩
  rcases hb : resolveBase u.base m.blockNumber (updateFlashblocksIndex u.index c) with _ | ⟨base, c₂⟩
  · exact Or.inl ⟨rfl, a₁⟩
  have a₂ := a₁.trans ((resolveBase_agrees hb).mono fun k hk => by subst hk; rfl)
  dsimp only
  rcases ht : getAndSetTransactions u.diff.transactions u.index m.blockNumber c₂ with _ | ⟨txs, c₃⟩
  · exact Or.inl ⟨rfl, a₂⟩
  have a₃ := a₂.trans ((getAndSetCumulative_agrees ht).mono fun k hk => by subst hk; rfl)
  dsimp only
  rcases (executionPayload base u.diff txs).tryIntoBlock decode with e | block
  · exact Or.inl ⟨rfl, a₃⟩
  · exact Or.inr ⟨m, block, c₃, rfl, rfl, a₃, rfl⟩

/-- The blocks a run assembles, each with its update's metadata, in order.
Source: `flashblocks.rs` 135–143, 240–246
Kind: D -/
def assembledBlocks : List FlashblocksPayloadV1 → Cache → List (Metadata × OpBlock)
  | [], _ => []
  | u :: us, c => ((assembled decode u c).map fun a => (a.1, a.2.1)).toList ++
      assembledBlocks us (processPayload decode u c)

end Assembly

/-- The hashes of the blocks assembled for block number `n` (by updates whose metadata names
`n`), concatenated in assembly order.
Source: none: infrastructure
Kind: D -/
def hashesFor (blocks : List (Metadata × OpBlock)) (n : UInt64) : List TxHash :=
  (blocks.filter (·.1.blockNumber = n)).flatMap fun b => b.2.body.transactions.map (·.hash)

/-- The hashes for `n` of two lists of blocks, one after the other.
Source: none: infrastructure
Kind: L -/
@[simp] theorem hashesFor_append (bs bs' : List (Metadata × OpBlock)) (n : UInt64) :
    hashesFor (bs ++ bs') n = hashesFor bs n ++ hashesFor bs' n := by
  simp [hashesFor, List.filter_append]

/-- What `"tx_hashes:{n}"` holds after the blocks `blocks` were assembled: nothing before the
first block for `n`, then the first occurrences of their hashes.
Source: `flashblocks.rs` 364–455
Kind: D -/
def HashListsOf (blocks : List (Metadata × OpBlock)) (c : Cache) : Prop :=
  ∀ n, c.lookup (.txHashes n) =
    if blocks.any (·.1.blockNumber = n) then some (.hashList (dedupFirst (hashesFor blocks n)))
    else none

/-- With no block for `n`, there are no hashes for `n`. Source: none: infrastructure. Kind: L -/
theorem hashesFor_eq_nil {blocks : List (Metadata × OpBlock)} {n : UInt64}
    (h : ¬ blocks.any (·.1.blockNumber = n)) : hashesFor blocks n = [] := by
  rw [hashesFor, List.filter_eq_nil_iff.mpr (by simpa using h), List.flatMap_nil]

/-- Storing an assembled block extends the hash list of its block number.
Source: `flashblocks.rs` 248–293, 364–455
Kind: L -/
theorem hashListsOf_storeBlock {blocks : List (Metadata × OpBlock)} {c c' : Cache}
    (hc : c'.Healthy) (hh : HashListsOf blocks c) (a : c.Agrees c' (·.isEarly)) (i : UInt64)
    {m : Metadata} (hm : m.AccountsOnly) (block : OpBlock) :
    HashListsOf (blocks ++ [(m, block)]) (storeBlock i m block c') := by
  intro n
  have hread : ((c'.lookup (.txHashes n)).bind Value.hashList?).getD [] =
      dedupFirst (hashesFor blocks n) := by
    rw [a.lookup_eq (by simp [Key.isEarly]), hh]
    split
    · rfl
    · rename_i hb; rw [hashesFor_eq_nil hb]; rfl
  rw [storeBlock_lookup_txHashes hc i hm block n, get_eq, hread, a.lookup_eq (by simp [Key.isEarly]),
    hh]
  by_cases hn : n = m.blockNumber
  · subst hn
    have h₁ : ([(m, block)].any fun b => decide (b.1.blockNumber = m.blockNumber)) = true := by simp
    have h₂ : hashesFor [(m, block)] m.blockNumber = block.body.transactions.map (·.hash) := by
      simp [hashesFor]
    rw [if_pos rfl, List.any_append, h₁, Bool.or_true, if_pos rfl, hashesFor_append, h₂,
      foldl_pushIfAbsent]
  · have h₁ : ([(m, block)].any fun b => decide (b.1.blockNumber = n)) = false := by
      simp [Ne.symm hn]
    have h₂ : hashesFor [(m, block)] n = [] := by simp [hashesFor, Ne.symm hn]
    rw [if_neg hn, List.any_append, h₁, Bool.or_false, hashesFor_append, h₂, List.append_nil]

section Run

variable (decode : Bytes → Option OpTransactionSigned)

/-- An update keeps the hash lists those of the blocks assembled so far.
Source: `flashblocks.rs` 149–306
Kind: L -/
theorem hashListsOf_processPayload (u : FlashblocksPayloadV1) (hu : u.AccountsOnly) {c : Cache}
    (hc : c.Healthy) {blocks : List (Metadata × OpBlock)} (hh : HashListsOf blocks c) :
    HashListsOf (blocks ++ ((assembled decode u c).map fun a => (a.1, a.2.1)).toList)
      (processPayload decode u c) := by
  rcases processPayload_assembled decode u c with ⟨hn, a⟩ | ⟨m, block, c', hm, ha, a, hp⟩
  · intro n
    rw [hn, Option.map_none', Option.toList_none, List.append_nil, a.lookup_eq (by simp [Key.isEarly])]
    exact hh n
  · rw [ha, hp]
    exact hashListsOf_storeBlock (a.healthy hc) hh a u.index (hu m hm) block

/-- A run keeps the hash lists those of the blocks assembled so far.
Source: `flashblocks.rs` 149–306
Kind: L -/
theorem hashListsOf_run (us : List FlashblocksPayloadV1) (hus : ∀ u ∈ us, u.AccountsOnly)
    {c : Cache} (hc : c.Healthy) {blocks : List (Metadata × OpBlock)} (hh : HashListsOf blocks c) :
    HashListsOf (blocks ++ assembledBlocks decode us c) (run decode us c) := by
  induction us generalizing c blocks with
  | nil => simpa [assembledBlocks] using hh
  | cons u us ih =>
    rw [run_cons, assembledBlocks, ← List.append_assoc]
    exact ih (fun v hv => hus v (List.mem_cons_of_mem u hv)) (healthy_processPayload decode u hc)
      (hashListsOf_processPayload decode u (hus u (List.mem_cons_self u us)) hc hh)

/-- **The hash list of a block number**: along any run from the empty cache whose balance maps
name accounts, `"tx_hashes:{n}"` is absent until a block is assembled for `n`; from then on it
is the hashes of all blocks assembled for `n`, concatenated in assembly order with every
repeated hash removed after its first occurrence, and it holds no hash twice.
Source: `flashblocks.rs` 364–455
Kind: P -/
theorem txHashes_run (us : List FlashblocksPayloadV1) (hus : ∀ u ∈ us, u.AccountsOnly)
    (n : UInt64) :
    (run decode us Cache.empty).get (.txHashes n) Value.hashList? =
      (if (assembledBlocks decode us Cache.empty).any (·.1.blockNumber = n) then
        some (dedupFirst (hashesFor (assembledBlocks decode us Cache.empty) n)) else none) ∧
    ∀ hashes, (run decode us Cache.empty).get (.txHashes n) Value.hashList? = some hashes →
      hashes.Nodup := by
  have h := hashListsOf_run decode us hus (c := Cache.empty) (fun _ => rfl)
    (show HashListsOf [] Cache.empty from fun _ => by simp) n
  rw [List.nil_append] at h
  have hget : (run decode us Cache.empty).get (.txHashes n) Value.hashList? =
      (if (assembledBlocks decode us Cache.empty).any (·.1.blockNumber = n) then
        some (dedupFirst (hashesFor (assembledBlocks decode us Cache.empty) n)) else none) := by
    rw [get_eq, h]; split <;> rfl
  refine ⟨hget, fun hashes hs => ?_⟩
  rw [hget] at hs
  split at hs
  · cases hs; exact nodup_dedupFirst _
  · cases hs

/-- `txHashes_run` at the repository's deduplication test. Source: none: sample input. Kind: L -/
theorem txHashes_run_dedup :
    (run testDecode dedupUpdates Cache.empty).get (.txHashes 1) Value.hashList? =
      (if (assembledBlocks testDecode dedupUpdates Cache.empty).any (·.1.blockNumber = 1) then
        some (dedupFirst (hashesFor (assembledBlocks testDecode dedupUpdates Cache.empty) 1))
      else none) ∧
    ∀ hashes, (run testDecode dedupUpdates Cache.empty).get (.txHashes 1) Value.hashList? =
      some hashes → hashes.Nodup :=
  txHashes_run testDecode dedupUpdates
    (by simp [dedupUpdates, FlashblocksPayloadV1.AccountsOnly, Metadata.AccountsOnly]) 1

/-- The repository's deduplication test: blocks `[1]` and `[1, 1, 2]` are assembled for block
`1`, and `"tx_hashes:1"` is `[1, 2]`. -/
example : (assembledBlocks testDecode dedupUpdates Cache.empty).map
      (fun b => b.2.body.transactions.map (·.hash)) = [[1], [1, 1, 2]] ∧
    (run testDecode dedupUpdates Cache.empty).get (.txHashes 1) Value.hashList? = some [1, 2] := by
  decide

end Run

end FlashblocksRpc
