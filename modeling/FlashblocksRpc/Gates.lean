import FlashblocksRpc.Steps

/-!
# The two gates, the monotone pending block, and the index tracker

`process_payload` rejects an update at two places: the base gate (an index past `0` for a block
with no cached base, lines 167–175) and the stale gate (the cached pending block has a higher
number, lines 180–184). Between the two sits `update_flashblocks_index`.

* `processPayload_rejected`: a base-gated update changes nothing; a stale one has exactly the
  effect of `update_flashblocks_index`, so every key but the tracker reads as before.
* `pendingNumber_le_processPayload`: along a run from the empty cache in which every base an
  update carries is for its metadata's block number, the pending block's number never goes
  down. The gate compares the metadata's number while the stored block takes the base's, so
  that hypothesis is what the step needs (`pending_goes_back` shows the run where it fails).
* `highestPayloadIndex_run`: the tracker is the largest index among the updates past the base
  gate since the last such update of index `0`, whatever their block and whether or not the
  stale gate then rejects them; the count recorded for the previous block is that value plus
  one while it stays below `u64::MAX`.
-/

namespace FlashblocksRpc

open Cache

variable (decode : Bytes → Option OpTransactionSigned)

/-! ## Sample updates -/

/-- The base of the repository's test helpers for block `n`, its hashes zero.
Source: `flashblocks.rs` 539–580 (`create_payload_with_index`)
Kind: D -/
def sampleBase (n : UInt64) : ExecutionPayloadBaseV1 :=
  ⟨0, 0, 0x1234567890123456789012345678901234567890, 0, n, 1000000, 1234567890, [], 1000⟩

/-- `create_payload_with_index(index, block_number)` of the tests (`flashblocks.rs` 539–580):
a base at index `0`, a diff without transactions, metadata for the block; the roots are zero
here.
Source: `flashblocks.rs` 539–580
Kind: D -/
def payloadWithIndex (index blockNumber : UInt64) : FlashblocksPayloadV1 where
  index := index
  base := if index = 0 then some (sampleBase blockNumber) else none
  diff := ⟨0, 0, 0, 21000 * index, 0, [], []⟩
  metadata := some ⟨[], [], blockNumber⟩

/-- A decoder for the examples: the empty byte string does not decode; `h :: rest` decodes to a
transaction of hash `h` sent by address `1`, a deposit when `rest` is `[1]`.
Source: none: test data
Kind: D -/
def testDecode : Bytes → Option OpTransactionSigned
  | [] => none
  | h :: rest => some ⟨BitVec.ofNat 256 h.toNat, some 1, rest == [1], 0, none⟩

/-- The test helper's update with the given transactions in its diff.
Source: none: test data
Kind: D -/
def payloadWithTransactions (index blockNumber : UInt64) (transactions : List Bytes) :
    FlashblocksPayloadV1 :=
  let u := payloadWithIndex index blockNumber
  { u with diff := { u.diff with transactions := transactions } }

/-! ## Rejected updates -/

/-- An update keeps every write succeeding. Source: `flashblocks.rs` 149–306. Kind: L -/
theorem healthy_processPayload (u : FlashblocksPayloadV1) {c : Cache} (hc : c.Healthy) :
    (processPayload decode u c).Healthy := by
  rcases processPayload_cases decode u c with ⟨_, h⟩ | ⟨m, _, _, h⟩
  · rwa [h]
  · have h₁ := (updateFlashblocksIndex_agrees u.index c).healthy hc
    rcases h with h | ⟨-, base, c₂, hb, h | ⟨txs, c₃, ht, h | ⟨block, -, h⟩⟩⟩
    · rwa [h]
    · rw [h]; exact (resolveBase_agrees hb).healthy h₁
    · rw [h]; exact (getAndSetCumulative_agrees ht).healthy ((resolveBase_agrees hb).healthy h₁)
    · rw [h]
      exact (storeBlock_agrees _ _ _ _).healthy
        ((getAndSetCumulative_agrees ht).healthy ((resolveBase_agrees hb).healthy h₁))

/-- The stale check reads the same before and after the tracker write.
Source: `flashblocks.rs` 177–184
Kind: L -/
theorem behindPending_updateFlashblocksIndex (n i : UInt64) (c : Cache) :
    behindPending n (updateFlashblocksIndex i c) = behindPending n c := by
  simp only [behindPending, get_eq,
    (updateFlashblocksIndex_agrees i c).lookup_eq (k := .pending) (by simp)]

/-- **Rejected updates.** An update the base gate rejects leaves the cache as it was; one that
passes it and is then rejected as stale has exactly the effect of `update_flashblocks_index`,
so every key but `"highest_payload_index"` reads as before.
Source: `flashblocks.rs` 167–184, 308–332
Kind: P -/
theorem processPayload_rejected (u : FlashblocksPayloadV1) (m : Metadata)
    (hm : u.metadata = some m) (c : Cache) :
    (lacksBase u.index m.blockNumber c = true → processPayload decode u c = c) ∧
    (lacksBase u.index m.blockNumber c = false → behindPending m.blockNumber c = true →
      processPayload decode u c = updateFlashblocksIndex u.index c ∧
      ∀ k, k ≠ .highestPayloadIndex → (processPayload decode u c).lookup k = c.lookup k) := by
  refine ⟨fun hg => by simp [processPayload, hm, hg], fun hg hs => ?_⟩
  have hs' : behindPending m.blockNumber (updateFlashblocksIndex u.index c) = true := by
    rwa [behindPending_updateFlashblocksIndex]
  have h : processPayload decode u c = updateFlashblocksIndex u.index c := by
    simp [processPayload, hm, hg, hs']
  exact ⟨h, fun k hk => h ▸ (updateFlashblocksIndex_agrees u.index c).lookup_eq hk⟩

/-- The stale case at the test helper's updates: after block `2` reached index `1`, an index-0
update for block `1` only resets the tracker.
Source: none: sample input
Kind: L -/
theorem processPayload_rejected_stale :
    let c := run (fun _ => none) [payloadWithIndex 0 2, payloadWithIndex 1 2] Cache.empty
    (payloadWithIndex 0 1).metadata = some ⟨[], [], 1⟩ ∧
      processPayload (fun _ => none) (payloadWithIndex 0 1) c = updateFlashblocksIndex 0 c :=
  ⟨rfl, ((processPayload_rejected (fun _ => none) (payloadWithIndex 0 1) ⟨[], [], 1⟩ rfl
    (run (fun _ => none) [payloadWithIndex 0 2, payloadWithIndex 1 2] Cache.empty)).2
    (by decide) (by decide)).1⟩

/-- A stale update is not a no-op: it moves the tracker from `1` back to `0`.
Source: `flashblocks.rs` 177–184
Kind: L -/
theorem stale_update_moves_tracker :
    let c := run (fun _ => none) [payloadWithIndex 0 2, payloadWithIndex 1 2] Cache.empty
    behindPending 1 c = true ∧
      c.lookup .highestPayloadIndex = some (.u64 1) ∧
      (processPayload (fun _ => none) (payloadWithIndex 0 1) c).lookup .highestPayloadIndex =
        some (.u64 0) := by
  decide

/-! ## The pending block never goes back -/

/-- Every base cached under `"base:{n}"` is for block `n`. Source: none: infrastructure. Kind: D -/
def BasesNumbered (c : Cache) : Prop :=
  ∀ n b, c.get (.base n) Value.base? = some b → b.blockNumber = n

/-- The base an update carries is for the block its metadata names.
Source: spec §3 (Base: established by update 0 for its block)
Kind: D -/
def FlashblocksPayloadV1.BaseMatches (u : FlashblocksPayloadV1) : Prop :=
  ∀ m b, u.metadata = some m → u.base = some b → b.blockNumber = m.blockNumber

/-- A block assembled from a payload has the payload's number.
Source: alloy `ExecutionPayloadV1::try_into_block_with`
Kind: L -/
theorem tryIntoBlock_number {p : ExecutionPayloadV3} {block : OpBlock}
    (h : p.tryIntoBlock decode = .ok block) : block.number = p.blockNumber := by
  unfold ExecutionPayloadV3.tryIntoBlock at h
  split at h
  · cases h
  · split at h
    · cases h
    · split at h
      · cases h
      · cases h; rfl

/-- Numbered bases survive any change that writes no base. Source: none: infrastructure. Kind: L -/
theorem BasesNumbered.of_agrees {c c' : Cache} {S : Key → Prop} (h : c.Agrees c' S)
    (hS : ∀ n, ¬ S (.base n)) (hc : BasesNumbered c) : BasesNumbered c' :=
  fun n b hb => hc n b (by rwa [get_eq, ← h.lookup_eq (hS n)])

/-- The base `resolveBase` hands on is for the update's block, and the base entries stay
numbered.
Source: `flashblocks.rs` 186–201
Kind: L -/
theorem resolveBase_numbered {u : FlashblocksPayloadV1} {m : Metadata} (hm : u.metadata = some m)
    (hu : u.BaseMatches) {c c₂ : Cache} {base : ExecutionPayloadBaseV1} (hc : BasesNumbered c)
    (h : resolveBase u.base m.blockNumber c = some (base, c₂)) :
    base.blockNumber = m.blockNumber ∧ BasesNumbered c₂ := by
  rcases resolveBase_cases h with ⟨hb, -, rfl⟩ | ⟨-, hb, rfl⟩
  · refine ⟨hu m base hm hb, fun n b h' => ?_⟩
    simp only [get_eq, lookup_write _ _ _ _ (show 0 < 10 by decide)] at h'
    split_ifs at h' with hn
    · cases hn; cases h'; exact hu m _ hm hb
    · exact hc n b h'
  · exact ⟨hc _ _ hb, hc⟩

/-- An update whose base is for its block keeps the bases numbered.
Source: `flashblocks.rs` 149–306
Kind: L -/
theorem basesNumbered_processPayload {u : FlashblocksPayloadV1} (hu : u.BaseMatches)
    {c : Cache} (hc : BasesNumbered c) : BasesNumbered (processPayload decode u c) := by
  rcases processPayload_cases decode u c with ⟨_, h⟩ | ⟨m, hm, _, h⟩
  · rwa [h]
  have h₁ := hc.of_agrees (updateFlashblocksIndex_agrees u.index c) (by simp)
  rcases h with h | ⟨-, base, c₂, hb, h | ⟨txs, c₃, ht, h | ⟨block, -, h⟩⟩⟩
  · rwa [h]
  · rw [h]; exact (resolveBase_numbered hm hu h₁ hb).2
  · rw [h]
    exact (resolveBase_numbered hm hu h₁ hb).2.of_agrees (getAndSetCumulative_agrees ht) (by simp)
  · rw [h]
    have h₃ := (resolveBase_numbered hm hu h₁ hb).2.of_agrees (getAndSetCumulative_agrees ht)
      (by simp)
    intro n b hb'
    rcases storeBlock_lookup u.index m block c₃ (k := .base n) (by simp) (by simp)
      (by simp [tailKeys, Key.TxEntry, Key.isTxEntry]) with h' | ⟨s, h'⟩
    · exact h₃ n b (by rwa [get_eq, ← h'])
    · simp [h', Value.base?] at hb'

/-- A run of such updates keeps the bases numbered. Source: none: infrastructure. Kind: L -/
theorem basesNumbered_run (us : List FlashblocksPayloadV1) (hus : ∀ u ∈ us, u.BaseMatches)
    {c : Cache} (hc : BasesNumbered c) : BasesNumbered (run decode us c) := by
  induction us generalizing c with
  | nil => exact hc
  | cons u us ih =>
    exact ih (fun v hv => hus v (List.mem_cons_of_mem u hv))
      (basesNumbered_processPayload decode (hus u (List.mem_cons_self u us)) hc)

/-- One update never replaces the pending block by one with a lower number, once the cached
bases are numbered and the update's base is for its block.
Source: `flashblocks.rs` 177–259
Kind: L -/
theorem pendingNumber_le_step {u : FlashblocksPayloadV1} (hu : u.BaseMatches) {c : Cache}
    (hc : BasesNumbered c) {b b' : OpBlock} (hb : c.get .pending Value.block? = some b)
    (hb' : (processPayload decode u c).get .pending Value.block? = some b') :
    b.number ≤ b'.number := by
  -- where the pending entry is untouched, the block read is the same
  have same : ∀ c' : Cache, c'.lookup .pending = c.lookup .pending →
      c'.get .pending Value.block? = some b' → b.number ≤ b'.number := fun c' e h' => by
    rw [get_eq, e, ← get_eq, hb] at h'; cases h'; exact UInt64.le_refl _
  rcases processPayload_cases decode u c with ⟨_, h⟩ | ⟨m, hm, _, h⟩
  · exact same c rfl (by rwa [h] at hb')
  have p₁ : (updateFlashblocksIndex u.index c).lookup .pending = c.lookup .pending :=
    (updateFlashblocksIndex_agrees u.index c).lookup_eq (k := .pending) (by simp)
  rcases h with h | ⟨hs, base, c₂, hb₂, h⟩
  · exact same _ p₁ (by rwa [h] at hb')
  have p₂ : c₂.lookup .pending = c.lookup .pending :=
    ((resolveBase_agrees hb₂).lookup_eq (k := .pending) (by simp)).trans p₁
  rcases h with h | ⟨txs, c₃, ht, h⟩
  · exact same _ p₂ (by rwa [h] at hb')
  have p₃ : c₃.lookup .pending = c.lookup .pending :=
    ((getAndSetCumulative_agrees ht).lookup_eq (k := .pending) (by simp)).trans p₂
  rcases h with h | ⟨block, hblock, h⟩
  · exact same _ p₃ (by rwa [h] at hb')
  -- the assembled block takes the resolved base's number, which is the update's
  have hnum : block.number = m.blockNumber := by
    rw [tryIntoBlock_number decode hblock]
    exact (resolveBase_numbered hm hu
      (hc.of_agrees (updateFlashblocksIndex_agrees u.index c) (by simp)) hb₂).1
  have hle : b.number ≤ block.number := by
    rw [behindPending_updateFlashblocksIndex] at hs
    simp only [behindPending, hb, decide_eq_false_iff_not, UInt64.not_lt] at hs
    rwa [hnum]
  -- a stored block leaves it in "pending", or nothing there changes
  have hp : ∀ c' : Cache, c'.lookup .pending = some (.block block) →
      c'.get .pending Value.block? = some b' → b.number ≤ b'.number := fun c' e h' => by
    rw [get_eq, e] at h'; cases h'; exact hle
  have ht' : ¬ tailKeys m .pending := by simp [tailKeys, Key.TxEntry, Key.isTxEntry]
  rw [h] at hb'
  rcases storeBlock_cases u.index m block c₃ with ⟨-, h'⟩ | ⟨-, -, h'⟩ | ⟨-, -, c', hc', h' | h'⟩
  · exact same _ p₃ (by rwa [h'] at hb')
  · rw [h'] at hb'; exact hp _ (by simp) hb'
  · rw [h'] at hb'; exact hp _ (by rw [hc'.lookup_eq ht']; simp) hb'
  · rcases storeBalances_lookup m.newAccountBalances c' .pending with h'' | ⟨s, h''⟩
    · rw [h'] at hb'; exact hp _ (by rw [h'', hc'.lookup_eq ht']; simp) hb'
    · rw [h', get_eq, h''] at hb'; cases hb'

/-- **The pending block's number never goes down** along a run from the empty cache, provided
each base an update carries is for the block its metadata names.
Source: `flashblocks.rs` 177–259
Kind: P -/
theorem pendingNumber_le_processPayload (us : List FlashblocksPayloadV1) (u : FlashblocksPayloadV1)
    (hus : ∀ v ∈ us ++ [u], v.BaseMatches) {b b' : OpBlock}
    (hb : (run decode us Cache.empty).get .pending Value.block? = some b)
    (hb' : (processPayload decode u (run decode us Cache.empty)).get .pending Value.block? = some b') :
    b.number ≤ b'.number :=
  pendingNumber_le_step decode (hus u (by simp))
    (basesNumbered_run decode us (fun v hv => hus v (by simp [hv])) (fun _ _ h => by simp at h))
    hb hb'

/-- The test helper's updates carry bases for their own block. Source: none: test data. Kind: L -/
theorem payloadWithIndex_baseMatches (i n : UInt64) : (payloadWithIndex i n).BaseMatches := by
  intro m b hm hb
  simp only [payloadWithIndex, Option.some.injEq] at hm hb
  split_ifs at hb
  cases hb; cases hm; rfl

/-- Block `1` then block `2` from the test helper. Source: none: sample input. Kind: L -/
theorem pendingNumber_le_processPayload_sample :
    ∃ b b' : OpBlock,
      (run (fun _ => none) [payloadWithIndex 0 1] Cache.empty).get .pending Value.block? = some b ∧
      (processPayload (fun _ => none) (payloadWithIndex 0 2)
        (run (fun _ => none) [payloadWithIndex 0 1] Cache.empty)).get .pending Value.block? =
          some b' ∧ b.number ≤ b'.number :=
  ⟨_, _, rfl, rfl, pendingNumber_le_processPayload (fun _ => none) [payloadWithIndex 0 1]
    (payloadWithIndex 0 2) (by simp [payloadWithIndex_baseMatches]) rfl rfl⟩

/-- An index-0 update for block `7` whose base is for block `1` takes the pending block from
number `5` back to `1`.
Source: `flashblocks.rs` 177–259
Kind: L -/
theorem pending_goes_back :
    ((run (fun _ => none) [payloadWithIndex 0 5] Cache.empty).get .pending
      Value.block?).map OpBlock.number = some 5 ∧
    ((run (fun _ => none) [payloadWithIndex 0 5,
      { payloadWithIndex 0 1 with metadata := some ⟨[], [], 7⟩ }] Cache.empty).get .pending
      Value.block?).map OpBlock.number = some 1 := by
  decide

/-! ## The highest-index tracker -/

/-- `u64` order is the order of the numbers. Source: none: infrastructure. Kind: L -/
theorem UInt64.lt_iff_toNat_lt {a b : UInt64} : a < b ↔ a.toNat < b.toNat := Iff.rfl

/-- `x + 1` on `u64` wraps at `2^64`. Source: none: infrastructure. Kind: L -/
theorem UInt64.toNat_add_one (x : UInt64) : (x + 1).toNat = (x.toNat + 1) % UInt64.size := by
  show (x.toBitVec + 1#64).toNat = _
  rw [BitVec.toNat_add]; rfl

/-- The tracker `"highest_payload_index"` as a number. Source: `flashblocks.rs` 308–332. Kind: D -/
def Cache.highestIndex (c : Cache) : Option Nat :=
  (c.get .highestPayloadIndex Value.u64?).map UInt64.toNat

/-- Whether an update gets past the base gate. Source: `flashblocks.rs` 167–175. Kind: D -/
def passesGate (u : FlashblocksPayloadV1) (c : Cache) : Bool :=
  match u.metadata with
  | some m => !lacksBase u.index m.blockNumber c
  | none => false

/-- The indices of the updates of a run that get past the base gate, in delivery order.
Source: none: infrastructure
Kind: D -/
def gatedIndices : List FlashblocksPayloadV1 → Cache → List UInt64
  | [], _ => []
  | u :: us, c =>
    (if passesGate u c then [u.index] else []) ++ gatedIndices us (processPayload decode u c)

/-- The largest index since the last reset: the largest element of `l` after its last `0`
(`0` when `l` ends in `0`), and nothing for the empty list.
Source: none: infrastructure
Kind: D -/
def highestSinceReset (l : List UInt64) : Option Nat :=
  if l = [] then none
  else some ((l.reverse.takeWhile (· != 0)).foldr (fun i m => max i.toNat m) 0)

/-- One more index: a `0` resets, anything else raises the maximum.
Source: none: infrastructure
Kind: L -/
theorem highestSinceReset_append (l : List UInt64) (i : UInt64) :
    highestSinceReset (l ++ [i]) =
      some (if i = 0 then 0 else max ((highestSinceReset l).getD 0) i.toNat) := by
  unfold highestSinceReset
  by_cases hi : i = 0 <;> by_cases hl : l = [] <;> simp [hi, hl, List.takeWhile_cons, Nat.max_comm]

/-- On a healthy cache, `update_flashblocks_index` resets the tracker to `0` at index `0` and
otherwise raises it to the index.
Source: `flashblocks.rs` 308–332
Kind: L -/
theorem highestIndex_updateFlashblocksIndex {c : Cache} (hc : c.Healthy) (i : UInt64) :
    (updateFlashblocksIndex i c).highestIndex =
      some (if i = 0 then 0 else max (c.highestIndex.getD 0) i.toNat) := by
  have lw := lookup_write c .highestPayloadIndex .highestPayloadIndex (t := 10)
  unfold updateFlashblocksIndex
  by_cases hi : i = 0
  · simp [hi, put_of_healthy hc, Cache.highestIndex, lw, Value.u64?]
  have hi' : 0 < i.toNat := Nat.pos_of_ne_zero fun h => hi (UInt64.toNat.inj h)
  simp only [hi, if_false, Cache.highestIndex]
  rcases h : c.get .highestPayloadIndex Value.u64? with _ | x
  · simp [UInt64.lt_iff_toNat_lt, hi', put_of_healthy hc, lw, Value.u64?]
  · by_cases hx : x < i
    · simp [hx, put_of_healthy hc, lw, Value.u64?, UInt64.lt_iff_toNat_lt.mp hx, Nat.le_of_lt]
    · have : i.toNat ≤ x.toNat := Nat.le_of_not_lt (mt UInt64.lt_iff_toNat_lt.mpr hx)
      rw [Option.getD_some, if_neg hx, h]
      simp [this]

/-- Past the base gate the tracker ends as `update_flashblocks_index` leaves it; otherwise the
update does not touch it.
Source: `flashblocks.rs` 149–184, 308–332
Kind: L -/
theorem highestIndex_processPayload {u : FlashblocksPayloadV1} (hu : u.AccountsOnly)
    {c : Cache} : (processPayload decode u c).highestIndex =
      if passesGate u c then (updateFlashblocksIndex u.index c).highestIndex
      else c.highestIndex := by
  rcases processPayload_cases decode u c with ⟨hg, h⟩ | ⟨m, hm, hg, -⟩
  · have : passesGate u c = false := by
      unfold passesGate; split <;> simp_all
    rw [h, this, if_neg (by simp)]
  · have : passesGate u c = true := by simp [passesGate, hm, hg]
    rw [this, if_pos rfl]
    simp only [Cache.highestIndex, get_eq, (processPayload_agrees_of_passes decode hm hg).lookup_eq
      (highestPayloadIndex_not_storeKeys (hu m hm))]

/-- Along a run, the tracker follows the indices past the gate, from whatever history it had.
Source: `flashblocks.rs` 149–184, 308–332
Kind: L -/
theorem highestIndex_run (us : List FlashblocksPayloadV1) (hus : ∀ u ∈ us, u.AccountsOnly)
    {c : Cache} (hc : c.Healthy) (p : List UInt64) (hp : c.highestIndex = highestSinceReset p) :
    (run decode us c).highestIndex = highestSinceReset (p ++ gatedIndices decode us c) := by
  induction us generalizing c p with
  | nil => simpa [gatedIndices] using hp
  | cons u us ih =>
    have hu := hus u (List.mem_cons_self u us)
    rw [run_cons, gatedIndices, ← List.append_assoc]
    refine ih (fun v hv => hus v (List.mem_cons_of_mem u hv)) (healthy_processPayload decode u hc)
      _ ?_
    rw [highestIndex_processPayload decode hu]
    split
    · rw [highestIndex_updateFlashblocksIndex hc, highestSinceReset_append, hp]
    · rw [hp, List.append_nil]

/-- **The tracker.** After any run from the empty cache whose balance maps name accounts,
`"highest_payload_index"` holds the largest index among the updates past the base gate since
the last such update of index `0`, whatever their block numbers and whether the stale gate then
rejected them; and the next index-0 update records that value plus one as the previous block's
flash-block count, as long as the sum stays below `u64::MAX + 1` (`UInt64.size`).
Source: `flashblocks.rs` 149–184, 308–332
Kind: P -/
theorem highestPayloadIndex_run (us : List FlashblocksPayloadV1) (hus : ∀ u ∈ us, u.AccountsOnly) :
    (run decode us Cache.empty).highestIndex = highestSinceReset (gatedIndices decode us Cache.empty) ∧
    ∀ t, highestSinceReset (gatedIndices decode us Cache.empty) = some t → t + 1 < UInt64.size →
      (flashblocksInBlock 0 (run decode us Cache.empty)).map UInt64.toNat = some (t + 1) := by
  have h := highestIndex_run decode us hus (c := Cache.empty) (fun _ => rfl) [] rfl
  rw [List.nil_append] at h
  refine ⟨h, fun t ht hlt => ?_⟩
  rw [ht, Cache.highestIndex] at h
  obtain ⟨x, hx, rfl⟩ := Option.map_eq_some'.mp h
  rw [flashblocksInBlock, if_pos rfl, hx]
  simp only [Option.map_some', UInt64.toNat_add_one, Nat.mod_eq_of_lt hlt]

/-- The test helper's updates carry no balances. Source: none: test data. Kind: L -/
theorem payloadWithIndex_accountsOnly (i n : UInt64) : (payloadWithIndex i n).AccountsOnly := by
  intro m hm p hp
  simp only [payloadWithIndex, Option.some.injEq] at hm
  subst hm
  simp at hp

/-- Nor do the updates with transactions built from them. Source: none: test data. Kind: L -/
@[simp] theorem payloadWithTransactions_accountsOnly (i n : UInt64) (transactions : List Bytes) :
    (payloadWithTransactions i n transactions).AccountsOnly :=
  payloadWithIndex_accountsOnly i n

/-- At the test helper's updates for block `2` and then a stale one for block `1`, the tracker
is the largest index since the last gated index `0`: `0`.
Source: none: sample input
Kind: L -/
theorem highestPayloadIndex_run_sample :
    (run (fun _ => none) [payloadWithIndex 0 2, payloadWithIndex 1 2, payloadWithIndex 0 1]
      Cache.empty).highestIndex = some 0 := by
  rw [(highestPayloadIndex_run (fun _ => none) _ (by simp [payloadWithIndex_accountsOnly])).1]
  decide

/-- Two ways the tracker leaves the per-block law: a stale index-0 update for block `1` resets
it while block `2`, still pending, has reached index `1`; and after an index of `u64::MAX` the
count recorded for the block wraps to `0`.
Source: `flashblocks.rs` 308–332
Kind: L -/
theorem tracker_leaves_active_block :
    ((run (fun _ => none) [payloadWithIndex 0 2, payloadWithIndex 1 2, payloadWithIndex 0 1]
      Cache.empty).get .pending Value.block?).map OpBlock.number = some 2 ∧
    (run (fun _ => none) [payloadWithIndex 0 2, payloadWithIndex 1 2, payloadWithIndex 0 1]
      Cache.empty).highestIndex = some 0 ∧
    flashblocksInBlock 0 (run (fun _ => none)
      [payloadWithIndex 0 2, payloadWithIndex 18446744073709551615 2] Cache.empty) = some 0 := by
  decide

end FlashblocksRpc
