import FlashblocksRpc.Races

/-!
# Nothing the actor writes outlives ten seconds

Every write of the actor gives its entry ten seconds to live (`Some(10)` at each `cache.set`
of `flashblocks.rs`), and nothing else changes an entry. So along any timed run from the empty
cache, whatever the updates and the waits between them, every entry expires at most ten seconds
after the clock, and after ten seconds without an update the cache reads as empty:

* `Cache.Refreshes c c'`: `c'` is `c` with some entries rewritten to expire ten seconds from
  now, on the same clock. One lemma per function of `Actor.lean` says it refreshes the cache it
  is given (`updateFlashblocksIndex_refreshes`, …, `storeBlock_refreshes`), and
  `processPayload_refreshes` follows from `processPayload_cases`.
* `Cache.Fresh c`: every entry of `c` expires at most ten seconds after its clock. Refreshing
  and waiting keep it (`Fresh.of_refreshes`, `Fresh.tick`), so every timed run from the empty
  cache does (`fresh_runEvents`), and ten seconds later nothing is live (`Fresh.lookup_tick`).
* **`handlers_after_quiet`**: after any timed run from the empty cache and then ten seconds or
  more without an update, every key reads as absent: `block_by_number(pending)` answers `None`,
  `get_transaction_receipt` and `get_balance` the base node's answer, `get_transaction_count`
  the base node's nonce, and `call` runs the request alone.

The bound is the code's: nine seconds after an update its block is still the pending one (the
example after the theorem). Time is the model's whole seconds (`Cache.tick`); the handlers read
the cache as it stands at the end of the wait.
-/

namespace FlashblocksRpc

namespace Cache

/-! ## Refreshing writes -/

/-- `c'` is `c` with some entries rewritten to expire ten seconds from now, on the same clock.
Source: `flashblocks.rs`, every `cache.set(.., Some(10))`
Kind: D -/
def Refreshes (c c' : Cache) : Prop :=
  c'.now = c.now ∧
    ∀ k, c'.entries k = c.entries k ∨ ∃ v, c'.entries k = some ⟨v, some (c.now + 10)⟩

/-- A cache refreshes itself, with nothing rewritten. Source: none: infrastructure. Kind: L -/
theorem Refreshes.refl (c : Cache) : c.Refreshes c := ⟨rfl, fun _ => Or.inl rfl⟩

/-- Refreshing twice is refreshing. Source: none: infrastructure. Kind: L -/
theorem Refreshes.trans {c c' c'' : Cache} (h : c.Refreshes c') (h' : c'.Refreshes c'') :
    c.Refreshes c'' := by
  refine ⟨h'.1.trans h.1, fun k => ?_⟩
  rcases h'.2 k with e | ⟨v, e⟩
  · rw [e]; exact h.2 k
  · exact Or.inr ⟨v, by rw [e, h.1]⟩

/-- A write with a ten-second time-to-live refreshes. Source: none: infrastructure. Kind: L -/
theorem refreshes_write (c : Cache) (k : Key) (v : Value) :
    c.Refreshes (c.write k v (some 10)) := by
  refine ⟨rfl, fun k' => ?_⟩
  by_cases hk : k' = k
  · subst hk; exact Or.inr ⟨v, by simp [write]⟩
  · exact Or.inl (by simp [write, Function.update_noteq hk])

/-- A successful `set` with a ten-second time-to-live refreshes.
Source: none: infrastructure
Kind: L -/
theorem refreshes_set {c c' : Cache} {k : Key} {v : Value} (h : c.set k v (some 10) = some c') :
    c.Refreshes c' := by
  unfold set at h
  split at h
  · cases h
  · cases h; exact refreshes_write c k v

/-- A logged write with a ten-second time-to-live refreshes, whether or not it fails.
Source: none: infrastructure
Kind: L -/
theorem refreshes_put (c : Cache) (k : Key) (v : Value) : c.Refreshes (c.put k v (some 10)) := by
  unfold put
  cases h : c.set k v (some 10) with
  | none => exact Refreshes.refl c
  | some c' => exact refreshes_set h

/-! ## Fresh caches -/

/-- Every entry expires at most ten seconds after the clock.
Source: spec §3 ("a uniform short TTL")
Kind: D -/
def Fresh (c : Cache) : Prop :=
  ∀ k e, c.entries k = some e → ∃ t, e.expiry = some t ∧ t ≤ c.now + 10

/-- The empty cache is fresh. Source: none: infrastructure. Kind: L -/
theorem fresh_empty : empty.Fresh := fun _ _ h => nomatch h

/-- Refreshing keeps a cache fresh. Source: none: infrastructure. Kind: L -/
theorem Fresh.of_refreshes {c c' : Cache} (hc : c.Fresh) (h : c.Refreshes c') : c'.Fresh := by
  intro k e he
  rw [h.1]
  rcases h.2 k with e' | ⟨v, e'⟩
  · exact hc k e (e' ▸ he)
  · rw [e'] at he
    cases he
    exact ⟨_, rfl, le_refl _⟩

/-- Time passing keeps a cache fresh. Source: none: infrastructure. Kind: L -/
theorem Fresh.tick {c : Cache} (hc : c.Fresh) (dt : Nat) : (c.tick dt).Fresh := fun k e he =>
  let ⟨t, ht, hle⟩ := hc k e he
  ⟨t, ht, by simp only [Cache.tick]; omega⟩

/-- Ten seconds on, nothing of a fresh cache is live. Source: none: infrastructure. Kind: L -/
theorem Fresh.lookup_tick {c : Cache} (hc : c.Fresh) {dt : Nat} (hdt : 10 ≤ dt) (k : Key) :
    (c.tick dt).lookup k = none := by
  cases he : c.entries k with
  | none => exact tick_lookup_of_entries_none he dt
  | some e =>
    obtain ⟨t, ht, hle⟩ := hc k e he
    obtain ⟨v, x⟩ := e
    cases ht
    rw [tick_lookup_of_entries he, if_neg (by omega)]

end Cache

open Cache

/-! ## Every step refreshes -/

/-- `update_flashblocks_index` refreshes. Source: `flashblocks.rs` 308–332. Kind: L -/
theorem updateFlashblocksIndex_refreshes (index : UInt64) (c : Cache) :
    c.Refreshes (updateFlashblocksIndex index c) := by
  dsimp only [updateFlashblocksIndex]
  split_ifs
  · exact refreshes_put c _ _
  · exact refreshes_put c _ _
  · exact Refreshes.refl c

/-- `getAndSetCumulative` refreshes. Source: `flashblocks.rs` 334–362, 457–488. Kind: L -/
theorem getAndSetCumulative_refreshes {key : Key} {wrap : List α → Value}
    {unwrap : Value → Option (List α)} {items : List α} {i : UInt64} {c c' : Cache}
    {l : List α} (h : getAndSetCumulative key wrap unwrap items i c = some (l, c')) :
    c.Refreshes c' := by
  obtain ⟨l', -, h⟩ := Option.bind_eq_some.mp h
  obtain ⟨c'', hset, hc⟩ := Option.map_eq_some'.mp h
  cases hc
  exact refreshes_set hset

/-- `resolveBase` refreshes. Source: `flashblocks.rs` 186–201. Kind: L -/
theorem resolveBase_refreshes {b : Option ExecutionPayloadBaseV1} {n : UInt64} {c c' : Cache}
    {base : ExecutionPayloadBaseV1} (h : resolveBase b n c = some (base, c')) : c.Refreshes c' := by
  rcases resolveBase_cases h with ⟨-, -, rfl⟩ | ⟨-, -, rfl⟩
  · exact refreshes_write _ _ _
  · exact Refreshes.refl _

/-- `recordSender` refreshes. Source: `flashblocks.rs` 398–425. Kind: L -/
theorem recordSender_refreshes (n : UInt64) (tx : OpTransactionSigned) (c : Cache) :
    c.Refreshes (recordSender n tx c) := by
  dsimp only [recordSender]
  split
  · exact Refreshes.refl c
  · exact ((refreshes_put c _ _).trans (refreshes_put _ _ _)).trans (refreshes_put _ _ _)

/-- `storeReceipt` refreshes. Source: `flashblocks.rs` 428–447. Kind: L -/
theorem storeReceipt_refreshes (n : UInt64) (m : Metadata) (h : TxHash) (st : TxLoop) :
    st.cache.Refreshes (storeReceipt n m h st).cache := by
  unfold storeReceipt
  split
  · exact Refreshes.refl _
  · split
    · exact Refreshes.refl _
    · rename_i hset
      split
      · exact refreshes_set hset
      · rename_i hset'
        exact (refreshes_set hset).trans (refreshes_set hset')

/-- One pass of the loop refreshes. Source: `flashblocks.rs` 378–448. Kind: L -/
theorem txStep_refreshes (n : UInt64) (m : Metadata) (st : TxLoop) (idx : Nat)
    (tx : OpTransactionSigned) : st.cache.Refreshes (txStep n m st idx tx).cache := by
  dsimp only [txStep]
  split
  · split
    · exact Refreshes.refl _
    · rename_i hset
      split
      · exact refreshes_set hset
      · rename_i hset'
        exact ((refreshes_set hset).trans (refreshes_set hset')).trans
          ((recordSender_refreshes n tx _).trans (storeReceipt_refreshes n m tx.hash _))
  · exact storeReceipt_refreshes n m tx.hash _

/-- The loop refreshes. Source: `flashblocks.rs` 378–448. Kind: L -/
theorem txLoop_refreshes (n : UInt64) (m : Metadata) (idx : Nat) (txs : List OpTransactionSigned)
    (st : TxLoop) : st.cache.Refreshes (txLoop n m idx txs st).cache := by
  induction txs generalizing idx st with
  | nil => exact Refreshes.refl _
  | cons tx txs ih => exact (txStep_refreshes n m st idx tx).trans (ih _ _)

/-- Storing the balances refreshes. Source: `flashblocks.rs` 288–293. Kind: L -/
theorem storeBalances_refreshes (l : List (Key × String)) (c : Cache) :
    c.Refreshes (storeBalances l c) := by
  induction l generalizing c with
  | nil => exact Refreshes.refl c
  | cons p l ih => exact (refreshes_put c _ _).trans (ih _)

/-- `indexBlock` refreshes. Source: `flashblocks.rs` 262–293. Kind: L -/
theorem indexBlock_refreshes (i : UInt64) (m : Metadata) (block : OpBlock) (c : Cache) :
    c.Refreshes (indexBlock i m block c) := by
  have h₁ : c.Refreshes (getAndSetTxsAndReceipts block m.blockNumber c m).2 :=
    (txLoop_refreshes _ m 0 _ _).trans (refreshes_put _ _ _)
  dsimp only [indexBlock]
  split
  · exact h₁
  · rename_i h₂
    exact (h₁.trans (getAndSetCumulative_refreshes h₂)).trans (storeBalances_refreshes _ _)

/-- `storeBlock` refreshes. Source: `flashblocks.rs` 248–293. Kind: L -/
theorem storeBlock_refreshes (i : UInt64) (m : Metadata) (block : OpBlock) (c : Cache) :
    c.Refreshes (storeBlock i m block c) := by
  unfold storeBlock
  split
  · exact Refreshes.refl c
  · rename_i h₁
    split
    · exact refreshes_set h₁
    · rename_i h₂
      exact ((refreshes_set h₁).trans (refreshes_set h₂)).trans (indexBlock_refreshes i m block _)

section Timed

variable (decode : Bytes → Option OpTransactionSigned)

/-- **Every update only refreshes**: each write `process_payload` makes carries a ten-second
time-to-live, and it changes nothing else.
Source: `flashblocks.rs` 149–306
Kind: L -/
theorem processPayload_refreshes (u : FlashblocksPayloadV1) (c : Cache) :
    c.Refreshes (processPayload decode u c) := by
  rcases processPayload_cases decode u c with ⟨-, h⟩ | ⟨m, -, -, h⟩
  · rw [h]; exact Refreshes.refl c
  have h₀ := updateFlashblocksIndex_refreshes u.index c
  rcases h with h | ⟨-, base, c₂, hb, h | ⟨txs, c₃, ht, h | ⟨block, -, h⟩⟩⟩ <;> rw [h]
  · exact h₀
  · exact h₀.trans (resolveBase_refreshes hb)
  · exact (h₀.trans (resolveBase_refreshes hb)).trans (getAndSetCumulative_refreshes ht)
  · exact ((h₀.trans (resolveBase_refreshes hb)).trans (getAndSetCumulative_refreshes ht)).trans
      (storeBlock_refreshes _ m block c₃)

/-! ## Timed runs -/

/-- Any interleaving of updates and waits from a fresh cache leaves it fresh.
Source: `flashblocks.rs` 135–143; spec §5
Kind: L -/
theorem fresh_runEvents (es : List Event) {c : Cache} (hc : c.Fresh) :
    (runEvents decode es c).Fresh := by
  induction es generalizing c with
  | nil => exact hc
  | cons e es ih =>
    apply ih
    cases e with
    | deliver u => exact hc.of_refreshes (processPayload_refreshes decode u c)
    | wait dt => exact hc.tick dt

variable {L R E Req : Type} (extractL1Info : BlockBody → Option L)
  (buildReceipt : ReceiptInput L → Option R) (checksumCase : Address → Nat → Bool)
  (parseQuantity : String → Option U256) (fromTransaction : OpTransactionSigned → Req)

/-- **After ten quiet seconds the handlers answer from the base node alone**: after any timed
run from the empty cache and then a wait of ten seconds or more, every key reads as absent, so
`block_by_number(pending)` answers `None`, `get_transaction_receipt` and `get_balance` answer what
the base node answered, `get_transaction_count` the base node's nonce, and `call` submits the
request alone.
Source: `flashblocks.rs` 149–488 (every `cache.set(.., Some(10))`), `rpc.rs` 235–396
Kind: P -/
theorem handlers_after_quiet (es : List Event) {dt : Nat} (hdt : 10 ≤ dt) (full : Bool)
    (baseReceipt : Except E (Option R)) (h : TxHash) (baseBalance : Except E U256)
    (currentNonce : U256) (latest : Option UInt64) (a : Address) (request : Req) :
    (∀ k, ((runEvents decode es Cache.empty).tick dt).lookup k = none) ∧
    blockByNumber ((runEvents decode es Cache.empty).tick dt) full = .ok none ∧
    getTransactionReceipt extractL1Info buildReceipt baseReceipt h
      ((runEvents decode es Cache.empty).tick dt) = .ok baseReceipt ∧
    getBalance checksumCase parseQuantity baseBalance a
      ((runEvents decode es Cache.empty).tick dt) = baseBalance ∧
    getTransactionCount currentNonce latest a ((runEvents decode es Cache.empty).tick dt) =
      currentNonce ∧
    callBundle fromTransaction ((runEvents decode es Cache.empty).tick dt) request = [request] := by
  have hnone := (fresh_runEvents decode es fresh_empty).lookup_tick hdt
  refine ⟨hnone, ?_, ?_, ?_, ?_, ?_⟩
  · simp [blockByNumber, hnone]; rfl
  · rcases baseReceipt with _ | _ | _
    · rfl
    · simp only [getTransactionReceipt, get_eq, hnone, Option.none_bind]
      rfl
    · rfl
  · simp [getBalance, hnone]
  · cases latest <;> simp [getTransactionCount, Cache.sendCount, hnone]
  · simp [callBundle, hnone]

/-- `depositUpdate`, then ten quiet seconds: every key is absent, and each handler answers as the
base node does or with nothing from the cache.
Source: none: sample input
Kind: L -/
theorem handlers_after_quiet_deposit :
    10 ≤ 10 ∧
    (∀ k, ((runEvents testDecode [.deliver depositUpdate] Cache.empty).tick 10).lookup k = none) ∧
    blockByNumber ((runEvents testDecode [.deliver depositUpdate] Cache.empty).tick 10) true =
      .ok none ∧
    getTransactionReceipt (fun _ => some ()) (fun _ => some ()) (.ok none : Except Unit (Option Unit))
      9 ((runEvents testDecode [.deliver depositUpdate] Cache.empty).tick 10) = .ok (.ok none) ∧
    getBalance (fun _ _ => true) (fun _ => none) (.ok 0 : Except Unit U256) 1
      ((runEvents testDecode [.deliver depositUpdate] Cache.empty).tick 10) = .ok 0 ∧
    getTransactionCount 0 (some 0) 1
      ((runEvents testDecode [.deliver depositUpdate] Cache.empty).tick 10) = 0 ∧
    callBundle (fun tx => tx.hash.toNat)
      ((runEvents testDecode [.deliver depositUpdate] Cache.empty).tick 10) 5 = [5] :=
  ⟨le_refl 10, handlers_after_quiet testDecode (fun _ => some ()) (fun _ => some ())
    (fun _ _ => true) (fun _ => none) (fun tx => tx.hash.toNat) [.deliver depositUpdate]
    (le_refl 10) true (.ok none) 9 (.ok 0) 0 (some 0) 1 5⟩

/-- Nine seconds after the deposit update, its block is still the pending one. -/
example : (((runEvents testDecode [.deliver depositUpdate] Cache.empty).tick 9).lookup
    .pending).isSome := by
  decide

end Timed

end FlashblocksRpc
